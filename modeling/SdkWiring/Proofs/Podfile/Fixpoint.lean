import SdkWiring.Proofs.Podfile.Placement

/-!
# Adding pods again

Every pod that is added finds the same block of the target, or still none. So the lines for all pods
end up together at one place, every pod is listed afterwards, and adding them again changes nothing.

* `Podfile.HasNoBlock.addPod`: a file without a block of the target, with one more pod.
* `Podfile.HasBlock.addPods`, `Podfile.HasNoBlock.addPods`: a file with several more pods.
* `Podfile.listed_addPods`: every pod that was added is listed.
* `Podfile.addPods_addPods`: adding pods reaches a fixpoint at once.
-/

namespace SdkWiring

namespace Podfile

variable {target content pod l x y : Text} {pods news : List Text} {b : Block} {eol : LineBreak}

/-- A file that lists all the pods stays as it is. -/
theorem addPods_of_listed (h : ∀ pod ∈ pods, placement content target pod = .listed) :
    addPods content target pods = content := by
  induction pods with
  | nil => rfl
  | cons pod pods ih =>
    have hfirst : addPod content target pod = content := by
      rw [addPod, h pod List.mem_cons_self]
    rw [addPods, List.foldl_cons, hfirst]
    exact ih fun q hq => h q (List.mem_cons_of_mem _ hq)

theorem addPods_cons : addPods content target (pod :: pods) =
    addPods (addPod content target pod) target pods := rfl

theorem Block.extend_extend (b : Block) (news news' : List Text) :
    (b.extend news).extend news' = b.extend (news ++ news') := by
  simp [Block.extend]

/-- **A file with several more pods**, given its block of the target: new lines at the end of the
block, where every pod is listed now. -/
theorem HasBlock.addPods (h : HasBlock content target b) (ht : '\n' ∉ target)
    (hpods : ∀ pod ∈ pods, '\n' ∉ pod) :
    ∃ news, HasBlock (addPods content target pods) target (b.extend news) ∧
      (∀ l ∈ news, IsNew pods l) ∧ ∀ pod ∈ pods, ∃ l ∈ b.inner ++ news, IsPodLine pod l := by
  induction pods generalizing content b with
  | nil => exact ⟨[], by simpa [Podfile.addPods, Block.extend] using h, by simp, by simp⟩
  | cons pod pods ih =>
    obtain ⟨first, hfirst, hnew, hlisted⟩ := h.addPod ht (hpods pod List.mem_cons_self)
    obtain ⟨news, hblock, hnews, hall⟩ := ih hfirst fun q hq => hpods q (List.mem_cons_of_mem _ hq)
    rw [Block.extend_extend] at hblock
    refine ⟨first ++ news, hblock, List.forall_mem_append.2 ⟨?_, ?_⟩, List.forall_mem_cons.2 ⟨?_, ?_⟩⟩
    · exact fun l hl => (hnew l hl).mono (by simp)
    · exact fun l hl => (hnews l hl).mono fun q hq => List.mem_cons_of_mem _ hq
    · obtain ⟨l, hmem, hl⟩ := hlisted
      exact ⟨l, by rw [← List.append_assoc]; exact List.mem_append_left _ hmem, hl⟩
    · intro q hq
      obtain ⟨l, hmem, hl⟩ := hall q hq
      exact ⟨l, by simpa [Block.extend] using hmem, hl⟩

/-- **A file with one more pod**, if it has no block of the target: a line at its end, which is ended. -/
theorem HasNoBlock.addPod (h : HasNoBlock content target) (ht : '\n' ∉ target) (hpod : '\n' ∉ pod)
    (hunlisted : ¬ ∃ l ∈ content.lines, IsPodLine pod l) :
    addPod content target pod = endLastLine content (.detect content) ++ newLine pod (.detect content) ∧
      HasNoBlock (addPod content target pod) target ∧ (addPod content target pod).endsLine = true ∧
      ∀ q, (∃ l ∈ content.lines, IsPodLine q l) ∨ q = pod →
        ∃ l ∈ (addPod content target pod).lines, IsPodLine q l := by
  have hadd : Podfile.addPod content target pod = endLastLine content (.detect content) ++
      newLine pod (.detect content) := by
    rw [Podfile.addPod, h.placement_eq ht hpod hunlisted]
  have hnew : IsNew [pod] (newLine pod (.detect content)) :=
    isNew_singleton.2 ⟨[], _, by simp, rfl⟩
  have hwhole := hnew.whole (by simpa using hpod)
  rw [hadd]
  refine ⟨rfl, h.append hwhole hnew.not_isEnd, ?_, ?_⟩
  · obtain ⟨t, -, ht⟩ := hwhole
    rw [ht, Text.endsLine, ← List.append_assoc, List.getLast?_concat]
    rfl
  · rintro q (hq | rfl)
    · exact exists_isPodLine_append hq hwhole
    · exact ⟨newLine q (.detect content), by rw [lines_endLastLine_append hwhole]; simp, hnew.isPodLine⟩

/-- **A file with several more pods**, if it has no block of the target: new lines at its end, where
every pod is listed now. -/
theorem HasNoBlock.addPods (h : HasNoBlock content target) (ht : '\n' ∉ target)
    (hpods : ∀ pod ∈ pods, '\n' ∉ pod) :
    ∃ news eol, HasNoBlock (addPods content target pods) target ∧ (∀ l ∈ news, IsNew pods l) ∧
      (news = [] ∧ addPods content target pods = content ∨
        news ≠ [] ∧ addPods content target pods = endLastLine content eol ++ news.flatten) ∧
      ∀ pod, (∃ l ∈ content.lines, IsPodLine pod l) ∨ pod ∈ pods →
        ∃ l ∈ (addPods content target pods).lines, IsPodLine pod l := by
  induction pods generalizing content with
  | nil => exact ⟨[], .lf, h, by simp, .inl ⟨rfl, rfl⟩, by simp [Podfile.addPods]⟩
  | cons pod pods ih =>
    have hpod := hpods pod List.mem_cons_self
    have hrest : ∀ q ∈ pods, '\n' ∉ q := fun q hq => hpods q (List.mem_cons_of_mem _ hq)
    rw [addPods_cons]
    by_cases hlisted : ∃ l ∈ content.lines, IsPodLine pod l
    · have hsame : Podfile.addPod content target pod = content := by
        rw [Podfile.addPod, (h.listed_iff ht hpod).2 hlisted]
      rw [hsame]
      obtain ⟨news, eol, hno, hnews, heq, hall⟩ := ih h hrest
      refine ⟨news, eol, hno, fun l hl => (hnews l hl).mono fun q hq => List.mem_cons_of_mem _ hq,
        heq, fun q hq => hall q ?_⟩
      rcases hq with hq | hq
      · exact .inl hq
      · rcases List.mem_cons.1 hq with rfl | hq
        · exact .inl hlisted
        · exact .inr hq
    · obtain ⟨hadd, hfirst, hends, hnow⟩ := h.addPod ht hpod hlisted
      obtain ⟨news, eol, hno, hnews, heq, hall⟩ := ih hfirst hrest
      refine ⟨newLine pod (.detect content) :: news, .detect content, hno,
        List.forall_mem_cons.2 ⟨?_, fun l hl => (hnews l hl).mono fun q hq =>
          List.mem_cons_of_mem _ hq⟩, .inr ⟨List.cons_ne_nil _ _, ?_⟩, fun q hq => hall q ?_⟩
      · exact (isNew_singleton.2 ⟨[], _, by simp, rfl⟩ : IsNew [pod] _).mono (by simp)
      · -- the line that was added ends the file, so nothing has to be ended once more
        have hended : endLastLine (Podfile.addPod content target pod) eol =
            Podfile.addPod content target pod := by
          rw [endLastLine, hends, Bool.or_true, if_pos rfl]
        rcases heq with ⟨rfl, heq⟩ | ⟨-, heq⟩
        · rw [heq, hadd]
          simp
        · rw [heq, hended, hadd]
          simp
      · rcases hq with hq | hq
        · exact .inl (hnow q (.inl hq))
        · exact (List.mem_cons.1 hq).imp (fun heq => hnow q (.inr heq)) id

/-- **Every pod that was added is listed**, with a block of the target or without one. -/
theorem listed_addPods (content : Text) (ht : '\n' ∉ target) (hpods : ∀ pod ∈ pods, '\n' ∉ pod) :
    ∀ pod ∈ pods, placement (addPods content target pods) target pod = .listed := by
  intro pod hpod
  by_cases hblock : ∃ b, HasBlock content target b
  · obtain ⟨b, hb⟩ := hblock
    obtain ⟨news, hgrown, -, hall⟩ := hb.addPods ht hpods
    exact (hgrown.listed_iff ht (hpods pod hpod)).2 (hall pod hpod)
  · have hno : HasNoBlock content target := not_exists.1 hblock
    obtain ⟨news, eol, hgrown, -, -, hall⟩ := hno.addPods ht hpods
    exact (hgrown.listed_iff ht (hpods pod hpod)).2 (hall pod (.inr hpod))

/-- The pods that a file was given are not added again. -/
theorem addPods_again (content : Text) (ht : '\n' ∉ target) (hpods : ∀ pod ∈ pods, '\n' ∉ pod) :
    addPods (addPods content target pods) target pods = addPods content target pods :=
  addPods_of_listed (listed_addPods content ht hpods)

/-- What is added to a file stands at one place, at the start of a line or behind the last one, which
is ended if need be. -/
def IsGrown (pods : List Text) (content grown : Text) : Prop :=
  ∃ (x y : Text) (news : List Text) (eol : LineBreak), content = x ++ y ∧
    (EndsLine x.reverse ∨ y = [] ∧ news ≠ []) ∧ (∀ l ∈ news, Text.Whole l ∧ IsNew pods l) ∧
    grown = endLastLine x eol ++ (news.flatten ++ y)

theorem endLastLine_of_endsLine (h : EndsLine x.reverse) : endLastLine x eol = x := by
  rcases List.eq_nil_or_concat' x with rfl | ⟨x, c, rfl⟩
  · rfl
  · have hc : c = '\n' := by simpa [EndsLine] using h
    have hends : Text.endsLine (x ++ [c]) = true := by simp [Text.endsLine, hc]
    rw [endLastLine, hends, Bool.or_true, if_pos rfl]

/-- **Adding pods reaches a fixpoint at once.** A file to which the pods were added stays as it is
when they are added again. Every pod has a live line inside the block of the target, or somewhere
in the file if there is no block. And the file is what it was, with new lines at one place. -/
theorem addPods_addPods (previous : Option Text) (target platform : Text) (eol : LineBreak)
    (pods : List Text) (ht : '\n' ∉ target) (hpods : ∀ pod ∈ pods, '\n' ∉ pod) :
    let content := previous.getD (initial target platform eol)
    let grown := addPods content target pods
    addPods grown target pods = grown ∧
      (∀ start stop, targetBlock? grown target = some (start, stop) →
        ∀ pod ∈ pods, ∃ l ∈ (start.upTo stop).lines.tail, IsPodLine pod l) ∧
      (targetBlock? grown target = none → ∀ pod ∈ pods, ∃ l ∈ grown.lines, IsPodLine pod l) ∧
      IsGrown pods content grown := by
  intro content grown
  have hwhole : ∀ {news : List Text}, (∀ l ∈ news, IsNew pods l) →
      ∀ l ∈ news, Text.Whole l ∧ IsNew pods l :=
    fun hnews l hl => ⟨(hnews l hl).whole hpods, hnews l hl⟩
  by_cases hblock : ∃ b, HasBlock content target b
  · -- the block that is found has grown, and is found again
    obtain ⟨b, hb⟩ := hblock
    obtain ⟨news, hgrown, hnews, hall⟩ := hb.addPods ht hpods
    obtain ⟨start, y, hrange, -, hlines⟩ := hgrown.range ht
    refine ⟨addPods_again content ht hpods, ?_, fun hnone => ?_, ?_⟩
    · intro start' stop' hfound pod hpod
      rw [hrange] at hfound
      obtain ⟨rfl, rfl⟩ := Prod.mk.inj (Option.some.inj hfound)
      rw [hlines]
      exact hall pod hpod
    · rw [hrange] at hnone
      cases hnone
    · -- the new lines stand in front of the line that ends the block
      have hcontent := Block.eq_of_lines hb.lines
      have heq := Block.eq_of_lines hgrown.lines
      have hlines' := Block.whole hb.lines
      have hends : EndsLine (b.before ++ b.opener :: b.inner).flatten.reverse :=
        Text.endsLine_flatten (List.forall_mem_append.2
          ⟨hlines'.1, List.forall_mem_cons.2 hlines'.2⟩)
      refine ⟨(b.before ++ b.opener :: b.inner).flatten, b.closer ++ b.behind.flatten, news, .lf, ?_,
        .inl hends, hwhole hnews, ?_⟩
      · rw [hcontent]
        simp
      · rw [endLastLine_of_endsLine hends]
        exact heq.trans (by simp [Block.extend])
  · have hno : HasNoBlock content target := not_exists.1 hblock
    obtain ⟨news, eol, hgrown, hnews, heq, hall⟩ := hno.addPods ht hpods
    refine ⟨addPods_again content ht hpods, ?_, fun _ pod hpod => hall pod (.inr hpod), ?_⟩
    · intro start stop hfound
      rw [hgrown.targetBlock? ht] at hfound
      cases hfound
    · -- the new lines stand at the end, or there are none
      rcases heq with ⟨rfl, heq⟩ | ⟨hne, heq⟩
      · exact ⟨[], content, [], .lf, rfl, .inl rfl, by simp, heq.trans (by simp [endLastLine])⟩
      · exact ⟨content, [], news, eol, by simp, .inr ⟨rfl, hne⟩, hwhole hnews, heq.trans (by simp)⟩

theorem addPods_addPods_app :
    let target := "App".toList
    let pods := ["AppCenter/Analytics".toList, "AppCenter/Crashes".toList]
    let grown := addPods "target 'App' do\nend".toList target pods
    grown = "target 'App' do\n  pod 'AppCenter/Analytics'\n  pod 'AppCenter/Crashes'\nend".toList ∧
      '\n' ∉ target ∧ (∀ pod ∈ pods, '\n' ∉ pod) ∧ addPods grown target pods = grown :=
  ⟨by decide +kernel, by decide, by decide,
    (addPods_addPods (some _) _ [] .lf _ (by decide) (by decide)).1⟩

end Podfile

end SdkWiring
