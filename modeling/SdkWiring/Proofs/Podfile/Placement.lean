import SdkWiring.Proofs.Podfile.Block

/-!
# Where a pod goes

A pod counts as listed if one of the lines inside the block of its target lists it, or one of the
lines of the file if there is no block. Otherwise its line becomes the last one inside the block, or
the last one of the file.

* `Podfile.HasBlock.listed_iff`, `Podfile.HasBlock.placement_eq`: with a block.
* `Podfile.HasNoBlock.listed_iff`, `Podfile.HasNoBlock.placement_eq`: without one.
* `Podfile.HasBlock.addPod`, `Podfile.HasNoBlock.append`: a file with one more pod.
-/

namespace SdkWiring

namespace Podfile

open Pattern

variable {target content pod l x y : Text} {pods news ls : List Text} {b : Block} {eol : LineBreak}

/-- The block that a file has for a target. -/
structure HasBlock (content target : Text) (b : Block) : Prop where
  lines : content.lines = b.lines
  found : b.Found (Mentions target)

/-- A file has no block for a target. -/
def HasNoBlock (content target : Text) : Prop := ∀ b, ¬ HasBlock content target b

/-- A line that is written for one of several pods. -/
def IsNew (pods : List Text) (l : Text) : Prop :=
  ∃ pod ∈ pods, ∃ indent eol, (∀ c ∈ indent, Text.isBlank c = true) ∧ l = indent ++ newLine pod eol

/-- The block with further lines at its end. -/
def Block.extend (b : Block) (news : List Text) : Block := { b with inner := b.inner ++ news }

/-! ## The line for a pod -/

theorem IsNew.mono {pods' : List Text} (h : IsNew pods l) (hsub : ∀ pod ∈ pods, pod ∈ pods') :
    IsNew pods' l := by
  obtain ⟨pod, hpod, hl⟩ := h
  exact ⟨pod, hsub pod hpod, hl⟩

theorem isNew_singleton : IsNew [pod] l ↔
    ∃ indent eol, (∀ c ∈ indent, Text.isBlank c = true) ∧ l = indent ++ newLine pod eol := by
  simp only [IsNew, List.mem_singleton, exists_eq_left]

theorem IsNew.isPodLine (h : IsNew [pod] l) : IsPodLine pod l := by
  obtain ⟨indent, eol, hblank, rfl⟩ := isNew_singleton.1 h
  exact isPodLine_newLine hblank pod eol

theorem IsNew.whole (h : IsNew pods l) (hpods : ∀ pod ∈ pods, '\n' ∉ pod) : Text.Whole l := by
  obtain ⟨pod, hpod, indent, eol, hblank, rfl⟩ := h
  have hindent : '\n' ∉ indent := fun hm => ne_feed_of_isBlank (hblank _ hm) rfl
  have hstart : '\n' ∉ "pod '".toList := by decide
  have hname := hpods pod hpod
  rw [newLine_eq]
  cases eol
  · refine ⟨indent ++ ("pod '".toList ++ (pod ++ ['\''])), ?_, ?_⟩
    · simp only [List.mem_append, List.mem_singleton, not_or]
      exact ⟨hindent, hstart, hname, by decide⟩
    · simp only [List.append_assoc]
      rfl
  · refine ⟨indent ++ ("pod '".toList ++ (pod ++ ['\'', '\r'])), ?_, ?_⟩
    · simp only [List.mem_append, List.mem_cons, List.not_mem_nil, or_false, not_or]
      exact ⟨hindent, hstart, hname, by decide, by decide⟩
    · simp only [List.append_assoc]
      rfl

/-- A line that lists a pod ends no block. -/
theorem IsNew.not_isEnd (h : IsNew pods l) : ¬ IsEnd l := by
  obtain ⟨pod, -, indent, eol, hblank, rfl⟩ := h
  rintro ⟨rest, hend, -⟩
  cases indent with
  | nil => exact absurd (List.cons.inj hend).1 (by decide)
  | cons c indent =>
    obtain rfl : c = 'e' := (List.cons.inj hend).1
    exact absurd (hblank 'e' List.mem_cons_self) (by decide)

/-! ## With a block -/

namespace HasBlock

theorem unique {b' : Block} (h : HasBlock content target b) (h' : HasBlock content target b') :
    b = b' := h.found.unique h'.found (h.lines.symm.trans h'.lines)

/-- **The range that the search finds**: a part of the opener, and the lines inside the block. -/
theorem range (h : HasBlock content target b) (ht : '\n' ∉ target) : ∃ start y,
    targetBlock? content target = some (start, b.stop) ∧ Opens target y ∧
      (start.upTo b.stop).lines = y :: b.inner := by
  obtain ⟨x, y, hopener, hy, -, hblock⟩ := targetBlock?_of_found ht h.lines h.found
  refine ⟨_, y, hblock, hy, ?_⟩
  obtain ⟨-, ⟨z, hz, hwhole⟩, hinner⟩ := Block.whole h.lines
  have hyne : y ≠ [] := by
    rintro rfl
    exact absurd hy.head? (by simp)
  obtain ⟨y', c, rfl⟩ := (List.eq_nil_or_concat' y).resolve_left hyne
  rw [hopener, ← List.append_assoc] at hwhole
  obtain ⟨hz', hc⟩ := List.append_inj' hwhole rfl
  obtain rfl : c = '\n' := (List.cons.inj hc).1
  have hupTo : ∀ e a : Text, Cursor.upTo ⟨e, a ++ b.stop.after⟩ b.stop = a := by
    intro e a
    rw [Cursor.upTo, List.length_append, Nat.add_sub_cancel, List.take_left]
  have hlist : ∀ l ∈ (y' ++ ['\n']) :: b.inner, Text.Whole l := List.forall_mem_cons.2
    ⟨⟨y', fun hm => hz (hz' ▸ List.mem_append_right _ hm), rfl⟩, hinner⟩
  rw [← List.append_assoc, hupTo, ← List.flatten_cons, Text.lines_flatten_whole hlist]

/-- **A pod is listed in a block** just if a line inside the block lists it. -/
theorem listed_iff (h : HasBlock content target b) (ht : '\n' ∉ target) (hpod : '\n' ∉ pod) :
    placement content target pod = .listed ↔ ∃ l ∈ b.inner, IsPodLine pod l := by
  obtain ⟨start, y, hblock, hy, hlines⟩ := h.range ht
  have hlists : lists (start.upTo b.stop) pod = true ↔ _ := lists_iff hpod
  rw [hlines, List.exists_mem_cons_iff] at hlists
  simp only [hy.not_isPodLine, false_or] at hlists
  rw [← hlists, placement, hblock]
  simp only
  split <;> simp_all

theorem placement_eq (h : HasBlock content target b) (ht : '\n' ∉ target) (hpod : '\n' ∉ pod)
    (hno : ¬ ∃ l ∈ b.inner, IsPodLine pod l) : placement content target pod = .inTarget b.stop := by
  rw [← h.listed_iff ht hpod] at hno
  obtain ⟨start, y, hblock, -⟩ := h.range ht
  rw [placement, hblock] at hno ⊢
  simp only at hno ⊢
  split <;> simp_all

/-- Lines at the end of the block that end none make the block longer. -/
theorem extend (h : HasBlock content target b) (hnews : ∀ l ∈ news, Text.Whole l)
    (hend : ∀ l ∈ news, ¬ IsEnd l) : HasBlock (b.extend news).lines.flatten target (b.extend news) := by
  obtain ⟨hbefore, hopener, hinner⟩ := Block.whole h.lines
  have hsplit : content.lines = (b.before ++ b.opener :: b.inner) ++ b.closer :: b.behind := by
    rw [h.lines]
    simp [Block.lines]
  have hwhole : ∀ l ∈ b.before ++ b.opener :: (b.inner ++ news), Text.Whole l := by
    simp only [List.forall_mem_append, List.forall_mem_cons]
    exact ⟨hbefore, hopener, hinner, hnews⟩
  have hbehind : Text.lines (b.closer :: b.behind).flatten = b.closer :: b.behind := by
    have hlines := congrArg List.flatten hsplit
    rw [Text.flatten_lines, List.flatten_append] at hlines
    have hcut := Text.lines_flatten_append (Text.lines_split hsplit).1 (b.closer :: b.behind).flatten
    rw [← hlines, hsplit] at hcut
    exact (List.append_cancel_left hcut).symm
  have hlines : (b.extend news).lines =
      (b.before ++ b.opener :: (b.inner ++ news)) ++ b.closer :: b.behind := by
    simp [Block.lines, Block.extend]
  refine ⟨?_, h.found.before, h.found.opener, ?_, h.found.closer⟩
  · rw [hlines, List.flatten_append, Text.lines_flatten_append hwhole, hbehind]
  · exact List.forall_mem_append.2 ⟨h.found.inner, hend⟩

/-- **A file with one more pod** has the lines inside the block that it had, and one that lists the
pod. -/
theorem addPod (h : HasBlock content target b) (ht : '\n' ∉ target) (hpod : '\n' ∉ pod) :
    ∃ news, HasBlock (addPod content target pod) target (b.extend news) ∧
      (∀ l ∈ news, IsNew [pod] l) ∧ ∃ l ∈ b.inner ++ news, IsPodLine pod l := by
  by_cases hlisted : ∃ l ∈ b.inner, IsPodLine pod l
  · have hplace := (h.listed_iff ht hpod).2 hlisted
    refine ⟨[], ?_, by simp, by simpa using hlisted⟩
    simpa [Podfile.addPod, hplace, Block.extend] using h
  · have hplace := h.placement_eq ht hpod hlisted
    have hnew : IsNew [pod] ("  ".toList ++ newLine pod (.detect content)) :=
      isNew_singleton.2 ⟨_, _, by decide, rfl⟩
    have hadd : Podfile.addPod content target pod =
        (b.extend ["  ".toList ++ newLine pod (.detect content)]).lines.flatten := by
      rw [Podfile.addPod, hplace]
      simp [Block.extend, Block.lines, Block.stop]
    have hwhole := hnew.whole (by simpa using hpod)
    have hblock := h.extend (List.forall_mem_singleton.2 hwhole)
      (List.forall_mem_singleton.2 hnew.not_isEnd)
    exact ⟨[_], hadd ▸ hblock, List.forall_mem_singleton.2 hnew, _,
      List.mem_append_right _ List.mem_cons_self, hnew.isPodLine⟩

end HasBlock

/-! ## Without a block -/

theorem HasNoBlock.targetBlock? (h : HasNoBlock content target) (ht : '\n' ∉ target) :
    Podfile.targetBlock? content target = none := by
  rw [← Option.not_isSome_iff_eq_none]
  intro hsome
  obtain ⟨b, hlines, hfound⟩ := exists_found_of_isSome ht hsome
  exact h b ⟨hlines, hfound⟩

theorem HasNoBlock.listed_iff (h : HasNoBlock content target) (ht : '\n' ∉ target)
    (hpod : '\n' ∉ pod) :
    placement content target pod = .listed ↔ ∃ l ∈ content.lines, IsPodLine pod l := by
  rw [← lists_iff hpod, placement, h.targetBlock? ht]
  simp only
  split <;> simp_all

theorem HasNoBlock.placement_eq (h : HasNoBlock content target) (ht : '\n' ∉ target)
    (hpod : '\n' ∉ pod) (hno : ¬ ∃ l ∈ content.lines, IsPodLine pod l) :
    placement content target pod = .atEnd := by
  rw [← h.listed_iff ht hpod] at hno
  rw [placement, h.targetBlock? ht] at hno ⊢
  simp only at hno ⊢
  split <;> simp_all

/-- A text ends its last line, or its last line is a part of one. -/
theorem endLastLine_cases (content : Text) (eol : LineBreak) :
    (endLastLine content eol = content ∧ ∀ l ∈ content.lines, Text.Whole l) ∨
      ∃ before l, content.lines = before ++ [l] ∧ '\n' ∉ l ∧ l ≠ [] ∧
        endLastLine content eol = content ++ eol.text := by
  rcases List.eq_nil_or_concat' content.lines with hnil | ⟨before, l, hlines⟩
  · obtain rfl : content = [] := by rw [← Text.flatten_lines content, hnil, List.flatten_nil]
    exact .inl ⟨rfl, by simp⟩
  · have hcontent : content = before.flatten ++ l := by
      rw [← Text.flatten_lines content, hlines]
      simp
    obtain ⟨hbefore, -, hline⟩ := Text.lines_split hlines
    rcases hline with ⟨t, ht, rfl⟩ | ⟨-, hne, hl⟩
    · refine .inl ⟨?_, ?_⟩
      · have hends : content.endsLine = true := by simp [hcontent, Text.endsLine]
        rw [endLastLine, hends, Bool.or_true, if_pos rfl]
      · rw [hlines]
        exact List.forall_mem_append.2 ⟨hbefore, List.forall_mem_singleton.2 ⟨t, ht, rfl⟩⟩
    · refine .inr ⟨before, l, hlines, hl, hne, ?_⟩
      obtain ⟨l, c, rfl⟩ := (List.eq_nil_or_concat' l).resolve_left hne
      have hc : c ≠ '\n' := by
        rintro rfl
        exact hl (by simp)
      have hends : (content.isEmpty || content.endsLine) = false := by
        simp [hcontent, Text.endsLine, hc]
      rw [endLastLine, hends, if_neg Bool.false_ne_true]

/-- The lines of a text whose last line is ended. -/
theorem lines_append_lineBreak {before : List Text} (hlines : content.lines = before ++ [l])
    (hl : '\n' ∉ l) (eol : LineBreak) :
    (content ++ eol.text).lines = before ++ [l ++ eol.text] ∧
      ∀ m ∈ (content ++ eol.text).lines, Text.Whole m := by
  have hbefore := (Text.lines_split hlines).1
  have hwhole : Text.Whole (l ++ eol.text) := by
    cases eol
    · exact ⟨l, hl, rfl⟩
    · exact ⟨l ++ ['\r'], by simp [hl], by simp [LineBreak.text]⟩
  have hall : ∀ m ∈ before ++ [l ++ eol.text], Text.Whole m :=
    List.forall_mem_append.2 ⟨hbefore, List.forall_mem_singleton.2 hwhole⟩
  have heq : content ++ eol.text = (before ++ [l ++ eol.text]).flatten := by
    rw [← Text.flatten_lines content, hlines]
    simp
  rw [heq, Text.lines_flatten_whole hall]
  exact ⟨rfl, hall⟩

theorem isEnd_append_lineBreak (h : IsEnd (l ++ eol.text)) : IsEnd l := by
  cases eol
  · exact (Text.beginsWith_append_stop (by decide) (by decide) []).1 h
  · exact (Text.beginsWith_append_stop (by decide) (by decide) ['\n']).1 h

/-- The lines of a text behind which a line is added. -/
theorem lines_endLastLine_append (h : Text.Whole x) :
    (endLastLine content eol ++ x).lines = (endLastLine content eol).lines ++ [x] := by
  have hwhole : ∀ m ∈ (endLastLine content eol).lines, Text.Whole m := by
    rcases endLastLine_cases content eol with ⟨heq, hall⟩ | ⟨before, l, hlines, hl, -, heq⟩
    · rwa [heq]
    · rw [heq]
      exact (lines_append_lineBreak hlines hl eol).2
  have hx : x.lines = [x] := by
    have hsingle : ∀ m ∈ [x], Text.Whole m := List.forall_mem_singleton.2 h
    simpa using Text.lines_flatten_whole hsingle
  have hcut := Text.lines_flatten_append hwhole x
  rwa [Text.flatten_lines, hx] at hcut

/-- A line for a pod at the end of a file makes no block. -/
theorem HasNoBlock.append (h : HasNoBlock content target) (hx : Text.Whole x) (hend : ¬ IsEnd x) :
    HasNoBlock (endLastLine content eol ++ x) target := by
  rintro ⟨before, opener, inner, closer, behind⟩ ⟨hlines, hbefore, hopener, hinner, hcloser⟩
  rw [lines_endLastLine_append hx] at hlines
  -- the line that ends the block is not the last one
  rcases List.eq_nil_or_concat' behind with rfl | ⟨behind, m, rfl⟩
  · have hlast : (endLastLine content eol).lines ++ [x] =
        (before ++ opener :: inner) ++ [closer] := by rw [hlines]; simp [Block.lines]
    obtain ⟨-, hx⟩ := List.append_inj' hlast rfl
    exact hend ((List.cons.inj hx).1 ▸ hcloser)
  have hlast : (endLastLine content eol).lines ++ [x] =
      (before ++ opener :: (inner ++ closer :: behind)) ++ [m] := by rw [hlines]; simp [Block.lines]
  obtain ⟨hended, -⟩ := List.append_inj' hlast rfl
  rcases endLastLine_cases content eol with ⟨heq, -⟩ | ⟨ls, l, hcontent, hl, -, heq⟩
  · rw [heq] at hended
    exact h ⟨before, opener, inner, closer, behind⟩ ⟨hended, hbefore, hopener, hinner, hcloser⟩
  rw [heq, (lines_append_lineBreak hcontent hl eol).1] at hended
  rcases List.eq_nil_or_concat' behind with rfl | ⟨behind, m', rfl⟩
  · have hsplit : ls ++ [l ++ eol.text] = (before ++ opener :: inner) ++ [closer] := by
      rw [hended]
      simp
    obtain ⟨rfl, hl'⟩ := List.append_inj' hsplit rfl
    obtain rfl := (List.cons.inj hl').1
    refine h ⟨before, opener, inner, l, []⟩
      ⟨?_, hbefore, hopener, hinner, isEnd_append_lineBreak hcloser⟩
    rw [hcontent]
    simp [Block.lines]
  · have hsplit : ls ++ [l ++ eol.text] =
        (before ++ opener :: (inner ++ closer :: behind)) ++ [m'] := by
      rw [hended]
      simp
    obtain ⟨rfl, -⟩ := List.append_inj' hsplit rfl
    refine h ⟨before, opener, inner, closer, behind ++ [l]⟩
      ⟨?_, hbefore, hopener, hinner, hcloser⟩
    rw [hcontent]
    simp [Block.lines]

/-- What a file lists is listed with a line added behind its last one. -/
theorem exists_isPodLine_append (h : ∃ l ∈ content.lines, IsPodLine pod l) (hx : Text.Whole x) :
    ∃ l ∈ (endLastLine content eol ++ x).lines, IsPodLine pod l := by
  obtain ⟨l, hmem, hl⟩ := h
  rw [lines_endLastLine_append hx]
  rcases endLastLine_cases content eol with ⟨heq, -⟩ | ⟨before, m, hlines, hm, -, heq⟩
  · exact ⟨l, List.mem_append_left _ (heq.symm ▸ hmem), hl⟩
  · rw [heq, (lines_append_lineBreak hlines hm eol).1]
    rw [hlines, List.mem_append, List.mem_singleton] at hmem
    rcases hmem with hmem | rfl
    · exact ⟨l, by simp [hmem], hl⟩
    · obtain ⟨w, hw, hprefix⟩ := hl
      exact ⟨l ++ eol.text, by simp, w, hw, hprefix.trans (List.prefix_append _ _)⟩

end Podfile

end SdkWiring
