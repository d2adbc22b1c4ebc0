import SdkWiring.Proofs.Podfile.Placement
import SdkWiring.Proofs.Podfile.Removal

/-!
# Taking an added pod out again

A pod is added as a line of its own, so taking the pod out gives what it would have given before. One
trace of the addition can stay: behind a last line that was not ended, the line break that ends it.

* `Podfile.targetBlock?_stop`: the end of a block stands at the start of a line.
* `Podfile.isPodLine_append_lineBreak`: a line is live with or without its line break.
* `Podfile.withoutPod_insert`: a new line for a pod leaves no trace.
* `Podfile.withoutPod_addPod`: what is left behind an addition.
-/

namespace SdkWiring.Podfile

open Pattern

variable {pod content target l x y : Text} {start stop : Cursor} {eol : LineBreak}

/-- The end of the block that is found cuts the file at the start of a line. -/
theorem targetBlock?_stop (h : targetBlock? content target = some (start, stop)) :
    content = stop.before.reverse ++ stop.after ∧ EndsLine stop.before := by
  obtain ⟨x, hfound⟩ := find?_eq_some h
  have hmem := end?_mem hfound.ends
  have hcontent : content = x ++ start.after := hfound.after
  have hbefore : start.before = x.reverse := by
    rw [hfound.start]
    simp [Cursor.advance, Cursor.start]
  obtain ⟨sb, sa⟩ := start
  rw [targetPattern_eq] at hmem
  obtain ⟨m, hm, hrest⟩ := mem_append.1 hmem
  obtain ⟨op, -, hop, -, hmb⟩ := mem_targetOpening.1 hm
  obtain ⟨n, hn, hend⟩ := mem_append.1 hrest
  obtain ⟨w, rest, hw, -, rfl⟩ := mem_few.1 hn
  obtain ⟨e, he, hend⟩ := mem_append.1 hend
  obtain ⟨behind, hfeed, rfl⟩ := mem_literal.1 he
  obtain ⟨-, rfl⟩ := mem_guard.1 hend
  have hfeed : rest = '\n' :: behind := hfeed
  refine ⟨?_, by simp [Cursor.advance, EndsLine]⟩
  rw [hcontent, hop, hw, hfeed]
  simp [Cursor.advance, hmb, show sb = x.reverse from hbefore]

/-- **A line is live with or without its line break.** -/
theorem isPodLine_append_lineBreak (hpod : '\n' ∉ pod) :
    IsPodLine pod (l ++ eol.text) ↔ IsPodLine pod l := by
  constructor
  · rintro ⟨w, hw, hpre⟩
    refine ⟨w, hw, ?_⟩
    have hfeed := hw.no_feed hpod
    cases eol with
    | lf => exact (Text.prefix_append_stop hfeed).1 hpre
    | crlf =>
      have hsplit : l ++ LineBreak.crlf.text = (l ++ ['\r']) ++ ['\n'] := by simp [LineBreak.text]
      rw [hsplit] at hpre
      -- the quote behind the name is no carriage return
      rcases List.prefix_concat_iff.1 ((Text.prefix_append_stop hfeed).1 hpre) with heq | hpre
      · obtain ⟨indent, gap, q, q', rfl, -, -, -, hq'⟩ := hw
        have hlast := congrArg List.getLast? heq
        simp only [List.getLast?_append, List.getLast?_cons] at hlast
        have hq : q' = '\r' := by simpa using hlast
        rw [hq] at hq'
        rcases hq' with h | h <;> exact absurd h (by decide)
      · exact hpre
  · rintro ⟨w, hw, hpre⟩
    exact ⟨w, hw, hpre.trans (List.prefix_append _ _)⟩

/-- **A new line for a pod leaves no trace** when the pod is taken out. -/
theorem withoutPod_insert (hpod : '\n' ∉ pod) (hx : EndsLine x.reverse) (hl : IsNew [pod] l) :
    withoutPod (x ++ (l ++ y)) pod = withoutPod (x ++ y) pod := by
  have hline : (l ++ y).lines = l :: y.lines := by
    have hwhole : ∀ m ∈ [l], Text.Whole m :=
      List.forall_mem_singleton.2 (hl.whole (by simpa using hpod))
    simpa using Text.lines_flatten_append hwhole y
  rw [withoutPod_eq hpod, withoutPod_eq hpod, Text.lines_append_of_endsLine hx, hline,
    Text.lines_append_of_endsLine hx, List.filter_append, List.filter_append,
    List.filter_cons_of_neg (by simpa using hl.isPodLine)]

/-- A text with its last line ended, if it was not. -/
theorem endLastLine_eq (content : Text) (eol : LineBreak) : endLastLine content eol =
    if content ≠ [] ∧ content.endsLine = false then content ++ eol.text else content := by
  rw [endLastLine]
  cases content <;> cases h : Text.endsLine _ <;> simp

theorem endsLine_endLastLine : EndsLine (endLastLine content eol).reverse := by
  rw [endLastLine_eq]
  split
  · cases eol <;> simp [LineBreak.text, EndsLine]
  · rename_i h
    rcases List.eq_nil_or_concat' content with rfl | ⟨t, c, rfl⟩
    · rfl
    · simpa [Text.endsLine, EndsLine] using h

/-- Ending the last line makes no line live. -/
theorem absent_endLastLine (hpod : '\n' ∉ pod) (h : ∀ l ∈ content.lines, ¬ IsPodLine pod l) :
    ∀ l ∈ (endLastLine content eol).lines, ¬ IsPodLine pod l := by
  rcases endLastLine_cases content eol with ⟨heq, -⟩ | ⟨before, l, hlines, hl, -, heq⟩
  · rwa [heq]
  · rw [heq, (lines_append_lineBreak hlines hl eol).1]
    rw [hlines, List.forall_mem_append, List.forall_mem_singleton] at h
    refine List.forall_mem_append.2 ⟨h.1, List.forall_mem_singleton.2 ?_⟩
    rw [isPodLine_append_lineBreak hpod]
    exact h.2

/-- **What an addition does**: nothing, if the pod is listed; otherwise it puts a line at the end of
the block of the target, or behind the last line of a file without one. -/
theorem addPod_cases (content target pod : Text) :
    (addPod content target pod = content ∧
      (targetBlock? content target = none → lists content pod = true)) ∨
    (∃ start stop, targetBlock? content target = some (start, stop) ∧ addPod content target pod =
      stop.before.reverse ++ (("  ".toList ++ newLine pod (.detect content)) ++ stop.after)) ∨
    (targetBlock? content target = none ∧ lists content pod = false ∧ addPod content target pod =
      endLastLine content (.detect content) ++ newLine pod (.detect content)) := by
  rw [addPod, placement]
  cases hblock : targetBlock? content target with
  | some range =>
    obtain ⟨start, stop⟩ := range
    cases hlisted : lists (start.upTo stop) pod with
    | true => exact .inl ⟨by simp [hlisted], by simp⟩
    | false => exact .inr (.inl ⟨start, stop, rfl, by simp [hlisted]⟩)
  | none =>
    cases hlisted : lists content pod with
    | true => exact .inl ⟨by simp, by simp⟩
    | false => exact .inr (.inr ⟨rfl, rfl, by simp⟩)

/-- The case in which an addition leaves a trace: its line went behind a last line that was open. -/
def LeavesBreak (content target pod : Text) : Prop :=
  targetBlock? content target = none ∧ (∀ l ∈ content.lines, ¬ IsPodLine pod l) ∧
    content ≠ [] ∧ content.endsLine = false

instance (content target pod : Text) : Decidable (LeavesBreak content target pod) :=
  inferInstanceAs (Decidable (_ ∧ _))

/-- What is left of a file to which a pod was added, without the pod. -/
theorem withoutPod_added (content target : Text) (hpod : '\n' ∉ pod) :
    withoutPod (addPod content target pod) pod =
      if LeavesBreak content target pod then content ++ (LineBreak.detect content).text
      else withoutPod content pod := by
  obtain ⟨hadd, hlisted⟩ | ⟨start, stop, hblock, hadd⟩ | ⟨hblock, hlisted, hadd⟩ :=
    addPod_cases content target pod
  · -- a pod that is listed has a line
    rw [hadd, if_neg]
    rintro ⟨hnone, habsent, -⟩
    obtain ⟨l, hl, hpodLine⟩ := (lists_iff hpod).1 (hlisted hnone)
    exact habsent l hl hpodLine
  · obtain ⟨hcontent, hstop⟩ := targetBlock?_stop hblock
    have hnew : IsNew [pod] ("  ".toList ++ newLine pod (.detect content)) :=
      isNew_singleton.2 ⟨_, _, by decide, rfl⟩
    rw [hadd, withoutPod_insert hpod (by rwa [List.reverse_reverse]) hnew, ← hcontent,
      if_neg (by simp [LeavesBreak, hblock])]
  · have habsent : ∀ l ∈ content.lines, ¬ IsPodLine pod l := by
      intro l hl hpodLine
      rw [(lists_iff hpod).2 ⟨l, hl, hpodLine⟩] at hlisted
      cases hlisted
    have hnew : IsNew [pod] (newLine pod (.detect content)) :=
      isNew_singleton.2 ⟨[], _, by simp, rfl⟩
    have hends : EndsLine (endLastLine content (.detect content)).reverse := endsLine_endLastLine
    have hinsert := withoutPod_insert (y := []) hpod hends hnew
    rw [List.append_nil, List.append_nil,
      withoutPod_of_absent hpod (absent_endLastLine hpod habsent)] at hinsert
    -- without a block and a line of the pod, what is left behind depends on the last line only
    have hleaves : LeavesBreak content target pod ↔ content ≠ [] ∧ content.endsLine = false :=
      ⟨fun h => h.2.2, fun h => ⟨hblock, habsent, h⟩⟩
    rw [hadd, hinsert, endLastLine_eq, withoutPod_of_absent hpod habsent]
    exact if_congr hleaves.symm rfl rfl

/-- **Taking out a pod that was added** gives what taking it out gave before, but for one case: the
line of the pod was put behind the last line of the file, and that line was not ended. Then the file
as it was is left with its last line ended. So a file that had no line for the pod is left as it was,
if it has a block for the target or ends its last line. -/
theorem withoutPod_addPod (content target : Text) (hpod : '\n' ∉ pod) :
    withoutPod (addPod content target pod) pod =
        (if LeavesBreak content target pod then content ++ (LineBreak.detect content).text
          else withoutPod content pod) ∧
      ((∀ l ∈ content.lines, ¬ IsPodLine pod l) →
        (targetBlock? content target).isSome = true ∨ content.endsLine = true →
          withoutPod (addPod content target pod) pod = content) := by
  have htaken := withoutPod_added content target hpod
  refine ⟨htaken, fun habsent hended => ?_⟩
  rw [htaken, if_neg, withoutPod_of_absent hpod habsent]
  rintro ⟨hnone, -, -, hopen⟩
  rcases hended with h | h
  · rw [hnone] at h
    cases h
  · rw [hopen] at h
    cases h

/-- A file with carriage returns whose last line is open. -/
def openLast : Text := "platform :ios\r\npod 'Other'".toList

/-- The break behind an open last line stays. Where a block takes the pod up, nothing does. -/
theorem withoutPod_addPod_openLast :
    '\n' ∉ "A".toList ∧
      withoutPod (addPod openLast "App".toList "A".toList) "A".toList =
        openLast ++ ['\r', '\n'] ∧
      (∀ l ∈ (openLast ++ "\r\ntarget 'App' do\r\nend".toList).lines, ¬ IsPodLine "A".toList l) ∧
      withoutPod (addPod (openLast ++ "\r\ntarget 'App' do\r\nend".toList) "App".toList "A".toList)
        "A".toList = openLast ++ "\r\ntarget 'App' do\r\nend".toList := by
  have hpod : '\n' ∉ "A".toList := by decide
  have hopen := (withoutPod_addPod openLast "App".toList hpod).1
  have habsent : ∀ l ∈ (openLast ++ "\r\ntarget 'App' do\r\nend".toList).lines,
      ¬ IsPodLine "A".toList l := by decide +kernel
  refine ⟨hpod, ?_, habsent, ?_⟩
  · rw [hopen, if_pos (by decide +kernel)]
    decide
  · exact (withoutPod_addPod _ _ hpod).2 habsent (.inl (by decide +kernel))

end SdkWiring.Podfile
