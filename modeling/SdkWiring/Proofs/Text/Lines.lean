import SdkWiring.Proofs.Text.Matching
import SdkWiring.Proofs.Text.Parts

/-!
# Lines of a text

A text is cut behind its line feeds. So all of its lines but the last are whole, and texts made of
whole lines are put together line by line.

* `Text.lines_flatten_append`: whole lines in front of a text are its first lines.
* `Text.lines_split`: of the lines of a text only the last may lack its line feed.
* `Text.exists_line_at`: the line that a place of a text lies on.
* `Text.beginsWith_line`: whether a line begins with a phrase is decided by the line.
-/

namespace SdkWiring

/-- A text that is empty or ends with a line feed, the last character first. -/
def EndsLine (b : Text) : Prop := b.head?.all (· == '\n') = true

instance (b : Text) : Decidable (EndsLine b) := inferInstanceAs (Decidable (_ = true))

/-- What ends a line is its line feed. -/
theorem EndsLine.eq_of_getLast? {x : Text} {c : Char} (hx : EndsLine x.reverse)
    (hlast : x.getLast? = some c) : c = '\n' := by
  rw [EndsLine, List.head?_reverse, hlast] at hx
  simpa using hx

/-- Looking back from a character, nothing of the earlier lines is seen. -/
theorem takeWhile_append_endsLine {b : Text} (hb : EndsLine b) (x : Text) :
    (x ++ b).takeWhile (· != '\n') = x.takeWhile (· != '\n') := by
  have hnil : b.takeWhile (· != '\n') = [] := by
    cases b with
    | nil => rfl
    | cons c b =>
      obtain rfl : c = '\n' := by simpa [EndsLine] using hb
      rfl
  induction x with
  | nil => exact hnil
  | cons c x ih => simp only [List.cons_append, List.takeWhile_cons, ih]

namespace Pattern

variable {b : Text}

theorem lineStart_iff : (b.isEmpty || b.head? == some '\n') = true ↔ EndsLine b := by
  cases b <;> simp [EndsLine]

end Pattern

namespace Text

variable {x y z t w line : Text} {ls before behind : List Text}

/-- A line with its line feed. -/
def Whole (line : Text) : Prop := ∃ t, '\n' ∉ t ∧ line = t ++ ['\n']

/-- A text begins with a phrase that ends at the border of a word. -/
def BeginsWith (w t : Text) : Prop := ∃ rest, t = w ++ rest ∧ rest.head?.any isWord = false

/-! ## Cutting a text into lines -/

@[simp] theorem lines_nil : lines [] = [] := rfl

theorem lines_line (h : '\n' ∉ t) (y : Text) : lines (t ++ '\n' :: y) = (t ++ ['\n']) :: lines y := by
  induction t with
  | nil => simp [lines]
  | cons c t ih =>
    have hc : c ≠ '\n' := fun e => h (e ▸ List.mem_cons_self)
    have ht : '\n' ∉ t := fun m => h (List.mem_cons_of_mem _ m)
    simp only [List.cons_append, lines, if_neg hc, ih ht]

theorem lines_last (h : '\n' ∉ t) (hne : t ≠ []) : lines t = [t] := by
  induction t with
  | nil => exact absurd rfl hne
  | cons c t ih =>
    have hc : c ≠ '\n' := fun e => h (e ▸ List.mem_cons_self)
    have ht : '\n' ∉ t := fun m => h (List.mem_cons_of_mem _ m)
    simp only [lines, if_neg hc]
    by_cases hnil : t = []
    · rw [hnil, lines_nil]
    · rw [ih ht hnil]

/-- A text is empty, or one line without its line feed, or has a whole line in front. -/
theorem line_induction {P : Text → Prop} (nil : P []) (last : ∀ t, t ≠ [] → '\n' ∉ t → P t)
    (line : ∀ t y, '\n' ∉ t → P y → P (t ++ '\n' :: y)) (t : Text) : P t := by
  by_cases h : '\n' ∈ t
  · obtain ⟨u, y, rfl, hu⟩ := List.eq_append_cons_of_mem h
    exact line u y hu (line_induction nil last line y)
  · by_cases hne : t = []
    · exact hne ▸ nil
    · exact last t hne h
termination_by t.length
decreasing_by
  subst t
  simp only [List.length_append, List.length_cons]
  omega

theorem lines_flatten_append (h : ∀ l ∈ ls, Whole l) (y : Text) :
    lines (ls.flatten ++ y) = ls ++ lines y := by
  induction ls with
  | nil => rfl
  | cons l ls ih =>
    obtain ⟨t, ht, rfl⟩ := h l List.mem_cons_self
    have hrest := ih fun l hl => h l (List.mem_cons_of_mem _ hl)
    rw [List.flatten_cons, List.append_assoc, List.append_assoc, List.singleton_append,
      lines_line ht, hrest, List.cons_append]

theorem lines_flatten_whole (h : ∀ l ∈ ls, Whole l) : lines ls.flatten = ls := by
  have hlines := lines_flatten_append h []
  rwa [List.append_nil, lines_nil, List.append_nil] at hlines

/-- Behind the end of a line a text goes on with further lines. -/
theorem lines_append_of_endsLine (h : EndsLine x.reverse) (y : Text) :
    lines (x ++ y) = lines x ++ lines y := by
  induction x using line_induction with
  | nil => rfl
  | last t hne ht =>
    obtain ⟨t, c, rfl⟩ := (List.eq_nil_or_concat' t).resolve_left hne
    have hc : c = '\n' := by simpa [EndsLine] using h
    exact absurd (by simp [hc]) ht
  | line t z ht ih =>
    have hz : EndsLine z.reverse := by
      rcases List.eq_nil_or_concat' z with rfl | ⟨z, c, rfl⟩
      · rfl
      · simpa [EndsLine] using h
    rw [List.append_assoc, List.cons_append, lines_line ht, lines_line ht, ih hz, List.cons_append]

/-- Some of the lines of a text, put together, are the lines of what they make. -/
theorem lines_flatten_of_sublist (h : ls.Sublist (lines t)) : lines ls.flatten = ls := by
  induction t using line_induction generalizing ls with
  | nil => rw [List.sublist_nil.1 h, List.flatten_nil, lines_nil]
  | last t hne ht =>
    rw [lines_last ht hne] at h
    rcases List.sublist_singleton.1 h with rfl | rfl
    · rfl
    · simpa using lines_last ht hne
  | line t y ht ih =>
    rw [lines_line ht] at h
    rcases List.sublist_cons_iff.1 h with hrest | ⟨ls, rfl, hrest⟩
    · exact ih hrest
    · simpa [lines_line ht] using ih hrest

/-- **The lines of a text**: those in front of another one are whole, and one that is not whole is
the last. -/
theorem lines_split (h : lines t = before ++ line :: behind) :
    (∀ l ∈ before, Whole l) ∧ lines behind.flatten = behind ∧
      (Whole line ∨ behind = [] ∧ line ≠ [] ∧ '\n' ∉ line) := by
  induction t using line_induction generalizing before with
  | nil => cases before <;> cases h
  | last t hne ht =>
    rw [lines_last ht hne] at h
    cases before with
    | nil =>
      obtain ⟨rfl, rfl⟩ := List.cons.inj h
      exact ⟨by simp, rfl, .inr ⟨rfl, hne, ht⟩⟩
    | cons l before => cases before <;> cases (List.cons.inj h).2
  | line t y ht ih =>
    rw [lines_line ht] at h
    cases before with
    | nil =>
      obtain ⟨rfl, rfl⟩ := List.cons.inj h
      exact ⟨by simp, by rw [flatten_lines], .inl ⟨t, ht, rfl⟩⟩
    | cons l before =>
      obtain ⟨rfl, hrest⟩ := List.cons.inj h
      obtain ⟨hbefore, hbehind, hline⟩ := ih hrest
      exact ⟨List.forall_mem_cons.2 ⟨⟨t, ht, rfl⟩, hbefore⟩, hbehind, hline⟩

/-- A line is whole, or nothing is behind it. -/
theorem stop_of_lines_split (h : lines t = before ++ line :: behind) :
    behind.flatten = [] ∨ ∃ u, line = u ++ ['\n'] := by
  obtain ⟨-, -, ⟨u, -, rfl⟩ | ⟨rfl, -, -⟩⟩ := lines_split h
  · exact .inr ⟨u, rfl⟩
  · exact .inl rfl

theorem eq_of_lines_split (h : lines t = before ++ line :: behind) :
    t = before.flatten ++ (line ++ behind.flatten) := by
  rw [← flatten_lines t, h, List.flatten_append, List.flatten_cons]

/-- **The line that a place of a text lies on.** -/
theorem exists_line_at (h : t = x ++ y) (hy : y ≠ []) : ∃ before u v behind,
    lines t = before ++ (u ++ v) :: behind ∧ x = before.flatten ++ u ∧ y = v ++ behind.flatten ∧
      '\n' ∉ u ∧ v ≠ [] := by
  induction t using line_induction generalizing x with
  | nil => exact absurd (List.append_eq_nil_iff.1 h.symm).2 hy
  | last t hne ht =>
    subst h
    refine ⟨[], x, y, [], lines_last ht hne, rfl, (List.append_nil _).symm, ?_, hy⟩
    exact fun hx => ht (List.mem_append_left _ hx)
  | line t z ht ih =>
    rw [lines_line ht]
    have hsplit : (t ++ ['\n']) ++ z = x ++ y := by simpa using h
    rcases List.append_eq_append_iff.1 hsplit with ⟨u, rfl, rfl⟩ | ⟨u, hu, rfl⟩
    · -- the place lies behind the first line
      obtain ⟨before, u', v, behind, hlines, rfl, rfl, hu', hv⟩ := ih rfl
      exact ⟨(t ++ ['\n']) :: before, u', v, behind, by rw [hlines]; rfl, by simp, rfl, hu', hv⟩
    · rcases List.eq_nil_or_concat' u with rfl | ⟨u, c, rfl⟩
      · obtain ⟨before, u', v, behind, hlines, hx, hz, hu', hv⟩ := ih (x := []) rfl
        rw [List.append_nil] at hu
        refine ⟨(t ++ ['\n']) :: before, u', v, behind, by rw [hlines]; rfl, ?_, hz, hu', hv⟩
        rw [List.flatten_cons, List.append_assoc, ← hx, hu, List.append_nil]
      · rw [← List.append_assoc] at hu
        obtain ⟨rfl, hc⟩ := List.append_inj' hu rfl
        refine ⟨[], x, u ++ [c], lines z, by rw [← hc]; simp, rfl, ?_, ?_, by simp⟩
        · rw [flatten_lines]
        · exact fun hx => ht (List.mem_append_left _ hx)

/-- A place at the start of a line. -/
theorem exists_line_start (h : t = x ++ y) (hy : y ≠ []) (hx : EndsLine x.reverse) :
    ∃ before line behind, lines t = before ++ line :: behind ∧ x = before.flatten ∧
      y = line ++ behind.flatten := by
  obtain ⟨before, u, v, behind, hlines, rfl, rfl, hu, hv⟩ := exists_line_at h hy
  obtain rfl : u = [] := by
    rcases List.eq_nil_or_concat' u with rfl | ⟨u, c, rfl⟩
    · rfl
    · have hc : c = '\n' := by simpa [EndsLine] using hx
      exact absurd (by simp [hc]) hu
  exact ⟨before, v, behind, hlines, by simp, rfl⟩

theorem endsLine_flatten (h : ∀ l ∈ ls, Whole l) : EndsLine ls.flatten.reverse := by
  rcases List.eq_nil_or_concat' ls with rfl | ⟨ls, l, rfl⟩
  · rfl
  · obtain ⟨t, -, rfl⟩ := h l (by simp)
    simp [EndsLine]

/-! ## Phrases at the start of a line -/

theorem beginsWith_append_stop {c : Char} (hw : c ∉ w) (hc : isWord c = false) (y : Text) :
    BeginsWith w (t ++ c :: y) ↔ BeginsWith w t := by
  constructor
  · rintro ⟨rest, h, hrest⟩
    obtain ⟨r, rfl⟩ := (prefix_append_stop hw).1 ⟨rest, h.symm⟩
    rw [List.append_assoc] at h
    refine ⟨r, rfl, ?_⟩
    rw [← List.append_cancel_left h] at hrest
    cases r with
    | nil => rfl
    | cons d r => exact hrest
  · rintro ⟨r, rfl, hr⟩
    refine ⟨r ++ c :: y, List.append_assoc _ _ _, ?_⟩
    cases r with
    | nil => simpa using hc
    | cons d r => exact hr

/-- What stands on one line is decided by that line. -/
theorem prefix_line (hw : '\n' ∉ w) (h : z = [] ∨ ∃ u, y = u ++ ['\n']) :
    w <+: y ++ z ↔ w <+: y := by
  rcases h with rfl | ⟨u, rfl⟩
  · rw [List.append_nil]
  · rw [List.append_assoc, List.singleton_append, prefix_append_stop hw, prefix_append_stop hw]

/-- **Whether a line begins with a phrase** does not depend on the lines behind it. -/
theorem beginsWith_line (hw : '\n' ∉ w) (h : z = [] ∨ ∃ u, y = u ++ ['\n']) :
    BeginsWith w (y ++ z) ↔ BeginsWith w y := by
  have hfeed : isWord '\n' = false := by decide
  rcases h with rfl | ⟨u, rfl⟩
  · rw [List.append_nil]
  · rw [List.append_assoc, List.singleton_append, beginsWith_append_stop hw hfeed,
      beginsWith_append_stop hw hfeed]

end Text

end SdkWiring
