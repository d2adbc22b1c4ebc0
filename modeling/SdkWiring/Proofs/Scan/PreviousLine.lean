import SdkWiring.Proofs.Scan.Stretch
import SdkWiring.Proofs.Text.Lines
import Mathlib.Data.List.TakeWhile

/-!
# Lines as a scan presents them

Behind each line feed a scan presents the line that just ended. It finds the line by looking back
through the text, once more at every character. Yet no line is lost or presented twice: put together,
what it presents is the text up to the last line feed that a character follows.

* `previousLine_eq`: the last line of the text before a position.
* `presented_concat`: what one more character presents.
* `positions_previousLine`: **every line that ends in front of a character is presented once.**
-/

namespace SdkWiring

variable {quoting : Quoting} {m n : Mode} {a b t u x y z : Text} {c : Char} {p : Position}
  {ps xs ys : List Position}

namespace Text

/-- A text is made of whole lines and the beginning of one more. -/
theorem exists_openLine (t : Text) : ∃ x u, t = x ++ u ∧ EndsLine x.reverse ∧ '\n' ∉ u := by
  induction t using List.reverseRecOn with
  | nil => exact ⟨[], [], rfl, rfl, by simp⟩
  | append_singleton t c ih =>
    by_cases hc : c = '\n'
    · exact ⟨t ++ [c], [], by simp, by simp [EndsLine, hc], by simp⟩
    · obtain ⟨x, u, rfl, hx, hu⟩ := ih
      exact ⟨x, u ++ [c], by simp, hx, by simp [hu, Ne.symm hc]⟩

/-- With one more character the beginning of a line is the last line. -/
theorem lines_concat (hx : EndsLine x.reverse) (hu : '\n' ∉ u) (c : Char) :
    lines (x ++ (u ++ [c])) = lines x ++ [u ++ [c]] := by
  have hlast : lines (u ++ [c]) = [u ++ [c]] := by
    by_cases hc : c = '\n'
    · rw [hc, lines_line hu, lines_nil]
    · exact lines_last (by simp [hu, Ne.symm hc]) (by simp)
  rw [lines_append_of_endsLine hx, hlast]

/-- The text up to the last line feed that a character follows, and the text behind it. -/
structure CutAtLastFeed (t x y : Text) : Prop where
  text : t = x ++ y
  endsLine : EndsLine x.reverse
  follows : x ≠ [] → y ≠ []
  last : ∀ u v, y = u ++ '\n' :: v → v = []

theorem exists_cutAtLastFeed (t : Text) : ∃ x y, t.CutAtLastFeed x y := by
  rcases List.eq_nil_or_concat' t with rfl | ⟨t, c, rfl⟩
  · exact ⟨[], [], rfl, rfl, fun h => h, by simp⟩
  · obtain ⟨x, u, rfl, hx, hu⟩ := exists_openLine t
    refine ⟨x, u ++ [c], List.append_assoc _ _ _, hx, by simp, fun v w hvw => ?_⟩
    -- a line feed with more behind it would lie in the line that has just begun
    rcases List.eq_nil_or_concat' w with rfl | ⟨w, d, rfl⟩
    · rfl
    · rw [← List.cons_append, ← List.append_assoc] at hvw
      obtain ⟨rfl, -⟩ := List.append_inj' hvw rfl
      exact absurd (by simp) hu

namespace CutAtLastFeed

variable (h : t.CutAtLastFeed x y)

include h

/-- Behind the cut stands one line, if any. -/
theorem dropLast_lines : t.lines.dropLast = x.lines := by
  rw [h.text, lines_append_of_endsLine h.endsLine]
  rcases List.eq_nil_or_concat' y with rfl | ⟨y, c, rfl⟩
  · obtain rfl : x = [] := by_contra fun hx => h.follows hx rfl
    rfl
  · have hy : '\n' ∉ y := by
      intro hmem
      obtain ⟨u, v, rfl⟩ := List.append_of_mem hmem
      exact absurd (h.last u (v ++ [c]) (by simp)) (by simp)
    have hlast := lines_concat (x := []) rfl hy c
    rw [List.nil_append, lines_nil, List.nil_append] at hlast
    rw [hlast, List.dropLast_concat]

theorem whole : ∀ line ∈ x.lines, line.Whole := by
  intro line hline
  obtain ⟨before, behind, hsplit⟩ := List.append_of_mem hline
  obtain ⟨-, -, hwhole | ⟨rfl, hne, hfeed⟩⟩ := lines_split hsplit
  · exact hwhole
  · -- the last line ends with a line feed, as the text does
    have hends := h.endsLine
    obtain ⟨line, c, rfl⟩ := (List.eq_nil_or_concat' line).resolve_left hne
    rw [eq_of_lines_split hsplit] at hends
    have hc : c = '\n' := by simpa [EndsLine] using hends
    exact absurd (by simp [hc]) hfeed

end CutAtLastFeed

end Text

/-- The lines that are presented at some positions. -/
def presented (ps : List Position) : List Text := (ps.map Position.previousLine).filter (· ≠ [])

/-- **What is presented behind a line feed** is the last line of the text up to there. -/
theorem previousLine_eq (hx : EndsLine x.reverse) (hu : '\n' ∉ u)
    (hp : p.backpart = x ++ (u ++ ['\n'])) : p.previousLine = u ++ ['\n'] := by
  have hbefore : p.before = '\n' :: (u.reverse ++ x.reverse) := by
    rw [← List.reverse_reverse p.before, ← Position.backpart, hp]
    simp
  have hline : ∀ c ∈ u.reverse, (c != '\n') = true := by
    intro c hc
    simpa using fun he : c = '\n' => hu (he ▸ List.mem_reverse.1 hc)
  rw [Position.previousLine, hbefore]
  simp only
  rw [takeWhile_append_endsLine hx, List.takeWhile_eq_self_iff.2 hline, List.reverse_reverse]

/-- What is presented at a position depends on the text before it only. -/
theorem map_previousLine_stretch : (stretch quoting m b t a).map Position.previousLine =
    (stretch quoting n b t z).map Position.previousLine := by
  induction t generalizing m n b with
  | nil => rfl
  | cons c t ih =>
    rw [stretch_cons, stretch_cons, List.map_cons, List.map_cons, ih]
    rfl

/-- **What one more character presents**: the line that ends in front of it, if one does. -/
theorem presented_concat (t : Text) (c : Char) : presented (positions quoting (t ++ [c])) =
    presented (positions quoting t) ++
      if EndsLine t.reverse then t.lines.getLast?.toList else [] := by
  have hplace : ∀ m : Mode, presented [m.place t.reverse c []] =
      if EndsLine t.reverse then t.lines.getLast?.toList else [] := by
    intro m
    rcases List.eq_nil_or_concat' t with rfl | ⟨t, d, rfl⟩
    · rfl
    · obtain ⟨x, u, rfl, hx, hu⟩ := Text.exists_openLine t
      rw [List.append_assoc, Text.lines_concat hx hu]
      by_cases hd : d = '\n'
      · subst hd
        have hline : (m.place (x ++ (u ++ ['\n'])).reverse c []).previousLine = u ++ ['\n'] :=
          previousLine_eq hx hu (List.reverse_reverse _)
        rw [if_pos (by simp [EndsLine]), List.getLast?_concat, presented, List.map_singleton, hline]
        simp
      · simp [presented, Position.previousLine, Mode.place, EndsLine, hd]
  rw [positions_eq_stretch, positions_eq_stretch, stretch_append, stretch_cons, stretch_nil,
    presented, List.map_append, List.filter_append,
    map_previousLine_stretch (n := .start) (z := []), ← presented, ← presented]
  simp only [List.append_nil, hplace]

/-- The lines that a scan presents are those that a character follows. -/
theorem presented_positions (quoting : Quoting) (t : Text) :
    presented (positions quoting t) = t.lines.dropLast := by
  induction t using List.reverseRecOn with
  | nil => rfl
  | append_singleton t c ih =>
    obtain ⟨x, u, rfl, hx, hu⟩ := Text.exists_openLine t
    rw [presented_concat, ih, List.append_assoc, Text.lines_concat hx hu, List.dropLast_concat]
    rcases List.eq_nil_or_concat' u with rfl | ⟨u, d, rfl⟩
    · rw [List.append_nil, if_pos hx]
      cases hlast : x.lines.getLast? with
      | none => simp [List.getLast?_eq_none_iff.1 hlast]
      | some line => exact List.dropLast_append_getLast? line hlast
    · have hd : d ≠ '\n' := fun he => hu (by simp [he])
      have hopen : ¬ EndsLine (x ++ (u ++ [d])).reverse := by simp [EndsLine, hd]
      rw [if_neg hopen, List.append_nil, Text.lines_concat hx (fun h => hu (by simp [h])),
        List.dropLast_concat]

/-- The text before a position is made of the characters of the earlier positions. -/
theorem before_eq (h : positions quoting t = xs ++ p :: ys) :
    p.before = (xs.map Position.char).reverse := by
  obtain ⟨-, hxs, -, -⟩ := positions_split h
  rw [hxs, map_char_stretch, Position.backpart, List.reverse_reverse]

/-- **A line starts** at the first character, and behind each line feed. -/
theorem atLineStart_iff (h : positions quoting t = xs ++ p :: ys) :
    p.atLineStart = true ↔ xs = [] ∨ ∃ zs q, xs = zs ++ [q] ∧ q.char = '\n' := by
  have hbefore := before_eq h
  rcases List.eq_nil_or_concat' xs with rfl | ⟨zs, q, rfl⟩ <;>
    simp [Position.atLineStart, hbefore]

/-- **No line is presented** inside a line and at the first character, and only there. -/
theorem previousLine_eq_nil_iff (h : positions quoting t = xs ++ p :: ys) :
    p.previousLine = [] ↔ p.atLineStart = false ∨ xs = [] := by
  have hbefore := before_eq h
  rcases List.eq_nil_or_concat' xs with rfl | ⟨zs, q, rfl⟩
  · simp [Position.previousLine, hbefore]
  · by_cases hq : q.char = '\n' <;> simp [Position.previousLine, Position.atLineStart, hbefore, hq]

/-- **Every line that ends in front of a character is presented once**, in order and with its own line
feed. A line starts at the first character and behind each line feed. Nothing is presented elsewhere,
nor at the first character. Put together, what is presented is the text up to the last line feed that a
character follows. -/
theorem positions_previousLine (quoting : Quoting) (t : Text) :
    (∀ xs p ys, positions quoting t = xs ++ p :: ys →
      (p.atLineStart = true ↔ xs = [] ∨ ∃ zs q, xs = zs ++ [q] ∧ q.char = '\n') ∧
        (p.previousLine = [] ↔ p.atLineStart = false ∨ xs = [])) ∧
      ∃ x y, t.CutAtLastFeed x y ∧ (positions quoting t).flatMap Position.previousLine = x ∧
        presented (positions quoting t) = x.lines ∧ ∀ line ∈ x.lines, line.Whole := by
  refine ⟨fun xs p ys h => ⟨atLineStart_iff h, previousLine_eq_nil_iff h⟩, ?_⟩
  obtain ⟨x, y, hcut⟩ := Text.exists_cutAtLastFeed t
  have hpresented : presented (positions quoting t) = x.lines := by
    rw [presented_positions, hcut.dropLast_lines]
  refine ⟨x, y, hcut, ?_, hpresented, hcut.whole⟩
  rw [List.flatMap_def, ← List.flatten_filter_ne_nil, ← presented, hpresented, Text.flatten_lines]

/-- Blank lines are presented, and a line break of two characters is kept. The last line is not
presented, since no character follows it. -/
example : presented (positions .swift "é\r\n\n//b\nc\n".toList) =
    ["é\r\n".toList, "\n".toList, "//b\n".toList] := by
  decide

end SdkWiring
