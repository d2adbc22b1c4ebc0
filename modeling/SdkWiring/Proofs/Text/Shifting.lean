import SdkWiring.Proofs.Text.Splicing
import SdkWiring.Text.LineBreak
import Mathlib.Data.List.Infix

/-!
# Texts that lose parts

Parts are taken out of a text, and as much is written behind what is left of it. Could that give the
text back? Counting a character that is in every part says no, unless it is in the new text, too.
Where it is, the line breaks say no: a part does not reach over a line break behind an opening brace.

* `Piece.count_new_add`: what is lost of a character that is in every part.
* `exists_rotation`: a text that is shifted behind itself.
* `ClosesLine.shift`: what stands up to the end of a part is shifted like the text behind it.
* `Piece.not_shifted`: no text is given back by a line that ends with a brace.
-/

namespace SdkWiring

variable {ps xs ys : List Piece} {p q : Piece} {tail x y : Text} {c : Char}

namespace Piece

theorem old_tail (x y : Text) : old ps (x ++ y) = old ps x ++ y := by
  induction ps with
  | nil => rfl
  | cons p ps ih => simp [ih]

theorem new_tail (x y : Text) : new ps (x ++ y) = new ps x ++ y := by
  induction ps with
  | nil => rfl
  | cons p ps ih => simp [ih]

theorem size_old (x : Text) : (old ps x).size = (old ps []).size + x.size := by
  rw [← Text.size_append, ← old_tail, List.nil_append]

/-- The edit of one piece among others. -/
theorem edits_split (n : Nat) (xs : List Piece) (p : Piece) (ys : List Piece) :
    edits n (xs ++ p :: ys) = edits n xs ++
      ⟨n + (old xs p.kept).size, n + (old xs p.kept).size + p.removed.size, p.inserted⟩ ::
        edits (n + (old xs p.kept).size + p.removed.size) ys := by
  rw [edits_append, edits_cons, size_old p.kept, Nat.add_assoc]

theorem mem_edits_split (n : Nat) (xs : List Piece) (p : Piece) (ys : List Piece) :
    ⟨n + (old xs p.kept).size, n + (old xs p.kept).size + p.removed.size, p.inserted⟩ ∈
      edits n (xs ++ p :: ys) := by
  rw [edits_split]
  simp

/-- The text before the edits around one of them. -/
theorem old_split (xs : List Piece) (p : Piece) (ys : List Piece) (tail : Text) :
    old (xs ++ p :: ys) tail = old xs p.kept ++ (p.removed ++ old ys tail) := by
  rw [old_append, old_cons, ← List.append_assoc, ← old_tail, List.nil_append]

/-- The text behind the edits around one of them. -/
theorem new_split (xs : List Piece) (p : Piece) (ys : List Piece) (tail : Text) :
    new (xs ++ p :: ys) tail = new xs p.kept ++ (p.inserted ++ new ys tail) := by
  rw [new_append, new_cons, ← List.append_assoc, ← new_tail, List.nil_append]

/-- Where nothing is written, a text only loses characters. -/
theorem sublist_new (hins : ∀ p ∈ ps, p.inserted = []) : (new ps tail).Sublist (old ps tail) := by
  induction ps with
  | nil => exact .refl _
  | cons p ps ih =>
    rw [old_cons, new_cons, hins p (by simp), List.nil_append]
    exact (List.Sublist.refl p.kept).append
      ((ih fun q hq => hins q (by simp [hq])).trans (List.sublist_append_right _ _))

/-- **Every part that is taken away counts**, for a character that is in all of them. -/
theorem count_new_add (hins : ∀ p ∈ ps, p.inserted = []) (hc : ∀ p ∈ ps, c ∈ p.removed) :
    (new ps tail).count c + ps.length ≤ (old ps tail).count c := by
  induction ps with
  | nil => simp
  | cons p ps ih =>
    have hrest := ih (fun q hq => hins q (by simp [hq])) fun q hq => hc q (by simp [hq])
    have hone := List.count_pos_iff.2 (hc p (by simp))
    rw [old_cons, new_cons, hins p (by simp)]
    simp only [List.count_append, List.count_nil, List.length_cons]
    omega

/-- No part was taken away if what is left lacks text without the character only. -/
theorem eq_nil_of_count (hins : ∀ p ∈ ps, p.inserted = []) (hc : ∀ p ∈ ps, c ∈ p.removed)
    (hy : c ∉ y) (h : old ps tail = new ps tail ++ y) : ps = [] := by
  have hcount : (new ps tail).count c + ps.length ≤ (old ps tail).count c := count_new_add hins hc
  rw [h, List.count_append, List.count_eq_zero.2 hy] at hcount
  exact List.length_eq_zero_iff.1 (by omega)

end Piece

/-- **A text that is shifted behind itself** by another one is that one over and over, up to its first
part: without it, the two are shifted by the rest. -/
theorem exists_rotation {u t : Text} (ht : t ≠ []) (h : x ++ u = y ++ (u ++ t)) :
    ∃ v z, v <+: u ∧ t = z ++ v ∧ z ≠ [] ∧ x = y ++ (v ++ z) := by
  -- a text that is no shorter than the shift ends with it, and is shifted without it, too
  induction hn : u.length using Nat.strong_induction_on generalizing u with
  | _ n ih =>
    rcases Nat.lt_or_ge u.length t.length with hlen | hlen
    · obtain ⟨z, rfl⟩ : ∃ z, t = z ++ u := by
        rw [← List.append_assoc] at h
        rcases List.append_eq_append_iff.1 h with ⟨z, -, hz⟩ | ⟨z, -, hz⟩
        · have := congrArg List.length hz
          rw [List.length_append] at this
          omega
        · exact ⟨z, hz⟩
      refine ⟨u, z, List.prefix_rfl, rfl, ?_, ?_⟩
      · rintro rfl
        simp at hlen
      · rw [← List.append_assoc, ← List.append_assoc] at h
        simpa using List.append_cancel_right h
    · obtain ⟨z, rfl⟩ : ∃ z, u = z ++ t := by
        have hsplit := h
        rw [← List.append_assoc] at hsplit
        rcases List.append_eq_append_iff.1 hsplit with ⟨z, -, hz⟩ | ⟨z, -, hz⟩
        · exact ⟨z, hz⟩
        · have := congrArg List.length hz
          rw [List.length_append] at this
          obtain rfl : z = [] := List.length_eq_zero_iff.1 (by omega)
          exact ⟨[], by simpa using hz.symm⟩
      have hshort : z.length < n := by
        have := List.length_pos_iff.2 ht
        rw [List.length_append] at hn
        omega
      have hshift : x ++ z = y ++ (z ++ t) := by
        simp only [← List.append_assoc] at h ⊢
        exact List.append_cancel_right h
      obtain ⟨v, w, hv, hw, hne, hx⟩ := ih z.length hshort hshift rfl
      exact ⟨v, w, hv.trans (List.prefix_append _ _), hw, hne, hx⟩

/-- A part that ends with a parenthesis, holds no line break behind a brace, and is the last on its
line to end so. -/
structure ClosesLine (part behind : Text) : Prop where
  last : part.getLast? = some ')'
  onLine : ∀ x y, part = x ++ '{' :: y → '\n' ∉ y
  clear : ')' ∉ behind.takeWhile (· != '\n')

theorem ClosesLine.mem {part behind : Text} (h : ClosesLine part behind) : ')' ∈ part :=
  List.mem_of_getLast? h.last

/-- A text without line breaks at the start is on the first line. -/
theorem not_mem_of_prefix {v z : Text} (h : v <+: z) (hv : '\n' ∉ v)
    (hz : c ∉ z.takeWhile (· != '\n')) : c ∉ v := by
  obtain ⟨w, rfl⟩ := h
  have hall : ∀ d ∈ v, (d != '\n') = true := fun d hd => by
    simpa using fun e : d = '\n' => hv (e ▸ hd)
  rw [List.takeWhile_append_of_pos hall, List.mem_append, not_or] at hz
  exact hz.1

/-- A part that ends a line does not reach from a brace over a line break. -/
theorem ClosesLine.not_behind_brace {part behind : Text} (h : ClosesLine part behind)
    (eol : LineBreak) (x u : Text) : part ≠ x ++ '{' :: (eol.text ++ u) := by
  intro he
  refine h.onLine x _ he (List.mem_append_left _ ?_)
  cases eol <;> decide

/-- What ends with a parenthesis reaches behind the line break of a line that has none in front of
it. -/
theorem exists_behind_break {z v s t : Text} {eol : LineBreak} (hs : ')' ∉ s)
    (hz : z.getLast? = some ')') (h : s ++ (eol.text ++ t) = z ++ v) :
    ∃ u, z = s ++ (eol.text ++ u) ∧ t = u ++ v ∧ u.getLast? = some ')' := by
  have hclear : ')' ∉ s ++ eol.text := by
    rw [List.mem_append, not_or]
    exact ⟨hs, by cases eol <;> decide⟩
  rw [← List.append_assoc] at h
  rcases List.append_eq_append_iff.1 h with ⟨u, rfl, rfl⟩ | ⟨w, hw, -⟩
  · refine ⟨u, List.append_assoc _ _ _, rfl, ?_⟩
    rcases List.eq_nil_or_concat' u with rfl | ⟨u, d, rfl⟩
    · rw [List.append_nil] at hz
      exact absurd (List.mem_of_getLast? hz) hclear
    · rw [← List.append_assoc, List.getLast?_concat] at hz
      rw [List.getLast?_concat, hz]
  · exact absurd (hw ▸ List.mem_append_left _ (List.mem_of_getLast? hz)) hclear

/-- The last character of two texts is that of the second one if the first one ends otherwise. -/
theorem exists_concat_of_getLast? {u z : Text} {d : Char} (hu : u.getLast? = some d) (hd : d ≠ c)
    (h : (u ++ z).getLast? = some c) : ∃ w, z = w ++ [c] := by
  rcases List.eq_nil_or_concat' z with rfl | ⟨w, e, rfl⟩
  · rw [List.append_nil, hu] at h
    exact absurd (Option.some.inj h) hd
  · rw [← List.append_assoc, List.getLast?_concat] at h
    exact ⟨w, by rw [Option.some.inj h]⟩

/-- **A part that ends a line, shifted** by a line that ends with a brace: what stands up to its end
is shifted, too, by the same line with its break in another place. -/
theorem ClosesLine.shift {part front s t : Text} {eol : LineBreak} (h : ClosesLine part tail)
    (hs : '\n' ∉ s) (hs' : ')' ∉ s) (ht : '\n' ∉ t) (hlast : (t ++ s).getLast? = some '{')
    (hshift : (front ++ part) ++ tail = y ++ (tail ++ (s ++ (eol.text ++ t)))) :
    ∃ w u, front ++ part = y ++ ((w ++ ['{']) ++ (eol.text ++ u)) ∧
      '\n' ∉ w ++ ['{'] ∧ ')' ∉ w ++ ['{'] ∧ '\n' ∉ u := by
  have hne : s ++ (eol.text ++ t) ≠ [] := by cases eol <;> simp [LineBreak.text]
  obtain ⟨v, z, hv, hz, hzne, hx⟩ := exists_rotation hne hshift
  have hzlast : z.getLast? = some ')' := by
    have := congrArg List.getLast? hx
    simpa [List.getLast?_append, h.last, Option.or_eq_some_iff, hzne] using this.symm
  obtain ⟨u, rfl, rfl, hu⟩ := exists_behind_break hs' hzlast hz
  rw [List.mem_append, not_or] at ht
  rw [List.append_assoc] at hlast
  obtain ⟨w, hw⟩ := exists_concat_of_getLast? hu (by decide) hlast
  have hclear : '\n' ∉ v ++ s ∧ ')' ∉ v ++ s := by
    simp only [List.mem_append, not_or]
    exact ⟨⟨ht.2, hs⟩, not_mem_of_prefix hv ht.2 h.clear, hs'⟩
  rw [hw] at hclear
  exact ⟨w, u, by rw [hx, ← hw]; simp, hclear.1, hclear.2, ht.1⟩

namespace Piece

/-- Parts that each end a line, in front of what is left behind them. -/
def CloseLines (ps : List Piece) (tail : Text) : Prop :=
  ∀ xs p ys, ps = xs ++ p :: ys → p.inserted = [] ∧ ClosesLine p.removed (old ys tail)

theorem mem_takeWhile_append {v w : Text} (h : c ∈ v.takeWhile (· != '\n')) :
    c ∈ (v ++ w).takeWhile (· != '\n') := by
  rw [List.takeWhile_append]
  split
  · exact List.mem_append_left _ (List.takeWhile_prefix _ |>.subset h)
  · exact h

/-- The earlier parts close their lines in front of what the last part leaves, too. -/
theorem CloseLines.left (h : CloseLines (ps ++ [q]) tail) : CloseLines ps q.kept := by
  rintro xs p ys rfl
  obtain ⟨hins, hcloses⟩ := h xs p (ys ++ [q]) (by simp)
  refine ⟨hins, hcloses.last, hcloses.onLine, fun hmem => hcloses.clear ?_⟩
  rw [old_split, old_nil]
  exact mem_takeWhile_append hmem

theorem CloseLines.inserted (h : CloseLines ps tail) : ∀ p ∈ ps, p.inserted = [] := fun p hp => by
  obtain ⟨xs, ys, rfl⟩ := List.append_of_mem hp
  exact (h xs p ys rfl).1

theorem CloseLines.mem (h : CloseLines ps tail) : ∀ p ∈ ps, ')' ∈ p.removed := fun p hp => by
  obtain ⟨xs, ys, rfl⟩ := List.append_of_mem hp
  exact (h xs p ys rfl).2.mem

/-- Nothing is taken out if all that is lost is a text without a closing parenthesis. -/
theorem CloseLines.eq_nil (h : CloseLines ps tail) (hy : ')' ∉ y)
    (hold : old ps x = new ps x ++ y) : y = [] := by
  obtain rfl := eq_nil_of_count h.inserted h.mem hy hold
  simpa using hold

/-- **No text is given back** when parts that end lines are taken out of it and a line that ends with
a brace is written behind it. -/
theorem not_shifted {s t : Text} {eol : LineBreak} (hps : CloseLines ps tail) (hs : '\n' ∉ s)
    (hs' : ')' ∉ s) (ht : '\n' ∉ t) (hlast : (t ++ s).getLast? = some '{') :
    old ps tail ≠ new ps tail ++ (s ++ (eol.text ++ t)) := by
  have heol : '\n' ∈ eol.text ∧ ')' ∉ eol.text := by cases eol <;> decide
  induction ps using List.reverseRecOn generalizing tail s t with
  | nil =>
    intro h
    have := congrArg List.length h
    have hpos := List.length_pos_of_mem heol.1
    simp only [old_nil, new_nil, List.length_append] at this
    omega
  | append_singleton ps q ih =>
    intro h
    have hq : ClosesLine q.removed tail := (hps ps q [] rfl).2
    rw [old_split, old_nil, new_split, new_nil, hps.inserted q (by simp), List.nil_append,
      ← List.append_assoc, List.append_assoc (new ps q.kept)] at h
    obtain ⟨w, u, hsplit, hw, hw', hu⟩ := hq.shift hs hs' ht hlast h
    -- where does the last part start: in front of the brace, behind it, or behind the line break?
    rcases List.append_eq_append_iff.1 hsplit with ⟨y, -, hy⟩ | ⟨y, hy, hline⟩
    · exact hq.not_behind_brace eol (y ++ w) u (by rw [hy]; simp)
    rcases List.append_eq_append_iff.1 hline with ⟨y', rfl, hend⟩ | ⟨e, he, hremoved⟩
    · rcases List.append_eq_append_iff.1 hend with ⟨y, rfl, rfl⟩ | ⟨e, he, -⟩
      · refine ih hps.left hw hw' (fun hn => hu (List.mem_append_left _ hn)) ?_ (by simpa using hy)
        rw [← List.append_assoc, List.getLast?_concat]
      · have hclear : ')' ∉ (w ++ ['{']) ++ y' := by
          rw [List.mem_append, not_or]
          exact ⟨hw', fun hmem => heol.2 (he ▸ List.mem_append_left _ hmem)⟩
        simpa using hps.left.eq_nil hclear hy
    · rcases List.eq_nil_or_concat' e with rfl | ⟨e, d, rfl⟩
      · rw [List.append_nil] at he
        simpa [← he] using hps.left.eq_nil (he ▸ hw') hy
      · rw [← List.append_assoc] at he
        obtain ⟨-, hd⟩ := List.append_inj' he rfl
        exact hq.not_behind_brace eol e u (by rw [hremoved, ← hd]; simp)

end Piece

end SdkWiring
