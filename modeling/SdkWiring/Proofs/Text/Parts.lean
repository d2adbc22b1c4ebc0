import SdkWiring.Text.LineBreak
import SdkWiring.Text.CharClass
import Mathlib.Data.List.Infix

/-!
# Parts of a text

A word that lacks some character cannot lie across that character. So what a text contains, or
starts with, is decided piece by piece when the pieces are put together at such characters.

* `prefix_append_stop`, `infix_append_stop`: a word and a character that is not in it.
* `append_inj_of_size`: a text is cut at a byte offset in one way.
* `IsBoundary`, `IsBehind`: the offsets at which a text can be cut, and those behind a character.
* `contains_iff`: the search for a part, as a relation.
* `LineBreak.detect_congr`: what the kind of line break depends on.
-/

namespace SdkWiring

namespace Text

variable {w x y t : Text} {c d : Char}

/-- A word that is a prefix of a text ends before any character that is not in the word. -/
theorem prefix_append_stop (hc : c ∉ w) : w <+: x ++ c :: y ↔ w <+: x := by
  constructor
  · rintro ⟨z, hz⟩
    rcases List.append_eq_append_iff.1 hz with ⟨u, hx, -⟩ | ⟨u, hw, hu⟩
    · exact ⟨u, hx.symm⟩
    · cases u with
      | nil => exact ⟨[], by simpa using hw⟩
      | cons a u =>
        obtain ⟨rfl, -⟩ := List.cons.inj hu
        exact absurd (hw ▸ by simp) hc
  · exact fun h => List.prefix_append_of_prefix h

/-- Two parts in front of the first of a character are the same. -/
theorem eq_of_first {a b : Text} (hx : c ∉ x) (hy : c ∉ y) (h : x ++ c :: a = y ++ c :: b) :
    x = y := by
  have hpre := (prefix_append_stop hx).1 ⟨_, h⟩
  have hpre' := (prefix_append_stop hy).1 ⟨_, h.symm⟩
  exact hpre.eq_of_length_le hpre'.length_le

/-- A word lies on one side of any character that is not in it. -/
theorem infix_append_stop (hc : c ∉ w) : w <:+: x ++ c :: y ↔ w <:+: x ∨ w <:+: y := by
  constructor
  · rintro ⟨u, v, h⟩
    rw [List.append_assoc] at h
    rcases List.append_eq_append_iff.1 h with ⟨z, hx, hz⟩ | ⟨z, hu, hz⟩
    · left
      have hw : w <+: z := (prefix_append_stop hc).1 ⟨v, by rw [hz]⟩
      exact hx ▸ hw.isInfix.trans (List.suffix_append _ _).isInfix
    · cases z with
      | nil =>
        left
        have hw : w <+: [] := (prefix_append_stop (x := []) hc).1 ⟨v, by simpa using hz.symm⟩
        rw [List.prefix_nil.1 hw]
        exact (List.nil_prefix).isInfix
      | cons a z =>
        obtain ⟨-, rfl⟩ := List.cons.inj hz
        exact Or.inr ⟨z, v, by simp⟩
  · rintro (h | h)
    · exact List.infix_append_of_infix_left h
    · exact List.infix_append_of_infix_right (List.infix_cons h)

/-- Two ways to cut a text after the same number of bytes are the same. -/
theorem append_inj_of_size {x' y' : Text} (h : x ++ y = x' ++ y') (hs : x.size = x'.size) :
    x = x' ∧ y = y' := by
  have h₁ := splitAt?_append x y
  rw [h, hs, splitAt?_append] at h₁
  obtain ⟨rfl, rfl⟩ := Prod.mk.inj (Option.some.inj h₁)
  exact ⟨rfl, rfl⟩

/-- An offset at which a text can be cut: it lies neither inside a character nor past the end. -/
def IsBoundary (t : Text) (n : Nat) : Prop := ∃ x y, t = x ++ y ∧ n = x.size

theorem isBoundary_append (x y : Text) : IsBoundary (x ++ y) x.size := ⟨x, y, rfl, rfl⟩

theorem isBoundary_iff {n : Nat} : t.IsBoundary n ↔ (t.splitAt? n).isSome = true := by
  simp only [Option.isSome_iff_exists, Prod.exists, splitAt?_eq_some, IsBoundary]

instance (t : Text) (n : Nat) : Decidable (t.IsBoundary n) := decidable_of_iff _ isBoundary_iff.symm

theorem IsBoundary.le_size {n : Nat} (h : t.IsBoundary n) : n ≤ t.size := by
  obtain ⟨x, y, rfl, rfl⟩ := h
  rw [size_append]
  exact Nat.le_add_right _ _

/-- An offset right behind a given character. -/
def IsBehind (t : Text) (c : Char) (n : Nat) : Prop := ∃ x y, t = (x ++ [c]) ++ y ∧ n = size (x ++ [c])

theorem IsBehind.isBoundary {n : Nat} (h : t.IsBehind c n) : t.IsBoundary n := by
  obtain ⟨x, y, rfl, rfl⟩ := h
  exact isBoundary_append _ y

/-- One character stands in front of an offset. -/
theorem IsBehind.unique {n : Nat} (hc : t.IsBehind c n) (hd : t.IsBehind d n) : c = d := by
  obtain ⟨x, y, rfl, rfl⟩ := hc
  obtain ⟨x', y', htext, hsize⟩ := hd
  have hfront := (append_inj_of_size htext hsize).1
  simpa using (List.append_inj' hfront rfl).2

theorem contains_iff : t.contains w = true ↔ w <:+: t := by
  induction t with
  | nil => simp [contains, List.infix_nil]
  | cons a t ih => simp [contains, ih, List.infix_cons_iff, List.isPrefixOf_iff_prefix]

theorem contains_eq_false_iff : t.contains w = false ↔ ¬ w <:+: t := by
  rw [← contains_iff, Bool.not_eq_true]

/-- Two characters side by side lie in one part, or across the cut. -/
theorem infix_pair_append : [c, d] <:+: x ++ y ↔
    [c, d] <:+: x ∨ [c, d] <:+: y ∨ x.getLast? = some c ∧ y.head? = some d := by
  constructor
  · rintro ⟨u, v, h⟩
    have h' : (u ++ [c]) ++ d :: v = x ++ y := by simpa using h
    rcases List.append_eq_append_iff.1 h' with ⟨z, hx, hz⟩ | ⟨z, hx, hz⟩
    · cases z with
      | nil =>
        obtain rfl : d :: v = y := hz
        rw [List.append_nil] at hx
        exact .inr (.inr ⟨by rw [hx, List.getLast?_concat], rfl⟩)
      | cons e z =>
        obtain ⟨rfl, -⟩ := List.cons.inj hz
        exact .inl ⟨u, z, by simp [hx]⟩
    · rcases List.eq_nil_or_concat' z with rfl | ⟨z, e, rfl⟩
      · rw [List.append_nil] at hx
        exact .inr (.inr ⟨by rw [← hx, List.getLast?_concat], by rw [hz]; rfl⟩)
      · rw [← List.append_assoc] at hx
        obtain ⟨-, he⟩ := List.append_inj' hx rfl
        obtain rfl : c = e := by simpa using he
        exact .inr (.inl ⟨z, v, by simp [hz]⟩)
  · rintro (h | h | ⟨hx, hy⟩)
    · exact List.infix_append_of_infix_left h
    · exact List.infix_append_of_infix_right h
    · obtain ⟨x, rfl⟩ := List.getLast?_eq_some_iff.1 hx
      obtain ⟨y, rfl⟩ := List.head?_eq_some_iff.1 hy
      exact ⟨x, y, by simp⟩

end Text

namespace LineBreak

variable {x y : Text}

theorem detect_eq_crlf : detect x = .crlf ↔ ['\r', '\n'] <:+: x := by
  rw [detect, ← Text.contains_iff]
  split <;> simp_all

/-- The kind of line break depends on the pairs of a carriage return and a line feed only. -/
theorem detect_congr (h : ['\r', '\n'] <:+: x ↔ ['\r', '\n'] <:+: y) : detect x = detect y := by
  cases hx : detect x with
  | crlf => rw [detect_eq_crlf.2 (h.1 (detect_eq_crlf.1 hx))]
  | lf =>
    cases hy : detect y with
    | lf => rfl
    | crlf =>
      rw [detect_eq_crlf.2 (h.2 (detect_eq_crlf.1 hy))] at hx
      cases hx

end LineBreak

end SdkWiring
