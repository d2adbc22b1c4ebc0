import SdkWiring.Proofs.Scan.Stretch
import SdkWiring.Text.CharClass
import Mathlib.Tactic.Common

/-!
# Identifiers

The names that a delegate uses and that a recipe looks for are identifiers. What matters about them
is which characters they lack: white space, and everything that a scan or a pattern reacts to.

* `isSpace_of_isWord`: no character is both white space and part of a word.
* `isQuiet_of_isWord`, `isQuiet_of_isSpace`: neither changes the mode of a scan.
-/

namespace SdkWiring.Text

open CharRanges

/-- An identifier: characters of words, the first of which is no digit. -/
def isIdentifier : Text → Bool
  | [] => false
  | c :: t => isWord c && !c.isDigit && t.all isWord

variable {c : Char} {t : Text}

/-- All white space, by code point. -/
def spaces : List Nat :=
  [0x9, 0xA, 0xB, 0xC, 0xD, 0x20, 0x85, 0xA0, 0x1680, 0x2000, 0x2001, 0x2002, 0x2003, 0x2004,
    0x2005, 0x2006, 0x2007, 0x2008, 0x2009, 0x200A, 0x2028, 0x2029, 0x202F, 0x205F, 0x3000]

theorem mem_spaces (h : isSpace c = true) : c.toNat ∈ spaces := by
  unfold isSpace at h
  split at h
  · simp only [Bool.or_eq_true, beq_iff_eq, Bool.and_eq_true, decide_eq_true_eq] at h
    rcases h with rfl | h
    · decide
    · simp only [spaces, List.mem_cons, List.not_mem_nil, or_false]
      omega
  · simp only [Ranges.has, space, List.any_cons, List.any_nil, Bool.or_false, Bool.or_eq_true,
      Bool.and_eq_true, decide_eq_true_eq] at h
    simp only [spaces, List.mem_cons, List.not_mem_nil, or_false]
    omega

/-- No character is both white space and part of a word. -/
theorem isSpace_of_isWord (h : isWord c = true) : isSpace c = false := by
  have hspaces : ∀ n ∈ spaces, isWord (Char.ofNat n) = false := by decide +kernel
  by_contra hs
  rw [Bool.not_eq_false] at hs
  have := hspaces c.toNat (mem_spaces hs)
  rw [Char.ofNat_toNat, h] at this
  exact absurd this (by decide)

/-- A character that a scan reacts to. -/
theorem eq_of_isQuiet_eq_false (h : isQuiet c = false) :
    c = '/' ∨ c = '"' ∨ c = '\'' ∨ c = '{' ∨ c = '}' := by
  simpa only [isQuiet, Bool.and_eq_false_iff, bne_eq_false_iff_eq, or_assoc] using h

theorem isQuiet_of_isWord (h : isWord c = true) : isQuiet c = true := by
  by_contra hq
  rw [Bool.not_eq_true] at hq
  rcases eq_of_isQuiet_eq_false hq with rfl | rfl | rfl | rfl | rfl <;> exact absurd h (by decide)

theorem isQuiet_of_isSpace (h : isSpace c = true) : isQuiet c = true := by
  by_contra hq
  rw [Bool.not_eq_true] at hq
  rcases eq_of_isQuiet_eq_false hq with rfl | rfl | rfl | rfl | rfl <;> exact absurd h (by decide)

theorem isIdentifier_iff : isIdentifier t = true ↔
    (∃ c rest, t = c :: rest ∧ c.isDigit = false) ∧ ∀ c ∈ t, isWord c = true := by
  cases t with
  | nil => simp [isIdentifier]
  | cons c t => simp [isIdentifier, and_assoc, and_left_comm]

/-- An identifier consists of characters of words. -/
theorem isWord_of_mem_identifier (h : isIdentifier t = true) (hc : c ∈ t) : isWord c = true :=
  (isIdentifier_iff.1 h).2 c hc

/-- An identifier has a first character. -/
theorem exists_head_of_identifier (h : isIdentifier t = true) :
    ∃ c, t.head? = some c ∧ isWord c = true := by
  obtain ⟨⟨c, rest, rfl, -⟩, hw⟩ := isIdentifier_iff.1 h
  exact ⟨c, rfl, hw c (by simp)⟩

/-- An identifier has a last character. -/
theorem exists_last_of_identifier (h : isIdentifier t = true) :
    ∃ n c, t = n ++ [c] ∧ isWord c = true := by
  obtain ⟨⟨d, rest, hd, -⟩, hw⟩ := isIdentifier_iff.1 h
  obtain ⟨n, c, hn⟩ : ∃ n c, t = n ++ [c] :=
    ⟨_, _, (List.dropLast_concat_getLast (by simp [hd] : t ≠ [])).symm⟩
  exact ⟨n, c, hn, hw c (by simp [hn])⟩

end SdkWiring.Text
