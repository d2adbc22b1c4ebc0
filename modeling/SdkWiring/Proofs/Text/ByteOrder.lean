import Mathlib.Data.Char
import Mathlib.Data.List.Lex
import Mathlib.Tactic.SplitIfs
import SdkWiring.Files.Path

/-!
# The order of bytes

File systems and tools that list them compare names byte by byte, strings are compared character by
character. In UTF-8 the two orders are the same: the form of the lesser of two characters is less than
that of the other one, and differs from it before either ends.

* `utf8EncodeChar_lt`: two characters.
* `flatMap_utf8EncodeChar_lt_iff`: two texts.
* `Name.before_iff`: two names.
-/

namespace SdkWiring

/-- The four digits of two numbers first differ where the lesser number has the lesser digit. -/
theorem digits_lt {a b : Nat} (h : a < b) (hmost : b < 0x200000) :
    a / 262144 % 8 < b / 262144 % 8 ∨ a / 262144 % 8 = b / 262144 % 8 ∧
      (a / 4096 % 64 < b / 4096 % 64 ∨ a / 4096 % 64 = b / 4096 % 64 ∧
        (a / 64 % 64 < b / 64 % 64 ∨ a / 64 % 64 = b / 64 % 64 ∧ a % 64 < b % 64)) := by
  rcases (Nat.div_le_div_right (c := 262144) h.le).lt_or_eq with h₁ | h₁
  · omega
  · refine .inr ⟨by rw [h₁], ?_⟩
    rcases (Nat.div_le_div_right (c := 4096) h.le).lt_or_eq with h₂ | h₂
    · omega
    · refine .inr ⟨by rw [h₂], ?_⟩
      omega

/-- **The UTF-8 forms of two characters** are in the order of the characters, whatever follows them. -/
theorem utf8EncodeChar_lt {c d : Char} (h : c < d) (x y : List UInt8) :
    String.utf8EncodeChar c ++ x < String.utf8EncodeChar d ++ y := by
  have hlt : c.val.toNat < d.val.toNat := h
  have hmost : d.val.toNat < 0x110000 := by
    rcases d.valid with hd | hd <;> omega
  have hdigits := digits_lt hlt (by omega)
  -- a longer form starts with a greater byte; forms of one length differ first where the numbers do
  simp only [String.utf8EncodeChar]
  split_ifs <;>
    simp only [List.cons_append, List.nil_append, List.cons_lt_cons_iff, UInt8.lt_iff_toNat_lt,
      ← UInt8.toNat_inj, UInt8.toNat_ofNat'] <;>
    simp (disch := omega) only [Nat.mod_eq_of_lt] <;> omega

/-- **Texts are in the order of their UTF-8 forms.** -/
theorem flatMap_utf8EncodeChar_lt_iff (s t : List Char) :
    s.flatMap String.utf8EncodeChar < t.flatMap String.utf8EncodeChar ↔ s < t := by
  induction s generalizing t with
  | nil =>
    cases t with
    | nil => simp
    | cons d t =>
      obtain ⟨b, bs, hb⟩ := List.exists_cons_of_ne_nil (@String.utf8EncodeChar_ne_nil d)
      simp [hb]
  | cons c s ih =>
    cases t with
    | nil => simp
    | cons d t =>
      rw [List.flatMap_cons, List.flatMap_cons, List.cons_lt_cons_iff]
      rcases lt_trichotomy c d with hcd | rfl | hdc
      · exact iff_of_true (utf8EncodeChar_lt hcd _ _) (.inl hcd)
      · rw [← ih t]
        -- the same character has the same bytes, so the rest decides
        refine ⟨fun h => .inr ⟨rfl, ?_⟩, fun h => ?_⟩
        · by_contra hno
          rcases List.le_iff_lt_or_eq.1 (List.not_lt.1 hno) with hlt | heq
          · exact List.lt_asymm h (List.append_left_lt hlt)
          · rw [heq] at h
            exact List.lt_irrefl _ h
        · rcases h with h | ⟨-, h⟩
          · exact absurd h (lt_irrefl c)
          · exact List.append_left_lt h
      · refine iff_of_false (fun h => List.lt_asymm h (utf8EncodeChar_lt hdc _ _)) ?_
        rintro (h | ⟨rfl, -⟩)
        · exact lt_asymm h hdc
        · exact lt_irrefl _ hdc

/-- Whether a name comes before another one, byte by byte. -/
def Name.before (a b : Name) : Prop := a.toUTF8.data.toList < b.toUTF8.data.toList

/-- **Names are in the order of their bytes.** -/
theorem Name.before_iff (a b : Name) : Name.before a b ↔ a < b := by
  have hbytes : ∀ s : Name, s.toUTF8.data.toList = s.toList.flatMap String.utf8EncodeChar := by
    intro s
    have hform : s.toUTF8 = s.toList.utf8Encode := String.utf8Encode_toList.symm
    rw [hform, List.utf8Encode, List.data_toByteArray]
  rw [Name.before, hbytes, hbytes, flatMap_utf8EncodeChar_lt_iff]
  exact Iff.rfl

namespace Name

theorem before_of_le {a b : Name} (h : a ≤ b) (hne : a ≠ b) : Name.before a b := by
  rw [before_iff]
  by_contra hno
  exact hne (String.le_antisymm h (String.not_lt.1 hno))

instance : Std.Asymm Name.before where
  asymm a b h h' := String.lt_asymm ((before_iff a b).1 h) ((before_iff b a).1 h')

end Name

end SdkWiring
