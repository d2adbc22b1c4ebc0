import SdkWiring.Text.Basic

/-!
# Numbers in digits

Digits, and whole numbers without a minus sign that fit into 64 bits, as settings in the environment
write them.

* `Text.digit?`: the value of a digit.
* `Text.number?`: the number that a text writes.
* `Text.digits?_zero_cons`, `Text.number?_plus`: leading zeros and a plus sign do not count.
-/

namespace SdkWiring.Text

/-- The value of a digit, up to the sixteen of hexadecimal. -/
def digit? (c : Char) : Option Nat :=
  if '0' ≤ c ∧ c ≤ '9' then some (c.toNat - '0'.toNat)
  else if 'a' ≤ c ∧ c ≤ 'f' then some (c.toNat - 'a'.toNat + 10)
  else if 'A' ≤ c ∧ c ≤ 'F' then some (c.toNat - 'A'.toNat + 10)
  else none

/-- The number that digits write, behind the digits that were read already. -/
def digits? (value : Nat) : Text → Option Nat
  | [] => some value
  | c :: rest =>
    if '0' ≤ c ∧ c ≤ '9' then digits? (value * 10 + (c.toNat - '0'.toNat)) rest else none

/-- A text without a plus sign at its start. -/
def withoutPlus : Text → Text
  | '+' :: rest => rest
  | t => t

/-- The number that a text writes, if it is digits alone, has at least one, and fits into 64 bits. A
plus sign may stand before it. -/
def number? (t : Text) : Option Nat :=
  let digits := withoutPlus t
  if digits.isEmpty then none
  else (digits? 0 digits).filter (· < Nat.pow 2 64)

/-- A zero in front of other digits does not count. -/
theorem digits?_zero_cons (t : Text) : digits? 0 ('0' :: t) = digits? 0 t := by
  simp [digits?]

/-- Neither does a plus sign in front of a digit. -/
theorem number?_plus {c : Char} {t : Text} (h : c ≠ '+') :
    number? ('+' :: c :: t) = number? (c :: t) := by
  have kept : withoutPlus (c :: t) = c :: t := by
    unfold withoutPlus
    split <;> simp_all
  have dropped : withoutPlus ('+' :: c :: t) = c :: t := rfl
  rw [number?, number?, kept, dropped]

end SdkWiring.Text
