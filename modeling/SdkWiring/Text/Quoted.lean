import SdkWiring.Text.Basic
import SdkWiring.Text.CharClass

/-!
# Quoted text

A text between quotes, in which every character can be seen: quotes and backslashes stand behind a
backslash, and what has no form of its own is named by a letter or by its number.

* `Text.quoted`: the quoted form.
* `Text.unescaped_quotedChar`: the form of a character is one character only if it stands for
  itself.
-/

namespace SdkWiring.Text

/-- Whether a character has no form of its own: controls, formats, what only extends the character
before it, code points without a character, and white space other than the space. -/
def isUnseen (c : Char) : Bool :=
  isControl c || (isSpace c && c != ' ') || CharRanges.extending.has c.toNat
    || CharRanges.formless.has c.toNat || CharRanges.unassigned.has c.toNat

/-- A character inside quotes. -/
def quotedChar (c : Char) : Text :=
  if c = '"' ∨ c = '\\' then ['\\', c]
  else if c = '\n' then "\\n".toList
  else if c = '\r' then "\\r".toList
  else if c = '\t' then "\\t".toList
  else if c = '\x00' then "\\0".toList
  else if isUnseen c then "\\u\x7b".toList ++ Nat.toDigits 16 c.toNat ++ "\x7d".toList
  else [c]

/-- A text between quotes. -/
def quoted (t : Text) : String :=
  String.ofList (['"'] ++ t.flatMap quotedChar ++ ['"'])

/-- The form of a character is one character only if it stands for itself. -/
theorem unescaped_quotedChar {c x : Char} (h : quotedChar c = [x]) :
    x = c ∧ c ≠ '"' ∧ c ≠ '\\' ∧ isUnseen c = false := by
  unfold quotedChar at h
  repeat' split at h
  all_goals simp_all

end SdkWiring.Text
