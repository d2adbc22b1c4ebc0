import SdkWiring.Text.CharRanges

/-!
# Character classes

The classes that the recognisers and checks ask for, after the Unicode character properties. Code
points below U+0080 are decided here, all others in the tables of `SdkWiring.Text.CharRanges`.

* `Text.isSpace_of_isBlank`: a blank is white space.
* `Text.isWord_of_isAlphanumeric`: an alphanumeric character that is neither a bare number nor one
  of the newest characters is a word character.

Words follow version 16 of the standard, all other classes version 17.
-/

namespace SdkWiring.Text

open CharRanges

/-- A blank inside a line: a space or a tab. -/
def isBlank (c : Char) : Bool :=
  c == ' ' || c == '\t'

/-- White space: the property White_Space. -/
def isSpace (c : Char) : Bool :=
  if c.toNat < 0x80 then c == ' ' || (0x9 ≤ c.toNat && c.toNat ≤ 0xD)
  else space.has c.toNat

/-- A letter in the wide sense: the property Alphabetic. -/
def isAlphabetic (c : Char) : Bool :=
  if c.toNat < 0x80 then c.isAlpha else alphabetic.has c.toNat

/-- A character of a word: alphabetic characters, marks, decimal digits, connector punctuation and
the two joiners. The newest characters are in no word. -/
def isWord (c : Char) : Bool :=
  if c.toNat < 0x80 then c.isAlphanum || c == '_'
  else (alphabetic.has c.toNat || mark.has c.toNat || decimal.has c.toNat
    || connector.has c.toNat || c == '\u200C' || c == '\u200D') && !recent.has c.toNat

/-- An alphabetic character or a number of any kind. -/
def isAlphanumeric (c : Char) : Bool :=
  if c.toNat < 0x80 then c.isAlphanum
  else alphabetic.has c.toNat || decimal.has c.toNat || otherNumber.has c.toNat

/-- A control character: category Cc. -/
def isControl (c : Char) : Bool :=
  c.toNat < 0x20 || (0x7F ≤ c.toNat && c.toNat < 0xA0)

/-- A blank is white space. -/
theorem isSpace_of_isBlank {c : Char} (h : isBlank c = true) : isSpace c = true := by
  simp only [isBlank, Bool.or_eq_true, beq_iff_eq] at h
  rcases h with rfl | rfl <;> decide

/-- An alphanumeric character that is neither a bare number nor one of the newest characters is a
word character. -/
theorem isWord_of_isAlphanumeric {c : Char} (h : isAlphanumeric c = true)
    (hn : otherNumber.has c.toNat = false) (hr : recent.has c.toNat = false) :
    isWord c = true := by
  unfold isAlphanumeric at h
  unfold isWord
  split <;> simp_all
  rcases h with h | h <;> simp [h]

end SdkWiring.Text
