import SdkWiring.Text.Basic
import SdkWiring.Text.CharClass

/-!
# Columns

The width of a text in the columns of a terminal. Control characters and escape sequences take none.

* `Text.columns`: the width of a text.
* `Escape.next`: how an escape sequence goes on.
* `Text.columns_nil`, `Text.columns_of_ascii`: a text of visible ASCII characters is as wide as it
  is long.
-/

namespace SdkWiring.Text

/-- What the reading of a text is in the middle of, as to escape sequences. -/
inductive Escape
  /-- Of nothing. -/
  | none
  /-- Behind the escape character. -/
  | started
  /-- Of a sequence that a letter or mark ends. -/
  | sequence
  /-- Of a command that a bell ends, or a backslash behind an escape character. -/
  | command (closing : Bool)
  deriving DecidableEq, Repr

namespace Escape

/-- The state behind a character. -/
def next (e : Escape) (c : Char) : Escape :=
  match e with
  | none => if c = '\x1B' then started else none
  | started => if c = '[' then sequence else if c = ']' then command false else none
  | sequence => if '@' ≤ c ∧ c ≤ '~' then none else sequence
  | command closing =>
    if c = '\x07' ∨ (c = '\\' ∧ closing) then none else command (c == '\x1B')

/-- Whether a character is shown, not being part of an escape sequence. -/
def shows (e : Escape) (c : Char) : Bool := e = none && c != '\x1B'

end Escape

/-- Characters that take two columns. -/
def wide : CharRanges.Ranges :=
  [(0x1100, 0x115F), (0x231A, 0x231B), (0x2329, 0x232A), (0x23E9, 0x23EC), (0x23F0, 0x23F0),
   (0x23F3, 0x23F3), (0x25FD, 0x25FE), (0x2614, 0x2615), (0x2630, 0x2637), (0x2648, 0x2653),
   (0x267F, 0x267F), (0x268A, 0x268F), (0x2693, 0x2693), (0x26A1, 0x26A1), (0x26AA, 0x26AB),
   (0x26BD, 0x26BE), (0x26C4, 0x26C5), (0x26CE, 0x26CE), (0x26D4, 0x26D4), (0x26EA, 0x26EA),
   (0x26F2, 0x26F3), (0x26F5, 0x26F5), (0x26FA, 0x26FA), (0x26FD, 0x26FD), (0x2705, 0x2705),
   (0x270A, 0x270B), (0x2728, 0x2728), (0x274C, 0x274C), (0x274E, 0x274E), (0x2753, 0x2755),
   (0x2757, 0x2757), (0x2795, 0x2797), (0x27B0, 0x27B0), (0x27BF, 0x27BF), (0x2B1B, 0x2B1C),
   (0x2B50, 0x2B50), (0x2B55, 0x2B55), (0x2E80, 0x2E99), (0x2E9B, 0x2EF3), (0x2F00, 0x2FD5),
   (0x2FF0, 0x3029), (0x3030, 0x303E), (0x3041, 0x3096), (0x309B, 0x30FF), (0x3105, 0x312F),
   (0x3131, 0x3163), (0x3165, 0x318E), (0x3190, 0x31E5), (0x31EF, 0x321E), (0x3220, 0x3247),
   (0x3250, 0xA48C), (0xA490, 0xA4C6), (0xA960, 0xA97C), (0xAC00, 0xD7A3), (0xF900, 0xFAFF),
   (0xFE10, 0xFE19), (0xFE30, 0xFE52), (0xFE54, 0xFE66), (0xFE68, 0xFE6B), (0xFF01, 0xFF60),
   (0xFFE0, 0xFFE6), (0x16FE0, 0x16FE3), (0x16FF2, 0x16FF6), (0x17000, 0x18CD5), (0x18CFF, 0x18D1E),
   (0x18D80, 0x18DF2), (0x1AFF0, 0x1AFF3), (0x1AFF5, 0x1AFFB), (0x1AFFD, 0x1AFFE),
   (0x1B000, 0x1B122), (0x1B132, 0x1B132), (0x1B150, 0x1B152), (0x1B155, 0x1B155),
   (0x1B164, 0x1B167), (0x1B170, 0x1B2FB), (0x1D300, 0x1D356), (0x1D360, 0x1D376),
   (0x1F004, 0x1F004), (0x1F0CF, 0x1F0CF), (0x1F18E, 0x1F18E), (0x1F191, 0x1F19A),
   (0x1F200, 0x1F202), (0x1F210, 0x1F23B), (0x1F240, 0x1F248), (0x1F250, 0x1F251),
   (0x1F260, 0x1F265), (0x1F300, 0x1F320), (0x1F32D, 0x1F335), (0x1F337, 0x1F37C),
   (0x1F37E, 0x1F393), (0x1F3A0, 0x1F3CA), (0x1F3CF, 0x1F3D3), (0x1F3E0, 0x1F3F0),
   (0x1F3F4, 0x1F3F4), (0x1F3F8, 0x1F43E), (0x1F440, 0x1F440), (0x1F442, 0x1F4FC),
   (0x1F4FF, 0x1F53D), (0x1F54B, 0x1F54E), (0x1F550, 0x1F567), (0x1F57A, 0x1F57A),
   (0x1F595, 0x1F596), (0x1F5A4, 0x1F5A4), (0x1F5FB, 0x1F64F), (0x1F680, 0x1F6C5),
   (0x1F6CC, 0x1F6CC), (0x1F6D0, 0x1F6D2), (0x1F6D5, 0x1F6D8), (0x1F6DC, 0x1F6DF),
   (0x1F6EB, 0x1F6EC), (0x1F6F4, 0x1F6FC), (0x1F7E0, 0x1F7EB), (0x1F7F0, 0x1F7F0),
   (0x1F90C, 0x1F93A), (0x1F93C, 0x1F945), (0x1F947, 0x1F9FF), (0x1FA70, 0x1FA7C),
   (0x1FA80, 0x1FA8A), (0x1FA8E, 0x1FAC6), (0x1FAC8, 0x1FAC8), (0x1FACD, 0x1FADC),
   (0x1FADF, 0x1FAEA), (0x1FAEF, 0x1FAF8), (0x20000, 0x2FFFD), (0x30000, 0x3FFFD)]

/-- Characters of East Asian scripts that take one column although most of their kind take two. -/
def halfwidth : CharRanges.Ranges :=
  [(0x20A9, 0x20A9), (0xFF61, 0xFFBE), (0xFFC2, 0xFFC7), (0xFFCA, 0xFFCF), (0xFFD2, 0xFFD7),
   (0xFFDA, 0xFFDC), (0xFFE8, 0xFFEE)]

/-- Whether a character has its width from East Asian scripts. -/
def isEastAsian (c : Char) : Bool :=
  0x80 ≤ c.toNat && (wide.has c.toNat || halfwidth.has c.toNat)

/-- Characters that take no column although they do not extend the one before them. -/
def widthless : CharRanges.Ranges :=
  [(0xAD, 0xAD), (0x605, 0x605), (0x61C, 0x61C), (0x70F, 0x70F), (0x890, 0x891), (0x8E2, 0x8E2),
   (0x1160, 0x11FF), (0x180E, 0x180E), (0x200B, 0x200B), (0x200D, 0x200F), (0x202A, 0x202E),
   (0x2060, 0x206F), (0x3164, 0x3164), (0xA8FA, 0xA8FA), (0xD7B0, 0xD7C6), (0xD7CB, 0xD7FB),
   (0xFEFF, 0xFEFF), (0xFFA0, 0xFFA0), (0xFFF0, 0xFFF8), (0x1BCA0, 0x1BCA3), (0x1D173, 0x1D17A),
   (0xE0000, 0xE001F), (0xE0080, 0xE00FF), (0xE01F0, 0xE0FFF)]

/-- The number of columns of a character. -/
def columnsOf (c : Char) : Nat :=
  if isControl c then 0
  else if c.toNat < 0x80 then 1
  else if CharRanges.extending.has c.toNat || widthless.has c.toNat then 0
  else if wide.has c.toNat then 2
  else 1

/-- The number of columns of what follows a state. -/
def columnsFrom (e : Escape) : Text → Nat
  | [] => 0
  | c :: t => (if e.shows c then columnsOf c else 0) + columnsFrom (e.next c) t

/-- The number of columns of a text. -/
def columns (t : Text) : Nat := columnsFrom .none t

@[simp] theorem columns_nil : columns [] = 0 := rfl

/-- A text of visible ASCII characters is as wide as it is long. -/
theorem columns_of_ascii {t : Text} (h : ∀ c ∈ t, 0x20 ≤ c.toNat ∧ c.toNat < 0x7F) :
    columns t = t.length := by
  unfold columns
  induction t with
  | nil => rfl
  | cons c t ih =>
    have hc := h c (by simp)
    have shown : c ≠ '\x1B' := by
      rintro rfl
      simp at hc
    have visible : isControl c = false := by
      simp [isControl]
      omega
    have small : c.toNat < 0x80 := by omega
    have width : columnsOf c = 1 := by simp [columnsOf, visible, small]
    have state : Escape.none.next c = .none := by simp [Escape.next, shown]
    simp [columnsFrom, Escape.shows, shown, width, state, ih fun x hx => h x (by simp [hx])]
    omega

end SdkWiring.Text
