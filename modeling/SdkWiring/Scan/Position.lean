import SdkWiring.Scan.Context
import SdkWiring.Text.Pattern

/-!
# Positions of a scan

A scan presents every character of a text once, with the text around it, whether it is live code,
and how many braces enclose it. Only live braces count, and a closing brace without an opening one
counts for nothing. A brace and the one that closes it are reported at the same level, all that
stands between them at one more.

```text
character  a  {  b  {  c  }  d  }  e
level      0  0  1  1  2  1  1  0  0
```

* `positions`: the positions of a text in reading order.
* `map_char_positions`: each character is presented once, in order.
-/

namespace SdkWiring

/-- A character of a text together with what is known about it. -/
structure Position where
  /-- The text before the character, nearest character first. -/
  before : Text
  char : Char
  /-- The text behind the character. -/
  after : Text
  /-- Whether the character is live code, not the inside of a comment or literal. -/
  significant : Bool
  /-- The number of braces that enclose the character. -/
  level : Nat
  deriving DecidableEq, Repr

namespace Position

/-- The place before the character. -/
def cursor (p : Position) : Cursor := ⟨p.before, p.char :: p.after⟩

/-- The byte offset of the character. -/
def offset (p : Position) : Nat := p.before.size

/-- All text before the character. -/
def backpart (p : Position) : Text := p.before.reverse

/-- All text from the character on. -/
def forepart (p : Position) : Text := p.char :: p.after

/-- Whether the character is the first of a line. -/
def atLineStart (p : Position) : Bool :=
  match p.before with
  | [] => true
  | c :: _ => c == '\n'

/-- The line that ends right before the character, with its line feed; nothing elsewhere. -/
def previousLine (p : Position) : Text :=
  match p.before with
  | '\n' :: rest => (rest.takeWhile (· != '\n')).reverse ++ ['\n']
  | _ => []

/-- Whether the character is live and equal to `c`. -/
def live (p : Position) (c : Char) : Bool := p.significant && p.char == c

theorem live_iff {p : Position} {c : Char} :
    p.live c = true ↔ p.significant = true ∧ p.char = c := by
  simp [live]

/-- A character is live as itself only. -/
theorem not_live_of_live {p : Position} {c d : Char} (hne : c ≠ d) (h : p.live c = true) :
    p.live d = false := by
  simp [live, (live_iff.1 h).2, hne]

end Position

/-- The level at which a character is reported, given the level before it. -/
def levelAt (significant : Bool) (c : Char) (level : Nat) : Nat :=
  if significant && c == '}' then level - 1 else level

/-- The level behind a character, given the level at which it was reported. -/
def levelAfter (significant : Bool) (c : Char) (level : Nat) : Nat :=
  if significant && c == '{' then level + 1 else level

/-- The positions of the rest of a text, from a context, a level and the text before it. -/
def positionsFrom (quoting : Quoting) (context : Context) (level : Nat) (before : Text) :
    Text → List Position
  | [] => []
  | c :: rest =>
    let significant := context.isCode
    let here := levelAt significant c level
    ⟨before, c, rest, significant, here⟩ ::
      positionsFrom quoting (context.advance quoting c rest.head?) (levelAfter significant c here)
        (c :: before) rest

/-- The positions of a text, in reading order. -/
def positions (quoting : Quoting) (t : Text) : List Position :=
  positionsFrom quoting .code 0 [] t

/-- What was last reported about the text: whether its last character is live, and its level. -/
def lastReport (ps : List Position) : Bool × Nat :=
  match ps.getLast? with
  | none => (false, 0)
  | some p => (p.significant, p.level)

theorem map_char_positionsFrom (quoting : Quoting) (context : Context) (level : Nat)
    (before t : Text) :
    (positionsFrom quoting context level before t).map Position.char = t := by
  induction t generalizing context level before with
  | nil => rfl
  | cons c t ih => simp [positionsFrom, ih]

/-- Each character is presented once, in order. -/
theorem map_char_positions (quoting : Quoting) (t : Text) :
    (positions quoting t).map Position.char = t :=
  map_char_positionsFrom quoting .code 0 [] t

end SdkWiring
