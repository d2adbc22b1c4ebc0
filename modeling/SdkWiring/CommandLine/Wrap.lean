import SdkWiring.Text.Breaking
import SdkWiring.Text.Columns

/-!
# Wrapping lines

A text is broken into lines that are as long as possible but not too wide. A line is broken where
the classes of characters allow it, though never behind a hyphen, unless that stands between letters
or digits. A word that is too wide for any line is broken anywhere.

* `Wrap.pieces`: a line in the pieces between the places where it can be broken.
* `Wrap.fill`: a text as indented lines.
-/

namespace SdkWiring.Wrap

open Text

/-! ## Words -/

/-- Characters that are not broken, and the spaces behind them. -/
structure Word where
  chars : Text
  spaces : Text
  deriving DecidableEq, Repr

/-- Characters with the spaces at their end put apart. -/
def Word.ofText (t : Text) : Word :=
  let spaces := (t.reverse.takeWhile (· == ' ')).reverse
  ⟨t.take (t.length - spaces.length), spaces⟩

/-- Whether a character is a hyphen, visible or not. -/
def isHyphen (c : Char) : Bool := c == '-' || c == '\u00AD'

/-- The reading of a line in pieces. Texts are kept with the last character first. -/
structure Reading where
  spot : Spot := {}
  escape : Escape := .none
  /-- The last character that is shown. -/
  previous : Option Char := none
  /-- The escape sequences behind it. -/
  held : Text := []
  /-- The piece that is being read, up to it. -/
  piece : Text := []

/-- The first characters of a text that are shown and do not belong to others, as the rules for the
ends of lines see them. -/
def glyphsAhead (e : Escape) : Nat → Text → List Glyph
  | 0, _ | _, [] => []
  | count + 1, c :: rest =>
    if e.shows c && !(BreakClass.of c).isAttached then
      Glyph.of c :: glyphsAhead (e.next c) count rest
    else glyphsAhead (e.next c) (count + 1) rest

/-- The pieces of a line between the places where it can be broken. Escape sequences belong to the
character behind them. -/
def piecesFrom (r : Reading) : Text → List Text
  | [] =>
    let piece := r.held ++ r.piece
    if piece.isEmpty then [] else [piece.reverse]
  | c :: rest =>
    let escape := r.escape.next c
    if !r.escape.shows c then piecesFrom { r with escape, held := c :: r.held } rest
    else
      let next := Glyph.of c
      let spot := r.spot.behind next
      let ahead := glyphsAhead escape 2 rest
      if (r.previous.any (!isHyphen ·)) && r.spot.mayBreak next ahead then
        r.piece.reverse :: piecesFrom ⟨spot, escape, some c, [], c :: r.held⟩ rest
      else piecesFrom ⟨spot, escape, some c, [], c :: (r.held ++ r.piece)⟩ rest

/-- The last character of a line that is shown. -/
def lastShown (e : Escape) (last : Option Char) : Text → Option Char
  | [] => last
  | c :: rest => lastShown (e.next c) (if e.shows c then some c else last) rest

/-- Pieces with the last two joined. -/
def joinLast : List Text → List Text
  | [a, b] => [a ++ b]
  | a :: rest => a :: joinLast rest
  | [] => []

/-- The pieces of a line. A line that ends in a hyphen is not broken at the last place. -/
def pieces (line : Text) : List Text :=
  let read := piecesFrom {} line
  if (lastShown .none none line).any isHyphen then joinLast read else read

/-- The parts of a word that a hyphen between letters or digits ends. The part that is being read is
kept with the last character first. -/
def hyphenParts (part : Text) : Text → List Text
  | [] => [part.reverse]
  | c :: rest =>
    if c = '-' ∧ part.head?.any isAlphanumeric ∧ rest.head?.any isAlphanumeric then
      (c :: part).reverse :: hyphenParts [] rest
    else hyphenParts (c :: part) rest

/-- The parts of a word that are at most so wide, as wide as possible. -/
def narrowParts (width : Nat) (e : Escape) (part : Text) (used : Nat) : Text → List Text
  | [] => if part.isEmpty then [] else [part.reverse]
  | c :: rest =>
    if !e.shows c then narrowParts width (e.next c) (c :: part) used rest
    else if 0 < used ∧ width < used + columnsOf c then
      part.reverse :: narrowParts width (e.next c) [c] (columnsOf c) rest
    else narrowParts width (e.next c) (c :: part) (used + columnsOf c) rest

/-- A word in several parts, with the spaces behind the last one. -/
def Word.inParts (w : Word) (parts : List Text) : List Word :=
  match parts.reverse with
  | [] => [w]
  | last :: rest => (⟨last, w.spaces⟩ :: rest.map fun part => ⟨part, []⟩).reverse

/-- The words of a line, none of them too wide. The first one is empty, so that what follows can
start on the next line. -/
def words (width : Nat) (line : Text) : List Word :=
  let whole := (pieces line).map Word.ofText
  let parts := whole.flatMap fun w => w.inParts (hyphenParts [] w.chars)
  ⟨[], []⟩ :: parts.flatMap fun w =>
    if width < columns w.chars then w.inParts (narrowParts width .none [] 0 w.chars) else [w]

/-! ## Lines -/

/-- The words of each line. A word goes to the next line if it does not fit behind those before it.
The line that is being filled is kept with the last word first. -/
def fillLines (width : Nat) (line : List Word) (used : Nat) : List Word → List (List Word)
  | [] => [line.reverse]
  | w :: rest =>
    if width < used + columns w.chars ∧ line ≠ [] then
      line.reverse :: fillLines width [w] (columns w.chars + w.spaces.length) rest
    else fillLines width (w :: line) (used + columns w.chars + w.spaces.length) rest

/-- The text of a line, without the spaces at its end. -/
def lineText (line : List Word) : Text :=
  match line.reverse with
  | [] => []
  | last :: rest => rest.reverse.flatMap (fun w => w.chars ++ w.spaces) ++ last.chars

/-- The lines of a text, the first line with one indent and all others with another. -/
def fill (width : Nat) (first other : Text) (t : Text) : List Text :=
  let room := width - columns other
  let lines := (Text.cut '\n' t).flatMap fun line =>
    (fillLines room [] 0 (words room line)).map lineText
  match lines with
  | [] => [first]
  | line :: rest => (first ++ line) :: rest.map (other ++ ·)

end SdkWiring.Wrap
