import SdkWiring.Text.BreakClass
import SdkWiring.Text.Columns

/-!
# Where lines can be broken

Whether a line can be broken before a character depends on its class and on what stands before it:
the class of the last character that is no space, what that is part of, and whether spaces follow
it. Some rules also look at the two characters that follow.

* `Spot.mayBreak`: whether a line can be broken at a place before a character.
* `Spot.not_mayBreak_space`: spaces stay at the end of a line.
* `Spot.not_mayBreak_behind_initialQuote`: an opening quotation mark takes what follows it along.
* `Spot.mayBreak_letter`: behind all other spaces, a line can be broken before a letter.
-/

namespace SdkWiring.Text

/-- What the rules see of a character. -/
structure Glyph where
  kind : BreakClass
  /-- Whether its width is that of East Asian scripts. -/
  eastAsian : Bool := false
  deriving DecidableEq, Repr

/-- What the rules see of a character. -/
def Glyph.of (c : Char) : Glyph := ⟨BreakClass.of c, isEastAsian c⟩

/-- What a character is part of, by what stands before it. -/
inductive Role
  | plain
  /-- The first half of a flag. -/
  | halfFlag
  /-- A quotation mark that opens a quotation. -/
  | openedQuote
  /-- A closing quotation mark next to an East Asian character. -/
  | eastAsianQuote
  /-- A digit, or a mark behind a digit that can be part of the number. -/
  | number
  /-- A closing bracket behind a number. -/
  | numberEnd
  /-- A hyphen behind a Hebrew letter. -/
  | hebrewHyphen
  /-- A hyphen at the start of a word. -/
  | firstHyphen
  /-- A sign that joins the consonant before it to the next one. -/
  | joinedVirama
  deriving DecidableEq, Repr

/-- A place in a text, by what stands before it. -/
structure Spot where
  /-- The class of the last character that is neither a space nor part of another one. -/
  last : BreakClass := .letter
  /-- What that character is part of. -/
  role : Role := .plain
  /-- Whether the width of that character is that of East Asian scripts. -/
  eastAsian : Bool := false
  /-- Whether spaces stand behind it. -/
  spaced : Bool := true
  /-- Whether the character before the place sticks to what follows. -/
  joined : Bool := false
  deriving DecidableEq, Repr

namespace Spot

/-- The class that a character has at a place: what has nothing to belong to counts as a letter. -/
def resolve (s : Spot) (c : BreakClass) : BreakClass :=
  if c.isAttached && (s.spaced || s.last ∈ [.lineEnd, .zeroSpace]) then .letter
  else c

/-! ## Characters that stand next to each other -/

/-- Whether a quotation mark sticks to its neighbour. Only between East Asian characters it does not
stick to what it leaves outside of the quotation. -/
def sticksAtQuote (s : Spot) (next : Glyph) (ahead : List Glyph) : Bool :=
  (s.last.isQuote && !(s.role == .eastAsianQuote && next.eastAsian))
    || (next.kind.isQuote
      && !(next.kind == .initialQuote && s.eastAsian && ahead.head?.any (·.eastAsian)))

/-- Whether a number follows. It can start with a separator. -/
def startsNumber : List Glyph → Bool
  | ⟨.digit, _⟩ :: _ => true
  | ⟨.separator, _⟩ :: ⟨.digit, _⟩ :: _ => true
  | _ => false

/-- Whether a number goes on, with the marks and brackets around it. -/
def sticksInNumber (s : Spot) (next : BreakClass) (ahead : List Glyph) : Bool :=
  (s.role == .number && (next == .digit || next.isNumberMark))
    || (s.role == .numberEnd && next.isNumberMark)
    || (s.last.isNumberMark && next.isOpening && startsNumber ahead)

/-- Whether a syllable that is written as a stack goes on. -/
def sticksInStack (s : Spot) (next : BreakClass) (ahead : List Glyph) : Bool :=
  (s.role == .joinedVirama && next ∈ [.aksara, .dottedCircle])
    || (s.last.isAksara && next.isAksara && ahead.head?.any (·.kind == .finalVirama))

/-- Whether a word that has started with a hyphen, or with a Hebrew letter and a hyphen, goes on. -/
def sticksAtHyphen (s : Spot) (next : BreakClass) : Bool :=
  (s.role == .hebrewHyphen && next != .hebrew) || (s.role == .firstHyphen && next.isLetter)

/-- Whether the last character sticks to the next one, which stands next to it. -/
def sticks (s : Spot) (next : Glyph) (ahead : List Glyph) : Bool :=
  if s.sticksAtQuote next ahead then true
  else if s.last == .object || next.kind == .object then false
  else
    s.last.sticksToNext next.kind || s.sticksInNumber next.kind ahead
      || s.sticksInStack next.kind ahead || s.sticksAtHyphen next.kind
      || (s.role == .halfFlag && next.kind == .flag)

/-! ## All places -/

/-- Whether a line can be broken at a place before a character, with the characters ahead of that
which do not belong to others. -/
def mayBreak (s : Spot) (next : Glyph) (ahead : List Glyph) : Bool :=
  let a := s.last
  let b := s.resolve next.kind
  if a = .lineEnd ∧ !s.spaced then true
  else if b.isBlank then false
  else if a = .zeroSpace then true
  else if s.joined || b.isAttached || b == .joiner then false
  else if !s.spaced && a ∈ [.joiner, .glue] then false
  else if !s.spaced && b == .glue && !(a.isHyphen || a == .breakAfter) then false
  else if b.isTrailing || a.isOpening || s.role == .openedQuote then false
  else if b == .finalQuote && ahead.head?.all (·.kind.closesQuotation) then false
  else if b == .separator then s.spaced && ahead.head?.any (·.kind == .digit)
  else if (a.isClosing && b == .nonstarter) || (a == .dash && b == .dash) then false
  else if s.spaced then true
  else !s.sticks { next with kind := b } ahead

/-- What a character becomes part of at a place. -/
def roleOf (s : Spot) (c : BreakClass) : Role :=
  match c with
  | .initialQuote => if s.spaced || s.last.opensQuotation then .openedQuote else .plain
  | .digit => .number
  | .hyphen | .wordHyphen =>
    if s.spaced || s.last.startsWord then .firstHyphen
    else if s.last == .hebrew then .hebrewHyphen
    else .plain
  | .flag => if s.role == .halfFlag && !s.spaced then .plain else .halfFlag
  | .finalQuote => if s.eastAsian && !s.spaced then .eastAsianQuote else .plain
  | .separator | .slash => if s.role == .number && !s.spaced then .number else .plain
  | .closing | .closingRound => if s.role == .number && !s.spaced then .numberEnd else .plain
  | .virama => if s.last.isAksara && !s.spaced then .joinedVirama else .plain
  | _ => .plain

/-- The place behind a character. -/
def behind (s : Spot) (next : Glyph) : Spot :=
  match s.resolve next.kind with
  | .space => { s with spaced := true, joined := false }
  | .combining => { s with joined := false }
  | .zeroJoiner => { s with joined := true }
  | c => {
      last := c
      role := s.roleOf c
      eastAsian := next.eastAsian
      spaced := false
      joined := next.kind == .zeroJoiner }

/-- Spaces stay at the end of a line. -/
theorem not_mayBreak_space {s : Spot} (h : s.last ≠ .lineEnd) (ahead : List Glyph) :
    s.mayBreak ⟨.space, false⟩ ahead = false := by
  simp [mayBreak, resolve, h, BreakClass.isBlank, BreakClass.isAttached]

/-- An opening quotation mark behind a space takes what follows it along, even behind another
space. -/
theorem not_mayBreak_behind_initialQuote {s : Spot} (spaced : s.spaced = true) (next : Glyph)
    (ahead : List Glyph) :
    ((s.behind ⟨.initialQuote, false⟩).behind ⟨.space, false⟩).mayBreak next ahead = false := by
  simp [mayBreak, behind, resolve, roleOf, spaced, BreakClass.isAttached]

/-- Behind a space, a line can be broken before every letter, unless an opening bracket or an
opening quotation mark stands before the space. -/
theorem mayBreak_letter {s : Spot} (spaced : s.spaced = true) (joined : s.joined = false)
    (last : s.last.isOpening = false) (role : s.role ≠ .openedQuote) (ahead : List Glyph) :
    s.mayBreak ⟨.letter, false⟩ ahead = true := by
  simp [mayBreak, resolve, spaced, joined, last, role, BreakClass.isClosing, BreakClass.isBlank,
    BreakClass.isAttached, BreakClass.isTrailing]

end Spot

end SdkWiring.Text
