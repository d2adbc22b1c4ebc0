import SdkWiring.Text.BreakRanges

/-!
# The classes of characters at the ends of lines

Every character has a class that says how it behaves at the end of a line.

* `BreakClass.of`: the class of a character.
* `BreakClass.sticksToNext`: whether a line is never broken between two classes that stand next to
  each other.
-/

namespace SdkWiring.Text

/-- What a character does at the end of a line. -/
inductive BreakClass
  | space
  /-- A line ends behind the character. -/
  | lineEnd
  /-- A line can be broken behind the character, which has no width. -/
  | zeroSpace
  /-- The character sticks to what follows it. -/
  | zeroJoiner
  /-- The character sticks to both neighbours, also across spaces before it. -/
  | joiner
  /-- The character sticks to both neighbours. -/
  | glue
  /-- The character belongs to the one before it. -/
  | combining
  | letter
  | hebrew
  | digit
  | ideograph
  | emojiBase
  | emojiModifier
  /-- Half of a flag. -/
  | flag
  | leadJamo
  | vowelJamo
  | trailJamo
  | openSyllable
  | closedSyllable
  /-- A consonant of a script that writes syllables as stacks. -/
  | aksara
  /-- A letter that starts such a syllable. -/
  | aksaraStart
  /-- A sign that stands before such a syllable. -/
  | aksaraBefore
  /-- A letter that stands for any consonant. -/
  | dottedCircle
  /-- A sign that joins two consonants. -/
  | virama
  /-- A sign that ends such a syllable. -/
  | finalVirama
  | opening
  | wideOpening
  | closing
  /-- A closing bracket that sticks to a letter behind it. -/
  | closingRound
  /-- A quotation mark that can stand on both sides of a quotation. -/
  | plainQuote
  /-- A quotation mark that opens a quotation. -/
  | initialQuote
  /-- A quotation mark that closes a quotation. -/
  | finalQuote
  | exclamation
  | nonstarter
  | ellipsis
  | separator
  | slash
  /-- A hyphen that can be a minus sign. -/
  | hyphen
  /-- A hyphen that is no minus sign. -/
  | wordHyphen
  | breakAfter
  | breakBefore
  | dash
  /-- Something that is no text. -/
  | object
  /-- A mark that stands before a number. -/
  | beforeNumber
  /-- A mark that stands behind a number. -/
  | behindNumber
  deriving DecidableEq, Repr

namespace BreakClass

/-- The class of an ASCII character. -/
def ofAscii (c : Char) : BreakClass :=
  match c with
  | ' ' => .space
  | '\n' | '\r' | '\x0B' | '\x0C' => .lineEnd
  | '\t' | '|' => .breakAfter
  | '!' | '?' => .exclamation
  | '"' | '\'' => .plainQuote
  | '(' | '[' | '\x7b' => .opening
  | ')' | ']' => .closingRound
  | '\x7d' => .closing
  | ',' | '.' | ':' | ';' => .separator
  | '/' => .slash
  | '-' => .hyphen
  | '$' | '+' | '\\' => .beforeNumber
  | '%' => .behindNumber
  | c =>
    if '0' ≤ c ∧ c ≤ '9' then .digit
    else if c.toNat < 0x20 ∨ c.toNat = 0x7F then .combining
    else .letter

/-- The classes that have a table, each with its table. -/
def tables : List (BreakClass × CharRanges.Ranges) :=
  [(.combining, BreakRanges.combining), (.digit, BreakRanges.digit),
   (.ideograph, BreakRanges.ideograph), (.emojiBase, BreakRanges.emojiBase),
   (.hebrew, BreakRanges.hebrew), (.opening, BreakRanges.opening),
   (.wideOpening, BreakRanges.wideOpening), (.closing, BreakRanges.closing),
   (.closingRound, BreakRanges.closingRound), (.plainQuote, BreakRanges.plainQuote),
   (.initialQuote, BreakRanges.initialQuote), (.finalQuote, BreakRanges.finalQuote),
   (.exclamation, BreakRanges.exclamation), (.nonstarter, BreakRanges.nonstarter),
   (.ellipsis, BreakRanges.ellipsis), (.separator, BreakRanges.separator),
   (.wordHyphen, BreakRanges.wordHyphen), (.breakAfter, BreakRanges.breakAfter),
   (.breakBefore, BreakRanges.breakBefore), (.dash, BreakRanges.dash),
   (.beforeNumber, BreakRanges.beforeNumber), (.behindNumber, BreakRanges.behindNumber),
   (.glue, BreakRanges.glue), (.aksara, BreakRanges.aksara),
   (.aksaraStart, BreakRanges.aksaraStart), (.aksaraBefore, BreakRanges.aksaraBefore),
   (.virama, BreakRanges.virama), (.finalVirama, BreakRanges.finalVirama)]

/-- The class of a syllable or a part of one in the Korean script. -/
def ofHangul? (n : Nat) : Option BreakClass :=
  if (0x1100 ≤ n ∧ n ≤ 0x115F) ∨ (0xA960 ≤ n ∧ n ≤ 0xA97C) then some .leadJamo
  else if (0x1160 ≤ n ∧ n ≤ 0x11A7) ∨ (0xD7B0 ≤ n ∧ n ≤ 0xD7C6) then some .vowelJamo
  else if (0x11A8 ≤ n ∧ n ≤ 0x11FF) ∨ (0xD7CB ≤ n ∧ n ≤ 0xD7FB) then some .trailJamo
  else if 0xAC00 ≤ n ∧ n ≤ 0xD7A3 then
    some (if (n - 0xAC00) % 28 = 0 then .openSyllable else .closedSyllable)
  else none

/-- The class of a character. -/
def of (c : Char) : BreakClass :=
  if c.toNat < 0x80 then ofAscii c
  else
    match c with
    | '\u0085' | '\u2028' | '\u2029' => .lineEnd
    | '\u200B' => .zeroSpace
    | '\u200D' => .zeroJoiner
    | '\u2060' | '\uFEFF' => .joiner
    | '\u25CC' => .dottedCircle
    | '\uFFFC' => .object
    | c =>
      if 0x1F1E6 ≤ c.toNat ∧ c.toNat ≤ 0x1F1FF then .flag
      else if 0x1F3FB ≤ c.toNat ∧ c.toNat ≤ 0x1F3FF then .emojiModifier
      else
        match ofHangul? c.toNat with
        | some cls => cls
        | none => ((tables.find? (·.2.has c.toNat)).map (·.1)).getD .letter

/-! ## Groups of classes -/

/-- Letters of all scripts that are written with spaces. -/
def isLetter (c : BreakClass) : Bool := c ∈ [letter, hebrew, dottedCircle]

/-- Ideographs and pictures. -/
def isPicture (c : BreakClass) : Bool := c ∈ [ideograph, emojiBase, emojiModifier]

/-- Syllables of the Korean script and their parts. -/
def isHangul (c : BreakClass) : Bool :=
  c ∈ [leadJamo, vowelJamo, trailJamo, openSyllable, closedSyllable]

/-- What a syllable that is written as a stack consists of. -/
def isAksara (c : BreakClass) : Bool := c ∈ [aksara, aksaraStart, dottedCircle]

/-- Marks that stand next to a number. -/
def isNumberMark (c : BreakClass) : Bool := c ∈ [beforeNumber, behindNumber]

/-- Opening brackets of any width. -/
def isOpening (c : BreakClass) : Bool := c ∈ [opening, wideOpening]

/-- Closing brackets. -/
def isClosing (c : BreakClass) : Bool := c ∈ [closing, closingRound]

/-- Quotation marks. -/
def isQuote (c : BreakClass) : Bool := c ∈ [plainQuote, initialQuote, finalQuote]

/-- Hyphens that can be seen, with or without another meaning. -/
def isHyphen (c : BreakClass) : Bool := c ∈ [hyphen, wordHyphen]

/-- What belongs to the character before it. -/
def isAttached (c : BreakClass) : Bool := c ∈ [combining, zeroJoiner]

/-- Ends of lines, and spaces of any width. -/
def isBlank (c : BreakClass) : Bool := c ∈ [space, lineEnd, zeroSpace]

/-- What sticks to the character before it, even across spaces. -/
def isTrailing (c : BreakClass) : Bool := c.isClosing || c ∈ [exclamation, slash]

/-- Whether a quotation mark that opens a quotation does so behind a class that stands next to it,
so that it sticks to what follows even across spaces. -/
def opensQuotation (before : BreakClass) : Bool :=
  before.isBlank || before.isOpening || before.isQuote || before == glue

/-- Whether a quotation mark that closes a quotation does so before a class, so that it sticks to
what stands before it even across spaces. -/
def closesQuotation (behind : BreakClass) : Bool :=
  behind.isBlank || behind.isTrailing || behind.isQuote || behind ∈ [separator, glue, joiner]

/-- Whether a hyphen that stands next to a class starts a word. -/
def startsWord (before : BreakClass) : Bool := before.isBlank || before ∈ [object, glue]

/-! ## Neighbours -/

/-- Whether two classes that have to do with numbers stick to each other. -/
def sticksInNumber (a b : BreakClass) : Bool :=
  b == digit && (a.isNumberMark || a ∈ [hyphen, separator])

/-- Whether two classes that have to do with syllables stick to each other. -/
def sticksInSyllable (a b : BreakClass) : Bool :=
  (a == leadJamo && b ∈ [leadJamo, vowelJamo, openSyllable, closedSyllable])
    || (a ∈ [vowelJamo, openSyllable] && b ∈ [vowelJamo, trailJamo])
    || (a ∈ [trailJamo, closedSyllable] && b == trailJamo)
    || (a.isHangul && b == behindNumber) || (a == beforeNumber && b.isHangul)
    || (a == aksaraBefore && b.isAksara) || (a.isAksara && b ∈ [virama, finalVirama])

/-- Whether two classes that have to do with words stick to each other. -/
def sticksInWord (a b : BreakClass) : Bool :=
  (a.isLetter && (b.isLetter || b == digit || b.isNumberMark || b == opening))
    || (b.isLetter && (a ∈ [digit, separator, closingRound] || a.isNumberMark))
    || (a == digit && b == opening) || (a == closingRound && b == digit)

/-- Whether two classes that stand next to each other stick to each other, whatever stands around
them. -/
def sticksToNext (a b : BreakClass) : Bool :=
  b.isHyphen || b ∈ [breakAfter, nonstarter, ellipsis] || a == breakBefore
    || (a == slash && b == hebrew)
    || (a == beforeNumber && b.isPicture) || (a.isPicture && b == behindNumber)
    || (a == emojiBase && b == emojiModifier)
    || sticksInWord a b || sticksInNumber a b || sticksInSyllable a b

end BreakClass

end SdkWiring.Text
