import SdkWiring.Scan.Position

/-!
# Declaration headers

The header of a brace is the live text since the last live brace or semicolon. Comments and literals
count as one space, so that what they say never reaches a pattern for headers.
-/

namespace SdkWiring

namespace Position

/-- Whether a comment starts here, if the character is live. -/
def opensComment (p : Position) : Bool :=
  p.char == '/' && (p.after.head? == some '/' || p.after.head? == some '*')

/-- Whether the character is live and neither opens a comment nor is a quote. -/
def isPlain (p : Position) : Bool :=
  p.significant && p.char != '"' && p.char != '\'' && !p.opensComment

/-- Whether the character is a live brace or semicolon, which ends a header. -/
def endsHeader (p : Position) : Bool :=
  p.significant && (p.char == '{' || p.char == '}' || p.char == ';')

end Position

/-- A header while it is read, the last character first. -/
structure Header where
  reversed : Text := []
  deriving DecidableEq, Repr

namespace Header

/-- The header in reading order. -/
def text (h : Header) : Text := h.reversed.reverse

/-- The header behind a character that does not end it. -/
def record (h : Header) (p : Position) : Header :=
  if p.isPlain then ⟨p.char :: h.reversed⟩
  else if h.reversed.head? = some ' ' then h
  else ⟨' ' :: h.reversed⟩

/-- The header behind a character. -/
def next (h : Header) (p : Position) : Header :=
  if p.endsHeader then {} else h.record p

end Header

end SdkWiring
