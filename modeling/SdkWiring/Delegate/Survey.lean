import SdkWiring.Delegate.Header
import SdkWiring.Scan.Rule

/-!
# Surveys of a delegate

A survey is what is known about a delegate while it is scanned: the header that is being read,
whether the scan is inside the delegate type and inside one of the methods looked for, and the
places found so far. The landmarks are what remains of it at the end.

* `Survey.enterMethod`: an overload that mentions the preferred label wins over an earlier one that
  does not; otherwise the first method wins.
* `Survey.landmarks`: the result of a survey.
-/

namespace SdkWiring

/-- A range of byte offsets. -/
structure Span where
  start : Nat
  stop : Nat
  deriving DecidableEq, Repr

/-- The places in a delegate that edits refer to, as byte offsets. -/
structure Landmarks where
  /-- Behind the last import line. -/
  endOfImports : Option Nat
  /-- Whether the delegate type was found. -/
  typeFound : Bool
  /-- Behind the opening brace of the method that receives the start call. -/
  methodBody : Option Nat
  /-- The start calls, each with its indentation and the line break before it. -/
  startCalls : List Span
  deriving DecidableEq, Repr

/-- What is known about a delegate while it is scanned. -/
structure Survey where
  header : Header := {}
  inType : Bool := false
  typeSeen : Bool := false
  inMethod : Bool := false
  firstBody : Option Nat := none
  preferredBody : Option Nat := none
  endOfImports : Option Nat := none
  startCalls : List Span := []
  deriving DecidableEq, Repr

namespace Survey

/-- The label by which an overload of the method is preferred. -/
def preferredLabel : Text := "didFinishLaunchingWithOptions".toList

/-- The survey behind the opening brace of a method that was looked for. -/
def enterMethod (s : Survey) (body : Nat) : Survey :=
  { s with
    inMethod := true
    firstBody := s.firstBody.or (some body)
    preferredBody :=
      s.preferredBody.or
        (if s.header.text.contains preferredLabel then some body else none) }

/-- The survey after a start call was found. -/
def addCall (s : Survey) (call : Span) : Survey :=
  { s with startCalls := s.startCalls ++ [call] }

/-- The result of a survey. -/
def landmarks (s : Survey) : Landmarks :=
  ⟨s.endOfImports, s.typeSeen, s.preferredBody.or s.firstBody, s.startCalls⟩

/-- The place from which a statement is cut out: before its indentation and the line break before
that. The text before the statement is given with the nearest character first. -/
def beforeIndent (before : Text) : Text :=
  match before.dropWhile Text.isBlank with
  | '\n' :: '\r' :: rest => rest
  | '\n' :: rest => rest
  | rest => rest

/-- A call that a pattern matches at a position, with its indentation and the line break before. -/
def callAt? (shape : Pattern) (p : Position) : Option Span :=
  (shape.end? p.cursor).map fun stop => ⟨(beforeIndent p.before).size, stop.offset⟩

/-- The header is followed at every position. -/
def followHeader : Rule Survey where
  applies _ _ := true
  act s p := { s with header := s.header.next p }

/-- The imports end behind the last import line at the top that comes before the type. -/
def markImports (anyImport : Pattern) : Rule Survey where
  applies s p :=
    p.significant && p.level == 0 && !s.typeSeen && p.atLineStart
      && anyImport.matchesAt (.start p.previousLine)
  act s p := { s with endOfImports := some p.offset }

/-- A method that was looked for is entered at a brace of the given level. -/
def openMethod (level : Nat) (methodHeader : Pattern) : Rule Survey where
  applies s p := s.inType && p.level == level && p.live '{'
  act s p :=
    if methodHeader.occursIn s.header.text then s.enterMethod (p.offset + 1) else s

/-- A method is left at the closing brace of the given level. -/
def closeMethod (level : Nat) : Rule Survey where
  applies s p := p.level == level && s.inMethod && p.live '}'
  act s _ := { s with inMethod := false }

end Survey

end SdkWiring
