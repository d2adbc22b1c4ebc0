import SdkWiring.Delegate.ImportLine
import SdkWiring.Delegate.Recipe
import SdkWiring.Delegate.Survey

/-!
# Reading Swift delegates

In Swift the delegate type is a class or an extension at the top level, and its methods are
functions in its braces. A start call is a member call on the receiver that ends at the last closing
parenthesis of its line.
-/

namespace SdkWiring.Swift

open Pattern

/-- The header of the delegate type. -/
def typeHeader (r : Recipe) : Pattern :=
  border ++ anyOf ["class".toList, "extension".toList] ++ many1 Text.isSpace
    ++ literal r.typeName ++ border

/-- The header of the method that receives the start call. -/
def methodHeader (r : Recipe) : Pattern :=
  border ++ literal "func".toList ++ many1 Text.isSpace ++ literal r.methodName
    ++ many Text.isSpace ++ literal "(".toList

/-- The shape of a start call. -/
def callShape (r : Recipe) : Pattern :=
  literal r.receiver ++ many Text.isSpace ++ literal ".".toList ++ many Text.isSpace
    ++ literal r.selector ++ many Text.isSpace ++ literal "(".toList ++ restOfLine
    ++ literal ")".toList

/-- Whether what stands before a position makes it the middle of a longer expression. -/
def continuesExpression (p : Position) : Bool :=
  p.before.head?.any fun c => Text.isAlphanumeric c || c == '_' || c == '.'

/-- The delegate type is entered at an outermost brace. -/
def openType (r : Recipe) : Rule Survey where
  applies _ p := p.level == 0 && p.live '{'
  act s _ :=
    if (typeHeader r).occursIn s.header.text then { s with inType := true, typeSeen := true }
    else s

/-- The delegate type is left at its closing brace. -/
def closeType : Rule Survey where
  applies s p := p.level == 0 && s.inType && p.live '}'
  act s _ := { s with inType := false }

/-- A start call is recorded where the receiver starts an expression inside the method. -/
def recordCall (r : Recipe) : Rule Survey where
  applies s p :=
    p.significant && s.inMethod && r.receiver.isPrefixOf p.forepart && !continuesExpression p
  act s p :=
    match Survey.callAt? (callShape r) p with
    | none => s
    | some call => s.addCall call

/-- The rules for Swift delegates, in the order in which they are asked. -/
def rules (r : Recipe) : List (Rule Survey) :=
  [Survey.markImports Language.swift.anyImport, openType r, closeType,
    Survey.openMethod 1 (methodHeader r), Survey.closeMethod 1, recordCall r, Survey.followHeader]

end SdkWiring.Swift
