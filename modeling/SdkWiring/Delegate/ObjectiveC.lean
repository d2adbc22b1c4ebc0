import SdkWiring.Delegate.ImportLine
import SdkWiring.Delegate.Recipe
import SdkWiring.Delegate.Survey

/-!
# Reading Objective-C delegates

In Objective-C the delegate type is an implementation section between two markers at the top level,
and its methods open their braces there. A start call is a message to the receiver that ends at the
next semicolon.
-/

namespace SdkWiring.ObjectiveC

open Pattern

/-- The marker that opens an implementation section, of any type. -/
def implementationMarker : Text := "@implementation".toList

/-- The marker that closes a section. -/
def endMarker : Text := "@end".toList

/-- The marker that opens the implementation section of the delegate type. -/
def typeMarker (r : Recipe) : Pattern :=
  literal implementationMarker ++ many1 Text.isSpace ++ literal r.typeName ++ border

/-- The header of the method that receives the start call. -/
def methodHeader (r : Recipe) : Pattern :=
  literal "-".toList ++ many Text.isSpace ++ literal "(".toList ++ many (· != ')')
    ++ literal ")".toList ++ many Text.isSpace ++ literal r.methodName ++ border

/-- The shape of a start call. -/
def callShape (r : Recipe) : Pattern :=
  literal "[".toList ++ many Text.isSpace ++ literal r.receiver ++ many1 Text.isSpace
    ++ literal r.selector ++ border ++ many (· != ';') ++ literal ";".toList

/-- The section is entered at its marker. -/
def openType (r : Recipe) : Rule Survey where
  applies _ p :=
    p.significant && p.level == 0 && implementationMarker.isPrefixOf p.forepart
  act s p :=
    if (typeMarker r).matchesAt p.cursor then { s with inType := true, typeSeen := true } else s

/-- The section is left at the next end marker. -/
def closeType : Rule Survey where
  applies s p := p.significant && p.level == 0 && s.inType && endMarker.isPrefixOf p.forepart
  act s _ := { s with inType := false }

/-- A start call is recorded at a bracket inside the method. -/
def recordCall (r : Recipe) : Rule Survey where
  applies s p := s.inMethod && p.live '['
  act s p :=
    match Survey.callAt? (callShape r) p with
    | none => s
    | some call => s.addCall call

/-- The rules for Objective-C delegates, in the order in which they are asked. -/
def rules (r : Recipe) : List (Rule Survey) :=
  [Survey.markImports Language.objectiveC.anyImport, openType r, closeType,
    Survey.openMethod 0 (methodHeader r), Survey.closeMethod 0, recordCall r, Survey.followHeader]

end SdkWiring.ObjectiveC
