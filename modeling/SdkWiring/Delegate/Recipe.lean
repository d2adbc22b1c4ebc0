import SdkWiring.Delegate.Language
import SdkWiring.Sdk.Integration

/-!
# Recipes

A recipe says what to look for in a delegate and what to write into it.

* `Recipe.forIntegration`: writes the start call and the imports of an integration.
* `Recipe.forRemoval`: knows every import that the SDK can contribute, and writes nothing.
-/

namespace SdkWiring

/-- What to look for in a delegate and what to write into it. -/
structure Recipe where
  language : Language
  /-- The delegate type. -/
  typeName : Text := "AppDelegate".toList
  /-- The method that receives the start call. -/
  methodName : Text := "application".toList
  /-- What a start call is recognised by: the class that it is sent to, and the selector. -/
  receiver : Text := Integration.receiver
  selector : Text := Integration.selector
  /-- The start call to write. -/
  call : Text
  /-- The frameworks to import, or to take out. -/
  frameworks : List Text := []
  /-- The indentation of the start call. -/
  indent : Text := language.defaultIndent
  /-- The delegate as messages name it. -/
  sourceName : String := "the source file"
  deriving DecidableEq, Repr

namespace Recipe

/-- The recipe that writes the start call and the imports of an integration. -/
def forIntegration (language : Language) (i : Integration) : Recipe where
  language := language
  call :=
    match language with
    | .swift => i.swiftCall
    | .objectiveC => i.objectiveCCall
  frameworks := i.frameworks

/-- The recipe that only recognises the SDK, to take it out. -/
def forRemoval (language : Language) : Recipe where
  language := language
  call := []
  frameworks := Service.allFrameworks

end Recipe

end SdkWiring
