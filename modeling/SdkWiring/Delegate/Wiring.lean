import SdkWiring.Delegate.ObjectiveC
import SdkWiring.Delegate.Swift
import SdkWiring.Problem
import SdkWiring.Text.LineBreak
import SdkWiring.Text.Splice

/-!
# Wiring a delegate

One scan of a delegate gives its landmarks, and these give the edits.

* `Recipe.analyze`: the landmarks of a delegate.
* `Recipe.install`: the delegate with all imports and with one start call, at the top of the
  method. Start calls that were there are replaced.
* `Recipe.uninstall`: the delegate without any start call or import of the SDK. It is no problem
  if there is none.
-/

namespace SdkWiring

/-- A delegate after an edit, and what was done to it. -/
structure Outcome where
  content : Text
  importsAdded : List Text
  importsRemoved : List Text
  callsRemoved : Nat
  callInserted : Bool
  deriving DecidableEq, Repr

namespace Recipe

/-- The rules that read a delegate in the language of the recipe. -/
def rules (r : Recipe) : List (Rule Survey) :=
  match r.language with
  | .swift => Swift.rules r
  | .objectiveC => ObjectiveC.rules r

/-- The landmarks of a delegate. -/
def analyze (r : Recipe) (content : Text) : Landmarks :=
  (observeAll r.rules {} (positions r.language.quoting content)).landmarks

end Recipe

namespace Landmarks

/-- The offset of the first character behind the imports. -/
def importOffset (l : Landmarks) : Nat := l.endOfImports.getD 0

/-- The text up to the end of the imports. -/
def importBlock (l : Landmarks) (content : Text) : Text :=
  ((content.splitAt? l.importOffset).getD ([], content)).1

/-- The edits that take all start calls away. -/
def callEdits (l : Landmarks) : List Edit :=
  l.startCalls.map fun call => Edit.delete call.start call.stop

end Landmarks

namespace Recipe

/-- The frameworks that are not yet imported. -/
def missingFrameworks (r : Recipe) (importBlock : Text) : List Text :=
  r.frameworks.filter fun f => !(r.language.importOf f).occursIn importBlock

/-- The lines that import the given frameworks. -/
def importLines (r : Recipe) (eol : LineBreak) (frameworks : List Text) : Text :=
  frameworks.flatMap fun f => r.language.importStatement f ++ eol.text

/-- The start call on a line of its own, from the line break before it on. -/
def callLine (r : Recipe) (eol : LineBreak) : Text := eol.text ++ r.indent ++ r.call

/-- The edits that install the SDK, given the body of the method. -/
def installEdits (r : Recipe) (content : Text) (l : Landmarks) (body : Nat) : List Edit :=
  let eol := LineBreak.detect content
  let missing := r.missingFrameworks (l.importBlock content)
  l.callEdits ++ [Edit.insert body (r.callLine eol)]
    ++ if missing = [] then [] else [Edit.insert l.importOffset (r.importLines eol missing)]

/-- The delegate with all imports and one start call at the top of the method. -/
def install (r : Recipe) (content : Text) : Except Problem Outcome :=
  let l := r.analyze content
  if l.typeFound then
    match l.methodBody with
    | none => .error (.methodNotFound (String.ofList r.methodName) r.sourceName)
    | some body =>
      match splice content (r.installEdits content l body) with
      | none => .error .misalignedEdit
      | some wired =>
        .ok ⟨wired, r.missingFrameworks (l.importBlock content), [], l.startCalls.length, true⟩
  else .error (.typeNotFound (String.ofList r.typeName) r.sourceName)

/-- The edits that take the import lines of one framework away. -/
def importEdits (r : Recipe) (importBlock : Text) (framework : Text) : List Edit :=
  ((r.language.importOf framework).findAll (.start importBlock)).map fun line =>
    Edit.delete line.1.offset line.2.offset

/-- The edits that take the SDK out. -/
def uninstallEdits (r : Recipe) (content : Text) (l : Landmarks) : List Edit :=
  l.callEdits ++ r.frameworks.flatMap (r.importEdits (l.importBlock content))

/-- The delegate without any start call or import of the SDK. -/
def uninstall (r : Recipe) (content : Text) : Except Problem Outcome :=
  let l := r.analyze content
  match splice content (r.uninstallEdits content l) with
  | none => .error .misalignedEdit
  | some bare =>
    let removed := r.frameworks.filter fun f => r.importEdits (l.importBlock content) f != []
    .ok ⟨bare, [], removed, l.startCalls.length, false⟩

end Recipe

end SdkWiring
