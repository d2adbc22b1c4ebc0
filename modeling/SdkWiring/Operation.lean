import SdkWiring.Problem
import SdkWiring.Sdk.Integration
import SdkWiring.Settings.Basic
import SdkWiring.Text.CharClass

/-!
# Operations

A run either integrates the SDK into a project or takes it out again. What the command line leaves
open is taken from the settings.

* `Operation.integration`: the operation for a secret and services. A secret that could leave the
  literal it is written into is refused.
-/

namespace SdkWiring

/-- What a run does to a project. -/
inductive Operation
  /-- Adds the pods, imports and start call of an integration. -/
  | integrate (i : Integration)
  /-- Takes every trace of the SDK out. -/
  | remove
  deriving DecidableEq, Repr

namespace Operation

/-- Whether a secret holds nothing but white space. -/
def isEmptySecret (secret : Text) : Bool := secret.all Text.isSpace

/-- Whether a character cannot be written into a literal as it is, or would end a start call. -/
def isUnsafe (c : Char) : Bool :=
  c == '"' || c == '\\' || c == ';' || Text.isControl c

/-- The operation that integrates services, with a secret and services from the settings where none
are given. -/
def integration (secret : Option Text) (services : List Service) (settings : Settings) :
    Except Problem Operation :=
  match secret.or settings.secret with
  | none => .error .missingSecret
  | some secret =>
    if isEmptySecret secret then .error .missingSecret
    else if secret.any isUnsafe then .error (.unsafeSecret (String.ofList secret))
    else
      .ok (.integrate (.ofServices secret (if services = [] then settings.services else services)))

end Operation

end SdkWiring
