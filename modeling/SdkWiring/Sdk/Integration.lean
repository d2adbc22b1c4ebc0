import SdkWiring.Sdk.Service

/-!
# Integrations

An integration is what a project shall be wired to: an app secret and a set of services. It
renders as pods, as frameworks to import and, in either language, as a start call. The secret is
written as it is.

* `Integration.ofServices`: services are kept once each and in one order, whatever order and
  repetitions they are given in.
-/

namespace SdkWiring

/-- An app secret and the services to start with it. -/
structure Integration where
  secret : Text
  services : List Service
  deriving DecidableEq, Repr

namespace Integration

/-- The integration of the services in a list, each once and in the order of `Service.all`. -/
def ofServices (secret : Text) (services : List Service) : Integration :=
  ⟨secret, Service.all.filter (· ∈ services)⟩

/-- The pods of the services. -/
def pods (i : Integration) : List Text := i.services.map Service.pod

/-- The frameworks to import, the core first. -/
def frameworks (i : Integration) : List Text :=
  Service.core :: i.services.map Service.framework

/-- The class that receives the start call. -/
def receiver : Text := "MSMobileCenter".toList

/-- The selector of the start call. -/
def selector : Text := "start".toList

/-- The parts of a text joined by a comma and a space. -/
def commaSeparated (parts : List Text) : Text := ", ".toList.intercalate parts

/-- The start call in Swift. -/
def swiftCall (i : Integration) : Text :=
  receiver ++ ".".toList ++ selector ++ "(\"".toList ++ i.secret ++ "\", withServices: [".toList
    ++ commaSeparated (i.services.map fun s => s.startClass ++ ".self".toList) ++ "])".toList

/-- The start call in Objective-C. -/
def objectiveCCall (i : Integration) : Text :=
  "[".toList ++ receiver ++ " ".toList ++ selector ++ ":@\"".toList ++ i.secret
    ++ "\" withServices:@[".toList
    ++ commaSeparated (i.services.map fun s => "[".toList ++ s.startClass ++ " class]".toList)
    ++ "]];".toList

/-- Only the set of services matters. -/
theorem ofServices_congr (secret : Text) {a b : List Service} (h : ∀ s, s ∈ a ↔ s ∈ b) :
    ofServices secret a = ofServices secret b := by
  simp [ofServices, h]

theorem mem_ofServices {secret : Text} {services : List Service} {s : Service} :
    s ∈ (ofServices secret services).services ↔ s ∈ services := by
  simp [ofServices, Service.mem_all]

end Integration

end SdkWiring
