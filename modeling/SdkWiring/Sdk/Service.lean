import SdkWiring.Text.Basic

/-!
# Services of the SDK

The SDK has one core framework and three optional services. A service comes as a pod, as a
framework to import, and as a class that is passed to the start call.
-/

namespace SdkWiring

/-- An optional service of the SDK. -/
inductive Service
  | analytics
  | crashes
  | distribute
  deriving DecidableEq, Repr

namespace Service

/-- The framework that every integration imports, and the pod that holds the services. -/
def core : Text := "MobileCenter".toList

/-- All services, in the order in which they are written. -/
def all : List Service := [analytics, crashes, distribute]

/-- The name of a service as settings and answers write it. -/
def name : Service → String
  | analytics => "analytics"
  | crashes => "crashes"
  | distribute => "distribute"

/-- The service with a name. -/
def ofName? (name : String) : Option Service :=
  all.find? fun s => s.name == name

/-- What tells the names of a service's pod, framework and class from those of the others. -/
def suffix : Service → Text
  | analytics => "Analytics".toList
  | crashes => "Crashes".toList
  | distribute => "Distribute".toList

/-- The framework to import, such as `MobileCenterAnalytics`. -/
def framework (s : Service) : Text := core ++ s.suffix

/-- The pod, such as `MobileCenter/MobileCenterAnalytics`. -/
def pod (s : Service) : Text := core ++ "/".toList ++ s.framework

/-- The class passed to the start call, such as `MSAnalytics`. -/
def startClass (s : Service) : Text := "MS".toList ++ s.suffix

/-- Every framework that an integration can import, the core first. -/
def allFrameworks : List Text := core :: all.map framework

/-- Every pod that an integration can add. -/
def allPods : List Text := all.map pod

theorem mem_all (s : Service) : s ∈ all := by cases s <;> decide

theorem nodup_all : all.Nodup := by decide

theorem ofName?_name (s : Service) : ofName? s.name = some s := by cases s <;> decide

end Service

end SdkWiring
