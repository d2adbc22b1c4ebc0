import SdkWiring.Problem

/-!
# Journals

What a run reports about its progress: events with a level, the part of the tool that they come
from, a message, and fields. A traced computation gives its events also when it fails.

* `Traced.bind`: the events of two computations follow each other, and a failure ends both.
* `Event.line`: an event as a line of a log.
-/

namespace SdkWiring

/-- How important an event is. -/
inductive Level
  | error
  | warn
  | info
  | debug
  | trace
  deriving DecidableEq, Repr

namespace Level

/-- The rank of a level, the most important one first. -/
def rank : Level → Nat
  | error => 1
  | warn => 2
  | info => 3
  | debug => 4
  | trace => 5

/-- The name of a level in a log. -/
def name : Level → String
  | error => "ERROR"
  | warn => "WARN"
  | info => "INFO"
  | debug => "DEBUG"
  | trace => "TRACE"

end Level

/-- The part of the tool that an event comes from. -/
inductive Area
  | settings
  | search
  | delegate
  | podfile
  | plan
  /-- Sets of globs. -/
  | globs
  /-- Files with ignore rules. -/
  | ignoreFiles
  deriving DecidableEq, Repr

/-- The name by which a log filter selects the events of a part. -/
def Area.target : Area → String
  | settings => "mcinject_core::config"
  | search => "mcinject_core::discovery"
  | delegate => "mcinject_core::injection"
  | podfile => "mcinject_core::podfile"
  | plan => "mcinject_core::pipeline"
  | globs => "globset"
  | ignoreFiles => "ignore::gitignore"

/-- The names of the fields that every event of a part has besides its own. -/
def Area.commonFields : Area → List String
  | globs | ignoreFiles => ["message", "log.target", "log.module_path", "log.file", "log.line"]
  | _ => ["message"]

/-- Something that a run reports. The values of its fields are kept as they are written. -/
structure Event where
  level : Level
  area : Area
  message : String
  fields : List (String × String) := []
  deriving DecidableEq, Repr

namespace Event

/-- Whether an event has a field of a name. -/
def hasField (e : Event) (name : String) : Bool :=
  e.area.commonFields.contains name || e.fields.any (·.1 == name)

/-- An event as a line of a log. -/
def line (e : Event) : String :=
  " ".intercalate (e.level.name :: e.message :: e.fields.map fun field => field.1 ++ "=" ++ field.2)

end Event

/-- A computation together with the events that it reports, which may fail. -/
structure Traced (α : Type) where
  events : List Event
  result : Except Problem α

namespace Traced

variable {α β : Type}

/-- Reports nothing. -/
def ofExcept (result : Except Problem α) : Traced α := ⟨[], result⟩

/-- Fails. -/
def fail (p : Problem) : Traced α := ⟨[], .error p⟩

/-- Reports events. -/
def tell (events : List Event) : Traced Unit := ⟨events, .ok ()⟩

/-- One computation after the other. -/
protected def bind (x : Traced α) (f : α → Traced β) : Traced β :=
  match x.result with
  | .error p => ⟨x.events, .error p⟩
  | .ok a => ⟨x.events ++ (f a).events, (f a).result⟩

instance : Monad Traced where
  pure a := ⟨[], .ok a⟩
  bind := Traced.bind

/-- The result of two computations does not depend on the events. -/
@[simp] theorem result_bind (x : Traced α) (f : α → Traced β) :
    (x >>= f).result = x.result.bind fun a => (f a).result := by
  change (Traced.bind x f).result = _
  unfold Traced.bind
  cases x.result <;> rfl

@[simp] theorem result_pure (a : α) : (pure a : Traced α).result = .ok a := rfl

@[simp] theorem result_tell (events : List Event) : (tell events).result = .ok () := rfl

@[simp] theorem result_ofExcept (x : Except Problem α) : (ofExcept x).result = x := rfl

@[simp] theorem result_fail (p : Problem) : (fail p : Traced α).result = .error p := rfl

end Traced

end SdkWiring
