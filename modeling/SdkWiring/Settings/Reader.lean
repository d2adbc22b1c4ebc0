import SdkWiring.Settings.Basic
import SdkWiring.Toml.Document

/-!
# Reading settings

A settings file is a TOML document. Keys that are not known do not count, a value of the wrong kind
makes the whole file unusable.

* `Settings.parse?`: the settings that a file gives.
* `Settings.Section.field?`: a group of settings may be written as a table, or as a list of its
  values in the order of their keys.
-/

namespace SdkWiring.Settings

open Toml

/-- A group of settings: a table, or the values of its keys in order. -/
inductive Section
  | named (entries : Table)
  | listed (values : List Value)

namespace Section

/-- The group that a value writes. A group that is not given is empty, and so is one that is given
as a date. -/
def ofValue? : Option Value → Option Section
  | none => some (named [])
  | some .dateTime => some (named [])
  | some (.table _ entries) => some (named entries)
  | some (.array _ items) => some (listed items)
  | some _ => none

/-- The value of a key, which stands at a place in the list. -/
def get? (s : Section) (key : String) (place : Nat) : Option Value :=
  match s with
  | named entries => Table.get? entries key.toList
  | listed values => values[place]?

/-- What a value of a key means, or what holds if it is not given. Nothing, if the value is of the
wrong kind. -/
def field? {α : Type} (s : Section) (key : String) (place : Nat) (read : Value → Option α)
    (otherwise : α) : Option α :=
  match s.get? key place with
  | none => some otherwise
  | some v => read v

end Section

/-- The text that a value is. -/
def text? : Value → Option Text
  | .string t => some t
  | _ => none

/-- The truth value that a value is. -/
def bool? : Value → Option Bool
  | .boolean b => some b
  | _ => none

/-- What the values of a list mean. -/
def list? {α : Type} (read : Value → Option α) : Value → Option (List α)
  | .array _ items => items.mapM read
  | _ => none

/-- The service that a value names: by its text, or as the one key of a table that holds nothing. -/
def service? : Value → Option Service
  | .string t => Service.ofName? (String.ofList t)
  | .table _ [(key, .table _ [])] => Service.ofName? (String.ofList key)
  | .table _ [(key, .array _ [])] => Service.ofName? (String.ofList key)
  | _ => none

/-- The keys of the groups of settings. -/
def groups : List Text :=
  ["project".toList, "exclude".toList, "podfile".toList, "format".toList]

/-- Whether an entry of a document can be read. A number out of range cannot, also under a key that
is not known; but what a group written as a list holds behind its values is never looked at. -/
def isReadable (entry : Text × Value) : Bool :=
  match entry with
  | (key, .array _ _) => groups.contains key || entry.2.isInRange
  | (_, v) => v.isInRange

/-- The settings that a document gives. -/
def ofTable? (t : Table) : Option Settings := do
  guard (t.all isReadable)
  let top := Section.named t
  let secret ← top.field? "app_secret" 0 (fun v => (text? v).map some) none
  let services ← top.field? "modules" 1 (list? service?) []
  let project ← Section.ofValue? (Table.get? t "project".toList)
  let exclude ← Section.ofValue? (Table.get? t "exclude".toList)
  let podfile ← Section.ofValue? (Table.get? t "podfile".toList)
  let format ← Section.ofValue? (Table.get? t "format".toList)
  let disableGitignore ← top.field? "disable_gitignore" 6 bool? false
  let base : Settings := {}
  let delegateNames ← project.field? "app_delegate" 0 (list? text?) base.delegateNames
  let typeName ← project.field? "type_name" 1 text? base.typeName
  let methodName ← project.field? "method_name" 2 text? base.methodName
  let excluded ← exclude.field? "patterns" 0 (list? text?) []
  let platform ← podfile.field? "platform" 0 text? base.platform
  let swiftIndent ← format.field? "swift_indent" 0 (fun v => (text? v).map some) none
  let objectiveCIndent ← format.field? "objc_indent" 1 (fun v => (text? v).map some) none
  some {
    secret, services, delegateNames, typeName, methodName, excluded, platform, swiftIndent,
    objectiveCIndent, disableGitignore }

/-- The settings that a file gives, unless it is malformed. -/
def parse? (content : Text) : Option Settings := (read? content).bind ofTable?

end SdkWiring.Settings
