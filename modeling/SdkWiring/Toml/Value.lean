import SdkWiring.Text.Basic

/-!
# TOML values and tables

The values that a TOML document can hold, and the rules by which keys and headers build its tables.
Numbers and dates are only told apart from other values, as no setting is one.

* `Table.assign`: a value under a dotted key. A key is given only once, and a dotted key extends
  no table that has a header of its own or is written in braces.
* `Value.isInRange`: numbers that no setting could hold are told apart, as they spoil a document
  only where they are read.
* `Table.define`: a header. It defines a table once, or adds one to an array of tables.
* `Table.assignUnder`: a value in the table that a header has defined.
-/

namespace SdkWiring.Toml

/-- How a table came to be, which decides what may still be added to it. -/
inductive Origin
  /-- By a header of its own. -/
  | header
  /-- As a parent in a header. -/
  | parent
  /-- As a parent in a dotted key. -/
  | dotted
  /-- Written in braces. -/
  | inline
  deriving DecidableEq, Repr

/-- A value of a TOML document. -/
inductive Value
  | string (text : Text)
  /-- A number, which can be used only if it is `inRange`. -/
  | number (inRange : Bool)
  | boolean (value : Bool)
  | dateTime
  /-- A list of values, written in brackets or, `ofTables`, by headers. -/
  | array (ofTables : Bool) (items : List Value)
  | table (origin : Origin) (entries : List (Text × Value))
  deriving Repr

mutual

/-- Whether all numbers of a value are in range. -/
def Value.isInRange : Value → Bool
  | .number inRange => inRange
  | .array _ items => areInRange items
  | .table _ entries => entriesInRange entries
  | _ => true

/-- Whether all numbers of a list of values are in range. -/
def areInRange : List Value → Bool
  | [] => true
  | v :: rest => v.isInRange && areInRange rest

/-- Whether all numbers of the entries of a table are in range. -/
def entriesInRange : List (Text × Value) → Bool
  | [] => true
  | (_, v) :: rest => v.isInRange && entriesInRange rest

end

/-- The entries of a table, in the order in which they were given. -/
abbrev Table := List (Text × Value)

namespace Table

/-- The value of a key. -/
def get? (t : Table) (key : Text) : Option Value :=
  (t.find? fun entry => entry.1 == key).map (·.2)

/-- The table with a key set, where it was or else at the end. -/
def set (t : Table) (key : Text) (v : Value) : Table :=
  match t with
  | [] => [(key, v)]
  | entry :: rest => if entry.1 = key then (key, v) :: rest else entry :: set rest key v

/-- The table that `f` makes of the last table of an array. -/
def changeLast (f : Table → Option Table) (items : List Value) : Option (List Value) :=
  match items.getLast? with
  | some (.table origin entries) => do
    let changed ← f entries
    some (items.dropLast ++ [.table origin changed])
  | _ => none

/-- A value under a dotted key. `may` says whether keys can be added to this table. The table that
receives the key counts as made by a dotted key from then on. -/
def assign (may : Bool) (t : Table) (path : List Text) (key : Text) (v : Value) : Option Table :=
  match path with
  | [] => if may && (get? t key).isNone then some (set t key v) else none
  | first :: rest =>
    match get? t first with
    | none => do
      let inner ← assign true [] rest key v
      some (set t first (.table .dotted inner))
    | some (.table origin entries) =>
      if origin = .header ∨ origin = .inline then none
      else do
        let inner ← assign true entries rest key v
        some (set t first (.table (if rest.isEmpty then .dotted else origin) inner))
    | some (.array true items) => do
      let items ← changeLast (fun entries => assign false entries rest key v) items
      some (set t first (.array true items))
    | some _ => none

/-- The table that `f` makes of the table under a path of a header. -/
def change (f : Table → Option Table) (t : Table) (path : List Text) : Option Table :=
  match path with
  | [] => f t
  | first :: rest =>
    match get? t first with
    | none => do
      let inner ← change f [] rest
      some (set t first (.table .parent inner))
    | some (.table origin entries) =>
      if origin = .inline then none
      else do
        let inner ← change f entries rest
        some (set t first (.table origin inner))
    | some (.array true items) => do
      let items ← changeLast (fun entries => change f entries rest) items
      some (set t first (.array true items))
    | some _ => none

/-- A table defined by the last key of a header. -/
def defineKey (key : Text) (t : Table) : Option Table :=
  match get? t key with
  | none => some (set t key (.table .header []))
  | some (.table .parent entries) => some (set t key (.table .header entries))
  | some _ => none

/-- A table added to an array of tables by the last key of a header. -/
def defineItem (key : Text) (t : Table) : Option Table :=
  match get? t key with
  | none => some (set t key (.array true [.table .header []]))
  | some (.array true items) => some (set t key (.array true (items ++ [.table .header []])))
  | some _ => none

/-- A document after a header, in double brackets if `item`. -/
def define (item : Bool) (t : Table) (path : List Text) (key : Text) : Option Table :=
  change (if item then defineItem key else defineKey key) t path

/-- A document after a value was given in the table that the last header defined. -/
def assignUnder (t : Table) (header path : List Text) (key : Text) (v : Value) : Option Table :=
  change (fun entries => assign true entries path key v) t header

end Table

end SdkWiring.Toml
