import SdkWiring.CommandLine.ValuePattern
import SdkWiring.Journal
import SdkWiring.Text.CharClass
import SdkWiring.Text.Number

/-!
# Log filters

A filter says down to which level events are shown. It is a list of directives, each for the parts
of the tool whose name starts with a target, or for the events with a certain field, or for both.
The most specific one that concerns an event decides.

* `LogFilter.parse?`: the filter that a text writes.
* `Directive.parse?`: the directive that a text between commas writes.
* `LogFilter.decisive?`: the directive that decides about an event.
* `LogFilter.shows`: whether an event is shown.
-/

namespace SdkWiring

/-- Events are shown up to a rank: those of the parts whose names start with `target`, if there is
one, that have a field named `field`, if there is one. -/
structure Directive where
  target : Option Text := none
  field : Option Text := none
  rank : Nat
  deriving DecidableEq, Repr

namespace Directive

/-- The rank that everything is shown with. -/
def everything : Nat := 5

/-- The rank that a word or number names. -/
def rank? (t : Text) : Option Nat :=
  match Text.number? t with
  | some n => if n ≤ everything then some n else none
  | none =>
    match (String.ofList t).toLower with
    | "off" => some 0
    | "error" => some 1
    | "warn" => some 2
    | "info" => some 3
    | "debug" => some 4
    | "trace" => some 5
    | _ => none

/-- The rank that stands behind an equals sign. Without a word there, everything is shown. -/
def rankBehind? (t : Text) : Option Nat := if t.isEmpty then some everything else rank? t

/-- A text without the white space at its ends. -/
def trimmed (t : Text) : Text :=
  ((t.dropWhile Text.isSpace).reverse.dropWhile Text.isSpace).reverse

/-- Whether a target may start with a character. -/
def startsTarget (c : Char) : Bool := c ∈ ['-', ':', '_'] || Text.isAlphanumeric c

/-- A condition in brackets. Its parts are given by the text from their start on. -/
structure Condition where
  /-- Whether it names the stretch of work that an event belongs to. -/
  named : Bool
  /-- The text from the name of a field on, and from behind it on. -/
  field : Option (Text × Text)
  /-- The text behind the closing bracket. -/
  rest : Text

/-- The condition behind an opening bracket. -/
def condition? (t : Text) : Option Condition :=
  let isEnd (c : Char) : Bool := c == ']' || c == '\x7b'
  match t.dropWhile (!isEnd ·) with
  | ']' :: rest => some ⟨true, none, rest⟩
  | _ :: field =>
    match field.takeWhile (· != '\x7d'), field.dropWhile (· != '\x7d') with
    | _ :: _, '\x7d' :: ']' :: rest =>
      some ⟨!(t.takeWhile (!isEnd ·)).isEmpty, some (field, '\x7d' :: ']' :: rest), rest⟩
    | _, _ => none
  | [] => none

/-- The directive that a text writes, or nothing if it concerns no event: conditions about the
stretch of work and about the values of fields are never met.

White space at the ends does not count when a directive is taken apart; its parts are then read off
at the same places of the whole text. -/
def parse? (whole : Text) : Option (Option Directive) :=
  let t := trimmed whole
  let place (rest : Text) : Nat := t.size - rest.size
  let rankFrom? (level : Text) : Option Nat :=
    (whole.splitAt? (place level)).bind fun parts => rankBehind? parts.2
  let isEnd (c : Char) : Bool := c == '=' || c == '['
  let name := t.takeWhile (!isEnd ·)
  if !(t.head?.any fun c => c == '[' || startsTarget c) then none
  else
    match t.dropWhile (!isEnd ·) with
    | [] =>
      match rank? whole with
      | some rank => some (some { rank })
      | none => some (some { target := some whole, rank := everything })
    | '[' :: rest => do
      let c ← condition? rest
      let rank ←
        match c.rest with
        | [] => some everything
        | '=' :: level => rankFrom? level
        | _ => none
      let target ← whole.slice? 0 (Text.size name)
      let field ←
        match c.field with
        | none => some []
        | some (start, stop) => whole.slice? (place start) (place stop)
      match Text.cut '=' field with
      | _ :: value :: _ => if ValuePattern.isValid value then some none else none
      | _ =>
        if c.named then some none
        else some (some ⟨if name.isEmpty then none else some target, some field, rank⟩)
    | _ :: level => do
      let rank ← rankFrom? level
      let target ← whole.slice? 0 (Text.size name)
      some (some { target := some target, rank })

/-- Whether a directive concerns an event. -/
def concerns (d : Directive) (e : Event) : Bool :=
  d.target.all (·.isPrefixOf e.area.target.toList)
    && d.field.all fun name => e.hasField (String.ofList name)

/-- Whether a directive gives way to one behind it: that has to be at least as specific. The longer
target is more specific, then the one with a field, then the one with the greater field. -/
def yieldsTo (d other : Directive) : Bool :=
  let length (d : Directive) : Nat := (d.target.map fun t => t.size + 1).getD 0
  if length d ≠ length other then length d < length other
  else
    match d.field, other.field with
    | none, _ => true
    | some _, none => false
    | some a, some b => !(String.ofList b < String.ofList a)

end Directive

/-- Which events are shown. -/
structure LogFilter where
  directives : List Directive
  deriving DecidableEq, Repr

namespace LogFilter

/-- The filter that a text writes, unless it is malformed. Without a directive only errors are
shown. -/
def parse? (s : String) : Option LogFilter := do
  let parts := (Text.cut ',' s.toList).filter (!·.isEmpty)
  if parts.isEmpty then some ⟨[{ rank := 1 }]⟩
  else do
    let directives ← parts.mapM Directive.parse?
    some ⟨directives.filterMap id⟩

/-- The directive that decides about an event: the most specific one that concerns it, of equals the
last one. -/
def decisive? (f : LogFilter) (e : Event) : Option Directive :=
  (f.directives.filter (·.concerns e)).foldl
    (fun best d => if best.all (·.yieldsTo d) then some d else best) none

/-- Whether an event is shown. -/
def shows (f : LogFilter) (e : Event) : Bool :=
  (f.decisive? e).any (e.level.rank ≤ ·.rank)

/-- The filter of a verbose run: all events of the tool down to details. -/
def verbose : LogFilter := ⟨[{ target := some "mcinject_core".toList, rank := 4 }]⟩

/-- The filter where nothing else is said: warnings and errors. -/
def quiet : LogFilter := ⟨[{ rank := 2 }]⟩

/-- Events as the lines of a log. -/
def log (f : LogFilter) (events : List Event) : String :=
  String.join ((events.filter f.shows).map fun e => e.line ++ "\n")

end LogFilter

end SdkWiring
