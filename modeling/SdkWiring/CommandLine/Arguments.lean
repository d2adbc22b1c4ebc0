import SdkWiring.Files.Path
import SdkWiring.Sdk.Service

/-!
# Arguments

What the command line asks for: a command with its options, and options that every command has and
that may also stand before the command.

* `Invocation.parse`: the invocation that arguments write, or why there is none.
-/

namespace SdkWiring

/-- How information about a project is printed. -/
inductive InfoFormat
  | text
  | json
  deriving DecidableEq, Repr

/-- What the tool is asked to do. -/
inductive Command
  /-- Writes a settings file to start with. -/
  | init
  | integrate (secret : Option Text) (services : List Service) (dryRun showDiff : Bool)
  | remove (dryRun showDiff : Bool)
  | info (format : InfoFormat)
  deriving DecidableEq, Repr

/-- A command line. -/
structure Invocation where
  /-- The directory that is worked in, if it is not the current one. -/
  path : Option Path := none
  verbose : Bool := false
  noColor : Bool := false
  command : Option Command := none
  deriving DecidableEq, Repr

/-- Why arguments are no invocation. -/
inductive Refusal
  | malformed
  | help
  | version
  deriving DecidableEq, Repr

/-- An option of the command line. -/
inductive Switch
  | path
  | verbose
  | noColor
  | secret
  | analytics
  | crashes
  | distribute
  | dryRun
  | diff
  | format
  | help
  | version
  deriving DecidableEq, Repr

namespace Switch

/-- The name of an option behind two dashes. -/
def long : Switch → String
  | path => "path"
  | verbose => "verbose"
  | noColor => "no-color"
  | secret => "app-secret"
  | analytics => "analytics"
  | crashes => "crashes"
  | distribute => "distribute"
  | dryRun => "dry-run"
  | diff => "diff"
  | format => "format"
  | help => "help"
  | version => "version"

/-- The letter of an option behind one dash. -/
def short? : Switch → Option Char
  | path => some 'p'
  | verbose => some 'v'
  | secret => some 's'
  | help => some 'h'
  | version => some 'V'
  | _ => none

/-- Whether a value follows an option. -/
def takesValue : Switch → Bool
  | path | secret | format => true
  | _ => false

/-- Whether an option can have a value. -/
def accepts (s : Switch) (value : Text) : Bool :=
  match s with
  | path => !value.isEmpty
  | format => value == "text".toList || value == "json".toList
  | _ => true

/-- The options that every command has. -/
def everywhere : List Switch := [path, verbose, noColor, help]

/-- The options before the command. -/
def atTop : List Switch := version :: everywhere

end Switch

namespace Invocation

/-- The options that were given, with their values, the last one first. -/
abbrev Given := List (Switch × Text)

/-- The given options with one more. No option is given twice at one place, and some options end
the reading. -/
def give (given : Given) (s : Switch) (value : Text) : Except Refusal Given :=
  if s = .help then .error .help
  else if s = .version then .error .version
  else if given.any (·.1 == s) || !s.accepts value then .error .malformed
  else .ok ((s, value) :: given)

/-- A text behind an equals sign at its start. -/
def behindEquals (t : Text) : Text :=
  match t with
  | '=' :: rest => rest
  | t => t

/-- The given options with those behind one dash: letters, the value of the last of which may follow
it directly. The second part is an option that still needs a value. -/
def giveShort (known : List Switch) (given : Given) :
    Text → Except Refusal (Given × Option Switch)
  | [] => .ok (given, none)
  | c :: rest =>
    match known.find? (·.short? == some c) with
    | none => .error .malformed
    | some s =>
      if s.takesValue then
        if rest.isEmpty then .ok (given, some s)
        else (give given s (behindEquals rest)).map (·, none)
      else
        match give given s [] with
        | .error r => .error r
        | .ok given => giveShort known given rest

/-- The given options with one behind two dashes. The second part is an option that still needs a
value. -/
def giveLong (known : List Switch) (given : Given) (t : Text) :
    Except Refusal (Given × Option Switch) :=
  let name := t.takeWhile (· != '=')
  match known.find? (·.long.toList == name), t.dropWhile (· != '=') with
  | none, _ => .error .malformed
  | some s, '=' :: value =>
    if s.takesValue then (give given s value).map (·, none) else .error .malformed
  | some s, _ =>
    if s.takesValue then .ok (given, some s) else (give given s []).map (·, none)

/-- Whether an argument is no option. -/
def isPlain (t : Text) : Bool := t.head? != some '-' || t == ['-']

/-- The options up to the first argument that is none, and the arguments from there on. -/
def options (known : List Switch) (given : Given) :
    List Text → Except Refusal (Given × List Text)
  | [] => .ok (given, [])
  | t :: rest =>
    if isPlain t then .ok (given, t :: rest)
    else if t = ['-', '-'] then
      if rest.isEmpty then .ok (given, []) else .error .malformed
    else
      let read :=
        match t with
        | '-' :: '-' :: name => giveLong known given name
        | _ => giveShort known given t.tail
      match read with
      | .error r => .error r
      | .ok (given, none) => options known given rest
      | .ok (given, some s) =>
        match rest with
        | [] => .error .malformed
        | value :: rest =>
          if isPlain value then
            match give given s value with
            | .error r => .error r
            | .ok given => options known given rest
          else .error .malformed

/-- The value of an option. -/
def value? (given : Given) (s : Switch) : Option Text := (given.find? (·.1 == s)).map (·.2)

/-- Whether an option is given. -/
def has (given : Given) (s : Switch) : Bool := (value? given s).isSome

/-- The services that are selected. -/
def selected (given : Given) : List Service :=
  [(Switch.analytics, Service.analytics), (.crashes, .crashes),
    (.distribute, .distribute)].filterMap fun pair =>
      if has given pair.1 then some pair.2 else none

/-- The options of a command, by its name, and the command that they make. -/
def command? (name : Text) : Option (List Switch × (Given → Command)) :=
  match String.ofList name with
  | "init" => some ([], fun _ => .init)
  | "integrate" =>
    some ([.secret, .analytics, .crashes, .distribute, .dryRun, .diff], fun given =>
      .integrate (value? given .secret) (selected given) (has given .dryRun) (has given .diff))
  | "remove" =>
    some ([.dryRun, .diff], fun given => .remove (has given .dryRun) (has given .diff))
  | "info" =>
    some ([.format], fun given =>
      .info (if value? given .format = some "json".toList then .json else .text))
  | _ => none

/-- An invocation by the options at the top, those behind the command, and the command. Of two paths
the one behind the command counts. -/
def ofGiven (top inner : Given) (command : Option Command) : Invocation where
  path := ((value? inner .path).or (value? top .path)).map fun t => .ofString (String.ofList t)
  verbose := has inner .verbose || has top .verbose
  noColor := has inner .noColor || has top .noColor
  command := command

/-- Why the command that asks for help is no invocation: help is given for the whole tool and for
each command, itself included. -/
def refusalOfHelp : List Text → Refusal
  | [] => .help
  | [name] => if (command? name).isSome || name == "help".toList then .help else .malformed
  | _ => .malformed

/-- The invocation that arguments write, or why there is none. -/
def parse (args : List Text) : Except Refusal Invocation :=
  match options Switch.atTop [] args with
  | .error r => .error r
  | .ok (top, []) => .ok (ofGiven top [] none)
  | .ok (top, name :: rest) =>
    if name = "help".toList then .error (refusalOfHelp rest)
    else
      match command? name with
      | none => .error .malformed
      | some (own, make) =>
        match options (own ++ Switch.everywhere) [] rest with
        | .error r => .error r
        | .ok (inner, []) => .ok (ofGiven top inner (some (make inner)))
        | .ok (_, _ :: _) => .error .malformed

end Invocation

end SdkWiring
