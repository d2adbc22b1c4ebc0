import SdkWiring.Project.Locate

/-!
# Information about a project

What was found of a project, for people to read or as JSON.

* `Info.asText`, `Info.asJson`: the two forms.
-/

namespace SdkWiring

/-- What is known of a project. -/
structure Info where
  /-- The directory that is worked in, from where paths are shown. -/
  root : Path
  settingsFile : Option Path
  project : Project
  hasPodfile : Bool
  deriving DecidableEq, Repr

namespace Info

/-- Spaces that fill a label up to its column. -/
def padded (label : String) : String :=
  label ++ String.ofList (List.replicate (20 - label.length) ' ')

/-- A label and its value on a line. -/
def line (label value : String) : String := padded label ++ " " ++ value ++ "\n"

/-- The information for people to read. `title` sets a heading off. -/
def asText (i : Info) (title : String → String) : String :=
  let shown (p : Path) : String := p.shownFrom i.root
  let p := i.project
  "\n" ++ title "Config" ++ "\n"
    ++ line "File" ((i.settingsFile.map shown).getD "(none)")
    ++ "\n" ++ title "Project" ++ "\n"
    ++ line "Name" p.name
    ++ line "Project file" (shown p.projectFile)
    ++ line "Files directory" (shown p.sources)
    ++ line "App delegate" (shown p.delegate)
    ++ line "Language" p.language.title
    ++ line "Podfile" (if i.hasPodfile then shown p.podfile else "(will be created)")

/-- The two hexadecimal digits of a small number. -/
def twoDigits (n : Nat) : Text :=
  let digits := Nat.toDigits 16 n
  List.replicate (2 - digits.length) '0' ++ digits

/-- A character of a JSON string. -/
def jsonChar (c : Char) : Text :=
  match c with
  | '"' => "\\\"".toList
  | '\\' => "\\\\".toList
  | '\n' => "\\n".toList
  | '\r' => "\\r".toList
  | '\t' => "\\t".toList
  | '\x08' => "\\b".toList
  | '\x0C' => "\\f".toList
  | c => if c.toNat < 0x20 then "\\u00".toList ++ twoDigits c.toNat else [c]

/-- A JSON string. -/
def jsonString (s : String) : String :=
  String.ofList (['"'] ++ s.toList.flatMap jsonChar ++ ['"'])

/-- A JSON object of members that are written already, with so many spaces before its end. -/
def jsonObject (indent : Nat) (members : List (String × String)) : String :=
  let spaces (n : Nat) : String := String.ofList (List.replicate n ' ')
  let member (m : String × String) : String :=
    spaces (indent + 2) ++ jsonString m.1 ++ ": " ++ m.2
  "\x7b\n" ++ String.intercalate ",\n" (members.map member) ++ "\n" ++ spaces indent ++ "\x7d"

/-- The information as JSON, the members of objects sorted by name. -/
def asJson (i : Info) : String :=
  let p := i.project
  let project := jsonObject 2
    [("app_delegate", jsonString p.delegate.text),
      ("files_dir", jsonString p.sources.text),
      ("language", jsonString p.language.key),
      ("name", jsonString p.name),
      ("project_file", jsonString p.projectFile.text),
      ("root_dir", jsonString p.root.text)]
  let config :=
    match i.settingsFile with
    | none => "null"
    | some file => jsonString (file.shownFrom i.root)
  jsonObject 0
    [("config", config), ("podfile_exists", toString i.hasPodfile), ("project", project)] ++ "\n"

end Info

end SdkWiring
