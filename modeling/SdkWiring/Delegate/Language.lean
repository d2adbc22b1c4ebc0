import SdkWiring.Files.Path
import SdkWiring.Scan.Context

/-!
# Languages of a delegate

The application delegate is written in Swift or in Objective-C. The file name tells which.
-/

namespace SdkWiring

/-- The language of an application delegate. -/
inductive Language
  | swift
  | objectiveC
  deriving DecidableEq, Repr

namespace Language

/-- The language of a file, by the extension of its name in any case. -/
def ofPath? (p : Path) : Option Language :=
  match p.extension?.map String.toLower with
  | some "swift" => some swift
  | some "m" => some objectiveC
  | some "mm" => some objectiveC
  | _ => none

/-- The language as answers write it. -/
def key : Language → String
  | swift => "swift"
  | objectiveC => "objective-c"

/-- The language as people write it. -/
def title : Language → String
  | swift => "Swift"
  | objectiveC => "Objective-C"

/-- The language as log events write it. -/
def tag : Language → String
  | swift => "Swift"
  | objectiveC => "ObjectiveC"

/-- What opens a literal. -/
def quoting : Language → Quoting
  | swift => .swift
  | objectiveC => .c

/-- The indentation of a statement where the settings give none. -/
def defaultIndent : Language → Text
  | swift => "        ".toList
  | objectiveC => "    ".toList

/-- The statement that imports a framework. -/
def importStatement (language : Language) (framework : Text) : Text :=
  match language with
  | swift => "import ".toList ++ framework
  | objectiveC => "@import ".toList ++ framework ++ ";".toList

end Language

end SdkWiring
