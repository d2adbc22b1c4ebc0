import SdkWiring.Delegate.Language
import SdkWiring.Sdk.Service

/-!
# Settings

What a project says about itself in its settings file, with the values that hold where it says
nothing.

* `Settings.indent`: the indentation of the start call in a language.
* `Settings.fileNames`: where the settings file may stand, the first one found being used.
* `Settings.sample`: the settings file that a project starts with.
-/

namespace SdkWiring

/-- What a project says about itself. -/
structure Settings where
  /-- The app secret where the command line gives none. -/
  secret : Option Text := none
  /-- The services where the command line selects none, as the file lists them. -/
  services : List Service := []
  /-- Globs for the file name of the application delegate, in any case. -/
  delegateNames : List Text := ["AppDelegate.swift".toList, "AppDelegate.m".toList]
  /-- The delegate type. -/
  typeName : Text := "AppDelegate".toList
  /-- The method that receives the start call. -/
  methodName : Text := "application".toList
  /-- What the search for the project leaves out. -/
  excluded : List Text := []
  /-- The deployment target of a new Podfile. -/
  platform : Text := "8.0".toList
  swiftIndent : Option Text := none
  objectiveCIndent : Option Text := none
  /-- Whether the search for the project looks past the `.gitignore` file. -/
  disableGitignore : Bool := false
  deriving DecidableEq, Repr

namespace Settings

/-- The indentation of the start call in a language. -/
def indent (s : Settings) (language : Language) : Text :=
  let given :=
    match language with
    | .swift => s.swiftIndent
    | .objectiveC => s.objectiveCIndent
  given.getD language.defaultIndent

/-- Where the settings file may stand, the first one found being used. -/
def fileNames : List String := ["mcinject.toml", ".mcinject.toml", ".config/mcinject.toml"]

/-- The file that a project starts with. -/
def newFileName : String := "mcinject.toml"

/-- The settings file that a project starts with. -/
def sample : String :=
  "# The Mobile Center app secret. Can be overridden with `--app-secret`.
# app_secret = \"00000000-0000-0000-0000-000000000000\"

# Services to start: \"analytics\", \"crashes\", \"distribute\".
modules = [\"analytics\", \"crashes\"]

[project]
# Case-insensitive globs naming the application delegate file.
app_delegate = [\"AppDelegate.swift\", \"AppDelegate.m\"]
type_name = \"AppDelegate\"
method_name = \"application\"

[exclude]
patterns = []

[podfile]
platform = \"8.0\"
"

end Settings

end SdkWiring
