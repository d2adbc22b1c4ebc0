import SdkWiring.Files.Fault

/-!
# Problems

Everything that can keep the tool from doing its work, each with its message, the code under which
it is reported, and advice where there is some.

* `Problem.message`, `Problem.code`, `Problem.help?`.
-/

namespace SdkWiring

/-- Why a run could not go on. -/
inductive Problem
  | file (fault : Fault)
  /-- The settings file is no valid TOML, or does not have the expected shape. -/
  | malformedSettings
  /-- The settings file can be read but says something that cannot be used. -/
  | unusableSettings (reason : String)
  | missingSecret
  | unsafeSecret (secret : String)
  | noProjectFile (root : String)
  | misplacedProjectFile (path : String)
  | noSources (project : String)
  | noDelegate (directory : String)
  | linkCycle (path : String)
  | unsupportedSource (path : String)
  | typeNotFound (typeName source : String)
  | methodNotFound (method source : String)
  | badPattern (pattern reason : String)
  /-- An edit does not fall on character boundaries. -/
  | misalignedEdit
  deriving DecidableEq, Repr

namespace Problem

/-- What went wrong. -/
def message : Problem → String
  | file fault => fault.message
  | malformedSettings => "failed to parse config file"
  | unusableSettings reason => s!"failed to parse config file: {reason}"
  | missingSecret => "no app secret was provided"
  | unsafeSecret secret =>
    s!"the app secret `{secret}` cannot be written into a string literal"
  | noProjectFile root => s!"there is no *.pbxproj file under `{root}`"
  | misplacedProjectFile path =>
    s!"the project file `{path}` is not inside a *.xcodeproj directory"
  | noSources project =>
    s!"there is no project files directory `{project}` next to `{project}.xcodeproj`"
  | noDelegate directory => s!"there is no AppDelegate file in `{directory}`"
  | linkCycle path => s!"symlink cycle detected at: `{path}`"
  | unsupportedSource path => s!"unsupported source file: `{path}`"
  | typeNotFound typeName source => s!"type `{typeName}` is not defined in {source}"
  | methodNotFound method source => s!"function '{method}' is not defined in {source}"
  | badPattern pattern reason => s!"invalid pattern `{pattern}`: {reason}"
  | misalignedEdit => "an edit does not fall on character boundaries"

/-- The code under which a problem is reported. -/
def code : Problem → String
  | file _ => "mcinject::io_error"
  | malformedSettings | unusableSettings _ => "mcinject::config_parse"
  | missingSecret => "mcinject::missing_app_secret"
  | unsafeSecret _ => "mcinject::invalid_app_secret"
  | noProjectFile _ => "mcinject::no_project_file"
  | misplacedProjectFile _ => "mcinject::misplaced_project_file"
  | noSources _ => "mcinject::no_project_files_directory"
  | noDelegate _ => "mcinject::no_app_delegate"
  | linkCycle _ => "mcinject::symlink_cycle"
  | unsupportedSource _ => "mcinject::unsupported_source"
  | typeNotFound _ _ => "mcinject::type_not_found"
  | methodNotFound _ _ => "mcinject::method_not_found"
  | badPattern _ _ => "mcinject::invalid_pattern"
  | misalignedEdit => "mcinject::misaligned_edit"

/-- What to do about a problem. -/
def help? : Problem → Option String
  | malformedSettings | unusableSettings _ => some "check that mcinject.toml is valid TOML"
  | missingSecret =>
    some "pass `--app-secret <secret>` or set `app_secret` in mcinject.toml"
  | unsafeSecret _ =>
    some "app secrets must not contain quotes, backslashes, semicolons or control characters"
  | noProjectFile _ =>
    some "run mcinject from the directory that contains your .xcodeproj"
  | noDelegate _ =>
    some "set `[project] app_delegate` in mcinject.toml if the file has a different name"
  | linkCycle _ => some "remove the circular symlink or exclude this path"
  | unsupportedSource _ =>
    some "only Swift (.swift) and Objective-C (.m) application delegates are supported"
  | methodNotFound method _ =>
    some s!"the start call is inserted into the first `{method}` method of the delegate"
  | _ => none

end Problem

end SdkWiring
