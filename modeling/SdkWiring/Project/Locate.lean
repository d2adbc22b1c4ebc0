import SdkWiring.Delegate.Language
import SdkWiring.Glob.IgnoreRules
import SdkWiring.Project.Search
import SdkWiring.Settings.Basic

/-!
# Locating a project

An Xcode project is found by its project file. The directory that holds the file gives the project
its name, and next to it stand the Podfile and the directory with the sources, which holds the
application delegate.

* `View.locateProject`: the project below a directory, or why there is none.
-/

namespace SdkWiring

/-- How a project is searched for. -/
structure SearchOptions where
  /-- What to leave out, on top of the `.gitignore` file. -/
  excluded : List Text := []
  /-- Whether to look past the `.gitignore` file. -/
  disableGitignore : Bool := false
  /-- Globs for the file name of the application delegate, in any case. -/
  delegateNames : List Text := Settings.delegateNames {}
  deriving DecidableEq, Repr

/-- The options that settings give. -/
def Settings.searchOptions (s : Settings) : SearchOptions :=
  ⟨s.excluded, s.disableGitignore, s.delegateNames⟩

/-- The paths that make up a project. -/
structure Project where
  name : Name
  projectFile : Path
  /-- The directory that holds the Podfile and the sources. -/
  root : Path
  /-- The directory with the sources. -/
  sources : Path
  delegate : Path
  language : Language
  deriving DecidableEq, Repr

namespace Project

/-- The Podfile of a project. -/
def podfile (p : Project) : Path := p.root.join "Podfile"

/-- Names of directories that hold dependencies or build products. -/
def generated : List Name := ["Pods", "Carthage", "DerivedData", "build", "node_modules"]

/-- Whether a directory never holds the project: hidden ones, dependencies and build products. -/
def isForeign (name : Name) : Bool := name.toList.head? == some '.' || generated.contains name

/-- The rules of the `.gitignore` file of a directory. -/
def gitignore (v : View) (root : Path) : IgnoreRules :=
  match v.content (root.join ".gitignore") with
  | .ok content => .ofFile root content
  | .error _ => ⟨root, []⟩

/-- What is said when the rules of the `.gitignore` file of a directory are read. -/
def gitignoreEvents (v : View) (root : Path) : List Event :=
  let file := root.join ".gitignore"
  if v.isFile file || v.isDirectory file then
    ⟨.debug, .ignoreFiles, "opened gitignore file: " ++ file.text, []⟩ :: (gitignore v root).reports
  else []

/-- The rules that exclude patterns write. -/
def exclusions (root : Path) (patterns : List Text) : Except Problem IgnoreRules :=
  match IgnoreRules.ofLines root patterns with
  | .ok rules => .ok rules
  | .error (pattern, message) =>
    .error (.unusableSettings s!"invalid exclude pattern `{String.ofList pattern}`: {message}")

/-- Whether an entry is left out. -/
def skips (gitignore exclusions : IgnoreRules) (p : Path) (isDirectory : Bool) : Bool :=
  (isDirectory && p.fileName?.any isForeign)
    || gitignore.leavesOut p isDirectory || exclusions.leavesOut p isDirectory

/-- The globs that delegate names write. -/
def namePatterns (names : List Text) : Except Problem (List (List Glob.Token)) :=
  names.mapM fun name =>
    match Glob.parse false name with
    | .ok tokens => .ok tokens
    | .error fault => .error (.badPattern (String.ofList name) (fault.message name))

/-- Whether a file has one of the names looked for. -/
def hasName (patterns : List (List Glob.Token)) (p : Path) : Bool :=
  match p.fileName? with
  | none => false
  | some name => patterns.any fun tokens => Glob.matches true tokens name.toUTF8.toList

/-- The event that something was found. -/
def foundEvent (what : String) (p : Path) : Event :=
  ⟨.debug, .search, "found " ++ what, [("path", p.text)]⟩

/-- The directory of a project and its name, by its project file. -/
def owner? (projectFile : Path) : Option (Path × Name) := do
  let bundle ← projectFile.parent?
  let extension ← bundle.extension?
  if extension = "xcodeproj" then
    let name ← bundle.stem?
    let root ← bundle.parent?
    some (root, name)
  else none

end Project

open Project in
/-- The project below a directory. -/
def View.locateProject (v : View) (root : Path) (o : SearchOptions) : Traced Project := do
  let gitignored : IgnoreRules := if o.disableGitignore then ⟨root, []⟩ else gitignore v root
  Traced.tell (if o.disableGitignore then [] else gitignoreEvents v root)
  let excluded ← Traced.ofExcept (exclusions root o.excluded)
  Traced.tell excluded.reports
  let first (wants : Path → Bool) (start : Path) :=
    v.search ⟨skips gitignored excluded, wants⟩ start
  let some projectFile ← first (fun p => p.extension? = some "pbxproj") root
    | Traced.fail (.noProjectFile root.text)
  Traced.tell [foundEvent "project file" projectFile]
  let some (home, name) := owner? projectFile
    | Traced.fail (.misplacedProjectFile projectFile.text)
  let sources := home.join name
  if v.isDirectory sources then
    let patterns ← Traced.ofExcept (namePatterns o.delegateNames)
    Traced.tell (Glob.reports true (o.delegateNames.zip patterns))
    let some delegate ← first (hasName patterns) sources
      | Traced.fail (.noDelegate sources.text)
    Traced.tell [foundEvent "application delegate" delegate]
    match Language.ofPath? delegate with
    | none => Traced.fail (.unsupportedSource delegate.text)
    | some language => return ⟨name, projectFile, home, sources, delegate, language⟩
  else Traced.fail (.noSources name)

end SdkWiring
