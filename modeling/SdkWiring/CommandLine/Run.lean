import SdkWiring.CommandLine.Arguments
import SdkWiring.CommandLine.Info
import SdkWiring.CommandLine.LogFilter
import SdkWiring.CommandLine.Report
import SdkWiring.CommandLine.Style
import SdkWiring.Diff.Slide
import SdkWiring.Plan.Steps
import SdkWiring.Settings.Load

/-!
# Running a command line

A command line is run on a view of a file tree. What it prints, how it ends and what it leaves of
the tree is all that it does.

* `Session.run`: a command line.
* `Session.integrate`, `Session.remove`, `Session.inform`, `Session.begin`: the commands.
-/

namespace SdkWiring

/-- What a run of a command line leaves behind. -/
structure Ended where
  code : Nat
  output : String := ""
  errors : String := ""
  view : View
  deriving DecidableEq, Repr

/-- What all commands work with. -/
structure Session where
  view : View
  /-- The directory that is worked in. -/
  root : Path
  colored : Bool
  verbose : Bool
  filter : LogFilter
  /-- What tells temporary files of this run from others. -/
  stamp : String

namespace Session

/-- A text in a style, if output is coloured. -/
def styled (s : Session) (style : Style) (text : String) : String := style.apply s.colored text

/-- A path as it is shown. -/
def shown (s : Session) (p : Path) : String := p.shownFrom s.root

/-- The run ends with a problem, after what was printed to the error output. -/
def fail (view : View) (errors : String) (p : Problem) : Ended :=
  let before := if p = .malformedSettings then "" else errors
  { code := 2, errors := before ++ p.report, view }

/-- Lines that list the paths of writes. -/
def listed (s : Session) (writes : List PendingWrite) : String :=
  String.join (writes.map fun w => "  " ++ s.shown w.path ++ "\n")

/-- One line of a difference. -/
def diffLine (s : Session) (change : Diff.Kind × Text) : String :=
  let ends := change.2.getLast?.any fun c => c == '\n' || c == '\r'
  let line := String.ofList (if ends then change.2 else change.2 ++ ['\n'])
  match change.1 with
  | .removed => "  " ++ s.styled .red ("-" ++ line)
  | .added => "  " ++ s.styled .green ("+" ++ line)
  | .kept => "   " ++ line

/-- The differences that writes make, each under the path of its file. -/
def differences (s : Session) (writes : List PendingWrite) : String :=
  String.join (writes.map fun w =>
    s.styled .bold (s.shown w.path) ++ "\n"
      ++ String.join ((Diff.changes (w.previous.getD []) w.content).map s.diffLine))

/-- Writes a settings file to start with, unless there is one. -/
def begin (s : Session) : Ended :=
  match s.view.settingsFile? s.root with
  | some file =>
    { code := 0, output := "Config file already exists: " ++ file.text ++ "\n", view := s.view }
  | none =>
    let file := s.root.join Settings.newFileName
    match s.view.write file (.text Settings.sample.toList) with
    | .error fault =>
      { code := 2, errors := s.styled .red "error:" ++ " " ++ fault.message ++ "\n",
        view := s.view }
    | .ok view =>
      { code := 0,
        output := "Created " ++ file.text ++ "\n\nNext steps:\n"
          ++ "  1. Set `app_secret` and `modules` in " ++ Settings.newFileName ++ "\n"
          ++ "  2. Run `mcinject integrate` to add the SDK\n"
          ++ "  3. Run `pod install` to fetch the pods\n",
        view }

/-- Carries a plan out, or only says what it would do. -/
def finish (s : Session) (errors : String) (plan : Plan) (dryRun showDiff : Bool) : Ended :=
  let changed := plan.changed
  let name := plan.project.name
  if changed.isEmpty then
    { code := 0, output := "Project " ++ s.styled .bold name ++ " is already up to date.\n",
      errors, view := s.view }
  else
    let errors := if showDiff then errors ++ s.differences changed else errors
    if dryRun then
      { code := 0,
        output := s!"Dry run: would update {changed.length} file(s):\n" ++ s.listed changed,
        errors, view := s.view }
    else
      let (view, done) := plan.apply s.stamp s.view
      let errors := errors ++ s.filter.log done.events
      match done.result with
      | .error p => fail view errors p
      | .ok written =>
        { code := 0,
          output := s.styled .green "Updated" ++ s!" {written} file(s) in project {name}.\n"
            ++ (if s.verbose || showDiff then s.listed changed else ""),
          errors, view }

/-- Plans an operation, which may depend on the settings, and carries the plan out. -/
def carryOut (s : Session) (operation : Settings → Except Problem Operation)
    (dryRun showDiff : Bool) : Ended :=
  let planned : Traced Plan := do
    let settings ← s.view.loadSettings s.root
    let operation ← Traced.ofExcept (operation settings)
    Job.plan ⟨s.root, operation, settings⟩ s.view
  let errors := s.filter.log planned.events
  match planned.result with
  | .error p => fail s.view errors p
  | .ok plan => s.finish errors plan dryRun showDiff

/-- Adds the SDK to the project. -/
def integrate (s : Session) (secret : Option Text) (services : List Service)
    (dryRun showDiff : Bool) : Ended :=
  s.carryOut (Operation.integration secret services) dryRun showDiff

/-- Takes the SDK out of the project. -/
def remove (s : Session) (dryRun showDiff : Bool) : Ended :=
  s.carryOut (fun _ => .ok .remove) dryRun showDiff

/-- Prints what was found of the project. -/
def inform (s : Session) (format : InfoFormat) : Ended :=
  let found : Traced Info := do
    let settings ← s.view.loadSettings s.root
    let project ← s.view.locateProject s.root settings.searchOptions
    return ⟨s.root, s.view.settingsFile? s.root, project, s.view.isFile project.podfile⟩
  let errors := s.filter.log found.events
  match found.result with
  | .error p => fail s.view errors p
  | .ok info =>
    let output :=
      match format with
      | .json => info.asJson
      | .text => info.asText (s.styled .bold)
    { code := 0, output, errors, view := s.view }

/-- The filter of the log: that of a verbose run, or the one that the environment gives. -/
def filterOf (env : Environment) (verbose : Bool) : LogFilter :=
  if verbose then .verbose
  else ((env.get? "RUST_LOG").bind LogFilter.parse?).getD .quiet

/-- The version that is printed. -/
def version : String := "mcinject_cli 0.3.0\n"

/-- How the command line is used. -/
def usage : String :=
  "Usage: mcinject [--path <PATH>] [--verbose] [--no-color] <COMMAND>\n\n"
    ++ "Commands:\n"
    ++ "  init       Create a sample `mcinject.toml` in the project directory\n"
    ++ "  integrate  Add the SDK pods, imports and start call to the project\n"
    ++ "  remove     Remove the SDK pods, imports and start call from the project\n"
    ++ "  info       Print the discovered project paths and the delegate language\n"

/-- Runs a command line in the current directory of a view. -/
def run (env : Environment) (stamp : String) (view : View) (args : List Text) : Ended :=
  match Invocation.parse args with
  | .error .malformed => { code := 2, errors := "<usage>", view }
  | .error .help => { code := 0, output := usage, view }
  | .error .version => { code := 0, output := version, view }
  | .ok i =>
    let s : Session := {
      view, stamp
      root := i.path.getD view.current
      colored := env.usesColor i.noColor
      verbose := i.verbose
      filter := filterOf env i.verbose }
    match i.command with
    | none =>
      { code := 1, errors := "No subcommand specified. Run `mcinject --help` for usage.\n", view }
    | some .init => s.begin
    | some (.integrate secret services dryRun showDiff) =>
      s.integrate secret services dryRun showDiff
    | some (.remove dryRun showDiff) => s.remove dryRun showDiff
    | some (.info format) => s.inform format

end Session

end SdkWiring
