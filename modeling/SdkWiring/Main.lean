import SdkWiring.CommandLine.Listing
import SdkWiring.CommandLine.Run

/-!
# The command line tool

Runs a command line on the files of the current directory. Which files there are is read from
standard input, as a listing; so `find . -type d -printf "%p/\n" -o -type l -printf "%p -> %l\n"
-o -print` piped into the tool shows it everything. The files are read, the command line is run on
them as a value, and what the run changed is written back.
-/

namespace SdkWiring.Tool

/-- The lines of an input up to its end. -/
partial def readLines (input : IO.FS.Stream) : IO (List String) := do
  let line ← input.getLine
  if line.isEmpty then return []
  return line :: (← readLines input)

/-- The variables of the environment that matter. -/
def environment : IO Environment := do
  let names := ["NO_COLOR", "FORCE_COLOR", "CLICOLOR_FORCE", "IGNORE_IS_TERMINAL", "TERM",
    "COLORTERM", "TERM_PROGRAM", "CLICOLOR", "CI", "RUST_LOG"]
  let values ← names.mapM fun name => do return (← IO.getEnv name).map (name, ·)
  return values.filterMap id

/-- What stands under the path of a line, files being read. -/
def load (line : String) : IO (Path × Node) := do
  let (path, entry) := Listing.entry (line.toList.filter (· != '\n'))
  match entry with
  | .directory => return (path, .directory)
  | .link target => return (path, .link target)
  | .file => return (path, .file (.ofBytes (← IO.FS.readBinFile path.text).toList))

/-- Writes a file that a run changed, its path being given from the top. The new content takes the
place of the old one as a whole. A run changes nothing but files. -/
def store (stamp : String) (change : String × Option Node) : IO Unit := do
  match change.2 with
  | some (.file (.text t)) =>
    let path := "/" ++ change.1
    let temporary := path ++ ".tmp-" ++ stamp
    IO.FS.writeFile temporary (String.ofList t)
    IO.FS.rename temporary path
  | _ => return

/-- Runs a command line and ends with its code. -/
def run (args : List String) : IO UInt32 := do
  let entries ← (← readLines (← IO.getStdin)).mapM load
  let before := View.ofEntries (.ofString (toString (← IO.currentDir))) entries
  let stamp := toString (← IO.monoNanosNow)
  let ended := Session.run (← environment) stamp before (args.map String.toList)
  for change in before.tree.changes ended.view.tree [] do store stamp change
  IO.print ended.output
  IO.eprint ended.errors
  return ended.code.toUInt32

end SdkWiring.Tool

/-- Runs the arguments of the program. -/
def main (args : List String) : IO UInt32 := SdkWiring.Tool.run args
