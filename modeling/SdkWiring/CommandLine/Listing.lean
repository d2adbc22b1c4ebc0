import SdkWiring.Files.View

/-!
# Listings of a file tree

A listing names what is in a tree, one path a line, the way archives and searches print it: a
directory ends with a slash, and a link is followed by an arrow and its target. Everything else is a
file.

* `Listing.entry`: what a line names.
* `Listing.line`: the line for a path.
* `View.ofEntries`: the tree of a listing, once the files are read.
-/

namespace SdkWiring

namespace Listing

/-- What a line of a listing says about a path. -/
inductive Entry
  | directory
  | file
  | link (target : Path)
  deriving DecidableEq, Repr

/-- What stands between a link and its target. -/
def arrow : Text := " -> ".toList

/-- The parts of a line before and behind the first arrow. -/
def cutAtArrow? : Text → Option (Text × Text)
  | [] => none
  | c :: rest =>
    if arrow.isPrefixOf (c :: rest) then some ([], (c :: rest).drop arrow.length)
    else (cutAtArrow? rest).map fun parts => (c :: parts.1, parts.2)

/-- What a line names. -/
def entry (line : Text) : Path × Entry :=
  let path (t : Text) : Path := .ofString (String.ofList t)
  match cutAtArrow? line with
  | some (source, target) => (path source, .link (path target))
  | none =>
    match line.getLast? with
    | some '/' => (path line, .directory)
    | _ => (path line, .file)

/-- The line for a path. -/
def line (p : Path) : Entry → Text
  | .directory => p.text.toList ++ ['/']
  | .file => p.text.toList
  | .link target => p.text.toList ++ arrow ++ target.text.toList

end Listing

/-- The view from a directory, with what was found under the paths of a listing. Of what cannot be
there, such as an entry of a file, nothing remains. -/
def View.ofEntries (here : Path) (entries : List (Path × Node)) : View :=
  let place (v : View) (entry : Path × Node) : View :=
    match v.place entry.1 entry.2 with
    | .ok placed => placed
    | .error _ => v
  let top : View := ⟨{}, []⟩
  let empty := place top (here, .directory)
  entries.foldl place { empty with here := here.components.filter (!Path.isIdle ·) }

end SdkWiring
