import SdkWiring.Files.Fault
import SdkWiring.Files.Tree

/-!
# Views of a file tree

A view is a file tree seen from a current directory. A path is resolved name by name: dots stay, two
dots go up, and a link is followed to its target. So many links may be followed on the way that no
cycle of them keeps a resolution from ending.

* `Tree.resolve`: the location that names lead to.
* `View.read`, `View.list`, `View.isFile`, `View.isDirectory`: what a path leads to.
* `View.write`, `View.rename`, `View.remove`: changes.
-/

namespace SdkWiring

/-- What a resolution does at the last name of a path. -/
inductive Ending
  /-- It has to exist, and links are followed. -/
  | existing
  /-- It may be missing, and links are followed. -/
  | writable
  /-- It may be missing, and a link stands for itself. -/
  | entry
  deriving DecidableEq, Repr

/-- How many links may be followed to resolve one path. -/
def mostLinks : Nat := 40

namespace Tree

/-- The location that names lead to from a directory, with so many links left to follow. -/
def resolve (t : Tree) (ending : Ending) (links : Nat) (here : Location) (names : List Name) :
    Except Fault Location :=
  match names with
  | [] => .ok here
  | name :: rest =>
    if Path.isIdle name then t.resolve ending links here rest
    else if name = ".." then t.resolve ending links here.dropLast rest
    else
      match t.get? (here ++ [name]) with
      | none =>
        if rest = [] ∧ ending ≠ .existing then .ok (here ++ [name]) else .error .notFound
      | some .directory => t.resolve ending links (here ++ [name]) rest
      | some (.file _) => if rest = [] then .ok (here ++ [name]) else .error .notDirectory
      | some (.link target) =>
        if rest = [] ∧ ending = .entry then .ok (here ++ [name])
        else
          match links with
          | 0 => .error .tooManyLinks
          | links + 1 =>
            t.resolve ending links (if target.isAbsolute then [] else here) (target.pieces ++ rest)
termination_by (links, names.length)

end Tree

/-- A file tree seen from a current directory. -/
structure View where
  tree : Tree
  here : Location := []
  deriving DecidableEq, Repr

namespace View

/-- The path of the current directory. -/
def current (v : View) : Path := ⟨"" :: if v.here = [] then [""] else v.here⟩

/-- The location that a path leads to. -/
def locate (v : View) (ending : Ending) (p : Path) : Except Fault Location :=
  if p.pieces = [""] then .error .notFound
  else v.tree.resolve ending mostLinks (if p.isAbsolute then [] else v.here) p.pieces

/-- What a path leads to, and where that is. -/
def find (v : View) (p : Path) : Except Fault (Location × Node) := do
  let l ← v.locate .existing p
  match v.tree.get? l with
  | some n => .ok (l, n)
  | none => .error .notFound

/-- Whether a path leads to a file. -/
def isFile (v : View) (p : Path) : Bool :=
  match v.find p with
  | .ok (_, .file _) => true
  | _ => false

/-- Whether a path leads to a directory. -/
def isDirectory (v : View) (p : Path) : Bool :=
  match v.find p with
  | .ok (_, .directory) => true
  | _ => false

/-- The content of a file. -/
def content (v : View) (p : Path) : Except Fault Content := do
  match ← v.find p with
  | (_, .file c) => .ok c
  | _ => .error .isDirectory

/-- The text of a file. -/
def read (v : View) (p : Path) : Except Fault Text := do
  match ← v.content p with
  | .text t => .ok t
  | .raw _ => .error .notText

/-- Where a directory is, and the names in it. -/
def list (v : View) (p : Path) : Except Fault (Location × List Name) := do
  match ← v.find p with
  | (l, .directory) => .ok (l, v.tree.namesIn l)
  | _ => .error .notDirectory

/-- The view with something put at a location. -/
def put (v : View) (l : Location) (n : Node) : View := { v with tree := v.tree.set l n }

/-- The view after a file was written. A link is followed. -/
def write (v : View) (p : Path) (c : Content) : Except Fault View := do
  let l ← v.locate .writable p
  if v.tree.get? l = some .directory then .error .isDirectory else .ok (v.put l (.file c))

/-- The view after a file was moved onto another place. A link there is replaced. -/
def rename (v : View) (source target : Path) : Except Fault View := do
  let l ← v.locate .entry source
  let m ← v.locate .entry target
  match v.tree.get? l with
  | none => .error .notFound
  | some n =>
    if v.tree.get? m = some .directory then .error .isDirectory
    else .ok { v with tree := (v.tree.remove l).set m n }

/-- The view without what a path names, a link standing for itself. -/
def remove (v : View) (p : Path) : Except Fault View := do
  let l ← v.locate .entry p
  if (v.tree.get? l).isSome then .ok { v with tree := v.tree.remove l } else .error .notFound

/-- Why a directory cannot be made where something else stands, given whether it is the last one of
a path: on the way to others, a link that leads nowhere is in the way, and all else is no
directory. -/
def obstacle (last : Bool) (found : Except Fault Location) : Fault :=
  match last, found with
  | true, _ => .alreadyExists
  | false, .ok _ => .notDirectory
  | false, .error .notFound => .alreadyExists
  | false, .error f => f

/-- The view with the directories of a path made. -/
def makeDirectories (v : View) (here : Location) (names : List Name) : Except Fault View :=
  match names with
  | [] => .ok v
  | name :: rest =>
    if Path.isIdle name then v.makeDirectories here rest
    else if name = ".." then v.makeDirectories here.dropLast rest
    else
      let found := v.tree.resolve .existing mostLinks here [name]
      match found.toOption.filter fun l => v.tree.get? l = some .directory with
      | some l => v.makeDirectories l rest
      | none =>
        if (v.tree.get? (here ++ [name])).isSome then .error (obstacle (rest.all Path.isIdle) found)
        else (v.put (here ++ [name]) .directory).makeDirectories (here ++ [name]) rest

/-- The view with something placed at a path, the directories on the way being made. Writing a file
follows a link. -/
def place (v : View) (p : Path) (n : Node) : Except Fault View := do
  let names := if n = .directory then p.pieces else p.pieces.dropLast
  let v ← v.makeDirectories (if p.isAbsolute then [] else v.here) names
  match n with
  | .directory => .ok v
  | .file c => v.write p c
  | .link _ =>
    let l ← v.locate .entry p
    if (v.tree.get? l).isSome then .error .alreadyExists else .ok (v.put l n)

end View

end SdkWiring
