import SdkWiring.Files.View
import SdkWiring.Journal

/-!
# Searching a file tree

The search for a file goes breadth first: all entries of a directory are looked at before any of its
subdirectories is entered, and entries in the order of their names. A directory that can be reached
in several ways is listed once. One that is among its own ancestors is a cycle of links.

* `View.search`: the first file that is wanted. The search ends since every directory of the tree
  is listed at most once.
-/

namespace SdkWiring

/-- What a search leaves out, and what it looks for. -/
structure Search where
  /-- Whether an entry is left out, given whether it is a directory. -/
  skips : Path → Bool → Bool
  /-- Whether a file is the one that is looked for. -/
  wants : Path → Bool

namespace Search

/-- A directory that waits to be listed, and the directories on the way to it. -/
structure Waiting where
  path : Path
  ancestors : List Location
  deriving DecidableEq, Repr

/-- The event that a directory was reached again. -/
def reachedAgain (p : Path) : Event :=
  ⟨.debug, .search, "skipping already visited directory", [("path", p.text)]⟩

/-- The entries of a directory that are not left out. -/
def entries (s : Search) (v : View) (dir : Path) (names : List Name) : List Path :=
  (names.map dir.join).filter fun p => !s.skips p (v.isDirectory p)

/-- The search with the directories that wait in a queue and those that were not listed yet. -/
def run (s : Search) (v : View) (unlisted : List Location) (queue : List Waiting) :
    Traced (Option Path) :=
  match queue with
  | [] => pure none
  | dir :: queue =>
    match v.list dir.path with
    | .error fault => Traced.fail (.file fault)
    | .ok (here, names) =>
      if here ∈ dir.ancestors then Traced.fail (.linkCycle dir.path.text)
      else if _ : here ∈ unlisted then
        let entries := s.entries v dir.path names
        match entries.find? fun p => !v.isDirectory p && s.wants p with
        | some found => pure (some found)
        | none =>
          let next := (entries.filter v.isDirectory).map fun p => ⟨p, dir.ancestors ++ [here]⟩
          run s v (unlisted.erase here) (queue ++ next)
      else
        let rest := run s v unlisted queue
        ⟨reachedAgain dir.path :: rest.events, rest.result⟩
termination_by (unlisted.length, queue.length)
decreasing_by
  · apply Prod.Lex.left
    rename_i hmem
    have := List.length_pos_of_mem hmem
    rw [List.length_erase_of_mem hmem]
    omega
  · apply Prod.Lex.right
    simp

end Search

/-- The first file below a directory that is wanted. -/
def View.search (v : View) (s : Search) (start : Path) : Traced (Option Path) :=
  s.run v v.tree.directories [⟨start, []⟩]

end SdkWiring
