import SdkWiring.Files.Path

/-!
# File trees

A file tree maps locations to what is there: a directory, a file or a symbolic link. A location is
the list of names that lead there from the top, which is always a directory.

* `Tree.get?_set`, `Tree.get?_remove`: what a tree holds after a change.
* `Tree.namesIn`: the names in a directory, in order.
-/

namespace SdkWiring

/-- What a file holds: text, or bytes that are no text. -/
inductive Content
  | text (t : Text)
  | raw (bytes : List UInt8)
  deriving DecidableEq, Repr

/-- The content that bytes are. -/
def Content.ofBytes (bytes : List UInt8) : Content :=
  match String.fromUTF8? ⟨bytes.toArray⟩ with
  | some s => text s.toList
  | none => raw bytes

/-- What can be found at a location. -/
inductive Node
  | directory
  | file (content : Content)
  | link (target : Path)
  deriving DecidableEq, Repr

/-- The names that lead to a place from the top. -/
abbrev Location := List Name

/-- What is where, except for the top. -/
structure Tree where
  nodes : List (Location × Node) := []
  deriving DecidableEq, Repr

namespace Tree

/-- What is at a location. -/
def get? (t : Tree) (l : Location) : Option Node :=
  if l = [] then some .directory else (t.nodes.find? (·.1 = l)).map (·.2)

/-- The tree with something put at a location. -/
def set (t : Tree) (l : Location) (n : Node) : Tree :=
  ⟨(l, n) :: t.nodes.filter (·.1 ≠ l)⟩

/-- The tree without what is at a location and below it. -/
def remove (t : Tree) (l : Location) : Tree :=
  ⟨t.nodes.filter fun entry => !l.isPrefixOf entry.1⟩

/-- The locations of all directories. -/
def directories (t : Tree) : List Location :=
  [] :: (t.nodes.filter (·.2 = .directory)).map (·.1)

/-- The names in a directory, in order. -/
def namesIn (t : Tree) (l : Location) : List Name :=
  (t.nodes.filterMap fun entry => if entry.1.dropLast = l then entry.1.getLast? else none).mergeSort

/-- The path of a location. -/
def pathText (l : Location) : String := "/".intercalate l

/-- Everything below a location but directories that hold something, by path and in order. -/
def leaves (t : Tree) (top : Location) : List (String × Node) :=
  let below := t.nodes.filterMap fun entry =>
    if entry.2 = .directory ∧ t.namesIn entry.1 ≠ [] then none
    else if top.isPrefixOf entry.1 ∧ entry.1 ≠ top then
      some (pathText (entry.1.drop top.length), entry.2)
    else none
  below.mergeSort fun a b => decide (a.1 ≤ b.1)

/-- What is new or different below a location, by path, and the paths that are gone. -/
def changes (before after : Tree) (top : Location) : List (String × Option Node) :=
  let old := before.leaves top
  let new := after.leaves top
  (new.filter fun entry => !old.contains entry).map (fun entry => (entry.1, some entry.2))
    ++ (old.filter fun entry => !new.any (·.1 == entry.1)).map fun entry => (entry.1, none)

/-- What is at a location after a change there, and elsewhere. -/
theorem get?_set (t : Tree) {l : Location} (n : Node) (hl : l ≠ []) (m : Location) :
    (t.set l n).get? m = if m = l then some n else t.get? m := by
  by_cases hm : m = []
  · subst hm
    simp [get?, Ne.symm hl]
  · by_cases h : m = l
    · subst h
      simp [get?, set, hm]
    · simp only [get?, set, hm, if_false, h, List.find?_cons, Ne.symm h, decide_false]
      congr 1
      induction t.nodes with
      | nil => rfl
      | cons entry rest ih =>
        by_cases he : entry.1 = l <;> by_cases hem : entry.1 = m <;> simp_all

/-- What is at a location after something was removed that does not hold it. -/
theorem get?_remove (t : Tree) {l m : Location} (hm : ¬ l <+: m) :
    (t.remove l).get? m = t.get? m := by
  by_cases h : m = []
  · simp [get?, h]
  · simp only [get?, remove, h, if_false]
    congr 1
    induction t.nodes with
    | nil => rfl
    | cons entry rest ih =>
      by_cases hem : entry.1 = m
      · subst hem
        have : l.isPrefixOf entry.1 = false := by
          rw [← Bool.not_eq_true, List.isPrefixOf_iff_prefix]; exact hm
        simp [this]
      · by_cases hp : l.isPrefixOf entry.1 <;> simp [hp, hem, ih]

end Tree

end SdkWiring
