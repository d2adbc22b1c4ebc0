import SdkWiring.Text.Basic

/-!
# Paths

A path is kept as it was written, since messages show it so. What it means is its list of
components: repeated slashes, a slash at the end, and dots other than one at the start do not
count.

* `Path.join`, `Path.parent?`: to an entry of a directory, and back.
* `Path.fileName?`, `Path.stem?`, `Path.extension?`: the last component and its two parts.
* `Path.relativeTo?`: what is left of a path behind another one.
-/

namespace SdkWiring

/-- The name of an entry of a directory. -/
abbrev Name := String

/-- A path as written: the pieces between its slashes, empty ones included. -/
structure Path where
  pieces : List Name
  deriving DecidableEq, Repr

namespace Path

/-- The path with a text. -/
def ofString (s : String) : Path := ⟨(Text.cut '/' s.toList).map String.ofList⟩

/-- The path as it was written. -/
def text (p : Path) : String := String.intercalate "/" p.pieces

/-- Whether a path starts at the top, whatever the current directory is. -/
def isAbsolute (p : Path) : Bool :=
  match p.pieces with
  | "" :: _ :: _ => true
  | _ => false

/-- A piece that does not move: an empty one or a dot. -/
def isIdle (piece : Name) : Bool := piece == "" || piece == "."

/-- The components of a path. The first is empty for an absolute path. -/
def components (p : Path) : List Name :=
  match p.pieces with
  | [] => []
  | [""] => []
  | first :: rest => first :: rest.filter (!isIdle ·)

/-- The pieces without those at the end that do not move. -/
def trimmed : List Name → List Name
  | [] => []
  | first :: rest => first :: (rest.reverse.dropWhile isIdle).reverse

/-- The directory that holds the last component, unless there is none. -/
def parent? (p : Path) : Option Path :=
  match trimmed p.pieces with
  | [] => none
  | [first] => if first = "" then none else some ⟨[""]⟩
  | first :: rest =>
    match trimmed (first :: rest.dropLast) with
    | [""] => some ⟨["", ""]⟩
    | pieces => some ⟨pieces⟩

/-- The last component, unless it is no name. -/
def fileName? (p : Path) : Option Name :=
  match p.components.getLast? with
  | none => none
  | some name => if isIdle name || name == ".." then none else some name

/-- A file name cut at its last dot, unless that is its first character. -/
def cutAtDot? (name : Name) : Option (Name × Name) :=
  let reversed := name.toList.reverse
  let extension := reversed.takeWhile (· != '.')
  match reversed.dropWhile (· != '.') with
  | [] => none
  | [_] => none
  | _ :: stem => some (String.ofList stem.reverse, String.ofList extension.reverse)

/-- What follows the last dot of the file name. -/
def extension? (p : Path) : Option Name :=
  p.fileName?.bind fun name => (cutAtDot? name).map (·.2)

/-- The file name without its extension. -/
def stem? (p : Path) : Option Name :=
  p.fileName?.map fun name =>
    match cutAtDot? name with
    | none => name
    | some parts => parts.1

/-- A path seen from another one. -/
def append (p q : Path) : Path :=
  if q.isAbsolute then q
  else
    match p.pieces.getLast? with
    | none => q
    | some "" => ⟨(if p.pieces.length = 1 then [] else p.pieces.dropLast) ++ q.pieces⟩
    | some _ => ⟨p.pieces ++ q.pieces⟩

/-- The path of an entry of a directory. -/
def join (p : Path) (name : Name) : Path := p.append ⟨[name]⟩

/-- The path of an entry of the same directory. -/
def withFileName (p : Path) (name : Name) : Path :=
  match p.fileName?, p.parent? with
  | some _, some dir => dir.join name
  | _, _ => p.join name

/-- What is left of a list behind a first part. -/
def behind? : List Name → List Name → Option (List Name)
  | [], rest => some rest
  | _ :: _, [] => none
  | a :: as, b :: bs => if a = b then behind? as bs else none

/-- What is left of a path behind another one, component by component. -/
def relativeTo? (p base : Path) : Option Path :=
  (behind? base.components p.components).map fun rest => ⟨if rest = [] then [""] else rest⟩

/-- A path as it is shown to somebody who works at `base`. -/
def shownFrom (p base : Path) : String :=
  ((p.relativeTo? base).getD p).text

theorem behind?_append (a b : List Name) : behind? a (a ++ b) = some b := by
  induction a with
  | nil => rfl
  | cons x a ih => simp [behind?, ih]

theorem behind?_eq_some {a b rest : List Name} : behind? a b = some rest ↔ b = a ++ rest := by
  constructor
  · intro h
    fun_induction behind? a b with
    | case1 => simp_all
    | case2 => simp at h
    | case3 a as bs ih => simp [ih h]
    | case4 => simp at h
  · rintro rfl
    exact behind?_append a rest

end Path

end SdkWiring
