import SdkWiring.Text.Basic

/-!
# Blocks of a difference

The difference between two lists is a list of blocks: items that both have, items that only the old
one has, and items that only the new one has.

* `Block.old`, `Block.new`: the two lists that blocks tell the difference of.
* `Diff.lines`: a text cut into the lines that a difference is told in.
-/

namespace SdkWiring.Diff

variable {α : Type}

/-- What a block says about its items. -/
inductive Kind
  | kept
  | removed
  | added
  deriving DecidableEq, Repr

/-- Neighbouring items of which the same is said. -/
structure Block (α : Type) where
  kind : Kind
  items : List α
  deriving DecidableEq, Repr

namespace Block

/-- The items of the old list. -/
def old (blocks : List (Block α)) : List α :=
  (blocks.filter (·.kind ≠ .added)).flatMap items

/-- The items of the new list. -/
def new (blocks : List (Block α)) : List α :=
  (blocks.filter (·.kind ≠ .removed)).flatMap items

/-- A block, unless it would be empty. -/
def ofItems (kind : Kind) (items : List α) : List (Block α) :=
  if items.isEmpty then [] else [⟨kind, items⟩]

end Block

/-- A text cut into lines, each with its end: a line feed, a carriage return, or both. -/
def lines : Text → List Text
  | [] => []
  | c :: rest =>
    if c = '\n' ∨ (c = '\r' ∧ rest.head? ≠ some '\n') then [c] :: lines rest
    else
      match lines rest with
      | [] => [[c]]
      | line :: more => (c :: line) :: more

/-- Nothing is lost or added by cutting a text into lines. -/
theorem flatten_lines (t : Text) : (lines t).flatten = t := by
  induction t with
  | nil => rfl
  | cons c t ih =>
    unfold lines
    split
    · simp [ih]
    · split
      · simp_all
      · simp_all

end SdkWiring.Diff
