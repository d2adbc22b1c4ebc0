import SdkWiring.Diff.Shortest

/-!
# Sliding blocks

Added items that are repeated next to them can be told in several places. Blocks are slid up and
then down as far as they go, so that blocks of a kind which meet are joined.

* `Diff.slideUp`, `Diff.slideDown`: one block between its neighbours.
* `Diff.changes`: the difference between two texts as it is told.
-/

namespace SdkWiring.Diff

variable {α : Type}

/-- A block between those before it, the nearest first, and those behind it. -/
structure Place (α : Type) where
  before : List (Block α)
  block : Block α
  behind : List (Block α)

/-- How much there is to slide over. -/
def weight : List (Block α) → Nat
  | [] => 0
  | b :: rest => b.items.length + 1 + weight rest

theorem weight_cons (b : Block α) (rest : List (Block α)) :
    weight (b :: rest) = b.items.length + 1 + weight rest := rfl

/-- Kept items before other blocks, if there are any. -/
def keepSome (items : List α) (rest : List (Block α)) : List (Block α) :=
  if items.isEmpty then rest else ⟨.kept, items⟩ :: rest

theorem weight_keepSome_lt {items more : List α} (kind : Kind) (rest : List (Block α))
    (h : items.length < more.length) :
    weight (keepSome items rest) < weight (⟨kind, more⟩ :: rest) := by
  unfold keepSome
  split <;> simp only [weight_cons] <;> omega

/-- Blocks with kept items put in front. -/
def keepInFront (items : List α) : List (Block α) → List (Block α)
  | ⟨.kept, more⟩ :: rest => ⟨.kept, items ++ more⟩ :: rest
  | blocks => ⟨.kept, items⟩ :: blocks

/-- Blocks, the nearest first, with kept items put next to them. -/
def keepBehind (items : List α) : List (Block α) → List (Block α)
  | ⟨.kept, more⟩ :: rest => ⟨.kept, more ++ items⟩ :: rest
  | blocks => ⟨.kept, items⟩ :: blocks

variable [DecidableEq α]

/-- A block slid up. Added items change places with equal kept ones, blocks of different kinds
change places, and blocks of a kind are joined. -/
def slideUp (before : List (Block α)) (block : Block α) (behind : List (Block α)) : Place α :=
  match before with
  | [] => ⟨[], block, behind⟩
  | ⟨kind, items⟩ :: rest =>
    if kind = block.kind then slideUp rest ⟨kind, items ++ block.items⟩ behind
    else if kind ≠ .kept then slideUp rest block (⟨kind, items⟩ :: behind)
    else if items = [] then slideUp rest block behind
    else
      let count := if block.kind = .added then commonEnd items block.items else 0
      let left := items.take (items.length - count)
      if left.length < items.length then
        let moved := items.drop (items.length - count)
        let block : Block α :=
          ⟨block.kind, moved ++ block.items.take (block.items.length - count)⟩
        slideUp (keepSome left rest) block (keepInFront moved behind)
      else ⟨before, block, behind⟩
termination_by weight before
decreasing_by
  · simp only [weight_cons]; omega
  · simp only [weight_cons]; omega
  · simp only [weight_cons]; omega
  · exact weight_keepSome_lt kind rest (by assumption)

/-- A block slid down, in the same way. -/
def slideDown (before : List (Block α)) (block : Block α) (behind : List (Block α)) : Place α :=
  match behind with
  | [] => ⟨before, block, []⟩
  | ⟨kind, items⟩ :: rest =>
    if kind = block.kind then slideDown before ⟨kind, block.items ++ items⟩ rest
    else if kind ≠ .kept then slideDown (⟨kind, items⟩ :: before) block rest
    else if items = [] then slideDown before block rest
    else
      let count := if block.kind = .added then commonStart items block.items else 0
      let left := items.drop count
      if left.length < items.length then
        let moved := items.take count
        let block : Block α := ⟨block.kind, block.items.drop count ++ moved⟩
        slideDown (keepBehind moved before) block (keepSome left rest)
      else ⟨before, block, behind⟩
termination_by weight behind
decreasing_by
  · simp only [weight_cons]; omega
  · simp only [weight_cons]; omega
  · simp only [weight_cons]; omega
  · exact weight_keepSome_lt kind rest (by assumption)

/-- The blocks with all of one kind slid, in at most so many steps. -/
def slideAll (kind : Kind) : Nat → List (Block α) → List (Block α) → List (Block α)
  | 0, before, behind => before.reverse ++ behind
  | _ + 1, before, [] => before.reverse
  | steps + 1, before, block :: behind =>
    if block.kind = kind then
      let up := slideUp before block behind
      let place := slideDown up.before up.block up.behind
      slideAll kind steps (place.block :: place.before) place.behind
    else slideAll kind steps (block :: before) behind

/-- The blocks with all removed and then all added ones slid. -/
def settle (blocks : List (Block α)) : List (Block α) :=
  let steps := (weight blocks + 1) * (weight blocks + 1)
  slideAll .added steps [] (slideAll .removed steps [] blocks)

/-- The blocks between kept ones put together, removed items first. -/
def gather (removed added : List α) : List (Block α) → List (Block α)
  | [] => Block.ofItems .removed removed ++ Block.ofItems .added added
  | ⟨.removed, items⟩ :: rest => gather (removed ++ items) added rest
  | ⟨.added, items⟩ :: rest => gather removed (added ++ items) rest
  | ⟨.kept, items⟩ :: rest =>
    Block.ofItems .removed removed ++ Block.ofItems .added added
      ++ Block.ofItems .kept items ++ gather [] [] rest

/-- The difference between two texts, line by line. -/
def changes (old new : Text) : List (Kind × Text) :=
  (gather [] [] (settle (shortest (lines old) (lines new)))).flatMap fun block =>
    block.items.map fun line => (block.kind, line)

end SdkWiring.Diff
