import SdkWiring.Scan.Position

/-!
# Rules over a scan

A rule reacts to positions: where its condition holds, it changes a state. At every position the
rules are asked in order, and each sees what the ones before it did there.

* `Rule.react`: one rule at one position.
* `observe`: all rules at one position.
* `observeAll`: all rules at all positions.
-/

namespace SdkWiring

variable {σ : Type}

/-- A condition on the state and a position, and what to do with the state where it holds. -/
structure Rule (σ : Type) where
  applies : σ → Position → Bool
  act : σ → Position → σ

namespace Rule

/-- The state after a rule was asked at a position. -/
def react (r : Rule σ) (s : σ) (p : Position) : σ :=
  if r.applies s p then r.act s p else s

end Rule

/-- The state after all rules were asked, in order, at a position. -/
def observe (rules : List (Rule σ)) (s : σ) (p : Position) : σ :=
  rules.foldl (fun s r => r.react s p) s

/-- The state after all rules were asked at all positions. -/
def observeAll (rules : List (Rule σ)) (s : σ) (ps : List Position) : σ :=
  ps.foldl (observe rules) s

@[simp] theorem observe_nil (s : σ) (p : Position) : observe [] s p = s := rfl

@[simp] theorem observe_cons (r : Rule σ) (rules : List (Rule σ)) (s : σ) (p : Position) :
    observe (r :: rules) s p = observe rules (r.react s p) p := rfl

@[simp] theorem observeAll_nil (rules : List (Rule σ)) (s : σ) : observeAll rules s [] = s := rfl

@[simp] theorem observeAll_cons (rules : List (Rule σ)) (s : σ) (p : Position)
    (ps : List Position) :
    observeAll rules s (p :: ps) = observeAll rules (observe rules s p) ps := rfl

theorem observeAll_append (rules : List (Rule σ)) (s : σ) (ps qs : List Position) :
    observeAll rules s (ps ++ qs) = observeAll rules (observeAll rules s ps) qs :=
  List.foldl_append

end SdkWiring
