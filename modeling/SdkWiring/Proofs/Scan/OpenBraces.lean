import SdkWiring.Proofs.Scan.Balance

/-!
# Open braces

Which braces a position stands in, told from the positions before it: an opening brace is open until
the one that closes it, and a closing brace without an opening one closes nothing. Positions before
another are given with the nearest first, as text before a position is.

* `openBraces`: the braces that are open behind some positions, the innermost first.
* `length_openBraces`: there are as many as the level tells.
* `any_outermost_cons`: the outermost of them behind one more position.
* `sites`: the positions of a text, each with those before it.
-/

namespace SdkWiring

/-- A position together with the positions before it, the nearest first. -/
structure Site where
  before : List Position
  position : Position
  deriving DecidableEq, Repr

/-- The sites of positions that follow others. -/
def sitesFrom (before : List Position) : List Position → List Site
  | [] => []
  | p :: ps => ⟨before, p⟩ :: sitesFrom (p :: before) ps

/-- The sites of a list of positions, in its order. -/
def sites (ps : List Position) : List Site := sitesFrom [] ps

/-- The braces that are open behind positions, which are given with the nearest first. The innermost
brace comes first. -/
def openBraces : List Position → List Site
  | [] => []
  | p :: before =>
    if p.live '{' then ⟨before, p⟩ :: openBraces before
    else if p.live '}' then (openBraces before).tail
    else openBraces before

variable {quoting : Quoting} {t : Text} {p : Position} {before ps xs ys : List Position}

theorem openBraces_cons (p : Position) (before : List Position) : openBraces (p :: before) =
    if p.live '{' then ⟨before, p⟩ :: openBraces before
    else if p.live '}' then (openBraces before).tail
    else openBraces before := rfl

theorem openBraces_open (hp : p.live '{' = true) :
    openBraces (p :: before) = ⟨before, p⟩ :: openBraces before := by
  rw [openBraces_cons, if_pos hp]

theorem openBraces_close (hp : p.live '}' = true) :
    openBraces (p :: before) = (openBraces before).tail := by
  rw [openBraces_cons, if_pos hp, Position.not_live_of_live (by decide) hp, if_neg (by decide)]

theorem openBraces_other (ho : p.live '{' = false) (hc : p.live '}' = false) :
    openBraces (p :: before) = openBraces before := by
  rw [openBraces_cons, ho, hc, if_neg (by decide), if_neg (by decide)]

/-- **What one position does to the open braces**: it opens one, closes the innermost one, or leaves
them as they are. -/
theorem openBraces_cases (p : Position) (before : List Position) :
    (p.live '{' = true ∧ p.live '}' = false ∧
      openBraces (p :: before) = ⟨before, p⟩ :: openBraces before) ∨
    (p.live '{' = false ∧ p.live '}' = true ∧
      openBraces (p :: before) = (openBraces before).tail) ∨
    (p.live '{' = false ∧ p.live '}' = false ∧ openBraces (p :: before) = openBraces before) := by
  cases ho : p.live '{' with
  | true => exact .inl ⟨rfl, Position.not_live_of_live (by decide) ho, openBraces_open ho⟩
  | false =>
    cases hc : p.live '}' with
    | true => exact .inr (.inl ⟨rfl, rfl, openBraces_close hc⟩)
    | false => exact .inr (.inr ⟨rfl, rfl, openBraces_other ho hc⟩)

theorem sitesFrom_concat :
    sitesFrom before (ps ++ [p]) = sitesFrom before ps ++ [⟨ps.reverse ++ before, p⟩] := by
  induction ps generalizing before with
  | nil => rfl
  | cons q ps ih => simp [sitesFrom, ih]

theorem sites_concat : sites (ps ++ [p]) = sites ps ++ [⟨ps.reverse, p⟩] := by
  rw [sites, sitesFrom_concat, List.append_nil]
  rfl

/-- As many braces are open as the depth tells. -/
theorem length_openBraces (ps : List Position) :
    ((openBraces ps.reverse).length : Int) = depth '{' '}' ps := by
  induction ps using List.reverseRecOn with
  | nil => simp [openBraces]
  | append_singleton ps p ih =>
    rw [List.reverse_concat, depth_concat (by decide), ← ih]
    obtain ⟨ho, -, hb⟩ | ⟨ho, hc, hb⟩ | ⟨ho, hc, hb⟩ := openBraces_cases p ps.reverse
    · rw [hb, if_pos ho, List.length_cons]
      omega
    · rw [hb, ho, hc, List.length_tail]
      simp only [Bool.false_eq_true, if_false, if_true]
      omega
    · rw [hb, ho, hc]
      simp

/-- **The level of a position** is the number of braces that it stands in, without the one that it
closes. -/
theorem level_eq_length (h : positions quoting t = xs ++ p :: ys) : p.level =
    if p.live '}' then (openBraces xs.reverse).length - 1 else (openBraces xs.reverse).length := by
  have hlevel := level_of_split h
  by_cases hc : p.live '}' = true
  · rw [if_pos hc, ← length_openBraces, List.reverse_concat, openBraces_close hc,
      List.length_tail] at hlevel
    rw [if_pos hc]
    omega
  · rw [if_neg hc, ← length_openBraces] at hlevel
    rw [if_neg hc]
    omega

/-- Where no brace is closed, the level is zero just if no brace is open. -/
theorem level_beq_zero (h : positions quoting t = xs ++ p :: ys) (hp : p.live '}' = false) :
    (p.level == 0) = (openBraces xs.reverse).isEmpty := by
  rw [level_eq_length h, hp, if_neg (by decide)]
  cases openBraces xs.reverse <;> rfl

/-- **What one position does to the outermost brace**: it opens it if none is open, or closes it if
the level is zero. -/
theorem any_outermost_cons (f : Site → Bool) (hp : p.level =
      if p.live '}' then (openBraces before).length - 1 else (openBraces before).length) :
    (openBraces (p :: before)).getLast?.any f =
      (((openBraces before).getLast?.any f
        || (p.live '{' && (openBraces before).isEmpty && f ⟨before, p⟩))
        && !(p.level == 0 && p.live '}')) := by
  obtain ⟨ho, hc, hb⟩ | ⟨ho, hc, hb⟩ | ⟨ho, hc, hb⟩ := openBraces_cases p before
  · -- the brace becomes the outermost one just if none is open
    rw [hb, ho, hc]
    cases openBraces before with
    | nil => simp
    | cons a l => simp [List.getLast?_cons_cons]
  · -- the outermost one is closed just if it is the only one
    rw [hb, ho, hp, hc]
    rcases openBraces before with _ | ⟨a, _ | ⟨b, l⟩⟩
    · simp
    · simp
    · simp [List.getLast?_cons_cons]
  · rw [hb, ho, hc]
    simp

end SdkWiring
