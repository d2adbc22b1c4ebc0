import SdkWiring.Proofs.Scan.Stretch
import Mathlib.Data.Finset.Lattice.Fold
import Mathlib.Data.Int.Order.Basic
import Mathlib.Order.Interval.Finset.Nat

/-!
# Levels as balances

A scan counts braces up and down and never goes below zero. What it counts is the balance of the
braces so far, measured from the lowest balance that was reached: a closing brace without an opening
one lowers both and so counts for nothing.

* `depth_concat`: what one more position does to a depth.
* `level_of_split`: the level of a position is a depth of braces.
* `depth_above`: as long as a scan stays inside a brace, the depth is told by the balance.
* `level_eq_depth`: levels in closed form, and what stands between a brace and the one that closes
  it.
-/

namespace SdkWiring

/-- How many more live characters `o` than `c` there are in a list of positions. -/
def balance (o c : Char) (ps : List Position) : Int :=
  (ps.countP (·.live o) : Int) - ps.countP (·.live c)

/-- The lowest balance of a first part of a list, the empty one and the list itself included. -/
def lowest (o c : Char) (ps : List Position) : Int :=
  (Finset.range (ps.length + 1)).inf' Finset.nonempty_range_add_one fun k => balance o c (ps.take k)

/-- How many of the live characters `o` are not closed by a live character `c`: the balance, less
the lowest one on the way there. -/
def depth (o c : Char) (ps : List Position) : Int := balance o c ps - lowest o c ps

variable {quoting : Quoting} {t x after : Text} {o c : Char} {p q : Position}
  {ps xs ys us : List Position}

@[simp] theorem balance_nil : balance o c [] = 0 := rfl

theorem balance_concat : balance o c (ps ++ [p]) =
    balance o c ps + (if p.live o then 1 else 0) - (if p.live c then 1 else 0) := by
  simp only [balance, List.countP_append, List.countP_singleton]
  split <;> split <;> omega

theorem lowest_concat :
    lowest o c (ps ++ [p]) = min (lowest o c ps) (balance o c (ps ++ [p])) := by
  have htake : ∀ k ∈ Finset.range (ps.length + 1),
      balance o c ((ps ++ [p]).take k) = balance o c (ps.take k) := by
    intro k hk
    rw [List.take_append_of_le_length (by simpa [Nat.lt_succ_iff] using hk)]
  have hall : (ps ++ [p]).take (ps.length + 1) = ps ++ [p] := List.take_of_length_le (by simp)
  unfold lowest
  simp only [List.length_append, List.length_singleton, Finset.range_add_one (n := ps.length + 1)]
  rw [Finset.inf'_insert Finset.nonempty_range_add_one, hall, Finset.inf'_congr _ rfl htake]
  exact min_comm _ _

theorem lowest_le_balance (o c : Char) (ps : List Position) : lowest o c ps ≤ balance o c ps := by
  have h := Finset.inf'_le (fun k => balance o c (ps.take k))
    (Finset.self_mem_range_succ ps.length)
  rwa [List.take_length] at h

@[simp] theorem depth_nil : depth o c [] = 0 := by simp [depth, lowest]

/-- **What one more position does to a depth.** An opening character raises it, a closing one lowers
it unless it is zero. -/
theorem depth_concat (hne : o ≠ c) : depth o c (ps ++ [p]) =
    if p.live o then depth o c ps + 1
    else if p.live c then max (depth o c ps - 1) 0
    else depth o c ps := by
  have hle := lowest_le_balance o c ps
  unfold depth
  rw [lowest_concat, balance_concat]
  by_cases ho : p.live o = true
  · simp only [ho, Position.not_live_of_live hne ho, if_true]
    simp
    omega
  · -- a closing character at depth zero takes the lowest balance down with it
    by_cases hc : p.live c = true <;> simp [ho, hc] <;> omega

theorem depth_open (hne : o ≠ c) (hp : p.live o = true) :
    depth o c (ps ++ [p]) = depth o c ps + 1 := by
  rw [depth_concat hne, if_pos hp]

theorem depth_close (hne : o ≠ c) (hp : p.live c = true) :
    depth o c (ps ++ [p]) = max (depth o c ps - 1) 0 := by
  rw [depth_concat hne, Position.not_live_of_live hne.symm hp, hp]
  simp

/-- What one character does to the level that a scan carries. -/
theorem level_step (m : Mode) (before after : Text) (c : Char) (next : Option Char) :
    ((m.step quoting c next).level : Int) =
      if (m.place before c after).live '{' then (m.level : Int) + 1
      else if (m.place before c after).live '}' then max ((m.level : Int) - 1) 0
      else m.level := by
  by_cases hcode : m.context.isCode = true
  · by_cases hopen : c = '{'
    · simp [Mode.step, Mode.place, Position.live, levelAfter, levelAt, hcode, hopen]
    · by_cases hclose : c = '}'
      · simp [Mode.step, Mode.place, Position.live, levelAfter, levelAt, hcode, hclose]
        omega
      · simp [Mode.step, Mode.place, Position.live, levelAfter, levelAt, hopen, hclose]
  · simp [Mode.step, Mode.place, Position.live, levelAfter, levelAt, hcode]

/-- The level that a scan carries is the depth of braces. -/
theorem level_behind (quoting : Quoting) (x after : Text) :
    ((Mode.start.behind quoting x after.head?).level : Int) =
      depth '{' '}' (stretch quoting .start [] x after) := by
  induction x using List.reverseRecOn generalizing after with
  | nil => rfl
  | append_singleton x c ih =>
    have hlevel := ih (c :: after)
    rw [List.head?_cons] at hlevel
    rw [behind_append, stretch_append, List.singleton_append, List.head?_cons, stretch_cons,
      stretch_nil, depth_concat (by decide), ← hlevel]
    exact level_step _ _ _ _ _

/-- The level of a position is the depth of the braces before it, itself included if it closes
one. -/
theorem level_of_split (h : positions quoting t = xs ++ p :: ys) :
    (p.level : Int) = depth '{' '}' (if p.live '}' then xs ++ [p] else xs) := by
  obtain ⟨-, hxs, -, hp⟩ := positions_split h
  have hlevel := level_behind quoting p.backpart p.forepart
  rw [← hxs, Position.forepart, List.head?_cons] at hlevel
  have hsig : p.significant =
      (Mode.start.behind quoting p.backpart (some p.char)).context.isCode :=
    congrArg Position.significant hp
  have hat : p.level = levelAt p.significant p.char
      (Mode.start.behind quoting p.backpart (some p.char)).level := by
    rw [hsig]
    exact congrArg Position.level hp
  rw [hat, levelAt]
  by_cases hclose : p.live '}' = true
  · rw [if_pos hclose, depth_close (by decide) hclose, ← hlevel]
    rw [Position.live] at hclose
    simp only [hclose, if_true]
    omega
  · rw [if_neg hclose, ← hlevel]
    rw [Position.live] at hclose
    simp [hclose]

/-- **Inside a brace** the depth is one more than where it was opened, and the balance since then. -/
theorem depth_above (h : positions quoting t = xs ++ p :: (us ++ ys)) (hp : p.live '{' = true)
    (hus : ∀ u ∈ us, p.level + 1 ≤ u.level) :
    depth '{' '}' (xs ++ p :: us) = p.level + 1 + balance '{' '}' us ∧
      (p.level + 1 : Int) ≤ depth '{' '}' (xs ++ p :: us) := by
  -- until the brace is closed the depth stays above zero, so no closing brace is lost
  induction us using List.reverseRecOn generalizing ys with
  | nil =>
    have hclose := Position.not_live_of_live (d := '}') (by decide) hp
    have hlevel := level_of_split h
    rw [hclose, if_neg (by decide)] at hlevel
    rw [depth_open (by decide) hp, ← hlevel]
    simp
  | append_singleton us u ih =>
    rw [List.append_assoc, List.singleton_append] at h
    obtain ⟨hdepth, hle⟩ := ih h fun v hv => hus v (by simp [hv])
    have hsplit : positions quoting t = (xs ++ p :: us) ++ u :: ys := by simpa using h
    have hu : (p.level + 1 : Int) ≤ u.level := by exact_mod_cast hus u (by simp)
    rw [level_of_split hsplit] at hu
    have hconcat : depth '{' '}' (xs ++ p :: (us ++ [u])) =
        depth '{' '}' ((xs ++ p :: us) ++ [u]) := by
      simp
    rw [hconcat, balance_concat]
    by_cases hclose : u.live '}' = true
    · have hopen := Position.not_live_of_live (d := '{') (by decide) hclose
      rw [if_pos hclose, depth_close (by decide) hclose] at hu
      rw [depth_close (by decide) hclose, hopen, hclose]
      simp only [if_true, if_false, Bool.false_eq_true]
      omega
    · rw [Bool.not_eq_true] at hclose
      rw [depth_concat (by decide), hclose]
      split <;> simp <;> omega

/-- **Levels in closed form.** A closing brace is reported at the depth behind it, any other
character at the depth before it. So whatever stands behind an opening brace is reported at a higher
level, up to a closing brace at the same level, and the braces in between balance. -/
theorem level_eq_depth (h : positions quoting t = xs ++ p :: ys) :
    (p.level : Int) = depth '{' '}' (if p.live '}' then xs ++ [p] else xs) ∧
      (p.live '{' = true → (∀ q ∈ ys, p.level + 1 ≤ q.level) ∨
        ∃ us q vs, ys = us ++ q :: vs ∧ (∀ u ∈ us, p.level + 1 ≤ u.level) ∧
          q.live '}' = true ∧ q.level = p.level ∧
          us.countP (·.live '{') = us.countP (·.live '}')) := by
  refine ⟨level_of_split h, fun hp => ?_⟩
  cases hfind : ys.find? (fun q => decide (q.level ≤ p.level)) with
  | none =>
    left
    intro q hq
    have := List.find?_eq_none.1 hfind q hq
    simp only [decide_eq_true_eq] at this
    omega
  | some q =>
    right
    obtain ⟨hq, us, vs, rfl, hus⟩ := List.find?_eq_some_iff_append.1 hfind
    have hus : ∀ u ∈ us, p.level + 1 ≤ u.level := by
      intro u hu
      have := hus u hu
      simp only [Bool.not_eq_true', decide_eq_false_iff_not] at this
      omega
    obtain ⟨hdepth, hle⟩ := depth_above h hp hus
    have hsplit : positions quoting t = (xs ++ p :: us) ++ q :: vs := by simpa using h
    have hlevel := level_of_split hsplit
    simp only [decide_eq_true_eq] at hq
    -- only a closing brace is reported below the depth before it
    by_cases hclose : q.live '}' = true
    · rw [if_pos hclose, depth_close (by decide) hclose] at hlevel
      refine ⟨us, q, vs, rfl, hus, hclose, by omega, ?_⟩
      have hbalance : balance '{' '}' us = 0 := by omega
      unfold balance at hbalance
      omega
    · rw [if_neg hclose] at hlevel
      omega

/-- A brace behind one that closes nothing. -/
theorem level_eq_depth_strayCloser : ∃ xs p ys,
    positions .c ['}', 'a', '{', 'b', '}'] = xs ++ p :: ys ∧ p.live '{' = true ∧
      (p.level : Int) = depth '{' '}' (if p.live '}' then xs ++ [p] else xs) ∧
      ((∀ q ∈ ys, p.level + 1 ≤ q.level) ∨
        ∃ us q vs, ys = us ++ q :: vs ∧ (∀ u ∈ us, p.level + 1 ≤ u.level) ∧
          q.live '}' = true ∧ q.level = p.level ∧
          us.countP (·.live '{') = us.countP (·.live '}')) := by
  have h : positions .c ['}', 'a', '{', 'b', '}'] =
      [⟨[], '}', ['a', '{', 'b', '}'], true, 0⟩, ⟨['}'], 'a', ['{', 'b', '}'], true, 0⟩] ++
        ⟨['a', '}'], '{', ['b', '}'], true, 0⟩ ::
          [⟨['{', 'a', '}'], 'b', ['}'], true, 1⟩, ⟨['b', '{', 'a', '}'], '}', [], true, 0⟩] := by
    decide
  exact ⟨_, _, _, h, rfl, (level_eq_depth h).1, (level_eq_depth h).2 rfl⟩

end SdkWiring
