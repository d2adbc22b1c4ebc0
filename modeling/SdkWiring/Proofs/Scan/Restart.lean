import SdkWiring.Proofs.Scan.Stretch

/-!
# Cutting a text before it is scanned

What a scan reports of a character is settled by the text up to that character, whatever follows: the
one character that the scan looks ahead tells the context behind it only. And at a live character at
the top level the scan has nothing to remember. It goes on there as if the text began there, also at
the closing brace that brings the level down to zero.

* `map_report_stretch`: what follows a piece of text does not matter in it.
* `stretch_restart`, `behind_restart`: at the top level a scan goes on as one that starts there.
* `positions_append_restart`: **both for every cut of every text.**
-/

namespace SdkWiring

variable {quoting : Quoting} {m : Mode} {b b' t a a' x y z : Text} {c : Char} {p : Position} {l : Nat}

/-- What a scan reports of a character, besides the text around it. -/
def Position.report (p : Position) : Bool × Nat := (p.significant, p.level)

/-- A position with more text before it. -/
def Position.shift (x : Text) (p : Position) : Position := { p with before := p.before ++ x.reverse }

@[simp] theorem Position.report_shift : (p.shift x).report = p.report := rfl

@[simp] theorem Position.offset_shift : (p.shift x).offset = x.size + p.offset := by
  simp [Position.offset, Position.shift, Nat.add_comm]

/-! ### What follows does not matter -/

/-- **The reports about a piece of text** depend on the piece and on the mode before it only. -/
theorem map_report_stretch :
    (stretch quoting m b t a).map Position.report = (stretch quoting m b' t a').map Position.report := by
  induction t generalizing m b b' with
  | nil => rfl
  | cons c t ih =>
    rw [stretch_cons, stretch_cons, List.map_cons, List.map_cons]
    refine List.cons_eq_cons.2 ⟨rfl, ?_⟩
    -- the look ahead from `c` stays in the piece, or nothing of the piece is left
    cases t with
    | nil => rfl
    | cons d t => exact ih

/-- The scan of a text up to a cut. -/
theorem take_positions : (positions quoting (x ++ y)).take x.length = stretch quoting .start [] x y := by
  rw [positions_eq_stretch, stretch_append, List.append_nil,
    List.take_left' (length_stretch (t := x))]

/-- The scan of a text from a cut on. -/
theorem drop_positions : (positions quoting (x ++ y)).drop x.length =
    stretch quoting (Mode.start.behind quoting x y.head?) x.reverse y [] := by
  rw [positions_eq_stretch, stretch_append, List.append_nil, List.append_nil,
    List.drop_left' (length_stretch (t := x))]

/-! ### Starting anew -/

theorem levelAt_zero (c : Char) : levelAt true c 0 = 0 := by
  rw [levelAt]
  split <;> rfl

/-- At the top level a scan goes on as one that starts there. -/
theorem stretch_restart (h : levelAt true c l = 0) :
    stretch quoting ⟨.code, l⟩ b (c :: t) a = stretch quoting .start b (c :: t) a := by
  rw [stretch_cons, stretch_cons]
  simp only [Mode.place, Mode.step, Mode.start, Context.isCode, h, levelAt_zero]

/-- The text before a piece is carried along only. -/
theorem stretch_shift :
    stretch quoting m (b ++ x.reverse) t a = (stretch quoting m b t a).map (Position.shift x) := by
  induction t generalizing m b with
  | nil => rfl
  | cons c t ih =>
    rw [stretch_cons, stretch_cons, List.map_cons, ← ih]
    rfl

theorem behind_restart {next : Option Char} (h : levelAt true c l = 0) :
    (Mode.mk .code l).behind quoting (c :: t) next = Mode.start.behind quoting (c :: t) next := by
  rw [behind_cons, behind_cons]
  simp only [Mode.step, Mode.start, Context.isCode, h, levelAt_zero]

/-- **The scan is causal, and starts anew at the top level.** What is reported about the characters
before a cut does not depend on the text behind it. The positions behind the cut are those of the text
behind it alone, with the text before it put in front, just if the first of them is live and at the
top level. -/
theorem positions_append_restart (quoting : Quoting) (x y z : Text) :
    ((positions quoting (x ++ y)).take x.length).map Position.report =
        ((positions quoting (x ++ z)).take x.length).map Position.report ∧
      ((positions quoting (x ++ y)).drop x.length = (positions quoting y).map (Position.shift x) ↔
        ∀ p ∈ (positions quoting (x ++ y))[x.length]?, p.report = (true, 0)) := by
  refine ⟨by rw [take_positions, take_positions, map_report_stretch], ?_⟩
  rw [← List.head?_drop, drop_positions, positions_eq_stretch, ← stretch_shift, List.nil_append]
  cases y with
  | nil => simp
  | cons c t =>
    have hhead : ∀ m : Mode, (stretch quoting m x.reverse (c :: t) []).head? =
        some (m.place x.reverse c (t ++ [])) := fun m => rfl
    rw [hhead]
    constructor
    · -- the scan of the text alone starts in live code at level zero
      intro h p hp
      obtain rfl := Option.some.inj hp
      have hfirst := congrArg List.head? h
      rw [hhead, hhead] at hfirst
      rw [Option.some.inj hfirst]
      exact Prod.ext rfl (levelAt_zero c)
    · intro h
      cases hm : Mode.start.behind quoting x (c :: t).head? with
      | mk context l =>
        rw [hm] at h
        obtain ⟨hcode, hlevel⟩ := Prod.mk.inj (h _ rfl)
        have hcode : context.isCode = true := hcode
        obtain rfl : context = .code := by
          cases context with
          | code => rfl
          | _ => cases hcode
        exact stretch_restart hlevel

/-- A brace that closes the one in front of the cut starts anew, with the comment behind it. -/
example : (positions .c "\x7b\x7d // \x7b".toList).drop 1 =
    (positions .c "\x7d // \x7b".toList).map (Position.shift ['\x7b']) := by
  decide

end SdkWiring
