import SdkWiring.Proofs.Delegate.Step
import SdkWiring.Proofs.Scan.Stretch
import Mathlib.Tactic.Common

/-!
# Surveys over a run of positions

Whatever a survey says behind a run of positions it said before, or one position of the run made it
so. What that position looks like is read off the closed form of a step.

* `Recipe.analyze_congr`: what a scan depends on.
* `Recipe.exists_step`: the position that made a property of the survey true.
* `Recipe.origin_body`, `origin_endOfImports`, `origin_call`: where landmarks come from.
* `Recipe.orderly_run`: nothing is found before the delegate type is.
-/

namespace SdkWiring

/-- The body that a survey settles for so far. -/
def Survey.body? (s : Survey) : Option Nat := s.preferredBody.or s.firstBody

namespace Recipe

variable {r r' : Recipe} {s : Survey} {p : Position} {ps qs : List Position} {call : Span}
  {content : Text} {m : Nat}

/-- The survey behind a list of positions. -/
def run (r : Recipe) (s : Survey) (ps : List Position) : Survey := ps.foldl r.survey s

@[simp] theorem run_nil : r.run s [] = s := rfl

@[simp] theorem run_cons : r.run s (p :: ps) = r.run (r.survey s p) ps := rfl

theorem run_append : r.run s (ps ++ qs) = r.run (r.run s ps) qs := List.foldl_append

theorem observeAll_rules (r : Recipe) (s : Survey) (ps : List Position) :
    observeAll r.rules s ps = r.run s ps := by
  induction ps generalizing s with
  | nil => rfl
  | cons p ps ih => rw [observeAll_cons, observe_rules, ih, run_cons]

/-- The survey behind a whole text. -/
def surveyed (r : Recipe) (content : Text) : Survey :=
  r.run {} (positions r.language.quoting content)

theorem analyze_eq (r : Recipe) (content : Text) :
    r.analyze content = (r.surveyed content).landmarks := by
  rw [analyze, observeAll_rules, surveyed]

theorem methodBody_analyze (r : Recipe) (content : Text) :
    (r.analyze content).methodBody = (r.surveyed content).body? := by
  rw [analyze_eq]
  rfl

/-- A scan depends on the language and on what is looked for. -/
theorem analyze_congr (hl : r'.language = r.language) (ht : r'.typeName = r.typeName)
    (hm : r'.methodName = r.methodName) (hr : r'.receiver = r.receiver)
    (hs : r'.selector = r.selector) : r'.analyze = r.analyze := by
  have hrules : r'.rules = r.rules := by
    rw [rules, rules, hl]
    cases r.language with
    | swift =>
      have htype : Swift.typeHeader r' = Swift.typeHeader r := by
        rw [Swift.typeHeader, Swift.typeHeader, ht]
      have hmethod : Swift.methodHeader r' = Swift.methodHeader r := by
        rw [Swift.methodHeader, Swift.methodHeader, hm]
      have hcall : Swift.callShape r' = Swift.callShape r := by
        rw [Swift.callShape, Swift.callShape, hr, hs]
      change Swift.rules r' = Swift.rules r
      rw [Swift.rules, Swift.rules, Swift.openType, Swift.openType, Swift.recordCall, Swift.recordCall,
        htype, hmethod, hcall, hr]
    | objectiveC =>
      have htype : ObjectiveC.typeMarker r' = ObjectiveC.typeMarker r := by
        rw [ObjectiveC.typeMarker, ObjectiveC.typeMarker, ht]
      have hmethod : ObjectiveC.methodHeader r' = ObjectiveC.methodHeader r := by
        rw [ObjectiveC.methodHeader, ObjectiveC.methodHeader, hm]
      have hcall : ObjectiveC.callShape r' = ObjectiveC.callShape r := by
        rw [ObjectiveC.callShape, ObjectiveC.callShape, hr, hs]
      change ObjectiveC.rules r' = ObjectiveC.rules r
      rw [ObjectiveC.rules, ObjectiveC.rules, ObjectiveC.openType, ObjectiveC.openType,
        ObjectiveC.recordCall, ObjectiveC.recordCall, htype, hmethod, hcall]
  funext content
  rw [analyze, analyze, hrules, hl]

/-- **A property of a survey behind a run held before, or came about at one position.** -/
theorem exists_step {P : Survey → Prop} (h : P (r.run s ps)) :
    P s ∨ ∃ xs p ys, ps = xs ++ p :: ys ∧ ¬ P (r.run s xs) ∧ P (r.survey (r.run s xs) p) := by
  induction ps generalizing s with
  | nil => exact .inl h
  | cons p ps ih =>
    rw [run_cons] at h
    rcases ih h with hp | ⟨xs, q, ys, rfl, hn, hq⟩
    · by_cases hs : P s
      · exact .inl hs
      · exact .inr ⟨[], p, ps, rfl, hs, hp⟩
    · exact .inr ⟨p :: xs, q, ys, rfl, hn, hq⟩

/-- A property that every position preserves is preserved by a run. -/
theorem run_induction {P : Survey → Prop} (hs : P s)
    (hstep : ∀ s, ∀ p ∈ ps, P s → P (r.survey s p)) : P (r.run s ps) := by
  induction ps generalizing s with
  | nil => exact hs
  | cons p ps ih =>
    exact ih (hstep s p (by simp) hs) fun s q hq => hstep s q (by simp [hq])

/-- A position that opens a method inside the type, behind a run. -/
structure Enters (r : Recipe) (s : Survey) (p : Position) : Prop where
  inType : s.inType = true
  opens : r.opensMethod s.header p = true

theorem Enters.live (h : r.Enters s p) : p.live '{' = true := by
  have ho := h.opens
  simp only [opensMethod, Bool.and_eq_true] at ho
  exact ho.1.2

theorem Enters.char_eq (h : r.Enters s p) : p.char = '{' := (Position.live_iff.1 h.live).2

theorem Enters.significant (h : r.Enters s p) : p.significant = true :=
  (Position.live_iff.1 h.live).1

theorem Enters.level_eq (h : r.Enters s p) : p.level = r.methodLevel := by
  have ho := h.opens
  simp only [opensMethod, Bool.and_eq_true, beq_iff_eq] at ho
  exact ho.1.1

/-- The brace of a method is behind it inside the method, and inside the type. -/
theorem Enters.survey (h : r.Enters s p) :
    (r.survey s p).inMethod = true ∧ (r.survey s p).inType = true := by
  obtain ⟨-, hc⟩ := opensMethod_exclusive h.opens
  simp only [Recipe.survey, h.inType, h.opens, hc, closesMethod, Position.live, h.char_eq]
  simp

/-- A method body starts behind a brace that opens a method. -/
theorem origin_body (h : (r.run {} ps).body? = some m) :
    ∃ xs p ys, ps = xs ++ p :: ys ∧ p.offset + 1 = m ∧ r.Enters (r.run {} xs) p := by
  have hbody : (r.run {} ps).firstBody = some m ∨ (r.run {} ps).preferredBody = some m := by
    unfold Survey.body? at h
    cases hp : (r.run {} ps).preferredBody with
    | none => exact .inl (by simpa [hp] using h)
    | some b => exact .inr (by simpa [hp] using h)
  have hstep := exists_step (P := fun s => s.firstBody = some m ∨ s.preferredBody = some m) hbody
  rcases hstep with h | ⟨xs, p, ys, rfl, hn, hp⟩
  · simp at h
  · refine ⟨xs, p, ys, rfl, ?_⟩
    simp only [not_or] at hn
    simp only [survey, Option.or_eq_some_iff, hn.1, hn.2, false_or] at hp
    rcases hp with ⟨-, hp⟩ | ⟨-, hp⟩
    · rw [Option.ite_none_right_eq_some, Bool.and_eq_true, Option.some.injEq] at hp
      exact ⟨hp.2, hp.1.1, hp.1.2⟩
    · rw [Option.ite_none_right_eq_some, Bool.and_eq_true, Bool.and_eq_true,
        Option.some.injEq] at hp
      exact ⟨hp.2, hp.1.1.1, hp.1.1.2⟩

/-- The imports end at a position at which an import line ended, before the type. -/
theorem origin_endOfImports (h : (r.run {} ps).endOfImports = some m) :
    ∃ xs p ys, ps = xs ++ p :: ys ∧ p.offset = m ∧ (r.run {} xs).typeSeen = false ∧
      r.endsImports p = true := by
  have hstep := exists_step (P := fun s => s.endOfImports = some m) h
  rcases hstep with h | ⟨xs, p, ys, rfl, hn, hp⟩
  · simp at h
  · refine ⟨xs, p, ys, rfl, ?_⟩
    simp only [survey] at hp
    split at hp
    · rename_i hends
      simp only [Bool.and_eq_true, Bool.not_eq_true'] at hends
      exact ⟨Option.some.inj hp, hends.1, hends.2⟩
    · exact absurd hp hn

/-- A start call stands at a position inside a method. -/
theorem origin_call (h : call ∈ (r.run s ps).startCalls) :
    call ∈ s.startCalls ∨ ∃ xs p ys, ps = xs ++ p :: ys ∧
      (r.run s (xs ++ [p])).inMethod = true ∧ r.callAt? p = some call := by
  have hstep := exists_step (P := fun s => call ∈ s.startCalls) h
  rcases hstep with h | ⟨xs, p, ys, rfl, hn, hp⟩
  · exact .inl h
  · refine .inr ⟨xs, p, ys, rfl, ?_⟩
    simp only [survey, List.mem_append, hn, false_or] at hp
    rw [run_append, run_cons, run_nil]
    split at hp
    · rename_i hin
      exact ⟨hin, by simpa using hp⟩
    · simp at hp

/-- Nothing is found before the delegate type is. -/
structure Orderly (s : Survey) : Prop where
  inType : s.typeSeen = false → s.inType = false
  inMethod : s.typeSeen = false → s.inMethod = false
  firstBody : s.typeSeen = false → s.firstBody = none
  preferredBody : s.typeSeen = false → s.preferredBody = none
  startCalls : s.typeSeen = false → s.startCalls = []

theorem orderly_survey (h : Orderly s) (p : Position) : Orderly (r.survey s p) := by
  have hseen : (r.survey s p).typeSeen = false → s.typeSeen = false ∧
      r.opensType s.header p = false := by
    simp [survey]
  constructor <;> intro hn <;> obtain ⟨ht, ho⟩ := hseen hn
  · simp [survey, h.inType ht, ho]
  · simp [survey, h.inType ht, h.inMethod ht]
  · simp [survey, h.inType ht, h.firstBody ht]
  · simp [survey, h.inType ht, h.preferredBody ht]
  · simp [survey, h.inType ht, h.inMethod ht, h.startCalls ht]

theorem orderly_run (h : Orderly s) : Orderly (r.run s ps) :=
  run_induction h fun _ p _ hs => orderly_survey hs p

theorem orderly_start : Orderly {} := by
  constructor <;> intro <;> rfl

/-- Once the type was seen, it stays so. -/
theorem typeSeen_run (h : s.typeSeen = true) : (r.run s ps).typeSeen = true :=
  run_induction (P := fun s => s.typeSeen = true) h fun _ _ _ hs => by simp [survey, hs]

/-- A run in which no position is a start call finds none. -/
theorem startCalls_run (h : ∀ p ∈ ps, r.callAt? p = none) :
    (r.run s ps).startCalls = s.startCalls :=
  run_induction (P := fun t => t.startCalls = s.startCalls) rfl fun t p hp ht => by
    simp [survey, h p hp, ht]

end Recipe

end SdkWiring
