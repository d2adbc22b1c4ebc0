import SdkWiring.Proofs.Delegate.HeaderShape
import SdkWiring.Proofs.Delegate.Run
import Mathlib.Data.List.Forall2

/-!
# Surveys that look alike

The same text is scanned in two surroundings. Position by position the two scans look alike, so the
surveys do too, with every body moved as the text is. Headers may differ for a while: what counts is
that no rule can tell them apart.

* `Alike.survey`: one step.
* `Alike.run`: a run, with headers that a relation keeps indistinguishable.
* `Alike.run_deep`: a run inside a method, with any headers.
-/

namespace SdkWiring

/-- Two positions that rules look at in the same way. -/
structure Twin (r : Recipe) (p q : Position) : Prop where
  char : p.char = q.char
  significant : p.significant = q.significant
  level : p.level = q.level
  opensComment : p.opensComment = q.opensComment
  typeMarker : r.language = .objectiveC →
    (ObjectiveC.typeMarker r).matchesAt p.cursor = (ObjectiveC.typeMarker r).matchesAt q.cursor
  endMarker : r.language = .objectiveC →
    ObjectiveC.endMarker.isPrefixOf p.forepart = ObjectiveC.endMarker.isPrefixOf q.forepart

/-- Positions that rules look at in the same way, with bodies behind them that correspond. -/
structure Matched (r : Recipe) (φ : Nat → Nat) (p q : Position) : Prop where
  twin : Twin r p q
  moved : φ (p.offset + 1) = q.offset + 1

/-- Two surveys with the same flags and with bodies that correspond. -/
structure Alike (φ : Nat → Nat) (s t : Survey) : Prop where
  inType : s.inType = t.inType
  typeSeen : s.typeSeen = t.typeSeen
  inMethod : s.inMethod = t.inMethod
  firstBody : s.firstBody.map φ = t.firstBody
  preferredBody : s.preferredBody.map φ = t.preferredBody

variable {r : Recipe} {p q : Position} {ps qs : List Position} {s t : Survey} {φ : Nat → Nat}
  {h k : Header} {m : Nat}

namespace Twin

theorem live (w : Twin r p q) (c : Char) : p.live c = q.live c := by
  rw [Position.live, Position.live, w.char, w.significant]

theorem next (w : Twin r p q) (h : Header) : h.next p = h.next q := by
  have hends : p.endsHeader = q.endsHeader := by
    rw [Position.endsHeader, Position.endsHeader, w.char, w.significant]
  have hplain : p.isPlain = q.isPlain := by
    rw [Position.isPlain, Position.isPlain, w.char, w.significant, w.opensComment]
  rw [Header.next, Header.next, Header.record, Header.record, hends, hplain, w.char]

theorem opensType (w : Twin r p q) (h : Header) : r.opensType h p = r.opensType h q := by
  unfold Recipe.opensType
  cases hl : r.language with
  | swift => simp only [w.level, w.live]
  | objectiveC => simp only [w.level, w.significant, w.typeMarker hl]

theorem closesType (w : Twin r p q) : r.closesType p = r.closesType q := by
  unfold Recipe.closesType
  cases hl : r.language with
  | swift => simp only [w.level, w.live]
  | objectiveC => simp only [w.level, w.significant, w.endMarker hl]

theorem opensMethod (w : Twin r p q) (h : Header) : r.opensMethod h p = r.opensMethod h q := by
  simp only [Recipe.opensMethod, w.level, w.live]

theorem closesMethod (w : Twin r p q) : r.closesMethod p = r.closesMethod q := by
  simp only [Recipe.closesMethod, w.level, w.live]

end Twin

namespace Alike

theorem body? (a : Alike φ s t) : s.body?.map φ = t.body? := by
  rw [Survey.body?, Survey.body?, ← a.firstBody, ← a.preferredBody]
  cases s.preferredBody <;> rfl

/-- Both surveys behind positions that look alike, if the headers make no difference there. -/
theorem survey (a : Alike φ s t) (w : Twin r p q) (hφ : φ (p.offset + 1) = q.offset + 1)
    (htype : r.opensType s.header p = r.opensType t.header p)
    (hmethod : s.inType = true → r.opensMethod s.header p = r.opensMethod t.header p ∧
      (r.opensMethod s.header p = true → s.header.text.contains Survey.preferredLabel =
        t.header.text.contains Survey.preferredLabel)) :
    Alike φ (r.survey s p) (r.survey t q) := by
  have henter : (s.inType && r.opensMethod s.header p) = (t.inType && r.opensMethod t.header q) := by
    rw [← a.inType, ← w.opensMethod]
    cases hi : s.inType with
    | false => rfl
    | true => rw [(hmethod hi).1]
  have hprefer : ((s.inType && r.opensMethod s.header p)
      && s.header.text.contains Survey.preferredLabel) =
      ((t.inType && r.opensMethod t.header q)
        && t.header.text.contains Survey.preferredLabel) := by
    rw [← henter]
    cases he : s.inType && r.opensMethod s.header p with
    | false => rfl
    | true =>
      rw [Bool.and_eq_true] at he
      rw [(hmethod he.1).2 he.2]
  constructor
  · simp only [Recipe.survey, a.inType, htype, w.opensType, w.closesType]
  · simp only [Recipe.survey, a.typeSeen, htype, w.opensType]
  · simp only [Recipe.survey, henter, a.inMethod, w.closesMethod]
  · simp only [Recipe.survey, henter, ← a.firstBody]
    cases s.firstBody <;> cases t.inType && r.opensMethod t.header q <;> simp [hφ]
  · simp only [Recipe.survey, hprefer, ← a.preferredBody]
    cases s.preferredBody <;>
      cases (t.inType && r.opensMethod t.header q)
        && t.header.text.contains Survey.preferredLabel <;> simp [hφ]

end Alike

/-- A relation between headers that no rule can tell apart, given whether the type is open. -/
structure Recipe.Indistinct (r : Recipe) (E : Bool → Header → Header → Prop) : Prop where
  next : ∀ {b h k p}, E b h k → E ((b || r.opensType h p) && !r.closesType p) (h.next p) (k.next p)
  opensType : ∀ {b h k p}, E b h k → r.opensType h p = r.opensType k p
  opensMethod : ∀ {h k p}, E true h k → r.opensMethod h p = r.opensMethod k p
  label : ∀ {h k}, E true h k →
    h.text.contains Survey.preferredLabel = k.text.contains Survey.preferredLabel

namespace Alike

variable {E : Bool → Header → Header → Prop}

/-- One step over positions that look alike, with headers that no rule can tell apart. -/
theorem step (hE : r.Indistinct E) (a : Alike φ s t) (e : E s.inType s.header t.header)
    (w : Matched r φ p q) : Alike φ (r.survey s p) (r.survey t q) ∧
      E (r.survey s p).inType (r.survey s p).header (r.survey t q).header := by
  refine ⟨a.survey w.twin w.moved (hE.opensType e) fun hi => ?_, ?_⟩
  · rw [hi] at e
    exact ⟨hE.opensMethod e, fun _ => hE.label e⟩
  · have hnext := hE.next (p := p) e
    rwa [w.twin.next t.header] at hnext

/-- **Runs over positions that look alike** give surveys that look alike. -/
theorem run (hE : r.Indistinct E) (a : Alike φ s t) (e : E s.inType s.header t.header)
    (hw : List.Forall₂ (Matched r φ) ps qs) : Alike φ (r.run s ps) (r.run t qs) ∧
      E (r.run s ps).inType (r.run s ps).header (r.run t qs).header := by
  induction hw generalizing s t with
  | nil => exact ⟨a, e⟩
  | cons w _ ih =>
    obtain ⟨a', e'⟩ := a.step hE e w
    exact ih a' e'

end Alike

/-- The same character read in the same mode, with the same text behind it. -/
theorem Twin.place (ht : Text.isIdentifier r.typeName = true) (m : Mode) (b b' : Text) (c : Char)
    (a : Text) : Twin r (m.place b c a) (m.place b' c a) where
  char := rfl
  significant := rfl
  level := rfl
  opensComment := rfl
  typeMarker _ := ObjectiveC.typeMarker_before ht _ _
  endMarker _ := rfl

/-- Inside a method, or at the brace that leaves it, headers make no difference. -/
theorem Recipe.opens_deep (hp : r.methodLevel < p.level ∨ p.live '{' = false) (h k : Header) :
    r.opensType h p = r.opensType k p ∧ r.opensMethod h p = false := by
  rcases hp with hp | hp
  · have hne : (p.level == r.methodLevel) = false := by simpa using by omega
    have hzero : (p.level == 0) = false := by simpa using by omega
    refine ⟨?_, by simp [opensMethod, hne]⟩
    unfold opensType
    cases r.language <;> simp [hzero]
  · refine ⟨?_, by simp [opensMethod, hp]⟩
    unfold opensType
    cases r.language <;> simp [hp]

/-- **A run from inside a method on** gives surveys that look alike, whatever the headers were. -/
theorem Alike.run_deep (ht : Text.isIdentifier r.typeName = true) {quoting : Quoting} {mode : Mode}
    {b b' text : Text} (a : Alike φ s t) (hdeep : r.methodLevel < mode.level ∨ s.header = t.header)
    (hφ : ∀ n, φ (b.size + n + 1) = b'.size + n + 1) :
    Alike φ (r.run s (stretch quoting mode b text [])) (r.run t (stretch quoting mode b' text [])) := by
  induction text generalizing mode b b' s t with
  | nil => exact a
  | cons c text ih =>
    rw [stretch_cons, stretch_cons, Recipe.run_cons, Recipe.run_cons]
    set p := mode.place b c (text ++ []) with hp
    set q := mode.place b' c (text ++ []) with hq
    have w : Twin r p q := .place ht mode b b' c _
    have hlevel : p.level = levelAt mode.context.isCode c mode.level := rfl
    -- the level falls at a closing brace only, and that ends both headers
    have hcases : s.header = t.header ∨ r.methodLevel < p.level ∨ p.live '}' = true := by
      rcases hdeep with hd | hd
      · right
        rw [hlevel, levelAt]
        split
        · rename_i h
          exact .inr h
        · exact .inl hd
      · exact .inl hd
    -- so nothing that depends on a header is opened where the headers differ
    have hopens : s.header = t.header ∨ (r.methodLevel < p.level ∨ p.live '{' = false) := by
      rcases hcases with h | h | h
      · exact .inl h
      · exact .inr (.inl h)
      · refine .inr (.inr ?_)
        rw [Position.live_iff] at h
        simp [Position.live, h.2]
    refine ih (a.survey w (hφ 0) ?_ fun _ => ?_) ?_ fun n => ?_
    · rcases hopens with h | h
      · rw [h]
      · exact (Recipe.opens_deep h _ _).1
    · rcases hopens with h | h
      · rw [h]
        exact ⟨rfl, fun _ => rfl⟩
      · rw [(Recipe.opens_deep h s.header t.header).2, (Recipe.opens_deep h t.header s.header).2]
        exact ⟨rfl, fun h => by cases h⟩
    · rcases hcases with h | h | h
      · right
        change s.header.next p = t.header.next q
        rw [h, w.next]
      · left
        change r.methodLevel < levelAfter mode.context.isCode c p.level
        rw [levelAfter]
        split <;> omega
      · right
        have hends : p.endsHeader = true := by
          rw [Position.live_iff] at h
          simp [Position.endsHeader, h]
        change s.header.next p = t.header.next q
        rw [← w.next, Header.next, Header.next, if_pos hends, if_pos hends]
    · have := hφ (c.utf8Size + n)
      simp only [Text.size_cons]
      rw [show c.utf8Size + b.size + n + 1 = b.size + (c.utf8Size + n) + 1 by omega, this]
      omega

end SdkWiring
