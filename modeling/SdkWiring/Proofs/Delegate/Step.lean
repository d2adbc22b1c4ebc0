import SdkWiring.Delegate.Wiring
import SdkWiring.Proofs.Text.Matching

/-!
# One position of a survey, in closed form

The rules of either language are asked one after the other, and each changes a part of the survey
that later ones may ask for. Together they do what one update of all parts does: the type and the
method are entered and left by what the header and the position say, and everything found is noted
at its offset.

* `observe_rules`: the rules of a language in closed form.
-/

namespace SdkWiring

namespace ObjectiveC

theorem implementationMarker_eq : implementationMarker = '@' :: "implementation".toList := rfl

theorem endMarker_eq : endMarker = '@' :: "end".toList := rfl

/-- The marker of the type stands wherever its pattern matches. -/
theorem marker_of_typeMarker (r : Recipe) (p : Position)
    (h : (typeMarker r).matchesAt p.cursor = true) :
    implementationMarker.isPrefixOf p.forepart = true := by
  obtain ⟨d, hd⟩ := Pattern.matchesAt_iff.1 h
  simp only [typeMarker, Pattern.mem_append, Pattern.mem_literal] at hd
  obtain ⟨-, ⟨-, ⟨-, ⟨rest, ha, -⟩, -⟩, -⟩, -⟩ := hd
  exact List.isPrefixOf_iff_prefix.2 ⟨rest, ha.symm⟩

end ObjectiveC

namespace Recipe

/-- The number of braces around the brace that opens a method of the delegate type. -/
def methodLevel (r : Recipe) : Nat :=
  match r.language with
  | .swift => 1
  | .objectiveC => 0

/-- The header of the methods that receive the start call. -/
def methodHeader (r : Recipe) : Pattern :=
  match r.language with
  | .swift => Swift.methodHeader r
  | .objectiveC => ObjectiveC.methodHeader r

/-- Whether the delegate type is entered at a position, behind a header. -/
def opensType (r : Recipe) (h : Header) (p : Position) : Bool :=
  match r.language with
  | .swift => p.level == 0 && p.live '{' && (Swift.typeHeader r).occursIn h.text
  | .objectiveC => p.significant && p.level == 0 && (ObjectiveC.typeMarker r).matchesAt p.cursor

/-- Whether the delegate type, if it is open, is left at a position. -/
def closesType (r : Recipe) (p : Position) : Bool :=
  match r.language with
  | .swift => p.level == 0 && p.live '}'
  | .objectiveC => p.significant && p.level == 0 && ObjectiveC.endMarker.isPrefixOf p.forepart

/-- Whether a method of an open type is entered at a position, behind a header. -/
def opensMethod (r : Recipe) (h : Header) (p : Position) : Bool :=
  p.level == r.methodLevel && p.live '{' && r.methodHeader.occursIn h.text

/-- Whether a method, if one is open, is left at a position. -/
def closesMethod (r : Recipe) (p : Position) : Bool := p.level == r.methodLevel && p.live '}'

/-- Whether the imports end at a position, if the type was not seen before it. -/
def endsImports (r : Recipe) (p : Position) : Bool :=
  p.significant && p.level == 0 && p.atLineStart
    && r.language.anyImport.matchesAt (.start p.previousLine)

/-- The start call at a position, if the position is inside a method. -/
def callAt? (r : Recipe) (p : Position) : Option Span :=
  match r.language with
  | .swift =>
    if p.significant && r.receiver.isPrefixOf p.forepart && !Swift.continuesExpression p then
      Survey.callAt? (Swift.callShape r) p
    else none
  | .objectiveC => if p.live '[' then Survey.callAt? (ObjectiveC.callShape r) p else none

/-- The survey behind a position. -/
def survey (r : Recipe) (s : Survey) (p : Position) : Survey :=
  let enters := s.inType && r.opensMethod s.header p
  let inMethod := (s.inMethod || enters) && !r.closesMethod p
  { header := s.header.next p
    inType := (s.inType || r.opensType s.header p) && !r.closesType p
    typeSeen := s.typeSeen || r.opensType s.header p
    inMethod := inMethod
    firstBody := s.firstBody.or (if enters then some (p.offset + 1) else none)
    preferredBody :=
      s.preferredBody.or
        (if enters && s.header.text.contains Survey.preferredLabel then some (p.offset + 1)
          else none)
    endOfImports := if !s.typeSeen && r.endsImports p then some p.offset else s.endOfImports
    startCalls := s.startCalls ++ if inMethod then (r.callAt? p).toList else [] }

theorem callAt?_swift {r : Recipe} (hr : r.language = .swift) (p : Position) :
    r.callAt? p =
      if p.significant && r.receiver.isPrefixOf p.forepart && !Swift.continuesExpression p then
        Survey.callAt? (Swift.callShape r) p
      else none := by
  simp [callAt?, hr]

theorem callAt?_objectiveC {r : Recipe} (hr : r.language = .objectiveC) (p : Position) :
    r.callAt? p =
      if p.live '[' then Survey.callAt? (ObjectiveC.callShape r) p else none := by
  simp [callAt?, hr]

/-- No method opens where the type opens or closes. -/
theorem opensMethod_exclusive {r : Recipe} {h : Header} {p : Position}
    (hm : r.opensMethod h p = true) : r.opensType h p = false ∧ r.closesType p = false := by
  simp only [opensMethod, Position.live, Bool.and_eq_true, beq_iff_eq] at hm
  obtain ⟨⟨hlevel, -, hchar⟩, -⟩ := hm
  cases hl : r.language with
  | swift =>
    have h1 : p.level = 1 := by simpa [methodLevel, hl] using hlevel
    simp [opensType, closesType, hl, h1]
  | objectiveC =>
    -- both markers start with another character than a brace
    have hmark : (ObjectiveC.typeMarker r).matchesAt p.cursor = false := by
      rw [← Bool.not_eq_true]
      intro ht
      have hpre := List.isPrefixOf_iff_prefix.1 (ObjectiveC.marker_of_typeMarker r p ht)
      rw [ObjectiveC.implementationMarker_eq, Position.forepart, hchar, List.cons_prefix_cons] at hpre
      exact absurd hpre.1 (by decide)
    have hend : ObjectiveC.endMarker.isPrefixOf p.forepart = false := by
      rw [ObjectiveC.endMarker_eq, Position.forepart, hchar]
      rfl
    simp [opensType, closesType, hl, hmark, hend]

end Recipe

namespace Survey

variable (s : Survey) (p : Position)

theorem react_markImports (anyImport : Pattern) :
    (markImports anyImport).react s p =
      { s with endOfImports :=
          if !s.typeSeen && (p.significant && p.level == 0 && p.atLineStart
            && anyImport.matchesAt (.start p.previousLine)) then some p.offset
          else s.endOfImports } := by
  have hcond : (p.significant && p.level == 0 && !s.typeSeen && p.atLineStart
      && anyImport.matchesAt (.start p.previousLine)) =
      (!s.typeSeen && (p.significant && p.level == 0 && p.atLineStart
        && anyImport.matchesAt (.start p.previousLine))) := by
    cases s.typeSeen <;> simp
  simp only [Rule.react, markImports, hcond]
  split <;> rfl

theorem react_openMethod (level : Nat) (header : Pattern) :
    (openMethod level header).react s p =
      { s with
        inMethod := s.inMethod ||
          (s.inType && (p.level == level && p.live '{' && header.occursIn s.header.text))
        firstBody := s.firstBody.or
          (if s.inType && (p.level == level && p.live '{' && header.occursIn s.header.text) then
            some (p.offset + 1) else none)
        preferredBody := s.preferredBody.or
          (if (s.inType && (p.level == level && p.live '{' && header.occursIn s.header.text))
              && s.header.text.contains preferredLabel then
            some (p.offset + 1) else none) } := by
  obtain ⟨h, inType, typeSeen, inMethod, first, preferred, imports, calls⟩ := s
  simp only [Rule.react, openMethod, enterMethod]
  by_cases hl : p.level = level <;> by_cases hc : p.live '{' = true <;>
    by_cases ho : header.occursIn h.text = true <;> cases inType <;> simp [hl, hc, ho]

theorem react_closeMethod (level : Nat) :
    (closeMethod level).react s p =
      { s with inMethod := s.inMethod && !(p.level == level && p.live '}') } := by
  obtain ⟨h, inType, typeSeen, inMethod, first, preferred, imports, calls⟩ := s
  simp only [Rule.react, closeMethod]
  by_cases hl : p.level = level <;> by_cases hc : p.live '}' = true <;> cases inMethod <;>
    simp [hl, hc]

theorem react_followHeader : followHeader.react s p = { s with header := s.header.next p } := rfl

end Survey

namespace Swift

variable (r : Recipe) (s : Survey) (p : Position)

theorem react_openType :
    (openType r).react s p =
      { s with
        inType := s.inType || (p.level == 0 && p.live '{' && (typeHeader r).occursIn s.header.text)
        typeSeen :=
          s.typeSeen || (p.level == 0 && p.live '{' && (typeHeader r).occursIn s.header.text) } := by
  simp only [Rule.react, openType]
  rcases Bool.eq_false_or_eq_true (p.level == 0) with hl | hl <;>
    by_cases hc : p.live '{' = true <;>
    by_cases ho : (typeHeader r).occursIn s.header.text = true <;> simp [hl, hc, ho]

theorem react_closeType :
    closeType.react s p = { s with inType := s.inType && !(p.level == 0 && p.live '}') } := by
  obtain ⟨h, inType, typeSeen, inMethod, first, preferred, imports, calls⟩ := s
  simp only [Rule.react, closeType]
  by_cases hl : p.level = 0 <;> by_cases hc : p.live '}' = true <;> cases inType <;>
    simp [hl, hc]

theorem react_recordCall :
    (recordCall r).react s p =
      { s with startCalls := s.startCalls ++
          if s.inMethod then
            (if p.significant && r.receiver.isPrefixOf p.forepart && !continuesExpression p then
              Survey.callAt? (callShape r) p else none).toList
          else [] } := by
  obtain ⟨h, inType, typeSeen, inMethod, first, preferred, imports, calls⟩ := s
  simp only [Rule.react, recordCall]
  by_cases hc : (p.significant && r.receiver.isPrefixOf p.forepart && !continuesExpression p) = true
  · cases inMethod <;> cases Survey.callAt? (callShape r) p <;> simp [hc, Survey.addCall]
  · have hc' : (p.significant && inMethod && r.receiver.isPrefixOf p.forepart
        && !continuesExpression p) = false := by
      cases inMethod <;> simp_all
    simp [hc, hc']

end Swift

namespace ObjectiveC

variable (r : Recipe) (s : Survey) (p : Position)

theorem react_openType :
    (openType r).react s p =
      { s with
        inType := s.inType || (p.significant && p.level == 0 && (typeMarker r).matchesAt p.cursor)
        typeSeen :=
          s.typeSeen || (p.significant && p.level == 0 && (typeMarker r).matchesAt p.cursor) } := by
  have hmark := marker_of_typeMarker r p
  simp only [Rule.react, openType]
  rcases Bool.eq_false_or_eq_true (p.level == 0) with hl | hl <;>
    by_cases hs : p.significant = true <;>
    by_cases hm : (typeMarker r).matchesAt p.cursor = true <;> simp [hl, hs, hm, hmark]

theorem react_closeType :
    closeType.react s p =
      { s with inType :=
          s.inType && !(p.significant && p.level == 0 && endMarker.isPrefixOf p.forepart) } := by
  obtain ⟨h, inType, typeSeen, inMethod, first, preferred, imports, calls⟩ := s
  simp only [Rule.react, closeType]
  by_cases hs : p.significant = true <;> by_cases hl : p.level = 0 <;>
    by_cases hp : endMarker.isPrefixOf p.forepart = true <;> cases inType <;> simp [hs, hl, hp]

theorem react_recordCall :
    (recordCall r).react s p =
      { s with startCalls := s.startCalls ++
          if s.inMethod then
            (if p.live '[' then Survey.callAt? (callShape r) p else none).toList
          else [] } := by
  obtain ⟨h, inType, typeSeen, inMethod, first, preferred, imports, calls⟩ := s
  simp only [Rule.react, recordCall]
  by_cases hc : p.live '[' = true <;> cases inMethod <;>
    cases Survey.callAt? (callShape r) p <;> simp [hc, Survey.addCall]

end ObjectiveC

namespace Recipe

/-- **The rules of a language in closed form.** -/
theorem observe_rules (r : Recipe) (s : Survey) (p : Position) :
    observe r.rules s p = r.survey s p := by
  -- whether a method is entered does not depend on what the type rules did before
  have henter : ((s.inType || r.opensType s.header p) && !r.closesType p &&
      r.opensMethod s.header p) = (s.inType && r.opensMethod s.header p) := by
    cases hm : r.opensMethod s.header p with
    | false => simp
    | true => simp [opensMethod_exclusive hm]
  cases hl : r.language with
  | swift =>
    simp only [opensType, closesType, opensMethod, methodLevel, methodHeader, hl] at henter
    simp only [rules, hl, Swift.rules, observe_cons, observe_nil, Survey.react_markImports,
      Swift.react_openType, Swift.react_closeType, Survey.react_openMethod,
      Survey.react_closeMethod, Swift.react_recordCall, Survey.react_followHeader, survey, opensType,
      closesType, opensMethod, closesMethod, methodLevel, methodHeader, endsImports, callAt?,
      Language.anyImport, henter]
  | objectiveC =>
    simp only [opensType, closesType, opensMethod, methodLevel, methodHeader, hl] at henter
    simp only [rules, hl, ObjectiveC.rules, observe_cons, observe_nil, Survey.react_markImports,
      ObjectiveC.react_openType, ObjectiveC.react_closeType, Survey.react_openMethod,
      Survey.react_closeMethod, ObjectiveC.react_recordCall, Survey.react_followHeader, survey,
      opensType, closesType, opensMethod, closesMethod, methodLevel, methodHeader, endsImports,
      callAt?, Language.anyImport, henter]

end Recipe

end SdkWiring
