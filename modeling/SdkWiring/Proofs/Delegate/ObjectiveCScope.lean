import SdkWiring.Proofs.Delegate.Findings
import SdkWiring.Proofs.Delegate.FoldedHeader
import SdkWiring.Proofs.Delegate.HeaderShape

/-!
# What an Objective-C delegate is read as

In Objective-C no brace encloses the type: a marker opens its implementation section, another closes
it, and both are text like any other. What a survey finds is told here from the markers that are live
outside all braces, from the braces that are open at a place, and from their headers.

* `ObjectiveC.opensSection`, `closesSection`: the markers; `ObjectiveC.IsTypeMarker` spells the first
  one out.
* `ObjectiveC.isInside`: whether a section is open, since its marker and no end marker after that.
* `ObjectiveC.Reads`: the type, the method and the start calls.
* `ObjectiveC.Tracks`: what a survey knows behind some positions, in the same terms; one position
  keeps it (`Tracks.survey`), and so does a run (`tracks_run`).
* `ObjectiveC.reads_analysis`: every delegate is read as it should be.
-/

namespace SdkWiring.ObjectiveC

/-- Whether the implementation section of the delegate type starts at a site: its marker is live
there, outside all braces. -/
def opensSection (r : Recipe) (s : Site) : Bool :=
  s.position.significant && (openBraces s.before).isEmpty
    && (typeMarker r).matchesAt s.position.cursor

/-- The text of the marker of the delegate type: white space stands before the name, and at the end of
the name a word ends or starts. -/
def IsTypeMarker (r : Recipe) (t : Text) : Prop :=
  ∃ s rest, (∀ c ∈ s, Text.isSpace c = true) ∧ s ≠ [] ∧
    t = implementationMarker ++ (s ++ (r.typeName ++ rest)) ∧
    ((s ++ r.typeName).getLast?.any Text.isWord != rest.head?.any Text.isWord) = true

/-- Whether a section of any kind ends at a site. -/
def closesSection (s : Site) : Bool :=
  s.position.significant && (openBraces s.before).isEmpty
    && endMarker.isPrefixOf s.position.forepart

/-- Whether the section of the delegate type is open behind some sites: it starts at one of them and
does not end at any later one. -/
def isInside (r : Recipe) : List Site → Bool
  | [] => false
  | s :: later => (opensSection r s && later.all fun e => !closesSection e) || isInside r later

/-- The sites of the text up to this one. -/
def upTo (s : Site) : List Site := sites (s.position :: s.before).reverse

/-- A brace that opens a method that is looked for: it stands outside all braces in the section of
the delegate type, and its header is that of the method. -/
def isMethodBrace (r : Recipe) (b : Site) : Bool :=
  b.position.live '{' && (openBraces b.before).isEmpty && isInside r (upTo b)
    && (methodHeader r).occursIn (headerText (Position.isCode .c) b.before)

/-- Whether a method is preferred to others. -/
def isPreferred (b : Site) : Bool :=
  (headerText (Position.isCode .c) b.before).contains Survey.preferredLabel

/-- The methods that are looked for, in the order of the text. -/
def methodBraces (r : Recipe) (ps : List Position) : List Site :=
  (sites ps).filter (isMethodBrace r)

/-- Whether the outermost of the open braces opens a method that is looked for. -/
def isInMethod (r : Recipe) (before : List Position) : Bool :=
  (openBraces before).getLast?.any (isMethodBrace r)

/-- The start call at a site: what has the shape of one, starts with a live bracket and stands in a
method that is looked for. -/
def siteCall? (r : Recipe) (s : Site) : Option Span :=
  if s.position.live '[' && isInMethod r s.before then Survey.callAt? (callShape r) s.position
  else none

/-- What is found in a delegate, by the markers and the braces around each of its sites. -/
structure Reads (r : Recipe) (content : Text) (l : Landmarks) : Prop where
  typeFound : l.typeFound = (sites (positions .c content)).any (opensSection r)
  /-- A preferred method comes first, then the first one. -/
  methodBody : l.methodBody =
    (((methodBraces r (positions .c content)).find? isPreferred).or
      (methodBraces r (positions .c content)).head?).map fun b => b.position.offset + 1
  startCalls : l.startCalls = (sites (positions .c content)).filterMap (siteCall? r)

/-- What a survey knows behind positions. -/
structure Tracks (r : Recipe) (xs : List Position) (s : Survey) : Prop where
  header : s.header.text = headerText (Position.isCode .c) xs.reverse
  inType : s.inType = isInside r (sites xs)
  typeSeen : s.typeSeen = (sites xs).any (opensSection r)
  inMethod : s.inMethod = isInMethod r xs.reverse
  firstBody : s.firstBody = (methodBraces r xs).head?.map fun b => b.position.offset + 1
  preferredBody : s.preferredBody =
    ((methodBraces r xs).find? isPreferred).map fun b => b.position.offset + 1
  startCalls : s.startCalls = (sites xs).filterMap (siteCall? r)

variable {r : Recipe} {content : Text} {l : List Site} {b e : Site} {xs ys : List Position}
  {s : Survey} {p : Position}

/-- The marker of the delegate type, spelled out. -/
theorem opensSection_iff : opensSection r b = true ↔
    b.position.significant = true ∧ openBraces b.before = [] ∧
      IsTypeMarker r b.position.forepart := by
  rw [IsTypeMarker, ← typeMarker_text (b := b.position.before), opensSection, Bool.and_eq_true,
    Bool.and_eq_true, List.isEmpty_iff, and_assoc]
  rfl

/-- A section is open just if its marker stands somewhere, and behind it no end marker. -/
theorem isInside_iff : isInside r l = true ↔
    ∃ xs b ys, l = xs ++ b :: ys ∧ opensSection r b = true ∧ ∀ e ∈ ys, closesSection e = false := by
  induction l with
  | nil => simp [isInside]
  | cons a l ih =>
    rw [isInside, Bool.or_eq_true, ih]
    constructor
    · rintro (h | ⟨xs, b, ys, rfl, hb, hys⟩)
      · rw [Bool.and_eq_true, List.all_eq_true] at h
        exact ⟨[], a, l, rfl, h.1, fun e he => by simpa using h.2 e he⟩
      · exact ⟨a :: xs, b, ys, rfl, hb, hys⟩
    · rintro ⟨xs, b, ys, heq, hb, hys⟩
      rcases xs with _ | ⟨x, xs⟩
      · obtain ⟨rfl, rfl⟩ := List.cons.inj heq
        refine .inl ?_
        rw [hb, Bool.true_and, List.all_eq_true]
        exact fun e he => by simp [hys e he]
      · exact .inr ⟨xs, b, ys, (List.cons.inj heq).2, hb, hys⟩

/-- **One site more**: its own marker opens a section, an end marker closes it, and no site has
both. -/
theorem isInside_concat :
    isInside r (l ++ [e]) = (opensSection r e || (isInside r l && !closesSection e)) := by
  induction l with
  | nil => simp [isInside]
  | cons a l ih =>
    rw [List.cons_append, isInside, ih, isInside, List.all_append, List.all_cons, List.all_nil]
    -- what the site does is the same whether the section started at the first site or later
    cases opensSection r e <;> cases closesSection e <;> cases opensSection r a <;> simp

/-- The two markers differ in their second character. -/
theorem not_closesSection (h : opensSection r b = true) : closesSection b = false := by
  obtain ⟨-, -, s, rest, -, -, hfore, -⟩ := opensSection_iff.1 h
  rw [closesSection, hfore, implementationMarker_eq, endMarker_eq]
  exact Bool.and_false _

/-- The character of a brace that opens a method starts no marker. -/
theorem not_marker_of_brace (h : b.position.live '{' = true) :
    opensSection r b = false ∧ closesSection b = false := by
  obtain ⟨hsig, hchar⟩ := Position.live_iff.1 h
  constructor
  · rw [← Bool.not_eq_true]
    intro ho
    obtain ⟨-, -, s, rest, -, -, hfore, -⟩ := opensSection_iff.1 ho
    rw [Position.forepart, hchar, implementationMarker_eq] at hfore
    exact absurd (List.cons.inj hfore).1 (by decide)
  · rw [closesSection, Position.forepart, hchar, endMarker_eq]
    exact Bool.and_false _

/-- The section of the type is entered at its markers. -/
theorem opensType_eq (hl : r.language = .objectiveC) (h : positions .c content = xs ++ p :: ys) :
    r.opensType s.header p = opensSection r ⟨xs.reverse, p⟩ := by
  simp only [Recipe.opensType, hl, opensSection]
  by_cases hc : p.live '}' = true
  · -- a brace is no marker, whatever its level is
    have hmark : (typeMarker r).matchesAt p.cursor = false := by
      rw [← Bool.not_eq_true]
      intro ht
      obtain ⟨s, rest, -, -, hfore, -⟩ := typeMarker_text.1 ht
      rw [(Position.live_iff.1 hc).2, implementationMarker_eq] at hfore
      exact absurd (List.cons.inj hfore).1 (by decide)
    rw [hmark, Bool.and_false, Bool.and_false]
  · rw [level_beq_zero h (by simpa using hc)]

/-- A section is left at an end marker. -/
theorem closesType_eq (hl : r.language = .objectiveC) (h : positions .c content = xs ++ p :: ys) :
    r.closesType p = closesSection ⟨xs.reverse, p⟩ := by
  simp only [Recipe.closesType, hl, closesSection]
  by_cases hc : p.live '}' = true
  · have hmark : endMarker.isPrefixOf p.forepart = false := by
      rw [Position.forepart, (Position.live_iff.1 hc).2, endMarker_eq]
      rfl
    rw [hmark, Bool.and_false, Bool.and_false]
  · rw [level_beq_zero h (by simpa using hc)]

/-- Inside or outside the section behind one more position. -/
theorem Tracks.inType_survey (t : Tracks r xs s) (hl : r.language = .objectiveC)
    (h : positions .c content = xs ++ p :: ys) :
    ((s.inType || r.opensType s.header p) && !r.closesType p) = isInside r (sites (xs ++ [p])) := by
  rw [sites_concat, isInside_concat, opensType_eq hl h, closesType_eq hl h, t.inType]
  cases ho : opensSection r ⟨xs.reverse, p⟩ with
  | true => rw [not_closesSection ho, Bool.or_true, Bool.true_or, Bool.not_false, Bool.and_true]
  | false => rw [Bool.or_false, Bool.false_or]

/-- A method is entered at its braces. -/
theorem Tracks.enters (t : Tracks r xs s) (hl : r.language = .objectiveC)
    (h : positions .c content = xs ++ p :: ys) :
    (s.inType && r.opensMethod s.header p) = isMethodBrace r ⟨xs.reverse, p⟩ := by
  simp only [Recipe.opensMethod, Recipe.methodLevel, Recipe.methodHeader, hl, isMethodBrace,
    t.header, t.inType]
  cases hlive : p.live '{' with
  | false => simp
  | true =>
    -- the brace itself neither opens nor closes a section
    have hupTo : isInside r (upTo ⟨xs.reverse, p⟩) = isInside r (sites xs) := by
      obtain ⟨ho, hc⟩ := not_marker_of_brace (r := r) (b := ⟨xs.reverse, p⟩) hlive
      rw [upTo, List.reverse_cons, List.reverse_reverse, sites_concat, isInside_concat, ho, hc]
      simp
    have hlevel := level_beq_zero h (Position.not_live_of_live (by decide) hlive)
    rw [hupTo, hlevel, Bool.and_left_comm, Bool.true_and, Bool.and_true, Bool.and_assoc]

/-- A method is left where its brace is closed. -/
theorem Tracks.inMethod_survey (t : Tracks r xs s) (hl : r.language = .objectiveC)
    (h : positions .c content = xs ++ p :: ys) :
    ((s.inMethod || (s.inType && r.opensMethod s.header p)) && !r.closesMethod p) =
      isInMethod r (p :: xs.reverse) := by
  rw [t.enters hl h, t.inMethod, isInMethod, isInMethod, any_outermost_cons _ (level_eq_length h)]
  -- a brace of a method is an opening one, and the outermost one
  have hbrace : isMethodBrace r ⟨xs.reverse, p⟩ =
      (p.live '{' && (openBraces xs.reverse).isEmpty && isMethodBrace r ⟨xs.reverse, p⟩) := by
    cases hm : isMethodBrace r ⟨xs.reverse, p⟩ with
    | false => simp
    | true =>
      simp only [isMethodBrace, Bool.and_eq_true] at hm
      rw [hm.1.1.1, hm.1.1.2]
      rfl
  rw [← hbrace]
  simp only [Recipe.closesMethod, Recipe.methodLevel, hl]

/-- A start call is recorded where one stands. -/
theorem siteCall?_eq (hl : r.language = .objectiveC) :
    siteCall? r ⟨xs.reverse, p⟩ =
      if isInMethod r (p :: xs.reverse) then r.callAt? p else none := by
  rw [Recipe.callAt?_objectiveC hl, siteCall?]
  cases hlive : p.live '[' with
  | false => simp
  | true =>
    -- a bracket is no brace, so the same braces are open behind it
    have hsame : openBraces (p :: xs.reverse) = openBraces xs.reverse :=
      openBraces_other (Position.not_live_of_live (by decide) hlive)
        (Position.not_live_of_live (by decide) hlive)
    rw [isInMethod, isInMethod, hsame]
    simp

/-- **What a survey knows** is kept up by one position. -/
theorem Tracks.survey (t : Tracks r xs s) (hl : r.language = .objectiveC)
    (h : positions .c content = xs ++ p :: ys) : Tracks r (xs ++ [p]) (r.survey s p) where
  header := by
    rw [List.reverse_concat]
    exact text_next p.isPlain_eq_isCode_c.symm t.header
  inType := t.inType_survey hl h
  typeSeen := by
    rw [sites_concat, List.any_append, ← t.typeSeen, List.any_cons, List.any_nil, Bool.or_false,
      ← opensType_eq (s := s) hl h]
    rfl
  inMethod := by
    rw [List.reverse_concat]
    exact t.inMethod_survey hl h
  firstBody := Recipe.firstBody_survey (t.enters hl h) t.firstBody
  preferredBody := by
    have hlabel : s.header.text.contains Survey.preferredLabel = isPreferred ⟨xs.reverse, p⟩ := by
      rw [t.header]
      rfl
    exact Recipe.preferredBody_survey (t.enters hl h) hlabel t.preferredBody
  startCalls := by
    refine Recipe.startCalls_survey ?_ t.startCalls
    rw [siteCall?_eq hl, ← t.inMethod_survey hl h]
    rfl

/-- **What a survey knows behind a run** of positions from the start of a delegate on. -/
theorem tracks_run (hl : r.language = .objectiveC) (h : positions .c content = xs ++ ys) :
    Tracks r xs (r.run {} xs) := by
  induction xs using List.reverseRecOn generalizing ys with
  | nil => constructor <;> rfl
  | append_singleton xs p ih =>
    rw [List.append_assoc, List.singleton_append] at h
    rw [Recipe.run_append, Recipe.run_cons, Recipe.run_nil]
    exact (ih h).survey hl h

/-- **An Objective-C delegate is read by its markers, its open braces and their headers.** Its type is
marked by live text outside all braces: the marker, white space and the name as a whole word. -/
theorem reads_analysis (hl : r.language = .objectiveC) (content : Text) :
    Reads r content (r.analyze content) ∧
      ∀ b, opensSection r b = true ↔ b.position.significant = true ∧ openBraces b.before = [] ∧
        IsTypeMarker r b.position.forepart := by
  refine ⟨?_, fun b => opensSection_iff⟩
  have t := tracks_run hl (List.append_nil (positions .c content)).symm
  have hrun : r.analyze content = (r.run {} (positions .c content)).landmarks := by
    rw [Recipe.analyze_eq, Recipe.surveyed, hl]
    rfl
  rw [hrun]
  refine ⟨t.typeSeen, ?_, t.startCalls⟩
  rw [Option.map_or, ← t.preferredBody, ← t.firstBody]
  rfl

/-- A delegate with a marker in a comment, the section of another type, and a method with a call. -/
def sections : Text :=
  "// @implementation AppDelegate
@implementation Other
- (id)application {}
".toList
    ++ "@end
@implementation AppDelegate
".toList
    ++ "- (id)application { [MSMobileCenter start:1]; }
@end
".toList

/-- The call in the method of the type is found. -/
theorem reads_analysis_sections :
    (Recipe.forRemoval .objectiveC).language = .objectiveC ∧
      Reads (.forRemoval .objectiveC) sections ((Recipe.forRemoval .objectiveC).analyze sections) ∧
      ((Recipe.forRemoval .objectiveC).analyze sections).startCalls.length = 1 := by
  have hread := (reads_analysis (r := .forRemoval .objectiveC) rfl sections).1
  have hcall : ((sites (positions .c sections)).filterMap
      (siteCall? (.forRemoval .objectiveC))).length = 1 := by
    decide +kernel
  exact ⟨rfl, hread, by rw [hread.startCalls, hcall]⟩

end SdkWiring.ObjectiveC
