import SdkWiring.Proofs.Delegate.Findings
import SdkWiring.Proofs.Delegate.FoldedHeader
import SdkWiring.Proofs.Delegate.StartCall

/-!
# What a Swift delegate is read as

A survey tells the type and the method that it is in by two flags that positions of certain levels
switch. What it finds can be said without them, in terms of the braces that are open at a place and
of their headers.

* `Swift.Reads`: the type, the method and the start calls, by open braces.
* `Swift.Tracks`: what a survey knows behind some positions, in the same terms; one position keeps it
  (`Tracks.survey`), and so does a run (`tracks_run`).
* `Swift.reads_analyze`: a delegate is read as it should be, but for apostrophes in headers.
* `Swift.apostrophe_folded`: a type that is found through one.
-/

namespace SdkWiring.Swift

/-- Whether the header of a brace is that of the delegate type. -/
def hasTypeHeader (r : Recipe) (code : Position → Bool) (b : Site) : Bool :=
  (typeHeader r).occursIn (headerText code b.before)

/-- An outermost brace with the header of the delegate type. -/
def isTypeBrace (r : Recipe) (code : Position → Bool) (b : Site) : Bool :=
  b.position.live '{' && (openBraces b.before).isEmpty && hasTypeHeader r code b

/-- A brace that opens a method that is looked for: its header is that of the method, and the one
brace that it stands in has the header of the type. -/
def isMethodBrace (r : Recipe) (code : Position → Bool) (b : Site) : Bool :=
  b.position.live '{'
    && (match openBraces b.before with
      | [a] => hasTypeHeader r code a
      | _ => false)
    && (methodHeader r).occursIn (headerText code b.before)

/-- Whether a method is preferred to others. -/
def isPreferred (code : Position → Bool) (b : Site) : Bool :=
  (headerText code b.before).contains Survey.preferredLabel

/-- The methods that are looked for, in the order of the text. -/
def methodBraces (r : Recipe) (code : Position → Bool) (ps : List Position) : List Site :=
  (sites ps).filter (isMethodBrace r code)

/-- Whether the second of the open braces, from the outermost on, opens a method that is looked
for. -/
def isInMethod (r : Recipe) (code : Position → Bool) (before : List Position) : Bool :=
  (openBraces before).reverse[1]?.any (isMethodBrace r code)

/-- The start call at a site: what has the shape of one, starts an expression and stands in a method
that is looked for. -/
def siteCall? (r : Recipe) (code : Position → Bool) (s : Site) : Option Span :=
  if s.position.significant && isInMethod r code s.before && !continuesExpression s.position then
    Survey.callAt? (callShape r) s.position
  else none

/-- What is found in a delegate, by the braces that are open at each of its sites. -/
structure Reads (r : Recipe) (code : Position → Bool) (content : Text) (l : Landmarks) : Prop where
  typeFound : l.typeFound = (sites (positions .swift content)).any (isTypeBrace r code)
  /-- A preferred method comes first, then the first one. -/
  methodBody : l.methodBody =
    (((methodBraces r code (positions .swift content)).find? (isPreferred code)).or
      (methodBraces r code (positions .swift content)).head?).map fun b => b.position.offset + 1
  startCalls : l.startCalls = (sites (positions .swift content)).filterMap (siteCall? r code)

/-- What a survey knows behind positions. -/
structure Tracks (r : Recipe) (code : Position → Bool) (xs : List Position) (s : Survey) : Prop where
  header : s.header.text = headerText code xs.reverse
  inType : s.inType = (openBraces xs.reverse).getLast?.any (hasTypeHeader r code)
  typeSeen : s.typeSeen = (sites xs).any (isTypeBrace r code)
  inMethod : s.inMethod = isInMethod r code xs.reverse
  firstBody : s.firstBody = (methodBraces r code xs).head?.map fun b => b.position.offset + 1
  preferredBody : s.preferredBody =
    ((methodBraces r code xs).find? (isPreferred code)).map fun b => b.position.offset + 1
  startCalls : s.startCalls = (sites xs).filterMap (siteCall? r code)

variable {r : Recipe} {code : Position → Bool} {content : Text} {xs ys : List Position}
  {s : Survey} {p : Position}

/-- What the level of a position tells about the braces that are open before it. -/
def Leveled (xs : List Position) (p : Position) : Prop :=
  p.level =
    if p.live '}' then (openBraces xs.reverse).length - 1 else (openBraces xs.reverse).length

theorem Leveled.of_open (h : Leveled xs p) (hp : p.live '{' = true) :
    p.level = (openBraces xs.reverse).length := by
  rw [h, Position.not_live_of_live (by decide) hp, if_neg (by decide)]

theorem Leveled.of_close (h : Leveled xs p) (hp : p.live '}' = true) :
    p.level = (openBraces xs.reverse).length - 1 := by
  rw [h, if_pos hp]

/-- The type is entered at its braces. -/
theorem Tracks.opensType (h : Tracks r code xs s) (hl : r.language = .swift) (hp : Leveled xs p) :
    r.opensType s.header p = isTypeBrace r code ⟨xs.reverse, p⟩ := by
  simp only [Recipe.opensType, hl, isTypeBrace, hasTypeHeader, h.header]
  by_cases hlive : p.live '{' = true
  · rw [hp.of_open hlive]
    cases openBraces xs.reverse <;> simp [hlive]
  · simp [hlive]

/-- A method is entered at its braces. -/
theorem Tracks.enters (h : Tracks r code xs s) (hl : r.language = .swift) (hp : Leveled xs p) :
    (s.inType && r.opensMethod s.header p) = isMethodBrace r code ⟨xs.reverse, p⟩ := by
  simp only [Recipe.opensMethod, Recipe.methodLevel, Recipe.methodHeader, hl, isMethodBrace,
    h.header, h.inType]
  by_cases hlive : p.live '{' = true
  · rw [hp.of_open hlive]
    rcases openBraces xs.reverse with _ | ⟨a, _ | ⟨b, l⟩⟩
    · simp
    · simp [hlive]
    · simp
  · simp [hlive]

/-- The outermost brace is left where it is closed. -/
theorem Tracks.inType_survey (h : Tracks r code xs s) (hl : r.language = .swift)
    (hp : Leveled xs p) : ((s.inType || r.opensType s.header p) && !r.closesType p) =
      (openBraces (p :: xs.reverse)).getLast?.any (hasTypeHeader r code) := by
  rw [any_outermost_cons _ hp, h.opensType hl hp, h.inType]
  simp only [Recipe.closesType, hl]
  rfl

theorem not_isMethodBrace {b : Site} (h : (openBraces b.before).length ≠ 1) :
    isMethodBrace r code b = false := by
  unfold isMethodBrace
  rcases hb : openBraces b.before with _ | ⟨a, _ | ⟨c, l⟩⟩
  · simp
  · simp [hb] at h
  · simp

/-- The second element from the end changes in front of a single one only. -/
theorem getElem?_one_reverse_cons {α : Type} (a : α) (l : List α) :
    (a :: l).reverse[1]? = if l.length = 1 then some a else l.reverse[1]? := by
  rcases l with _ | ⟨b, _ | ⟨c, l⟩⟩
  · rfl
  · rfl
  · rw [List.reverse_cons, List.getElem?_append_left (by simp), if_neg (by simp)]

/-- The second brace is left where it is closed. -/
theorem Tracks.inMethod_survey (h : Tracks r code xs s) (hl : r.language = .swift)
    (hp : Leveled xs p) :
    ((s.inMethod || (s.inType && r.opensMethod s.header p)) && !r.closesMethod p) =
      isInMethod r code (p :: xs.reverse) := by
  rw [h.enters hl hp, h.inMethod]
  simp only [Recipe.closesMethod, Recipe.methodLevel, hl, isInMethod]
  have hno : p.live '{' = false → isMethodBrace r code ⟨xs.reverse, p⟩ = false := fun ho => by
    simp [isMethodBrace, ho]
  obtain ⟨ho, hc, hb⟩ | ⟨ho, hc, hb⟩ | ⟨ho, hc, hb⟩ := openBraces_cases p xs.reverse
  · -- the brace becomes the second one just if one is open
    rw [hb, hc, getElem?_one_reverse_cons]
    split
    · rename_i hone
      rw [List.getElem?_eq_none (by simp [hone])]
      simp
    · rename_i hone
      rw [not_isMethodBrace hone]
      simp
  · -- the second one is closed just if it is the innermost one
    rw [hb, hp.of_close hc, hno ho, hc]
    cases openBraces xs.reverse with
    | nil => simp
    | cons a l =>
      rw [getElem?_one_reverse_cons, List.tail_cons, List.length_cons, Nat.add_sub_cancel]
      split
      · rename_i hone
        rw [List.getElem?_eq_none (by simp [hone])]
        simp [hone]
      · rename_i hone
        simp [hone]
  · rw [hb, hc, hno ho]
    simp

/-- What has the shape of a start call starts with the receiver. -/
theorem receiver_of_callAt? {call : Span} (h : Survey.callAt? (callShape r) p = some call) :
    r.receiver.isPrefixOf p.forepart = true := by
  obtain ⟨d, hd, -⟩ := Option.map_eq_some_iff.1 h
  rw [callShape_eq] at hd
  obtain ⟨o, ho⟩ := Pattern.mem_of_end?_append hd
  obtain ⟨s₁, s₂, s₃, -, hfore, -⟩ := mem_callHead.1 ho
  have hfore : p.forepart = callWords r s₁ s₂ s₃ ++ '(' :: o.after := hfore
  rw [List.isPrefixOf_iff_prefix, hfore, callWords, List.append_assoc]
  exact List.prefix_append _ _

/-- A start call is recorded where one stands. -/
theorem siteCall?_eq (hl : r.language = .swift) (hr : Text.isIdentifier r.receiver = true) :
    siteCall? r code ⟨xs.reverse, p⟩ =
      if isInMethod r code (p :: xs.reverse) then r.callAt? p else none := by
  rw [Recipe.callAt?_swift hl]
  unfold siteCall?
  by_cases hpre : r.receiver.isPrefixOf p.forepart = true
  · -- the receiver starts with no brace, so the open braces are the same behind the position
    obtain ⟨x, hx, hw⟩ := Text.exists_head_of_identifier hr
    have hchar : p.char = x := by
      obtain ⟨z, hz⟩ := List.isPrefixOf_iff_prefix.1 hpre
      obtain ⟨n, hn⟩ := List.head?_eq_some_iff.1 hx
      rw [hn, Position.forepart] at hz
      exact (List.cons.inj hz).1.symm
    have hbrace : ∀ c, Text.isWord c = false → p.live c = false := by
      intro c hc
      rw [← Bool.not_eq_true, Position.live_iff, hchar]
      rintro ⟨-, rfl⟩
      simp [hc] at hw
    have hsame : isInMethod r code (p :: xs.reverse) = isInMethod r code xs.reverse := by
      rw [isInMethod, openBraces_other (hbrace _ (by decide)) (hbrace _ (by decide)), isInMethod]
    rw [hsame, hpre]
    cases isInMethod r code xs.reverse <;> simp
  · have hnone : Survey.callAt? (callShape r) p = none := by
      rw [Option.eq_none_iff_forall_ne_some]
      exact fun call hcall => hpre (receiver_of_callAt? hcall)
    simp [hnone]

/-- **What a survey knows** is kept up by one position. -/
theorem Tracks.survey (h : Tracks r code xs s) (hl : r.language = .swift)
    (hr : Text.isIdentifier r.receiver = true) (hcode : code p = p.isPlain) (hp : Leveled xs p) :
    Tracks r code (xs ++ [p]) (r.survey s p) where
  header := by
    rw [List.reverse_concat]
    exact text_next hcode h.header
  inType := by
    rw [List.reverse_concat]
    exact h.inType_survey hl hp
  typeSeen := by
    rw [sites_concat, List.any_append, ← h.typeSeen, List.any_cons, List.any_nil, Bool.or_false,
      ← h.opensType hl hp]
    rfl
  inMethod := by
    rw [List.reverse_concat]
    exact h.inMethod_survey hl hp
  firstBody := Recipe.firstBody_survey (h.enters hl hp) h.firstBody
  preferredBody := by
    have hlabel : s.header.text.contains Survey.preferredLabel =
        isPreferred code ⟨xs.reverse, p⟩ := by
      rw [h.header]
      rfl
    exact Recipe.preferredBody_survey (h.enters hl hp) hlabel h.preferredBody
  startCalls := by
    refine Recipe.startCalls_survey ?_ h.startCalls
    rw [siteCall?_eq hl hr, ← h.inMethod_survey hl hp]
    rfl

/-- **What a survey knows behind a run** of positions from the start of a delegate on. -/
theorem tracks_run (hl : r.language = .swift) (hr : Text.isIdentifier r.receiver = true)
    (hcode : ∀ p ∈ positions .swift content, code p = p.isPlain)
    (h : positions .swift content = xs ++ ys) : Tracks r code xs (r.run {} xs) := by
  induction xs using List.reverseRecOn generalizing ys with
  | nil => constructor <;> rfl
  | append_singleton xs p ih =>
    rw [List.append_assoc, List.singleton_append] at h
    rw [Recipe.run_append, Recipe.run_cons, Recipe.run_nil]
    exact (ih h).survey hl hr (hcode p (by rw [h]; simp)) (level_eq_length h)

/-- A delegate is read by its open braces, with plain characters for code. -/
theorem reads_of_plain (hl : r.language = .swift) (hr : Text.isIdentifier r.receiver = true)
    (hcode : ∀ p ∈ positions .swift content, code p = p.isPlain) :
    Reads r code content (r.analyze content) := by
  have h := tracks_run hl hr hcode (List.append_nil (positions .swift content)).symm
  have hrun : r.analyze content = (r.run {} (positions .swift content)).landmarks := by
    rw [Recipe.analyze_eq, Recipe.surveyed, hl]
    rfl
  rw [hrun]
  refine ⟨h.typeSeen, ?_, h.startCalls⟩
  rw [Option.map_or, ← h.preferredBody, ← h.firstBody]
  rfl

/-- A delegate with a start call in a method, and another in a function inside it. -/
def nested : Text :=
  "class AppDelegate \x7b\n  func application() \x7b\n    MSMobileCenter.start(1)\n".toList
    ++ "    func f() \x7b MSMobileCenter.start(2) \x7d\n  \x7d\n\x7d\n".toList

/-- A delegate in which an apostrophe stands between a keyword and a name. -/
def apostrophe : Text :=
  "class'AppDelegate \x7b\n  func application() \x7b\n  \x7d\n\x7d\n".toList

/-- **A Swift delegate is read by its open braces**, with apostrophes folded like comments and
strings. Where no apostrophe is live, it is read by them as it should be. -/
theorem reads_analyze (hl : r.language = .swift) (hr : Text.isIdentifier r.receiver = true)
    (content : Text) :
    Reads r (fun p => p.isCode .swift && p.char != '\'') content (r.analyze content) ∧
      ((∀ p ∈ positions .swift content, p.live '\'' = false) →
        Reads r (Position.isCode .swift) content (r.analyze content)) := by
  refine ⟨reads_of_plain hl hr fun p _ => p.isPlain_eq_isCode.symm, fun hlive => ?_⟩
  refine reads_of_plain hl hr fun p hp => ?_
  have hquote := hlive p hp
  rw [p.isPlain_eq_isCode]
  by_cases hchar : p.char = '\''
  · have hsig : p.significant = false := by simpa [Position.live, hchar] using hquote
    simp [Position.isCode, hsig]
  · simp [hchar]

/-- A delegate with a method, a nested function in it and a call in each. -/
theorem reads_analyze_nested :
    (Recipe.forRemoval .swift).language = .swift ∧
      Text.isIdentifier (Recipe.forRemoval .swift).receiver = true ∧
      (∀ p ∈ positions .swift nested, p.live '\'' = false) ∧
      Reads (.forRemoval .swift) (Position.isCode .swift) nested
        ((Recipe.forRemoval .swift).analyze nested) := by
  have hlive : ∀ p ∈ positions .swift nested, p.live '\'' = false := by decide +kernel
  exact ⟨rfl, by decide, hlive,
    (reads_analyze (r := .forRemoval .swift) rfl (by decide) nested).2 hlive⟩

/-- **A type is found through an apostrophe**: in the header of its brace no white space follows the
keyword, but the apostrophe counts for a space. -/
theorem apostrophe_folded :
    ((Recipe.forRemoval .swift).analyze apostrophe).typeFound = true ∧
      ¬ Reads (.forRemoval .swift) (Position.isCode .swift) apostrophe
        ((Recipe.forRemoval .swift).analyze apostrophe) := by
  have hfound : ((Recipe.forRemoval .swift).analyze apostrophe).typeFound = true := by
    decide +kernel
  have hread : (sites (positions .swift apostrophe)).any
      (isTypeBrace (.forRemoval .swift) (Position.isCode .swift)) = false := by decide +kernel
  refine ⟨hfound, fun h => ?_⟩
  rw [h.typeFound, hread] at hfound
  exact absurd hfound (by decide)

end SdkWiring.Swift
