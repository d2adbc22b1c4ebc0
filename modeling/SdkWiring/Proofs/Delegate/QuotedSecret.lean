import SdkWiring.Proofs.Delegate.CallLine

/-!
# The secret in its literal

A rendered call writes its secret as it is, between two quotes. The check that accepts a secret, the
scan that tells live code from literals, and the two shapes by which calls are recognised agree on
where the secret ends: whatever else it holds, comment marks, brackets, or a call of its own.

* `liveness_quiet`, `liveness_quoted`: which characters of a piece of text are live.
* `Integration.call_eq`: the text before the secret, the secret, and the text behind it.
* `Swift.end?_callShape_call`, `ObjectiveC.end?_callShape_call`: how far a rendered call is recognised.
* `Integration.contained_of_integration`: **an accepted secret cannot leave its literal.**
-/

namespace SdkWiring

variable {quoting : Quoting} {before after b rest t : Text} {c : Char} {p : Position} {l : Nat}

/-- Quiet text in live code is live from end to end. -/
theorem liveness_quiet (h : ∀ c ∈ t, Text.isQuiet c = true) :
    (stretch quoting ⟨.code, l⟩ before t after).map Position.significant = t.map fun _ => true := by
  induction t generalizing before with
  | nil => rfl
  | cons c t ih =>
    rw [stretch_cons, step_quiet (h c (by simp)), List.map_cons, List.map_cons,
      ih fun d hd => h d (by simp [hd])]
    rfl

/-- Verbatim text in a literal is not live, from end to end. -/
theorem liveness_verbatim (h : ∀ c ∈ t, Text.isVerbatim c = true) :
    (stretch quoting ⟨.literal '"' false, l⟩ before t after).map Position.significant =
      t.map fun _ => false := by
  induction t generalizing before with
  | nil => rfl
  | cons c t ih =>
    have hone : ∀ d ∈ [c], Text.isVerbatim d = true :=
      List.forall_mem_singleton.2 (h c (by simp))
    have hstep : (Mode.mk (.literal '"' false) l).step quoting c (t ++ after).head? =
        ⟨.literal '"' false, l⟩ := behind_verbatim hone
    rw [stretch_cons, hstep, List.map_cons, List.map_cons, ih fun d hd => h d (by simp [hd])]
    rfl

/-- **Of a literal the opening quote is live**, the text in it and the closing quote are not. -/
theorem liveness_quoted (h : ∀ c ∈ t, Text.isVerbatim c = true) :
    (stretch quoting ⟨.code, l⟩ before ('"' :: (t ++ ['"'])) after).map Position.significant =
      true :: (t ++ ['"']).map fun _ => false := by
  rw [stretch_cons, step_quote, stretch_append, behind_verbatim h, List.map_cons, List.map_append,
    liveness_verbatim h, List.map_append]
  rfl

namespace Integration

variable {i : Integration} {language : Language}

/-- The text of a start call before its secret, up to and including the opening quote. -/
def beforeSecret : Language → Text
  | .swift => "MSMobileCenter.start(\"".toList
  | .objectiveC => "[MSMobileCenter start:@\"".toList

/-- The text of a start call behind the closing quote of its secret. -/
def behindSecret (i : Integration) : Language → Text
  | .swift => i.swiftArguments ++ [')']
  | .objectiveC => i.objectiveCArguments ++ [';']

/-- The rendered start call. -/
def call (language : Language) (i : Integration) : Text := (Recipe.forIntegration language i).call

/-- **The text of a rendered call**: the secret in quotes, between two texts that do not depend on
it. -/
theorem call_eq (language : Language) (i : Integration) :
    i.call language = beforeSecret language ++ (i.secret ++ '"' :: i.behindSecret language) := by
  have hquote : ∀ {x x' y : Text}, x = x' ++ ['"'] → x' ++ '"' :: y = x ++ y := by
    rintro x x' y rfl
    simp
  cases language with
  | swift => exact i.swiftCall_eq.trans (hquote (by decide))
  | objectiveC => exact i.objectiveCCall_eq.trans (hquote (by decide))

/-- A character of a rendered call that is part of no literal: quiet, and no control character. -/
def isInert (c : Char) : Bool := Text.isQuiet c && !Text.isControl c

theorem isInert_of_mem_argumentChars : ∀ c ∈ argumentChars, isInert c = true := by decide

/-- The text before the secret is inert but for the quote that ends it. -/
theorem beforeSecret_eq (language : Language) :
    ∃ head, beforeSecret language = head ++ ['"'] ∧ ∀ c ∈ head, isInert c = true := by
  refine ⟨(beforeSecret language).dropLast, ?_, ?_⟩ <;> cases language <;> decide

theorem isInert_behindSecret (i : Integration) (language : Language) :
    ∀ c ∈ i.behindSecret language, isInert c = true := by
  have key : ∀ {args : Text} {last : Char}, (∀ c ∈ args, c ∈ argumentChars) → isInert last = true →
      ∀ c ∈ args ++ [last], isInert c = true := by
    intro args last hargs hlast c hc
    rcases List.mem_append.1 hc with hc | hc
    · exact isInert_of_mem_argumentChars c (hargs c hc)
    · exact List.mem_singleton.1 hc ▸ hlast
  cases language with
  | swift => exact key (fun c hc => mem_swiftArguments hc) (by decide)
  | objectiveC => exact key (fun c hc => mem_objectiveCArguments hc) (by decide)

/-- A rendered call in the pieces by which it is scanned: quiet text, the literal, quiet text. -/
theorem call_pieces (language : Language) (i : Integration) : ∃ head,
    beforeSecret language = head ++ ['"'] ∧ (∀ c ∈ head, isInert c = true) ∧
      i.call language =
        head ++ ('"' :: (i.secret ++ ['"']) ++ i.behindSecret language) := by
  obtain ⟨head, hhead, hinert⟩ := beforeSecret_eq language
  exact ⟨head, hhead, hinert, by rw [call_eq, hhead]; simp⟩

theorem isQuiet_of_isInert {t : Text} (h : ∀ c ∈ t, isInert c = true) :
    ∀ c ∈ t, Text.isQuiet c = true := fun c hc => by
  have hinert := h c hc
  rw [isInert, Bool.and_eq_true] at hinert
  exact hinert.1

theorem isControl_of_isInert (h : isInert c = true) : Text.isControl c = false := by
  rw [isInert, Bool.and_eq_true, Bool.not_eq_true'] at h
  exact h.2

/-- **The live characters of a rendered call**: all but the secret and the quote that closes it. -/
theorem Checked.liveness (h : i.Checked) (language : Language) (quoting : Quoting) :
    (positions quoting (i.call language)).map Position.significant =
      (beforeSecret language).map (fun _ => true) ++ ((i.secret ++ ['"']).map (fun _ => false) ++
        (i.behindSecret language).map fun _ => true) := by
  obtain ⟨head, hhead, hinert, hcall⟩ := call_pieces language i
  have hverbatim : ∀ c ∈ i.secret, Text.isVerbatim c = true := fun c hc => (h.secret_spec c hc).1
  rw [positions_eq_stretch, hcall, stretch_append, Mode.start,
    behind_quiet (isQuiet_of_isInert hinert), stretch_append, behind_quoted hverbatim,
    List.map_append, List.map_append, liveness_quiet (isQuiet_of_isInert hinert),
    liveness_quoted hverbatim, liveness_quiet (isQuiet_of_isInert (i.isInert_behindSecret language)),
    hhead]
  simp

/-- Behind a rendered call the scan is where it was before. -/
theorem Checked.behind_call (h : i.Checked) (language : Language) (next : Option Char) :
    (Mode.mk .code l).behind quoting (i.call language) next = ⟨.code, l⟩ := by
  obtain ⟨head, -, hinert, hcall⟩ := call_pieces language i
  rw [hcall, behind_append, behind_quiet (isQuiet_of_isInert hinert), behind_append,
    behind_quoted fun c hc => (h.secret_spec c hc).1,
    behind_quiet (isQuiet_of_isInert (i.isInert_behindSecret language))]

/-- Quiet text has no brace, live or not. -/
theorem no_brace_of_isInert {m : Mode} (h : ∀ c ∈ t, isInert c = true)
    (hp : p ∈ stretch quoting m before t after) : p.live '{' = false ∧ p.live '}' = false := by
  have hchar : p.char ∈ t := map_char_stretch (t := t) ▸ List.mem_map_of_mem hp
  have hquiet := isQuiet_of_isInert h _ hchar
  simp only [Text.isQuiet, Bool.and_eq_true, bne_iff_ne] at hquiet
  simp [Position.live, hquiet]

/-- **No brace of a rendered call is live.** -/
theorem Checked.no_brace (h : i.Checked) (language : Language)
    (hp : p ∈ positions quoting (i.call language)) : p.live '{' = false ∧ p.live '}' = false := by
  obtain ⟨head, -, hinert, hcall⟩ := call_pieces language i
  have hverbatim : ∀ c ∈ i.secret, Text.isVerbatim c = true := fun c hc => (h.secret_spec c hc).1
  rw [positions_eq_stretch, hcall, stretch_append, Mode.start,
    behind_quiet (isQuiet_of_isInert hinert), stretch_append, List.mem_append, List.mem_append] at hp
  rcases hp with hp | hp | hp
  · exact no_brace_of_isInert hinert hp
  · have hquote := (stretch_quoted hverbatim hp).2
    have hnot : ∀ {d}, d ≠ '"' → p.live d = false := by
      intro d hd
      rw [Bool.eq_false_iff, ne_eq, Position.live_iff]
      rintro ⟨hsig, rfl⟩
      exact hd (hquote hsig)
    exact ⟨hnot (by decide), hnot (by decide)⟩
  · exact no_brace_of_isInert (i.isInert_behindSecret language) hp

/-- **No control character is written**, and so no line break. -/
theorem Checked.isControl_call (h : i.Checked) (language : Language) :
    ∀ c ∈ i.call language, Text.isControl c = false := by
  obtain ⟨head, -, hinert, hcall⟩ := call_pieces language i
  intro c hc
  simp only [hcall, List.mem_append, List.mem_cons, List.not_mem_nil, or_false] at hc
  rcases hc with hc | (rfl | hc | rfl) | hc
  · exact isControl_of_isInert (hinert c hc)
  · decide
  · exact (h.secret_spec c hc).2.2
  · decide
  · exact isControl_of_isInert (i.isInert_behindSecret language c hc)

/-- **The semicolon of an Objective-C call** is its last character. -/
theorem Checked.semicolon_call (h : i.Checked) :
    ∃ body, i.call .objectiveC = body ++ [';'] ∧ ';' ∉ body := by
  refine ⟨beforeSecret .objectiveC ++ (i.secret ++ '"' :: i.objectiveCArguments), ?_, ?_⟩
  · rw [call_eq, behindSecret]
    simp
  · simp only [List.mem_append, List.mem_cons]
    rintro (hc | hc | hc | hc)
    · exact absurd hc (by decide)
    · exact (h.secret_spec _ hc).2.1 rfl
    · exact absurd hc (by decide)
    · exact (Recipe.argumentChars_spec _ (mem_objectiveCArguments hc)).2.2.2.2 rfl

/-- The words of a rendered Swift call and what stands between its parentheses. -/
theorem call_swift {r : Recipe} (hr : r.receiver = receiver) (hs : r.selector = selector) :
    i.call .swift = Swift.callWords r [] [] [] ++
      '(' :: ('"' :: (i.secret ++ '"' :: i.swiftArguments) ++ [')']) := by
  have hwords : beforeSecret .swift = receiver ++ '.' :: (selector ++ "(\"".toList) := by
    decide
  rw [call_eq, hwords, behindSecret, Swift.callWords, hr, hs]
  simp

/-- The words of a rendered Objective-C call and what follows its selector. -/
theorem call_objectiveC {r : Recipe} (hr : r.receiver = receiver) (hs : r.selector = selector) :
    i.call .objectiveC = ObjectiveC.callWords r [] [' '] ++
      (":@\"".toList ++ (i.secret ++ '"' :: i.objectiveCArguments) ++ [';']) := by
  have hwords : beforeSecret .objectiveC =
      '[' :: (receiver ++ ' ' :: (selector ++ ":@\"".toList)) := by decide
  rw [call_eq, hwords, behindSecret, ObjectiveC.callWords, hr, hs]
  simp

end Integration

open Integration in
/-- **A rendered Swift call is recognised as far as it goes** just if no closing parenthesis follows on
its line. -/
theorem Swift.end?_callShape_call {i : Integration} (h : i.Checked) {r : Recipe}
    (hr : r.receiver = receiver) (hs : r.selector = selector) :
    (callShape r).end? ⟨b, i.call .swift ++ rest⟩ = some ⟨(i.call .swift).reverse ++ b, rest⟩ ↔
      ')' ∉ rest.takeWhile (· != '\n') := by
  have hid : Text.isIdentifier r.selector = true := by rw [hs]; decide
  rw [end?_callShape hid]
  constructor
  · rintro ⟨o, -, u, rest', -, -, hlast, hcursor⟩
    rwa [(Cursor.mk.inj hcursor).2]
  · intro hlast
    set inner : Text := '"' :: (i.secret ++ '"' :: i.swiftArguments)
    have hcall : i.call .swift = callWords r [] [] [] ++ '(' :: (inner ++ [')']) := call_swift hr hs
    have hline : '\n' ∉ inner := fun hn =>
      absurd (h.isControl_call .swift '\n' (by simp [hcall, hn])) (by decide)
    refine ⟨⟨'(' :: ((callWords r [] [] []).reverse ++ b), inner ++ ')' :: rest⟩,
      mem_callHead.2 ⟨[], [], [], by simp, ?_, rfl⟩, inner, rest, rfl, hline, hlast, ?_⟩
    · simp [hcall]
    · simp [hcall]

open Integration in
/-- **A rendered Objective-C call is recognised as far as it goes**, whatever follows it. -/
theorem ObjectiveC.end?_callShape_call {i : Integration} (h : i.Checked) {r : Recipe}
    (hr : r.receiver = receiver) (hs : r.selector = selector) :
    (callShape r).end? ⟨b, i.call .objectiveC ++ rest⟩ =
      some ⟨(i.call .objectiveC).reverse ++ b, rest⟩ := by
  have hid : Text.isIdentifier r.receiver = true ∧ Text.isIdentifier r.selector = true := by
    rw [hr, hs]
    decide
  set inner : Text := ":@\"".toList ++ (i.secret ++ '"' :: i.objectiveCArguments) with hinner
  have hcall : i.call .objectiveC = callWords r [] [' '] ++ (inner ++ [';']) := call_objectiveC hr hs
  have hsemi : ';' ∉ inner := by
    obtain ⟨body, hbody, hnot⟩ := h.semicolon_call
    rw [hcall, ← List.append_assoc] at hbody
    rw [← (List.append_inj' hbody rfl).1, List.mem_append, not_or] at hnot
    exact hnot.2
  refine (end?_callShape hid.1 hid.2).2
    ⟨⟨(callWords r [] [' ']).reverse ++ b, inner ++ ';' :: rest⟩,
      mem_callHead.2 ⟨[], [' '], by decide, by simp, ?_, rfl, ?_⟩, inner, rest, rfl, hsemi, ?_⟩
  · simp [hcall]
  · -- the selector ends at its colon
    obtain ⟨x, c, hx, hword⟩ := Text.exists_last_of_identifier hid.2
    simp [callWords, hx, hword, hinner, show Text.isWord ':' = false by decide]
  · simp [hcall]

namespace Integration

variable {i : Integration} {language : Language}

/-- **A rendered call that keeps its secret in its literal.** -/
structure Contained (language : Language) (i : Integration) (call : Text) : Prop where
  text : call = beforeSecret language ++ ((i.secret ++ ['"']) ++ i.behindSecret language)
  /-- Just the secret and the quote that closes it are not live. -/
  liveness : (positions language.quoting call).map Position.significant =
    (beforeSecret language).map (fun _ => true) ++ ((i.secret ++ ['"']).map (fun _ => false) ++
      (i.behindSecret language).map fun _ => true)
  /-- The scan ends in live code, on the level where it starts. -/
  ends : ∀ next, Mode.start.behind language.quoting call next = .start
  braces : ∀ p ∈ positions language.quoting call, p.live '{' = false ∧ p.live '}' = false
  controls : ∀ c ∈ call, Text.isControl c = false
  lineBreaks : '\n' ∉ call ∧ '\r' ∉ call
  semicolon : language = .objectiveC → call.count ';' = 1 ∧ call.getLast? = some ';'
  /-- A recipe that looks for the calls of the SDK takes the call for one, and no more than the call:
  in Swift just if no closing parenthesis follows on the line, in Objective-C always. -/
  shape : ∀ r : Recipe, r.receiver = receiver → r.selector = selector → ∀ b rest : Text,
    match language with
    | .swift => (Swift.callShape r).end? ⟨b, call ++ rest⟩ = some ⟨call.reverse ++ b, rest⟩ ↔
        ')' ∉ rest.takeWhile (· != '\n')
    | .objectiveC =>
        (ObjectiveC.callShape r).end? ⟨b, call ++ rest⟩ = some ⟨call.reverse ++ b, rest⟩

theorem Checked.contained (h : i.Checked) (language : Language) :
    Contained language i (i.call language) where
  text := by rw [call_eq]; simp
  liveness := h.liveness language language.quoting
  ends := h.behind_call language
  braces _ := h.no_brace language
  controls := h.isControl_call language
  lineBreaks := ⟨fun hc => absurd (h.isControl_call language _ hc) (by decide),
    fun hc => absurd (h.isControl_call language _ hc) (by decide)⟩
  semicolon := by
    rintro rfl
    obtain ⟨body, hbody, hnot⟩ := h.semicolon_call
    simp [hbody, List.count_eq_zero_of_not_mem hnot]
  shape r hr hs b rest := by
    cases language with
    | swift => exact Swift.end?_callShape_call h hr hs
    | objectiveC => exact ObjectiveC.end?_callShape_call h hr hs

/-- **An accepted secret cannot leave its literal**, in either language and with any services. -/
theorem contained_of_integration {secret : Option Text} {services : List Service}
    {settings : Settings} (language : Language)
    (h : Operation.integration secret services settings = .ok (.integrate i)) :
    Contained language i (Recipe.forIntegration language i).call :=
  (checked_of_integration h).contained language

/-- A secret that tries to leave its literal: it comments, closes brackets and begins a call. -/
def unruly : Text := "'/*\x7b\x7d)] //[MSMobileCenter start:@".toList

theorem contained_of_integration_unruly : ∃ i,
    Operation.integration (some unruly) [.crashes, .analytics] {} = .ok (.integrate i) ∧
      Contained .objectiveC i (Recipe.forIntegration .objectiveC i).call :=
  have h : Operation.integration (some unruly) [.crashes, .analytics] {} =
      .ok (.integrate (.ofServices unruly [.crashes, .analytics])) := rfl
  ⟨_, h, contained_of_integration .objectiveC h⟩

end Integration

end SdkWiring
