import SdkWiring.Proofs.Delegate.Run
import SdkWiring.Proofs.Delegate.StartCall
import SdkWiring.Proofs.Sdk.Rendered
import SdkWiring.Proofs.Text.Parts

/-!
# The line of a start call

A recipe that writes an integration renders its start call on a line of its own. Scanned inside a
method, that line is recognised as one start call, and nothing else in it is.

* `Recipe.callAt?_eq_none`: where no start call can stand.
* `Recipe.Writes.calls_callLine`: the calls in a rendered line.
* `Recipe.Writes.run_callLine`: a survey behind a rendered line.
-/

namespace SdkWiring

/-- A recipe that writes an integration into a delegate with sensible names. -/
structure Recipe.Writes (r : Recipe) (i : Integration) : Prop where
  receiver : r.receiver = Integration.receiver
  selector : r.selector = Integration.selector
  call : r.call = (Recipe.forIntegration r.language i).call
  frameworks : r.frameworks = i.frameworks
  indent : ∀ c ∈ r.indent, Text.isBlank c = true
  typeName : Text.isIdentifier r.typeName = true
  checked : i.Checked

/-- A recipe that looks for the start call of the SDK and handles frameworks of the SDK, whatever the
names in it. -/
structure Recipe.OfSdk (r : Recipe) : Prop where
  receiver : r.receiver = Integration.receiver
  selector : r.selector = Integration.selector
  frameworks : ∀ f ∈ r.frameworks, f ∈ Service.allFrameworks
  frameworks_ne_nil : r.frameworks ≠ []

/-- What the secret of a checked integration is made of. -/
theorem Integration.Checked.secret_spec {i : Integration} (h : i.Checked) : ∀ c ∈ i.secret,
    Text.isVerbatim c = true ∧ c ≠ ';' ∧ Text.isControl c = false := by
  intro c hc
  have hsafe := h.secret c hc
  simp only [Operation.isUnsafe, Bool.or_eq_false_iff, beq_eq_false_iff_ne] at hsafe
  obtain ⟨⟨⟨hquote, hslash⟩, hsemi⟩, hcontrol⟩ := hsafe
  exact ⟨by simp [Text.isVerbatim, hquote, hslash], hsemi, hcontrol⟩

/-- A character that is not in what a start call begins with. -/
def Text.stopsCall (c : Char) : Bool := c != '[' && !Text.isSpace c && !Text.isWord c

namespace Recipe

variable {r : Recipe} {i : Integration} {p : Position} {ps : List Position} {call : Span}
  {s : Survey} {quoting : Quoting} {b a t y : Text} {c : Char} {l : Nat} {eol : LineBreak}

theorem OfSdk.isIdentifier (h : r.OfSdk) :
    Text.isIdentifier r.receiver = true ∧ Text.isIdentifier r.selector = true := by
  rw [h.receiver, h.selector]
  decide

theorem Writes.ofSdk (w : r.Writes i) : r.OfSdk where
  receiver := w.receiver
  selector := w.selector
  frameworks := w.frameworks ▸ i.mem_allFrameworks
  frameworks_ne_nil := w.frameworks ▸ Integration.frameworks_ne_nil

theorem Writes.isIdentifier (w : r.Writes i) :
    Text.isIdentifier r.receiver = true ∧ Text.isIdentifier r.selector = true :=
  w.ofSdk.isIdentifier

/-- What a start call begins with: its receiver, behind a bracket in Objective-C. -/
theorem lead_of_callAt? (hr : r.receiver = Integration.receiver)
    (hs : r.selector = Integration.selector) (h : r.callAt? p = some call) :
    ∃ lead, (lead = [] ∨ ∃ s, lead = '[' :: s ∧ ∀ c ∈ s, Text.isSpace c = true) ∧
      lead ++ r.receiver <+: p.forepart := by
  have hid : Text.isIdentifier r.receiver = true ∧ Text.isIdentifier r.selector = true := by
    rw [hr, hs]
    decide
  cases hl : r.language with
  | swift =>
    obtain ⟨-, -, s₁, s₂, s₃, u, rest, -, hfore, -⟩ := (Swift.callAt?_eq_some hl hid.2).1 h
    exact ⟨[], .inl rfl, by rw [hfore, Swift.callWords]; simp⟩
  | objectiveC =>
    obtain ⟨-, s₁, s₂, u, rest, hsp, -, hfore, -⟩ :=
      (ObjectiveC.callAt?_eq_some hl hid.1 hid.2).1 h
    refine ⟨'[' :: s₁, .inr ⟨s₁, rfl, fun c hc => hsp c (by simp [hc])⟩, ?_⟩
    rw [hfore, ObjectiveC.callWords]
    exact ⟨s₂ ++ (r.selector ++ (u ++ ';' :: rest)), by simp⟩

/-- **No start call stands where its receiver does not follow** before a character that is in no
beginning of a call. -/
theorem callAt?_eq_none (hr : r.receiver = Integration.receiver)
    (hs : r.selector = Integration.selector) (hc : Text.stopsCall c = true)
    (hf : p.forepart = y ++ c :: a) (hy : ¬ Integration.receiver <:+: y) : r.callAt? p = none := by
  rw [Option.eq_none_iff_forall_ne_some]
  intro call h
  obtain ⟨lead, hlead, hpre⟩ := lead_of_callAt? hr hs h
  simp only [Text.stopsCall, Bool.and_eq_true, bne_iff_ne, Bool.not_eq_true'] at hc
  have hstop : c ∉ lead ++ r.receiver := by
    rw [List.mem_append, not_or]
    constructor
    · rcases hlead with rfl | ⟨s, rfl, hsp⟩
      · simp
      · rw [List.mem_cons, not_or]
        exact ⟨hc.1.1, fun h => by simp [hsp c h] at hc⟩
    · intro h
      have hword : ∀ c ∈ Integration.receiver, Text.isWord c = true := by decide
      rw [hr] at h
      simp [hword c h] at hc
  rw [hf, Text.prefix_append_stop hstop, hr] at hpre
  exact hy ((List.suffix_append lead _).isInfix.trans hpre.isInfix)

/-- No start call stands where its receiver does not follow at all. -/
theorem callAt?_eq_none_of_absent (hr : r.receiver = Integration.receiver)
    (hs : r.selector = Integration.selector) (hy : ¬ Integration.receiver <:+: p.forepart) :
    r.callAt? p = none := by
  rw [Option.eq_none_iff_forall_ne_some]
  intro call h
  obtain ⟨lead, -, hpre⟩ := lead_of_callAt? hr hs h
  rw [hr] at hpre
  exact hy ((List.suffix_append lead _).isInfix.trans hpre.isInfix)

/-- No start call stands at white space. -/
theorem callAt?_eq_none_of_isSpace (hr : r.receiver = Integration.receiver)
    (hs : r.selector = Integration.selector) (hp : Text.isSpace p.char = true) :
    r.callAt? p = none := by
  rw [Option.eq_none_iff_forall_ne_some]
  intro call h
  obtain ⟨lead, hlead, ⟨rest, hpre⟩⟩ := lead_of_callAt? hr hs h
  have hchar : p.char = '[' ∨ p.char = 'M' := by
    rcases hlead with rfl | ⟨s, rfl, -⟩
    · rw [hr, Position.forepart] at hpre
      exact .inr (List.cons.inj hpre).1.symm
    · exact .inl (List.cons.inj hpre).1.symm
  rcases hchar with h | h <;> rw [h] at hp <;> exact absurd hp (by decide)

/-- No start call stands outside live code. -/
theorem callAt?_eq_none_of_not_significant (hp : p.significant = false) : r.callAt? p = none := by
  unfold callAt?
  cases r.language <;> simp [hp, Position.live]

/-- Deeper than the braces of methods a survey follows the header and records calls, no more. -/
theorem survey_deep (hp : r.methodLevel < p.level) : r.survey s p =
    { s with
      header := s.header.next p
      startCalls := s.startCalls ++ if s.inMethod then (r.callAt? p).toList else [] } := by
  have hne : (p.level == r.methodLevel) = false := by simpa using by omega
  have hzero : (p.level == 0) = false := by simpa using by omega
  have htype : r.opensType s.header p = false ∧ r.closesType p = false := by
    unfold opensType closesType
    cases r.language <;> simp [hzero]
  have hmethod : r.opensMethod s.header p = false ∧ r.closesMethod p = false := by
    simp [opensMethod, closesMethod, hne]
  have himports : r.endsImports p = false := by simp [endsImports, hzero]
  simp [survey, htype, hmethod, himports]

theorem run_deep (hps : ∀ p ∈ ps, r.methodLevel < p.level) (hin : s.inMethod = true) :
    ∃ k, r.run s ps =
      { s with header := k, startCalls := s.startCalls ++ ps.filterMap r.callAt? } := by
  induction ps generalizing s with
  | nil => exact ⟨s.header, by simp⟩
  | cons p ps ih =>
    rw [run_cons, survey_deep (hps p (by simp)), if_pos hin]
    obtain ⟨k, hk⟩ := ih (s := { s with
      header := s.header.next p, startCalls := s.startCalls ++ (r.callAt? p).toList })
      (fun q hq => hps q (by simp [hq])) hin
    refine ⟨k, hk.trans ?_⟩
    cases hc : r.callAt? p <;> simp [hc]

/-- The parts of a rendered call around its secret. -/
structure CallParts (r : Recipe) (i : Integration) (head args : Text) (last : Char) : Prop where
  call : r.call = head ++ '"' :: (i.secret ++ '"' :: (args ++ [last]))
  once : ∃ c tail, head = c :: tail ∧
    (¬ Integration.receiver <:+: tail ∨ r.language = .objectiveC ∧ '[' ∉ tail)
  absent : ¬ Integration.receiver <:+: args
  stops : Text.stopsCall last = true
  quiet : ∀ c ∈ head ++ (args ++ [last]), Text.isQuiet c = true
  line : ∀ c ∈ head ++ (args ++ [last]), c ≠ '\n' ∧ c ≠ '\r'
  swift : r.language = .swift → head = "MSMobileCenter.start(".toList ∧ last = ')'
  objectiveC : r.language = .objectiveC →
    head = "[MSMobileCenter start:@".toList ∧ last = ';' ∧ ';' ∉ args

/-- The arguments of a call are quiet, and name no receiver. -/
theorem argumentChars_spec : ∀ c ∈ Integration.argumentChars,
    Text.isQuiet c = true ∧ c ≠ '\n' ∧ c ≠ '\r' ∧ c ≠ 'o' ∧ c ≠ ';' := by decide

theorem Writes.callParts (w : r.Writes i) : ∃ head args last, r.CallParts i head args last := by
  have hargs : ∀ args : Text, (∀ c ∈ args, c ∈ Integration.argumentChars) →
      ¬ Integration.receiver <:+: args := by
    intro args h hin
    have ho : 'o' ∈ Integration.receiver := by decide
    exact (argumentChars_spec _ (h _ (hin.subset ho))).2.2.2.1 rfl
  have hall : ∀ {head args : Text} {last : Char} {P : Char → Prop}, (∀ c ∈ head, P c) →
      (∀ c ∈ args, P c) → P last → ∀ c ∈ head ++ (args ++ [last]), P c := by
    intro head args last P hh ha hl c hc
    simp only [List.mem_append, List.mem_singleton] at hc
    rcases hc with hc | hc | rfl
    · exact hh c hc
    · exact ha c hc
    · exact hl
  cases hl : r.language with
  | swift =>
    have hmem : ∀ c ∈ i.swiftArguments, c ∈ Integration.argumentChars := fun c hc =>
      Integration.mem_swiftArguments hc
    refine ⟨"MSMobileCenter.start(".toList, i.swiftArguments, ')', ?_, ?_, hargs _ hmem, by decide,
      hall (by decide) (fun c hc => (argumentChars_spec c (hmem c hc)).1) (by decide),
      hall (by decide) (fun c hc => ?_) (by decide), fun _ => ⟨rfl, rfl⟩, fun h => ?_⟩
    · rw [w.call, hl]
      exact i.swiftCall_eq
    · exact ⟨_, _, rfl, .inl (by decide)⟩
    · have := argumentChars_spec c (hmem c hc)
      exact ⟨this.2.1, this.2.2.1⟩
    · rw [hl] at h
      cases h
  | objectiveC =>
    have hmem : ∀ c ∈ i.objectiveCArguments, c ∈ Integration.argumentChars := fun c hc =>
      Integration.mem_objectiveCArguments hc
    refine ⟨"[MSMobileCenter start:@".toList, i.objectiveCArguments, ';', ?_, ?_, hargs _ hmem,
      by decide, hall (by decide) (fun c hc => (argumentChars_spec c (hmem c hc)).1)
      (by decide), hall (by decide) (fun c hc => ?_) (by decide), fun h => ?_,
      fun _ => ⟨rfl, rfl, fun h => (argumentChars_spec _ (hmem _ h)).2.2.2.2 rfl⟩⟩
    · rw [w.call, hl]
      exact i.objectiveCCall_eq
    · exact ⟨_, _, rfl, .inr ⟨hl, by decide⟩⟩
    · have := argumentChars_spec c (hmem c hc)
      exact ⟨this.2.1, this.2.2.1⟩
    · rw [hl] at h
      cases h

/-- The secret of a checked integration can stand in a literal as it is. -/
theorem Writes.secret_spec (w : r.Writes i) : ∀ c ∈ i.secret,
    Text.isVerbatim c = true ∧ c ≠ ';' ∧ c ≠ '\n' ∧ c ≠ '\r' := by
  intro c hc
  obtain ⟨hverbatim, hsemi, hcontrol⟩ := w.checked.secret_spec c hc
  refine ⟨hverbatim, hsemi, ?_, ?_⟩ <;> rintro rfl <;> exact absurd hcontrol (by decide)

/-- What stands before a rendered call on its line. -/
theorem Writes.mem_lead (w : r.Writes i) (hc : c ∈ eol.text ++ r.indent) :
    c ∈ ['\n', '\r', ' ', '\t'] := by
  rcases List.mem_append.1 hc with h | h
  · cases eol with
    | lf => exact (by decide : ∀ c ∈ LineBreak.lf.text, c ∈ ['\n', '\r', ' ', '\t']) c h
    | crlf => exact (by decide : ∀ c ∈ LineBreak.crlf.text, c ∈ ['\n', '\r', ' ', '\t']) c h
  · have hblank := w.indent c h
    simp only [Text.isBlank, Bool.or_eq_true, beq_iff_eq] at hblank
    rcases hblank with rfl | rfl <;> decide

theorem Writes.isSpace_lead (w : r.Writes i) (eol : LineBreak) :
    ∀ c ∈ eol.text ++ r.indent, Text.isSpace c = true := fun c hc =>
  (by decide : ∀ c ∈ ['\n', '\r', ' ', '\t'], Text.isSpace c = true) c (w.mem_lead hc)

namespace CallParts

variable {head args : Text} {last : Char}

/-- The line of a call in three parts: quiet text, the quoted secret, quiet text. -/
theorem callLine (h : r.CallParts i head args last) (eol : LineBreak) : r.callLine eol =
    (eol.text ++ r.indent ++ head) ++ ('"' :: (i.secret ++ ['"']) ++ (args ++ [last])) := by
  rw [Recipe.callLine, h.call]
  simp

theorem quiet_lead (w : r.Writes i) (h : r.CallParts i head args last) :
    ∀ c ∈ eol.text ++ r.indent ++ head, Text.isQuiet c = true := by
  intro c hc
  rcases List.mem_append.1 hc with hc | hc
  · exact Text.isQuiet_of_isSpace (w.isSpace_lead eol c hc)
  · exact h.quiet c (List.mem_append_left _ hc)

theorem quiet_end (h : r.CallParts i head args last) :
    ∀ c ∈ args ++ [last], Text.isQuiet c = true :=
  fun c hc => h.quiet c (List.mem_append_right _ hc)

theorem behind_quotedSecret (w : r.Writes i) {next : Option Char} :
    (Mode.mk .code l).behind quoting ('"' :: (i.secret ++ ['"'])) next = ⟨.code, l⟩ :=
  behind_quoted fun c hc => (w.secret_spec c hc).1

/-- Behind its first character a call begins no other one. -/
theorem callAt?_tail (w : r.Writes i) (h : r.CallParts i head args last) {c : Char} {tail : Text}
    (hhead : head = c :: tail) (hp : p ∈ stretch quoting ⟨.code, l⟩ b
      (tail ++ ('"' :: (i.secret ++ ['"']) ++ (args ++ [last]))) a) : r.callAt? p = none := by
  obtain ⟨c', tail', hhead', honce⟩ := h.once
  obtain ⟨rfl, rfl⟩ := List.cons.inj (hhead.symm.trans hhead')
  have hquiet : ∀ d ∈ tail, Text.isQuiet d = true := fun d hd => h.quiet d (by simp [hhead, hd])
  rw [stretch_append (x := tail), behind_quiet hquiet, stretch_append (y := args ++ [last]),
    behind_quotedSecret w, List.mem_append, List.mem_append] at hp
  rcases hp with hp | hp | hp
  · obtain ⟨x, y, htail, hplace⟩ := stretch_split_of_mem hp
    have hfore : p.forepart =
        (p.char :: y) ++ '"' :: (i.secret ++ ['"'] ++ (args ++ [last]) ++ a) := by
      rw [Position.forepart, congrArg Position.after hplace]
      simp [Mode.place]
    rcases honce with honce | ⟨hl, hbracket⟩
    · refine callAt?_eq_none w.receiver w.selector (by decide) hfore fun hin => honce ?_
      exact hin.trans ⟨x, [], by rw [htail]; simp⟩
    · have hne : p.char ≠ '[' := fun e => hbracket (by rw [htail, e]; simp)
      simp [callAt?_objectiveC hl, Position.live, hne]
  · -- inside the literal nothing is live but the quote that opens it
    cases hsig : p.significant with
    | false => exact callAt?_eq_none_of_not_significant hsig
    | true =>
      have hchar := (stretch_quoted (fun c hc => (w.secret_spec c hc).1) hp).2 hsig
      refine callAt?_eq_none (y := []) (c := '"') w.receiver w.selector (by decide)
        (by rw [Position.forepart, hchar]; rfl) (by decide)
  · obtain ⟨x, y, hargs, hplace⟩ := stretch_split_of_mem hp
    obtain ⟨z, hz⟩ : ∃ z, p.char :: y = z ++ [last] :=
      ⟨_, (List.dropLast_concat_getLast (by simp)).symm.trans (by
        rw [show (p.char :: y).getLast (by simp) = last by
          have := congrArg List.getLast? hargs
          rw [List.getLast?_append, List.getLast?_append] at this
          simpa [List.getLast?_eq_some_getLast] using this.symm])⟩
    have hfore : p.forepart = z ++ last :: a := by
      rw [Position.forepart, congrArg Position.after hplace, Mode.place, ← List.cons_append, hz]
      simp
    refine callAt?_eq_none w.receiver w.selector h.stops hfore fun hin => h.absent ?_
    rw [hz, ← List.append_assoc] at hargs
    rw [(List.append_inj' hargs rfl).1]
    exact hin.trans (List.suffix_append _ _).isInfix

end CallParts

theorem Writes.behind_callLine (w : r.Writes i) {next : Option Char} :
    (Mode.mk .code l).behind quoting (r.callLine eol) next = ⟨.code, l⟩ := by
  obtain ⟨head, args, last, h⟩ := w.callParts
  rw [h.callLine, behind_append, behind_quiet (h.quiet_lead w), behind_append,
    CallParts.behind_quotedSecret w, behind_quiet h.quiet_end]

/-- All of the line stands at the level where it starts. -/
theorem Writes.level_callLine (w : r.Writes i)
    (hp : p ∈ stretch quoting ⟨.code, l⟩ b (r.callLine eol) a) : p.level = l := by
  obtain ⟨head, args, last, h⟩ := w.callParts
  rw [h.callLine, stretch_append (x := eol.text ++ r.indent ++ head),
    behind_quiet (h.quiet_lead w), stretch_append (y := args ++ [last]),
    CallParts.behind_quotedSecret w, List.mem_append, List.mem_append] at hp
  rcases hp with hp | hp | hp
  · exact (stretch_quiet (h.quiet_lead w) hp).2
  · exact (stretch_quoted (fun c hc => (w.secret_spec c hc).1) hp).1
  · exact (stretch_quiet h.quiet_end hp).2

/-- The line breaks at its start only. -/
theorem Writes.no_break (w : r.Writes i) : '\n' ∉ r.indent ++ r.call ∧ '\r' ∉ r.indent ++ r.call := by
  obtain ⟨head, args, last, h⟩ := w.callParts
  have hall : ∀ c ∈ r.indent ++ r.call, c ≠ '\n' ∧ c ≠ '\r' := by
    intro c hc
    rw [h.call] at hc
    simp only [List.mem_append, List.mem_cons] at hc
    rcases hc with hc | hc | rfl | hc | rfl | hc
    · constructor <;> rintro rfl <;> exact absurd (w.indent _ hc) (by decide)
    · exact h.line c (List.mem_append_left _ hc)
    · decide
    · exact (w.secret_spec c hc).2.2
    · decide
    · exact h.line c (List.mem_append_right _ (List.mem_append.2 (by simpa using hc)))
  exact ⟨fun h => (hall _ h).1 rfl, fun h => (hall _ h).2 rfl⟩

/-- A rendered Swift call is recognised where it stands, to the last closing parenthesis of its
line. -/
theorem Writes.callAt?_swift (w : r.Writes i) (hl : r.language = .swift)
    (hb : b.head? ≠ some '\r') (hsig : p.significant = true)
    (hbefore : p.before = (eol.text ++ r.indent).reverse ++ b) (hfore : p.forepart = r.call ++ a) :
    ∃ stop, r.callAt? p = some ⟨b.size, stop⟩ ∧ p.offset + r.call.size ≤ stop ∧
      (stop = p.offset + r.call.size ↔ ')' ∉ a.takeWhile (· != '\n')) := by
  obtain ⟨head, args, last, h⟩ := w.callParts
  obtain ⟨rfl, rfl⟩ := h.swift hl
  set inner : Text := '"' :: (i.secret ++ '"' :: args) with hinner
  have hwords : Swift.callWords r [] [] [] ++ '(' :: (inner ++ [')']) = r.call := by
    have hhead : "MSMobileCenter.start(".toList =
        Integration.receiver ++ '.' :: (Integration.selector ++ ['(']) := by decide
    rw [h.call, hhead, Swift.callWords, w.receiver, w.selector]
    simp [hinner]
  have hline : '\n' ∉ inner := by
    intro hn
    simp only [hinner, List.mem_cons, List.mem_append] at hn
    rcases hn with hn | hn | hn | hn
    · exact absurd hn (by decide)
    · exact (w.secret_spec _ hn).2.2.1 rfl
    · exact absurd hn (by decide)
    · exact (h.line _ (by simp [hn])).1 rfl
  -- the call stands behind a line break or its indentation, so no expression goes on there
  have hcont : Swift.continuesExpression p = false := by
    have hspace : ∀ c ∈ ['\n', '\r', ' ', '\t'],
        (Text.isAlphanumeric c || c == '_' || c == '.') = false := by decide
    obtain ⟨x, c, hx⟩ : ∃ x c, eol.text ++ r.indent = x ++ [c] := by
      have hne : eol.text ++ r.indent ≠ [] := by cases eol <;> simp [LineBreak.text]
      exact ⟨_, _, (List.dropLast_concat_getLast hne).symm⟩
    have hmem : c ∈ eol.text ++ r.indent := by rw [hx]; simp
    have hc := hspace c (w.mem_lead hmem)
    rw [Swift.continuesExpression, hbefore, hx]
    simpa using hc
  have hindent : Survey.beforeIndent p.before = b := by
    rw [hbefore, List.reverse_append, List.append_assoc]
    exact Survey.beforeIndent_line w.indent eol hb
  have hfind : ∀ u rest, inner ++ ')' :: a = u ++ ')' :: rest → '\n' ∉ u →
      ')' ∉ rest.takeWhile (· != '\n') → r.callAt? p =
        some ⟨b.size, p.offset + (Swift.callWords r [] [] [] ++ '(' :: (u ++ [')'])).size⟩ := by
    intro u rest hu hn hrest
    refine (Swift.callAt?_eq_some hl w.isIdentifier.2).2
      ⟨hsig, hcont, [], [], [], u, rest, by simp, ?_, hn, hrest, by rw [hindent]⟩
    rw [hfore, ← hwords, ← hu]
    simp
  -- a parenthesis behind the call on its line takes the end of what is recognised with it
  by_cases hclose : ')' ∈ a.takeWhile (· != '\n')
  · obtain ⟨u, rest, rfl, hall, hrest⟩ := Pattern.exists_last hclose
    refine ⟨_, hfind (inner ++ ')' :: u) rest (by simp) ?_ hrest, ?_, ?_⟩
    · intro hn
      rcases List.mem_append.1 hn with hn | hn
      · exact hline hn
      · rcases List.mem_cons.1 hn with hn | hn
        · exact absurd hn (by decide)
        · simpa using hall _ hn
    · rw [← hwords]
      simp only [Text.size_append, Text.size_cons]
      omega
    · rw [← hwords]
      have hparen : ')'.utf8Size = 1 := by decide
      simp only [Text.size_append, Text.size_cons, Text.size_nil, hparen]
      exact ⟨fun h => by omega, fun h => absurd hclose h⟩
  · refine ⟨_, hfind inner a rfl hline hclose, ?_, ?_⟩
    · rw [hwords]
    · rw [hwords]
      exact ⟨fun _ => hclose, fun _ => rfl⟩

/-- A rendered Objective-C call is recognised where it stands. -/
theorem Writes.callAt?_objectiveC (w : r.Writes i) (hl : r.language = .objectiveC)
    (hb : b.head? ≠ some '\r') (hsig : p.significant = true)
    (hbefore : p.before = (eol.text ++ r.indent).reverse ++ b) (hfore : p.forepart = r.call ++ a) :
    r.callAt? p = some ⟨b.size, p.offset + r.call.size⟩ := by
  obtain ⟨head, args, last, h⟩ := w.callParts
  obtain ⟨rfl, rfl, hargs⟩ := h.objectiveC hl
  have hwords : ObjectiveC.callWords r [] [' '] ++
      (":@\"".toList ++ (i.secret ++ '"' :: args) ++ [';']) = r.call := by
    have hhead : "[MSMobileCenter start:@".toList ++ ['"'] =
        '[' :: (Integration.receiver ++ ' ' :: (Integration.selector ++ ":@\"".toList)) := by
      decide
    have hcall : r.call = ("[MSMobileCenter start:@".toList ++ ['"']) ++
        (i.secret ++ '"' :: (args ++ [';'])) := by
      rw [h.call, List.append_assoc, List.singleton_append]
    rw [hcall, hhead, ObjectiveC.callWords, w.receiver, w.selector]
    simp
  have hindent : Survey.beforeIndent p.before = b := by
    rw [hbefore, List.reverse_append, List.append_assoc]
    exact Survey.beforeIndent_line w.indent eol hb
  refine (ObjectiveC.callAt?_eq_some hl w.isIdentifier.1 w.isIdentifier.2).2
    ⟨hsig, [], [' '], ":@\"".toList ++ (i.secret ++ '"' :: args), a, by decide, by simp, ?_, ?_, ?_,
      by rw [hindent, hwords]⟩
  · rw [hfore, ← hwords]
    simp
  · intro hn
    simp only [List.mem_append, List.mem_cons] at hn
    rcases hn with hn | hn | hn | hn
    · exact absurd hn (by decide)
    · exact (w.secret_spec _ hn).2.1 rfl
    · exact absurd hn (by decide)
    · exact hargs hn
  · rfl

/-- **The calls in a rendered line**: one, from the start of the line on. It ends with the line,
unless Swift finds a closing parenthesis further on. -/
theorem Writes.calls_callLine (w : r.Writes i) (quoting : Quoting) (eol : LineBreak) (l : Nat) (a : Text)
    (hb : b.head? ≠ some '\r') :
    ∃ stop, (stretch quoting ⟨.code, l⟩ b (r.callLine eol) a).filterMap r.callAt? =
        [⟨b.size, stop⟩] ∧ b.size + (r.callLine eol).size ≤ stop ∧
      (stop = b.size + (r.callLine eol).size ↔
        (r.language = .swift → ')' ∉ a.takeWhile (· != '\n'))) := by
  obtain ⟨head, args, last, h⟩ := w.callParts
  obtain ⟨c, tail, hhead, -⟩ := h.once
  set rest : Text := tail ++ ('"' :: (i.secret ++ ['"']) ++ (args ++ [last])) with hrest
  have hcall : r.call = c :: rest := by
    rw [h.call, hhead, hrest]
    simp
  have hline : r.callLine eol = (eol.text ++ r.indent) ++ (c :: rest) := by
    rw [Recipe.callLine, hcall]
  set before : Text := (eol.text ++ r.indent).reverse ++ b with hbefore
  set p := (Mode.mk .code l).place before c (rest ++ a) with hp
  have hc : Text.isQuiet c = true := h.quiet c (by simp [hhead])
  -- of all positions of the line only the first one behind its lead can start a call
  have hlead : ∀ q ∈ stretch quoting ⟨.code, l⟩ b (eol.text ++ r.indent) (c :: rest ++ a),
      r.callAt? q = none := by
    intro q hq
    obtain ⟨x, y, hx, -⟩ := stretch_split_of_mem hq
    exact callAt?_eq_none_of_isSpace w.receiver w.selector (w.isSpace_lead eol _ (by rw [hx]; simp))
  have hcalls : (stretch quoting ⟨.code, l⟩ b (r.callLine eol) a).filterMap r.callAt? =
      (r.callAt? p).toList := by
    rw [hline, stretch_append, behind_quiet fun d hd => Text.isQuiet_of_isSpace
      (w.isSpace_lead eol d hd), stretch_cons, step_quiet hc, List.filterMap_append,
      List.filterMap_eq_nil_iff.2 hlead, List.nil_append, List.filterMap_cons,
      List.filterMap_eq_nil_iff.2 fun q hq => h.callAt?_tail w hhead hq]
    cases hcall : r.callAt? p <;> rfl
  have hsize : b.size + (r.callLine eol).size = p.offset + r.call.size := by
    rw [hline, hcall]
    change _ = before.size + _
    simp only [hbefore, Text.size_append, Text.size_reverse]
    omega
  have hfore : p.forepart = r.call ++ a := by rw [hcall]; rfl
  rw [hcalls, hsize]
  cases hl : r.language with
  | swift =>
    obtain ⟨stop, hstop, hle, hiff⟩ := w.callAt?_swift hl hb (p := p) rfl hbefore hfore
    exact ⟨stop, by rw [hstop]; rfl, hle, hiff.trans ⟨fun h _ => h, fun h => h rfl⟩⟩
  | objectiveC =>
    refine ⟨_, by rw [w.callAt?_objectiveC hl hb (p := p) rfl hbefore hfore]; rfl, le_rfl, ?_⟩
    exact ⟨fun _ h => (by cases h), fun _ => rfl⟩

/-- **A survey behind a rendered line** inside a method knows one more call, and nothing else. -/
theorem Writes.run_callLine (w : r.Writes i) (quoting : Quoting) (eol : LineBreak) (a : Text)
    (hb : b.head? ≠ some '\r') (hl : r.methodLevel < l) (hin : s.inMethod = true) :
    ∃ k stop, r.run s (stretch quoting ⟨.code, l⟩ b (r.callLine eol) a) =
        { s with header := k, startCalls := s.startCalls ++ [⟨b.size, stop⟩] } ∧
      b.size + (r.callLine eol).size ≤ stop ∧
      (stop = b.size + (r.callLine eol).size ↔
        (r.language = .swift → ')' ∉ a.takeWhile (· != '\n'))) := by
  obtain ⟨stop, hcalls, hstop⟩ := w.calls_callLine quoting eol l a hb
  have hdeep : ∀ p ∈ stretch quoting ⟨.code, l⟩ b (r.callLine eol) a, r.methodLevel < p.level :=
    fun p hp => by rw [w.level_callLine hp]; exact hl
  obtain ⟨k, hk⟩ := run_deep hdeep hin
  exact ⟨k, stop, by rw [hk, hcalls], hstop⟩

end Recipe

end SdkWiring
