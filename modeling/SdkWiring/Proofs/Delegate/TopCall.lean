import SdkWiring.Proofs.Delegate.FirstMethod

/-!
# A rendered call at the top of the method

Where the line of a start call stands at the top of the method, a scan records it from its first
character on. Calls that are recorded before it start before it, and calls that are recorded behind
it start behind it.

* `Recipe.startCalls_at_top`: the calls of a delegate with such a line.
-/

namespace SdkWiring

variable {r : Recipe} {i : Integration} {s : Survey} {p : Position} {ps : List Position}
  {content before after : Text} {eol : LineBreak}

namespace Recipe

/-- The calls that a run records stand at its positions. -/
theorem startCalls_split (r : Recipe) (s : Survey) (ps : List Position) :
    ∃ calls, (r.run s ps).startCalls = s.startCalls ++ calls ∧
      ∀ call ∈ calls, ∃ p ∈ ps, r.callAt? p = some call := by
  induction ps generalizing s with
  | nil => exact ⟨[], by simp, by simp⟩
  | cons p ps ih =>
    obtain ⟨calls, hcalls, hmem⟩ := ih (r.survey s p)
    refine ⟨(if (r.survey s p).inMethod then (r.callAt? p).toList else []) ++ calls, ?_, ?_⟩
    · rw [run_cons, hcalls, ← List.append_assoc]
      rfl
    · intro call hcall
      rcases List.mem_append.1 hcall with h | h
      · split at h
        · exact ⟨p, by simp, by simpa using h⟩
        · simp at h
      · obtain ⟨q, hq, hc⟩ := hmem call h
        exact ⟨q, by simp [hq], hc⟩

/-- The line of a call ends with a character that is no white space. In Objective-C that is the only
semicolon in it. -/
theorem Writes.callLine_last (w : r.Writes i) (eol : LineBreak) :
    ∃ x d, r.callLine eol = x ++ [d] ∧ Text.isSpace d = false ∧
      (r.language = .objectiveC → d = ';' ∧ ';' ∉ x) := by
  obtain ⟨head, args, last, h⟩ := w.callParts
  refine ⟨eol.text ++ r.indent ++ (head ++ '"' :: (i.secret ++ '"' :: args)), last, ?_, ?_,
    fun hl => ?_⟩
  · rw [h.callLine]
    simp
  · have hstops := h.stops
    simp only [Text.stopsCall, Bool.and_eq_true, Bool.not_eq_true'] at hstops
    exact hstops.1.2
  · obtain ⟨rfl, rfl, hargs⟩ := h.objectiveC hl
    refine ⟨rfl, fun hmem => ?_⟩
    rcases List.mem_append.1 hmem with hmem | hmem
    · exact absurd (w.isSpace_lead eol _ hmem) (by decide)
    · simp only [List.mem_append, List.mem_cons] at hmem
      rcases hmem with hmem | hmem | hmem | hmem | hmem
      · exact absurd hmem (by decide)
      · exact absurd hmem (by decide)
      · exact (w.secret_spec _ hmem).2.1 rfl
      · exact absurd hmem (by decide)
      · exact hargs hmem

/-- A call that is recognised in a text starts in it, or in the white space before it. -/
theorem start_lt_of_stretch {quoting : Quoting} {m : Mode} {x a : Text} {call : Span}
    (hr : Text.isIdentifier r.receiver = true) (hs : Text.isIdentifier r.selector = true)
    (hp : p ∈ stretch quoting m [] x a) (hcall : r.callAt? p = some call) : call.start < x.size := by
  obtain ⟨part, behind, -, rfl, -⟩ := part_of_callAt? hr hs hcall
  obtain ⟨y, z, rfl, hplace⟩ := stretch_split_of_mem hp
  have hbefore : p.before.size = y.size := by
    rw [hplace]
    simp [Mode.place]
  have hpos := p.char.utf8Size_pos
  have hle := Survey.size_beforeIndent_le p.before
  rw [Text.size_append, Text.size_cons]
  simp only
  omega

/-- A call that is recognised behind a rendered one starts behind it. -/
theorem Writes.le_start_of_stretch (w : r.Writes i) {quoting : Quoting} {m : Mode} {x a : Text}
    {call : Span} (hp : p ∈ stretch quoting m ((r.callLine eol).reverse ++ x.reverse) a [])
    (hcall : r.callAt? p = some call) : x.size + (r.callLine eol).size ≤ call.start := by
  obtain ⟨part, behind, -, rfl, -⟩ := part_of_callAt? w.isIdentifier.1 w.isIdentifier.2 hcall
  obtain ⟨y, z, -, hplace⟩ := stretch_split_of_mem hp
  -- the line ends with a character that is no white space
  obtain ⟨u, d, hline, hd, -⟩ := w.callLine_last eol
  have hback : p.backpart = x ++ (r.callLine eol ++ y) := by
    rw [Position.backpart, congrArg Position.before hplace, Mode.place]
    simp
  have hstart := start_of_backpart (p := p) (x := x ++ u) hd ⟨y, by rw [hback, hline]; simp⟩
  rwa [List.append_assoc, ← hline, Text.size_append] at hstart

/-- **The calls of a delegate with a rendered call at the top of its method.** -/
theorem startCalls_at_top (w : r.Writes i) (hcontent : content = before ++ (r.callLine eol ++ after))
    (hbody : (r.analyze content).methodBody = some before.size) :
    ∃ pre post stop, (r.analyze content).startCalls = pre ++ ⟨before.size, stop⟩ :: post ∧
      (∀ call ∈ pre, call.start < before.size) ∧
      (∀ call ∈ post, before.size + (r.callLine eol).size ≤ call.start) ∧
      before.size + (r.callLine eol).size ≤ stop ∧
      (stop = before.size + (r.callLine eol).size ↔
        (r.language = .swift → ')' ∉ after.takeWhile (· != '\n'))) := by
  obtain ⟨front, a, htext, hsize, henter⟩ := methodBody_split hbody
  obtain ⟨rfl, ha⟩ : before = front ++ ['{'] ∧ r.callLine eol ++ after = a := by
    have hbrace : '{'.utf8Size = 1 := by decide
    refine Text.append_inj_of_size (hcontent.symm.trans (htext.trans (by simp))) ?_
    rw [hsize, Text.size_append, Text.size_cons, Text.size_nil, hbrace]
  subst ha
  -- the scan up to the brace, over the line, and behind it
  set ps₁ := stretch r.language.quoting .start [] (front ++ ['{']) (r.callLine eol ++ after) with hps₁
  set b : Text := (front ++ ['{']).reverse with hb
  set ps₂ := stretch r.language.quoting ⟨.code, r.methodLevel + 1⟩ b (r.callLine eol) after with hps₂
  set ps₃ := stretch r.language.quoting ⟨.code, r.methodLevel + 1⟩ ((r.callLine eol).reverse ++ b)
    after [] with hps₃
  have hsplit : positions r.language.quoting content = ps₁ ++ (ps₂ ++ ps₃) := by
    rw [positions_eq_stretch, hcontent, stretch_append, List.append_nil, henter.behind_brace,
      List.append_nil, stretch_append (x := r.callLine eol), List.append_nil, w.behind_callLine]
  have hin : (r.run {} ps₁).inMethod = true := Enters.inMethod_run (by rwa [List.append_nil])
  obtain ⟨k, stop, hrun, hle, hstop⟩ := w.run_callLine r.language.quoting eol after (b := b)
    (l := r.methodLevel + 1) (by simp [hb]) (Nat.lt_succ_self _) hin
  have hbsize : b.size = Text.size (front ++ ['{']) := Text.size_reverse _
  rw [hbsize] at hle hstop hrun
  obtain ⟨pre, hpre, hpremem⟩ := startCalls_split r {} ps₁
  obtain ⟨post, hpost, hpostmem⟩ := startCalls_split r (r.run (r.run {} ps₁) ps₂) ps₃
  refine ⟨pre, post, stop, ?_, fun call hcall => ?_, fun call hcall => ?_, hle, hstop⟩
  · rw [analyze_eq, surveyed, hsplit, run_append, run_append]
    change (r.run _ _).startCalls = _
    rw [hpost, hrun]
    simp [hpre]
  · obtain ⟨p, hp, hcall⟩ := hpremem call hcall
    exact start_lt_of_stretch w.isIdentifier.1 w.isIdentifier.2 hp hcall
  · obtain ⟨p, hp, hcall⟩ := hpostmem call hcall
    exact w.le_start_of_stretch hp hcall

end Recipe

end SdkWiring
