import SdkWiring.Proofs.Delegate.ImportRun
import SdkWiring.Proofs.Scan.Restart
import SdkWiring.Proofs.Text.Splicing

/-!
# Where import lines are written

Import lines are written behind the last import line of a delegate, in front of a character that is
live and at the top level. What follows there hardly matters to the scan before it, so with the lines
in place the same character is reached as before, and no type is found on the way.

* `Recipe.importPoint_of_offset`: the end of the imports is such a place.
* `ImportPoint.typeSeen_written`, `ImportPoint.endsImports_written`: what is found up to the
  character with import lines written before it.
* `ImportPoint.header_written_swift`, `header_written_objectiveC`: the header there.
-/

namespace SdkWiring

variable {r : Recipe} {quoting : Quoting} {m : Mode} {s s' : Survey} {b t a a' x y : Text} {c : Char}
  {gs : List Text} {eol : LineBreak}

/-- The character that follows only matters behind a slash. -/
theorem step_next {n n' : Option Char} (h : c ≠ '/' ∨ n = n') :
    m.step quoting c n = m.step quoting c n' := by
  rcases h with h | rfl
  · cases hm : m.context <;> simp [Mode.step, Context.advance, Context.enter, hm, h]
  · rfl

/-- What follows the end of a line does not matter for a character of the line. -/
theorem head?_endsLine (h : EndsLine (c :: t).reverse) (a a' : Text) :
    c ≠ '/' ∨ (t ++ a).head? = (t ++ a').head? := by
  cases t with
  | nil =>
    obtain rfl : c = '\n' := by simpa [EndsLine] using h
    exact .inl (by decide)
  | cons d t => exact .inr rfl

theorem endsLine_tail (h : EndsLine (c :: t).reverse) : EndsLine t.reverse := by
  cases t with
  | nil => rfl
  | cons d t =>
    rw [List.reverse_cons] at h
    have hne : (d :: t).reverse ≠ [] := by simp
    obtain ⟨e, u, hu⟩ := List.exists_cons_of_ne_nil hne
    rw [hu] at h ⊢
    exact h

theorem behind_endsLine (hne : t ≠ []) (h : EndsLine t.reverse) (n n' : Option Char) :
    m.behind quoting t n = m.behind quoting t n' := by
  induction t generalizing m with
  | nil => exact absurd rfl hne
  | cons c t ih =>
    rw [behind_cons, behind_cons]
    by_cases ht : t = []
    · subst ht
      obtain rfl : c = '\n' := by simpa [EndsLine] using h
      exact step_next (.inl (by decide))
    · obtain ⟨d, t, rfl⟩ := List.exists_cons_of_ne_nil ht
      exact ih (by simp) (endsLine_tail h)

/-- Behind whole lines the header ends with white space. -/
theorem isSpace_header (h : EndsLine t.reverse) (hs : s.header.text.getLast?.all Text.isSpace = true) :
    (r.run s (stretch quoting m b t a)).header.text.getLast?.all Text.isSpace = true := by
  by_cases hne : t = []
  · subst hne
    exact hs
  · obtain ⟨t, c, rfl⟩ := (List.eq_nil_or_concat' t).resolve_left hne
    obtain rfl : c = '\n' := by simpa [EndsLine] using h
    rw [stretch_append, Recipe.run_append, stretch_cons, stretch_nil, Recipe.run_cons, Recipe.run_nil]
    set k := (r.run s (stretch quoting m b t (['\n'] ++ a))).header
    change ((k.next _).text.getLast?).all Text.isSpace = true
    rw [Header.next_of_not_endsHeader (by simp [Position.endsHeader, Mode.place]), Header.text_record]
    split
    · simp only [List.getLast?_append, List.getLast?_singleton, Option.some_or, Mode.place]
      decide
    · split
      · rename_i hlast
        rw [List.append_nil, hlast]
        decide
      · simp only [List.getLast?_append, List.getLast?_singleton, Option.some_or]
        decide

/-- At a character of a whole line, what follows the lines does not matter for the header. -/
theorem Header.next_endsLine (h : EndsLine (c :: t).reverse) (k : Header) (m : Mode) (b a a' : Text) :
    k.next (m.place b c (t ++ a)) = k.next (m.place b c (t ++ a')) := by
  have hcomment : (m.place b c (t ++ a)).opensComment = (m.place b c (t ++ a')).opensComment := by
    change (c == '/' && ((t ++ a).head? == some '/' || (t ++ a).head? == some '*')) =
      (c == '/' && ((t ++ a').head? == some '/' || (t ++ a').head? == some '*'))
    rcases head?_endsLine h a a' with hc | hhead
    · have hno : (c == '/') = false := beq_eq_false_iff_ne.2 hc
      rw [hno, Bool.false_and, Bool.false_and]
    · rw [hhead]
  change (if (m.place b c (t ++ a)).endsHeader then _ else _) =
    if (m.place b c (t ++ a)).endsHeader then _ else _
  rw [Header.record, Header.record, Position.isPlain, Position.isPlain, hcomment]
  rfl

/-- A type is opened at a character if it is with other text behind, given that its marker is one
there, too. -/
theorem Recipe.opensType_of_marker {k : Header}
    (hmark : r.language = .objectiveC → (ObjectiveC.typeMarker r).matchesAt ⟨b, c :: a'⟩ = true →
      (ObjectiveC.typeMarker r).matchesAt ⟨b, c :: a⟩ = true)
    (h : r.opensType k (m.place b c a') = true) : r.opensType k (m.place b c a) = true := by
  unfold Recipe.opensType at h ⊢
  cases hl : r.language with
  | swift =>
    rw [hl] at h
    exact h
  | objectiveC =>
    simp only [hl, Bool.and_eq_true] at h ⊢
    exact ⟨h.1, hmark hl h.2⟩

/-- **Whole lines with other text behind them** leave the same header, and no type is found in them
unless a marker reaches into the text. -/
theorem run_endsLine (h : EndsLine t.reverse)
    (hmark : r.language = .objectiveC → ∀ x y, t = x ++ y → y ≠ [] →
      (ObjectiveC.typeMarker r).matchesAt ⟨x.reverse ++ b, y ++ a'⟩ = true →
      (ObjectiveC.typeMarker r).matchesAt ⟨x.reverse ++ b, y ++ a⟩ = true)
    (hheader : s.header = s'.header) (hseen : s'.typeSeen = false)
    (hs : (r.run s (stretch quoting m b t a)).typeSeen = false) :
    (r.run s (stretch quoting m b t a)).header = (r.run s' (stretch quoting m b t a')).header ∧
      (r.run s' (stretch quoting m b t a')).typeSeen = false := by
  induction t generalizing m b s s' with
  | nil => exact ⟨hheader, hseen⟩
  | cons c t ih =>
    rw [stretch_cons, stretch_cons, ← step_next (m := m) (head?_endsLine h a a')] at *
    rw [Recipe.run_cons, Recipe.run_cons] at *
    have hunseen : (r.survey s (m.place b c (t ++ a))).typeSeen = false := by
      by_contra hseen'
      rw [Recipe.typeSeen_run (by simpa using hseen')] at hs
      cases hs
    -- a type that is opened with the new text behind would have been opened before
    have hclosed : r.opensType s'.header (m.place b c (t ++ a')) = false := by
      have hno : r.opensType s.header (m.place b c (t ++ a)) = false := by
        simp only [Recipe.survey, Bool.or_eq_false_iff] at hunseen
        exact hunseen.2
      rw [← Bool.not_eq_true] at hno ⊢
      rw [← hheader]
      exact fun hyes => hno
        (Recipe.opensType_of_marker (fun hl => hmark hl [] (c :: t) rfl (by simp)) hyes)
    refine ih (endsLine_tail h) (fun hl x y hxy hy => ?_) ?_ ?_ hs
    · have := hmark hl (c :: x) y (by rw [hxy]; rfl) hy
      simpa using this
    · change s.header.next _ = s'.header.next _
      rw [← hheader]
      exact Header.next_endsLine h _ _ _ _ _
    · simp [Recipe.survey, hseen, hclosed]

/-- A marker of a type does not reach behind an at sign, nor out of whole lines. -/
theorem ObjectiveC.typeMarker_at (ht : Text.isIdentifier r.typeName = true) (hy : EndsLine y.reverse)
    (hne : y ≠ []) (h : (typeMarker r).matchesAt ⟨b, y ++ '@' :: a⟩ = true) (a' : Text) :
    (typeMarker r).matchesAt ⟨b, y ++ a'⟩ = true := by
  rw [typeMarker_iff ht] at h ⊢
  obtain ⟨s, rest, hs, hsne, hsplit, hrest⟩ := h
  obtain ⟨y, rfl⟩ : ∃ y', y = '@' :: y' := by
    obtain ⟨d, y, rfl⟩ := List.exists_cons_of_ne_nil hne
    rw [implementationMarker_eq] at hsplit
    exact ⟨y, by rw [(List.cons.inj hsplit).1]⟩
  rw [implementationMarker_eq, List.cons_append, List.cons_append] at hsplit
  have hat : '@' ∉ "implementation".toList ++ (s ++ r.typeName) := by
    simp only [List.mem_append, not_or]
    exact ⟨by decide, fun h => absurd (hs _ h) (by decide),
      fun h => absurd (Text.isWord_of_mem_identifier ht h) (by decide)⟩
  have hpre : "implementation".toList ++ (s ++ r.typeName) <+: y :=
    (Text.prefix_append_stop hat).1 ⟨rest, by rw [(List.cons.inj hsplit).2]; simp⟩
  obtain ⟨u, rfl⟩ := hpre
  refine ⟨s, u ++ a', hs, hsne, by simp [implementationMarker_eq], ?_⟩
  have hrest' : u ++ '@' :: a = rest := by simpa using (List.cons.inj hsplit).2
  rw [← hrest'] at hrest
  cases u with
  | nil =>
    -- the name does not end a line
    obtain ⟨n, d, hn, hd⟩ := Text.exists_last_of_identifier ht
    obtain rfl : d = '\n' := by simpa [EndsLine, hn] using hy
    exact absurd hd (by decide)
  | cons d u => exact hrest

/-- The text before a place at which import lines are written, and the character behind it. -/
structure ImportPoint (r : Recipe) (b : Text) (c : Char) (a : Text) : Prop where
  endsLine : EndsLine b.reverse
  mode : ∃ l, Mode.start.behind r.language.quoting b (some c) = ⟨.code, l⟩ ∧ levelAt true c l = 0
  unseen : (r.run {} (stretch r.language.quoting .start [] b (c :: a))).typeSeen = false
  ends : b = [] ∨ r.endsImports (Mode.start.place b.reverse c a) = true

theorem Position.endsLine {p : Position} (h : p.atLineStart = true) : EndsLine p.before := by
  unfold atLineStart at h
  cases hb : p.before with
  | nil => rfl
  | cons d z =>
    rw [hb] at h
    exact h

/-- **The end of the imports** is a place at which import lines are written. -/
theorem Recipe.importPoint_of_offset (h : (r.analyze (b ++ c :: a)).importOffset = b.size) :
    ImportPoint r b c a := by
  rw [Recipe.analyze_eq, Landmarks.importOffset] at h
  -- the imports end at the start of the text, or at a position of the scan
  cases hend : (r.surveyed (b ++ c :: a)).landmarks.endOfImports with
  | none =>
    rw [hend] at h
    obtain rfl := Text.eq_nil_of_size (t := b) h.symm
    exact ⟨rfl, ⟨0, rfl, levelAt_zero c⟩, rfl, .inl rfl⟩
  | some n =>
    rw [hend] at h
    obtain rfl : n = b.size := h
    obtain ⟨xs, p, ys, hsplit, hoff, hunseen, hends⟩ := Recipe.origin_endOfImports hend
    obtain ⟨htext, hxs, -, hplace⟩ := positions_split hsplit
    have hback : p.backpart.size = b.size := by
      rw [← hoff, Position.backpart, Text.size_reverse, Position.offset]
    obtain ⟨rfl, hfore⟩ := Text.append_inj_of_size htext hback.symm
    obtain ⟨hchar, hafter⟩ := List.cons.inj hfore
    simp only [Recipe.endsImports, Bool.and_eq_true, beq_iff_eq] at hends
    have hall := hends
    obtain ⟨⟨⟨hsig, hlevel⟩, hstart⟩, hline⟩ := hends
    rw [← hfore] at hxs
    rw [← hchar] at hplace
    refine ⟨?_, ?_, hxs ▸ hunseen, .inr ?_⟩
    · rw [Position.backpart, List.reverse_reverse]
      exact Position.endsLine hstart
    · cases hm : Mode.start.behind r.language.quoting p.backpart (some c) with
      | mk context l =>
        rw [hm] at hplace
        have hcode : context.isCode = true := by rw [← hsig, hplace]; rfl
        have hlevel' : levelAt context.isCode c l = 0 := by rw [← hlevel, hplace]; rfl
        rw [hcode] at hlevel'
        cases context with
        | code => exact ⟨l, rfl, hlevel'⟩
        | _ => simp [Context.isCode] at hcode
    · have hzero : levelAt true c 0 = 0 := levelAt_zero c
      have hb : p.backpart.reverse = p.before := List.reverse_reverse _
      simp only [Recipe.endsImports, Position.atLineStart, Position.previousLine, Mode.place, hb,
        Mode.start, Context.isCode, hzero, Bool.and_eq_true, beq_self_eq_true, true_and]
      exact ⟨hstart, hline⟩

namespace ImportPoint

/-- Behind the lines the scan is in live code, whatever follows. -/
theorem behind_lines (h : ImportPoint r b c a) (eol : LineBreak)
    (hgs : ∀ g ∈ gs, Text.isIdentifier g = true) : ∃ l, levelAt true c l = 0 ∧
      ∀ next, Mode.start.behind r.language.quoting (b ++ r.importLines eol gs) next = ⟨.code, l⟩ := by
  have hquiet := r.language.isQuiet_importLines eol hgs
  by_cases hb : b = []
  · subst hb
    exact ⟨0, levelAt_zero c, fun next => behind_quiet hquiet⟩
  · obtain ⟨l, hmode, hlevel⟩ := h.mode
    refine ⟨l, hlevel, fun next => ?_⟩
    rw [behind_append, behind_endsLine hb h.endsLine _ (some c), hmode]
    exact behind_quiet hquiet

/-- The scan goes on behind the lines as it would at the start of a text. -/
theorem positions_eq (h : ImportPoint r b c a) (eol : LineBreak)
    (hgs : ∀ g ∈ gs, Text.isIdentifier g = true) (a' : Text) :
    positions r.language.quoting (b ++ (r.importLines eol gs ++ c :: a')) =
      stretch r.language.quoting .start [] (b ++ r.importLines eol gs) (c :: a') ++
        stretch r.language.quoting .start ((r.importLines eol gs).reverse ++ b.reverse)
          (c :: a') [] := by
  obtain ⟨l, hlevel, hlines⟩ := h.behind_lines eol hgs
  rw [positions_eq_stretch, ← List.append_assoc, stretch_append]
  simp only [List.append_nil, hlines, stretch_restart hlevel, List.reverse_append]

/-- The same without lines. -/
theorem positions_nil (h : ImportPoint r b c a) : positions r.language.quoting (b ++ c :: a) =
    stretch r.language.quoting .start [] b (c :: a) ++
      stretch r.language.quoting .start b.reverse (c :: a) [] := by
  have hnone : ∀ g ∈ ([] : List Text), Text.isIdentifier g = true := by simp
  have heq := h.positions_eq .lf hnone a
  change positions r.language.quoting (b ++ ([] ++ _)) = stretch _ _ _ (b ++ []) _ ++
    stretch _ _ ([] ++ _) _ _ at heq
  rwa [List.nil_append, List.append_nil, List.nil_append] at heq

/-- The scan before the lines leaves the header that it left without them, and finds no type. -/
theorem before_lines (h : ImportPoint r b c a)
    (ht : r.language = .objectiveC → Text.isIdentifier r.typeName = true)
    (hsame : gs = [] → ∃ t z z', c :: a = t ++ '{' :: z ∧ c :: a' = t ++ '{' :: z') :
    (r.run {} (stretch r.language.quoting .start [] b (c :: a))).header =
        (r.run {} (stretch r.language.quoting .start [] b
          (r.importLines eol gs ++ c :: a'))).header ∧
      (r.run {} (stretch r.language.quoting .start [] b
        (r.importLines eol gs ++ c :: a'))).typeSeen = false := by
  refine run_endsLine h.endsLine (fun hl x y hxy hne hm => ?_) rfl rfl h.unseen
  cases hgs : gs with
  | nil =>
    obtain ⟨t, z, z', hz, hz'⟩ := hsame hgs
    have hnil : r.importLines eol gs = [] := by rw [hgs]; rfl
    rw [hnil, List.nil_append, hz', ← List.append_assoc] at hm
    rw [hz, ← List.append_assoc, ObjectiveC.typeMarker_stop (ht hl) (z := z')]
    exact hm
  | cons g gs' =>
    have hline : EndsLine y.reverse := by
      obtain ⟨z, hz⟩ := Language.split_endsLine h.endsLine hxy hne
      simp [hz, EndsLine]
    obtain ⟨z, hz⟩ : ∃ z, r.importLines eol gs = '@' :: z := by
      change ∃ z, Language.importLines r.language eol gs = _
      rw [hgs, Language.importLines_cons, hl, Language.importStatement_objectiveC]
      exact ⟨_, rfl⟩
    rw [hz] at hm
    exact ObjectiveC.typeMarker_at (ht hl) hline hne hm _

/-- The survey behind the lines is the one of a run over the lines. -/
theorem run_lines (h : ImportPoint r b c a) (eol : LineBreak) (gs : List Text) (a' : Text) :
    ∃ l, r.run {} (stretch r.language.quoting .start [] (b ++ r.importLines eol gs) (c :: a')) =
      r.run (r.run {} (stretch r.language.quoting .start [] b (r.importLines eol gs ++ c :: a')))
        (stretch r.language.quoting ⟨.code, l⟩ b.reverse (r.language.importLines eol gs)
          (c :: a')) := by
  obtain ⟨l, hmode, -⟩ := h.mode
  refine ⟨l, ?_⟩
  rw [stretch_append, Recipe.run_append, List.append_nil]
  by_cases hb : b = []
  · subst hb
    rw [behind_nil] at hmode ⊢
    rw [hmode]
    rfl
  · rw [behind_endsLine hb h.endsLine _ (some c), hmode]
    rfl

/-- **No type is found up to the character** with import lines written before it. -/
theorem typeSeen_written (h : ImportPoint r b c a) (eol : LineBreak) (a' : Text)
    (ht : r.language = .objectiveC → Text.isIdentifier r.typeName = true) (hgs : ∀ g ∈ gs, g ∈ Service.allFrameworks)
    (hsame : gs = [] → ∃ t z z', c :: a = t ++ '{' :: z ∧ c :: a' = t ++ '{' :: z') :
    (r.run {} (stretch r.language.quoting .start [] (b ++ r.importLines eol gs)
      (c :: a'))).typeSeen = false := by
  obtain ⟨l, hl⟩ := h.run_lines eol gs a'
  rw [hl]
  exact Recipe.typeSeen_importLines hgs (h.before_lines ht hsame).2

/-- In Swift the lines go to the end of the header. -/
theorem header_written_swift (h : ImportPoint r b c a) (hl : r.language = .swift) (hgs : ∀ g ∈ gs, Text.isIdentifier g = true)
    (hsame : gs = [] → ∃ t z z', c :: a = t ++ '{' :: z ∧ c :: a' = t ++ '{' :: z') :
    (r.run {} (stretch r.language.quoting .start [] (b ++ r.importLines eol gs)
        (c :: a'))).header.text =
      (r.run {} (stretch r.language.quoting .start [] b (c :: a))).header.text ++
        r.importLines eol gs := by
  have ht : r.language = .objectiveC → Text.isIdentifier r.typeName = true := fun h =>
    absurd (hl.symm.trans h) (by decide)
  obtain ⟨l, hrun⟩ := h.run_lines eol gs a'
  rw [hrun, Recipe.header_importLines_swift hl hgs, (h.before_lines ht hsame).1]
  rfl

/-- In Objective-C a line break is left of them. -/
theorem header_written_objectiveC (h : ImportPoint r b c a) (eol : LineBreak) (a' : Text)
    (hl : r.language = .objectiveC) (hgs : ∀ g ∈ gs, Text.isIdentifier g = true) (hne : gs ≠ []) :
    (r.run {} (stretch r.language.quoting .start [] (b ++ r.importLines eol gs)
        (c :: a'))).header.text = eol.text := by
  obtain ⟨l, hrun⟩ := h.run_lines eol gs a'
  rw [hrun, Recipe.header_importLines_objectiveC hl hgs hne]

/-- **The imports end at the character** with import lines written before it. -/
theorem endsImports_written (h : ImportPoint r b c a) (eol : LineBreak)
    (hgs : ∀ g ∈ gs, g ∈ Service.allFrameworks) (hne : b ++ r.importLines eol gs ≠ []) (a' : Text) :
    r.endsImports
      (Mode.start.place ((r.importLines eol gs).reverse ++ b.reverse) c a') = true := by
  by_cases hgs' : gs = []
  · subst hgs'
    rcases h.ends with rfl | hends
    · exact absurd rfl hne
    · exact hends
  · exact Recipe.endsImports_behind_importLines hgs hgs' h.endsLine rfl (levelAt_zero c) rfl

end ImportPoint

end SdkWiring
