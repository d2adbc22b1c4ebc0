import SdkWiring.Proofs.Delegate.ImportPoint
import SdkWiring.Proofs.Delegate.WiredRun

/-!
# Delegates that were wired before

A delegate is wired: import lines go behind its imports, a start call goes to the top of its method.
If the delegate did not name the SDK before, a new scan finds exactly these two.

* `Recipe.Suits`: what is asked of a delegate.
* `Recipe.Suits.parts`: the delegate in three parts.
* `Recipe.Parts.analyze_wired`: the landmarks of the wired delegate.
-/

namespace SdkWiring

variable {r : Recipe} {i : Integration} {content : Text} {m : Nat} {quoting : Quoting}
  {c : Char} {t a : Text}

namespace Recipe

/-- The text up to the brace of the method, and the text behind it. -/
theorem methodBody_split (h : (r.analyze content).methodBody = some m) :
    ∃ front a, content = front ++ '{' :: a ∧ m = front.size + 1 ∧
      r.Enters (r.run {} (stretch r.language.quoting .start [] front ('{' :: a)))
        ((Mode.start.behind r.language.quoting front (some '{')).place front.reverse '{' a) := by
  rw [methodBody_analyze] at h
  obtain ⟨xs, p, ys, hsplit, hm, henter⟩ := origin_body h
  obtain ⟨htext, hxs, -, hplace⟩ := positions_split hsplit
  have hchar := henter.char_eq
  rw [Position.forepart, hchar] at htext hxs
  rw [hchar] at hplace
  refine ⟨p.backpart, p.after, htext, ?_, ?_⟩
  · rw [← hm, Position.backpart, Text.size_reverse, Position.offset]
  · rw [← hxs, Position.backpart, List.reverse_reverse]
    rw [Position.backpart] at hplace
    exact hplace ▸ henter

/-- The body of a method starts behind a brace. -/
theorem methodBody_brace (h : (r.analyze content).methodBody = some m) : content.IsBehind '{' m := by
  obtain ⟨front, a, htext, hsize, -⟩ := methodBody_split h
  have hbrace : '{'.utf8Size = 1 := by decide
  refine ⟨front, a, by rw [htext, List.append_cons], ?_⟩
  rw [hsize, Text.size_append, Text.size_cons, Text.size_nil, hbrace]

theorem startCalls_of_absent (hr : r.receiver = Integration.receiver)
    (hs : r.selector = Integration.selector) (habs : ¬ Integration.receiver <:+: content) :
    (r.analyze content).startCalls = [] := by
  rw [analyze_eq]
  refine startCalls_run fun p hp => callAt?_eq_none_of_absent hr hs fun hin => habs (hin.trans ?_)
  rw [text_of_mem_positions hp]
  exact (List.suffix_append _ _).isInfix

/-- What is asked of a delegate: it does not name the SDK, its rest behind the imports can be read on
its own, and in Swift no parenthesis closes behind the brace of the method on its line. -/
structure Suits (r : Recipe) (content : Text) : Prop where
  fresh : content.contains Service.core = false
  detached : ∃ imports rest, content = imports ++ rest ∧
    (r.analyze content).importOffset = imports.size ∧ (r.analyze rest).endOfImports = none ∧
    (r.analyze content).methodBody = (r.analyze rest).methodBody.map (imports.size + ·)
  clear : r.language = .swift → ∀ before after, content = before ++ after →
    (r.analyze content).methodBody = some before.size → ')' ∉ after.takeWhile (· != '\n')

/-- A delegate in three parts: the imports, the text up to the brace of the method, and the text
behind it. The second part starts with a character of its own. -/
structure Parts (r : Recipe) (imports : Text) (c : Char) (t a : Text) : Prop where
  absent : ¬ Service.core <:+: imports ++ c :: (t ++ '{' :: a)
  offset : (r.analyze (imports ++ c :: (t ++ '{' :: a))).importOffset = imports.size
  body : (r.analyze (imports ++ c :: (t ++ '{' :: a))).methodBody =
    some (imports.size + Text.size (c :: (t ++ ['{'])))
  restImports : (r.analyze (c :: (t ++ '{' :: a))).endOfImports = none
  restBody : (r.analyze (c :: (t ++ '{' :: a))).methodBody = some (Text.size (c :: (t ++ ['{'])))
  clear : r.language = .swift → ')' ∉ a.takeWhile (· != '\n')

/-- The type is open where a method is entered. -/
theorem Enters.ne_nil {s : Survey} (hs : s.inType = false) {b z : Text} {p : Position}
    (h : r.Enters (r.run s (stretch quoting .start b t z)) p) : t ≠ [] := by
  rintro rfl
  have hin := h.inType
  rw [stretch_nil, run_nil, hs] at hin
  cases hin

/-- **A delegate that suits has three parts** if its method is found. -/
theorem Suits.parts (h : r.Suits content) (hm : (r.analyze content).methodBody = some m) :
    ∃ imports c t a, content = imports ++ c :: (t ++ '{' :: a) ∧ r.Parts imports c t a := by
  obtain ⟨imports, rest, rfl, hoffset, hnone, hbody⟩ := h.detached
  rw [hm] at hbody
  obtain ⟨m', hm', hadd⟩ := Option.map_eq_some_iff.1 hbody.symm
  obtain ⟨front, a, rfl, rfl, henter⟩ := methodBody_split hm'
  obtain ⟨c, t, rfl⟩ := List.exists_cons_of_ne_nil (henter.ne_nil rfl)
  have hsize : Text.size (c :: (t ++ ['{'])) = Text.size (c :: t) + 1 := by
    have hbrace : '{'.utf8Size = 1 := by decide
    simp only [Text.size_cons, Text.size_append, Text.size_nil, hbrace]
    omega
  have habs : ¬ Service.core <:+: imports ++ c :: (t ++ '{' :: a) :=
    Text.contains_eq_false_iff.1 h.fresh
  have hbody' : (r.analyze (imports ++ c :: (t ++ '{' :: a))).methodBody =
      some (imports.size + Text.size (c :: (t ++ ['{']))) := by
    rw [hsize, hadd]
    exact hm
  refine ⟨imports, c, t, a, rfl, habs, hoffset, hbody', hnone, by rw [hsize]; exact hm', fun hl => ?_⟩
  refine h.clear hl (imports ++ c :: (t ++ ['{'])) a (by simp) ?_
  rw [Text.size_append]
  exact hbody'

theorem core_infix_receiver : Service.core <:+: Integration.receiver := by decide

namespace Parts

variable {imports : Text} {gs : List Text} {eol : LineBreak}

theorem receiver_absent (h : r.Parts imports c t a) :
    ¬ Integration.receiver <:+: imports ++ c :: (t ++ '{' :: a) :=
  fun hin => h.absent (core_infix_receiver.trans hin)

theorem startCalls (w : r.Writes i) (h : r.Parts imports c t a) :
    (r.analyze (imports ++ c :: (t ++ '{' :: a))).startCalls = [] :=
  startCalls_of_absent w.receiver w.selector h.receiver_absent

/-- A delegate in three parts suits. -/
theorem suits (h : r.Parts imports c t a) : r.Suits (imports ++ c :: (t ++ '{' :: a)) where
  fresh := Text.contains_eq_false_iff.2 h.absent
  detached := ⟨imports, _, rfl, h.offset, h.restImports, by rw [h.body, h.restBody]; rfl⟩
  clear hl before after hsplit hbody := by
    rw [h.body] at hbody
    obtain ⟨-, rfl⟩ := Text.append_inj_of_size (x := imports ++ c :: (t ++ ['{'])) (y := a)
      (by simpa using hsplit) (by rw [Text.size_append]; exact Option.some.inj hbody)
    exact h.clear hl

theorem point (h : r.Parts imports c t a) : ImportPoint r imports c (t ++ '{' :: a) :=
  importPoint_of_offset h.offset

/-- The rest, read on its own, up to the brace of the method. -/
theorem enters_rest (h : r.Parts imports c t a) :
    r.Enters (r.run {} (stretch r.language.quoting .start [] (c :: t) ('{' :: a)))
      ((Mode.start.behind r.language.quoting (c :: t) (some '{')).place ((c :: t).reverse ++ [])
        '{' a) := by
  obtain ⟨front, a', hsplit, hm, henter⟩ := methodBody_split h.restBody
  have hbrace : '{'.utf8Size = 1 := by decide
  simp only [Text.size_cons, Text.size_append, Text.size_nil, hbrace] at hm
  obtain ⟨rfl, ha⟩ := Text.append_inj_of_size (x := c :: t) (y := '{' :: a) hsplit
    (by simp only [Text.size_cons]; omega)
  obtain rfl : a = a' := by simpa using ha
  rw [List.append_nil]
  exact henter

/-- The delegate as a whole, up to the brace of the method. -/
theorem enters_whole (h : r.Parts imports c t a) :
    r.Enters (r.run (r.run {} (stretch r.language.quoting .start [] imports (c :: (t ++ '{' :: a))))
        (stretch r.language.quoting .start imports.reverse (c :: t) ('{' :: a)))
      ((Mode.start.behind r.language.quoting (c :: t) (some '{')).place
        ((c :: t).reverse ++ imports.reverse) '{' a) := by
  obtain ⟨front, a', hsplit, hm, henter⟩ := methodBody_split h.body
  have hbrace : '{'.utf8Size = 1 := by decide
  simp only [Text.size_cons, Text.size_append, Text.size_nil, hbrace] at hm
  obtain ⟨rfl, ha⟩ := Text.append_inj_of_size (x := imports ++ c :: t) (y := '{' :: a)
    (by simpa using hsplit) (by simp only [Text.size_append, Text.size_cons]; omega)
  obtain rfl : a = a' := by simpa using ha
  -- at the top level the scan of the rest goes on as at the start of a text
  obtain ⟨l, hmode, hlevel⟩ := h.point.mode
  rw [stretch_append, run_append, behind_append, List.reverse_append] at henter
  simp only [List.cons_append, List.head?_cons, Option.some_or, hmode, List.append_nil,
    stretch_restart hlevel, behind_restart hlevel] at henter
  exact henter

theorem unmarked_front {s : Survey} {b : Text}
    (h : ∀ n, (r.run s (stretch quoting .start b (c :: (t ++ '{' :: a)) [])).endOfImports = some n →
      n ≤ b.size) :
    Unmarked r (r.survey s (Mode.start.place b c (t ++ '{' :: a)))
      (stretch quoting (Mode.start.step quoting c (t ++ ['{']).head?) (c :: b) (t ++ ['{']) a) := by
  have hhead : (t ++ '{' :: a ++ []).head? = (t ++ ['{']).head? := by cases t <;> rfl
  rw [stretch_cons, run_cons, hhead, List.append_nil] at h
  have hunmarked := unmarked_of_endOfImports (r := r) (fun p hp he => by
    have hle := h _ he
    obtain ⟨x, y, -, hplace⟩ := stretch_split_of_mem hp
    have hsize := c.utf8Size_pos
    have hoff : p.offset = Text.size (x.reverse ++ c :: b) := by rw [hplace]; rfl
    simp only [Text.size_append, Text.size_cons] at hoff
    omega)
  rw [show t ++ '{' :: a = (t ++ ['{']) ++ a by simp, stretch_append, List.append_nil] at hunmarked
  simpa using hunmarked.left

/-- No import line ends in the rest before its method, read on its own. -/
theorem unmarked_rest (h : r.Parts imports c t a) :
    Unmarked r (r.survey {} (Mode.start.place [] c (t ++ '{' :: a)))
      (stretch r.language.quoting (Mode.start.step r.language.quoting c (t ++ ['{']).head?)
        [c] (t ++ ['{']) a) := by
  refine unmarked_front fun n hn => ?_
  have hnone := h.restImports
  rw [analyze_eq, surveyed, positions_eq_stretch] at hnone
  rw [show (r.run {} _).endOfImports = none from hnone] at hn
  cases hn

/-- None does in the whole delegate. -/
theorem unmarked_whole (h : r.Parts imports c t a) :
    Unmarked r (r.survey (r.run {} (stretch r.language.quoting .start [] imports
        (c :: (t ++ '{' :: a)))) (Mode.start.place imports.reverse c (t ++ '{' :: a)))
      (stretch r.language.quoting (Mode.start.step r.language.quoting c (t ++ ['{']).head?)
        (c :: imports.reverse) (t ++ ['{']) a) := by
  refine unmarked_front fun n hn => ?_
  have hoffset := h.offset
  rw [analyze_eq, surveyed, h.point.positions_nil, run_append, Landmarks.importOffset] at hoffset
  rw [show (Survey.landmarks _).endOfImports = some n from hn] at hoffset
  rw [Text.size_reverse, ← hoffset]
  exact le_rfl

/-- The survey in front of the rest, with import lines written there. -/
def written (r : Recipe) (imports : Text) (eol : LineBreak) (gs : List Text) (rest : Text) : Survey :=
  r.run {} (stretch r.language.quoting .start [] (imports ++ r.importLines eol gs) rest)

/-- **The landmarks of a wired delegate**, given a survey that no rule can tell from the one in front
of the rest. -/
theorem analyze_of_indistinct (w : r.Writes i) (h : r.Parts imports c t a)
    (hgs : ∀ g ∈ gs, g ∈ Service.allFrameworks) (hne : gs ≠ []) (eol eol' : LineBreak)
    {E : Bool → Header → Header → Prop} {s : Survey} {b : Text} (hE : r.Indistinct E)
    (hb : EndsLine b) (hs : Orderly s) (hn : s.typeSeen = false)
    (e : E false s.header
      (written r imports eol gs (c :: (t ++ '{' :: (r.callLine eol' ++ a)))).header)
    (henter : r.Enters (r.run s (stretch r.language.quoting .start b (c :: t) ('{' :: a)))
      ((Mode.start.behind r.language.quoting (c :: t) (some '{')).place ((c :: t).reverse ++ b)
        '{' a))
    (hbody : (r.run s (stretch r.language.quoting .start b (c :: (t ++ '{' :: a)) [])).body? =
      some (b.size + Text.size (c :: (t ++ ['{']))))
    (hmarks : Unmarked r (r.survey s (Mode.start.place b c (t ++ '{' :: a)))
      (stretch r.language.quoting (Mode.start.step r.language.quoting c (t ++ ['{']).head?)
        (c :: b) (t ++ ['{']) a)) :
    r.analyze (imports ++ (r.importLines eol gs ++ c :: (t ++ '{' :: (r.callLine eol' ++ a)))) =
      ⟨some (imports.size + (r.importLines eol gs).size), true,
        some (imports.size + (r.importLines eol gs).size + Text.size (c :: (t ++ ['{']))),
        [⟨imports.size + (r.importLines eol gs).size + Text.size (c :: (t ++ ['{'])),
          imports.size + (r.importLines eol gs).size + Text.size (c :: (t ++ ['{'])) +
            (r.callLine eol').size⟩]⟩ := by
  have hid := fun g hg => Service.isIdentifier_of_mem (hgs g hg)
  have hunseen := h.point.typeSeen_written eol (t ++ '{' :: (r.callLine eol' ++ a)) (fun _ => w.typeName) hgs
    fun h => absurd h hne
  have hlines : imports ++ r.importLines eol gs ≠ [] := fun hnil =>
    Language.importLines_ne_nil hne (List.append_eq_nil_iff.1 hnil).2
  have hends := h.point.endsImports_written eol hgs hlines
    (t ++ '{' :: (r.callLine eol' ++ a))
  have hsize : Text.size ((r.importLines eol gs).reverse ++ imports.reverse) =
      imports.size + (r.importLines eol gs).size := by
    simp only [Text.size_append, Text.size_reverse]
    omega
  have habs : ¬ Integration.receiver <:+: c :: (t ++ '{' :: a) := fun hin =>
    h.receiver_absent (hin.trans (List.suffix_append _ _).isInfix)
  have hlast : EndsLine ((r.importLines eol gs).reverse ++ imports.reverse) :=
    r.language.endsLine_importLines eol hid h.point.endsLine
  obtain ⟨stop, hlandmarks, hstop⟩ := run_wired w hE hb hlast hs (orderly_run orderly_start) hn hunseen
    e henter hbody hmarks hends habs
  rw [hstop.2 h.clear] at hlandmarks
  rw [analyze_eq, surveyed, h.point.positions_eq eol hid, run_append]
  simp only [hsize] at hlandmarks
  exact hlandmarks

/-- The body of the method in the rest, read on its own. -/
theorem body_rest (h : r.Parts imports c t a) :
    (r.run {} (stretch r.language.quoting .start [] (c :: (t ++ '{' :: a)) [])).body? =
      some (Text.size [] + Text.size (c :: (t ++ ['{']))) := by
  rw [← positions_eq_stretch, ← surveyed, ← methodBody_analyze, h.restBody]
  simp

/-- The body of the method in the rest, behind the survey of the imports. -/
theorem body_whole (h : r.Parts imports c t a) :
    (r.run (r.run {} (stretch r.language.quoting .start [] imports (c :: (t ++ '{' :: a))))
        (stretch r.language.quoting .start imports.reverse (c :: (t ++ '{' :: a)) [])).body? =
      some (Text.size imports.reverse + Text.size (c :: (t ++ ['{']))) := by
  have hbody := h.body
  rw [methodBody_analyze, surveyed, h.point.positions_nil, run_append] at hbody
  rw [hbody, Text.size_reverse]

/-- **The landmarks of a wired delegate**: the imports end behind the new lines, and the only start
call is the new one. -/
theorem analyze_wired (w : r.Writes i) (hn : r.language = .swift → r.typeName ≠ "import".toList)
    (h : r.Parts imports c t a) (hgs : ∀ g ∈ gs, g ∈ Service.allFrameworks) (hne : gs ≠ [])
    (eol eol' : LineBreak) :
    r.analyze (imports ++ (r.importLines eol gs ++ c :: (t ++ '{' :: (r.callLine eol' ++ a)))) =
      ⟨some (imports.size + (r.importLines eol gs).size), true,
        some (imports.size + (r.importLines eol gs).size + Text.size (c :: (t ++ ['{']))),
        [⟨imports.size + (r.importLines eol gs).size + Text.size (c :: (t ++ ['{'])),
          imports.size + (r.importLines eol gs).size + Text.size (c :: (t ++ ['{'])) +
            (r.callLine eol').size⟩]⟩ := by
  have hid := fun g hg => Service.isIdentifier_of_mem (hgs g hg)
  cases hl : r.language with
  | objectiveC =>
    refine analyze_of_indistinct w h hgs hne eol eol' (s := {}) (b := [])
      (indistinct_padded_objectiveC hl eol) rfl orderly_start rfl (.inr ⟨?_, fun hs => ?_⟩)
      h.enters_rest h.body_rest h.unmarked_rest
    · have hheader := h.point.header_written_objectiveC eol (t ++ '{' :: (r.callLine eol' ++ a)) hl
        hid hne
      exact hheader.trans (List.append_nil _).symm
    · exact absurd (hl.symm.trans hs) (by decide)
  | swift =>
    set s₀ := r.run {} (stretch r.language.quoting .start [] imports (c :: (t ++ '{' :: a))) with hs₀
    have hspace : s₀.header.text.getLast?.all Text.isSpace = true :=
      isSpace_header h.point.endsLine rfl
    have hheader : (written r imports eol gs
        (c :: (t ++ '{' :: (r.callLine eol' ++ a)))).header.text =
        s₀.header.text ++ r.importLines eol gs :=
      h.point.header_written_swift hl hid fun h => absurd h hne
    by_cases htype : (Swift.typeHeader r).occursIn s₀.header.text = true
    · -- the header in front of the rest names the type already, so the whole delegate is compared
      exact analyze_of_indistinct w h hgs hne eol eol' (s := s₀) (b := imports.reverse)
        (indistinct_shared hl fun t => Swift.typeHeader_extend w.typeName hspace htype)
        h.point.endsLine (orderly_run orderly_start) h.point.unseen
        (.inr ⟨rfl, List.prefix_rfl, by rw [hheader]; exact List.prefix_append _ _⟩)
        h.enters_whole h.body_whole h.unmarked_whole
    · -- no type header lies across the lines, so the rest alone is compared
      have htext : Swift.ImportText (r.importLines eol gs) := by
        have htext := Language.importText_importLines hgs hne eol
        rwa [← hl] at htext
      have hlast : (s₀.header.text ++ r.importLines eol gs).getLast? = some '\n' := by
        rw [List.getLast?_append, htext.ends, Option.some_or]
      refine analyze_of_indistinct w h hgs hne eol eol' (s := {}) (b := [])
        (indistinct_padded_swift hl (s₀.header.text ++ r.importLines eol gs) (by rw [hlast]; decide)
          fun t => ?_)
        rfl orderly_start rfl (.inr ⟨?_, fun _ => rfl⟩) h.enters_rest h.body_rest h.unmarked_rest
      · rw [Bool.eq_iff_iff]
        constructor
        · intro hacross
          rw [List.append_assoc] at hacross
          exact (Swift.typeHeader_across w.typeName (hn hl) hspace htext hacross).resolve_left htype
        · exact Swift.typeHeader_prepend w.typeName (by rw [hlast]; decide)
      · rw [hheader]
        exact (List.append_nil _).symm

end Parts

end Recipe

end SdkWiring
