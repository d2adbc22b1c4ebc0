import SdkWiring.Proofs.Delegate.CallPart
import SdkWiring.Proofs.Delegate.Installed

/-!
# The text up to the first method

All that an installation touches, but for the imports, stands behind the brace of the first method of
the type. So up to that brace a delegate stays as it is, with the missing import lines in it, and a
second installation finds nothing missing.

* `Recipe.exists_first_brace`: the body of the method and all calls stand behind the first brace.
* `Recipe.front_of_install`: the text of a wired delegate up to that brace.
* `Recipe.missingFrameworks_again`: nothing is missing from a wired delegate.
-/

namespace SdkWiring

variable {r : Recipe} {i : Integration} {s : Survey} {p q : Position} {ps xs ys xs' ys' : List Position}
  {content x y : Text} {m n : Nat} {call : Span} {out : Outcome}

namespace Recipe

/-- Nothing is found before a method is entered. -/
structure Outside (s : Survey) : Prop where
  inMethod : s.firstBody = none → s.inMethod = false
  preferredBody : s.firstBody = none → s.preferredBody = none
  startCalls : s.firstBody = none → s.startCalls = []

theorem outside_survey (h : Outside s) (p : Position) : Outside (r.survey s p) := by
  have hbody : (r.survey s p).firstBody = none → s.firstBody = none ∧
      (s.inType && r.opensMethod s.header p) = false := by
    intro hn
    simp only [survey, Option.or_eq_none_iff] at hn
    refine ⟨hn.1, ?_⟩
    rw [← Bool.not_eq_true]
    intro he
    rw [if_pos he] at hn
    cases hn.2
  constructor <;> intro hn <;> obtain ⟨hf, he⟩ := hbody hn
  · simp [survey, h.inMethod hf, he]
  · simp [survey, h.preferredBody hf, he]
  · simp [survey, h.inMethod hf, h.startCalls hf, he]

theorem outside_run : Outside (r.run {} ps) :=
  run_induction (by constructor <;> intro <;> rfl) fun _ p _ hs => outside_survey hs p

/-- A method that was entered stays known. -/
theorem firstBody_run (h : s.firstBody ≠ none) : (r.run s ps).firstBody ≠ none :=
  run_induction (P := fun s => s.firstBody ≠ none) h fun _ _ _ hs hn => by
    simp only [survey, Option.or_eq_none_iff] at hn
    exact hs hn.1

/-- Of two positions of a text, the one with more positions before it has the other before it. -/
theorem forth_backpart (h : positions r.language.quoting content = xs ++ p :: ys)
    (h' : positions r.language.quoting content = xs' ++ q :: ys') (hlt : xs.length < xs'.length) :
    p.backpart ++ [p.char] <+: q.backpart := by
  obtain ⟨ht, hxs, -, -⟩ := positions_split h
  obtain ⟨ht', hxs', -, -⟩ := positions_split h'
  have hlen := congrArg List.length hxs
  have hlen' := congrArg List.length hxs'
  rw [length_stretch] at hlen hlen'
  have hback : p.backpart ++ [p.char] <+: content := ⟨p.after, by rw [ht, Position.forepart]; simp⟩
  have hback' : q.backpart <+: content := ⟨q.forepart, ht'.symm⟩
  refine List.prefix_of_prefix_length_le hback hback' ?_
  rw [List.length_append, List.length_singleton]
  omega

/-- The start of a call stays behind any character that is no white space. -/
theorem start_of_backpart {d : Char} (hd : Text.isSpace d = false) (h : x ++ [d] <+: p.backpart) :
    Text.size (x ++ [d]) ≤ (Survey.beforeIndent p.before).size := by
  obtain ⟨w, hw, hspace⟩ := Survey.isSpace_of_beforeIndent p.before
  obtain ⟨z, hz⟩ := h
  have hback : p.before = z.reverse ++ d :: x.reverse := by
    have := congrArg List.reverse hz
    rw [Position.backpart, List.reverse_reverse] at this
    rw [← this]
    simp
  generalize Survey.beforeIndent p.before = b at hw ⊢
  rw [hback] at hw
  -- only white space is cut out, so the character stays where it is
  have hdw : d ∉ w := fun h => by
    rw [hspace d h] at hd
    cases hd
  rcases List.append_eq_append_iff.1 hw with ⟨u, hu, hrest⟩ | ⟨u, -, hrest⟩
  · cases u with
    | nil =>
      rw [← show d :: x.reverse = b from hrest]
      simp only [Text.size_append, Text.size_cons, Text.size_reverse, Text.size_nil]
      omega
    | cons e u =>
      obtain ⟨rfl, -⟩ := List.cons.inj hrest
      exact absurd (hu ▸ by simp) hdw
  · rw [hrest]
    simp only [Text.size_append, Text.size_cons, Text.size_reverse, Text.size_nil]
    omega

/-- Where a call is recorded, a method was entered before. -/
theorem firstBody_of_inMethod (h : (r.run {} ps).inMethod = true) : (r.run {} ps).firstBody ≠ none :=
  fun hn => by
    rw [outside_run.inMethod hn] at h
    cases h

/-- A position at which a method is known is the one where the first was entered, or behind it. -/
theorem later_of_firstBody (hps : positions r.language.quoting content = xs ++ p :: ys)
    (hn : (r.run {} xs).firstBody = none)
    (hqs : positions r.language.quoting content = xs' ++ q :: ys')
    (hne : (r.run {} (xs' ++ [q])).firstBody ≠ none) :
    p = q ∨ p.backpart ++ [p.char] <+: q.backpart := by
  rcases Nat.lt_trichotomy xs.length xs'.length with hlt | heq | hlt
  · exact .inr (forth_backpart hps hqs hlt)
  · obtain ⟨-, htail⟩ := List.append_inj (hps.symm.trans hqs) heq
    exact .inl (List.cons.inj htail).1
  · obtain ⟨zs, hzs⟩ : xs' ++ [q] <+: xs := by
      have hfirst : xs' ++ [q] <+: positions r.language.quoting content := ⟨ys', by rw [hqs]; simp⟩
      refine List.prefix_of_prefix_length_le hfirst ⟨p :: ys, hps.symm⟩ ?_
      rw [List.length_append, List.length_singleton]
      omega
    rw [← hzs, run_append] at hn
    exact absurd hn (firstBody_run hne)

/-- The first method is entered somewhere if the body of one is found. -/
theorem exists_first_enters (hm : (r.surveyed content).body? = some m) :
    ∃ xs p ys, positions r.language.quoting content = xs ++ p :: ys ∧
      (r.run {} xs).firstBody = none ∧ r.Enters (r.run {} xs) p := by
  have hfirst : (r.surveyed content).firstBody ≠ none := fun hn => by
    have hp : (r.surveyed content).preferredBody = none := Outside.preferredBody outside_run hn
    rw [Survey.body?, hn, hp] at hm
    cases hm
  rcases exists_step (P := fun s => s.firstBody ≠ none) hfirst with h | ⟨xs, p, ys, hps, hn, hp⟩
  · exact absurd rfl h
  rw [not_not] at hn
  simp only [survey, hn, Option.none_or, ne_eq, ite_eq_right_iff, reduceCtorEq, imp_false,
    not_not, Bool.and_eq_true] at hp
  exact ⟨xs, p, ys, hps, hn, hp.1, hp.2⟩

/-- **The brace of the first method** of the type: the body of the method and all calls stand behind
it. -/
theorem exists_first_brace (hr : Text.isIdentifier r.receiver = true)
    (hs : Text.isIdentifier r.selector = true) (hm : (r.analyze content).methodBody = some m) :
    ∃ xs p ys, positions r.language.quoting content = xs ++ p :: ys ∧ r.Enters (r.run {} xs) p ∧
      p.offset + 1 ≤ m ∧ ∀ call ∈ (r.analyze content).startCalls, p.offset + 1 ≤ call.start := by
  rw [methodBody_analyze] at hm
  obtain ⟨xs, p, ys, hps, hn, henter⟩ := exists_first_enters hm
  have hbrace : '{'.utf8Size = 1 := by decide
  refine ⟨xs, p, ys, hps, henter, ?_, fun call hcall => ?_⟩
  · obtain ⟨xs', q, ys', hqs, rfl, henter'⟩ := origin_body hm
    have hne : (r.run {} (xs' ++ [q])).firstBody ≠ none := by
      rw [run_append, run_cons, run_nil]
      simp [survey, henter'.inType, henter'.opens]
    rcases later_of_firstBody hps hn hqs hne with rfl | ⟨z, hz⟩
    · exact le_rfl
    · have := congrArg Text.size hz
      simp only [Position.backpart, Text.size_append, Text.size_reverse] at this
      simp only [Position.offset]
      omega
  · rw [analyze_eq] at hcall
    rcases origin_call hcall with h | ⟨xs', q, ys', hqs, hin, hcall⟩
    · simp at h
    rcases later_of_firstBody hps hn hqs (firstBody_of_inMethod hin) with rfl | hpre
    · obtain ⟨-, -, -, -, -, hbrace⟩ := text_of_callAt? hr hs hcall
      exact absurd henter.char_eq hbrace
    · obtain ⟨part, behind, -, rfl, -⟩ := part_of_callAt? hr hs hcall
      rw [henter.char_eq] at hpre
      have := start_of_backpart (by decide) hpre
      rw [Position.backpart, Text.size_append, Text.size_reverse] at this
      exact this

theorem exists_importOffset (hne : content ≠ []) : ∃ (imports : Text) (c : Char) (a : Text),
    content = imports ++ c :: a ∧ (r.analyze content).importOffset = imports.size := by
  rw [analyze_eq, Landmarks.importOffset]
  cases hend : (r.surveyed content).landmarks.endOfImports with
  | none =>
    obtain ⟨c, a, rfl⟩ := List.exists_cons_of_ne_nil hne
    exact ⟨[], c, a, rfl, rfl⟩
  | some n =>
    obtain ⟨xs, p, ys, hsplit, hoff, -, -⟩ := origin_endOfImports hend
    refine ⟨p.backpart, p.char, p.after, (positions_split hsplit).1, ?_⟩
    rw [Position.backpart, Text.size_reverse]
    exact hoff.symm

/-- The first method of the type opens behind the imports and one more character. -/
theorem front_of_enters {imports a : Text} {c : Char} (h : ImportPoint r imports c a)
    (hps : positions r.language.quoting (imports ++ c :: a) = xs ++ p :: ys)
    (henter : r.Enters (r.run {} xs) p) :
    ∃ t z, c :: a = c :: (t ++ '{' :: z) ∧ p.backpart = imports ++ c :: t := by
  obtain ⟨htext, hxs, -, -⟩ := positions_split hps
  -- the type is not open before the imports end
  have hbehind : ∀ u, imports ≠ p.backpart ++ u := by
    intro u hu
    have hunseen := h.unseen
    have hfore : u ++ c :: a = p.forepart := by
      rw [hu, List.append_assoc] at htext
      exact List.append_cancel_left htext
    rw [hu, stretch_append, hfore, ← hxs, run_append] at hunseen
    have hin := henter.inType
    rw [(orderly_run orderly_start : Orderly (r.run {} xs)).inType] at hin
    · cases hin
    · rw [← Bool.not_eq_true]
      intro hseen
      rw [typeSeen_run hseen] at hunseen
      cases hunseen
  rw [Position.forepart, henter.char_eq] at htext
  rcases List.append_eq_append_iff.1 htext with ⟨u, hu, hrest⟩ | ⟨u, hu, -⟩
  · cases u with
    | nil => exact absurd (by simpa using hu.symm) (hbehind [])
    | cons d u =>
      obtain ⟨rfl, rfl⟩ := List.cons.inj hrest
      exact ⟨u, p.after, rfl, hu⟩
  · exact absurd hu (hbehind u)

/-- The imports end in front of the brace of any method. -/
theorem importOffset_le (hps : positions r.language.quoting content = xs ++ p :: ys)
    (henter : r.Enters (r.run {} xs) p) : (r.analyze content).importOffset ≤ p.offset := by
  have hne : content ≠ [] := by
    rw [(positions_split hps).1, Position.forepart]
    simp
  obtain ⟨imports, c, a, rfl, hoffset⟩ := exists_importOffset (r := r) hne
  obtain ⟨t, z, -, hback⟩ := front_of_enters (importPoint_of_offset hoffset) hps henter
  have hsize := congrArg Text.size hback
  simp only [Position.backpart, Text.size_reverse, Text.size_append] at hsize
  rw [hoffset, Position.offset]
  omega

theorem importOffset_lt (hm : (r.analyze content).methodBody = some m) :
    (r.analyze content).importOffset < m := by
  rw [methodBody_analyze] at hm
  obtain ⟨xs, p, ys, hps, rfl, henter⟩ := origin_body hm
  exact Nat.lt_succ_of_le (importOffset_le hps henter)

/-- The imports end in front of all calls. -/
theorem importOffset_le_start (hr : Text.isIdentifier r.receiver = true)
    (hs : Text.isIdentifier r.selector = true) (hcall : call ∈ (r.analyze content).startCalls) :
    (r.analyze content).importOffset ≤ call.start := by
  obtain ⟨m, hm⟩ : ∃ m, (r.analyze content).methodBody = some m := by
    rw [methodBody_analyze]
    rw [analyze_eq] at hcall
    cases hfirst : (r.surveyed content).firstBody with
    | none =>
      have hnone : (r.surveyed content).startCalls = [] := Outside.startCalls outside_run hfirst
      simp [Survey.landmarks, hnone] at hcall
    | some m => cases hbody : (r.surveyed content).preferredBody <;> simp [Survey.body?, hfirst, hbody]
  obtain ⟨xs, p, ys, hps, henter, -, hcalls⟩ := exists_first_brace hr hs hm
  exact (importOffset_le hps henter).trans (Nat.le_of_succ_le (hcalls call hcall))

/-- **The text of a wired delegate up to its first method.** -/
theorem front_of_install (hr : Text.isIdentifier r.receiver = true)
    (hs : Text.isIdentifier r.selector = true) (h : r.install content = .ok out) :
    ∃ imports c t z z', content = imports ++ c :: (t ++ '{' :: z) ∧
      ImportPoint r imports c (t ++ '{' :: z) ∧
      (r.analyze content).importOffset = imports.size ∧
      out.importsAdded = r.missingFrameworks imports ∧
      out.content = imports ++ (r.importLines (LineBreak.detect content)
        (r.missingFrameworks imports) ++ c :: (t ++ '{' :: z')) := by
  obtain ⟨m, hm⟩ := methodBody_of_install h
  obtain ⟨xs, p, ys, hps, henter, hbody, hcalls⟩ := exists_first_brace hr hs hm
  have hne : content ≠ [] := by
    rw [(positions_split hps).1, Position.forepart]
    simp
  obtain ⟨imports, c, a, rfl, hoffset⟩ := exists_importOffset (r := r) hne
  have hpoint := importPoint_of_offset hoffset
  obtain ⟨t, z, hrest, hback⟩ := front_of_enters hpoint hps henter
  obtain rfl : a = t ++ '{' :: z := (List.cons.inj hrest).2
  have hblock := Landmarks.importBlock_append hoffset (c :: (t ++ '{' :: z))
  set eol := LineBreak.detect (imports ++ c :: (t ++ '{' :: z)) with heol
  have hoff : p.offset + 1 = imports.size + Text.size (c :: (t ++ ['{'])) := by
    have hsize := congrArg Text.size hback
    have hbrace : '{'.utf8Size = 1 := by decide
    simp only [Position.backpart, Text.size_reverse, Text.size_append, Text.size_cons] at hsize
    simp only [Position.offset, Text.size_append, Text.size_cons, Text.size_nil, hbrace]
    omega
  rw [hoff] at hbody hcalls
  set content := imports ++ c :: (t ++ '{' :: z) with hcontent
  set es := (r.analyze content).callEdits ++ [Edit.insert m (r.callLine eol)] with hes
  -- all that is done but for the imports is done behind the brace
  have hstart : ∀ e ∈ es, imports.size + Text.size (c :: (t ++ ['{'])) ≤ e.start ∧
      e.start ≤ e.stop := by
    intro e he
    rcases List.mem_append.1 he with he | he
    · obtain ⟨call, hcall, rfl⟩ := List.mem_map.1 he
      exact ⟨hcalls _ hcall, (span_of_mem hr hs hcall).2.2.le⟩
    · rw [List.mem_singleton.1 he]
      exact ⟨hbody, le_rfl⟩
  have htext : content = imports ++ (c :: (t ++ ['{']) ++ z) := by simp [hcontent]
  obtain ⟨hsplice, hadded, -⟩ := splice_of_install hm h
  rw [hblock] at hadded
  rw [installEdits, hblock, ← heol, ← hes] at hsplice
  refine ⟨imports, c, t, z, ?_⟩
  by_cases hmissing : r.missingFrameworks imports = []
  · rw [if_pos hmissing, List.append_nil, htext, ← List.append_assoc] at hsplice
    obtain ⟨z', hz'⟩ := splice_kept (x := imports ++ (c :: (t ++ ['{']))) (fun e he => (hstart e he).2)
      (fun e he => by rw [Text.size_append]; exact (hstart e he).1) hsplice
    exact ⟨z', rfl, hpoint, hoffset, hadded, by rw [hz', hmissing]; simp [importLines]⟩
  · rw [if_neg hmissing, hoffset, htext] at hsplice
    obtain ⟨z', hz'⟩ := splice_insert_first (fun e he => (hstart e he).2) (by simp)
      (fun e he => (hstart e he).1) hsplice
    exact ⟨z', rfl, hpoint, hoffset, hadded, by rw [hz']; simp⟩

/-- The imports end no earlier than at a position where an import line ends. -/
theorem endOfImports_le {k : Nat} (hs : s.endOfImports = some k) (hps : ∀ p ∈ ps, k ≤ p.offset) :
    ∃ n, (r.run s ps).endOfImports = some n ∧ k ≤ n := by
  refine run_induction (P := fun s => ∃ n, s.endOfImports = some n ∧ k ≤ n) ⟨k, hs, le_rfl⟩
    fun s p hp hs => ?_
  simp only [survey]
  split
  · exact ⟨_, rfl, hps p hp⟩
  · exact hs

/-- The imports are the text before the position where they end. -/
theorem importBlock_of_position (hps : positions r.language.quoting content = xs ++ p :: ys)
    (hend : (r.surveyed content).endOfImports = some p.offset) :
    (r.analyze content).importBlock content = p.backpart := by
  have htext := (positions_split hps).1
  have hoffset : (r.analyze (p.backpart ++ p.forepart)).importOffset = p.backpart.size := by
    rw [← htext, analyze_eq, Position.backpart, Text.size_reverse]
    simp [Landmarks.importOffset, Survey.landmarks, hend, Position.offset]
  rw [htext]
  exact Landmarks.importBlock_append hoffset _

/-- **The imports with lines written behind them** reach at least to the end of the lines, if no type is
found on the way. -/
theorem importBlock_written {imports a a' : Text} {c : Char} {gs : List Text} (eol : LineBreak)
    (h : ImportPoint r imports c a) (hgs : ∀ g ∈ gs, g ∈ Service.allFrameworks)
    (hne : imports ++ r.importLines eol gs ≠ [])
    (hseen : (r.run {} (stretch r.language.quoting .start [] (imports ++ r.importLines eol gs)
      (c :: a'))).typeSeen = false) :
    ∃ u, (r.analyze (imports ++ (r.importLines eol gs ++ c :: a'))).importBlock
        (imports ++ (r.importLines eol gs ++ c :: a')) =
      imports ++ (r.importLines eol gs ++ u) := by
  have hid := fun g hg => Service.isIdentifier_of_mem (hgs g hg)
  set content := imports ++ (r.importLines eol gs ++ c :: a') with hcontent
  have hends := h.endsImports_written eol hgs hne a'
  set b : Text := (r.importLines eol gs).reverse ++ imports.reverse with hb
  have hsize : b.size = imports.size + (r.importLines eol gs).size := by
    simp only [hb, Text.size_append, Text.size_reverse]
    omega
  -- the imports end behind the lines, unless a later position ends them once more
  obtain ⟨n, hn, hle⟩ : ∃ n, (r.surveyed content).endOfImports = some n ∧ b.size ≤ n := by
    rw [surveyed, hcontent, h.positions_eq eol hid, run_append, stretch_cons, run_cons]
    refine endOfImports_le ?_ fun p hp => ?_
    · simp only [survey, hseen, List.append_nil, ← hb, hends]
      rfl
    · obtain ⟨x, y, -, hplace⟩ := stretch_split_of_mem hp
      have hoff : p.offset = Text.size (x.reverse ++ c :: b) := by rw [hplace]; rfl
      simp only [Text.size_append, Text.size_cons] at hoff
      omega
  obtain ⟨xs, p, ys, hps, rfl, -, -⟩ := origin_endOfImports hn
  have htext := (positions_split hps).1
  have hback : p.backpart.size = p.offset := by
    rw [Position.backpart, Text.size_reverse, Position.offset]
  rw [importBlock_of_position hps hn]
  rw [hcontent, ← List.append_assoc] at htext
  rcases List.append_eq_append_iff.1 htext with ⟨u, hu, -⟩ | ⟨u, hu, -⟩
  · exact ⟨u, by rw [hu, List.append_assoc]⟩
  · have hsize' := congrArg Text.size hu
    simp only [Text.size_append, hback] at hsize'
    obtain rfl := Text.eq_nil_of_size (t := u) (by omega)
    exact ⟨[], by simpa using hu.symm⟩

/-- **Nothing is missing behind the lines of what was missing**, if no type is found on the way. -/
theorem missingFrameworks_written {imports a a' : Text} {c : Char} (hr : r.OfSdk) (eol : LineBreak)
    (h : ImportPoint r imports c a)
    (hseen : (r.run {} (stretch r.language.quoting .start []
      (imports ++ r.importLines eol (r.missingFrameworks imports)) (c :: a'))).typeSeen = false)
    (hcontent : content = imports ++ (r.importLines eol (r.missingFrameworks imports) ++ c :: a')) :
    r.missingFrameworks ((r.analyze content).importBlock content) = [] := by
  set gs := r.missingFrameworks imports with hgs
  have hmissing : ∀ g ∈ gs, g ∈ r.frameworks := fun g hg => (List.mem_filter.1 hg).1
  have hne : imports ++ r.importLines eol gs ≠ [] := by
    intro hnil
    obtain ⟨rfl, hlines⟩ := List.append_eq_nil_iff.1 hnil
    have hstart : EndsLine ([] : Text).reverse := rfl
    have hall := missingFrameworks_of_absent hr hstart (by decide)
    rw [← hgs] at hall
    exact Language.importLines_ne_nil (hall ▸ hr.frameworks_ne_nil) hlines
  obtain ⟨u, hu⟩ := importBlock_written eol h (fun g hg => hr.frameworks g (hmissing g hg)) hne hseen
  rw [hcontent, hu, missingFrameworks, List.filter_eq_nil_iff]
  intro f hf
  have hid := Service.isIdentifier_of_mem (hr.frameworks f hf)
  have hoccurs : (r.language.importOf f).occursIn (imports ++ (r.importLines eol gs ++ u)) = true := by
    by_cases hfgs : f ∈ gs
    · exact r.language.occursIn_importLines_of_mem eol hid h.endsLine
        (fun g hg => Service.isIdentifier_of_mem (hr.frameworks g (hmissing g hg))) hfgs u
    · refine Language.occursIn_importOf_append hid h.endsLine ?_ _
      have := fun hno => hfgs (List.mem_filter.2 ⟨hf, hno⟩)
      simpa using this
  rw [hoccurs]
  decide

/-- **Nothing is missing from a wired delegate.** -/
theorem missingFrameworks_again (w : r.Writes i) (h : r.install content = .ok out) :
    r.missingFrameworks ((r.analyze out.content).importBlock out.content) = [] := by
  obtain ⟨imports, c, t, z, z', rfl, hpoint, -, -, hout⟩ :=
    front_of_install w.isIdentifier.1 w.isIdentifier.2 h
  refine missingFrameworks_written w.ofSdk _ hpoint ?_ hout
  exact hpoint.typeSeen_written _ _ (fun _ => w.typeName)
    (fun g hg => w.ofSdk.frameworks g (List.mem_filter.1 hg).1) fun _ => ⟨c :: t, z, z', rfl, rfl⟩

end Recipe

end SdkWiring
