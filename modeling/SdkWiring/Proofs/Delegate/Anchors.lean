import SdkWiring.Proofs.Delegate.LiveImports
import SdkWiring.Proofs.Delegate.Removal
import SdkWiring.Proofs.Scan.Balance
import SdkWiring.Proofs.Text.Deleting

/-!
# What edits of a delegate refer to

The landmarks of a delegate are places at which it can be cut, in an order that edits can rely on. So
neither an installation nor a removal fails on them. Recorded spans that overlap end together, and lines
of imports lie apart from them and from each other. So no two deletions cross, and a removal takes away
all that any of them takes.

* `Recipe.inMethod_split`: the brace that a position inside a method stands behind.
* `Recipe.Usable`: what is asked of landmarks; `usable_analyze`: those of a scan have it.
* `Recipe.exists_install`, `exists_uninstall`: what the edits do.
* `Recipe.usable_of_made`: all this for the recipes of the commands.
-/

namespace SdkWiring

variable {r : Recipe} {content : Text} {call s : Span} {e : Edit} {m n : Nat} {ys zs : List Position}

/-- Whether an offset lies in a span. -/
def Span.covers (s : Span) (n : Nat) : Bool := s.start ≤ n && n < s.stop

/-- The offsets of all landmarks. -/
def Landmarks.offsets (l : Landmarks) : List Nat :=
  l.endOfImports.toList ++ l.methodBody.toList ++
    l.startCalls.flatMap fun call => [call.start, call.stop]

/-- A text without characters is no import line. -/
theorem Language.anyImport_nil (language : Language) :
    language.anyImport.matchesAt (.start []) = false := by
  cases language <;> decide

namespace Recipe

/-- The recipes of the commands: for an integration or for a removal, with any names in them. -/
inductive Made : Recipe → Prop
  | forIntegration (language : Language) (i : Integration) (typeName methodName indent : Text)
      (sourceName : String) :
      Made ((forIntegration language i).configured typeName methodName indent sourceName)
  | forRemoval (language : Language) (typeName methodName indent : Text) (sourceName : String) :
      Made ((forRemoval language).configured typeName methodName indent sourceName)

theorem Made.ofSdk (h : r.Made) : r.OfSdk := by
  cases h with
  | forIntegration => exact ofSdk_forIntegration _ _ _ _ _ _
  | forRemoval => exact ofSdk_forRemoval _ _ _ _ _

/-- **A start call that begins in a method**: it is recognised at a position inside the braces of a
method that is looked for. The body of the method starts at the given offset. -/
def BeginsIn (r : Recipe) (content : Text) (call : Span) (body : Nat) : Prop :=
  ∃ xs p us q ys, positions r.language.quoting content = xs ++ p :: (us ++ q :: ys) ∧
    r.Enters (r.run {} xs) p ∧ p.offset + 1 = body ∧ (∀ u ∈ us ++ [q], p.level < u.level) ∧
    r.callAt? q = some call

/-- **What is asked of landmarks.** All of them fall on character boundaries. The imports end behind a
line feed, in front of the body of the method, and that starts behind a brace. The spans of start calls
take up something, they are in the order of their starts, each begins in a method and starts in its body,
and any two of them lie apart or end together. -/
structure Usable (r : Recipe) (content : Text) (l : Landmarks) : Prop where
  boundary : ∀ n ∈ l.offsets, content.IsBoundary n
  endOfImports : ∀ n, l.endOfImports = some n →
    content.IsBehind '\n' n ∧ ∀ m, l.methodBody = some m → n < m
  methodBody : ∀ m, l.methodBody = some m → content.IsBehind '{' m
  nonempty : ∀ call ∈ l.startCalls, call.start < call.stop
  increasing : l.startCalls.Pairwise fun c d => c.start < d.start
  inBody : ∀ call ∈ l.startCalls, ∃ body, r.BeginsIn content call body ∧ body ≤ call.start
  nested : l.startCalls.Pairwise fun c d => c.stop ≤ d.start ∨ c.stop = d.stop

/-- **Inside a method** the brace of a method stands before, and nothing since then is at its level. -/
theorem inMethod_split (h : positions r.language.quoting content = zs ++ ys)
    (hin : (r.run {} zs).inMethod = true) :
    ∃ xs p us, zs = xs ++ p :: us ∧ r.Enters (r.run {} xs) p ∧ ∀ u ∈ us, p.level < u.level := by
  induction zs using List.reverseRecOn generalizing ys with
  | nil => cases hin
  | append_singleton zs u ih =>
    rw [List.append_assoc, List.singleton_append] at h
    rw [run_append, run_cons, run_nil] at hin
    simp only [survey, Bool.and_eq_true, Bool.or_eq_true, Bool.not_eq_true'] at hin
    obtain ⟨hin | henter, hopen⟩ := hin
    · obtain ⟨xs, p, us, rfl, henter, hus⟩ := ih h hin
      refine ⟨xs, p, us ++ [u], by simp, henter, fun v hv => ?_⟩
      rcases List.mem_append.1 hv with hv | hv
      · exact hus v hv
      obtain rfl := List.mem_singleton.1 hv
      obtain ⟨-, hdepth⟩ := depth_above (by simpa using h) henter.live hus
      have hlevel := level_of_split h
      -- a closing brace at the level of the method would have left it
      by_cases hclose : v.live '}' = true
      · rw [if_pos hclose, depth_close (by decide) hclose] at hlevel
        simp only [closesMethod, hclose, Bool.and_true, beq_eq_false_iff_ne] at hopen
        have := henter.level_eq
        omega
      · rw [if_neg hclose] at hlevel
        omega
    · exact ⟨zs, u, [], rfl, ⟨henter.1, henter.2⟩, by simp⟩

/-- **Each recorded call begins in a method**, and its span starts in the body. -/
theorem beginsIn_of_mem (hr : Text.isIdentifier r.receiver = true)
    (hs : Text.isIdentifier r.selector = true) (hcall : call ∈ (r.analyze content).startCalls) :
    ∃ body, r.BeginsIn content call body ∧ body ≤ call.start := by
  rw [analyze_eq] at hcall
  rcases origin_call hcall with h | ⟨zs, q, ys, hps, hin, hq⟩
  · simp at h
  have hzq : positions r.language.quoting content = (zs ++ [q]) ++ ys := by simpa using hps
  obtain ⟨xs, p, us, hzs, henter, hus⟩ := inMethod_split hzq hin
  obtain ⟨_, _, -, hspan, -, hbrace⟩ := text_of_callAt? hr hs hq
  rcases List.eq_nil_or_concat' us with rfl | ⟨us, u, rfl⟩
  · -- the call does not begin at the brace itself
    obtain ⟨-, hpq⟩ := List.append_inj' hzs rfl
    obtain rfl : q = p := by simpa using hpq
    exact absurd henter.char_eq hbrace
  · have hsplit : zs ++ [q] = (xs ++ p :: us) ++ [u] := by simpa using hzs
    obtain ⟨rfl, hqu⟩ := List.append_inj' hsplit rfl
    obtain rfl : q = u := by simpa using hqu
    have hbetween : positions r.language.quoting content = xs ++ p :: (us ++ q :: ys) := by
      simpa using hps
    have hforth := forth_backpart hbetween hps (by simp)
    rw [henter.char_eq] at hforth
    have hstart := start_of_backpart (by decide) hforth
    rw [Position.backpart, Text.size_append, Text.size_reverse] at hstart
    refine ⟨p.offset + 1, ⟨xs, p, us, q, ys, hbetween, henter, rfl, hus, hq⟩, ?_⟩
    rw [hspan]
    exact hstart

/-- **Calls are recorded in the order of their starts.** -/
theorem pairwise_start (hr : Text.isIdentifier r.receiver = true)
    (hs : Text.isIdentifier r.selector = true)
    (h : positions r.language.quoting content = zs ++ ys) :
    (r.run {} zs).startCalls.Pairwise fun c d => c.start < d.start := by
  induction zs using List.reverseRecOn generalizing ys with
  | nil => exact .nil
  | append_singleton zs q ih =>
    rw [List.append_assoc, List.singleton_append] at h
    rw [run_append, run_cons, run_nil, survey]
    refine List.pairwise_append.2 ⟨ih h, ?_, fun c hc d hd => ?_⟩
    · split
      · cases r.callAt? q <;> simp
      · exact .nil
    · replace hd : r.callAt? q = some d := by
        split at hd
        · simpa using hd
        · cases hd
      rcases origin_call hc with hc | ⟨xs, p, us, rfl, -, hp⟩
      · simp at hc
      have hbetween : positions r.language.quoting content = xs ++ p :: (us ++ q :: ys) := by
        simpa using h
      exact start_lt_start hr hs hbetween h (by simp) hp hd

/-- **The imports end behind a line feed.** -/
theorem endOfImports_behind (h : (r.analyze content).endOfImports = some n) :
    content.IsBehind '\n' n := by
  rw [analyze_eq] at h
  obtain ⟨xs, p, ys, hps, rfl, -, hends⟩ := origin_endOfImports h
  simp only [endsImports, Bool.and_eq_true] at hends
  obtain ⟨⟨-, hstart⟩, hline⟩ := hends
  cases hbefore : p.before with
  | nil =>
    -- no line ends at the start of a text
    rw [Position.previousLine, hbefore, Language.anyImport_nil] at hline
    cases hline
  | cons c b =>
    obtain rfl : c = '\n' := by simpa [Position.atLineStart, hbefore] using hstart
    refine ⟨b.reverse, p.forepart, ?_, ?_⟩
    · rw [(positions_split hps).1, Position.backpart, hbefore, List.reverse_cons]
    · rw [Position.offset, hbefore, ← Text.size_reverse, List.reverse_cons]

/-- **The landmarks of a scan are usable.** -/
theorem usable_analyze (hr : Text.isIdentifier r.receiver = true)
    (hs : Text.isIdentifier r.selector = true) (content : Text) :
    r.Usable content (r.analyze content) := by
  have hincreasing : (r.analyze content).startCalls.Pairwise fun c d => c.start < d.start := by
    rw [analyze_eq]
    exact pairwise_start hr hs (List.append_nil _).symm
  refine ⟨fun n hn => ?_, fun n hn => ⟨endOfImports_behind hn, fun m hm => ?_⟩,
    fun m hm => methodBody_brace hm, fun call hcall => (span_of_mem hr hs hcall).2.2, hincreasing,
    fun call hcall => beginsIn_of_mem hr hs hcall, hincreasing.imp_of_mem fun {c d} hc hd hlt => ?_⟩
  · simp only [Landmarks.offsets, List.mem_append, Option.mem_toList, List.mem_flatMap] at hn
    rcases hn with (hn | hn) | ⟨call, hcall, hn⟩
    · exact (endOfImports_behind hn).isBoundary
    · exact (methodBody_brace hn).isBoundary
    · obtain ⟨hstart, hstop, -⟩ := span_of_mem hr hs hcall
      rcases List.mem_pair.1 hn with rfl | rfl
      · exact hstart
      · exact hstop
  · have hoffset : (r.analyze content).importOffset = n := by rw [Landmarks.importOffset, hn]; rfl
    exact hoffset ▸ importOffset_lt hm
  · refine (Nat.lt_or_ge d.start c.stop).symm.imp_right fun hover => ?_
    exact stop_eq_of_overlap hr hs hc hd (Nat.le_of_lt hlt) hover

theorem isBoundary_importOffset (r : Recipe) (content : Text) :
    content.IsBoundary (r.analyze content).importOffset := by
  obtain ⟨block, rest, htext, hoffset, -⟩ := exists_importBlock r content
  exact ⟨block, rest, htext, hoffset⟩

/-- **An installation succeeds** where the method is found. -/
theorem exists_install (hr : Text.isIdentifier r.receiver = true)
    (hs : Text.isIdentifier r.selector = true) (hm : (r.analyze content).methodBody = some m) :
    ∃ out, r.install content = .ok out := by
  have hboundary : ∀ e ∈ r.installEdits content (r.analyze content) m,
      content.IsBoundary e.start ∧ content.IsBoundary e.stop := by
    intro e he
    rcases mem_installEdits he with ⟨call, hcall, rfl⟩ | rfl | ⟨hstart, hstop⟩
    · obtain ⟨hstart, hstop, -⟩ := span_of_mem hr hs hcall
      exact ⟨hstart, hstop⟩
    · exact ⟨(methodBody_brace hm).isBoundary, (methodBody_brace hm).isBoundary⟩
    · rw [hstart, hstop]
      exact ⟨isBoundary_importOffset r content, isBoundary_importOffset r content⟩
  obtain ⟨ps, tail, -, -, hsplice⟩ := Splice.exists_splice (fun e he => start_le_stop hr hs he)
    fun e he _ => hboundary e he
  exact ⟨_, by rw [install_eq hm, hsplice]⟩

/-- So it does not fail on its edits. -/
theorem install_ne_misaligned (hr : Text.isIdentifier r.receiver = true)
    (hs : Text.isIdentifier r.selector = true) (content : Text) :
    r.install content ≠ .error .misalignedEdit := by
  cases hm : (r.analyze content).methodBody with
  | none =>
    rw [install]
    simp only [hm]
    split <;> simp
  | some m =>
    obtain ⟨out, hout⟩ := exists_install hr hs hm
    simp [hout]

/-- A whole line, with its line feed, that imports a framework of the recipe in front of the end of the
imports. -/
def IsImportLine (r : Recipe) (content : Text) (s : Span) : Prop :=
  ∃ f ∈ r.frameworks, ∃ p u z, r.Imports content f p ∧ p.forepart = u ++ '\n' :: z ∧ '\n' ∉ u ∧
    s = ⟨p.offset, p.offset + Text.size (u ++ ['\n'])⟩

/-- The import lines are what the edits for them take away. -/
theorem isImportLine_iff (h : r.OfSdk) : r.IsImportLine content s ↔
    ∃ f ∈ r.frameworks,
      Edit.delete s.start s.stop ∈ r.importEdits ((r.analyze content).importBlock content) f := by
  obtain ⟨block, rest, htext, hoffset, hblock, hlast⟩ := exists_importBlock r content
  rw [hblock]
  refine exists_congr fun f => and_congr_right fun hf => ?_
  have hline : ∀ {e}, e ∈ r.importEdits block f ↔ ∃ p u z,
      ImportsAt r.language (block ++ rest) block.size f p ∧ p.forepart = u ++ '\n' :: z ∧ '\n' ∉ u ∧
        e = Edit.delete p.offset (p.offset + (u ++ ['\n']).size) :=
    mem_importEdits_iff (Service.isIdentifier_of_mem (h.frameworks f hf)) hlast
  rw [hline, ← htext, ← hoffset]
  simp only [Imports, Edit.delete, Edit.mk.injEq, and_true]
  refine exists_congr fun p => exists_congr fun u => exists_congr fun z => ?_
  cases s
  simp only [Span.mk.injEq]

/-- **An import line** takes up a part of the text up to the end of the imports. -/
theorem IsImportLine.span (h : r.OfSdk) (hs : r.IsImportLine content s) :
    content.IsBoundary s.start ∧ content.IsBoundary s.stop ∧ s.start < s.stop ∧
      s.stop ≤ (r.analyze content).importOffset := by
  obtain ⟨f, hf, he⟩ := (isImportLine_iff h).1 hs
  obtain ⟨block, rest, -, hoffset, hblock, hlast⟩ := exists_importBlock r content
  rw [hblock] at he
  obtain ⟨hlt, hle⟩ := bounds_of_importEdits (Service.isIdentifier_of_mem (h.frameworks f hf)) hlast he
  obtain ⟨f, -, p, u, z, hp, hfore, -, rfl⟩ := hs
  have htext : content = p.backpart ++ ((u ++ ['\n']) ++ z) := by
    rw [text_of_mem_positions hp.mem, Position.backpart, ← Position.forepart, hfore]
    simp
  have hback : p.backpart.size = p.offset := Text.size_reverse p.before
  refine ⟨⟨_, _, htext, hback.symm⟩, ⟨_, z, htext.trans (List.append_assoc _ _ _).symm, ?_⟩, hlt,
    hoffset ▸ hle⟩
  rw [Text.size_append p.backpart, hback]

/-- **The edits of a removal**: one for each start call and one for each import line. -/
theorem mem_uninstallEdits (h : r.OfSdk) :
    e ∈ r.uninstallEdits content (r.analyze content) ↔
      ∃ s, (s ∈ (r.analyze content).startCalls ∨ r.IsImportLine content s) ∧
        e = Edit.delete s.start s.stop := by
  simp only [uninstallEdits, List.mem_append, Landmarks.callEdits, List.mem_map, List.mem_flatMap,
    isImportLine_iff h]
  constructor
  · rintro (⟨call, hcall, rfl⟩ | ⟨f, hf, he⟩)
    · exact ⟨call, .inl hcall, rfl⟩
    · obtain ⟨line, -, rfl⟩ := List.mem_map.1 he
      exact ⟨⟨line.1.offset, line.2.offset⟩, .inr ⟨f, hf, he⟩, rfl⟩
  · rintro ⟨s, hcall | ⟨f, hf, he⟩, rfl⟩
    · exact .inl ⟨s, hcall, rfl⟩
    · exact .inr ⟨f, hf, he⟩

/-- **No two deletions of a removal cross.** Of those that overlap, two calls end together, and import
lines lie in front of all calls and apart from each other. -/
theorem nested_uninstallEdits (h : r.OfSdk) (content : Text) :
    Edit.Nested (r.uninstallEdits content (r.analyze content)) := by
  obtain ⟨hr, hs⟩ := h.isIdentifier
  intro a ha b hb hle hlt
  obtain ⟨c, hc | hc, rfl⟩ := (mem_uninstallEdits h).1 ha <;>
    obtain ⟨d, hd | hd, rfl⟩ := (mem_uninstallEdits h).1 hb <;>
    simp only [Edit.delete] at hle hlt ⊢
  · exact (stop_eq_of_overlap hr hs hc hd hle hlt).ge
  · have hcall := importOffset_le_start hr hs hc
    have hline := hd.span h
    omega
  · have hcall := importOffset_le_start hr hs hd
    have hline := hc.span h
    omega
  · obtain ⟨f, hf, ha⟩ := (isImportLine_iff h).1 hc
    obtain ⟨g, hg, hb⟩ := (isImportLine_iff h).1 hd
    obtain ⟨block, -, -, -, hblock, hlast⟩ := exists_importBlock r content
    rw [hblock] at ha hb
    have heq := eq_of_importEdits (Service.isIdentifier_of_mem (h.frameworks g hg))
      (Service.isIdentifier_of_mem (h.frameworks f hf)) hlast hb ha hle hlt
    exact (congrArg Edit.stop heq).ge

/-- **A removal takes away all that any of its edits takes.** -/
theorem exists_uninstall (h : r.OfSdk) (content : Text) : ∃ (out : Outcome) (taken : List Span),
    r.uninstall content = .ok out ∧
      (∀ s, s ∈ taken ↔ s ∈ (r.analyze content).startCalls ∨ r.IsImportLine content s) ∧
      out.content = content.without (fun n => taken.any (·.covers n)) 0 := by
  have hspan : ∀ e ∈ r.uninstallEdits content (r.analyze content),
      (e.start ≤ e.stop ∧ e.replacement = []) ∧ content.IsBoundary e.start ∧
        content.IsBoundary e.stop := by
    intro e he
    obtain ⟨s, hs | hs, rfl⟩ := (mem_uninstallEdits h).1 he
    · obtain ⟨hstart, hstop, hlt⟩ := span_of_mem h.isIdentifier.1 h.isIdentifier.2 hs
      exact ⟨⟨hlt.le, rfl⟩, hstart, hstop⟩
    · obtain ⟨hstart, hstop, hlt, -⟩ := hs.span h
      exact ⟨⟨hlt.le, rfl⟩, hstart, hstop⟩
  have hsplice := splice_deletions (fun e he => (hspan e he).1) (fun e he => (hspan e he).2)
    (nested_uninstallEdits h content)
  have hbare : r.uninstall content = _ := uninstall.eq_def _ _
  simp only [hsplice] at hbare
  refine ⟨_, (r.uninstallEdits content (r.analyze content)).map fun e => ⟨e.start, e.stop⟩, hbare,
    fun s => ?_, ?_⟩
  · simp only [List.mem_map, mem_uninstallEdits h]
    constructor
    · rintro ⟨-, ⟨s, hs, rfl⟩, rfl⟩
      exact hs
    · exact fun hs => ⟨_, ⟨s, hs, rfl⟩, rfl⟩
  · simp only [List.any_map]
    rfl

/-- **The landmarks of a delegate can be relied on**, whatever it looks like and whatever names are looked
for. All of them are usable, and the text can be cut at the end of the imports, also if there are none.
An installation succeeds where the method is found and never fails on its edits. A removal succeeds, and
leaves what lies in no start call and in no line that imports a framework. -/
theorem usable_of_made (h : r.Made) (content : Text) :
    r.Usable content (r.analyze content) ∧ content.IsBoundary (r.analyze content).importOffset ∧
      (∀ m, (r.analyze content).methodBody = some m → ∃ out, r.install content = .ok out) ∧
      r.install content ≠ .error .misalignedEdit ∧
      ∃ (out : Outcome) (taken : List Span), r.uninstall content = .ok out ∧
        (∀ s, s ∈ taken ↔ s ∈ (r.analyze content).startCalls ∨ r.IsImportLine content s) ∧
        out.content = content.without (fun n => taken.any (·.covers n)) 0 :=
  have ⟨hr, hs⟩ := h.ofSdk.isIdentifier
  ⟨usable_analyze hr hs content, isBoundary_importOffset r content, fun _ hm => exists_install hr hs hm,
    install_ne_misaligned hr hs content, exists_uninstall h.ofSdk content⟩

/-- A recipe for a removal from a short Swift delegate. -/
def shortRemoval : Recipe :=
  (forRemoval .swift).configured "App".toList "run".toList [] "App.swift"

/-- A delegate with a call among the arguments of another. -/
def nestedCalls : Text :=
  "import MobileCenter\nclass App \x7b\n func run() \x7b\n".toList
    ++ "  MSMobileCenter.start(\"é\", MSMobileCenter.start(1))\n \x7d\n\x7d\n".toList

/-- The deletion of the inner call is left out there, but nothing is lost by that. -/
theorem usable_of_made_nestedCalls : shortRemoval.Made ∧
    (shortRemoval.analyze nestedCalls).startCalls = [⟨45, 99⟩, ⟨74, 99⟩] ∧
    shortRemoval.Usable nestedCalls (shortRemoval.analyze nestedCalls) ∧
    ∃ (out : Outcome) (taken : List Span), shortRemoval.uninstall nestedCalls = .ok out ∧
      (∀ s, s ∈ taken ↔ s ∈ [⟨45, 99⟩, ⟨74, 99⟩] ∨ shortRemoval.IsImportLine nestedCalls s) ∧
      out.content = nestedCalls.without (fun n => taken.any (·.covers n)) 0 ∧
      out.content = "class App \x7b\n func run() \x7b\n \x7d\n\x7d\n".toList := by
  have hmade : shortRemoval.Made := .forRemoval _ _ _ _ _
  have hfound : shortRemoval.analyze nestedCalls =
      ⟨some 20, true, some 45, [⟨45, 99⟩, ⟨74, 99⟩]⟩ := by
    decide +kernel
  have hedits : shortRemoval.uninstallEdits nestedCalls
      ⟨some 20, true, some 45, [⟨45, 99⟩, ⟨74, 99⟩]⟩ =
        [.delete 45 99, .delete 74 99, .delete 0 20] := by
    decide +kernel
  have hsplice : splice nestedCalls [.delete 45 99, .delete 74 99, .delete 0 20] =
      some "class App \x7b\n func run() \x7b\n \x7d\n\x7d\n".toList := by
    cbv
  have hbare : shortRemoval.uninstall nestedCalls = _ := uninstall.eq_def _ _
  simp only [hfound, hedits, hsplice] at hbare
  obtain ⟨husable, -, -, -, out, taken, hout, htaken, hcontent⟩ := usable_of_made hmade nestedCalls
  obtain rfl := Except.ok.inj (hbare.symm.trans hout)
  rw [hfound] at htaken
  exact ⟨hmade, by rw [hfound], husable, _, taken, hout, htaken, hcontent, rfl⟩

end Recipe

end SdkWiring
