import SdkWiring.Proofs.Delegate.GivenBack
import SdkWiring.Proofs.Delegate.Replacement

/-!
# Installations that are repeated

A second installation with the same recipe writes its line again and cuts out what it takes for start
calls. It gives a wired delegate back just if all that it takes for one is the line that the first
installation wrote.

* `Recipe.Wired`: a delegate with the line of its start call, and no other call that is found.
* `Recipe.install_again_iff`: the delegates that a second installation leaves as they are.
* `Recipe.install_again_oneLine`: one that loses a statement.
-/

namespace SdkWiring

variable {r : Recipe} {i : Integration} {content before after : Text} {out : Outcome} {m : Nat}

namespace Recipe

/-- A delegate with the line of its start call at the top of the method. No other call is found, and
in Swift none that reaches behind the line. -/
structure Wired (r : Recipe) (content before after : Text) : Prop where
  text : content = before ++ (r.callLine (LineBreak.detect content) ++ after)
  body : (r.analyze content).methodBody = some before.size
  alone : (r.analyze content).startCalls.length = 1
  clear : r.language = .swift → ')' ∉ after.takeWhile (· != '\n')

/-- What is written into a delegate in which nothing is missing but the call. -/
theorem installEdits_of_present
    (h : r.missingFrameworks ((r.analyze content).importBlock content) = []) :
    r.installEdits content (r.analyze content) m = (r.analyze content).callEdits ++
      [Edit.insert m (r.callLine (LineBreak.detect content))] := by
  simp only [installEdits, h, if_true, List.append_nil]

theorem Wired.startCalls (w : r.Writes i) (h : r.Wired content before after) :
    (r.analyze content).startCalls =
      [⟨before.size, before.size + (r.callLine (LineBreak.detect content)).size⟩] := by
  obtain ⟨pre, post, stop, hcalls, -, -, -, hstop⟩ := startCalls_at_top w h.text h.body
  have hlen := h.alone
  rw [hcalls, List.length_append, List.length_cons] at hlen
  obtain rfl : pre = [] := List.length_eq_zero_iff.1 (by omega)
  obtain rfl : post = [] := List.length_eq_zero_iff.1 (by omega)
  rw [hcalls, hstop.2 h.clear]
  rfl

/-- The line that is cut out and the line that is written are the same. -/
theorem Wired.splice (w : r.Writes i) (h : r.Wired content before after) :
    SdkWiring.splice content ((r.analyze content).callEdits ++
      [Edit.insert before.size (r.callLine (LineBreak.detect content))]) = some content := by
  set line := r.callLine (LineBreak.detect content) with hline
  have hpos : 0 < line.size := size_callLine_pos r _
  have hcalls : (r.analyze content).callEdits =
      [Edit.delete before.size (before.size + line.size)] := by
    rw [Landmarks.callEdits, h.startCalls w]
    rfl
  have hpieces := splice_pieces_behind before [⟨[], [], line⟩, ⟨[], line, []⟩] after (List.reverse_perm _)
    (Piece.pairwise_edits fun p hp => by
      rw [List.mem_singleton.1 hp]
      simpa using hpos)
  rw [hcalls]
  have htext := h.text
  rw [← hline] at htext
  rw [htext]
  simpa [Edit.insert, Edit.delete] using hpieces

/-- **The line is cut out behind itself** where it is the first thing that is written: the call that is
found there reaches at least as far. -/
theorem GivenBack.cut_line {line kept tail : Text} {ys : List Piece} {pre post : List Span} {stop : Nat}
    (w : r.Writes i) (h : r.GivenBack content line m [] kept ys tail) (hne : line ≠ [])
    (hold : Piece.old ys tail = line ++ Piece.new ys tail)
    (hcalls : (r.analyze content).startCalls = pre ++ ⟨m, stop⟩ :: post)
    (hpre : ∀ call ∈ pre, call.start < m) (hpost : ∀ call ∈ post, m + line.size ≤ call.start)
    (hle : m + line.size ≤ stop) : ys = [⟨[], line, []⟩] ∧ Edit.delete m stop ∈ Piece.edits m ys := by
  have hpos : 0 < line.size := Nat.pos_of_ne_zero fun hzero => hne (Text.eq_nil_of_size hzero)
  -- the other calls start in front of the line or behind it
  have honly : ∀ call ∈ (r.analyze content).startCalls, call.start = m → call.stop = stop := by
    intro call hmem hstart
    rw [hcalls, List.mem_append, List.mem_cons] at hmem
    rcases hmem with hmem | rfl | hmem
    · exact absurd hstart (Nat.ne_of_lt (hpre call hmem))
    · rfl
    · have := hpost call hmem
      omega
  have hmem : Edit.delete m stop ∈ Piece.edits m ys := by
    have hin : (⟨m, stop⟩ : Span) ∈ (r.analyze content).startCalls := by simp [hcalls]
    rcases h.call_or w.isIdentifier.1 w.isIdentifier.2 hne hin with hin | ⟨e, he, hstart, -⟩
    · exact hin
    · obtain ⟨hge, call, hin, rfl⟩ := h.call_of_mem hne he
      have hm : call.start = m := Nat.le_antisymm hstart hge
      rwa [hm, honly call hin hm] at he
  exact ⟨h.behind hold hle hmem, hmem⟩

/-- Where only the line is cut out, each call that is found starts in it. -/
theorem GivenBack.start_in_line {line kept tail : Text} (w : r.Writes i)
    (h : r.GivenBack content line m [] kept [⟨[], line, []⟩] tail) (hne : line ≠ []) {call : Span}
    (hcall : call ∈ (r.analyze content).startCalls) :
    m ≤ call.start ∧ call.start < m + line.size := by
  have hpos : 0 < line.size := Nat.pos_of_ne_zero fun hzero => hne (Text.eq_nil_of_size hzero)
  have hedits : Piece.edits m [⟨[], line, []⟩] = [Edit.delete m (m + line.size)] := by
    simp [Edit.delete]
  rcases h.call_or w.isIdentifier.1 w.isIdentifier.2 hne hcall with hin | ⟨e, he, hstart, hstop⟩
  · rw [hedits, List.mem_singleton] at hin
    have := congrArg Edit.start hin
    simp only [Edit.delete] at this
    omega
  · rw [hedits, List.mem_singleton] at he
    subst he
    exact ⟨hstart, hstop⟩

/-- **A splice that gives a delegate back** finds it wired. -/
theorem wired_of_splice (w : r.Writes i) (hm : (r.analyze content).methodBody = some m)
    (h : splice content ((r.analyze content).callEdits ++
      [Edit.insert m (r.callLine (LineBreak.detect content))]) = some content) :
    ∃ before after, r.Wired content before after := by
  set line := r.callLine (LineBreak.detect content) with hline
  have hne : line ≠ [] := fun hnil => by
    have hpos : 0 < line.size := size_callLine_pos r _
    rw [hnil] at hpos
    exact absurd hpos (Nat.lt_irrefl 0)
  obtain ⟨front, a, htext, hsize⟩ := methodBody_brace hm
  obtain ⟨xs, kept, ys, tail, hback⟩ := exists_givenBack w.isIdentifier.1 w.isIdentifier.2 hne
    (by rw [hsize, htext, Text.size_append (front ++ ['{'])]; exact Nat.le_add_right _ _) h
  obtain ⟨hkept, -⟩ := Text.append_inj_of_size (hback.text.symm.trans htext)
    (hback.body.trans hsize)
  -- nothing is cut out in front of the line
  obtain ⟨rfl, hbehind⟩ := hback.before w (by rw [hkept, List.getLast?_concat])
  have htop : content = kept ++ (line ++ Piece.new ys tail) := hback.back
  obtain rfl : kept.size = m := hback.body
  obtain ⟨pre, post, stop, hcalls, hpre, hpost, hle, hstop⟩ := startCalls_at_top w htop hm
  rw [← hline] at hpost hle hstop
  -- behind it just the line itself is, and every call starts there
  obtain ⟨rfl, hmem⟩ := hback.cut_line w hne hbehind hcalls hpre hpost hle
  have hin : ∀ call ∈ (r.analyze content).startCalls,
      kept.size ≤ call.start ∧ call.start < kept.size + line.size := fun _ hcall =>
    hback.start_in_line w hne hcall
  obtain rfl : pre = [] := List.eq_nil_iff_forall_not_mem.2 fun call hcall => by
    have := hpre call hcall
    have := hin call (by simp [hcalls, hcall])
    omega
  obtain rfl : post = [] := List.eq_nil_iff_forall_not_mem.2 fun call hcall => by
    have := hpost call hcall
    have := hin call (by simp [hcalls, hcall])
    omega
  refine ⟨kept, _, htop, hm, by rw [hcalls]; rfl, hstop.1 ?_⟩
  simpa [Edit.delete] using hmem

/-- **The wired delegates that a second installation leaves as they are.** -/
theorem Writes.again_iff (w : r.Writes i) (h : r.install content = .ok out) :
    (∃ again, r.install out.content = .ok again ∧ again.content = out.content) ↔
      ∃ before after, r.Wired out.content before after := by
  have hpresent := missingFrameworks_again w h
  constructor
  · rintro ⟨again, hagain, hsame⟩
    obtain ⟨m, hm⟩ := methodBody_of_install hagain
    refine wired_of_splice w hm ?_
    rw [install_eq hm, installEdits_of_present hpresent] at hagain
    split at hagain
    · cases hagain
    · rename_i wired hsplice
      rw [hsplice, ← hsame, ← Except.ok.inj hagain]
  · rintro ⟨before, after, hwired⟩
    refine ⟨⟨out.content, [], [], 1, true⟩, ?_, rfl⟩
    rw [install_eq hwired.body, installEdits_of_present hpresent, hwired.splice w, hpresent,
      hwired.alone]

/-- **A second installation leaves a delegate as it is** just if the line of the first one is all that
is found in it. -/
theorem install_again_iff {language : Language} {secret : Option Text} {services : List Service}
    {settings : Settings} {typeName methodName indent : Text} {sourceName : String}
    (hi : Operation.integration secret services settings = .ok (.integrate i))
    (hindent : ∀ c ∈ indent, Text.isBlank c = true) (htype : Text.isIdentifier typeName = true)
    (hout : ((forIntegration language i).configured typeName methodName indent
      sourceName).install content = .ok out) :
    (∃ again, ((forIntegration language i).configured typeName methodName indent
        sourceName).install out.content = .ok again ∧ again.content = out.content) ↔
      ∃ before after, ((forIntegration language i).configured typeName methodName indent
        sourceName).Wired out.content before after :=
  (writes_configured language methodName sourceName hi hindent htype).again_iff hout

/-- The delegate that is installed into once. -/
theorem install_again_iff_short : ∃ out,
    ((forIntegration .swift guarded).configured "App".toList "run".toList ['\t']
        "App.swift").install ("import UIKit\n".toList ++
          'c' :: ("lass App \x7b func run() ".toList ++ '{' :: "\n\x7d \x7d\n".toList)) = .ok out ∧
      ((∃ again, ((forIntegration .swift guarded).configured "App".toList "run".toList ['\t']
          "App.swift").install out.content = .ok again ∧ again.content = out.content) ↔
        ∃ before after, ((forIntegration .swift guarded).configured "App".toList "run".toList ['\t']
          "App.swift").Wired out.content before after) :=
  have hout := parts_short.install (writes_configured _ _ _ integration_guarded (by decide) (by decide)) rfl
  ⟨_, hout, install_again_iff integration_guarded (by decide) (by decide) hout⟩

/-- A delegate with a statement on the line of the brace. -/
def oneLine : Text := "class App { func run() { go() } }\n".toList

/-- **A statement on the line of the brace** is lost. The line of the call is written in front of it, and
to a second installation the call ends with the last parenthesis of that line. -/
theorem install_again_oneLine : ∃ out again,
    Operation.integration (some ['k']) [.crashes] {} =
      .ok (.integrate (.ofServices ['k'] [.crashes])) ∧
    ((forIntegration .swift (.ofServices ['k'] [.crashes])).configured "App".toList "run".toList
      ['\t'] "App.swift").install oneLine = .ok out ∧
    ((forIntegration .swift (.ofServices ['k'] [.crashes])).configured "App".toList "run".toList
      ['\t'] "App.swift").install out.content = .ok again ∧
    again.content ≠ out.content ∧
    out.content.contains "go()".toList = true ∧ again.content.contains "go()".toList = false := by
  obtain ⟨out, hout, hwired⟩ := install_of_pieces (m := 24)
    (r := (forIntegration .swift (.ofServices ['k'] [.crashes])).configured "App".toList "run".toList
      ['\t'] "App.swift") (l := ⟨none, true, some 24, []⟩)
    [⟨[], [], "import MobileCenter\nimport MobileCenterCrashes\n".toList⟩,
      ⟨"class App \x7b func run() \x7b".toList, [],
        "\n\tMSMobileCenter.start(\"k\", withServices: [MSCrashes.self])".toList⟩]
    " go() \x7d \x7d\n".toList
    (show oneLine = _ by decide) (by decide +kernel) rfl (by decide) (by decide)
  obtain ⟨again, hagain, hbare⟩ := install_of_pieces (m := 71)
    (r := (forIntegration .swift (.ofServices ['k'] [.crashes])).configured "App".toList "run".toList
      ['\t'] "App.swift") (l := ⟨some 47, true, some 71, [⟨71, 135⟩]⟩)
    [⟨"import MobileCenter\nimport MobileCenterCrashes\nclass App \x7b func run() \x7b".toList, [],
        "\n\tMSMobileCenter.start(\"k\", withServices: [MSCrashes.self])".toList⟩,
      ⟨[], "\n\tMSMobileCenter.start(\"k\", withServices: [MSCrashes.self]) go()".toList, []⟩]
    " \x7d \x7d\n".toList
    (show out.content = _ by rw [hwired]; decide +kernel) (by rw [hwired]; decide +kernel) rfl
    (by rw [hwired]; decide +kernel) (by decide)
  have hkept : out.content.contains "go()".toList = true := by
    rw [hwired]
    decide
  have hlost : again.content.contains "go()".toList = false := by
    rw [hbare]
    decide
  refine ⟨out, again, rfl, hout, hagain, fun h => ?_, hkept, hlost⟩
  rw [h, hkept] at hlost
  cases hlost

end Recipe

end SdkWiring
