import SdkWiring.Proofs.Delegate.Anchors
import SdkWiring.Proofs.Delegate.QuotedSecret
import SdkWiring.Proofs.Podfile.TakenBack
import SdkWiring.Proofs.Text.Crlf

/-!
# Line breaks that are kept

A file that is written with carriage returns is still so behind every edit. What is written into it ends
its lines alike. And every edit ends behind a brace, a parenthesis, a semicolon or a line feed, or in
front of the whole text, so that none takes the carriage return from a line feed that stays.

* `Recipe.Accepted`: the recipes of the commands, for a secret that was accepted.
* `Recipe.Accepted.crlf_install`, `Recipe.Accepted.crlf_uninstall`: what is made of a delegate.
* `Podfile.crlf_addPod`, `Podfile.crlf_withoutPod`: what is made of a Podfile.
* `Podfile.crlf_addPods`: the same for a run over several pods.
* `crlf_kept`: **a file with carriage returns keeps them**, whatever is done to it.
-/

namespace SdkWiring

variable {r : Recipe} {content pod : Text} {e : Edit} {s : Span} {m : Nat} {out : Outcome}

/-- A text is not cut behind a carriage return where a line starts. -/
theorem EndsLine.not_isBehind {x : Text} (hx : EndsLine x.reverse) (y : Text) :
    ¬ (x ++ y).IsBehind '\r' x.size := by
  rintro ⟨u, v, htext, hsize⟩
  obtain ⟨rfl, -⟩ := Text.append_inj_of_size htext hsize
  exact absurd (hx.eq_of_getLast? List.getLast?_concat) (by decide)

namespace Recipe

/-- The recipes of the commands: for an integration with an accepted secret, or for a removal, with any
names in them and an indentation of spaces and tabs. -/
inductive Accepted : Recipe → Prop
  | forIntegration (language : Language) {secret : Option Text} {services : List Service}
      {settings : Settings} {i : Integration} (typeName methodName : Text) {indent : Text}
      (sourceName : String)
      (hi : Operation.integration secret services settings = .ok (.integrate i))
      (hindent : ∀ c ∈ indent, Text.isBlank c = true) :
      Accepted ((forIntegration language i).configured typeName methodName indent sourceName)
  | forRemoval (language : Language) (typeName methodName : Text) {indent : Text}
      (sourceName : String) (hindent : ∀ c ∈ indent, Text.isBlank c = true) :
      Accepted ((forRemoval language).configured typeName methodName indent sourceName)

theorem Accepted.made (h : r.Accepted) : r.Made := by
  cases h with
  | forIntegration => exact .forIntegration _ _ _ _ _ _
  | forRemoval => exact .forRemoval _ _ _ _ _

/-! ## What is written -/

theorem Accepted.no_feed (h : r.Accepted) : '\n' ∉ r.indent ++ r.call := by
  have hblank : ∀ {indent : Text}, (∀ c ∈ indent, Text.isBlank c = true) → '\n' ∉ indent :=
    fun hindent hn => absurd (hindent _ hn) (by decide)
  rw [List.mem_append, not_or]
  cases h with
  | forIntegration language typeName methodName sourceName hi hindent =>
    refine ⟨hblank hindent, fun hn => ?_⟩
    -- a control character would have been refused in the secret
    have hcontrol := (Integration.checked_of_integration hi).isControl_call language _ hn
    exact absurd hcontrol (by decide)
  | forRemoval language typeName methodName sourceName hindent =>
    exact ⟨hblank hindent, List.not_mem_nil⟩

theorem Accepted.crlf_callLine (h : r.Accepted) : (r.callLine .crlf).Crlf := by
  rw [callLine, List.append_assoc]
  exact LineBreak.crlf_text.append (Text.crlf_of_no_feed h.no_feed)

theorem crlf_importLines {fs : List Text} (hfs : ∀ f ∈ fs, f ∈ Service.allFrameworks) :
    (r.importLines .crlf fs).Crlf := by
  refine Text.crlf_flatten fun line hline => ?_
  obtain ⟨f, hf, rfl⟩ := List.mem_map.1 hline
  have hstmt := r.language.no_feed_importStatement (Service.isIdentifier_of_mem (hfs f hf))
  exact (Text.crlf_of_no_feed hstmt).append LineBreak.crlf_text

/-- **What an installation writes** into a file with carriage returns has them, too. -/
theorem Accepted.crlf_of_mem_install (h : r.Accepted) (heol : LineBreak.detect content = .crlf)
    (he : e ∈ r.installEdits content (r.analyze content) m) : e.replacement.Crlf := by
  simp only [installEdits, heol, List.mem_append, List.mem_singleton] at he
  rcases he with (he | rfl) | he
  · obtain ⟨call, -, rfl⟩ := List.mem_map.1 he
    exact Text.crlf_of_no_feed List.not_mem_nil
  · exact h.crlf_callLine
  · split at he
    · cases he
    · rw [List.mem_singleton.1 he]
      exact crlf_importLines fun f hf => h.made.ofSdk.frameworks f (List.mem_filter.1 hf).1

/-! ## Where the edits end -/

/-- A start call ends with a parenthesis or a semicolon. -/
theorem OfSdk.not_isBehind_call (h : r.OfSdk) (hs : s ∈ (r.analyze content).startCalls) :
    ¬ content.IsBehind '\r' s.stop := by
  have hcloser : r.closer ≠ '\r' := by
    unfold closer
    cases r.language <;> decide
  have hend := closer_of_mem h.isIdentifier.1 h.isIdentifier.2 hs
  exact fun hreturn => hcloser (hend.unique hreturn)

/-- A line that imports a framework ends with its line feed. -/
theorem IsImportLine.not_isBehind (hs : r.IsImportLine content s) :
    ¬ content.IsBehind '\r' s.stop := by
  obtain ⟨f, -, p, u, z, hp, hfore, -, rfl⟩ := hs
  have htext : content = (p.backpart ++ u ++ ['\n']) ++ z := by
    rw [text_of_mem_positions hp.mem, Position.backpart, ← Position.forepart, hfore]
    simp
  have hstop : p.offset + Text.size (u ++ ['\n']) = Text.size (p.backpart ++ u ++ ['\n']) := by
    rw [List.append_assoc, Text.size_append p.backpart, Position.backpart, Text.size_reverse,
      Position.offset]
  rw [htext, hstop]
  exact EndsLine.not_isBehind (by simp [EndsLine]) z

theorem OfSdk.not_isBehind_install (h : r.OfSdk) (hm : (r.analyze content).methodBody = some m)
    (he : e ∈ r.installEdits content (r.analyze content) m) : ¬ content.IsBehind '\r' e.stop := by
  rcases mem_installEdits he with ⟨call, hcall, rfl⟩ | rfl | ⟨-, hstop⟩
  · exact h.not_isBehind_call hcall
  · exact fun hreturn => absurd ((methodBody_brace hm).unique hreturn) (by decide)
  · obtain ⟨block, rest, htext, hoffset, -, hends⟩ := exists_importBlock r content
    rw [hstop, hoffset, htext]
    exact hends.not_isBehind rest

/-! ## Delegates -/

/-- **A delegate with carriage returns keeps them** when it is wired. -/
theorem Accepted.crlf_install (h : r.Accepted) (hc : content.Crlf)
    (heol : LineBreak.detect content = .crlf) (hout : r.install content = .ok out) :
    out.content.Crlf := by
  obtain ⟨hr, hs⟩ := h.made.ofSdk.isIdentifier
  obtain ⟨m, hm⟩ := methodBody_of_install hout
  exact hc.splice (fun e he => start_le_stop hr hs he) (fun e he => h.crlf_of_mem_install heol he)
    (fun e he => h.made.ofSdk.not_isBehind_install hm he) (splice_of_install hm hout).1

/-- What a removal makes of a delegate. -/
theorem splice_of_uninstall (h : r.uninstall content = .ok out) :
    splice content (r.uninstallEdits content (r.analyze content)) = some out.content := by
  rw [uninstall] at h
  split at h
  · cases h
  · rename_i bare hsplice
    obtain rfl := Except.ok.inj h
    exact hsplice

/-- **A delegate with carriage returns keeps them** when the SDK is taken out. -/
theorem Accepted.crlf_uninstall (h : r.Accepted) (hc : content.Crlf)
    (hout : r.uninstall content = .ok out) : out.content.Crlf := by
  have hsdk := h.made.ofSdk
  have hedit : ∀ e ∈ r.uninstallEdits content (r.analyze content),
      e.start ≤ e.stop ∧ e.replacement = [] ∧ ¬ content.IsBehind '\r' e.stop := by
    intro e he
    obtain ⟨s, hs | hs, rfl⟩ := (mem_uninstallEdits hsdk).1 he
    · have hspan := span_of_mem hsdk.isIdentifier.1 hsdk.isIdentifier.2 hs
      exact ⟨hspan.2.2.le, rfl, hsdk.not_isBehind_call hs⟩
    · exact ⟨(hs.span hsdk).2.2.1.le, rfl, hs.not_isBehind⟩
  refine hc.splice (fun e he => (hedit e he).1) (fun e he => ?_) (fun e he => (hedit e he).2.2)
    (splice_of_uninstall hout)
  rw [(hedit e he).2.1]
  exact Text.crlf_of_no_feed List.not_mem_nil

end Recipe

/-! ## Podfiles -/

namespace Podfile

theorem crlf_newLine (hpod : '\n' ∉ pod) : (newLine pod .crlf).Crlf := by
  have hname : '\n' ∉ "pod '".toList ++ pod ++ "'".toList := by
    rw [List.mem_append, List.mem_append, not_or, not_or]
    exact ⟨⟨by decide, hpod⟩, by decide⟩
  exact (Text.crlf_of_no_feed hname).append LineBreak.crlf_text

/-- **A Podfile with carriage returns keeps them** when a pod is added. -/
theorem crlf_addPod (hc : content.Crlf) (heol : LineBreak.detect content = .crlf) (hpod : '\n' ∉ pod)
    (target : Text) : (addPod content target pod).Crlf := by
  have hline := crlf_newLine hpod
  obtain ⟨hadd, -⟩ | ⟨start, stop, hblock, hadd⟩ | ⟨-, -, hadd⟩ := addPod_cases content target pod <;>
    rw [hadd]
  · exact hc
  · -- the line goes in front of a line
    obtain ⟨hcontent, hstart⟩ := targetBlock?_stop hblock
    rw [hcontent] at hc
    have hbehind : stop.after.Crlf := hc.right_of_endsLine (by rwa [List.reverse_reverse])
    have hindent : Text.Crlf "  ".toList := by decide
    rw [heol]
    exact hc.left.append ((hindent.append hline).append hbehind)
  · rw [heol, endLastLine_eq]
    split
    · exact (hc.append LineBreak.crlf_text).append hline
    · exact hc.append hline

/-- **A Podfile with carriage returns keeps them** when a pod is taken out: whole lines go. -/
theorem crlf_withoutPod (hc : content.Crlf) (hpod : '\n' ∉ pod) : (withoutPod content pod).Crlf := by
  rw [withoutPod_eq hpod]
  exact Text.crlf_flatten fun line hline => hc.of_mem_lines (List.mem_filter.1 hline).1

/-- A Podfile that gets a pod is still taken for one with carriage returns. -/
theorem pair_addPod (hpair : ['\r', '\n'] <:+: content) (target pod : Text) :
    ['\r', '\n'] <:+: addPod content target pod := by
  obtain ⟨hadd, -⟩ | ⟨start, stop, hblock, hadd⟩ | ⟨-, -, hadd⟩ := addPod_cases content target pod <;>
    rw [hadd]
  · exact hpair
  · obtain ⟨hcontent, hstart⟩ := targetBlock?_stop hblock
    rw [hcontent, Text.infix_pair_append] at hpair
    obtain hpair | hpair | ⟨hlast, -⟩ := hpair
    · exact List.infix_append_of_infix_left hpair
    · exact List.infix_append_of_infix_right (List.infix_append_of_infix_right hpair)
    · -- no line starts between the two characters
      rw [← List.reverse_reverse stop.before] at hstart
      exact absurd (hstart.eq_of_getLast? hlast) (by decide)
  · rw [endLastLine_eq]
    split
    · exact List.infix_append_of_infix_left (List.infix_append_of_infix_left hpair)
    · exact List.infix_append_of_infix_left hpair

/-- **So it keeps them through a whole run**, pod by pod. -/
theorem crlf_addPods {pods : List Text} (hc : content.Crlf) (hpair : ['\r', '\n'] <:+: content)
    (hpods : ∀ pod ∈ pods, '\n' ∉ pod) (target : Text) : (addPods content target pods).Crlf := by
  induction pods generalizing content with
  | nil => exact hc
  | cons pod pods ih =>
    rw [List.forall_mem_cons] at hpods
    have hone : (addPod content target pod).Crlf :=
      crlf_addPod hc (LineBreak.detect_eq_crlf.2 hpair) hpods.1 target
    exact ih hone (pair_addPod hpair target pod) hpods.2

theorem crlf_withoutPods {pods : List Text} (hc : content.Crlf) (hpods : ∀ pod ∈ pods, '\n' ∉ pod) :
    (withoutPods content pods).Crlf := by
  induction pods generalizing content with
  | nil => exact hc
  | cons pod pods ih =>
    rw [List.forall_mem_cons] at hpods
    exact ih (crlf_withoutPod hc hpods.1) hpods.2

end Podfile

/-- **A file with carriage returns keeps them**, whatever is done to it. Wiring a delegate, taking the SDK
out of it, which always succeeds, adding a pod and taking one out leave no line feed alone. -/
theorem crlf_kept (hc : content.Crlf) (hpair : ['\r', '\n'] <:+: content) :
    (∀ r : Recipe, r.Accepted →
      (∀ out, r.install content = .ok out → out.content.Crlf) ∧
        ∃ out, r.uninstall content = .ok out ∧ out.content.Crlf) ∧
      ∀ target pod, '\n' ∉ pod →
        (Podfile.addPod content target pod).Crlf ∧ (Podfile.withoutPod content pod).Crlf := by
  have heol : LineBreak.detect content = .crlf := LineBreak.detect_eq_crlf.2 hpair
  refine ⟨fun r hr => ⟨fun out hout => hr.crlf_install hc heol hout, ?_⟩, fun target pod hpod =>
    ⟨Podfile.crlf_addPod hc heol hpod target, Podfile.crlf_withoutPod hc hpod⟩⟩
  obtain ⟨out, -, hout, -⟩ := Recipe.exists_uninstall hr.made.ofSdk content
  exact ⟨out, hout, hr.crlf_uninstall hc hout⟩

/-- A recipe for Swift whose secret looks like code. -/
def guardedRecipe : Recipe :=
  (Recipe.forIntegration .swift Recipe.guarded).configured "App".toList "run".toList ['\t'] "App.swift"

/-- A Swift delegate with carriage returns that is wired already. -/
def returnsDelegate : Text :=
  "import MobileCenter\r\nimport UIKit\r\nclass App \x7b\r\n func run() \x7b".toList
    ++ "\r\n  MSMobileCenter.start(1)\r\n \x7d\r\n\x7d\r\n".toList

/-- A Podfile with carriage returns whose last line is open. -/
def returnsPodfile : Text := "target 'App' do\r\n  pod 'A'\r\nend".toList

/-- In that delegate the call is replaced, or taken out with its import line. In that Podfile a line is
added in front of the open one, or taken out. -/
theorem crlf_kept_returns :
    (returnsDelegate.Crlf ∧ ['\r', '\n'] <:+: returnsDelegate ∧ guardedRecipe.Accepted ∧
      (∃ out, guardedRecipe.install returnsDelegate = .ok out ∧ out.content.Crlf) ∧
      ∃ out, guardedRecipe.uninstall returnsDelegate = .ok out ∧ out.content.Crlf) ∧
    returnsPodfile.Crlf ∧ ['\r', '\n'] <:+: returnsPodfile ∧ '\n' ∉ "A".toList ∧ '\n' ∉ "B".toList ∧
      (Podfile.addPod returnsPodfile "App".toList "B".toList).Crlf ∧
      (Podfile.withoutPod returnsPodfile "A".toList).Crlf := by
  have hdelegate : returnsDelegate.Crlf ∧ ['\r', '\n'] <:+: returnsDelegate := by decide
  have hpodfile : returnsPodfile.Crlf ∧ ['\r', '\n'] <:+: returnsPodfile := by decide
  have haccepted : guardedRecipe.Accepted :=
    .forIntegration .swift _ _ _ Recipe.integration_guarded (by decide)
  have hmethod : (guardedRecipe.analyze returnsDelegate).methodBody = some 61 := by decide +kernel
  obtain ⟨hreceiver, hselector⟩ := haccepted.made.ofSdk.isIdentifier
  obtain ⟨out, hout⟩ := Recipe.exists_install hreceiver hselector hmethod
  obtain ⟨hinstall, huninstall⟩ := (crlf_kept hdelegate.1 hdelegate.2).1 _ haccepted
  have hpods := (crlf_kept hpodfile.1 hpodfile.2).2
  exact ⟨⟨hdelegate.1, hdelegate.2, haccepted, ⟨out, hout, hinstall out hout⟩, huninstall⟩, hpodfile.1,
    hpodfile.2, by decide, by decide, (hpods "App".toList "B".toList (by decide)).1,
    (hpods "App".toList "A".toList (by decide)).2⟩

end SdkWiring
