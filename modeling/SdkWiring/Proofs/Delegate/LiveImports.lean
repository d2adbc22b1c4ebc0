import SdkWiring.Proofs.Delegate.ImportSites
import SdkWiring.Proofs.Delegate.Insertion

/-!
# Imports in live code

An installation leaves a framework out where any line in front of the end of the imports imports it,
also one inside a comment or a literal, and a removal takes such a line away. The lines that are
written are live code.

* `Recipe.CutBehindImports`: a delegate as its import lines and the rest.
* `Recipe.notMem_importsAdded_iff`: what an installation leaves out.
* `Recipe.exists_live_iff`: what is imported by live code behind an installation.
* `Recipe.mem_removals_iff`: the lines that a removal takes away.
* `Recipe.live_imports_iff`: when all this is a matter of live code only.
* `Recipe.comment_counts`: a delegate in which a comment counts.
-/

namespace SdkWiring

variable {r : Recipe} {content f a a' b : Text} {c : Char} {gs : List Text} {eol : LineBreak}
  {out bare : Outcome} {e : Edit} {p : Position}

/-- What is imported by live code behind import lines that were written: the frameworks of these, and
what was imported by live code before. -/
theorem ImportPoint.exists_live_iff (h : ImportPoint r b c a) (eol : LineBreak) (a' : Text)
    (hf : Text.isIdentifier f = true) (hgs : ∀ g ∈ gs, Text.isIdentifier g = true) :
    (∃ q, ImportsAt r.language (b ++ (r.importLines eol gs ++ c :: a'))
        (b.size + (r.importLines eol gs).size) f q ∧ q.significant = true) ↔
      f ∈ gs ∨ ∃ p, ImportsAt r.language (b ++ c :: a) b.size f p ∧ p.significant = true := by
  have hlines : EndsLine (b ++ r.importLines eol gs).reverse := by
    rw [List.reverse_append]
    exact r.language.endsLine_importLines eol hgs h.endsLine
  have hwritten : ∀ x y, r.importLines eol gs = x ++ y →
      (r.language.importOf f).matchesAt ⟨x.reverse ++ b.reverse, y⟩ = true → f ∈ gs := fun x y =>
    r.language.mem_of_importLines eol hf hgs h.endsLine
  have hkept : ∀ x d y, b = x ++ d :: y →
      ((r.language.importOf f).matchesAt ⟨x.reverse, d :: (y ++ r.importLines eol gs)⟩ = true ↔
        (r.language.importOf f).matchesAt ⟨x.reverse, d :: y⟩ = true) := fun x d y hxy =>
    Language.importOf_append_iff hf (endsLine_part h.endsLine hxy (by simp)) (by simp) _
  rw [← Text.size_append, ← List.append_assoc, live_importsAt_iff hf hlines,
    live_importsAt_iff hf h.endsLine]
  constructor
  · rintro ⟨x, d, y, hxy, hm, hsig⟩
    rcases List.append_eq_append_iff.1 hxy with ⟨w, rfl, hw⟩ | ⟨w, hw, hy⟩
    · rw [List.reverse_append] at hm
      exact .inl (hwritten w _ hw hm)
    · cases w with
      | nil =>
        rw [List.append_nil] at hw
        exact .inl (hwritten [] _ hy.symm (by rw [hw]; exact hm))
      | cons d' w =>
        -- the line stands in front of those that were written
        obtain ⟨rfl, rfl⟩ := List.cons.inj hy
        exact .inr ⟨x, d, w, hw, (hkept x d w hw).1 hm, hsig⟩
  · rintro (hmem | ⟨x, d, y, hxy, hm, hsig⟩)
    · obtain ⟨gs₁, gs₂, hsplit⟩ := List.append_of_mem hmem
      have hgs₁ : ∀ g ∈ gs₁, Text.isIdentifier g = true := fun g hg => hgs g (by simp [hsplit, hg])
      obtain ⟨l, -, hcode⟩ := h.behind_lines eol hgs₁
      have hm : (r.language.importOf f).matchesAt ⟨(r.importLines eol gs₁).reverse ++ b.reverse,
          r.language.importStatement f ++ (eol.text ++ r.importLines eol gs₂)⟩ = true :=
        (Language.importOf_line_iff hf hf
          (r.language.endsLine_importLines eol hgs₁ h.endsLine)).2 rfl
      obtain ⟨d, y, hdy⟩ := List.exists_cons_of_ne_nil (Language.ne_nil_of_importOf hf hm)
      rw [hdy] at hm
      refine ⟨b ++ r.importLines eol gs₁, d, y, ?_, by rw [List.reverse_append]; exact hm, ?_⟩
      · rw [hsplit, ← hdy, List.append_assoc]
        congr 1
        exact (Language.importLines_append _ _).trans (by rw [Language.importLines_cons]; rfl)
      · rw [hcode]
        rfl
    · exact ⟨x, d, y ++ r.importLines eol gs, by simp [hxy], (hkept x d y hxy).2 hm, hsig⟩

namespace Recipe

/-- A line in front of the end of the imports imports a framework. -/
def Imports (r : Recipe) (content f : Text) (p : Position) : Prop :=
  ImportsAt r.language content (r.analyze content).importOffset f p

/-- The edits that a removal applies. -/
def removals (r : Recipe) (content : Text) : List Edit :=
  Splice.accepted content.size 0
    ((r.uninstallEdits content (r.analyze content)).mergeSort Edit.before)

/-- **A delegate is cut behind its imports**: into whole lines, and the rest. -/
structure CutBehindImports (r : Recipe) (content block rest : Text) : Prop where
  text : content = block ++ rest
  offset : (r.analyze content).importOffset = block.size
  importBlock : (r.analyze content).importBlock content = block
  endsLine : EndsLine block.reverse

theorem exists_importBlock (r : Recipe) (content : Text) :
    ∃ block rest, r.CutBehindImports content block rest := by
  by_cases hne : content = []
  · subst hne
    have hoffset : (r.analyze []).importOffset = Text.size [] := by
      rw [analyze_eq]
      rfl
    exact ⟨[], [], rfl, hoffset, Landmarks.importBlock_append hoffset [], rfl⟩
  · obtain ⟨block, c, a, rfl, hoffset⟩ := exists_importOffset (r := r) hne
    exact ⟨block, c :: a, rfl, hoffset, Landmarks.importBlock_append hoffset _,
      (importPoint_of_offset hoffset).endsLine⟩

/-- **An installation leaves out** what any line in front of the end of the imports imports. -/
theorem notMem_importsAdded_iff (hf : Text.isIdentifier f = true) (hmem : f ∈ r.frameworks)
    (h : r.install content = .ok out) : f ∉ out.importsAdded ↔ ∃ p, r.Imports content f p := by
  obtain ⟨m, hm⟩ := methodBody_of_install h
  obtain ⟨block, rest, htext, hoffset, hblock, hlast⟩ := exists_importBlock r content
  rw [(splice_of_install hm h).2.1, hblock]
  simp only [Imports, hoffset]
  rw [htext, ← occursIn_iff_importsAt hf hlast]
  simp [missingFrameworks, hmem]

/-- **What is imported by live code behind an installation**: what was written, and what was imported
by live code before. -/
theorem exists_live_iff (hr : Text.isIdentifier r.receiver = true)
    (hs : Text.isIdentifier r.selector = true) (hfs : ∀ f ∈ r.frameworks, Text.isIdentifier f = true)
    (hmem : f ∈ r.frameworks) (h : r.install content = .ok out) :
    (∃ q, ImportsAt r.language out.content ((r.analyze content).importOffset +
        (r.importLines (LineBreak.detect content) out.importsAdded).size) f q ∧
        q.significant = true) ↔
      f ∈ out.importsAdded ∨ ∃ p, r.Imports content f p ∧ p.significant = true := by
  obtain ⟨imports, c, t, z, z', rfl, hpoint, hoffset, hadded, hout⟩ := front_of_install hr hs h
  simp only [Imports, hoffset, hadded, hout]
  refine hpoint.exists_live_iff _ _ (hfs f hmem) fun g hg => hfs g ?_
  exact (List.mem_filter.1 hg).1

/-- **The lines that a removal takes away**: all that import a framework. -/
theorem mem_removals_iff (hr : Text.isIdentifier r.receiver = true)
    (hs : Text.isIdentifier r.selector = true)
    (hfs : ∀ f ∈ r.frameworks, Text.isIdentifier f = true) :
    e ∈ r.removals content ∧ e.start < (r.analyze content).importOffset ↔
      ∃ f ∈ r.frameworks, e ∈ r.importEdits ((r.analyze content).importBlock content) f := by
  obtain ⟨block, rest, htext, hoffset, hblock, hlast⟩ := exists_importBlock r content
  -- calls start behind the imports, so only lines are taken out of these
  have hlines : ∀ {a}, a ∈ r.removals content → a.start < block.size →
      ∃ f ∈ r.frameworks, a ∈ r.importEdits block f := by
    intro a ha hlt
    have ha := mem_of_mem_sorted ha
    rw [uninstallEdits, hblock, List.mem_append] at ha
    rcases ha with ha | ha
    · obtain ⟨call, hcall, rfl⟩ := List.mem_map.1 ha
      have hle := importOffset_le_start hr hs hcall
      rw [hoffset] at hle
      exact absurd hlt (Nat.not_lt.2 hle)
    · exact List.mem_flatMap.1 ha
  rw [hoffset, hblock]
  refine ⟨fun ⟨he, hlt⟩ => hlines he hlt, ?_⟩
  rintro ⟨f, hmem, he⟩
  obtain ⟨hlt, hle⟩ := bounds_of_importEdits (hfs f hmem) hlast he
  have hstop : e.stop ≤ content.size := by
    rw [htext, Text.size_append]
    omega
  have hin : e ∈ r.uninstallEdits content (r.analyze content) := by
    rw [uninstallEdits, hblock]
    exact List.mem_append_right _ (List.mem_flatMap.2 ⟨f, hmem, he⟩)
  refine ⟨?_, lt_of_lt_of_le hlt hle⟩
  -- an edit is left out for one that overlaps it only, and lines of the imports do not overlap
  rcases sorted_or hin hstop with h | ⟨a, ha, hbefore, hlt'⟩
  · exact h
  · have hle' := Splice.start_le_of_before hbefore
    obtain ⟨g, hgmem, hg⟩ := hlines ha (by omega)
    rw [← eq_of_importEdits (hfs f hmem) (hfs g hgmem) hlast he hg hle' hlt']
    exact ha

/-- A removal takes away only what is live just if the lines begin in live code. -/
theorem live_removals_iff (hr : Text.isIdentifier r.receiver = true)
    (hs : Text.isIdentifier r.selector = true)
    (hfs : ∀ f ∈ r.frameworks, Text.isIdentifier f = true) :
    (∀ e ∈ r.removals content, e.start < (r.analyze content).importOffset →
        ∀ q ∈ positions r.language.quoting content, e.start ≤ q.offset → q.offset < e.stop →
          q.significant = true) ↔
      ∀ f ∈ r.frameworks, ∀ p, r.Imports content f p → p.significant = true := by
  obtain ⟨block, rest, htext, hoffset, hblock, hlast⟩ := exists_importBlock r content
  have hline : ∀ e, e ∈ r.removals content ∧ e.start < block.size ↔
      ∃ f ∈ r.frameworks, e ∈ r.importEdits block f := by
    intro e
    rw [← hoffset, ← hblock]
    exact mem_removals_iff hr hs hfs
  simp only [Imports, hoffset]
  subst htext
  constructor
  · intro h f hmem p hp
    obtain ⟨u, z, -, hn, hfore, -⟩ := hp.exists_line (hfs f hmem) hlast
    have he := (mem_importEdits_iff (hfs f hmem) hlast).2 ⟨p, u, _, hp, hfore, hn, rfl⟩
    obtain ⟨hin, hlt⟩ := (hline _).2 ⟨f, hmem, he⟩
    exact h _ hin hlt p hp.mem le_rfl (bounds_of_importEdits (hfs f hmem) hlast he).1
  · intro h e he hlt q hq hle hlt'
    obtain ⟨f, hmem, he⟩ := (hline e).1 ⟨he, hlt⟩
    obtain ⟨p, u, z, hp, hfore, hn, rfl⟩ : ∃ p u z,
        ImportsAt r.language (block ++ rest) block.size f p ∧ p.forepart = u ++ '\n' :: z ∧
          '\n' ∉ u ∧ e = Edit.delete p.offset (p.offset + (u ++ ['\n']).size) :=
      (mem_importEdits_iff (hfs f hmem) hlast).1 he
    have hm : (r.language.importOf f).matchesAt ⟨p.before, u ++ '\n' :: z⟩ = true := by
      rw [← hfore]
      exact hp.matched
    have hfore' : p.forepart = (u ++ ['\n']) ++ z := by simp [hfore]
    exact significant_of_quiet hp.mem (h f hmem p hp) hfore'
      (Language.isQuiet_of_importOf (hfs f hmem) hn hm) hq hle hlt'

/-- **When only live import lines count.** With the lines in front of the end of the imports:

* an installation leaves out only what is imported by a live line at the top level just if each
  framework with a line has such a line;
* all frameworks are imported by live code behind an installation just if each framework with a line
  has one that begins live;
* a removal takes only live code out of these imports just if all lines of frameworks begin live. -/
theorem live_imports_iff (hr : Text.isIdentifier r.receiver = true)
    (hs : Text.isIdentifier r.selector = true)
    (hfs : ∀ f ∈ r.frameworks, Text.isIdentifier f = true) :
    (∀ out, r.install content = .ok out →
      ((∀ f ∈ r.frameworks, f ∉ out.importsAdded →
          ∃ p, r.Imports content f p ∧ p.significant = true ∧ p.level = 0) ↔
        ∀ f ∈ r.frameworks, (∃ p, r.Imports content f p) →
          ∃ p, r.Imports content f p ∧ p.significant = true ∧ p.level = 0) ∧
      ((∀ f ∈ r.frameworks, ∃ q, ImportsAt r.language out.content
          ((r.analyze content).importOffset +
            (r.importLines (LineBreak.detect content) out.importsAdded).size) f q ∧
          q.significant = true) ↔
        ∀ f ∈ r.frameworks, (∃ p, r.Imports content f p) →
          ∃ p, r.Imports content f p ∧ p.significant = true)) ∧
    (∀ bare, r.uninstall content = .ok bare →
      Splice.apply content 0 (r.removals content) = some bare.content ∧
      ((∀ e ∈ r.removals content, e.start < (r.analyze content).importOffset →
          ∀ q ∈ positions r.language.quoting content, e.start ≤ q.offset → q.offset < e.stop →
            q.significant = true) ↔
        ∀ f ∈ r.frameworks, ∀ p, r.Imports content f p → p.significant = true)) := by
  refine ⟨fun out h => ⟨?_, ?_⟩, fun bare h => ⟨?_, live_removals_iff hr hs hfs⟩⟩
  · refine forall₂_congr fun f hmem => ?_
    rw [notMem_importsAdded_iff (hfs f hmem) hmem h]
  · refine forall₂_congr fun f hmem => ?_
    rw [exists_live_iff hr hs hfs hmem h, ← notMem_importsAdded_iff (hfs f hmem) hmem h]
    exact or_iff_not_imp_left
  · rw [uninstall] at h
    split at h
    · cases h
    · rename_i hsplice
      obtain rfl := Except.ok.inj h
      exact hsplice

/-- A delegate that imports a framework in live code. -/
def imported : Text :=
  "import MobileCenter\n".toList
    ++ ("class AppDelegate \x7b\n func application() \x7b".toList ++ "\n \x7d\n\x7d\n".toList)

/-- What is left out there is imported by live code, all frameworks are behind an installation, and
a removal takes live code away only. -/
theorem live_imports_iff_imported : ∃ out bare, crashes.install imported = .ok out ∧
    crashes.uninstall imported = .ok bare ∧ Service.core ∉ out.importsAdded ∧
    (∀ f ∈ crashes.frameworks, f ∉ out.importsAdded →
      ∃ p, crashes.Imports imported f p ∧ p.significant = true ∧ p.level = 0) ∧
    (∀ f ∈ crashes.frameworks, ∃ q, ImportsAt .swift out.content
        (20 + (crashes.importLines .lf out.importsAdded).size) f q ∧ q.significant = true) ∧
    ∀ e ∈ crashes.removals imported, e.start < 20 →
      ∀ q ∈ positions .swift imported, e.start ≤ q.offset → q.offset < e.stop →
        q.significant = true := by
  have hfound : crashes.analyze imported = ⟨some 20, true, some 61, []⟩ := by decide +kernel
  have hm : (crashes.analyze imported).methodBody = some 61 := by rw [hfound]
  have hoffset : (crashes.analyze imported).importOffset = 20 := by rw [hfound]; rfl
  obtain ⟨out, hout, -⟩ := install_of_pieces (m := 61) (r := crashes)
    [⟨"import MobileCenter\n".toList, [], "import MobileCenterCrashes\n".toList⟩,
      ⟨"class AppDelegate \x7b\n func application() \x7b".toList, [], crashes.callLine .lf⟩]
    "\n \x7d\n\x7d\n".toList (show imported = _ from rfl) hfound rfl
    (by decide +kernel) (by decide +kernel)
  have hedits : crashes.uninstallEdits imported ⟨some 20, true, some 61, []⟩ =
      [Edit.delete 0 20] := by
    decide +kernel
  have hsplice : splice imported [Edit.delete 0 20] =
      some "class AppDelegate \x7b\n func application() \x7b\n \x7d\n\x7d\n".toList := by
    rw [splice, List.mergeSort_singleton]
    decide +kernel
  have hbare : crashes.uninstall imported = _ := uninstall.eq_def _ _
  simp only [hfound, hedits, hsplice] at hbare
  have hlive : ∀ p ∈ positions .swift imported, p.offset < 20 →
      p.significant = true ∧ p.level = 0 := by
    decide +kernel
  have hlive : ∀ f p, crashes.Imports imported f p → p.significant = true ∧ p.level = 0 :=
    fun f p hp => hlive p hp.mem (hoffset ▸ hp.before)
  obtain ⟨hinstall, huninstall⟩ :=
    live_imports_iff (r := crashes) (by decide) (by decide) (by decide +kernel)
  obtain ⟨hleft, hpresent⟩ := hinstall out hout
  obtain ⟨-, htaken⟩ := huninstall _ hbare
  rw [hoffset] at hpresent htaken
  refine ⟨out, _, hout, hbare, ?_, ?_, ?_, ?_⟩
  · rw [(splice_of_install hm hout).2.1, hfound]
    decide +kernel
  · exact hleft.2 fun f _ ⟨p, hp⟩ => ⟨p, hp, hlive f p hp⟩
  · exact hpresent.2 fun f _ ⟨p, hp⟩ => ⟨p, hp, (hlive f p hp).1⟩
  · exact htaken.2 fun f _ p hp => (hlive f p hp).1

/-- A delegate with an import line inside a comment, in front of its imports. -/
def commented : Text :=
  "/*\nimport MobileCenter\n*/\nimport UIKit\n".toList
    ++ ("class AppDelegate \x7b\n  func application() \x7b".toList ++ "\n  \x7d\n\x7d\n".toList)

/-- **A comment counts as an import**: the framework is left out, no live line of the wired delegate
imports it, and a removal takes the line out of the comment. -/
theorem comment_counts :
    (∃ out, crashes.install commented = .ok out ∧ Service.core ∈ crashes.frameworks ∧
      Service.core ∉ out.importsAdded ∧
      ∀ q ∈ positions .swift out.content,
        (Language.importOf .swift Service.core).matchesAt q.cursor = true → q.significant = false) ∧
    ∃ bare, (forRemoval .swift).uninstall commented = .ok bare ∧ bare.content =
      "/*\n*/\nimport UIKit\n".toList
        ++ "class AppDelegate \x7b\n  func application() \x7b\n  \x7d\n\x7d\n".toList := by
  have hfound : crashes.analyze commented = ⟨some 39, true, some 81, []⟩ := by decide +kernel
  constructor
  · obtain ⟨out, hout, hcontent⟩ := install_of_pieces (m := 81) (r := crashes)
      [⟨"/*\nimport MobileCenter\n*/\nimport UIKit\n".toList, [],
          "import MobileCenterCrashes\n".toList⟩,
        ⟨"class AppDelegate \x7b\n  func application() \x7b".toList, [], crashes.callLine .lf⟩]
      "\n  \x7d\n\x7d\n".toList (show commented = _ from rfl) hfound rfl
      (by decide +kernel) (by decide +kernel)
    have hadded := (splice_of_install (by rw [hfound]) hout).2.1
    rw [hfound] at hadded
    refine ⟨out, hout, by decide, ?_, ?_⟩
    · rw [hadded]
      decide +kernel
    · rw [hcontent]
      decide +kernel
  · have hsame : (forRemoval .swift).analyze = crashes.analyze := analyze_congr rfl rfl rfl rfl rfl
    have hedits : (forRemoval .swift).uninstallEdits commented ⟨some 39, true, some 81, []⟩ =
        [Edit.delete 3 23] := by
      decide +kernel
    have hsplice : splice commented [Edit.delete 3 23] = some ("/*\n*/\nimport UIKit\n".toList
        ++ "class AppDelegate \x7b\n  func application() \x7b\n  \x7d\n\x7d\n".toList) := by
      rw [splice, List.mergeSort_singleton]
      decide +kernel
    have hout : (forRemoval .swift).uninstall commented = _ := uninstall.eq_def _ _
    simp only [hsame, hfound, hedits, hsplice] at hout
    exact ⟨_, hout, rfl⟩

end Recipe

end SdkWiring
