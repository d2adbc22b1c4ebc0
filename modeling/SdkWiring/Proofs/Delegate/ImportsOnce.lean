import SdkWiring.Proofs.Delegate.Removal
import SdkWiring.Proofs.Delegate.Repetition

/-!
# Imports of a delegate that is wired twice

The import lines that an installation writes are read again by the next one, which finds them all if it
gets past them before it finds the delegate type. A marker of the type may begin in the old imports and
end in the new lines, so that only the text with the lines has it. Then the imports seem to end before
it, and the lines are written once more. That takes Objective-C and a type name that is no identifier:
with an identifier, and in Swift with any name, they are written once.

* `Recipe.TypeBefore`: the type is found in front of an offset.
* `Recipe.missingFrameworks_of_typeBefore`: what is missing if it is found in the imports.
* `Recipe.importsAdded_again_iff`: when a second installation adds no import.
-/

namespace SdkWiring

variable {r : Recipe} {i : Integration} {content imports a x y : Text} {c : Char} {f : Text}
  {gs : List Text} {out again : Outcome} {language : Language}

namespace Recipe

/-- The delegate type is found at a position in front of an offset. -/
def TypeBefore (r : Recipe) (content : Text) (n : Nat) : Prop :=
  ∃ xs p ys, positions r.language.quoting content = xs ++ p :: ys ∧
    r.opensType (r.run {} xs).header p = true ∧ p.offset < n

/-- Where the type is found in a first part of a text. -/
theorem typeSeen_stretch_iff (x y : Text) :
    (r.run {} (stretch r.language.quoting .start [] x y)).typeSeen = true ↔
      r.TypeBefore (x ++ y) x.size := by
  set rest := stretch r.language.quoting (Mode.start.behind r.language.quoting x y.head?) x.reverse y
    [] with hrest
  have hpositions : positions r.language.quoting (x ++ y) =
      stretch r.language.quoting .start [] x y ++ rest := by
    rw [positions_eq_stretch, stretch_append, hrest]
    simp only [List.append_nil]
  constructor
  · intro h
    rcases exists_step (P := fun s => s.typeSeen = true) h with h | ⟨xs, p, ys, hsplit, hnot, hp⟩
    · cases h
    · have hopens : r.opensType (r.run {} xs).header p = true := by
        simp only [survey, Bool.or_eq_true] at hp
        exact hp.resolve_left hnot
      obtain ⟨u, v, hx, -, hplace, -⟩ := stretch_split hsplit
      refine ⟨xs, p, _, by rw [hpositions, hsplit, List.append_assoc, List.cons_append], hopens, ?_⟩
      have hoff : p.offset = u.size := by
        rw [hplace, Position.offset, Mode.place, List.append_nil, Text.size_reverse]
      have := p.char.utf8Size_pos
      rw [hoff, hx, Text.size_append, Text.size_cons]
      omega
  · rintro ⟨xs, p, ys, hps, hopens, hlt⟩
    -- the scan of the second text starts behind the first one
    have hnot : p ∉ rest := by
      intro hp
      obtain ⟨u, v, -, hplace⟩ := stretch_split_of_mem hp
      rw [hplace, Position.offset, Mode.place, Text.size_append, Text.size_reverse,
        Text.size_reverse] at hlt
      omega
    obtain ⟨us, hus⟩ : ∃ us, stretch r.language.quoting .start [] x y = xs ++ p :: us := by
      rcases List.append_eq_append_iff.1 (hpositions.symm.trans hps) with ⟨us, -, hus⟩ | ⟨us, hus, hys⟩
      · exact absurd (by simp [hus]) hnot
      · cases us with
        | nil => exact absurd (by simp [← show p :: ys = rest from hys]) hnot
        | cons q us => exact ⟨us, by rw [hus, (List.cons.inj hys).1]⟩
    rw [hus, run_append, run_cons]
    exact typeSeen_run (by simp [survey, hopens])

/-- No marker of the type begins in the lines, so it begins in front of them. -/
theorem typeSeen_lines_iff (h : ImportPoint r imports c a) (eol : LineBreak)
    (hgs : ∀ g ∈ gs, g ∈ Service.allFrameworks) (a' : Text) :
    (r.run {} (stretch r.language.quoting .start [] (imports ++ r.importLines eol gs)
      (c :: a'))).typeSeen = true ↔
      r.TypeBefore (imports ++ (r.importLines eol gs ++ c :: a')) imports.size := by
  obtain ⟨l, hlines⟩ := h.run_lines eol gs a'
  rw [hlines, ← typeSeen_stretch_iff]
  refine ⟨fun hseen => ?_, typeSeen_run⟩
  by_contra hno
  rw [typeSeen_importLines hgs (by simpa using hno)] at hseen
  cases hseen

/-- If the type is found in a first part of a text, the imports end in that part. -/
theorem importBlock_of_typeBefore (h : r.TypeBefore (x ++ y) x.size) :
    (r.analyze (x ++ y)).importBlock (x ++ y) <+: x ∧
      EndsLine ((r.analyze (x ++ y)).importBlock (x ++ y)).reverse := by
  cases hend : (r.surveyed (x ++ y)).endOfImports with
  | none =>
    have hoffset : (r.analyze (x ++ y)).importOffset = Text.size [] := by
      simp [analyze_eq, Landmarks.importOffset, Survey.landmarks, hend]
    have hblock : (r.analyze (x ++ y)).importBlock (x ++ y) = [] :=
      Landmarks.importBlock_append hoffset (x ++ y)
    rw [hblock]
    exact ⟨List.nil_prefix, rfl⟩
  | some n =>
    obtain ⟨xs, p, ys, hps, rfl, hunseen, hends⟩ := origin_endOfImports hend
    obtain ⟨htext, hxs, -, -⟩ := positions_split hps
    simp only [endsImports, Bool.and_eq_true] at hends
    rw [importBlock_of_position hps hend]
    refine ⟨?_, by rw [Position.backpart, List.reverse_reverse]; exact Position.endsLine hends.1.2⟩
    -- behind the first part the type would have been found
    rcases List.append_eq_append_iff.1 htext with ⟨u, hu, hrest⟩ | ⟨u, hu, -⟩
    · rw [hxs, hu, stretch_append, ← hrest, run_append,
        typeSeen_run ((typeSeen_stretch_iff x y).2 h)] at hunseen
      cases hunseen
    · exact ⟨u, hu.symm⟩

/-- **What is missing in front of a type** that is found in the imports is missing still. -/
theorem missingFrameworks_of_typeBefore (hr : r.OfSdk) (h : r.TypeBefore (x ++ y) x.size)
    (hf : f ∈ r.missingFrameworks x) :
    f ∈ r.missingFrameworks ((r.analyze (x ++ y)).importBlock (x ++ y)) := by
  obtain ⟨⟨rest, hx⟩, hline⟩ := importBlock_of_typeBefore h
  obtain ⟨hmem, hmissing⟩ := List.mem_filter.1 hf
  have hid := Service.isIdentifier_of_mem (hr.frameworks f hmem)
  refine List.mem_filter.2 ⟨hmem, ?_⟩
  rw [Bool.not_eq_true', ← Bool.not_eq_true] at hmissing ⊢
  intro hoccurs
  refine hmissing ?_
  rw [← hx]
  exact Language.occursIn_importOf_append hid hline hoccurs rest

/-- What a second installation adds. -/
theorem importsAdded_of_install (h : r.install content = .ok out) :
    out.importsAdded = r.missingFrameworks ((r.analyze content).importBlock content) := by
  obtain ⟨m, hm⟩ := methodBody_of_install h
  exact (splice_of_install hm h).2.1

/-- **The imports that an installation adds** are written behind those that were there, a line for each
one that is missing. A second installation adds none of them, unless it finds the type in the old
imports, where the first one did not. -/
theorem importsAdded_again_iff {typeName methodName indent : Text} {sourceName : String}
    (hout : ((forIntegration language i).configured typeName methodName indent
      sourceName).install content = .ok out)
    (hagain : ((forIntegration language i).configured typeName methodName indent
      sourceName).install out.content = .ok again) :
    ∃ imports rest rest', content = imports ++ rest ∧
      (((forIntegration language i).configured typeName methodName indent
        sourceName).analyze content).importOffset = imports.size ∧
      out.importsAdded = i.frameworks.filter (fun f => !(language.importOf f).occursIn imports) ∧
      out.content = imports ++ (out.importsAdded.flatMap (fun f =>
        language.importStatement f ++ (LineBreak.detect content).text) ++ rest') ∧
      (language = .swift ∨ Text.isIdentifier typeName = true → again.importsAdded = []) ∧
      (¬ ((forIntegration language i).configured typeName methodName indent
        sourceName).TypeBefore out.content imports.size → again.importsAdded = []) ∧
      (out.importsAdded ≠ [] → (again.importsAdded = [] ↔
        ¬ ((forIntegration language i).configured typeName methodName indent
          sourceName).TypeBefore out.content imports.size)) := by
  set r := (forIntegration language i).configured typeName methodName indent sourceName with hr
  have hsdk : r.OfSdk := ofSdk_forIntegration language i typeName methodName indent sourceName
  obtain ⟨imports, c, t, z, z', rfl, hpoint, hoffset, hadded, hcontent⟩ :=
    front_of_install hsdk.isIdentifier.1 hsdk.isIdentifier.2 hout
  set eol := LineBreak.detect (imports ++ c :: (t ++ '{' :: z))
  have hmem : ∀ g ∈ r.missingFrameworks imports, g ∈ Service.allFrameworks := fun g hg =>
    hsdk.frameworks g (List.mem_filter.1 hg).1
  have hiff := typeSeen_lines_iff hpoint eol hmem (t ++ '{' :: z')
  rw [← hcontent] at hiff
  have honce : ¬ r.TypeBefore out.content imports.size → again.importsAdded = [] := by
    intro hno
    rw [importsAdded_of_install hagain]
    exact missingFrameworks_written hsdk eol hpoint (by simpa using hiff.not.2 hno) hcontent
  refine ⟨imports, _, c :: (t ++ '{' :: z'), rfl, hoffset, hadded, ?_, fun hname => ?_, honce, ?_⟩
  · rw [hcontent, hadded]
    rfl
  · refine honce (hiff.not.1 ?_)
    have hunseen := hpoint.typeSeen_written eol (t ++ '{' :: z') (fun hl => ?_) hmem
      fun _ => ⟨c :: t, z, z', rfl, rfl⟩
    · simp [hunseen]
    · exact hname.resolve_left fun h => by cases h.symm.trans hl
  · intro hne
    refine ⟨fun hnone htype => ?_, honce⟩
    obtain ⟨f, hf⟩ := List.exists_mem_of_ne_nil _ hne
    rw [hadded] at hf
    rw [hcontent] at htype
    -- behind a type no imports end, so the lines that were written do not count
    have hstill := missingFrameworks_of_typeBefore hsdk htype hf
    rw [← hcontent, ← importsAdded_of_install hagain, hnone] at hstill
    cases hstill

/-- In a short Swift delegate the imports are added once. -/
theorem importsAdded_again_iff_short : ∃ out again,
    ((forIntegration .swift guarded).configured "App".toList "run".toList ['\t']
        "App.swift").install ("import UIKit\n".toList ++
          'c' :: ("lass App \x7b func run() ".toList ++ '{' :: "\n\x7d \x7d\n".toList)) = .ok out ∧
      ((forIntegration .swift guarded).configured "App".toList "run".toList ['\t']
        "App.swift").install out.content = .ok again ∧
      out.importsAdded = guarded.frameworks ∧ again.importsAdded = [] := by
  have w : ((forIntegration .swift guarded).configured "App".toList "run".toList ['\t']
      "App.swift").Writes guarded :=
    writes_configured _ _ _ integration_guarded (by decide) (by decide)
  have hout := parts_short.install w rfl
  have hagain := parts_short.reinstall w w rfl rfl (by decide) (List.append_nil _).symm rfl
  obtain ⟨imports, rest, rest', -, -, -, -, honce, -⟩ := importsAdded_again_iff hout hagain
  exact ⟨_, _, hout, hagain, rfl, honce (.inl rfl)⟩

/-- An Objective-C delegate in which the type is named by the first words of an import line, and a
comment ends on the last line of the imports. -/
def importedType : Text :=
  "/*\n#import <A> //*/ @implementation\n".toList ++
    "@implementation @import\n- (void)run \x7b\n\x7d\n@end\n".toList

/-- **Imports that are added twice.** With the lines written behind the imports, their last line goes on
as the marker of the type. -/
theorem importedType_again : ∃ out again,
    ((forIntegration .objectiveC (.ofServices ['k'] [.crashes])).configured "@import".toList
      "run".toList ['\t'] "App.m").install importedType = .ok out ∧
    ((forIntegration .objectiveC (.ofServices ['k'] [.crashes])).configured "@import".toList
      "run".toList ['\t'] "App.m").install out.content = .ok again ∧
    again.importsAdded ≠ [] := by
  obtain ⟨out, hout, hwired⟩ := install_of_pieces (m := 73)
    (r := (forIntegration .objectiveC (.ofServices ['k'] [.crashes])).configured "@import".toList
      "run".toList ['\t'] "App.m") (l := ⟨some 36, true, some 73, []⟩)
    [⟨"/*\n#import <A> //*/ @implementation\n".toList, [],
        "@import MobileCenter;\n@import MobileCenterCrashes;\n".toList⟩,
      ⟨"@implementation @import\n- (void)run \x7b".toList, [],
        "\n\t[MSMobileCenter start:@\"k\" withServices:@[[MSCrashes class]]];".toList⟩]
    "\n\x7d\n@end\n".toList
    (show importedType = _ by decide) (by decide +kernel) rfl (by decide +kernel)
    (by decide)
  obtain ⟨again, hagain, -⟩ := install_of_pieces (m := 124)
    (r := (forIntegration .objectiveC (.ofServices ['k'] [.crashes])).configured "@import".toList
      "run".toList ['\t'] "App.m") (l := ⟨none, true, some 124, [⟨124, 188⟩]⟩)
    [⟨[], [], "@import MobileCenter;\n@import MobileCenterCrashes;\n".toList⟩,
      ⟨"/*\n#import <A> //*/ @implementation\n".toList ++
          "@import MobileCenter;\n@import MobileCenterCrashes;\n".toList ++
          "@implementation @import\n- (void)run \x7b".toList,
        [], "\n\t[MSMobileCenter start:@\"k\" withServices:@[[MSCrashes class]]];".toList⟩,
      ⟨[], "\n\t[MSMobileCenter start:@\"k\" withServices:@[[MSCrashes class]]];".toList, []⟩]
    "\n\x7d\n@end\n".toList
    (show out.content = _ by rw [hwired]; decide +kernel) (by rw [hwired]; decide +kernel) rfl
    (by rw [hwired]; decide +kernel) (by decide +kernel)
  refine ⟨out, again, hout, hagain, ?_⟩
  rw [importsAdded_of_install hagain, hwired]
  decide +kernel

end Recipe

end SdkWiring
