import SdkWiring.Proofs.Delegate.Removal

/-!
# A second installation replaces the first

A delegate that suits is wired to one integration and then to another one that imports at least as
much. The second installation finds the start call of the first with its whole line, and writes the
new one in its place. Import lines go behind those that are there. So the result is what the second
installation alone makes of the delegate.

* `Recipe.Parts.reinstall`: the text of a delegate that is wired twice.
* `Recipe.install_install`: the first installation leaves no trace.
-/

namespace SdkWiring

namespace Recipe

variable {r r' : Recipe} {i i' : Integration} {content imports t a : Text} {c : Char}
  {gs hs : List Text} {eol : LineBreak} {out : Outcome}

/-- What is asked of a delegate depends on its scan only. -/
theorem Parts.congr (h : r.Parts imports c t a) (hl : r'.language = r.language)
    (hsame : r'.analyze = r.analyze) : r'.Parts imports c t a where
  absent := h.absent
  offset := by rw [hsame, h.offset]
  body := by rw [hsame, h.body]
  restImports := by rw [hsame, h.restImports]
  restBody := by rw [hsame, h.restBody]
  clear := hl ▸ h.clear

/-- Behind the lines of some frameworks only the others are missing. -/
theorem missingFrameworks_of_lines (w : r.Writes i) (hb : EndsLine imports.reverse)
    (habs : ¬ Service.core <:+: imports) (hsplit : i.frameworks = gs ++ hs) :
    r.missingFrameworks (imports ++ r.importLines eol gs) = hs := by
  have hmem : ∀ f ∈ gs ++ hs, f ∈ Service.allFrameworks := hsplit ▸ i.mem_allFrameworks
  have hnodup : (gs ++ hs).Nodup := hsplit ▸ w.checked.nodup_frameworks
  have hoccurs : ∀ f ∈ gs ++ hs, (r.language.importOf f).occursIn (imports ++ r.importLines eol gs) =
      decide (f ∈ gs) := fun f hf =>
    r.language.occursIn_importLines eol (Service.isIdentifier_of_mem (hmem f hf)) hb
      (fun h => habs ((Service.core_infix_of_mem (hmem f hf)).trans h))
      fun g hg => Service.isIdentifier_of_mem (hmem g (by simp [hg]))
  rw [missingFrameworks, w.frameworks, hsplit, List.filter_append]
  have hleft : gs.filter (fun f => !(r.language.importOf f).occursIn
      (imports ++ r.importLines eol gs)) = [] := by
    refine List.filter_eq_nil_iff.2 fun f hf => ?_
    rw [hoccurs f (by simp [hf]), decide_eq_true hf]
    decide
  have hright : hs.filter (fun f => !(r.language.importOf f).occursIn
      (imports ++ r.importLines eol gs)) = hs := by
    refine List.filter_eq_self.2 fun f hf => ?_
    have hnot : f ∉ gs := fun hg => (List.nodup_append.1 hnodup).2.2 f hg f hf rfl
    rw [hoccurs f (by simp [hf]), decide_eq_false hnot]
    rfl
  rw [hleft, hright, List.nil_append]

/-- A line is written in the place of another one, and further lines behind the imports. -/
theorem splice_exchange {P : Prop} [Decidable P] (block lines front new behind : Text) {old : Text}
    (hlines : P → lines = []) (hfront : 0 < front.size) (hold : 0 < old.size) :
    splice (block ++ (front ++ (old ++ behind)))
        ([Edit.delete (block.size + front.size) (block.size + front.size + old.size),
          Edit.insert (block.size + front.size) new] ++
            if P then [] else [Edit.insert block.size lines]) =
      some (block ++ (lines ++ (front ++ (new ++ behind)))) := by
  by_cases hP : P
  · obtain rfl := hlines hP
    have hpieces := splice_pieces_behind block [⟨front, [], new⟩, ⟨[], old, []⟩] behind
      (List.reverse_perm _) (Piece.pairwise_edits (by simpa using hold))
    simpa [hP, Edit.insert, Edit.delete] using hpieces
  · have hpieces := splice_pieces_behind block
      [⟨[], [], lines⟩, ⟨front, [], new⟩, ⟨[], old, []⟩] behind (List.reverse_perm _)
      (Piece.pairwise_edits (by simpa using ⟨by omega, hold⟩))
    simpa [hP, Edit.insert, Edit.delete] using hpieces

/-- **The text of a delegate that is wired twice.** -/
theorem Parts.reinstall (w : r.Writes i) (w' : r'.Writes i') (hl : r'.language = r.language)
    (hsame : r'.analyze = r.analyze) (hn : r.language = .swift → r.typeName ≠ "import".toList)
    (h : r.Parts imports c t a) (hsplit : i'.frameworks = i.frameworks ++ hs)
    (heol : LineBreak.detect (imports ++ c :: (t ++ '{' :: a)) = eol) :
    r'.install (imports ++ (r.importLines eol i.frameworks ++
        c :: (t ++ '{' :: (r.callLine eol ++ a)))) =
      .ok ⟨imports ++ (r'.importLines eol i'.frameworks ++
        c :: (t ++ '{' :: (r'.callLine eol ++ a))), hs, [], 1, true⟩ := by
  set content := imports ++ (r.importLines eol i.frameworks ++
    c :: (t ++ '{' :: (r.callLine eol ++ a))) with hcontent
  set block := imports ++ r.importLines eol i.frameworks with hblock
  have hsame' : r'.importLines eol i.frameworks = r.importLines eol i.frameworks := by
    rw [importLines, importLines, hl]
  have hlandmarks := h.analyze_wired w hn i.mem_allFrameworks Integration.frameworks_ne_nil eol eol
  have hsize : block.size = imports.size + (r.importLines eol i.frameworks).size :=
    Text.size_append _ _
  rw [← hcontent, ← hsize] at hlandmarks
  have himports : (r'.analyze content).importBlock content = block := by
    rw [hsame]
    exact h.importBlock_wired w hn i.mem_allFrameworks Integration.frameworks_ne_nil eol eol
  -- only what the first installation did not import is missing now
  have hmissing : r'.missingFrameworks block = hs := by
    rw [hblock, ← hsame']
    exact missingFrameworks_of_lines w' h.point.endsLine h.absent_imports hsplit
  have heol' : LineBreak.detect content = eol :=
    h.detect_wired w i.mem_allFrameworks heol
  have hbody : (r'.analyze content).methodBody = some (block.size + Text.size (c :: (t ++ ['{']))) := by
    rw [hsame, hlandmarks]
  have hcount : (r'.analyze content).startCalls.length = 1 := by rw [hsame, hlandmarks]; rfl
  have hedits : r'.installEdits content (r'.analyze content)
      (block.size + Text.size (c :: (t ++ ['{']))) =
        [Edit.delete (block.size + Text.size (c :: (t ++ ['{'])))
            (block.size + Text.size (c :: (t ++ ['{'])) + (r.callLine eol).size),
          Edit.insert (block.size + Text.size (c :: (t ++ ['{']))) (r'.callLine eol)] ++
          if hs = [] then [] else [Edit.insert block.size (r'.importLines eol hs)] := by
    rw [installEdits, himports, hmissing, heol', hsame, Landmarks.callEdits, hlandmarks]
    rfl
  have hsplice : splice content (r'.installEdits content (r'.analyze content)
      (block.size + Text.size (c :: (t ++ ['{'])))) = some (block ++ (r'.importLines eol hs ++
        c :: (t ++ '{' :: (r'.callLine eol ++ a)))) := by
    have hexchange := splice_exchange (P := hs = []) block (r'.importLines eol hs)
      (c :: (t ++ ['{'])) (r'.callLine eol) a (fun hnil => by rw [hnil]; rfl)
      (Parts.size_front_pos _ _) (size_callLine_pos r eol)
    rw [hedits]
    simpa [hcontent, hblock] using hexchange
  rw [install_eq hbody, hsplice, himports, hmissing, hcount]
  have hlines : r'.importLines eol i'.frameworks =
      r.importLines eol i.frameworks ++ r'.importLines eol hs := by
    rw [← hsame', hsplit]
    exact Language.importLines_append _ _
  simp only [hlines, hblock, List.append_assoc]

/-- Two recipes that look for the same, and write more and more. -/
theorem Suits.reinstall (w : r.Writes i) (w' : r'.Writes i') (hl : r'.language = r.language)
    (hsame : r'.analyze = r.analyze) (hn : r.language = .swift → r.typeName ≠ "import".toList)
    (hinitial : i.frameworks <+: i'.frameworks) (hsuits : r.Suits content)
    (hout : r.install content = .ok out) :
    ∃ again alone, r'.install out.content = .ok again ∧ r'.install content = .ok alone ∧
      again.callsRemoved = 1 ∧ again.content = alone.content := by
  obtain ⟨m, hm⟩ := methodBody_of_install hout
  obtain ⟨imports, c, t, a, rfl, h⟩ := hsuits.parts hm
  rw [h.install w rfl] at hout
  obtain rfl := Except.ok.inj hout
  obtain ⟨hs, hsplit⟩ := hinitial
  exact ⟨_, _, h.reinstall w w' hl hsame hn hsplit.symm rfl, (h.congr hl hsame).install w' rfl, rfl,
    rfl⟩

/-- **A second installation replaces the first** and gives what it would have given alone. -/
theorem install_install {language : Language} {old new : Integration} {secret secret' : Option Text}
    {services services' : List Service} {settings settings' : Settings}
    {typeName methodName indent : Text} {sourceName sourceName' : String}
    (hold : Operation.integration secret services settings = .ok (.integrate old))
    (hnew : Operation.integration secret' services' settings' = .ok (.integrate new))
    (hinitial : old.frameworks <+: new.frameworks)
    (hindent : ∀ c ∈ indent, Text.isBlank c = true) (htype : Text.isIdentifier typeName = true)
    (hkeyword : language = .swift → typeName ≠ "import".toList)
    (hsuits : ((forIntegration language old).configured typeName methodName indent
      sourceName).Suits content)
    (hout : ((forIntegration language old).configured typeName methodName indent
      sourceName).install content = .ok out) :
    ∃ again alone,
      ((forIntegration language new).configured typeName methodName indent sourceName').install
          out.content = .ok again ∧
        ((forIntegration language new).configured typeName methodName indent sourceName').install
          content = .ok alone ∧
        again.callsRemoved = 1 ∧ again.content = alone.content := by
  have w := writes_configured language methodName sourceName hold hindent htype
  have w' := writes_configured language methodName sourceName' hnew hindent htype
  exact hsuits.reinstall w w' rfl (analyze_congr rfl rfl rfl rfl rfl) hkeyword hinitial hout

theorem install_install_short : ∃ out again alone,
    ((forIntegration .swift guarded).configured "App".toList "run".toList ['\t']
        "App.swift").install ("import UIKit\n".toList ++
          'c' :: ("lass App \x7b func run() ".toList ++ '{' :: "\n\x7d \x7d\n".toList)) = .ok out ∧
      ((forIntegration .swift (.ofServices ['k'] [.crashes, .distribute])).configured "App".toList
        "run".toList ['\t'] "App.swift").install out.content = .ok again ∧
      ((forIntegration .swift (.ofServices ['k'] [.crashes, .distribute])).configured "App".toList
        "run".toList ['\t'] "App.swift").install ("import UIKit\n".toList ++
          'c' :: ("lass App \x7b func run() ".toList ++ '{' :: "\n\x7d \x7d\n".toList)) = .ok alone ∧
      again.callsRemoved = 1 ∧ again.content = alone.content := by
  have hout := parts_short.install (writes_configured _ _ _ integration_guarded (by decide) (by decide)) rfl
  have hnew : Operation.integration (some ['k']) [.crashes, .distribute] {} =
      .ok (.integrate (.ofServices ['k'] [.crashes, .distribute])) := rfl
  exact ⟨_, (install_install integration_guarded hnew (by decide) (by decide) (by decide)
    (by decide) parts_short.suits hout).imp fun again h => h.imp fun alone h => ⟨hout, h⟩⟩

end Recipe

end SdkWiring
