import SdkWiring.Proofs.Delegate.Installed

/-!
# Removal undoes an installation

A delegate that suits is wired and then unwired. The second scan finds the start call with its whole
line, and each import line, and nothing else of the SDK. So the delegate is what it was.

* `Recipe.importEdits_all`: the import lines that are found.
* `Recipe.uninstall_install`: a wired delegate is unwired to what it was.
-/

namespace SdkWiring

variable {r r' : Recipe} {i : Integration} {content imports t a : Text} {c : Char} {f g : Text}
  {gs : List Text} {eol : LineBreak} {out : Outcome}

namespace Recipe

/-- A recipe with the names, the indentation and the source of a project. -/
def configured (r : Recipe) (typeName methodName indent : Text) (sourceName : String) : Recipe :=
  { r with typeName, methodName, indent, sourceName }

/-- A recipe for an integration looks for the SDK, whatever else is configured. -/
theorem ofSdk_forIntegration (language : Language) (i : Integration)
    (typeName methodName indent : Text) (sourceName : String) :
    ((forIntegration language i).configured typeName methodName indent sourceName).OfSdk where
  receiver := rfl
  selector := rfl
  frameworks := i.mem_allFrameworks
  frameworks_ne_nil := Integration.frameworks_ne_nil

/-- So does a recipe for a removal. -/
theorem ofSdk_forRemoval (language : Language) (typeName methodName indent : Text)
    (sourceName : String) :
    ((forRemoval language).configured typeName methodName indent sourceName).OfSdk where
  receiver := rfl
  selector := rfl
  frameworks _ hf := hf
  frameworks_ne_nil := (by decide : Service.allFrameworks ≠ [])

end Recipe

namespace Language

variable {language : Language}

/-- Pieces that take the lines of frameworks away. -/
def linePieces (language : Language) (eol : LineBreak) (gs : List Text) : List Piece :=
  gs.map fun g => ⟨[], language.importStatement g ++ eol.text, []⟩

theorem old_linePieces (z : Text) :
    Piece.old (linePieces language eol gs) z = importLines language eol gs ++ z := by
  induction gs with
  | nil => rfl
  | cons g gs ih =>
    have hcons : linePieces language eol (g :: gs) =
        ⟨[], language.importStatement g ++ eol.text, []⟩ :: linePieces language eol gs := rfl
    rw [hcons, Piece.old_cons, ih, importLines_cons]
    simp

theorem new_linePieces (z : Text) : Piece.new (linePieces language eol gs) z = z := by
  induction gs with
  | nil => rfl
  | cons g gs ih => exact ih

theorem linePieces_removed : ∀ p ∈ linePieces language eol gs, 0 < p.kept.size + p.removed.size := by
  intro p hp
  obtain ⟨g, -, rfl⟩ := List.mem_map.1 hp
  have hpos : 0 < eol.text.size := by cases eol <;> decide
  simp only [Text.size_append]
  omega

end Language

/-- Only elements of a class matter if the others give nothing. -/
theorem flatMap_filter_of {α β : Type} {l : List α} {F : α → List β} {P : α → Bool}
    (h : ∀ x ∈ l, P x = false → F x = []) : l.flatMap F = (l.filter P).flatMap F := by
  induction l with
  | nil => rfl
  | cons x l ih =>
    have hl := ih fun y hy => h y (by simp [hy])
    rw [List.flatMap_cons, List.filter_cons, hl]
    cases hx : P x with
    | true => rw [if_pos rfl, List.flatMap_cons]
    | false => rw [if_neg (by decide), h x (by simp) hx, List.nil_append]

namespace Recipe

/-- **The edit that takes one import line away.** -/
theorem importEdits_line (eol : LineBreak) {done : List Text} (hb : EndsLine imports.reverse)
    (habs : ¬ Service.core <:+: imports) (hgs : ∀ f ∈ done ++ g :: gs, f ∈ Service.allFrameworks)
    (hnodup : (done ++ g :: gs).Nodup) :
    r.importEdits (imports ++ r.importLines eol (done ++ g :: gs)) g =
      [Edit.delete (imports ++ r.importLines eol done).size
        (imports ++ r.importLines eol (done ++ [g])).size] := by
  have hg := hgs g (by simp)
  have hnot : g ∉ done ++ gs := (List.nodup_cons.1 (List.perm_middle.nodup_iff.1 hnodup)).1
  have hfind := r.language.findAll_importLines eol done gs (Service.isIdentifier_of_mem hg) hb
    (fun h => habs ((Service.core_infix_of_mem hg).trans h))
    (fun f hf => Service.isIdentifier_of_mem (hgs f (by
      rcases List.mem_append.1 hf with hf | hf <;> simp [hf]))) hnot
  rw [importEdits]
  change List.map _ (Pattern.findAll _ (.start (imports ++ Language.importLines _ _ _))) = _
  rw [hfind]
  simp only [List.map_cons, List.map_nil, Cursor.offset, Text.size_reverse]
  rfl

/-- The edits that take import lines away are those of their pieces. -/
theorem importEdits_lines (eol : LineBreak) (done : List Text) (hb : EndsLine imports.reverse)
    (habs : ¬ Service.core <:+: imports) (hgs : ∀ g ∈ done ++ gs, g ∈ Service.allFrameworks)
    (hnodup : (done ++ gs).Nodup) :
    gs.flatMap (r.importEdits (imports ++ r.importLines eol (done ++ gs))) =
      Piece.edits (imports.size + (r.importLines eol done).size)
        (Language.linePieces r.language eol gs) := by
  induction gs generalizing done with
  | nil => rfl
  | cons g gs ih =>
    have hrest := ih (done ++ [g]) (by simpa using hgs) (by simpa using hnodup)
    rw [List.append_assoc, List.singleton_append] at hrest
    rw [List.flatMap_cons, importEdits_line eol hb habs hgs hnodup, hrest]
    have hsize : (r.importLines eol (done ++ [g])).size = (r.importLines eol done).size +
        Text.size (r.language.importStatement g ++ eol.text) := by
      change Text.size (Language.importLines _ _ _) = _
      rw [Language.importLines_append, Text.size_append, Language.importLines_cons]
      simp [Language.importLines, importLines]
    rw [Text.size_append, Text.size_append, hsize]
    simp only [Language.linePieces, List.map_cons, Piece.edits_cons, Edit.delete, Text.size_nil,
      Nat.add_zero, Nat.add_assoc, List.singleton_append]

theorem importEdits_absent (eol : LineBreak) (hb : EndsLine imports.reverse)
    (habs : ¬ Service.core <:+: imports) (hgs : ∀ g ∈ gs, g ∈ Service.allFrameworks)
    (hf : f ∈ Service.allFrameworks) (hnot : f ∉ gs) :
    r.importEdits (imports ++ r.importLines eol gs) f = [] := by
  have hfind := r.language.findAll_importLines_absent eol (Service.isIdentifier_of_mem hf) hb
    (fun h => habs ((Service.core_infix_of_mem hf).trans h))
    (fun g hg => Service.isIdentifier_of_mem (hgs g hg)) hnot
  rw [importEdits]
  change List.map _ (Pattern.findAll _ (.start (imports ++ Language.importLines _ _ _))) = _
  rw [hfind]
  rfl

/-- **All import lines of an integration** and no others are found, whatever else could be. -/
theorem importEdits_all (r : Recipe) (eol : LineBreak) (hb : EndsLine imports.reverse)
    (habs : ¬ Service.core <:+: imports) (hi : i.Checked) :
    Service.allFrameworks.flatMap (r.importEdits (imports ++ r.importLines eol i.frameworks)) =
        Piece.edits imports.size (Language.linePieces r.language eol i.frameworks) ∧
      (Service.allFrameworks.filter fun f =>
        r.importEdits (imports ++ r.importLines eol i.frameworks) f != []) = i.frameworks := by
  have habsent : ∀ f ∈ Service.allFrameworks, decide (f ∈ i.frameworks) = false →
      r.importEdits (imports ++ r.importLines eol i.frameworks) f = [] := fun f hf hnot =>
    importEdits_absent eol hb habs i.mem_allFrameworks hf (by simpa using hnot)
  have hlines := importEdits_lines (r := r) eol [] hb habs i.mem_allFrameworks
    hi.nodup_frameworks
  constructor
  · rw [flatMap_filter_of habsent, ← hi.frameworks]
    exact hlines
  · conv_rhs => rw [hi.frameworks]
    refine List.filter_congr fun f hf => ?_
    by_cases hmem : f ∈ i.frameworks
    · obtain ⟨done, gs, hsplit⟩ := List.append_of_mem hmem
      rw [decide_eq_true hmem, hsplit, importEdits_line eol hb habs (hsplit ▸ i.mem_allFrameworks)
        (hsplit ▸ hi.nodup_frameworks)]
      rfl
    · rw [habsent f hf (decide_eq_false hmem), decide_eq_false hmem]
      rfl

/-- **A wired delegate is unwired to what it was.** -/
theorem Parts.uninstall (w : r.Writes i) (hn : r.language = .swift → r.typeName ≠ "import".toList)
    (h : r.Parts imports c t a) (hl : r'.language = r.language) (hsame : r'.analyze = r.analyze)
    (hall : r'.frameworks = Service.allFrameworks) :
    r'.uninstall (imports ++ (r.importLines eol i.frameworks ++
        c :: (t ++ '{' :: (r.callLine eol ++ a)))) =
      .ok ⟨imports ++ c :: (t ++ '{' :: a), [], i.frameworks, 1, false⟩ := by
  set content := imports ++ (r.importLines eol i.frameworks ++
    c :: (t ++ '{' :: (r.callLine eol ++ a))) with hcontent
  have hlines : r'.importLines eol i.frameworks = r.importLines eol i.frameworks := by
    rw [importLines, importLines, hl]
  have hlandmarks := h.analyze_wired w hn i.mem_allFrameworks Integration.frameworks_ne_nil eol eol
  have hblock : (r.analyze content).importBlock content =
      imports ++ r.importLines eol i.frameworks :=
    h.importBlock_wired w hn i.mem_allFrameworks Integration.frameworks_ne_nil eol eol
  obtain ⟨hedits, hfound⟩ := importEdits_all r' eol h.point.endsLine h.absent_imports
    w.checked
  rw [hlines] at hedits hfound
  -- the call is taken out first, but stands behind the import lines
  have hperm : (r'.uninstallEdits content (r'.analyze content)).Perm
      (Piece.edits imports.size (Language.linePieces r.language eol i.frameworks ++
        [⟨c :: (t ++ ['{']), r.callLine eol, []⟩])) := by
    have hcalls : (r.analyze content).callEdits = Piece.edits
        (imports.size + (r.importLines eol i.frameworks).size)
        [⟨c :: (t ++ ['{']), r.callLine eol, []⟩] := by
      rw [Landmarks.callEdits, hlandmarks]
      rfl
    have hsize : (Piece.old (Language.linePieces r.language eol i.frameworks) []).size =
        (r.importLines eol i.frameworks).size := by
      rw [Language.old_linePieces, List.append_nil]
      rfl
    rw [uninstallEdits, hsame, hblock, hall, hedits, hl, hcalls, Piece.edits_append, hsize]
    exact List.perm_append_comm
  have hpos : ∀ p ∈ (Language.linePieces r.language eol i.frameworks ++
      [(⟨c :: (t ++ ['{']), r.callLine eol, []⟩ : Piece)]).tail,
        0 < p.kept.size + p.removed.size := by
    intro p hp
    rcases List.mem_append.1 (List.mem_of_mem_tail hp) with hp | hp
    · exact Language.linePieces_removed p hp
    · rw [List.mem_singleton.1 hp]
      have := size_callLine_pos r eol
      simp only
      omega
  have hsplice := splice_pieces_behind imports _ a hperm (Piece.pairwise_edits hpos)
  have hold : imports ++ Piece.old (Language.linePieces r.language eol i.frameworks ++
        [⟨c :: (t ++ ['{']), r.callLine eol, []⟩]) a = content := by
    rw [Piece.old_append, Language.old_linePieces, hcontent]
    simp [importLines, Language.importLines]
  have hnew : imports ++ Piece.new (Language.linePieces r.language eol i.frameworks ++
        [⟨c :: (t ++ ['{']), r.callLine eol, []⟩]) a = imports ++ c :: (t ++ '{' :: a) := by
    rw [Piece.new_append, Language.new_linePieces]
    simp
  rw [hold, hnew] at hsplice
  rw [hsame] at hsplice
  have hcount : (r.analyze content).startCalls.length = 1 := by rw [hlandmarks]; rfl
  rw [Recipe.uninstall]
  simp only [hsame, hsplice, hblock, hall, hfound, hcount]

/-- A recipe for an integration writes it, whatever else is configured. -/
theorem writes_configured (language : Language) (methodName : Text) (sourceName : String)
    {secret : Option Text} {services : List Service} {settings : Settings} {typeName indent : Text}
    (hi : Operation.integration secret services settings = .ok (.integrate i))
    (hindent : ∀ c ∈ indent, Text.isBlank c = true) (htype : Text.isIdentifier typeName = true) :
    ((forIntegration language i).configured typeName methodName indent sourceName).Writes i :=
  ⟨rfl, rfl, rfl, rfl, hindent, htype, Integration.checked_of_integration hi⟩

/-- **Removal undoes an installation.** -/
theorem uninstall_install {language : Language} {secret : Option Text} {services : List Service}
    {settings : Settings} {typeName methodName indent indent' : Text} {sourceName sourceName' : String}
    (hi : Operation.integration secret services settings = .ok (.integrate i))
    (hindent : ∀ c ∈ indent, Text.isBlank c = true) (htype : Text.isIdentifier typeName = true)
    (hkeyword : language = .swift → typeName ≠ "import".toList)
    (hsuits : ((forIntegration language i).configured typeName methodName indent sourceName).Suits
      content)
    (hout : ((forIntegration language i).configured typeName methodName indent
      sourceName).install content = .ok out) :
    ((forRemoval language).configured typeName methodName indent' sourceName').uninstall out.content =
      .ok ⟨content, [], i.frameworks, 1, false⟩ := by
  have w := writes_configured language methodName sourceName hi hindent htype
  obtain ⟨m, hm⟩ := methodBody_of_install hout
  obtain ⟨imports, c, t, a, rfl, h⟩ := hsuits.parts hm
  rw [h.install w rfl] at hout
  obtain rfl := Except.ok.inj hout
  exact h.uninstall w hkeyword rfl (analyze_congr rfl rfl rfl rfl rfl) rfl

/-- An integration with a secret that looks like code. -/
def guarded : Integration := .ofServices "/*\x7d])".toList [.crashes]

theorem integration_guarded :
    Operation.integration (some "/*\x7d])".toList) [.crashes] {} = .ok (.integrate guarded) := rfl

/-- A short Swift delegate. -/
theorem parts_short : ((forIntegration .swift guarded).configured "App".toList "run".toList
    ['\t'] "App.swift").Parts "import UIKit\n".toList 'c' "lass App \x7b func run() ".toList
      "\n\x7d \x7d\n".toList := by
  have hwhole : ((forIntegration .swift guarded).configured "App".toList "run".toList ['\t']
      "App.swift").analyze ("import UIKit\n".toList ++
        'c' :: ("lass App \x7b func run() ".toList ++ '{' :: "\n\x7d \x7d\n".toList)) =
      ⟨some 13, true, some 37, []⟩ := by decide +kernel
  have hrest : ((forIntegration .swift guarded).configured "App".toList "run".toList ['\t']
      "App.swift").analyze
        ('c' :: ("lass App \x7b func run() ".toList ++ '{' :: "\n\x7d \x7d\n".toList)) =
      ⟨none, true, some 24, []⟩ := by decide +kernel
  exact
    { absent := by decide
      offset := by rw [hwhole]; rfl
      body := by rw [hwhole]; rfl
      restImports := by rw [hrest]
      restBody := by rw [hrest]; rfl
      clear := by decide }

theorem uninstall_install_short : ∃ out,
    ((forIntegration .swift guarded).configured "App".toList "run".toList ['\t']
        "App.swift").install ("import UIKit\n".toList ++
          'c' :: ("lass App \x7b func run() ".toList ++ '{' :: "\n\x7d \x7d\n".toList)) = .ok out ∧
      ((forRemoval .swift).configured "App".toList "run".toList [] "App.swift").uninstall
          out.content =
        .ok ⟨"import UIKit\n".toList ++
          'c' :: ("lass App \x7b func run() ".toList ++ '{' :: "\n\x7d \x7d\n".toList), [],
          guarded.frameworks, 1, false⟩ :=
  have hout := parts_short.install (writes_configured _ _ _ integration_guarded (by decide) (by decide)) rfl
  ⟨_, hout, uninstall_install integration_guarded (by decide) (by decide) (by decide)
    parts_short.suits hout⟩

end Recipe

end SdkWiring
