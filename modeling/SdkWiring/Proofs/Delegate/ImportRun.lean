import SdkWiring.Proofs.Delegate.Headers
import SdkWiring.Proofs.Delegate.ImportBlock

/-!
# A scan over rendered import lines

Import lines are quiet: they open and close nothing. What they leave behind is a longer header in
Swift, where no semicolon ends them, and an empty line in Objective-C. Right behind them the imports
end.

* `Language.importText_importLines`: what a Swift type header cannot lie across.
* `Recipe.typeSeen_importLines`: no type is found in import lines.
* `Recipe.header_importLines_swift`, `header_importLines_objectiveC`: the header behind them.
* `Recipe.endsImports_behind_importLines`: the imports end behind them.
-/

namespace SdkWiring

variable {r : Recipe} {language : Language} {quoting : Quoting} {s : Survey} {p : Position}
  {ps : List Position} {b a f v t : Text} {c : Char} {gs : List Text} {eol : LineBreak} {l : Nat}

theorem Service.isIdentifier_of_mem (hf : f ∈ Service.allFrameworks) :
    Text.isIdentifier f = true :=
  (by decide : ∀ f ∈ Service.allFrameworks, Text.isIdentifier f = true) f hf

namespace Language

/-- The characters of import lines besides names and line breaks. -/
theorem mem_importStatement (hc : c ∈ language.importStatement f) :
    c ∈ f ∨ c ∈ "@import ".toList ∨ language = .objectiveC ∧ c = ';' := by
  cases language with
  | swift =>
    rw [importStatement_swift, List.mem_append, List.mem_cons] at hc
    rcases hc with hc | rfl | hc
    · exact .inr (.inl ((by decide : ∀ c ∈ "import".toList, c ∈ "@import ".toList) c hc))
    · exact .inr (.inl (by decide))
    · exact .inl hc
  | objectiveC =>
    rw [importStatement_objectiveC, List.mem_append, List.mem_cons, List.mem_append,
      List.mem_singleton] at hc
    rcases hc with hc | rfl | hc | hc
    · exact .inr (.inl ((by decide : ∀ c ∈ "@import".toList, c ∈ "@import ".toList) c hc))
    · exact .inr (.inl (by decide))
    · exact .inl hc
    · exact .inr (.inr ⟨rfl, hc⟩)

theorem mem_importLines (hc : c ∈ importLines language eol gs) :
    (∃ g ∈ gs, c ∈ g) ∨ c ∈ "@import \r\n".toList ∨ language = .objectiveC ∧ c = ';' := by
  obtain ⟨g, hg, hc⟩ := List.mem_flatMap.1 hc
  rcases List.mem_append.1 hc with hc | hc
  · rcases mem_importStatement hc with hc | hc | hc
    · exact .inl ⟨g, hg, hc⟩
    · exact .inr (.inl ((by decide : ∀ c ∈ "@import ".toList, c ∈ "@import \r\n".toList) c hc))
    · exact .inr (.inr hc)
  · refine .inr (.inl ?_)
    cases eol with
    | lf => exact (by decide : ∀ c ∈ LineBreak.lf.text, c ∈ "@import \r\n".toList) c hc
    | crlf => exact (by decide : ∀ c ∈ LineBreak.crlf.text, c ∈ "@import \r\n".toList) c hc

theorem isQuiet_importLines (language : Language) (eol : LineBreak)
    (hgs : ∀ g ∈ gs, Text.isIdentifier g = true) :
    ∀ c ∈ importLines language eol gs, Text.isQuiet c = true := by
  intro c hc
  rcases mem_importLines hc with ⟨g, hg, hc⟩ | hc | ⟨-, rfl⟩
  · exact Text.isQuiet_of_isWord (Text.isWord_of_mem_identifier (hgs g hg) hc)
  · exact (by decide : ∀ c ∈ "@import \r\n".toList, Text.isQuiet c = true) c hc
  · decide

/-- A word without a line feed lies on one of the lines. -/
theorem infix_importLines (hne : v ≠ []) (hn : '\n' ∉ v)
    (hgs : ∀ g ∈ gs, Text.isIdentifier g = true) (h : v <:+: importLines language eol gs) :
    ∃ g ∈ gs, v <:+: language.importStatement g ++ ['\r'] := by
  induction gs with
  | nil => exact absurd (List.infix_nil.1 h) hne
  | cons g gs ih =>
    obtain ⟨body, hbody, -⟩ := language.importLine_split eol (hgs g (by simp))
    have hsplit : importLines language eol (g :: gs) = body ++ '\n' :: importLines language eol gs := by
      rw [importLines_cons, ← List.append_assoc, hbody, List.append_assoc, List.singleton_append]
    rw [hsplit, Text.infix_append_stop hn] at h
    rcases h with h | h
    · refine ⟨g, by simp, h.trans ?_⟩
      cases eol with
      | lf =>
        rw [← (List.append_inj' hbody rfl).1]
        exact (List.prefix_append _ _).isInfix
      | crlf =>
        have hcr : language.importStatement g ++ ['\r'] ++ ['\n'] = body ++ ['\n'] := by
          rw [← hbody]
          simp [LineBreak.text]
        rw [(List.append_inj' hcr rfl).1]
    · obtain ⟨g', hg', h⟩ := ih (fun g' hg' => hgs g' (by simp [hg'])) h
      exact ⟨g', by simp [hg'], h⟩

theorem no_return_importLines (hgs : ∀ g ∈ gs, Text.isIdentifier g = true) :
    '\r' ∉ importLines language .lf gs := by
  intro hc
  obtain ⟨g, hg, hc⟩ := List.mem_flatMap.1 hc
  rcases List.mem_append.1 hc with hc | hc
  · rcases mem_importStatement hc with hc | hc | ⟨-, hc⟩
    · exact absurd (Text.isWord_of_mem_identifier (hgs g hg) hc) (by decide)
    · exact absurd hc (by decide)
    · exact absurd hc (by decide)
  · exact absurd hc (by decide)

theorem importLines_ne_nil (hne : gs ≠ []) : importLines language eol gs ≠ [] := by
  obtain ⟨g, gs, rfl⟩ := List.exists_cons_of_ne_nil hne
  rw [importLines_cons]
  cases language <;> cases eol <;> simp [LineBreak.text]

/-- Import lines of the SDK are text that no type header starts or lies in. -/
theorem importText_importLines (hgs : ∀ g ∈ gs, g ∈ Service.allFrameworks) (hne : gs ≠ [])
    (eol : LineBreak) : Swift.ImportText (importLines .swift eol gs) := by
  have hid := fun g hg => Service.isIdentifier_of_mem (hgs g hg)
  refine ⟨?_, ?_, fun kw hkw hin => ?_⟩
  · obtain ⟨g, gs, rfl⟩ := List.exists_cons_of_ne_nil hne
    rw [importLines_cons, importStatement_swift]
    exact ⟨g ++ (eol.text ++ importLines .swift eol gs), by
      rw [List.append_assoc, List.cons_append]⟩
  · have hend := endsLine_importLines .swift eol (b := []) hid rfl
    rw [List.append_nil] at hend
    obtain ⟨z, hz⟩ := split_endsLine hend (x := []) (y := importLines .swift eol gs) rfl
      (importLines_ne_nil hne)
    rw [hz]
    simp
  · have hkeyword : ∀ kw ∈ Swift.typeKeywords, kw ≠ [] ∧ '\n' ∉ kw ∧
        ∀ g ∈ Service.allFrameworks,
          ¬ kw <:+: importStatement .swift g ++ ['\r'] := by decide
    obtain ⟨hkne, hkn, hkno⟩ := hkeyword kw hkw
    obtain ⟨g, hg, hin⟩ := infix_importLines hkne hkn hid hin
    exact hkno g (hgs g hg) hin

end Language

namespace Recipe

/-- Quiet text without semicolons is recorded as it is. -/
theorem header_quiet (ht : ∀ c ∈ t, Text.isQuiet c = true ∧ c ≠ ';') :
    (r.run s (stretch quoting ⟨.code, l⟩ b t a)).header.text = s.header.text ++ t := by
  induction t generalizing s b with
  | nil => simp
  | cons c t ih =>
    obtain ⟨hquiet, hsemi⟩ := ht c (by simp)
    rw [stretch_cons, step_quiet hquiet, run_cons, ih fun d hd => ht d (by simp [hd])]
    set p := (Mode.mk .code l).place b c (t ++ a) with hp
    have hchar : p.char = c := rfl
    have hsig : p.significant = true := rfl
    simp only [Text.isQuiet, Bool.and_eq_true, bne_iff_ne, ne_eq] at hquiet
    obtain ⟨⟨⟨⟨h₁, h₂⟩, h₃⟩, h₄⟩, h₅⟩ := hquiet
    have hends : p.endsHeader = false := by
      simp [Position.endsHeader, hchar, h₄, h₅, hsemi]
    have hplain : p.isPlain = true := by
      simp [Position.isPlain, Position.opensComment, hchar, hsig, h₁, h₂, h₃]
    have hnext : (r.survey s p).header.text = s.header.text ++ [c] := by
      change (s.header.next p).text = _
      rw [Header.next_of_not_endsHeader hends, Header.text_record, hplain]
      rfl
    rw [hnext, List.append_assoc, List.singleton_append]

/-- **No type is found in import lines.** -/
theorem typeSeen_importLines (hgs : ∀ g ∈ gs, g ∈ Service.allFrameworks)
    (hs : s.typeSeen = false) : (r.run s (stretch quoting ⟨.code, l⟩ b
      (r.language.importLines eol gs) a)).typeSeen = false := by
  have hid := fun g hg => Service.isIdentifier_of_mem (hgs g hg)
  refine run_induction (P := fun s => s.typeSeen = false) hs fun s p hp hs => ?_
  obtain ⟨x, y, hx, hplace⟩ := stretch_split_of_mem hp
  have hquiet := r.language.isQuiet_importLines eol hid p.char (by rw [hx]; simp)
  suffices hopen : r.opensType s.header p = false by simp [survey, hs, hopen]
  cases hl : r.language with
  | swift =>
    have hlive : p.live '{' = false := by
      simp only [Text.isQuiet, Bool.and_eq_true, bne_iff_ne, ne_eq] at hquiet
      simp [Position.live, hquiet.1.2]
    simp [opensType, hl, hlive]
  | objectiveC =>
    -- the marker of a type is on no import line
    have hmark : (ObjectiveC.typeMarker r).matchesAt p.cursor = false := by
      rw [← Bool.not_eq_true]
      intro hm
      have hpre := List.isPrefixOf_iff_prefix.1 (ObjectiveC.marker_of_typeMarker r p hm)
      have hfore : p.forepart = p.char :: y ++ a := by
        rw [Position.forepart, congrArg Position.after hplace]
        rfl
      have hin : ObjectiveC.implementationMarker <:+: r.language.importLines eol gs := by
        have hlast := r.language.endsLine_importLines eol (b := []) hid rfl
        rw [List.append_nil] at hlast
        obtain ⟨z, hz⟩ := Language.split_endsLine hlast hx (by simp)
        rw [hfore, hz, List.append_assoc, List.singleton_append,
          Text.prefix_append_stop (by decide)] at hpre
        exact hpre.isInfix.trans ⟨x, ['\n'], by rw [hx, hz, List.append_assoc]⟩
      obtain ⟨g, hg, hin⟩ := Language.infix_importLines (by decide) (by decide) hid hin
      rw [hl] at hin
      exact (by decide +kernel : ∀ g ∈ Service.allFrameworks, ¬ ObjectiveC.implementationMarker <:+:
        Language.importStatement .objectiveC g ++ ['\r']) g (hgs g hg) hin
    simp [opensType, hl, hmark]

/-- In Swift the header goes on over import lines. -/
theorem header_importLines_swift (hl : r.language = .swift)
    (hgs : ∀ g ∈ gs, Text.isIdentifier g = true) :
    (r.run s (stretch quoting ⟨.code, l⟩ b (r.language.importLines eol gs) a)).header.text =
      s.header.text ++ r.language.importLines eol gs := by
  refine header_quiet fun c hc => ⟨r.language.isQuiet_importLines eol hgs c hc, ?_⟩
  rintro rfl
  rcases Language.mem_importLines hc with ⟨g, hg, hc⟩ | hc | ⟨h, -⟩
  · exact absurd (Text.isWord_of_mem_identifier (hgs g hg) hc) (by decide)
  · exact absurd hc (by decide)
  · rw [hl] at h
    cases h

/-- In Objective-C only the last line break is left of the header behind import lines. -/
theorem header_importLines_objectiveC (hl : r.language = .objectiveC)
    (hgs : ∀ g ∈ gs, Text.isIdentifier g = true) (hne : gs ≠ []) :
    (r.run s (stretch quoting ⟨.code, l⟩ b (r.language.importLines eol gs) a)).header.text =
      eol.text := by
  obtain ⟨gs, g, rfl⟩ := (List.eq_nil_or_concat' gs).resolve_left hne
  obtain ⟨x, hx⟩ : ∃ x, r.language.importLines eol (gs ++ [g]) = x ++ ';' :: eol.text := by
    refine ⟨r.language.importLines eol gs ++ ("@import".toList ++ ' ' :: g), ?_⟩
    rw [Language.importLines_append, Language.importLines_cons, hl,
      Language.importStatement_objectiveC]
    simp [Language.importLines]
  have hquiet := r.language.isQuiet_importLines eol hgs
  rw [hx] at hquiet ⊢
  rw [stretch_append, behind_quiet fun c hc => hquiet c (by simp [hc]), stretch_cons,
    step_quiet (by decide), run_append, run_cons, header_quiet fun c hc => ⟨hquiet c (by simp [hc]), ?_⟩]
  · rfl
  · rintro rfl
    cases eol <;> exact absurd hc (by decide)

/-- **The imports end behind import lines.** -/
theorem endsImports_behind_importLines (hgs : ∀ g ∈ gs, g ∈ Service.allFrameworks) (hne : gs ≠ [])
    (hb : EndsLine b) (hsig : p.significant = true) (hlevel : p.level = 0)
    (hbefore : p.before = (r.language.importLines eol gs).reverse ++ b) :
    r.endsImports p = true := by
  obtain ⟨gs, g, rfl⟩ := (List.eq_nil_or_concat' gs).resolve_left hne
  have hg := hgs g (by simp)
  obtain ⟨body, hbody, hn⟩ := r.language.importLine_split eol (Service.isIdentifier_of_mem hg)
  have hlines : r.language.importLines eol (gs ++ [g]) =
      r.language.importLines eol gs ++ (body ++ ['\n']) := by
    rw [Language.importLines_append, ← hbody]
    simp [Language.importLines]
  -- the line in front of the position is the last one that was written
  have hprev : p.previousLine = body ++ ['\n'] := by
    have hid : ∀ g ∈ gs, Text.isIdentifier g = true := fun g hg =>
      Service.isIdentifier_of_mem (hgs g (List.mem_append_left _ hg))
    have hstart := r.language.endsLine_importLines eol hid hb
    have hall : ∀ c ∈ body.reverse, (c != '\n') = true := fun c hc => by
      simpa using fun e : c = '\n' => hn (by rw [← e]; simpa using hc)
    rw [Position.previousLine, hbefore, hlines]
    rw [show ((r.language.importLines eol gs ++ (body ++ ['\n'])).reverse ++ b) =
      '\n' :: (body.reverse ++ ((r.language.importLines eol gs).reverse ++ b)) by simp]
    change ((body.reverse ++ ((r.language.importLines eol gs).reverse ++ b)).takeWhile
      (· != '\n')).reverse ++ ['\n'] = _
    rw [takeWhile_append_endsLine hstart, ← List.append_nil body.reverse,
      List.takeWhile_append_of_pos hall]
    simp
  have hstart : p.atLineStart = true := by
    rw [Position.atLineStart, hbefore, hlines]
    simp
  have hmatch : r.language.anyImport.matchesAt (.start (body ++ ['\n'])) = true := by
    rw [← hbody]
    have hall : ∀ language eol, ∀ g ∈ Service.allFrameworks, (Language.anyImport language).matchesAt
        (.start (language.importStatement g ++ LineBreak.text eol)) = true := by
      intro language eol
      cases language <;> cases eol <;> decide +kernel
    exact hall _ _ g hg
  simp [endsImports, hsig, hlevel, hstart, hprev, hmatch]

end Recipe

end SdkWiring
