import SdkWiring.Proofs.Delegate.Rewiring

/-!
# Wired delegates as text

A delegate that suits is wired without failure: the import lines of all frameworks stand between its
imports and the rest, and the start call stands behind the brace of its method. The kind of line
break is still the same.

* `Recipe.install_eq`: an installation, if the method was found.
* `Recipe.Parts.install`: the text of a wired delegate.
* `Recipe.Parts.importBlock_wired`, `Recipe.Parts.detect_wired`: its imports and its kind of line break.
-/

namespace SdkWiring

variable {r : Recipe} {i : Integration} {content imports t a x y : Text} {c d : Char} {m : Nat}
  {gs : List Text} {eol : LineBreak} {out : Outcome}

/-- The text up to the end of the imports. -/
theorem Landmarks.importBlock_append {l : Landmarks} (h : l.importOffset = imports.size) (y : Text) :
    l.importBlock (imports ++ y) = imports := by
  rw [importBlock, h, Text.splitAt?_append]
  rfl

namespace Recipe

/-- The type is found where the method is. -/
theorem typeFound_of_methodBody (h : (r.analyze content).methodBody = some m) :
    (r.analyze content).typeFound = true := by
  by_contra hn
  rw [methodBody_analyze] at h
  rw [analyze_eq] at hn
  have ho : Orderly (r.surveyed content) := orderly_run orderly_start
  have hseen : (r.surveyed content).typeSeen = false := by
    rw [← Bool.not_eq_true]
    exact hn
  rw [Survey.body?, ho.preferredBody hseen, ho.firstBody hseen] at h
  cases h

/-- **An installation**, if the method was found. -/
theorem install_eq (h : (r.analyze content).methodBody = some m) : r.install content =
    match splice content (r.installEdits content (r.analyze content) m) with
    | none => .error .misalignedEdit
    | some wired => .ok ⟨wired, r.missingFrameworks ((r.analyze content).importBlock content), [],
        (r.analyze content).startCalls.length, true⟩ := by
  rw [install]
  cases hsplice : splice content (r.installEdits content (r.analyze content) m) <;>
    simp only [typeFound_of_methodBody h, h, hsplice, if_true]

/-- What an installation makes of a delegate, and what it reports. -/
theorem splice_of_install (hm : (r.analyze content).methodBody = some m)
    (h : r.install content = .ok out) :
    splice content (r.installEdits content (r.analyze content) m) = some out.content ∧
      out.importsAdded = r.missingFrameworks ((r.analyze content).importBlock content) ∧
      out.callInserted = true := by
  rw [install_eq hm] at h
  split at h
  · cases h
  · rename_i wired hsplice
    obtain rfl := Except.ok.inj h
    exact ⟨hsplice, rfl, rfl⟩

/-- An installation whose edits belong to pieces. -/
theorem install_of_pieces {l : Landmarks} (ps : List Piece) (tail : Text)
    (hcontent : content = Piece.old ps tail) (hl : r.analyze content = l) (hm : l.methodBody = some m)
    (hperm : (r.installEdits content l m).Perm (Piece.edits 0 ps))
    (hps : ∀ p ∈ ps.tail, 0 < p.kept.size + p.removed.size) :
    ∃ out, r.install content = .ok out ∧ out.content = Piece.new ps tail := by
  have hsplice := splice_pieces ps tail hperm (Piece.pairwise_edits hps)
  rw [← hcontent] at hsplice
  exact ⟨_, by rw [install_eq (by rw [hl, hm]), hl, hsplice], rfl⟩

theorem methodBody_of_install (h : r.install content = .ok out) :
    ∃ m, (r.analyze content).methodBody = some m := by
  rw [install] at h
  split at h
  · cases hm : (r.analyze content).methodBody with
    | none =>
      rw [hm] at h
      cases h
    | some m => exact ⟨m, rfl⟩
  · cases h

theorem size_callLine_pos (r : Recipe) (eol : LineBreak) : 0 < (r.callLine eol).size := by
  have hpos : 0 < eol.text.size := by cases eol <;> decide
  simp only [callLine, Text.size_append]
  omega

/-- Nothing is imported yet by text that does not name the SDK. -/
theorem missingFrameworks_of_absent (hr : r.OfSdk) (hb : EndsLine imports.reverse)
    (habs : ¬ Service.core <:+: imports) : r.missingFrameworks imports = r.frameworks := by
  rw [missingFrameworks, List.filter_eq_self]
  intro f hf
  have hmem := hr.frameworks f hf
  have hnone : ∀ g ∈ ([] : List Text), Text.isIdentifier g = true := by simp
  have hno := r.language.occursIn_importLines .lf (Service.isIdentifier_of_mem hmem) hb
    (fun h => habs ((Service.core_infix_of_mem hmem).trans h)) hnone
  rw [show imports ++ Language.importLines r.language .lf [] = imports from List.append_nil _] at hno
  simp [hno]

namespace Parts

theorem absent_imports (h : r.Parts imports c t a) : ¬ Service.core <:+: imports :=
  fun hin => h.absent (hin.trans (List.prefix_append _ _).isInfix)

theorem size_front_pos (c : Char) (t : Text) : 0 < Text.size (c :: t) := by
  have := c.utf8Size_pos
  simp only [Text.size_cons]
  omega

/-- **The text of a wired delegate.** -/
theorem install (w : r.Writes i) (h : r.Parts imports c t a)
    (heol : LineBreak.detect (imports ++ c :: (t ++ '{' :: a)) = eol) :
    r.install (imports ++ c :: (t ++ '{' :: a)) =
      .ok ⟨imports ++ (r.importLines eol i.frameworks ++ c :: (t ++ '{' :: (r.callLine eol ++ a))),
        i.frameworks, [], 0, true⟩ := by
  have hblock := Landmarks.importBlock_append h.offset (c :: (t ++ '{' :: a))
  have hmissing : r.missingFrameworks imports = i.frameworks := by
    rw [missingFrameworks_of_absent w.ofSdk h.point.endsLine h.absent_imports, w.frameworks]
  rw [install_eq h.body, hblock, hmissing, h.startCalls w]
  have hperm : (r.installEdits (imports ++ c :: (t ++ '{' :: a))
      (r.analyze (imports ++ c :: (t ++ '{' :: a))) (imports.size + Text.size (c :: (t ++ ['{'])))).Perm
      (Piece.edits 0 [⟨imports, [], r.importLines eol i.frameworks⟩,
        ⟨c :: (t ++ ['{']), [], r.callLine eol⟩]) := by
    rw [installEdits, hblock, hmissing, heol, Landmarks.callEdits, h.startCalls w, h.offset,
      if_neg Integration.frameworks_ne_nil]
    simp only [Piece.edits_cons, Piece.edits_nil, Edit.insert, Text.size_nil, Nat.zero_add,
      Nat.add_zero, List.map_nil, List.nil_append]
    exact List.Perm.swap _ _ _
  have hsplice := splice_pieces _ a hperm (Piece.pairwise_edits ?_)
  · simp only [Piece.old_cons, Piece.old_nil, Piece.new_cons, Piece.new_nil, List.nil_append,
      List.cons_append, List.append_assoc] at hsplice
    rw [hsplice]
    simp
  · simp only [List.tail_cons, List.mem_singleton, forall_eq]
    have := size_front_pos c (t ++ ['{'])
    omega

/-- The import block of a wired delegate ends behind the new lines. -/
theorem importBlock_wired (w : r.Writes i) (hn : r.language = .swift → r.typeName ≠ "import".toList)
    (h : r.Parts imports c t a) (hgs : ∀ g ∈ gs, g ∈ Service.allFrameworks) (hne : gs ≠ [])
    (eol eol' : LineBreak) :
    (r.analyze (imports ++ (r.importLines eol gs ++
        c :: (t ++ '{' :: (r.callLine eol' ++ a))))).importBlock
      (imports ++ (r.importLines eol gs ++ c :: (t ++ '{' :: (r.callLine eol' ++ a)))) =
      imports ++ r.importLines eol gs := by
  rw [h.analyze_wired w hn hgs hne, ← List.append_assoc]
  refine Landmarks.importBlock_append ?_ _
  rw [Text.size_append]
  rfl

/-- **A wired delegate has the line breaks that it had.** -/
theorem detect_wired (w : r.Writes i) (h : r.Parts imports c t a)
    (hgs : ∀ g ∈ gs, g ∈ Service.allFrameworks)
    (heol : LineBreak.detect (imports ++ c :: (t ++ '{' :: a)) = eol) :
    LineBreak.detect
      (imports ++ (r.importLines eol gs ++ c :: (t ++ '{' :: (r.callLine eol ++ a)))) = eol := by
  refine (LineBreak.detect_congr ?_).trans heol
  have hid := fun g hg => Service.isIdentifier_of_mem (hgs g hg)
  have hfront : ∀ z : Text, c :: (t ++ '{' :: z) = (c :: t ++ ['{']) ++ z := by simp
  have hlast : (c :: t ++ ['{']).getLast? = some '{' := List.getLast?_concat
  rw [hfront, hfront]
  constructor
  · intro hin
    by_contra hno
    obtain rfl : eol = .lf := by
      cases hd : eol with
      | lf => rfl
      | crlf => exact absurd (LineBreak.detect_eq_crlf.1 (heol.trans hd)) (by rwa [hfront])
    -- what is written has no return in it, and does not come between a return and a feed
    have hlines : '\r' ∉ r.importLines .lf gs := Language.no_return_importLines hid
    have hcall : '\r' ∉ r.callLine .lf := by
      rw [callLine, LineBreak.text, List.append_assoc, List.mem_append, not_or]
      exact ⟨by decide, w.no_break.2⟩
    have hpair : ∀ {z : Text}, '\r' ∉ z → ¬ ['\r', '\n'] <:+: z := fun hz hin =>
      hz (hin.subset (by simp))
    have hstop : ∀ {z : Text}, '\r' ∉ z → z.getLast? ≠ some '\r' := fun hz hl =>
      hz (List.mem_of_getLast? hl)
    have himports : imports.getLast? ≠ some '\r' := fun hl =>
      absurd (h.point.endsLine.eq_of_getLast? hl) (by decide)
    rw [Text.infix_pair_append, Text.infix_pair_append (x := c :: t ++ ['{']), hlast] at hno
    rw [Text.infix_pair_append, Text.infix_pair_append (x := r.importLines .lf gs),
      Text.infix_pair_append (x := c :: t ++ ['{']), Text.infix_pair_append (x := r.callLine .lf),
      hlast] at hin
    simp only [himports, hpair hlines, hstop hlines, hpair hcall, hstop hcall, false_and, or_false,
      false_or] at hin hno
    rcases hin with hin | hin | hin | ⟨hbrace, -⟩
    · exact hno (.inl hin)
    · exact hno (.inr (.inl hin))
    · exact hno (.inr (.inr (.inl hin)))
    · exact absurd hbrace (by decide)
  · intro hin
    obtain rfl : eol = .crlf := by
      rw [← heol, hfront]
      exact LineBreak.detect_eq_crlf.2 hin
    refine List.infix_append_of_infix_right (List.infix_append_of_infix_right
      (List.infix_append_of_infix_right (List.infix_append_of_infix_left ?_)))
    exact ⟨[], r.indent ++ r.call, rfl⟩

end Parts

end Recipe

end SdkWiring
