import SdkWiring.Proofs.Delegate.CallShape
import SdkWiring.Proofs.Delegate.Surroundings
import SdkWiring.Proofs.Sdk.Rendered

/-!
# The lines of imports

The pattern of one framework matches whole lines only, and only lines that import this framework. So
in a block of rendered import lines behind other text it is found once for each line of its own.

* `Language.importOf_iff`: the text of a match.
* `Language.end?_importOf_line`: where a rendered line is matched.
* `Language.findAll_importLines`, `Language.occursIn_importLines`: what is found in a block.
-/

namespace SdkWiring

namespace Text

variable {x x' y y' : Text} {f : Char → Bool}

/-- A run of characters of a class before one that is not in it is cut off in one way. -/
theorem append_inj_of_run (h : x ++ y = x' ++ y') (hx : ∀ c ∈ x, f c = true)
    (hx' : ∀ c ∈ x', f c = true) (hy : y.head?.any f = false) (hy' : y'.head?.any f = false) :
    x = x' ∧ y = y' := by
  have hrun : ∀ {x y : Text}, (∀ c ∈ x, f c = true) → y.head?.any f = false →
      (x ++ y).takeWhile f = x := by
    intro x y hx hy
    rw [List.takeWhile_append_of_pos hx]
    cases y with
    | nil => simp
    | cons c y =>
      have hc : ¬ f c = true := by simpa using hy
      rw [List.takeWhile_cons_of_neg hc, List.append_nil]
  have hxx : x = x' := by rw [← hrun hx hy, h, hrun hx' hy']
  exact ⟨hxx, List.append_cancel_left (hxx ▸ h)⟩

end Text

namespace Language

open Pattern

/-- The text of an import line before the end of the line. -/
def IsImport (language : Language) (f u : Text) : Prop :=
  match language with
  | .swift => ∃ s₀ s₁ s₂, (∀ c ∈ s₀ ++ s₁ ++ s₂, Text.isBlank c = true) ∧ s₁ ≠ [] ∧
      u = s₀ ++ ("import".toList ++ (s₁ ++ (f ++ s₂)))
  | .objectiveC => ∃ s₀ s₁ s₂ s₃, (∀ c ∈ s₀ ++ s₁ ++ s₂ ++ s₃, Text.isBlank c = true) ∧ s₁ ≠ [] ∧
      u = s₀ ++ ("@import".toList ++ (s₁ ++ (f ++ (s₂ ++ ';' :: s₃))))

/-- The end of a line: its break or the end of the text. -/
def AtLineEnd (e : Text) : Prop := e = [] ∨ e.head? = some '\n' ∨ ['\r', '\n'] <+: e

variable {language : Language} {f u : Text} {b a e : Text}

theorem importEnd_iff {c : Cursor} : (∃ d, d ∈ importEnd c) ↔ ∃ s e, c.after = s ++ e ∧
    (∀ x ∈ s, Text.isBlank x = true) ∧ AtLineEnd e := by
  simp only [importEnd, lineBreak, lineEnd, mem_append, mem_many, mem_few, mem_orElse, mem_optional,
    mem_literal, mem_guard, Cursor.advance, Bool.or_eq_true, List.isEmpty_iff, beq_iff_eq]
  constructor
  · rintro ⟨d, -, ⟨s, e, hs, hblank, rfl⟩, hd⟩
    refine ⟨s, e, hs, hblank, ?_⟩
    rcases hd with ⟨m, hm, rest, hrest, -⟩ | ⟨h, -⟩
    · rcases hm with ⟨rest', he, rfl⟩ | rfl
      · exact .inr (.inr ⟨rest, by rw [show e = _ from he, show rest' = _ from hrest]; rfl⟩)
      · exact .inr (.inl (by rw [show e = _ from hrest]; rfl))
    · rcases h with h | h
      · exact .inl h
      · exact .inr (.inl h)
  · rintro ⟨s, e, hs, hblank, he | he | ⟨rest, rfl⟩⟩
    · exact ⟨_, _, ⟨s, e, hs, hblank, rfl⟩, .inr ⟨.inl he, rfl⟩⟩
    · exact ⟨_, _, ⟨s, e, hs, hblank, rfl⟩, .inr ⟨.inr he, rfl⟩⟩
    · exact ⟨_, _, ⟨s, _, hs, hblank, rfl⟩, .inl ⟨_, .inl ⟨'\n' :: rest, rfl, rfl⟩, rest, rfl, rfl⟩⟩

/-- The pattern of a Swift import line before the end of the line. -/
def swiftHead (f : Text) : Pattern :=
  lineStart ++ (many Text.isBlank ++ (literal "import".toList ++ (many1 Text.isBlank ++ literal f)))

/-- The pattern of an Objective-C import line before the end of the line. -/
def objectiveCHead (f : Text) : Pattern :=
  lineStart ++ (many Text.isBlank ++ (literal "@import".toList ++ (many1 Text.isBlank
    ++ (literal f ++ (many Text.isBlank ++ literal ";".toList)))))

theorem importOf_swift (f : Text) : importOf .swift f = swiftHead f ++ importEnd := by
  change lineStart ++ many Text.isBlank ++ literal "import".toList ++ many1 Text.isBlank
      ++ literal f ++ importEnd = _
  simp only [swiftHead, append_assoc]

theorem importOf_objectiveC (f : Text) :
    importOf .objectiveC f = objectiveCHead f ++ importEnd := by
  change lineStart ++ many Text.isBlank ++ literal "@import".toList ++ many1 Text.isBlank
      ++ literal f ++ many Text.isBlank ++ literal ";".toList ++ importEnd = _
  simp only [objectiveCHead, append_assoc]

/-- A match that ends with its line. -/
theorem exists_mem_importEnd {p : Pattern} {c : Cursor} : (∃ d, d ∈ (p ++ importEnd) c) ↔
    ∃ m ∈ p c, ∃ s e, m.after = s ++ e ∧ (∀ x ∈ s, Text.isBlank x = true) ∧ AtLineEnd e := by
  simp only [mem_append]
  constructor
  · rintro ⟨d, m, hm, hd⟩
    exact ⟨m, hm, importEnd_iff.1 ⟨d, hd⟩⟩
  · rintro ⟨m, hm, h⟩
    obtain ⟨d, hd⟩ := importEnd_iff.2 h
    exact ⟨d, m, hm, hd⟩

theorem importOf_swift_iff : (importOf .swift f).matchesAt ⟨b, a⟩ = true ↔
    EndsLine b ∧ ∃ u e, a = u ++ e ∧ IsImport .swift f u ∧ AtLineEnd e := by
  rw [matchesAt_iff, importOf_swift, exists_mem_importEnd]
  simp only [swiftHead, mem_append, lineStart, mem_guard, lineStart_iff, mem_many, mem_few,
    mem_many1, mem_literal, Cursor.advance]
  constructor
  · rintro ⟨-, ⟨-, ⟨hb, rfl⟩, -, ⟨s₀, -, rfl, h₀, rfl⟩, -, ⟨-, rfl, rfl⟩, -,
      ⟨x, s₁, -, rfl, h₁, rfl⟩, rest, rfl, rfl⟩, s₂, e, rfl, h₂, he⟩
    refine ⟨hb, s₀ ++ ("import".toList ++ (x :: s₁ ++ (f ++ s₂))), e, by simp,
      ⟨s₀, x :: s₁, s₂, ?_, by simp, rfl⟩, he⟩
    simp only [List.mem_append]
    rintro c ((hc | hc) | hc)
    · exact h₀ c hc
    · exact h₁ c hc
    · exact h₂ c hc
  · rintro ⟨hb, -, e, rfl, ⟨s₀, s₁, s₂, h, hne, rfl⟩, he⟩
    obtain ⟨x, s₁, rfl⟩ := List.exists_cons_of_ne_nil hne
    simp only [List.mem_append] at h
    exact ⟨_, ⟨_, ⟨hb, rfl⟩, _, ⟨s₀, "import".toList ++ (x :: s₁ ++ (f ++ (s₂ ++ e))), by simp,
      fun c hc => h c (.inl (.inl hc)), rfl⟩, _, ⟨_, rfl, rfl⟩, _,
      ⟨x, s₁, _, rfl, fun c hc => h c (.inl (.inr hc)), rfl⟩, s₂ ++ e, rfl, rfl⟩, s₂, e, rfl,
      fun c hc => h c (.inr hc), he⟩

theorem importOf_objectiveC_iff : (importOf .objectiveC f).matchesAt ⟨b, a⟩ = true ↔
    EndsLine b ∧ ∃ u e, a = u ++ e ∧ IsImport .objectiveC f u ∧ AtLineEnd e := by
  rw [matchesAt_iff, importOf_objectiveC, exists_mem_importEnd]
  simp only [objectiveCHead, mem_append, lineStart, mem_guard, lineStart_iff, mem_many, mem_few,
    mem_many1, mem_literal, Cursor.advance]
  constructor
  · rintro ⟨-, ⟨-, ⟨hb, rfl⟩, -, ⟨s₀, -, rfl, h₀, rfl⟩, -, ⟨-, rfl, rfl⟩, -,
      ⟨x, s₁, -, rfl, h₁, rfl⟩, -, ⟨-, rfl, rfl⟩, -, ⟨s₂, -, rfl, h₂, rfl⟩, rest, rfl, rfl⟩, s₃, e,
      rfl, h₃, he⟩
    refine ⟨hb, s₀ ++ ("@import".toList ++ (x :: s₁ ++ (f ++ (s₂ ++ ';' :: s₃)))), e, by simp,
      ⟨s₀, x :: s₁, s₂, s₃, ?_, by simp, rfl⟩, he⟩
    simp only [List.mem_append]
    rintro c (((hc | hc) | hc) | hc)
    · exact h₀ c hc
    · exact h₁ c hc
    · exact h₂ c hc
    · exact h₃ c hc
  · rintro ⟨hb, -, e, rfl, ⟨s₀, s₁, s₂, s₃, h, hne, rfl⟩, he⟩
    obtain ⟨x, s₁, rfl⟩ := List.exists_cons_of_ne_nil hne
    simp only [List.mem_append] at h
    exact ⟨_, ⟨_, ⟨hb, rfl⟩, _,
      ⟨s₀, "@import".toList ++ (x :: s₁ ++ (f ++ (s₂ ++ (";".toList ++ (s₃ ++ e))))), by simp,
        fun c hc => h c (.inl (.inl (.inl hc))), rfl⟩, _, ⟨_, rfl, rfl⟩, _,
      ⟨x, s₁, _, rfl, fun c hc => h c (.inl (.inl (.inr hc))), rfl⟩, _, ⟨_, rfl, rfl⟩, _,
      ⟨s₂, _, rfl, fun c hc => h c (.inl (.inr hc)), rfl⟩, s₃ ++ e, rfl, rfl⟩, s₃, e, rfl,
      fun c hc => h c (.inr hc), he⟩

/-- **The text of a match**: a line that imports the framework, up to its end. -/
theorem importOf_iff : (importOf language f).matchesAt ⟨b, a⟩ = true ↔
    EndsLine b ∧ ∃ u e, a = u ++ e ∧ IsImport language f u ∧ AtLineEnd e := by
  cases language with
  | swift => exact importOf_swift_iff
  | objectiveC => exact importOf_objectiveC_iff

variable {g : Text} {gs : List Text} {eol : LineBreak} {rest x y : Text}

/-- A match stays on its line, and names the framework. -/
theorem IsImport.spec (hf : Text.isIdentifier f = true) (h : IsImport language f u) :
    '\n' ∉ u ∧ f <:+: u := by
  have hname : '\n' ∉ f := fun hn =>
    absurd (Text.isWord_of_mem_identifier hf hn) (by decide)
  have hblank : ∀ {s : Text}, (∀ c ∈ s, Text.isBlank c = true) → '\n' ∉ s := fun h hn =>
    absurd (h _ hn) (by decide)
  cases language with
  | swift =>
    obtain ⟨s₀, s₁, s₂, h, -, rfl⟩ := h
    refine ⟨?_, s₀ ++ ("import".toList ++ s₁), s₂, by simp⟩
    have hs := hblank h
    simp only [List.mem_append, not_or] at hs ⊢
    exact ⟨hs.1.1, by decide, hs.1.2, hname, hs.2⟩
  | objectiveC =>
    obtain ⟨s₀, s₁, s₂, s₃, h, -, rfl⟩ := h
    refine ⟨?_, s₀ ++ ("@import".toList ++ s₁), s₂ ++ ';' :: s₃, by simp⟩
    have hs := hblank h
    simp only [List.mem_append, List.mem_cons, not_or] at hs ⊢
    exact ⟨hs.1.1.1, by decide, hs.1.1.2, hname, hs.1.2, by decide, hs.2⟩

/-- A match has no character that a scan reacts to. -/
theorem IsImport.isQuiet (hf : Text.isIdentifier f = true) (h : IsImport language f u) :
    ∀ c ∈ u, Text.isQuiet c = true := by
  have hname : ∀ c ∈ f, Text.isQuiet c = true := fun c hc =>
    Text.isQuiet_of_isWord (Text.isWord_of_mem_identifier hf hc)
  have hblank : ∀ {c}, Text.isBlank c = true → Text.isQuiet c = true := fun h =>
    Text.isQuiet_of_isSpace (Text.isSpace_of_isBlank h)
  cases language with
  | swift =>
    obtain ⟨s₀, s₁, s₂, hs, -, rfl⟩ := h
    simp only [List.mem_append] at hs ⊢
    rintro c (hc | hc | hc | hc | hc)
    · exact hblank (hs c (.inl (.inl hc)))
    · exact (by decide : ∀ c ∈ "import".toList, Text.isQuiet c = true) c hc
    · exact hblank (hs c (.inl (.inr hc)))
    · exact hname c hc
    · exact hblank (hs c (.inr hc))
  | objectiveC =>
    obtain ⟨s₀, s₁, s₂, s₃, hs, -, rfl⟩ := h
    simp only [List.mem_append, List.mem_cons] at hs ⊢
    rintro c (hc | hc | hc | hc | hc | rfl | hc)
    · exact hblank (hs c (.inl (.inl (.inl hc))))
    · exact (by decide : ∀ c ∈ "@import".toList, Text.isQuiet c = true) c hc
    · exact hblank (hs c (.inl (.inl (.inr hc))))
    · exact hname c hc
    · exact hblank (hs c (.inl (.inr hc)))
    · decide
    · exact hblank (hs c (.inr hc))

/-- No match starts in whole lines that do not name the framework. -/
theorem importOf_absent (hf : Text.isIdentifier f = true) (hx : x = y ++ ['\n'])
    (habs : ¬ f <:+: y) : (importOf language f).matchesAt ⟨b, x ++ rest⟩ = false := by
  rw [← Bool.not_eq_true, importOf_iff]
  rintro ⟨-, u, e, h, hu, -⟩
  obtain ⟨hn, hin⟩ := hu.spec hf
  rw [hx, List.append_assoc, List.singleton_append] at h
  have hpre : u <+: y := (Text.prefix_append_stop hn).1 ⟨e, h.symm⟩
  exact habs (hin.trans hpre.isInfix)

theorem importOf_nil (hf : Text.isIdentifier f = true) :
    (importOf language f).matchesAt ⟨b, []⟩ = false := by
  rw [← Bool.not_eq_true, importOf_iff]
  rintro ⟨-, u, e, h, hu, -⟩
  obtain ⟨-, hin⟩ := hu.spec hf
  obtain ⟨rfl, -⟩ := List.append_eq_nil_iff.1 h.symm
  rw [List.infix_nil.1 hin] at hf
  cases hf

/-- No match starts in the middle of a line. -/
theorem importOf_inside (hx : x ≠ []) (hn : '\n' ∉ x) :
    (importOf language f).matchesAt ⟨x.reverse ++ b, a⟩ = false := by
  rw [← Bool.not_eq_true, importOf_iff]
  rintro ⟨hb, -⟩
  obtain ⟨x, c, rfl⟩ := (List.eq_nil_or_concat' x).resolve_left hx
  have hc : c = '\n' := by simpa [EndsLine] using hb
  exact hn (by simp [hc])

theorem importStatement_swift (g : Text) :
    importStatement .swift g = "import".toList ++ ' ' :: g := by
  have hkw : ∀ {x y : Text}, x = y ++ [' '] → x ++ g = y ++ ' ' :: g := by
    rintro x y rfl
    simp
  exact hkw (by decide : "import ".toList = "import".toList ++ [' '])

theorem importStatement_objectiveC (g : Text) :
    importStatement .objectiveC g = "@import".toList ++ ' ' :: (g ++ [';']) := by
  have hkw : ∀ {x y : Text}, x = y ++ [' '] → x ++ g ++ [';'] = y ++ ' ' :: (g ++ [';']) := by
    rintro x y rfl
    simp
  exact hkw (by decide : "@import ".toList = "@import".toList ++ [' '])

theorem atLineEnd_eol (eol : LineBreak) (z : Text) : AtLineEnd (eol.text ++ z) := by
  cases eol with
  | lf => exact .inr (.inl rfl)
  | crlf => exact .inr (.inr ⟨z, rfl⟩)

theorem isWord_head?_blanks (hs : ∀ c ∈ x, Text.isBlank c = true)
    (he : e.head?.any Text.isWord = false) : (x ++ e).head?.any Text.isWord = false := by
  cases x with
  | nil => exact he
  | cons c x =>
    have hc := hs c (by simp)
    simp only [Text.isBlank, Bool.or_eq_true, beq_iff_eq] at hc
    rcases hc with rfl | rfl <;> rfl

theorem isWord_head?_lineEnd (he : AtLineEnd e) : e.head?.any Text.isWord = false := by
  rcases he with rfl | he | ⟨rest, rfl⟩
  · rfl
  · rw [he]
    rfl
  · rfl

theorem isBlank_head?_identifier (hg : Text.isIdentifier g = true) (z : Text) :
    (g ++ z).head?.any Text.isBlank = false := by
  obtain ⟨⟨c, t', rfl, -⟩, hw⟩ := Text.isIdentifier_iff.1 hg
  have hs := Text.isSpace_of_isWord (hw c (by simp))
  cases hc : Text.isBlank c with
  | false => simpa using hc
  | true =>
    rw [Text.isSpace_of_isBlank hc] at hs
    cases hs

/-- Blanks, a keyword, blanks and a name are read off a rendered line in one way. -/
theorem line_unique {kw s₀ s₁ z z' : Text}
    (h : s₀ ++ (kw ++ (s₁ ++ (f ++ z))) = kw ++ ' ' :: (g ++ z'))
    (hkw : kw.head?.any Text.isBlank = false) (hne : kw ≠ [])
    (hf : Text.isIdentifier f = true) (hg : Text.isIdentifier g = true)
    (h₀ : ∀ c ∈ s₀, Text.isBlank c = true) (h₁ : ∀ c ∈ s₁, Text.isBlank c = true)
    (hz : z.head?.any Text.isWord = false) (hz' : z'.head?.any Text.isWord = false) : f = g := by
  obtain ⟨k, kw, rfl⟩ := List.exists_cons_of_ne_nil hne
  have hkeyword : s₀ ++ (k :: kw ++ (s₁ ++ (f ++ z))) = [] ++ (k :: kw ++ ' ' :: (g ++ z')) := h
  obtain ⟨-, h₂⟩ := Text.append_inj_of_run hkeyword h₀ (by simp) hkw hkw
  have hname : s₁ ++ (f ++ z) = [' '] ++ (g ++ z') := List.append_cancel_left h₂
  obtain ⟨-, h₄⟩ := Text.append_inj_of_run hname h₁ (by decide) (isBlank_head?_identifier hf z)
    (isBlank_head?_identifier hg z')
  exact (Text.append_inj_of_run h₄ (fun c hc => Text.isWord_of_mem_identifier hf hc)
    (fun c hc => Text.isWord_of_mem_identifier hg hc) hz hz').1

/-- **A rendered line imports one framework only.** -/
theorem importOf_line_iff (hf : Text.isIdentifier f = true) (hg : Text.isIdentifier g = true)
    (hb : EndsLine b) : (importOf language f).matchesAt
      ⟨b, language.importStatement g ++ (eol.text ++ rest)⟩ = true ↔ f = g := by
  have heol := atLineEnd_eol eol rest
  have hwordEol := isWord_head?_lineEnd heol
  rw [importOf_iff]
  cases language with
  | swift =>
    rw [importStatement_swift]
    constructor
    · rintro ⟨-, -, e, h, ⟨s₀, s₁, s₂, hs, -, rfl⟩, he⟩
      simp only [List.mem_append] at hs
      have hline : s₀ ++ ("import".toList ++ (s₁ ++ (f ++ (s₂ ++ e)))) =
          "import".toList ++ ' ' :: (g ++ (eol.text ++ rest)) := by
        simpa only [List.append_assoc, List.cons_append] using h.symm
      exact line_unique hline (by decide) (by decide) hf hg (fun c hc => hs c (.inl (.inl hc)))
        (fun c hc => hs c (.inl (.inr hc)))
        (isWord_head?_blanks (fun c hc => hs c (.inr hc)) (isWord_head?_lineEnd he)) hwordEol
    · rintro rfl
      exact ⟨hb, "import".toList ++ ' ' :: f, eol.text ++ rest, rfl,
        ⟨[], [' '], [], by decide, by decide, by simp⟩, heol⟩
  | objectiveC =>
    rw [importStatement_objectiveC]
    constructor
    · rintro ⟨-, -, e, h, ⟨s₀, s₁, s₂, s₃, hs, -, rfl⟩, he⟩
      simp only [List.mem_append] at hs
      have hline : s₀ ++ ("@import".toList ++ (s₁ ++ (f ++ (s₂ ++ ';' :: (s₃ ++ e))))) =
          "@import".toList ++ ' ' :: (g ++ ';' :: (eol.text ++ rest)) := by
        simpa only [List.append_assoc, List.cons_append, List.nil_append] using h.symm
      exact line_unique hline (by decide) (by decide) hf hg
        (fun c hc => hs c (.inl (.inl (.inl hc)))) (fun c hc => hs c (.inl (.inl (.inr hc))))
        (isWord_head?_blanks (fun c hc => hs c (.inl (.inr hc))) rfl) rfl
    · rintro rfl
      exact ⟨hb, "@import".toList ++ ' ' :: (f ++ [';']), eol.text ++ rest, rfl,
        ⟨[], [' '], [], [], by decide, by decide, by simp⟩, heol⟩

theorem AtLineEnd.exists_break (h : AtLineEnd e) (hne : e ≠ []) : ∃ eol rest, e = LineBreak.text eol ++ rest := by
  rcases h with rfl | h | ⟨rest, rfl⟩
  · exact absurd rfl hne
  · obtain ⟨rest, rfl⟩ := List.head?_eq_some_iff.1 h
    exact ⟨.lf, rest, rfl⟩
  · exact ⟨.crlf, rest, rfl⟩

theorem refuses_lineBreak : Refuses (lineBreak <|> lineEnd) Text.isBlank := by
  intro b x a hx
  simp only [Text.isBlank, Bool.or_eq_true, beq_iff_eq] at hx
  rcases hx with rfl | rfl <;> rfl

/-- The end of a line is matched with its break. -/
theorem end?_importEnd {s : Text} (eol : LineBreak) (b rest : Text)
    (hs : ∀ c ∈ s, Text.isBlank c = true) : importEnd.end? ⟨b, s ++ (eol.text ++ rest)⟩ =
      some ⟨(s ++ eol.text).reverse ++ b, rest⟩ := by
  have hrest : (eol.text ++ rest).takeWhile Text.isBlank = [] ∧
      (eol.text ++ rest).dropWhile Text.isBlank = eol.text ++ rest := by
    cases eol <;> exact ⟨rfl, rfl⟩
  have hrun : importEnd ⟨b, s ++ (eol.text ++ rest)⟩ =
      (lineBreak <|> lineEnd) ⟨s.reverse ++ b, eol.text ++ rest⟩ := by
    rw [importEnd, many_append_apply refuses_lineBreak, List.takeWhile_append_of_pos hs,
      List.dropWhile_append_of_pos hs, hrest.1, hrest.2, List.append_nil]
  rw [end?, hrun, List.reverse_append, List.append_assoc]
  cases eol <;> rfl

/-- What is matched before the end of a line has one end only, on the line. -/
theorem importOf_head (language : Language) (hf : Text.isIdentifier f = true) :
    ∃ head, importOf language f = head ++ importEnd ∧ Unambiguous head ∧ ∀ c m, m ∈ head c →
      ∃ part, c.after = part ++ m.after ∧ m.before = part.reverse ++ c.before ∧ '\n' ∉ part := by
  obtain ⟨k, hk, hw⟩ := Text.exists_head_of_identifier hf
  have hblank : Text.isBlank k = false := by
    obtain ⟨t, rfl⟩ := List.head?_eq_some_iff.1 hk
    simpa using isBlank_head?_identifier hf []
  have hname : '\n' ∉ f := fun hn =>
    absurd (Text.isWord_of_mem_identifier hf hn) (by decide)
  have hblanks : ∀ {s : Text}, (∀ c ∈ s, Text.isBlank c = true) → '\n' ∉ s := fun h hn =>
    absurd (h _ hn) (by decide)
  cases language with
  | swift =>
    refine ⟨swiftHead f, importOf_swift f, ?_, fun c m hm => ?_⟩
    · refine (unambiguous_guard _).append (.many ?_ ((refuses_literal rfl).append _))
      exact (unambiguous_literal _).append (.many1 (unambiguous_literal _)
        (refuses_literal_of_head hk hblank))
    · simp only [swiftHead, mem_append, lineStart, mem_guard, mem_many, mem_few, mem_many1,
        mem_literal, Cursor.advance] at hm
      obtain ⟨_, ⟨-, rfl⟩, _, ⟨s₀, _, h, h₀, rfl⟩, _, ⟨_, rfl, rfl⟩, _,
        ⟨x, s₁, _, rfl, h₁, rfl⟩, rest, rfl, rfl⟩ := hm
      refine ⟨s₀ ++ ("import".toList ++ (x :: s₁ ++ f)), by simp [h], by simp, ?_⟩
      simp only [List.mem_append, not_or]
      exact ⟨hblanks h₀, by decide, hblanks h₁, hname⟩
  | objectiveC =>
    refine ⟨objectiveCHead f, importOf_objectiveC f, ?_, fun c m hm => ?_⟩
    · refine (unambiguous_guard _).append (.many ?_ ((refuses_literal rfl).append _))
      refine (unambiguous_literal _).append
        (.many1 ?_ ((refuses_literal_of_head hk hblank).append _))
      exact (unambiguous_literal _).append (.many (unambiguous_literal _) (refuses_literal rfl))
    · simp only [objectiveCHead, mem_append, lineStart, mem_guard, mem_many, mem_few, mem_many1,
        mem_literal, Cursor.advance] at hm
      obtain ⟨_, ⟨-, rfl⟩, _, ⟨s₀, _, h, h₀, rfl⟩, _, ⟨_, rfl, rfl⟩, _,
        ⟨x, s₁, _, rfl, h₁, rfl⟩, _, ⟨_, rfl, rfl⟩, _, ⟨s₂, _, rfl, h₂, rfl⟩, rest, rfl, rfl⟩ := hm
      refine ⟨s₀ ++ ("@import".toList ++ (x :: s₁ ++ (f ++ (s₂ ++ ";".toList)))), by simp [h],
        by simp, ?_⟩
      simp only [List.mem_append, not_or]
      exact ⟨hblanks h₀, by decide, hblanks h₁, hname, hblanks h₂, by decide⟩

/-- **A line that is matched is matched as a whole**, with its break. -/
theorem end?_importOf (hf : Text.isIdentifier f = true) (hn : '\n' ∉ u)
    (h : (importOf language f).matchesAt ⟨b, u ++ '\n' :: rest⟩ = true) :
    (importOf language f).end? ⟨b, u ++ '\n' :: rest⟩ = some ⟨'\n' :: (u.reverse ++ b), rest⟩ := by
  obtain ⟨head, heq, hhead, hmoves⟩ := importOf_head language hf
  obtain ⟨d, hd⟩ := matchesAt_iff.1 h
  rw [heq, mem_append] at hd
  obtain ⟨m, hm, hd⟩ := hd
  obtain ⟨s, e, hafter, hs, he⟩ := importEnd_iff.1 ⟨d, hd⟩
  obtain ⟨part, hpart, hbefore, hnpart⟩ := hmoves _ m hm
  have hns : '\n' ∉ s := fun hmem => absurd (hs _ hmem) (by decide)
  have htext : u ++ '\n' :: rest = part ++ s ++ e := by
    rw [List.append_assoc, ← hafter]
    exact hpart
  have hne : e ≠ [] := by
    rintro rfl
    have hmem : '\n' ∈ part ++ s ++ [] := htext ▸ by simp
    simp [hnpart, hns] at hmem
  obtain ⟨eol, rest', rfl⟩ := he.exists_break hne
  have hend := end?_importEnd eol m.before rest' hs
  rw [← hafter, hbefore] at hend
  rw [heq, end?_append hhead hm]
  have hm' : m = ⟨part.reverse ++ b, m.after⟩ := by rw [← hbefore]
  rw [hm', hend]
  -- the line ends at its first line feed
  obtain ⟨z, hz, hnz⟩ : ∃ z, eol.text = z ++ ['\n'] ∧ '\n' ∉ z := by
    cases eol with
    | lf => exact ⟨[], rfl, by decide⟩
    | crlf => exact ⟨['\r'], rfl, by decide⟩
  rw [hz, ← List.append_assoc, ← List.append_assoc, List.append_assoc, List.singleton_append]
    at htext
  have hu : u = part ++ s ++ z := Text.eq_of_first hn (by simp [hnpart, hns, hnz]) htext
  rw [hu] at htext ⊢
  obtain rfl : rest = rest' := (List.cons.inj (List.append_cancel_left htext)).2
  rw [hz]
  simp

/-- An import statement is on one line. -/
theorem no_feed_importStatement (language : Language) (hg : Text.isIdentifier g = true) :
    '\n' ∉ language.importStatement g := by
  have hname : '\n' ∉ g := fun hn =>
    absurd (Text.isWord_of_mem_identifier hg hn) (by decide)
  cases language with
  | swift =>
    rw [importStatement_swift, List.mem_append, List.mem_cons, not_or, not_or]
    exact ⟨by decide, by decide, hname⟩
  | objectiveC =>
    rw [importStatement_objectiveC, List.mem_append, List.mem_cons, List.mem_append, not_or,
      not_or, not_or]
    exact ⟨by decide, by decide, hname, by decide⟩

/-- A rendered line breaks at its end only. -/
theorem importLine_split (language : Language) (eol : LineBreak) (hg : Text.isIdentifier g = true) :
    ∃ body, language.importStatement g ++ eol.text = body ++ ['\n'] ∧ '\n' ∉ body := by
  have hstmt := language.no_feed_importStatement hg
  cases eol with
  | lf => exact ⟨_, rfl, hstmt⟩
  | crlf =>
    refine ⟨language.importStatement g ++ ['\r'], by simp [LineBreak.text], ?_⟩
    rw [List.mem_append, not_or]
    exact ⟨hstmt, by decide⟩

/-- A rendered line is matched as a whole. -/
theorem end?_importOf_line (language : Language) (eol : LineBreak) (rest : Text)
    (hf : Text.isIdentifier f = true) (hb : EndsLine b) :
    (importOf language f).end? ⟨b, language.importStatement f ++ (eol.text ++ rest)⟩ =
      some ⟨(language.importStatement f ++ eol.text).reverse ++ b, rest⟩ := by
  have hmatch : (importOf language f).matchesAt
      ⟨b, language.importStatement f ++ (eol.text ++ rest)⟩ = true :=
    (importOf_line_iff hf hf hb).2 rfl
  obtain ⟨body, hbody, hn⟩ := language.importLine_split eol hf
  rw [← List.append_assoc, hbody, List.append_assoc, List.singleton_append] at hmatch ⊢
  rw [end?_importOf hf hn hmatch]
  simp

/-- The lines that import frameworks. -/
def importLines (language : Language) (eol : LineBreak) (gs : List Text) : Text :=
  gs.flatMap fun g => language.importStatement g ++ eol.text

theorem importLines_cons : importLines language eol (g :: gs) =
    language.importStatement g ++ (eol.text ++ importLines language eol gs) := by
  simp [importLines]

theorem importLines_append (gs hs : List Text) : importLines language eol (gs ++ hs) =
    importLines language eol gs ++ importLines language eol hs := by
  simp [importLines]

theorem endsLine_importLine (language : Language) (eol : LineBreak)
    (hg : Text.isIdentifier g = true) (b : Text) :
    EndsLine ((language.importStatement g ++ eol.text).reverse ++ b) := by
  obtain ⟨body, h, -⟩ := language.importLine_split eol hg
  rw [h]
  simp [EndsLine]

theorem endsLine_importLines (language : Language) (eol : LineBreak)
    (hgs : ∀ g ∈ gs, Text.isIdentifier g = true) (hb : EndsLine b) :
    EndsLine ((importLines language eol gs).reverse ++ b) := by
  induction gs generalizing b with
  | nil => exact hb
  | cons g gs ih =>
    have h := ih (fun g' hg' => hgs g' (by simp [hg']))
      (language.endsLine_importLine eol (hgs g (by simp)) b)
    rw [importLines_cons]
    simpa using h

/-- Lines of other frameworks are passed over. -/
theorem find?_importLines_skip (language : Language) (eol : LineBreak) (a : Text)
    (hf : Text.isIdentifier f = true) (hgs : ∀ g ∈ gs, Text.isIdentifier g = true) (hnot : f ∉ gs)
    (hb : EndsLine b) :
    (importOf language f).find? ⟨b, importLines language eol gs ++ a⟩ =
      (importOf language f).find? ⟨(importLines language eol gs).reverse ++ b, a⟩ := by
  induction gs generalizing b with
  | nil => rfl
  | cons g gs ih =>
    have hg := hgs g (by simp)
    obtain ⟨body, hbody, hn⟩ := language.importLine_split eol hg
    have hline : ∀ x y, language.importStatement g ++ eol.text = x ++ y → y ≠ [] →
        (importOf language f).matchesAt ⟨x.reverse ++ b, y ++ (importLines language eol gs ++ a)⟩
          = false := by
      intro x y hxy hy
      by_cases hx : x = []
      · rw [← Bool.not_eq_true]
        subst hx
        rw [List.nil_append] at hxy
        rw [← hxy, List.append_assoc, List.reverse_nil, List.nil_append,
          importOf_line_iff hf hg hb]
        exact fun e => hnot (by simp [e])
      · refine importOf_inside hx fun hmem => hn ?_
        rw [hbody] at hxy
        obtain ⟨y, c, rfl⟩ := (List.eq_nil_or_concat' y).resolve_left hy
        rw [← List.append_assoc] at hxy
        rw [(List.append_inj' hxy rfl).1]
        exact List.mem_append_left _ hmem
    have hskip := Pattern.find?_skip (p := importOf language f) hline
    have hrest := ih (b := (language.importStatement g ++ eol.text).reverse ++ b)
      (fun g' hg' => hgs g' (by simp [hg'])) (fun h => hnot (by simp [h]))
      (language.endsLine_importLine eol hg b)
    rw [importLines_cons]
    rw [← List.append_assoc] at hskip ⊢
    simpa using hskip.trans hrest

/-- Only a framework of the lines is found in them. -/
theorem mem_of_importLines (language : Language) (eol : LineBreak) (hf : Text.isIdentifier f = true)
    (hgs : ∀ g ∈ gs, Text.isIdentifier g = true) (hb : EndsLine b)
    (h : importLines language eol gs = x ++ y)
    (hm : (importOf language f).matchesAt ⟨x.reverse ++ b, y⟩ = true) : f ∈ gs := by
  by_contra hnot
  have hskip := language.find?_importLines_skip eol [] hf hgs hnot hb
  rw [List.append_nil, find?_nil (importOf_nil hf)] at hskip
  have hno := find?_eq_none hskip x y h
  rw [Cursor.advance, hm] at hno
  cases hno

variable {block : Text}

theorem split_endsLine (hb : EndsLine block.reverse) (h : block = x ++ y) (hy : y ≠ []) :
    ∃ z, y = z ++ ['\n'] := by
  obtain ⟨z, c, rfl⟩ := (List.eq_nil_or_concat' y).resolve_left hy
  refine ⟨z, ?_⟩
  rw [h] at hb
  have hc : c = '\n' := by simpa [EndsLine] using hb
  rw [hc]

/-- Earlier lines that do not name the framework are passed over. -/
theorem find?_block_skip (language : Language) (a : Text) (hf : Text.isIdentifier f = true)
    (hb : EndsLine block.reverse) (habs : ¬ f <:+: block) :
    (importOf language f).find? (.start (block ++ a)) =
      (importOf language f).find? ⟨block.reverse, a⟩ := by
  have hskip := Pattern.find?_skip (p := importOf language f) (t := block) (b := []) (a := a)
    fun x y hxy hy => by
      obtain ⟨z, hz⟩ := split_endsLine hb hxy hy
      refine importOf_absent hf hz fun hin => habs (hin.trans ?_)
      exact ⟨x, ['\n'], by rw [hxy, hz, List.append_assoc]⟩
  simpa [Cursor.start] using hskip

/-- A framework without a line is not found. -/
theorem findAll_importLines_absent (language : Language) (eol : LineBreak)
    (hf : Text.isIdentifier f = true) (hb : EndsLine block.reverse) (habs : ¬ f <:+: block)
    (hgs : ∀ g ∈ gs, Text.isIdentifier g = true) (hnot : f ∉ gs) :
    (importOf language f).findAll (.start (block ++ importLines language eol gs)) = [] := by
  refine findAll_of_find?_none ?_
  have hskip := language.find?_importLines_skip eol [] hf hgs hnot hb
  rw [List.append_nil] at hskip
  rw [language.find?_block_skip _ hf hb habs, hskip, find?_nil (importOf_nil hf)]

/-- **A framework with one line is found there**, and nowhere else. -/
theorem findAll_importLines (language : Language) (eol : LineBreak) (gs hs : List Text)
    (hf : Text.isIdentifier f = true) (hb : EndsLine block.reverse) (habs : ¬ f <:+: block)
    (hgs : ∀ g ∈ gs ++ hs, Text.isIdentifier g = true) (hnot : f ∉ gs ++ hs) :
    (importOf language f).findAll (.start (block ++ importLines language eol (gs ++ f :: hs))) =
      [(⟨(block ++ importLines language eol gs).reverse, importLines language eol (f :: hs)⟩,
        ⟨(block ++ importLines language eol (gs ++ [f])).reverse, importLines language eol hs⟩)] := by
  simp only [List.mem_append, not_or] at hgs hnot
  have hgs' := fun g hg => hgs g (.inl hg)
  have hhs' := fun g hg => hgs g (.inr hg)
  have hlines := language.endsLine_importLines eol hgs' hb
  have hend := language.end?_importOf_line eol (importLines language eol hs) hf hlines
  rw [← importLines_cons] at hend
  have hfind := language.find?_block_skip (importLines language eol (gs ++ f :: hs)) hf hb habs
  rw [importLines_append, language.find?_importLines_skip eol _ hf hgs' hnot.1 hb, find?_of_end? hend] at hfind
  have hrest : (importOf language f).findAll ⟨(language.importStatement f ++ eol.text).reverse ++
      ((importLines language eol gs).reverse ++ block.reverse), importLines language eol hs⟩ = [] := by
    have hskip := language.find?_importLines_skip eol [] hf hhs' hnot.2
      (language.endsLine_importLine eol hf ((importLines language eol gs).reverse ++ block.reverse))
    rw [List.append_nil] at hskip
    refine findAll_of_find?_none ?_
    rw [hskip, find?_nil (importOf_nil hf)]
  rw [importLines_append gs (f :: hs), findAll_of_find? hfind ?_, hrest]
  · simp [importLines]
  · simp only [Cursor.start, importLines_cons, List.length_append]
    have hpos : 0 < eol.text.length := by cases eol <;> decide
    omega

/-- **What stands behind whole lines** does not matter for a match in them. -/
theorem importOf_append_iff (hf : Text.isIdentifier f = true) (ha : EndsLine a.reverse)
    (hne : a ≠ []) (z : Text) : (importOf language f).matchesAt ⟨b, a ++ z⟩ = true ↔
      (importOf language f).matchesAt ⟨b, a⟩ = true := by
  obtain ⟨w, hw⟩ := split_endsLine (x := []) ha rfl hne
  have hcut : ∀ {u e z : Text}, '\n' ∉ u → w ++ '\n' :: z = u ++ e →
      ∃ v, w = u ++ v ∧ e = v ++ '\n' :: z := by
    intro u e z hn h
    obtain ⟨v, rfl⟩ := (Text.prefix_append_stop hn).1 ⟨e, h.symm⟩
    rw [List.append_assoc] at h
    exact ⟨v, rfl, (List.append_cancel_left h).symm⟩
  have hend : ∀ v, AtLineEnd (v ++ '\n' :: z) ↔ AtLineEnd (v ++ ['\n']) := by
    intro v
    rcases v with _ | ⟨d, _ | ⟨d', v⟩⟩ <;> simp [AtLineEnd, List.cons_prefix_cons]
  rw [importOf_iff, importOf_iff, hw, List.append_assoc, List.singleton_append]
  refine and_congr_right fun _ => ⟨?_, ?_⟩
  · rintro ⟨u, e, h, hu, he⟩
    obtain ⟨v, rfl, rfl⟩ := hcut (hu.spec hf).1 h
    exact ⟨u, v ++ ['\n'], by simp, hu, (hend v).1 he⟩
  · rintro ⟨u, e, h, hu, he⟩
    obtain ⟨v, rfl, rfl⟩ := hcut (hu.spec hf).1 h
    exact ⟨u, v ++ '\n' :: z, by simp, hu, (hend v).2 he⟩

theorem ne_nil_of_importOf (hf : Text.isIdentifier f = true)
    (h : (importOf language f).matchesAt ⟨b, a⟩ = true) : a ≠ [] := by
  rintro rfl
  rw [importOf_nil hf] at h
  cases h

/-- What is imported before a place is imported before a later one. -/
theorem occursIn_importOf_append (hf : Text.isIdentifier f = true) (hb : EndsLine block.reverse)
    (h : (importOf language f).occursIn block = true) (z : Text) :
    (importOf language f).occursIn (block ++ z) = true := by
  rw [occursIn_iff] at h ⊢
  obtain ⟨x, y, rfl, hm⟩ := h
  have hne := ne_nil_of_importOf hf hm
  obtain ⟨w, hw⟩ := split_endsLine hb rfl hne
  exact ⟨x, y ++ z, by simp, (importOf_append_iff hf (by simp [hw, EndsLine]) hne z).2 hm⟩

/-- A framework with a line in a block is imported there. -/
theorem occursIn_importLines_of_mem (language : Language) (eol : LineBreak)
    (hf : Text.isIdentifier f = true) (hb : EndsLine block.reverse)
    (hgs : ∀ g ∈ gs, Text.isIdentifier g = true) (hmem : f ∈ gs) (z : Text) :
    (importOf language f).occursIn (block ++ (importLines language eol gs ++ z)) = true := by
  obtain ⟨gs₁, gs₂, rfl⟩ := List.append_of_mem hmem
  rw [occursIn_iff]
  refine ⟨block ++ importLines language eol gs₁, importLines language eol (f :: gs₂) ++ z, ?_, ?_⟩
  · rw [importLines_append]
    simp
  · rw [List.reverse_append, importLines_cons, List.append_assoc, List.append_assoc]
    exact (importOf_line_iff hf hf
      (language.endsLine_importLines eol (fun g hg => hgs g (by simp [hg])) hb)).2 rfl

/-- **What is imported by a block of lines** behind text that does not name the framework. -/
theorem occursIn_importLines (language : Language) (eol : LineBreak)
    (hf : Text.isIdentifier f = true) (hb : EndsLine block.reverse) (habs : ¬ f <:+: block)
    (hgs : ∀ g ∈ gs, Text.isIdentifier g = true) :
    (importOf language f).occursIn (block ++ importLines language eol gs) = decide (f ∈ gs) := by
  by_cases hmem : f ∈ gs
  · have h := language.occursIn_importLines_of_mem eol hf hb hgs hmem []
    rw [List.append_nil] at h
    rw [h, decide_eq_true hmem]
  · have hskip := language.find?_importLines_skip eol [] hf hgs hmem hb
    rw [List.append_nil] at hskip
    rw [occursIn_eq_isSome, language.find?_block_skip _ hf hb habs, hskip, find?_nil (importOf_nil hf),
      decide_eq_false hmem]
    rfl

end Language

end SdkWiring
