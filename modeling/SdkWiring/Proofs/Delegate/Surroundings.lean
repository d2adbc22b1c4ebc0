import SdkWiring.Proofs.Delegate.Alike
import SdkWiring.Proofs.Text.Lines

/-!
# One text in two surroundings

A text up to an opening brace is scanned with different text before and behind it. From the same
mode on its positions look alike. Behind the first character they also agree on where an import line
ends, if the text begins a line in both surroundings.

* `twins_stretch`: the positions of the text, side by side.
* `Unmarked.transfer`: if no import line ends in one scan, none does in the other.
-/

namespace SdkWiring

variable {r : Recipe} {quoting : Quoting} {mode : Mode} {b b' a a' x t : Text} {c : Char}
  {p q : Position} {ps qs : List Position} {s : Survey} {φ : Nat → Nat}

/-- Positions that also agree on whether an import line ends there. -/
structure FullyMatched (r : Recipe) (φ : Nat → Nat) (p q : Position) : Prop extends
    Matched r φ p q where
  endsImports : r.endsImports p = r.endsImports q

/-- What stands behind an opening brace does not matter before it. -/
theorem Twin.place_brace (ht : Text.isIdentifier r.typeName = true) (mode : Mode) (b b' : Text)
    (c : Char) (t a a' : Text) :
    Twin r (mode.place b c (t ++ '{' :: a)) (mode.place b' c (t ++ '{' :: a')) where
  char := rfl
  significant := rfl
  level := rfl
  opensComment := by cases t <;> rfl
  typeMarker _ := (ObjectiveC.typeMarker_before ht _ b').trans
    (ObjectiveC.typeMarker_stop ht (x := c :: t))
  endMarker _ := by
    have hstop : '{' ∉ ObjectiveC.endMarker := by decide
    rw [Bool.eq_iff_iff, List.isPrefixOf_iff_prefix, List.isPrefixOf_iff_prefix]
    exact (Text.prefix_append_stop (x := c :: t) hstop).trans
      (Text.prefix_append_stop (x := c :: t) hstop).symm

/-- At the brace itself neither matters. -/
theorem Twin.brace (ht : Text.isIdentifier r.typeName = true) (mode : Mode) (b b' a a' : Text) :
    Twin r (mode.place b '{' a) (mode.place b' '{' a') where
  char := rfl
  significant := rfl
  level := rfl
  opensComment := rfl
  typeMarker _ := (ObjectiveC.typeMarker_before ht _ b').trans
    (ObjectiveC.typeMarker_stop ht (x := []))
  endMarker _ := rfl

/-- Behind the first character of a line, earlier lines do not matter for where import lines end. -/
theorem endsImports_place (hb : EndsLine b) (hb' : EndsLine b') (hx : x ≠ []) (mode : Mode) :
    r.endsImports (mode.place (x.reverse ++ b) c a) =
      r.endsImports (mode.place (x.reverse ++ b') c a') := by
  obtain ⟨x, d, rfl⟩ := (List.eq_nil_or_concat' x).resolve_left hx
  have hline : ∀ b a : Text, EndsLine b →
      (mode.place ((x ++ [d]).reverse ++ b) c a).previousLine =
        (mode.place (x ++ [d]).reverse c []).previousLine := by
    intro b a hb
    simp only [Position.previousLine, Mode.place, List.reverse_append, List.reverse_singleton,
      List.cons_append]
    split
    · rename_i heq
      obtain ⟨rfl, rfl⟩ := List.cons.inj heq
      rw [takeWhile_append_endsLine hb]
      rfl
    · rename_i hne
      split
      · rename_i heq
        obtain ⟨rfl, rfl⟩ := List.cons.inj heq
        exact absurd rfl (hne _)
      · rfl
  have hstart : ∀ b a : Text, (mode.place ((x ++ [d]).reverse ++ b) c a).atLineStart =
      (d == '\n') := by
    intro b a
    simp [Position.atLineStart, Mode.place]
  simp only [Recipe.endsImports, hline b a hb, hline b' a' hb', hstart]
  rfl

/-- **A text up to a brace, side by side**: behind its first characters the positions match in
full. -/
theorem twins_stretch (ht : Text.isIdentifier r.typeName = true) (hb : EndsLine b)
    (hb' : EndsLine b') (hx : x ≠ [])
    (hφ : ∀ n, n < (t ++ ['{']).size →
      φ (Text.size (x.reverse ++ b) + n + 1) = Text.size (x.reverse ++ b') + n + 1) :
    List.Forall₂ (FullyMatched r φ) (stretch quoting mode (x.reverse ++ b) (t ++ ['{']) a)
      (stretch quoting mode (x.reverse ++ b') (t ++ ['{']) a') := by
  induction t generalizing mode x with
  | nil =>
    have hbrace : 0 < '{'.utf8Size := by decide
    rw [List.nil_append, stretch_cons, stretch_cons, stretch_nil, stretch_nil]
    refine .cons ⟨⟨.brace ht mode _ _ _ _, hφ 0 ?_⟩, endsImports_place hb hb' hx mode⟩ .nil
    simpa using hbrace
  | cons c t ih =>
    -- the brace at the end keeps what follows it out of sight
    have hstep : ∀ a : Text, (t ++ ['{'] ++ a).head? = (t ++ ['{']).head? := by
      intro a
      cases t <;> rfl
    have hsize := c.utf8Size_pos
    rw [List.cons_append, stretch_cons, stretch_cons, hstep, hstep]
    refine .cons ⟨⟨?_, hφ 0 ?_⟩, endsImports_place hb hb' hx mode⟩ ?_
    · rw [List.append_assoc, List.append_assoc]
      exact .place_brace ht mode _ _ c t a a'
    · simp only [List.cons_append, Text.size_cons]
      omega
    · have hcons : ∀ b : Text, c :: (x.reverse ++ b) = (x ++ [c]).reverse ++ b := by
        intro b
        simp
      rw [hcons, hcons]
      refine ih (by simp) fun n hn => ?_
      have := hφ (c.utf8Size + n) (by simp only [List.cons_append, Text.size_cons]; omega)
      simp only [Text.size_append, Text.size_reverse, Text.size_cons, Text.size_nil] at this ⊢
      rw [show Text.size x + (c.utf8Size + 0) + b.size + n + 1 =
        Text.size x + b.size + (c.utf8Size + n) + 1 by omega, this]
      omega

/-- No import line ends at any position, as long as the type was not seen. -/
def Unmarked (r : Recipe) (s : Survey) (ps : List Position) : Prop :=
  ∀ xs p ys, ps = xs ++ p :: ys → (r.run s xs).typeSeen = true ∨ r.endsImports p = false

theorem unmarked_cons : Unmarked r s (p :: ps) ↔
    (s.typeSeen = true ∨ r.endsImports p = false) ∧ Unmarked r (r.survey s p) ps := by
  constructor
  · exact fun h => ⟨h [] p ps rfl, fun xs q ys hq => h (p :: xs) q ys (by rw [hq]; rfl)⟩
  · rintro ⟨hp, h⟩ xs q ys hq
    cases xs with
    | nil =>
      obtain ⟨rfl, -⟩ := List.cons.inj hq
      exact hp
    | cons x xs =>
      obtain ⟨rfl, hps⟩ := List.cons.inj hq
      exact h xs q ys hps

theorem Unmarked.endOfImports (h : Unmarked r s ps) :
    (r.run s ps).endOfImports = s.endOfImports := by
  induction ps generalizing s with
  | nil => rfl
  | cons p ps ih =>
    obtain ⟨hp, h⟩ := unmarked_cons.1 h
    rw [Recipe.run_cons, ih h]
    have hno : (!s.typeSeen && r.endsImports p) = false := by
      rcases hp with hp | hp <;> simp [hp]
    simp [Recipe.survey, hno]

/-- If no position is where the imports end, no import line ends there. -/
theorem unmarked_of_endOfImports (h : ∀ p ∈ ps, (r.run s ps).endOfImports ≠ some p.offset) :
    Unmarked r s ps := by
  rintro xs p ys rfl
  by_contra hn
  simp only [not_or, Bool.not_eq_true, Bool.not_eq_false] at hn
  have hmark : (r.run s (xs ++ [p])).endOfImports = some p.offset := by
    rw [Recipe.run_append, Recipe.run_cons, Recipe.run_nil]
    simp [Recipe.survey, hn]
  -- later positions can only move the end on to themselves
  have hlater : ∀ zs, (∀ q ∈ zs, q ∈ xs ++ p :: ys) →
      ∃ q ∈ xs ++ p :: ys, (r.run (r.run s (xs ++ [p])) zs).endOfImports = some q.offset := by
    intro zs
    induction zs using List.reverseRecOn with
    | nil => exact fun _ => ⟨p, by simp, hmark⟩
    | append_singleton zs q ih =>
      intro hzs
      obtain ⟨q', hq', he⟩ := ih fun q hq => hzs q (by simp [hq])
      rw [Recipe.run_append, Recipe.run_cons, Recipe.run_nil]
      simp only [Recipe.survey, he]
      split
      · exact ⟨q, hzs q (by simp), rfl⟩
      · exact ⟨q', hq', rfl⟩
  obtain ⟨q, hq, he⟩ := hlater ys fun q hq => by simp [hq]
  refine h q hq ?_
  rw [← he, ← Recipe.run_append, List.append_assoc, List.singleton_append]

/-- **No import line ends in the second scan** if none does in the first. -/
theorem Unmarked.transfer {E : Bool → Header → Header → Prop} {t : Survey} (hE : r.Indistinct E)
    (a : Alike φ s t) (e : E s.inType s.header t.header)
    (hw : List.Forall₂ (FullyMatched r φ) ps qs) (h : Unmarked r s ps) : Unmarked r t qs := by
  induction hw generalizing s t with
  | nil => exact fun xs q ys hq => by simp at hq
  | cons w _ ih =>
    obtain ⟨hp, h⟩ := unmarked_cons.1 h
    obtain ⟨a', e'⟩ := a.step hE e w.toMatched
    rw [a.typeSeen, w.endsImports] at hp
    exact unmarked_cons.2 ⟨hp, ih a' e' h⟩

end SdkWiring
