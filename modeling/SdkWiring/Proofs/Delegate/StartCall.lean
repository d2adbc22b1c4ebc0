import SdkWiring.Proofs.Delegate.CallShape
import SdkWiring.Proofs.Delegate.Step

/-!
# Start calls in the text

A start call is recognised at a position by the text that stands there. The span that is recorded
runs from before the indentation of the call to the end that its shape gives it.

* `Swift.callAt?_eq_some`, `ObjectiveC.callAt?_eq_some`: the text of a recognised call.
-/

namespace SdkWiring

variable {r : Recipe} {p : Position} {call : Span}

namespace Swift

/-- **The text of a Swift start call.** -/
theorem callAt?_eq_some (hl : r.language = .swift) (hs : Text.isIdentifier r.selector = true) :
    r.callAt? p = some call ↔ p.significant = true ∧ continuesExpression p = false ∧
      ∃ s₁ s₂ s₃ u rest, (∀ x ∈ s₁ ++ s₂ ++ s₃, Text.isSpace x = true) ∧
        p.forepart = callWords r s₁ s₂ s₃ ++ '(' :: (u ++ ')' :: rest) ∧ '\n' ∉ u ∧
        ')' ∉ rest.takeWhile (· != '\n') ∧
        call = ⟨(Survey.beforeIndent p.before).size,
          p.offset + (callWords r s₁ s₂ s₃ ++ '(' :: (u ++ [')'])).size⟩ := by
  rw [Recipe.callAt?_swift hl, Option.ite_none_right_eq_some]
  simp only [Bool.and_eq_true, Bool.not_eq_true', Survey.callAt?, Option.map_eq_some_iff,
    mem_callHead, end?_callShape hs]
  constructor
  · rintro ⟨⟨⟨hsig, -⟩, hcont⟩, -, ⟨⟨ob, oa⟩, ⟨s₁, s₂, s₃, hsp, hfore, rfl⟩, u, rest, rfl, hu, hrest,
      rfl⟩, rfl⟩
    refine ⟨hsig, hcont, s₁, s₂, s₃, u, rest, hsp, hfore, hu, hrest, ?_⟩
    simp only [Cursor.offset, Position.cursor, Position.offset, Text.size_append, Text.size_cons,
      Text.size_nil, Text.size_reverse, Span.mk.injEq, true_and]
    omega
  · rintro ⟨hsig, hcont, s₁, s₂, s₃, u, rest, hsp, hfore, hu, hrest, rfl⟩
    have hpre : r.receiver.isPrefixOf p.forepart = true := by
      rw [List.isPrefixOf_iff_prefix, hfore, callWords, List.append_assoc]
      exact List.prefix_append _ _
    refine ⟨⟨⟨hsig, hpre⟩, hcont⟩, _, ⟨⟨'(' :: ((callWords r s₁ s₂ s₃).reverse ++ p.before), _⟩,
      ⟨s₁, s₂, s₃, hsp, hfore, rfl⟩, u, rest, rfl, hu, hrest, rfl⟩, ?_⟩
    simp only [Cursor.offset, Position.offset, Text.size_append, Text.size_cons,
      Text.size_nil, Text.size_reverse, Span.mk.injEq, true_and]
    omega

end Swift

namespace ObjectiveC

/-- **The text of an Objective-C start call.** -/
theorem callAt?_eq_some (hl : r.language = .objectiveC)
    (hr : Text.isIdentifier r.receiver = true) (hs : Text.isIdentifier r.selector = true) :
    r.callAt? p = some call ↔ p.significant = true ∧
      ∃ s₁ s₂ u rest, (∀ x ∈ s₁ ++ s₂, Text.isSpace x = true) ∧ s₂ ≠ [] ∧
        p.forepart = callWords r s₁ s₂ ++ (u ++ ';' :: rest) ∧ ';' ∉ u ∧
        (u ++ [';']).head?.any Text.isWord = false ∧
        call = ⟨(Survey.beforeIndent p.before).size,
          p.offset + (callWords r s₁ s₂ ++ (u ++ [';'])).size⟩ := by
  have hborder : ∀ (s₁ s₂ b u rest : Text),
      ((((callWords r s₁ s₂).reverse ++ b).head?.any Text.isWord !=
        (u ++ ';' :: rest).head?.any Text.isWord) = true ↔
      (u ++ [';']).head?.any Text.isWord = false) := by
    intro s₁ s₂ b u rest
    -- the selector ends with a character of a word
    have hlast : ((callWords r s₁ s₂).reverse ++ b).head?.any Text.isWord = true := by
      obtain ⟨t, c, ht, hw⟩ := Text.exists_last_of_identifier hs
      simp [callWords, ht, hw]
    have hhead : (u ++ ';' :: rest).head? = (u ++ [';']).head? := by
      cases u <;> rfl
    rw [hlast, hhead]
    simp
  rw [Recipe.callAt?_objectiveC hl, Option.ite_none_right_eq_some]
  simp only [Survey.callAt?, Option.map_eq_some_iff, end?_callShape hr hs, mem_callHead]
  constructor
  · rintro ⟨hlive, -, ⟨⟨ob, oa⟩, ⟨s₁, s₂, hsp, hne, hfore, rfl, hb⟩, u, rest, rfl, hu, rfl⟩, rfl⟩
    refine ⟨(Position.live_iff.1 hlive).1, s₁, s₂, u, rest, hsp, hne, hfore, hu,
      (hborder s₁ s₂ _ u rest).1 hb, ?_⟩
    simp only [Cursor.offset, Position.cursor, Position.offset, Text.size_append, Text.size_cons,
      Text.size_nil, Text.size_reverse, Span.mk.injEq, true_and]
    omega
  · rintro ⟨hsig, s₁, s₂, u, rest, hsp, hne, hfore, hu, hb, rfl⟩
    have hlive : p.live '[' = true := by
      rw [callWords, List.cons_append, Position.forepart] at hfore
      simp [Position.live, hsig, (List.cons.inj hfore).1]
    refine ⟨hlive, _, ⟨⟨(callWords r s₁ s₂).reverse ++ p.before, _⟩,
      ⟨s₁, s₂, hsp, hne, hfore, rfl, (hborder s₁ s₂ _ u rest).2 hb⟩, u, rest, rfl, hu, rfl⟩, ?_⟩
    simp only [Cursor.offset, Position.offset, Text.size_append, Text.size_cons,
      Text.size_nil, Text.size_reverse, Span.mk.injEq, true_and]
    omega

end ObjectiveC

end SdkWiring
