import SdkWiring.Proofs.Delegate.Run
import SdkWiring.Proofs.Delegate.StartCall
import SdkWiring.Proofs.Scan.Balance
import SdkWiring.Proofs.Text.Parts

/-!
# Where an Objective-C start call ends

The statement that a start call makes ends at a live semicolon, outside of the brackets and braces
that it opened. What is recorded ends at the next semicolon, live or not. The two agree just if no
semicolon stands inside the statement, be it in a literal, in a comment or in a block.

* `ObjectiveC.EndsStatement`: the semicolon that ends a statement.
* `ObjectiveC.stop_eq_endOfStatement_iff`: when a recorded call ends where a statement may end.
* `ObjectiveC.literal_cut`: a call that is recorded up to the inside of a literal.
-/

namespace SdkWiring.ObjectiveC

/-- Whether a statement ends at `q` that starts at `o`, given the positions before it and between
them: at a live semicolon, at the depth of braces and brackets at which it starts. -/
structure EndsStatement (xs : List Position) (o : Position) (us : List Position) (q : Position) :
    Prop where
  live : q.live ';' = true
  level : q.level = o.level
  brackets : depth '[' ']' (xs ++ o :: us) = depth '[' ']' xs

variable {r : Recipe} {content : Text} {call : Span} {xs us vs ys : List Position}
  {o p q : Position}

/-- A recorded call ends at the first semicolon behind its bracket. -/
theorem exists_semicolon_of_call (hl : r.language = .objectiveC)
    (hr : Text.isIdentifier r.receiver = true) (hs : Text.isIdentifier r.selector = true)
    (hp : r.callAt? p = some call) :
    p.live '[' = true ∧ call.start = (Survey.beforeIndent p.before).size ∧
      ∃ inner rest, p.after = inner ++ ';' :: rest ∧ ';' ∉ inner ∧
        call.stop = p.offset + 1 + Text.size inner + 1 := by
  obtain ⟨hsig, s₁, s₂, u, rest, hsp, -, hfore, hu, -, rfl⟩ := (callAt?_eq_some hl hr hs).1 hp
  have hwords := semicolon_notMem_callWords hr hs hsp
  have hsize : '['.utf8Size = 1 ∧ ';'.utf8Size = 1 := by decide
  rw [callWords, List.mem_cons, not_or] at hwords
  rw [callWords, List.cons_append, Position.forepart] at hfore
  obtain ⟨hchar, hafter⟩ := List.cons.inj hfore
  refine ⟨by simp [Position.live, hsig, hchar], rfl,
    s₁ ++ (r.receiver ++ (s₂ ++ r.selector)) ++ u, rest, by simp [hafter], ?_, ?_⟩
  · rw [List.mem_append, not_or]
    exact ⟨hwords.2, hu⟩
  · simp [callWords, hsize]
    omega

/-- **When a recorded call ends where a statement may end**: just if no semicolon at all stands
between its bracket and the semicolon that ends the statement. -/
theorem stop_eq_endOfStatement_iff (hl : r.language = .objectiveC)
    (hr : Text.isIdentifier r.receiver = true) (hs : Text.isIdentifier r.selector = true)
    (hcall : call ∈ (r.analyze content).startCalls) :
    ∃ xs o ys, positions .c content = xs ++ o :: ys ∧ o.live '[' = true ∧
      call.start = (Survey.beforeIndent o.before).size ∧
      ((∃ us q vs, ys = us ++ q :: vs ∧ EndsStatement xs o us q ∧ call.stop = q.offset + 1) ↔
        ∃ us q vs, ys = us ++ q :: vs ∧ EndsStatement xs o us q ∧ ∀ u ∈ us, u.char ≠ ';') := by
  rw [Recipe.analyze_eq] at hcall
  rcases Recipe.origin_call hcall with h | ⟨xs, o, ys, hps, -, hp⟩
  · simp at h
  rw [hl] at hps
  obtain ⟨hlive, hstart, inner, rest, hafter, hinner, hstop⟩ :=
    exists_semicolon_of_call hl hr hs hp
  refine ⟨xs, o, ys, hps, hlive, hstart, exists_congr fun us => exists_congr fun q =>
    exists_congr fun vs => and_congr_right fun hys => and_congr_right fun hends => ?_⟩
  have hsize : '['.utf8Size = 1 := by decide
  have hchar : o.char = '[' := (Position.live_iff.1 hlive).2
  obtain ⟨hbetween, hbefore⟩ := positions_between (hys ▸ hps)
  -- both ends are counted from the opening bracket
  have hoffset : q.offset = o.offset + 1 + Text.size (us.map Position.char) := by
    simp [Position.offset, hbefore, hchar, hsize]
    omega
  rw [hafter, Position.forepart, (Position.live_iff.1 hends.live).2] at hbetween
  have hus : (∀ u ∈ us, u.char ≠ ';') ↔ ';' ∉ us.map Position.char := by simp
  rw [hus, hstop, hoffset]
  constructor
  · intro heq
    obtain ⟨rfl, -⟩ := Text.append_inj_of_size hbetween (by omega)
    exact hinner
  · intro hnone
    have hle : inner <+: us.map Position.char := (Text.prefix_append_stop hinner).1 ⟨_, hbetween⟩
    have hge : us.map Position.char <+: inner :=
      (Text.prefix_append_stop hnone).1 ⟨_, hbetween.symm⟩
    rw [hle.eq_of_length_le hge.length_le]

/-- A start call with a semicolon in a literal. -/
def semicolonInside : Text :=
  "@implementation AppDelegate\n- (void)application \x7b\n".toList
    ++ "  [MSMobileCenter start:@\"a;b\"];\n\x7d\n@end\n".toList

theorem stop_eq_endOfStatement_iff_semicolonInside :
    (⟨49, 78⟩ : Span) ∈ ((Recipe.forRemoval .objectiveC).analyze semicolonInside).startCalls ∧
      ∃ xs o ys, positions .c semicolonInside = xs ++ o :: ys ∧ o.live '[' = true ∧
        49 = (Survey.beforeIndent o.before).size ∧
        ((∃ us q vs, ys = us ++ q :: vs ∧ EndsStatement xs o us q ∧ 78 = q.offset + 1) ↔
          ∃ us q vs, ys = us ++ q :: vs ∧ EndsStatement xs o us q ∧ ∀ u ∈ us, u.char ≠ ';') :=
  have hcall : (⟨49, 78⟩ : Span) ∈
      ((Recipe.forRemoval .objectiveC).analyze semicolonInside).startCalls := by decide +kernel
  ⟨hcall, stop_eq_endOfStatement_iff (r := .forRemoval .objectiveC) rfl (by decide) (by decide)
    hcall⟩

/-- **A literal is cut in half**: the call is recorded up to offset 78, but the only live semicolon
stands at offset 81. -/
theorem literal_cut :
    ((Recipe.forRemoval .objectiveC).analyze semicolonInside).startCalls = [⟨49, 78⟩] ∧
      ((positions .c semicolonInside).filter (·.live ';')).map Position.offset = [81] := by
  constructor <;> decide +kernel

end SdkWiring.ObjectiveC
