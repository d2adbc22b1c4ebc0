import SdkWiring.Proofs.Delegate.Run
import SdkWiring.Proofs.Delegate.StartCall
import SdkWiring.Proofs.Text.Parts

/-!
# Where a Swift start call ends

A start call should end at the live parenthesis that closes its own opening one. What is recorded
ends at the last closing parenthesis of the line, live or not. The two agree just if the closing
parenthesis stands on the line of the opening one and is the last one there.

* `Swift.stop_eq_closing_iff`: when a recorded call ends at its own closing parenthesis.
* `Swift.nextStatement_taken`: a call that takes the statement behind it along.
-/

namespace SdkWiring.Swift

/-- The live parenthesis that closes the current one, with `depth` more to be closed before it. -/
def closing? : Nat → List Position → Option Position
  | _, [] => none
  | depth, p :: ps =>
    if p.live '(' then closing? (depth + 1) ps
    else if p.live ')' then if depth = 0 then some p else closing? (depth - 1) ps
    else closing? depth ps

/-- The positions of a text from the first live opening parenthesis behind an offset on. -/
def fromParenthesis (content : Text) (offset : Nat) : List Position :=
  (positions .swift content).dropWhile fun p => decide (p.offset < offset) || !p.live '('

/-- A closing parenthesis on the line of an opening one, with no other behind it on that line. -/
structure LastOnLine (o q : Position) : Prop where
  sameLine : ∃ inner, o.after = inner ++ q.forepart ∧ '\n' ∉ inner
  last : ')' ∉ q.after.takeWhile (· != '\n')

variable {r : Recipe} {content : Text} {call : Span} {o p q : Position} {ps qs : List Position}
  {depth : Nat}

theorem closing?_spec (h : closing? depth ps = some q) : q ∈ ps ∧ q.char = ')' := by
  induction ps generalizing depth with
  | nil => simp [closing?] at h
  | cons p ps ih =>
    have hrest : ∀ {d}, closing? d ps = some q → q ∈ p :: ps ∧ q.char = ')' := fun hd =>
      ⟨List.mem_cons_of_mem _ (ih hd).1, (ih hd).2⟩
    rw [closing?] at h
    split at h
    · exact hrest h
    · split at h
      · rename_i hlive
        split at h
        · obtain rfl := Option.some.inj h
          exact ⟨by simp, (Position.live_iff.1 hlive).2⟩
        · exact hrest h
      · exact hrest h

/-- In front of a call there is no opening parenthesis at or behind the place where it is cut. -/
theorem not_from_before {xs ys : List Position} (hps : positions .swift content = xs ++ p :: ys)
    (hq : q ∈ xs) :
    (decide (q.offset < (Survey.beforeIndent p.before).size) || !q.live '(') = true := by
  obtain ⟨-, hxs, -, -⟩ := positions_split hps
  -- what is cut out before the call is white space
  obtain ⟨w, hw, hspace⟩ := Survey.isSpace_of_beforeIndent p.before
  have hback : p.backpart = (Survey.beforeIndent p.before).reverse ++ w.reverse := by
    rw [Position.backpart, hw, List.reverse_append, ← hw]
  rw [hxs, hback, stretch_append, List.mem_append] at hq
  rcases hq with hq | hq
  · obtain ⟨x, y, hx, hplace⟩ := stretch_split_of_mem hq
    have hlt : q.offset < (Survey.beforeIndent p.before).size := by
      have hsize := congrArg Text.size hx
      have hpos := q.char.utf8Size_pos
      have hqo : q.offset = x.size := by rw [hplace]; simp [Mode.place, Position.offset]
      simp only [Text.size_reverse, Text.size_append, Text.size_cons] at hsize
      omega
    simp [hlt]
  · obtain ⟨x, y, hx, -⟩ := stretch_split_of_mem hq
    have hc : q.char ≠ '(' := by
      intro h
      have := hspace '(' (by rw [← List.mem_reverse, hx, h]; simp)
      exact absurd this (by decide)
    simp [Position.live, hc]

/-- The scan from the opening parenthesis of a recognised call on. -/
theorem fromParenthesis_of_call {xs ys : List Position} {s₁ s₂ s₃ tail : Text}
    (hr : Text.isIdentifier r.receiver = true) (hs : Text.isIdentifier r.selector = true)
    (hps : positions .swift content = xs ++ p :: ys) (hsig : p.significant = true)
    (hsp : ∀ x ∈ s₁ ++ s₂ ++ s₃, Text.isSpace x = true)
    (hfore : p.forepart = callWords r s₁ s₂ s₃ ++ '(' :: tail) :
    ∃ o qs, fromParenthesis content (Survey.beforeIndent p.before).size = o :: qs ∧
      o.after = tail ∧ o.before = (callWords r s₁ s₂ s₃).reverse ++ p.before ∧
      ∀ q ∈ qs, ∃ inner, tail = inner ++ q.forepart ∧
        q.before = inner.reverse ++ '(' :: o.before := by
  -- up to the parenthesis, the words and spaces of the call leave live code as it is
  have hwords : ∀ c ∈ callWords r s₁ s₂ s₃, Text.isWord c = true ∨ Text.isSpace c = true ∨
      c = '.' := fun c hc => mem_callWords hr hs hsp hc
  have hquiet : ∀ c ∈ callWords r s₁ s₂ s₃, Text.isQuiet c = true := by
    intro c hc
    rcases hwords c hc with h | h | rfl
    · exact Text.isQuiet_of_isWord h
    · exact Text.isQuiet_of_isSpace h
    · decide
  have hparen : '(' ∉ callWords r s₁ s₂ s₃ := by
    intro hc
    rcases hwords _ hc with h | h | h <;> exact absurd h (by decide)
  obtain ⟨l, -, hpys⟩ := stretch_of_live hps hsig
  set b : Text := (callWords r s₁ s₂ s₃).reverse ++ p.before with hb
  rw [hfore, stretch_append, behind_quiet hquiet, ← hb, stretch_cons] at hpys
  simp only [List.append_nil] at hpys
  generalize ho : (Mode.mk .code l).place b '(' tail = o at hpys
  generalize hqs : stretch .swift _ ('(' :: b) tail [] = qs at hpys
  have hlive : o.live '(' = true := by rw [← ho]; rfl
  have hoff : o.offset = b.size := by rw [← ho]; rfl
  refine ⟨o, qs, ?_, by rw [← ho]; rfl, by rw [← ho]; rfl, fun q hq => ?_⟩
  · rw [fromParenthesis, hps, hpys, List.dropWhile_append_of_pos fun q hq => not_from_before hps hq,
      List.dropWhile_append_of_pos, List.dropWhile_cons_of_neg]
    · have hle := Survey.size_beforeIndent_le p.before
      have hsize : b.size = (callWords r s₁ s₂ s₃).size + p.before.size := by simp [hb]
      simp only [hlive, hoff, Bool.not_true, Bool.or_false, decide_eq_true_eq]
      omega
    · intro q hq
      obtain ⟨x, y, hx, -⟩ := stretch_split_of_mem hq
      have hc : q.char ≠ '(' := fun h => hparen (by rw [hx, h]; simp)
      simp [Position.live, hc]
  · rw [← hqs] at hq
    obtain ⟨x, y, hx, hplace⟩ := stretch_split_of_mem hq
    have hafter : q.after = y := by rw [hplace]; simp [Mode.place]
    have hbefore : q.before = x.reverse ++ '(' :: b := by rw [hplace]; rfl
    refine ⟨x, by rw [hx, Position.forepart, hafter], ?_⟩
    rw [hbefore, ← ho]
    rfl

/-- **When a recorded call ends at its own closing parenthesis**: just if that parenthesis stands on
the line of the opening one and no other closing parenthesis, live or not, follows it there. -/
theorem stop_eq_closing_iff (hl : r.language = .swift)
    (hr : Text.isIdentifier r.receiver = true) (hs : Text.isIdentifier r.selector = true)
    (hcall : call ∈ (r.analyze content).startCalls) :
    ∃ o qs, fromParenthesis content call.start = o :: qs ∧
      ((∃ q, closing? 0 qs = some q ∧ call.stop = q.offset + 1) ↔
        ∃ q, closing? 0 qs = some q ∧ LastOnLine o q) := by
  rw [Recipe.analyze_eq] at hcall
  rcases Recipe.origin_call hcall with h | ⟨xs, p, ys, hps, -, hp⟩
  · simp at h
  · rw [hl] at hps
    obtain ⟨hsig, -, s₁, s₂, s₃, u, rest, hsp, hfore, hu, hrest, rfl⟩ :=
      (callAt?_eq_some hl hs).1 hp
    obtain ⟨o, qs, hfrom, hafter, hbefore, hqs⟩ :=
      fromParenthesis_of_call hr hs hps hsig hsp hfore
    -- both ends are counted from the opening parenthesis
    have hstop : p.offset + (callWords r s₁ s₂ s₃ ++ '(' :: (u ++ [')'])).size =
        o.offset + 1 + Text.size u + 1 := by
      have hparens : '('.utf8Size = 1 ∧ ')'.utf8Size = 1 := by decide
      simp [Position.offset, hbefore, hparens]
      omega
    refine ⟨o, qs, hfrom, exists_congr fun q => and_congr_right fun hq => ?_⟩
    obtain ⟨hmem, hchar⟩ := closing?_spec hq
    obtain ⟨inner, htail, hqb⟩ := hqs q hmem
    have hqo : q.offset = o.offset + 1 + inner.size := by
      have hparen : '('.utf8Size = 1 := by decide
      simp [Position.offset, hqb, hparen]
      omega
    rw [Position.forepart, hchar] at htail
    rw [hstop, hqo]
    dsimp only
    constructor
    · intro hsize
      obtain ⟨rfl, hrest'⟩ := Text.append_inj_of_size htail (by omega)
      obtain ⟨-, rfl⟩ := List.cons.inj hrest'
      exact ⟨⟨u, by rw [hafter, htail, Position.forepart, hchar], hu⟩, hrest⟩
    · rintro ⟨⟨inner', hin, hline⟩, hlast⟩
      rw [hafter, htail, Position.forepart, hchar, List.append_cancel_right_eq] at hin
      subst hin
      rw [last_unique htail hu hline hrest hlast]

/-- A start call and another statement on one line. -/
def sharedLine : Text :=
  "class AppDelegate \x7b\n  func application() \x7b\n    MSMobileCenter.start(\"k\"); setup()\n  \x7d\n\x7d\n".toList

theorem stop_eq_closing_iff_sharedLine :
    (⟨42, 81⟩ : Span) ∈ ((Recipe.forRemoval .swift).analyze sharedLine).startCalls ∧
      ∃ o qs, fromParenthesis sharedLine 42 = o :: qs ∧
        ((∃ q, closing? 0 qs = some q ∧ 81 = q.offset + 1) ↔
          ∃ q, closing? 0 qs = some q ∧ LastOnLine o q) :=
  have hcall : (⟨42, 81⟩ : Span) ∈
      ((Recipe.forRemoval .swift).analyze sharedLine).startCalls := by decide +kernel
  ⟨hcall, stop_eq_closing_iff (r := .forRemoval .swift) rfl (by decide) (by decide) hcall⟩

/-- **The statement behind a call is taken along**: the call is recorded up to offset 81, but its
own parenthesis closes before offset 72. -/
theorem nextStatement_taken :
    ((Recipe.forRemoval .swift).analyze sharedLine).startCalls = [⟨42, 81⟩] ∧
      ∃ o qs, fromParenthesis sharedLine 42 = o :: qs ∧
        (closing? 0 qs).map (fun q => q.offset + 1) = some 72 := by
  refine ⟨by decide +kernel, _, _, List.cons_head_tail (?_ : fromParenthesis sharedLine 42 ≠ []) |>.symm, ?_⟩
  · decide
  · decide

end SdkWiring.Swift
