import SdkWiring.Proofs.Delegate.Run
import SdkWiring.Proofs.Delegate.StartCall
import SdkWiring.Proofs.Text.Shifting

/-!
# Recognised calls as parts of a text

The span of a recognised call cuts a delegate in three. What matters of the part in the middle is
little: in Swift it ends with the last closing parenthesis of a line, in Objective-C it holds a
semicolon.

* `Recipe.text_of_callAt?`: where a call at a position ends.
* `Recipe.part_of_callAt?`: the three parts for it.
* `Recipe.part_of_mem`, `span_of_mem`: the three parts for a recorded call, and where it is cut out.
-/

namespace SdkWiring

variable {r : Recipe} {p : Position} {call : Span} {content : Text}

/-- What is known of the part that a recognised call takes up. -/
structure Recipe.CallPart (r : Recipe) (part behind : Text) : Prop where
  swift : r.language = .swift → ClosesLine part behind
  objectiveC : r.language = .objectiveC → ';' ∈ part

namespace Recipe

/-- The character that ends a start call. -/
def closer (r : Recipe) : Char :=
  match r.language with
  | .swift => ')'
  | .objectiveC => ';'

theorem CallPart.closer_mem {part behind : Text} (h : r.CallPart part behind) : r.closer ∈ part := by
  unfold closer
  cases hl : r.language with
  | swift => exact (h.swift hl).mem
  | objectiveC => exact h.objectiveC hl

theorem CallPart.ne_nil {part behind : Text} (h : r.CallPart part behind) : part ≠ [] :=
  List.ne_nil_of_mem h.closer_mem

theorem not_brace_of_isSpace {s : Text} (hs : ∀ c ∈ s, Text.isSpace c = true) : '{' ∉ s := fun h =>
  absurd (hs _ h) (by decide)

theorem not_brace_of_isIdentifier {t : Text} (ht : Text.isIdentifier t = true) : '{' ∉ t := fun h =>
  absurd (Text.isWord_of_mem_identifier ht h) (by decide)

/-- **The text of a recognised call**, from its first character to the one that ends it. -/
theorem text_of_callAt? (hr : Text.isIdentifier r.receiver = true)
    (hs : Text.isIdentifier r.selector = true) (h : r.callAt? p = some call) :
    ∃ x rest, p.forepart = x ++ r.closer :: rest ∧
      call = ⟨(Survey.beforeIndent p.before).size, p.offset + Text.size (x ++ [r.closer])⟩ ∧
      Text.isSpace p.char = false ∧ p.char ≠ '{' := by
  unfold closer
  cases hl : r.language with
  | swift =>
    obtain ⟨-, -, s₁, s₂, s₃, u, rest, -, hfore, -, -, rfl⟩ := (Swift.callAt?_eq_some hl hs).1 h
    obtain ⟨c, hc, hw⟩ := Text.exists_head_of_identifier hr
    obtain ⟨n, hn⟩ := List.head?_eq_some_iff.1 hc
    have hchar : p.char = c := by
      rw [Position.forepart, Swift.callWords, hn] at hfore
      exact (List.cons.inj hfore).1
    refine ⟨Swift.callWords r s₁ s₂ s₃ ++ '(' :: u, rest, by rw [hfore]; simp, by simp, ?_, ?_⟩
    · rw [hchar]
      exact Text.isSpace_of_isWord hw
    · rw [hchar]
      rintro rfl
      exact absurd hw (by decide)
  | objectiveC =>
    obtain ⟨-, s₁, s₂, u, rest, -, -, hfore, -, -, rfl⟩ :=
      (ObjectiveC.callAt?_eq_some hl hr hs).1 h
    have hchar : p.char = '[' := by
      rw [Position.forepart, ObjectiveC.callWords] at hfore
      exact (List.cons.inj hfore).1
    refine ⟨ObjectiveC.callWords r s₁ s₂ ++ u, rest, by rw [hfore]; simp, by simp, ?_, ?_⟩ <;>
      rw [hchar] <;> decide

/-- **The text of a recognised call** with its indentation. -/
theorem part_of_callAt? (hr : Text.isIdentifier r.receiver = true)
    (hs : Text.isIdentifier r.selector = true) (h : r.callAt? p = some call) :
    ∃ part behind, p.backpart ++ p.forepart =
        (Survey.beforeIndent p.before).reverse ++ (part ++ behind) ∧
      call = ⟨(Survey.beforeIndent p.before).size,
        (Survey.beforeIndent p.before).size + part.size⟩ ∧ r.CallPart part behind := by
  obtain ⟨w, hw, hspace⟩ := Survey.isSpace_of_beforeIndent p.before
  set b := Survey.beforeIndent p.before with hb
  have hback : p.backpart = b.reverse ++ w.reverse := by
    rw [Position.backpart, hw, List.reverse_append]
  have hoff : p.offset = b.size + w.size := by
    rw [Position.offset, hw, Text.size_append, Nat.add_comm]
  cases hl : r.language with
  | swift =>
    obtain ⟨-, -, s₁, s₂, s₃, u, rest, hsp, hfore, hu, hrest, rfl⟩ := (Swift.callAt?_eq_some hl hs).1 h
    refine ⟨w.reverse ++ (Swift.callWords r s₁ s₂ s₃ ++ '(' :: (u ++ [')'])), rest, ?_, ?_, ?_⟩
    · rw [hback, hfore]
      simp
    · simp only [hb, hoff, Text.size_append, Text.size_reverse, Nat.add_assoc]
    · refine ⟨fun _ => ⟨?_, fun x y he => ?_, hrest⟩, fun ho => ?_⟩
      · rw [show w.reverse ++ (Swift.callWords r s₁ s₂ s₃ ++ '(' :: (u ++ [')'])) =
          (w.reverse ++ (Swift.callWords r s₁ s₂ s₃ ++ '(' :: u)) ++ [')'] by simp,
          List.getLast?_concat]
      · -- a brace stands behind the opening parenthesis, and the line goes on from there
        have hfront : '{' ∉ w.reverse ++ (Swift.callWords r s₁ s₂ s₃ ++ ['(']) := by
          have hbrace := not_brace_of_isSpace hsp
          simp only [List.mem_append, not_or] at hbrace
          simp only [Swift.callWords, List.mem_append, List.mem_cons, List.mem_reverse,
            List.not_mem_nil, or_false, not_or]
          exact ⟨not_brace_of_isSpace hspace, by
            simp [not_brace_of_isIdentifier hr, not_brace_of_isIdentifier hs, hbrace]⟩
        have hpre : w.reverse ++ (Swift.callWords r s₁ s₂ s₃ ++ ['(']) <+: x :=
          (Text.prefix_append_stop hfront).1 ⟨u ++ [')'], by rw [← he]; simp⟩
        obtain ⟨x', rfl⟩ := hpre
        have hrest' : u ++ [')'] = x' ++ '{' :: y := by simpa using he
        intro hn
        have hmem : '\n' ∈ u ++ [')'] := by
          rw [hrest']
          simp [hn]
        rcases List.mem_append.1 hmem with hmem | hmem
        · exact hu hmem
        · exact absurd hmem (by decide)
      · exact absurd (hl.symm.trans ho) (by decide)
  | objectiveC =>
    obtain ⟨-, s₁, s₂, u, rest, hsp, -, hfore, -, -, rfl⟩ :=
      (ObjectiveC.callAt?_eq_some hl hr hs).1 h
    refine ⟨w.reverse ++ (ObjectiveC.callWords r s₁ s₂ ++ (u ++ [';'])), rest, ?_, ?_, ?_⟩
    · rw [hback, hfore]
      simp
    · simp only [hb, hoff, Text.size_append, Text.size_reverse, Nat.add_assoc]
    · exact ⟨fun ho => absurd (hl.symm.trans ho) (by decide), fun _ => by simp⟩

/-- **A recorded call** cuts the delegate in three. -/
theorem part_of_mem (hr : Text.isIdentifier r.receiver = true)
    (hs : Text.isIdentifier r.selector = true) (h : call ∈ (r.analyze content).startCalls) :
    ∃ pre part behind, content = pre ++ (part ++ behind) ∧
      call = ⟨pre.size, pre.size + part.size⟩ ∧ r.CallPart part behind := by
  rw [analyze_eq] at h
  rcases origin_call h with h | ⟨xs, p, ys, hps, -, hcall⟩
  · simp at h
  · obtain ⟨part, behind, hsplit, rfl, hpart⟩ := part_of_callAt? hr hs hcall
    refine ⟨(Survey.beforeIndent p.before).reverse, part, behind, ?_, ?_, hpart⟩
    · rw [← hsplit]
      exact (positions_split hps).1
    · rw [Text.size_reverse]

/-- A recorded span takes up a part of the delegate. -/
theorem span_of_mem (hr : Text.isIdentifier r.receiver = true)
    (hs : Text.isIdentifier r.selector = true) (hcall : call ∈ (r.analyze content).startCalls) :
    content.IsBoundary call.start ∧ content.IsBoundary call.stop ∧ call.start < call.stop := by
  obtain ⟨pre, part, behind, rfl, rfl, hpart⟩ := part_of_mem hr hs hcall
  refine ⟨Text.isBoundary_append pre _, ?_, ?_⟩
  · have h := Text.isBoundary_append (pre ++ part) behind
    rwa [List.append_assoc, Text.size_append] at h
  · have := Nat.pos_of_ne_zero fun h => hpart.ne_nil (Text.eq_nil_of_size h)
    exact Nat.lt_add_of_pos_right this

end Recipe

end SdkWiring
