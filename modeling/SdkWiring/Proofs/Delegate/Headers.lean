import SdkWiring.Proofs.Delegate.Alike

/-!
# Headers with text before them

Where text is put into a delegate, the header that is being read there gets longer. Two relations
say how headers may differ without any rule noticing.

* `Recipe.Padded`: text before the header in which nothing is recognised.
* `Recipe.Shared`: a common first part in which the type is recognised already.
-/

namespace SdkWiring

variable {r : Recipe} {p : Position} {h k : Header} {pad : Text}

namespace Header

theorem text_record (h : Header) (p : Position) : (h.record p).text = h.text ++
    if p.isPlain then [p.char] else if h.text.getLast? = some ' ' then [] else [' '] := by
  rw [record, text, text, List.getLast?_reverse]
  split
  · simp
  · split <;> simp

theorem next_of_endsHeader (hp : p.endsHeader = true) (h : Header) : h.next p = {} := by
  rw [next, if_pos hp]

theorem next_of_not_endsHeader (hp : p.endsHeader = false) (h : Header) :
    h.next p = h.record p := by
  rw [next, hp, if_neg (by decide)]

/-- Text before a header stays before it. -/
theorem text_record_append (hpad : pad.getLast? ≠ some ' ') (hk : k.text = pad ++ h.text)
    (p : Position) : (k.record p).text = pad ++ (h.record p).text := by
  have hlast : (k.text.getLast? = some ' ') = (h.text.getLast? = some ' ') := by
    rw [hk, List.getLast?_append]
    cases h.text.getLast? with
    | none => simpa using hpad
    | some c => rfl
  rw [text_record, text_record, hk, List.append_assoc, ← hk]
  simp only [hlast]

end Header

namespace Recipe

/-- The same header, or one with more text before it. In Swift the type is not yet open then. -/
def Padded (r : Recipe) (pad : Text) (inType : Bool) (h k : Header) : Prop :=
  h = k ∨ k.text = pad ++ h.text ∧ (r.language = .swift → inType = false)

/-- The same header, or two with the same first part. The type is not yet open then. -/
def Shared (first : Text) (inType : Bool) (h k : Header) : Prop :=
  h = k ∨ inType = false ∧ first <+: h.text ∧ first <+: k.text

/-- In Swift a type opens at a brace only. -/
theorem opensType_of_not_endsHeader (hl : r.language = .swift) (hp : p.endsHeader = false)
    (h : Header) : r.opensType h p = false := by
  have hlive : p.live '{' = false := by
    rw [← Bool.not_eq_true]
    intro hlive
    rw [Position.live_iff] at hlive
    simp [Position.endsHeader, hlive] at hp
  simp [opensType, hl, hlive]

theorem padded_next (hpad : pad.getLast? ≠ some ' ') {b : Bool} (e : r.Padded pad b h k)
    (p : Position) :
    r.Padded pad ((b || r.opensType h p) && !r.closesType p) (h.next p) (k.next p) := by
  rcases e with rfl | ⟨hk, hb⟩
  · exact .inl rfl
  · cases hp : p.endsHeader with
    | true => exact .inl (by rw [Header.next_of_endsHeader hp, Header.next_of_endsHeader hp])
    | false =>
      rw [Header.next_of_not_endsHeader hp, Header.next_of_not_endsHeader hp]
      refine .inr ⟨Header.text_record_append hpad hk p, fun hl => ?_⟩
      rw [hb hl, opensType_of_not_endsHeader hl hp]
      rfl

/-- **Text before a Swift header** makes no difference if no type is recognised through it. -/
theorem indistinct_padded_swift (hl : r.language = .swift) (pad : Text) (hpad : pad.getLast? ≠ some ' ')
    (htype : ∀ t, (Swift.typeHeader r).occursIn (pad ++ t) = (Swift.typeHeader r).occursIn t) :
    r.Indistinct (r.Padded pad) where
  next e := padded_next hpad e _
  opensType e := by
    rcases e with rfl | ⟨hk, -⟩
    · rfl
    · simp only [opensType, hl, hk, htype]
  opensMethod e := by
    rcases e with rfl | ⟨-, hb⟩
    · rfl
    · cases hb hl
  label e := by
    rcases e with rfl | ⟨-, hb⟩
    · rfl
    · cases hb hl

/-- **A line break before an Objective-C header** makes no difference. -/
theorem indistinct_padded_objectiveC (hl : r.language = .objectiveC) (eol : LineBreak) :
    r.Indistinct (r.Padded eol.text) where
  next e := padded_next (by cases eol <;> decide) e _
  opensType _ := by simp only [opensType, hl]
  opensMethod e := by
    rcases e with rfl | ⟨hk, -⟩
    · rfl
    · have hdash : '-' ∉ eol.text := by cases eol <;> decide
      simp only [opensMethod, methodHeader, hl, hk, ObjectiveC.methodHeader_append hdash]
  label e := by
    rcases e with rfl | ⟨hk, -⟩
    · rfl
    · rw [hk, Bool.eq_iff_iff, Text.contains_iff, Text.contains_iff]
      obtain ⟨x, hx, hnot⟩ : ∃ x, eol.text = x ++ ['\n'] ∧ ¬ Survey.preferredLabel <:+: x := by
        cases eol with
        | lf => exact ⟨[], rfl, by decide⟩
        | crlf => exact ⟨['\r'], rfl, by decide⟩
      rw [hx, List.append_assoc, List.singleton_append, Text.infix_append_stop (by decide)]
      exact ⟨.inr, fun h => h.resolve_left hnot⟩

/-- **Headers that share a type header** open the type at the next brace alike. -/
theorem indistinct_shared (hl : r.language = .swift)
    (htype : ∀ t, (Swift.typeHeader r).occursIn (pad ++ t) = true) :
    r.Indistinct (Shared pad) where
  next {b h k p} e := by
    rcases e with rfl | ⟨hb, hh, hk⟩
    · exact .inl rfl
    · cases hp : p.endsHeader with
      | true => exact .inl (by rw [Header.next_of_endsHeader hp, Header.next_of_endsHeader hp])
      | false =>
        rw [Header.next_of_not_endsHeader hp, Header.next_of_not_endsHeader hp]
        refine .inr ⟨?_, ?_, ?_⟩
        · rw [hb, opensType_of_not_endsHeader hl hp]
          rfl
        · rw [Header.text_record]
          exact hh.trans (List.prefix_append _ _)
        · rw [Header.text_record]
          exact hk.trans (List.prefix_append _ _)
  opensType e := by
    rcases e with rfl | ⟨-, ⟨x, hx⟩, ⟨y, hy⟩⟩
    · rfl
    · simp only [opensType, hl, ← hx, ← hy, htype]
  opensMethod e := by
    rcases e with rfl | ⟨hb, -⟩
    · rfl
    · cases hb
  label e := by
    rcases e with rfl | ⟨hb, -⟩
    · rfl
    · cases hb

end Recipe

end SdkWiring
