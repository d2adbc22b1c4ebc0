import SdkWiring.Delegate.ObjectiveC
import SdkWiring.Delegate.Swift
import SdkWiring.Proofs.Text.Identifier
import SdkWiring.Proofs.Text.Matching
import SdkWiring.Text.LineBreak

/-!
# The shape of a start call

A start call has a head, up to what is recognised in one way only, and a tail that runs as far as
the language lets it: in Swift to the last closing parenthesis of the line, in Objective-C to the
next semicolon.

* `Swift.end?_callShape`, `ObjectiveC.end?_callShape`: where a recognised call ends.
* `Pattern.end?_lineUpTo`: the last occurrence of a character on a line.
* `Survey.beforeIndent_split`: what is cut out before a call.
-/

namespace SdkWiring

namespace Pattern

variable {p q : Pattern} {f : Char → Bool} {b a t rest : Text} {c d : Cursor} {x : Char}

/-- A character behind a part of a run is in the run, too. -/
theorem mem_takeWhile_append_cons (hx : f x = true) {u : Text} (hu : ∀ y ∈ u, f y = true)
    (rest : Text) : x ∈ (u ++ x :: rest).takeWhile f := by
  rw [List.takeWhile_append_of_pos hu, List.takeWhile_cons_of_pos hx]
  simp

/-- **Of the occurrences of a character** in the run at the start of a text, one is the last. -/
theorem exists_last (h : x ∈ a.takeWhile f) :
    ∃ u rest, a = u ++ x :: rest ∧ (∀ y ∈ u, f y = true) ∧ x ∉ rest.takeWhile f := by
  induction a with
  | nil => cases h
  | cons y a ih =>
    have hy : f y = true := by
      by_contra hy
      rw [List.takeWhile_cons_of_neg hy] at h
      cases h
    by_cases hlater : x ∈ a.takeWhile f
    · obtain ⟨u, rest, rfl, hu, hrest⟩ := ih hlater
      exact ⟨y :: u, rest, rfl, List.forall_mem_cons.2 ⟨hy, hu⟩, hrest⟩
    · rw [List.takeWhile_cons_of_pos hy] at h
      obtain rfl := (List.mem_cons.1 h).resolve_right hlater
      exact ⟨[], a, rfl, nofun, hlater⟩

/-- Nothing is found where the character is not in the run. -/
theorem end?_lineUpTo_none (hx : f x = true) (h : x ∉ a.takeWhile f) (b : Text) :
    (many f ++ literal [x]).end? ⟨b, a⟩ = none := by
  rw [Option.eq_none_iff_forall_not_mem]
  intro d hd
  obtain ⟨m, hm, hlit⟩ := mem_append.1 (end?_mem hd)
  obtain ⟨u, rest, rfl, hu, rfl⟩ := mem_few.1 (mem_many.1 hm)
  obtain ⟨rest, rfl, -⟩ := mem_literal.1 hlit
  exact h (mem_takeWhile_append_cons hx hu _)

/-- A run up to a character goes on to a later one before it takes the one at hand. -/
theorem end?_lineUpTo_cons {y : Char} (hy : f y = true) (b a : Text) :
    (many f ++ literal [x]).end? ⟨b, y :: a⟩ =
      ((many f ++ literal [x]).end? ⟨y :: b, a⟩).or ((literal [x]).end? ⟨b, y :: a⟩) := by
  change (((runs f b (y :: a)).reverse.flatMap fun m => literal [x] m).head?) = _
  rw [runs, if_pos hy, List.reverse_cons, List.flatMap_append, List.head?_append]
  simp only [List.flatMap_cons, List.flatMap_nil, List.append_nil]
  rfl

/-- The last occurrence is the one that is found. -/
theorem end?_lineUpTo_last (hx : f x = true) {u : Text} (hu : ∀ y ∈ u, f y = true)
    (hrest : x ∉ rest.takeWhile f) (b : Text) :
    (many f ++ literal [x]).end? ⟨b, u ++ x :: rest⟩ = some ⟨x :: (u.reverse ++ b), rest⟩ := by
  induction u generalizing b with
  | nil =>
    rw [List.nil_append, end?_lineUpTo_cons hx, end?_lineUpTo_none hx hrest, Option.none_or, end?,
      show x :: rest = [x] ++ rest from rfl, literal_append_apply]
    rfl
  | cons y u ih =>
    obtain ⟨hy, hu⟩ := List.forall_mem_cons.1 hu
    rw [List.cons_append, end?_lineUpTo_cons hy, ih hu, Option.some_or]
    simp

/-- **A run up to the last of its characters that is `x`.** -/
theorem end?_lineUpTo (hx : f x = true) :
    (many f ++ literal [x]).end? ⟨b, a⟩ = some d ↔
      ∃ u rest, a = u ++ x :: rest ∧ (∀ y ∈ u, f y = true) ∧ x ∉ rest.takeWhile f ∧
        d = ⟨x :: (u.reverse ++ b), rest⟩ := by
  constructor
  · intro h
    have hmem : x ∈ a.takeWhile f := by
      by_contra hnone
      rw [end?_lineUpTo_none hx hnone] at h
      cases h
    obtain ⟨u, rest, rfl, hu, hrest⟩ := exists_last hmem
    rw [end?_lineUpTo_last hx hu hrest] at h
    exact ⟨u, rest, rfl, hu, hrest, (Option.some.inj h).symm⟩
  · rintro ⟨u, rest, rfl, hu, hrest, rfl⟩
    exact end?_lineUpTo_last hx hu hrest b

/-- The last occurrence stands in one place. -/
theorem last_unique {u v rest' : Text} (hx : f x = true) (h : u ++ x :: rest = v ++ x :: rest')
    (hu : ∀ y ∈ u, f y = true) (hv : ∀ y ∈ v, f y = true) (hrest : x ∉ rest.takeWhile f)
    (hrest' : x ∉ rest'.takeWhile f) : u = v := by
  have hfound := end?_lineUpTo_last hx hu hrest []
  rw [h, end?_lineUpTo_last hx hv hrest'] at hfound
  simpa using (congrArg Cursor.before (Option.some.inj hfound)).symm

end Pattern

namespace Swift

open Pattern

/-- The text of a start call up to its opening parenthesis. -/
def callWords (r : Recipe) (s₁ s₂ s₃ : Text) : Text :=
  r.receiver ++ (s₁ ++ '.' :: (s₂ ++ (r.selector ++ s₃)))

/-- The shape of a start call up to and including its opening parenthesis. -/
def callHead (r : Recipe) : Pattern :=
  literal r.receiver ++ (many Text.isSpace ++ (literal ".".toList ++ (many Text.isSpace
    ++ (literal r.selector ++ (many Text.isSpace ++ literal "(".toList)))))

theorem callShape_eq (r : Recipe) :
    callShape r = callHead r ++ (restOfLine ++ literal ")".toList) := by
  simp only [callShape, callHead, append_assoc]

theorem mem_callHead {r : Recipe} {c o : Cursor} :
    o ∈ callHead r c ↔ ∃ s₁ s₂ s₃, (∀ x ∈ s₁ ++ s₂ ++ s₃, Text.isSpace x = true) ∧
      c.after = callWords r s₁ s₂ s₃ ++ '(' :: o.after ∧
      o.before = '(' :: ((callWords r s₁ s₂ s₃).reverse ++ c.before) := by
  obtain ⟨b, a⟩ := c
  obtain ⟨ob, oa⟩ := o
  simp only [callHead, mem_append, mem_literal, mem_many, mem_few, Cursor.advance]
  constructor
  · rintro ⟨-, ⟨-, rfl, rfl⟩, -, ⟨s₁, -, rfl, h₁, rfl⟩, -, ⟨-, rfl, rfl⟩, -, ⟨s₂, -, rfl, h₂, rfl⟩,
      -, ⟨-, rfl, rfl⟩, -, ⟨s₃, -, rfl, h₃, rfl⟩, rest, rfl, h⟩
    obtain ⟨rfl, rfl⟩ := Cursor.mk.inj h
    refine ⟨s₁, s₂, s₃, ?_, by simp [callWords], by simp [callWords]⟩
    simp only [List.mem_append]
    rintro x ((hx | hx) | hx)
    · exact h₁ x hx
    · exact h₂ x hx
    · exact h₃ x hx
  · rintro ⟨s₁, s₂, s₃, h, rfl, rfl⟩
    simp only [List.mem_append] at h
    exact ⟨_, ⟨_, by simp [callWords], rfl⟩, _, ⟨s₁, _, rfl, fun x hx => h x (.inl (.inl hx)), rfl⟩,
      _, ⟨_, rfl, rfl⟩, _, ⟨s₂, _, rfl, fun x hx => h x (.inl (.inr hx)), rfl⟩, _, ⟨_, rfl, rfl⟩, _,
      ⟨s₃, _, rfl, fun x hx => h x (.inr hx), rfl⟩, oa, rfl, by simp [callWords]⟩

/-- What a start call is recognised by can be read in one way only. -/
theorem unambiguous_callHead {r : Recipe} (hs : Text.isIdentifier r.selector = true) :
    Unambiguous (callHead r) := by
  obtain ⟨x, hx, hw⟩ := Text.exists_head_of_identifier hs
  refine (unambiguous_literal _).append (.many ?_ ((refuses_literal rfl).append _))
  refine (unambiguous_literal _).append (.many ?_ ((refuses_literal_of_head hx
    (Text.isSpace_of_isWord hw)).append _))
  exact (unambiguous_literal _).append (.many (unambiguous_literal _) (refuses_literal rfl))

theorem forall_ne_break {u : Text} : (∀ y ∈ u, (y != '\n') = true) ↔ '\n' ∉ u :=
  ⟨fun h hn => by simpa using h _ hn, fun h y hy => by simpa using fun e : y = '\n' => h (e ▸ hy)⟩

/-- **A Swift start call ends at the last closing parenthesis of the line** on which its opening
parenthesis stands. -/
theorem end?_callShape {r : Recipe} (hs : Text.isIdentifier r.selector = true) {c d : Cursor} :
    (callShape r).end? c = some d ↔ ∃ o ∈ callHead r c, ∃ u rest, o.after = u ++ ')' :: rest ∧
      '\n' ∉ u ∧ ')' ∉ rest.takeWhile (· != '\n') ∧ d = ⟨')' :: (u.reverse ++ o.before), rest⟩ := by
  have htail : ∀ o : Cursor, (restOfLine ++ literal ")".toList).end? o = some d ↔
      ∃ u rest, o.after = u ++ ')' :: rest ∧ '\n' ∉ u ∧ ')' ∉ rest.takeWhile (· != '\n') ∧
        d = ⟨')' :: (u.reverse ++ o.before), rest⟩ := by
    intro ⟨b, a⟩
    refine (end?_lineUpTo (f := (· != '\n')) (x := ')') rfl).trans ?_
    simp only [forall_ne_break]
  rw [callShape_eq]
  constructor
  · intro h
    obtain ⟨o, ho⟩ := mem_of_end?_append h
    rw [end?_append (unambiguous_callHead hs) ho] at h
    exact ⟨o, ho, (htail o).1 h⟩
  · rintro ⟨o, ho, h⟩
    rw [end?_append (unambiguous_callHead hs) ho]
    exact (htail o).2 h

/-- The words of a call, character by character. -/
theorem mem_callWords {r : Recipe} {s₁ s₂ s₃ : Text} (hr : Text.isIdentifier r.receiver = true)
    (hs : Text.isIdentifier r.selector = true)
    (hsp : ∀ x ∈ s₁ ++ s₂ ++ s₃, Text.isSpace x = true) {x : Char}
    (hx : x ∈ callWords r s₁ s₂ s₃) : Text.isWord x = true ∨ Text.isSpace x = true ∨ x = '.' := by
  simp only [callWords, List.mem_append, List.mem_cons] at hx hsp
  rcases hx with hx | hx | rfl | hx | hx | hx
  · exact .inl (Text.isWord_of_mem_identifier hr hx)
  · exact .inr (.inl (hsp x (.inl (.inl hx))))
  · exact .inr (.inr rfl)
  · exact .inr (.inl (hsp x (.inl (.inr hx))))
  · exact .inl (Text.isWord_of_mem_identifier hs hx)
  · exact .inr (.inl (hsp x (.inr hx)))

/-- Of the closing parentheses of a line just one is the last. -/
theorem last_unique {u v x y : Text} (h : u ++ ')' :: x = v ++ ')' :: y) (hu : '\n' ∉ u)
    (hv : '\n' ∉ v) (hx : ')' ∉ x.takeWhile (· != '\n')) (hy : ')' ∉ y.takeWhile (· != '\n')) :
    u = v :=
  Pattern.last_unique rfl h (forall_ne_break.2 hu) (forall_ne_break.2 hv) hx hy

end Swift

namespace ObjectiveC

open Pattern

/-- The text of a start call up to its selector. -/
def callWords (r : Recipe) (s₁ s₂ : Text) : Text :=
  '[' :: (s₁ ++ (r.receiver ++ (s₂ ++ r.selector)))

/-- The shape of a start call up to and including its selector. -/
def callHead (r : Recipe) : Pattern :=
  literal "[".toList ++ (many Text.isSpace ++ (literal r.receiver ++ (many1 Text.isSpace
    ++ (literal r.selector ++ border))))

theorem callShape_eq (r : Recipe) :
    callShape r = callHead r ++ (many (· != ';') ++ literal ";".toList) := by
  simp only [callShape, callHead, append_assoc]

theorem mem_callHead {r : Recipe} {c o : Cursor} :
    o ∈ callHead r c ↔ ∃ s₁ s₂, (∀ x ∈ s₁ ++ s₂, Text.isSpace x = true) ∧ s₂ ≠ [] ∧
      c.after = callWords r s₁ s₂ ++ o.after ∧
      o.before = (callWords r s₁ s₂).reverse ++ c.before ∧
      (o.before.head?.any Text.isWord != o.after.head?.any Text.isWord) = true := by
  obtain ⟨b, a⟩ := c
  obtain ⟨ob, oa⟩ := o
  simp only [callHead, mem_append, mem_literal, mem_many, mem_few, mem_many1, mem_border,
    Cursor.advance]
  constructor
  · rintro ⟨-, ⟨-, rfl, rfl⟩, -, ⟨s₁, -, rfl, h₁, rfl⟩, -, ⟨-, rfl, rfl⟩, -,
      ⟨x, s₂, -, rfl, h₂, rfl⟩, -, ⟨rest, rfl, rfl⟩, hborder, h⟩
    obtain ⟨rfl, rfl⟩ := Cursor.mk.inj h
    refine ⟨s₁, x :: s₂, ?_, by simp, by simp [callWords], by simp [callWords], hborder⟩
    intro y hy
    rcases List.mem_append.1 hy with hy | hy
    · exact h₁ y hy
    · exact h₂ y hy
  · rintro ⟨s₁, s₂, h, hne, rfl, rfl, hborder⟩
    obtain ⟨x, s₂, rfl⟩ := List.exists_cons_of_ne_nil hne
    have hrest : ∀ t : Text, callWords r s₁ (x :: s₂) ++ t =
        '[' :: (s₁ ++ (r.receiver ++ (x :: s₂ ++ (r.selector ++ t)))) := by
      intro t
      simp [callWords]
    exact ⟨_, ⟨_, hrest oa, rfl⟩, _, ⟨s₁, _, rfl, fun y hy => h y (by simp [hy]), rfl⟩,
      _, ⟨_, rfl, rfl⟩, _, ⟨x, s₂, _, rfl, fun y hy => h y (List.mem_append_right _ hy), rfl⟩, _,
      ⟨oa, rfl, rfl⟩, by simpa [callWords] using hborder, by simp [callWords]⟩

/-- The words of a call have no semicolon. -/
theorem semicolon_notMem_callWords {r : Recipe} {s₁ s₂ : Text} (hr : Text.isIdentifier r.receiver = true)
    (hs : Text.isIdentifier r.selector = true) (hsp : ∀ x ∈ s₁ ++ s₂, Text.isSpace x = true) :
    ';' ∉ callWords r s₁ s₂ := by
  have hword : ∀ {w}, Text.isIdentifier w = true → ';' ∉ w := fun hw hc =>
    absurd (Text.isWord_of_mem_identifier hw hc) (by decide)
  have hspace : ';' ∉ s₁ ++ s₂ := fun hc => absurd (hsp _ hc) (by decide)
  rw [List.mem_append, not_or] at hspace
  simp [callWords, hword hr, hword hs, hspace]

/-- What a start call is recognised by can be read in one way only. -/
theorem unambiguous_callHead {r : Recipe} (hr : Text.isIdentifier r.receiver = true)
    (hs : Text.isIdentifier r.selector = true) : Unambiguous (callHead r) := by
  obtain ⟨x, hx, hxw⟩ := Text.exists_head_of_identifier hr
  obtain ⟨y, hy, hyw⟩ := Text.exists_head_of_identifier hs
  refine (unambiguous_literal _).append (.many ?_ ((refuses_literal_of_head hx
    (Text.isSpace_of_isWord hxw)).append _))
  refine (unambiguous_literal _).append (.many1 ?_ ((refuses_literal_of_head hy
    (Text.isSpace_of_isWord hyw)).append _))
  exact (unambiguous_literal _).append (unambiguous_guard _)

/-- **An Objective-C start call ends at the next semicolon.** -/
theorem end?_callShape {r : Recipe} (hr : Text.isIdentifier r.receiver = true)
    (hs : Text.isIdentifier r.selector = true) {c d : Cursor} :
    (callShape r).end? c = some d ↔ ∃ o ∈ callHead r c, ∃ u rest, o.after = u ++ ';' :: rest ∧
      ';' ∉ u ∧ d = ⟨';' :: (u.reverse ++ o.before), rest⟩ := by
  have hmem : ∀ o : Cursor, d ∈ (many (· != ';') ++ literal ";".toList) o ↔
      ∃ u rest, o.after = u ++ ';' :: rest ∧ ';' ∉ u ∧
        d = ⟨';' :: (u.reverse ++ o.before), rest⟩ := by
    intro o
    simp only [mem_append, mem_many, mem_few, mem_literal, bne_iff_ne]
    constructor
    · rintro ⟨-, ⟨u, -, hu, hne, rfl⟩, rest, rfl, rfl⟩
      exact ⟨u, rest, hu, fun h => hne _ h rfl, by simp [Cursor.advance]⟩
    · rintro ⟨u, rest, hu, hne, rfl⟩
      exact ⟨o.advance u (';' :: rest), ⟨u, _, hu, fun y hy e => hne (e ▸ hy), rfl⟩, rest, rfl,
        by simp [Cursor.advance]⟩
  have hone : Unambiguous (many (· != ';') ++ literal ";".toList) :=
    .many (unambiguous_literal _) (refuses_literal rfl)
  rw [callShape_eq]
  constructor
  · intro h
    obtain ⟨o, ho⟩ := mem_of_end?_append h
    rw [end?_append (unambiguous_callHead hr hs) ho] at h
    exact ⟨o, ho, (hmem o).1 (end?_mem h)⟩
  · rintro ⟨o, ho, h⟩
    rw [end?_append (unambiguous_callHead hr hs) ho, end?, hone.apply_eq ((hmem o).2 h)]
    rfl

end ObjectiveC

namespace Survey

/-- What is cut out before a statement: blanks, and at most one line break before them. -/
theorem beforeIndent_split (b : Text) : ∃ blanks br, b = blanks ++ (br ++ beforeIndent b) ∧
    (∀ c ∈ blanks, Text.isBlank c = true) ∧ (br = [] ∨ br = ['\n'] ∨ br = ['\n', '\r']) := by
  have hblanks : ∀ c ∈ b.takeWhile Text.isBlank, Text.isBlank c = true := fun c hc =>
    List.all_eq_true.1 List.all_takeWhile c hc
  have hb : b = b.takeWhile Text.isBlank ++ b.dropWhile Text.isBlank :=
    List.takeWhile_append_dropWhile.symm
  refine ⟨b.takeWhile Text.isBlank, ?_⟩
  unfold beforeIndent
  split
  · rename_i rest h
    exact ⟨['\n', '\r'], hb.trans (congrArg _ h), hblanks, .inr (.inr rfl)⟩
  · rename_i rest _ h
    exact ⟨['\n'], hb.trans (congrArg _ h), hblanks, .inr (.inl rfl)⟩
  · exact ⟨[], hb, hblanks, .inl rfl⟩

theorem isSpace_of_beforeIndent (b : Text) : ∃ w, b = w ++ beforeIndent b ∧
    ∀ c ∈ w, Text.isSpace c = true := by
  obtain ⟨blanks, br, hb, hblanks, hbr⟩ := beforeIndent_split b
  refine ⟨blanks ++ br, by rw [List.append_assoc]; exact hb, fun c hc => ?_⟩
  rcases List.mem_append.1 hc with h | h
  · exact Text.isSpace_of_isBlank (hblanks c h)
  · rcases hbr with rfl | rfl | rfl
    · simp at h
    · rw [List.mem_singleton.1 h]
      decide
    · simp only [List.mem_cons, List.not_mem_nil, or_false] at h
      rcases h with rfl | rfl <;> decide

theorem size_beforeIndent_le (b : Text) : (beforeIndent b).size ≤ b.size := by
  obtain ⟨w, hw, -⟩ := isSpace_of_beforeIndent b
  have := congrArg Text.size hw
  rw [Text.size_append] at this
  omega

/-- A statement on a line of its own is cut out with the whole line before it. -/
theorem beforeIndent_line {indent b : Text} (hi : ∀ c ∈ indent, Text.isBlank c = true)
    (eol : LineBreak) (hb : b.head? ≠ some '\r') :
    beforeIndent (indent.reverse ++ (eol.text.reverse ++ b)) = b := by
  have hdrop : (indent.reverse ++ (eol.text.reverse ++ b)).dropWhile Text.isBlank =
      eol.text.reverse ++ b := by
    rw [List.dropWhile_append_of_pos fun c hc => hi c (List.mem_reverse.1 hc)]
    cases eol <;> rfl
  unfold beforeIndent
  rw [hdrop]
  cases eol with
  | crlf => rfl
  | lf =>
    cases b with
    | nil => rfl
    | cons c b =>
      have hc : c ≠ '\r' := fun h => hb (by rw [h]; rfl)
      simp only [LineBreak.text, List.reverse_singleton, List.cons_append, List.nil_append]
      split
      · rename_i h
        exact absurd (List.cons.inj (List.cons.inj h).2).1 hc
      · rename_i h
        exact (List.cons.inj h).2.symm
      · rename_i h
        exact absurd rfl (h _)

end Survey

end SdkWiring
