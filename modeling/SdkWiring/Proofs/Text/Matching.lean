import SdkWiring.Delegate.ImportLine

/-!
# What patterns match, as equations

Membership says what a pattern can match. The preferred match is the first of a list, and these
equations compute it for the sequences that occur: a literal, a run of characters that the next
part cannot start with, and a run that goes as far as a later literal allows.

* `literal_append_apply`, `literal_apply_eq_nil`: a literal.
* `many_append_apply`: a run before something that no character of the run can start.
* `find?_skip`, `findAll_of_find?`: searches that pass over a part of a text.
* `mem_findAll`: repeated searches find all matches, if none starts inside another.
* `Unambiguous`, `end?_append`: behind what matches in one way only the rest decides.
-/

namespace SdkWiring

namespace Pattern

variable {p q : Pattern} {f : Char → Bool} {b a t rest : Text} {c d : Cursor}

theorem append_apply (p q : Pattern) (c : Cursor) : (p ++ q) c = (p c).flatMap fun d => q d := rfl

theorem append_assoc (p q r : Pattern) : p ++ q ++ r = p ++ (q ++ r) := by
  funext c
  simp only [append_apply, List.flatMap_assoc]

/-- A literal that stands at a place moves behind itself. -/
theorem literal_append_apply (t b rest : Text) :
    literal t ⟨b, t ++ rest⟩ = [⟨t.reverse ++ b, rest⟩] := by
  induction t generalizing b with
  | nil => rfl
  | cons x t ih => simp [literal, append_apply, one, ih]

theorem literal_apply_eq_nil (h : ¬ t <+: a) : literal t ⟨b, a⟩ = [] := by
  rw [List.eq_nil_iff_forall_not_mem]
  intro d hd
  obtain ⟨rest, ha, -⟩ := mem_literal.1 hd
  exact h ⟨rest, ha.symm⟩

/-- A literal either stands at a place or does not match there. -/
theorem literal_apply (t b a : Text) :
    literal t ⟨b, a⟩ = if t <+: a then [⟨t.reverse ++ b, a.drop t.length⟩] else [] := by
  split
  · rename_i h
    obtain ⟨rest, rfl⟩ := h
    rw [literal_append_apply, List.drop_left]
  · rename_i h
    exact literal_apply_eq_nil h

/-- A pattern refuses a class if no match starts with a character of it. -/
def Refuses (p : Pattern) (f : Char → Bool) : Prop :=
  ∀ b x a, f x = true → p ⟨b, x :: a⟩ = []

theorem refuses_literal {x : Char} (h : f x = false) : Refuses (literal (x :: t)) f := by
  intro b y a hy
  apply literal_apply_eq_nil
  rintro ⟨rest, hr⟩
  obtain ⟨rfl, -⟩ := List.cons.inj hr
  simp [h] at hy

theorem Refuses.append (h : Refuses p f) (q : Pattern) : Refuses (p ++ q) f := by
  intro b x a hx
  rw [append_apply, h b x a hx, List.flatMap_nil]

/-- A literal of a class other than the one before it, its first character given. -/
theorem refuses_literal_of_head {x : Char} (ht : t.head? = some x) (h : f x = false) :
    Refuses (literal t) f := by
  obtain ⟨t', rfl⟩ := List.head?_eq_some_iff.1 ht
  exact refuses_literal h

theorem runs_append_apply (hq : Refuses q f) (b a : Text) :
    ((runs f b a).reverse.flatMap fun d => q d) = q ⟨(a.takeWhile f).reverse ++ b, a.dropWhile f⟩ := by
  induction a generalizing b with
  | nil => simp [runs]
  | cons x a ih =>
    by_cases hx : f x = true
    · have hb := hq b x a hx
      simp [runs, hx, ih, hb]
    · simp [runs, hx]

/-- **A run before something that no character of the run can start** takes all it can. -/
theorem many_append_apply (hq : Refuses q f) (b a : Text) :
    (many f ++ q) ⟨b, a⟩ = q ⟨(a.takeWhile f).reverse ++ b, a.dropWhile f⟩ :=
  runs_append_apply hq b a

theorem many1_append_apply (hq : Refuses q f) (b a : Text) :
    (many1 f ++ q) ⟨b, a⟩ =
      if a.head?.any f then q ⟨(a.takeWhile f).reverse ++ b, a.dropWhile f⟩ else [] := by
  rw [many1, append_assoc, append_apply]
  cases a with
  | nil => simp [one]
  | cons x a =>
    by_cases hx : f x = true
    · simp [one, hx, many_append_apply hq]
    · simp [one, hx]

theorem matchesAt_iff : p.matchesAt c = true ↔ ∃ d, d ∈ p c := by
  simp only [matchesAt, Bool.not_eq_true', List.isEmpty_eq_false_iff_exists_mem]

theorem matchesAt_eq_isSome : p.matchesAt c = (p.end? c).isSome := by
  unfold matchesAt end?
  cases p c <;> rfl

theorem end?_mem (h : p.end? c = some d) : d ∈ p c :=
  List.mem_of_head? h

theorem mem_many1 : d ∈ many1 f c ↔ ∃ x part rest, c.after = x :: part ++ rest ∧
    (∀ y ∈ x :: part, f y = true) ∧ d = c.advance (x :: part) rest := by
  simp only [many1, mem_append, mem_one, mem_many, mem_few]
  constructor
  · rintro ⟨m, ⟨x, rest, hc, hx, rfl⟩, part, rest', hm, hp, rfl⟩
    refine ⟨x, part, rest', ?_, ?_, ?_⟩
    · simp_all [Cursor.advance]
    · simpa [hx] using hp
    · simp [Cursor.advance]
  · rintro ⟨x, part, rest, hc, hp, rfl⟩
    refine ⟨c.advance [x] (part ++ rest), ⟨x, _, by simpa using hc, hp x (by simp), rfl⟩, part,
      rest, rfl, fun y hy => hp y (by simp [hy]), by simp [Cursor.advance]⟩

theorem mem_border :
    d ∈ border c ↔ (c.before.head?.any Text.isWord != c.after.head?.any Text.isWord) = true ∧ d = c :=
  mem_guard

theorem mem_skip : d ∈ skip c ↔ d = c := List.mem_singleton

theorem mem_optional : d ∈ optional p c ↔ d ∈ p c ∨ d = c := by
  rw [optional, mem_orElse, mem_skip]

theorem mem_anyOf {texts : List Text} :
    d ∈ anyOf texts c ↔ ∃ t ∈ texts, ∃ rest, c.after = t ++ rest ∧ d = c.advance t rest := by
  simp only [anyOf, List.mem_flatMap, mem_literal]

/-- A pattern occurs in a text if it matches between two parts of it. -/
theorem occursIn_iff {x : Text} :
    p.occursIn x = true ↔ ∃ y z, x = y ++ z ∧ p.matchesAt ⟨y.reverse, z⟩ = true := by
  simp only [occursIn, List.any_eq_true, Cursor.places, Cursor.start, Cursor.mem_placesFrom]
  constructor
  · rintro ⟨c, ⟨y, z, rfl, rfl⟩, h⟩
    exact ⟨y, z, rfl, by simpa using h⟩
  · rintro ⟨y, z, rfl, h⟩
    exact ⟨_, ⟨y, z, rfl, rfl⟩, by simpa using h⟩

/-- **A search passes over a part of a text** in which no match starts. -/
theorem find?_skip (h : ∀ x y, t = x ++ y → y ≠ [] →
    p.matchesAt ⟨x.reverse ++ b, y ++ a⟩ = false) :
    p.find? ⟨b, t ++ a⟩ = p.find? ⟨t.reverse ++ b, a⟩ := by
  induction t generalizing b with
  | nil => rfl
  | cons c t ih =>
    have hhere : p.end? ⟨b, c :: t ++ a⟩ = none := by
      have hn := h [] (c :: t) rfl (by simp)
      rw [matchesAt_eq_isSome] at hn
      exact Option.not_isSome_iff_eq_none.1 (by simpa using hn)
    have hnext := ih (b := c :: b) fun x y ht hy => by
      have := h (c :: x) y (by rw [ht]; rfl) hy
      simpa using this
    rw [List.reverse_cons, List.append_assoc]
    refine Eq.trans ?_ hnext
    simp only [find?, Cursor.places, List.cons_append, Cursor.placesFrom, List.findSome?_cons] at hhere ⊢
    rw [hhere]
    rfl

/-- A search finds what matches right where it starts. -/
theorem find?_of_end? (h : p.end? c = some d) : p.find? c = some (c, d) := by
  obtain ⟨b, a⟩ := c
  cases a <;> simp [find?, Cursor.places, Cursor.placesFrom, h]

theorem find?_nil (h : p.matchesAt ⟨b, []⟩ = false) : p.find? ⟨b, []⟩ = none := by
  rw [matchesAt_eq_isSome] at h
  have hn : p.end? ⟨b, []⟩ = none := Option.not_isSome_iff_eq_none.1 (by simpa using h)
  simp [find?, Cursor.places, Cursor.placesFrom, hn]

theorem findAll_of_find?_none (h : p.find? c = none) : p.findAll c = [] := by
  rw [findAll, h]

theorem findAll_of_find? {s : Cursor} (h : p.find? c = some (s, d))
    (hlt : d.after.length < c.after.length) : p.findAll c = (s, d) :: p.findAll d := by
  rw [findAll, h]
  simp only [if_pos hlt]

theorem occursIn_eq_isSome {x : Text} : p.occursIn x = (p.find? (.start x)).isSome := by
  rw [occursIn, find?]
  induction (Cursor.start x).places with
  | nil => rfl
  | cons c l ih =>
    rw [List.any_cons, List.findSome?_cons, ih, matchesAt_eq_isSome]
    cases p.end? c <;> rfl

theorem find?_cons {x : Char} : p.find? ⟨b, x :: a⟩ =
    (p.end? ⟨b, x :: a⟩).elim (p.find? ⟨x :: b, a⟩) fun d => some (⟨b, x :: a⟩, d) := by
  rw [find?, Cursor.places, Cursor.placesFrom, List.findSome?_cons]
  cases p.end? ⟨b, x :: a⟩ <;> rfl

/-- What a search finds matches, and no match starts before it. -/
structure FoundAt (p : Pattern) (c s d : Cursor) (x : Text) : Prop where
  after : c.after = x ++ s.after
  start : s = c.advance x s.after
  ends : p.end? s = some d
  first : ∀ y z, x = y ++ z → z ≠ [] → p.matchesAt (c.advance y (z ++ s.after)) = false

theorem find?_eq_none (h : p.find? c = none) :
    ∀ x y, c.after = x ++ y → p.matchesAt (c.advance x y) = false := by
  obtain ⟨b, a⟩ := c
  induction a generalizing b with
  | nil =>
    intro x y hxy
    obtain ⟨rfl, rfl⟩ := List.append_eq_nil_iff.1 hxy.symm
    rw [matchesAt_eq_isSome, ← Bool.not_eq_true, Option.isSome_iff_exists]
    rintro ⟨d, hd⟩
    rw [find?_of_end? (c := ⟨b, []⟩) hd] at h
    cases h
  | cons c a ih =>
    rw [find?_cons] at h
    intro x y hxy
    cases hd : p.end? ⟨b, c :: a⟩ with
    | some d =>
      rw [hd] at h
      cases h
    | none =>
      rw [hd] at h
      cases x with
      | nil =>
        obtain rfl : c :: a = y := hxy
        rw [matchesAt_eq_isSome]
        exact hd ▸ rfl
      | cons c' x =>
        obtain ⟨rfl, hrest⟩ := List.cons.inj hxy
        simpa [Cursor.advance] using ih _ h x y hrest

/-- **A search finds the match that starts first.** -/
theorem find?_eq_some {s : Cursor} (h : p.find? c = some (s, d)) : ∃ x, p.FoundAt c s d x := by
  obtain ⟨b, a⟩ := c
  induction a generalizing b with
  | nil =>
    cases hd : p.end? ⟨b, []⟩ with
    | none =>
      rw [find?_nil (by rw [matchesAt_eq_isSome, hd]; rfl)] at h
      cases h
    | some e =>
      rw [find?_of_end? hd] at h
      obtain ⟨rfl, rfl⟩ := Prod.mk.inj (Option.some.inj h)
      exact ⟨[], rfl, rfl, hd, fun y z hyz hz => absurd (List.append_eq_nil_iff.1 hyz.symm).2 hz⟩
  | cons c a ih =>
    rw [find?_cons] at h
    cases hd : p.end? ⟨b, c :: a⟩ with
    | some e =>
      rw [hd] at h
      obtain ⟨rfl, rfl⟩ := Prod.mk.inj (Option.some.inj h)
      exact ⟨[], rfl, rfl, hd, fun y z hyz hz => absurd (List.append_eq_nil_iff.1 hyz.symm).2 hz⟩
    | none =>
      rw [hd] at h
      obtain ⟨x, hafter, hstart, hends, hfirst⟩ := ih _ h
      refine ⟨c :: x, congrArg (c :: ·) hafter, ?_, hends, fun y z hyz hz => ?_⟩
      · rw [hstart]
        simp [Cursor.advance]
      · cases y with
        | nil =>
          obtain rfl : c :: x = z := hyz
          obtain rfl : a = x ++ s.after := hafter
          rw [matchesAt_eq_isSome]
          exact hd ▸ rfl
        | cons c' y =>
          obtain ⟨rfl, hrest⟩ := List.cons.inj hyz
          simpa [Cursor.advance] using hfirst y z hrest hz

/-- A match that moves on, with no other one that starts inside it. -/
def Lone (p : Pattern) (s d : Cursor) : Prop :=
  ∃ part, part ≠ [] ∧ s.after = part ++ d.after ∧ d = s.advance part d.after ∧
    ∀ x y, part = x ++ y → x ≠ [] → y ≠ [] → p.matchesAt (s.advance x (y ++ d.after)) = false

theorem start_advance (x y z : Text) : (Cursor.start x).advance y z = ⟨y.reverse, z⟩ := by
  simp [Cursor.start, Cursor.advance]

theorem advance_advance (c : Cursor) (x y z w : Text) :
    (c.advance x y).advance z w = c.advance (x ++ z) w := by
  simp [Cursor.advance]

theorem matchesAt_of_end? (h : p.end? c = some d) : p.matchesAt c = true := by
  rw [matchesAt_eq_isSome, h, Option.isSome_some]

theorem matchesAt_ne_false (h : p.end? c = some d) : p.matchesAt c ≠ false := by
  rw [matchesAt_of_end? h]
  decide

/-- **A match is the one that a search finds, or starts behind it.** -/
theorem FoundAt.eq_or_behind {s e : Cursor} {x y z : Text} (h : p.FoundAt c s d x) (hl : p.Lone s d)
    (hyz : c.after = y ++ z) (he : p.end? (c.advance y z) = some e) :
    (c.advance y z, e) = (s, d) ∨ ∃ w, d.after = w ++ z ∧ c.advance y z = d.advance w z := by
  obtain ⟨part, -, hpart, hd, halone⟩ := hl
  have hadvance : ∀ w v, s.advance w v = c.advance (x ++ w) v := fun w v => by
    rw [← advance_advance c x s.after w, ← h.start]
  have hsame : y = x → (c.advance y z, e) = (s, d) := by
    rintro rfl
    have hz : z = s.after := List.append_cancel_left (hyz.symm.trans h.after)
    have hs : c.advance y z = s := by rw [hz, ← h.start]
    rw [hs, h.ends] at he
    rw [hs, Option.some.inj he]
  have hafter : c.after = x ++ part ++ d.after := by rw [h.after, hpart, List.append_assoc]
  rcases List.append_eq_append_iff.1 (hafter.symm.trans hyz) with ⟨w, rfl, hw⟩ | ⟨w, hw, rfl⟩
  · refine .inr ⟨w, hw, ?_⟩
    rw [hd, advance_advance, hadvance, List.append_assoc]
  by_cases hne : w = []
  · subst hne
    rw [List.append_nil] at hw
    refine .inr ⟨[], rfl, ?_⟩
    rw [← hw, ← hadvance]
    exact hd.symm
  · -- it starts in front of the end of the match that is found
    rcases List.append_eq_append_iff.1 hw with ⟨v, rfl, hv⟩ | ⟨v, rfl, hv⟩
    · by_cases hv' : v = []
      · exact .inl (hsame (by rw [hv', List.append_nil]))
      · have hno := halone v w hv hv' hne
        rw [hadvance] at hno
        exact absurd hno (matchesAt_ne_false he)
    · by_cases hv' : v = []
      · exact .inl (hsame (by rw [hv', List.append_nil]))
      · have hno := h.first y v rfl hv'
        rw [hpart, ← List.append_assoc, ← hv] at hno
        exact absurd hno (matchesAt_ne_false he)

/-- **Repeated searches find all matches**, if none starts inside another. -/
theorem mem_findAll {s : Cursor} (hlone : ∀ x y e, c.after = x ++ y →
      p.end? (c.advance x y) = some e → p.Lone (c.advance x y) e) :
    (s, d) ∈ p.findAll c ↔ ∃ x y, c.after = x ++ y ∧ s = c.advance x y ∧ p.end? s = some d := by
  induction c using findAll.induct p with
  | case1 c hfind =>
    rw [findAll_of_find?_none hfind]
    refine ⟨fun h => by simp at h, ?_⟩
    rintro ⟨x, y, hxy, rfl, hend⟩
    exact absurd (find?_eq_none hfind x y hxy) (matchesAt_ne_false hend)
  | case2 c found hfind hlt ih =>
    obtain ⟨s₀, d₀⟩ := found
    obtain ⟨x₀, hfound⟩ := find?_eq_some hfind
    have hl : p.Lone s₀ d₀ := by
      rw [hfound.start]
      exact hlone x₀ s₀.after d₀ hfound.after (hfound.start ▸ hfound.ends)
    obtain ⟨part, -, hpart, hd₀, -⟩ := id hl
    -- a place behind the first match is a place of the whole text
    have hplace : ∀ {x y}, d₀.after = x ++ y →
        c.after = x₀ ++ part ++ x ++ y ∧ d₀.advance x y = c.advance (x₀ ++ part ++ x) y := by
      intro x y hxy
      refine ⟨by rw [hfound.after, hpart, hxy]; simp, ?_⟩
      rw [hd₀, hfound.start, advance_advance, advance_advance, List.append_assoc]
    have hrest : (s, d) ∈ p.findAll d₀ ↔
        ∃ x y, d₀.after = x ++ y ∧ s = d₀.advance x y ∧ p.end? s = some d :=
      ih fun x y e hxy hend => by
        obtain ⟨hafter, hadvance⟩ := hplace hxy
        exact hadvance ▸ hlone _ _ _ hafter (hadvance ▸ hend)
    rw [findAll_of_find? hfind hlt, List.mem_cons, hrest]
    constructor
    · rintro (heq | ⟨x, y, hxy, rfl, hend⟩)
      · obtain ⟨rfl, rfl⟩ := Prod.mk.inj heq
        exact ⟨x₀, s.after, hfound.after, hfound.start, hfound.ends⟩
      · obtain ⟨hafter, hadvance⟩ := hplace hxy
        exact ⟨_, y, hafter, hadvance, hend⟩
    · rintro ⟨x, y, hxy, rfl, hend⟩
      rcases hfound.eq_or_behind hl hxy hend with heq | ⟨w, hw, hs⟩
      · exact .inl heq
      · exact .inr ⟨w, y, hw, hs, hend⟩
  | case3 c found hfind hlt =>
    obtain ⟨s₀, d₀⟩ := found
    obtain ⟨x₀, hfound⟩ := find?_eq_some hfind
    obtain ⟨part, hne, hpart, -⟩ := hlone x₀ s₀.after d₀ hfound.after (hfound.start ▸ hfound.ends)
    -- a match has text of its own, so the search goes on with less
    have hlen : s₀.after.length = part.length + d₀.after.length := by
      rw [← List.length_append]
      exact congrArg List.length hpart
    refine absurd ?_ hlt
    have := List.length_pos_iff.2 hne
    rw [hfound.after, List.length_append]
    change d₀.after.length < _
    omega

/-! ## Patterns that match in one way -/

/-- A pattern that matches in at most one way at every place. -/
def Unambiguous (p : Pattern) : Prop := ∀ c, (p c).length ≤ 1

theorem Unambiguous.apply_eq (hp : Unambiguous p) (h : d ∈ p c) : p c = [d] := by
  have hlen := hp c
  cases hl : p c with
  | nil => simp [hl] at h
  | cons e l =>
    cases l with
    | nil => simpa [hl, eq_comm] using h
    | cons e' l => simp [hl] at hlen

theorem unambiguous_literal (t : Text) : Unambiguous (literal t) := by
  intro ⟨b, a⟩
  rw [literal_apply]
  split <;> simp

theorem unambiguous_one (f : Char → Bool) : Unambiguous (one f) := by
  intro ⟨b, a⟩
  cases a with
  | nil => simp [one]
  | cons x a => cases hx : f x <;> simp [one, hx]

theorem refuses_one {g : Char → Bool} (h : ∀ c, f c = true → g c = false) : Refuses (one g) f := by
  intro b x a hx
  simp [one, h x hx]

theorem unambiguous_guard (holds : Cursor → Bool) : Unambiguous (guard holds) := by
  intro c
  rw [guard]
  split <;> simp

theorem Unambiguous.append (hp : Unambiguous p) (hq : Unambiguous q) : Unambiguous (p ++ q) := by
  intro c
  rw [append_apply]
  have hlen := hp c
  cases hl : p c with
  | nil => simp
  | cons d l =>
    cases l with
    | nil => simpa using hq d
    | cons e l => simp [hl] at hlen

theorem Unambiguous.many (hq : Unambiguous q) (hr : Refuses q f) :
    Unambiguous (Pattern.many f ++ q) := by
  intro ⟨b, a⟩
  rw [many_append_apply hr]
  exact hq _

theorem Unambiguous.many1 (hq : Unambiguous q) (hr : Refuses q f) :
    Unambiguous (Pattern.many1 f ++ q) := by
  intro ⟨b, a⟩
  rw [many1_append_apply hr]
  split
  · exact hq _
  · simp

/-- Behind an unambiguous pattern the preferred match of the rest decides. -/
theorem end?_append (hp : Unambiguous p) (h : d ∈ p c) : (p ++ q).end? c = q.end? d := by
  rw [end?, append_apply, hp.apply_eq h]
  simp [end?]

/-- A run that is as short as possible ends where the rest is found first. -/
theorem end?_few_append (q : Pattern) (c : Cursor) :
    (few (fun _ => true) ++ q).end? c = (q.find? c).map (·.2) := by
  have hruns : ∀ b a, runs (fun _ => true) b a = Cursor.placesFrom b a := by
    intro b a
    induction a generalizing b with
    | nil => rfl
    | cons x a ih => rw [runs, if_pos rfl, ih, Cursor.placesFrom]
  change ((runs (fun _ => true) c.before c.after).flatMap fun d => q d).head? = _
  rw [hruns, List.head?_flatMap, find?, List.map_findSome?]
  refine congrArg (fun f => List.findSome? f c.places) (funext fun s => ?_)
  change q.end? s = ((q.end? s).map fun e => (s, e)).map (·.2)
  cases q.end? s <;> rfl

theorem mem_of_end?_append (h : (p ++ q).end? c = some d) : ∃ o, o ∈ p c := by
  obtain ⟨m, hm, -⟩ := mem_append.1 (end?_mem h)
  exact ⟨m, hm⟩

end Pattern

end SdkWiring
