import SdkWiring.Proofs.Delegate.FoldedHeader
import SdkWiring.Proofs.Delegate.Run

/-!
# The body of a method and its parameters

A method is entered at the first live brace behind its name. That brace opens the body just if the
list of parameters is closed in front of it: a brace in a default argument, as in
`done: () -> Void = {}`, comes first and is taken for the body.

* `Swift.balances`: whether live parentheses balance.
* `Swift.OpensParameters`: the parenthesis up to which the header of a method is recognised.
* `exists_position_of_headerText`: the position that a character of a header comes from.
* `Swift.balances_header_iff`: **the header balances** just if no brace stands in the list of
  parameters.
* `Swift.defaultArgument_taken`: a method that is entered inside its parameters.
-/

namespace SdkWiring

variable {code : Position → Bool} {r : Recipe} {content x z rest : Text} {c : Char} {m : Nat}
  {zs us ys params : List Position} {o b p q : Position}

/-- **Where a character of a header comes from.** But for a space, it is that of a position of code, and
before it stands the header up to that position. -/
theorem exists_position_of_headerText (hc : c ≠ ' ')
    (h : headerText code zs.reverse = z ++ c :: rest) : ∃ xs o us, zs = xs ++ o :: us ∧
      code o = true ∧ o.char = c ∧ headerText code xs.reverse = z ∧
        ∀ u ∈ us, u.endsHeader = false := by
  induction zs using List.reverseRecOn generalizing rest with
  | nil => simp [headerText, foldRuns] at h
  | append_singleton zs p ih =>
    rw [List.reverse_concat] at h
    cases hp : p.endsHeader with
    | true => simp [headerText_of_endsHeader hp] at h
    | false =>
      -- the character stands in the header so far, unless it is the one that `p` adds
      have hbefore : ∀ rest, headerText code zs.reverse = z ++ c :: rest →
          ∃ xs o us, zs ++ [p] = xs ++ o :: us ∧ code o = true ∧ o.char = c ∧
            headerText code xs.reverse = z ∧ ∀ u ∈ us, u.endsHeader = false := by
        intro rest h
        obtain ⟨xs, o, us, rfl, ho, hchar, hz, hus⟩ := ih h
        refine ⟨xs, o, us ++ [p], by simp, ho, hchar, hz, fun u hu => ?_⟩
        rcases List.mem_append.1 hu with hu | hu
        · exact hus u hu
        · rw [List.mem_singleton.1 hu, hp]
      rw [headerText_of_not_endsHeader hp] at h
      rcases rest.eq_nil_or_concat with rfl | ⟨rest, d, rfl⟩
      · split at h
        · rename_i hcode
          obtain ⟨hz, hchar⟩ := List.append_inj' h rfl
          exact ⟨zs, p, [], rfl, hcode, (List.cons.inj hchar).1, hz, by simp⟩
        · split at h
          · exact hbefore [] (by rw [← h, List.append_nil])
          · exact absurd (List.cons.inj (List.append_inj' h rfl).2).1.symm hc
      · have hcut : ∀ e, headerText code zs.reverse ++ [e] = z ++ c :: (rest ++ [d]) →
            headerText code zs.reverse = z ++ c :: rest := by
          intro e he
          rw [← List.cons_append, ← List.append_assoc] at he
          exact (List.append_inj' he rfl).1
        rw [List.concat_eq_append] at h
        split at h
        · exact hbefore rest (hcut _ h)
        · split at h
          · exact hbefore (rest ++ [d]) (by rw [← h, List.append_nil])
          · exact hbefore rest (hcut _ h)

/-- The header that a survey has read is the folded text behind the last brace or semicolon. -/
theorem Recipe.header_run (r : Recipe) (zs : List Position) :
    (r.run {} zs).header.text = headerText Position.isPlain zs.reverse := by
  induction zs using List.reverseRecOn with
  | nil => rfl
  | append_singleton zs p ih =>
    rw [run_append, run_cons, run_nil, List.reverse_concat]
    exact text_next rfl ih

namespace Swift

/-- Whether live parentheses balance, with `depth` more to be closed. -/
def balances : Nat → List Position → Bool
  | depth, [] => depth == 0
  | depth, p :: ps =>
    if p.live '(' then balances (depth + 1) ps
    else if p.live ')' then decide (0 < depth) && balances (depth - 1) ps
    else balances depth ps

/-- The text of the header of a method up to its parenthesis. -/
def methodWords (r : Recipe) (s₁ s₂ : Text) : Text :=
  "func".toList ++ (s₁ ++ (r.methodName ++ s₂))

/-- A live parenthesis up to which the header of the method is recognised, with no live brace or
semicolon between it and the brace that has the header. -/
structure OpensParameters (r : Recipe) (xs : List Position) (o : Position) (us : List Position) :
    Prop where
  live : o.live '(' = true
  header : ∃ x words, headerText Position.isPlain xs.reverse = x ++ words ∧
    ⟨'(' :: (words.reverse ++ x.reverse), []⟩ ∈ methodHeader r ⟨x.reverse, words ++ ['(']⟩
  unbroken : ∀ u ∈ us, u.endsHeader = false

/-- Behind its opening parenthesis, a list of parameters is closed before any live brace or semicolon,
and up to the next one of these what follows it balances. -/
def PlainParameters (tail : List Position) : Prop :=
  ∃ params q rest, tail = params ++ q :: rest ∧ q.live ')' = true ∧ balances 0 params = true ∧
    (∀ p ∈ params, p.endsHeader = false) ∧
      balances 0 (rest.takeWhile fun p => !p.endsHeader) = true

theorem balances_cons (depth : Nat) (p : Position) (ps : List Position) : balances depth (p :: ps) =
    if p.live '(' then balances (depth + 1) ps
    else if p.live ')' then decide (0 < depth) && balances (depth - 1) ps
    else balances depth ps := rfl

theorem balances_open {depth : Nat} (hp : p.live '(' = true) :
    balances depth (p :: us) = balances (depth + 1) us := by
  rw [balances_cons, if_pos hp]

theorem balances_close {depth : Nat} (hp : p.live ')' = true) :
    balances depth (p :: us) = (decide (0 < depth) && balances (depth - 1) us) := by
  rw [balances_cons, Position.not_live_of_live (by decide) hp, if_neg (by decide), if_pos hp]

theorem balances_other {depth : Nat} (ho : p.live '(' = false) (hc : p.live ')' = false) :
    balances depth (p :: us) = balances depth us := by
  rw [balances_cons, ho, hc, if_neg (by decide), if_neg (by decide)]

/-- Where more parentheses are closed than opened, one of them closes what was open before. -/
theorem exists_closer {depth : Nat} (h : balances (depth + 1) us = true) :
    ∃ params q rest, us = params ++ q :: rest ∧ q.live ')' = true ∧
      balances depth params = true ∧ balances 0 rest = true := by
  induction us generalizing depth with
  | nil => simp [balances] at h
  | cons p us ih =>
    by_cases ho : p.live '(' = true
    · rw [balances_open ho] at h
      obtain ⟨params, q, rest, rfl, hq, hparams, hrest⟩ := ih h
      exact ⟨p :: params, q, rest, rfl, hq, by rwa [balances_open ho], hrest⟩
    · by_cases hc : p.live ')' = true
      · rw [balances_close hc, Nat.add_sub_cancel, Bool.and_eq_true] at h
        cases depth with
        | zero => exact ⟨[], p, us, rfl, hc, rfl, h.2⟩
        | succ depth =>
          obtain ⟨params, q, rest, rfl, hq, hparams, hrest⟩ := ih h.2
          refine ⟨p :: params, q, rest, rfl, hq, ?_, hrest⟩
          rw [balances_close hc, Nat.add_sub_cancel, hparams]
          simp
      · rw [Bool.not_eq_true] at ho hc
        rw [balances_other ho hc] at h
        obtain ⟨params, q, rest, rfl, hq, hparams, hrest⟩ := ih h
        exact ⟨p :: params, q, rest, rfl, hq, by rwa [balances_other ho hc], hrest⟩

theorem balances_closer {depth : Nat} (hq : q.live ')' = true)
    (hparams : balances depth params = true) :
    balances (depth + 1) (params ++ q :: us) = balances 0 us := by
  induction params generalizing depth with
  | nil =>
    obtain rfl : depth = 0 := by simpa [balances] using hparams
    rw [List.nil_append, balances_close hq]
    rfl
  | cons p params ih =>
    rw [List.cons_append]
    by_cases ho : p.live '(' = true
    · rw [balances_open ho] at hparams ⊢
      exact ih hparams
    · by_cases hc : p.live ')' = true
      · rw [balances_close hc, Bool.and_eq_true, decide_eq_true_eq] at hparams
        obtain ⟨n, rfl⟩ := Nat.exists_eq_succ_of_ne_zero hparams.1.ne'
        rw [balances_close hc, Nat.add_sub_cancel]
        simpa using ih hparams.2
      · rw [Bool.not_eq_true] at ho hc
        rw [balances_other ho hc] at hparams ⊢
        exact ih hparams

/-- **A parenthesis and what follows it balance**, up to the next live brace or semicolon, just if a
list of parameters stands there with none of these in it. -/
theorem balances_iff (ho : o.live '(' = true) (hus : ∀ u ∈ us, u.endsHeader = false)
    (hb : b.endsHeader = true) :
    balances 0 (o :: us) = true ↔ PlainParameters (us ++ b :: ys) := by
  have hupto : ∀ {rest : List Position}, (∀ p ∈ rest, p.endsHeader = false) →
      (rest ++ b :: ys).takeWhile (fun p => !p.endsHeader) = rest := by
    intro rest h
    rw [List.takeWhile_append_of_pos fun p hp => by simp [h p hp],
      List.takeWhile_cons_of_neg (by simp [hb]), List.append_nil]
  rw [balances_open ho]
  constructor
  · intro h
    obtain ⟨params, q, rest, rfl, hq, hparams, hrest⟩ := exists_closer h
    refine ⟨params, q, rest ++ b :: ys, by simp, hq, hparams, fun p hp => hus p (by simp [hp]), ?_⟩
    rwa [hupto fun p hp => hus p (by simp [hp])]
  · rintro ⟨params, q, rest, htail, hq, hparams, hplain, hrest⟩
    have hqb : q.endsHeader = false := by
      rw [Position.endsHeader, (Position.live_iff.1 hq).2]
      simp
    -- the closing parenthesis stands before the brace, since neither it nor a parameter ends a header
    obtain ⟨rest', rfl, rfl⟩ : ∃ rest', us = params ++ q :: rest' ∧ rest = rest' ++ b :: ys := by
      rcases List.append_eq_append_iff.1 htail with ⟨w, hw, htail⟩ | ⟨w, hw, htail⟩
      · cases w with
        | nil =>
          obtain ⟨rfl, -⟩ := List.cons.inj htail
          rw [hb] at hqb
          cases hqb
        | cons p w =>
          obtain ⟨rfl, -⟩ := List.cons.inj htail
          rw [hplain b (by simp [hw])] at hb
          cases hb
      · cases w with
        | nil =>
          obtain ⟨rfl, -⟩ := List.cons.inj htail
          rw [hb] at hqb
          cases hqb
        | cons p w =>
          obtain ⟨rfl, rfl⟩ := List.cons.inj htail
          exact ⟨w, hw, rfl⟩
    rw [hupto fun p hp => hus p (by simp [hp])] at hrest
    rw [balances_closer hq hparams, hrest]

open Pattern in
/-- **What the header of a method is recognised by**: a keyword at the start of a word, white space, the
name, and a parenthesis, with white space before it or not. -/
theorem mem_methodHeader {before a : Text} {d : Cursor} :
    d ∈ methodHeader r ⟨before, a⟩ ↔ ∃ s₁ s₂, s₁ ≠ [] ∧ (∀ c ∈ s₁ ++ s₂, Text.isSpace c = true) ∧
      before.head?.any Text.isWord = false ∧
      a = methodWords r s₁ s₂ ++ '(' :: d.after ∧
      d.before = '(' :: ((methodWords r s₁ s₂).reverse ++ before) := by
  obtain ⟨db, da⟩ := d
  have hkeyword : Text.isWord 'f' = true := by decide
  simp only [methodHeader, mem_append, mem_literal, mem_many, mem_few, mem_many1, mem_border,
    Cursor.advance]
  constructor
  · rintro ⟨-, ⟨-, ⟨-, ⟨-, ⟨-, ⟨hb, rfl⟩, -, rfl, rfl⟩, x, s₁, -, rfl, hs₁, rfl⟩, -, rfl, rfl⟩,
      s₂, -, rfl, hs₂, rfl⟩, rest, rfl, h⟩
    obtain ⟨rfl, rfl⟩ := Cursor.mk.inj h
    refine ⟨x :: s₁, s₂, by simp, ?_, by simpa [hkeyword] using hb, by simp [methodWords],
      by simp [methodWords]⟩
    intro c hc
    rcases List.mem_append.1 hc with hc | hc
    · exact hs₁ c hc
    · exact hs₂ c hc
  · rintro ⟨s₁, s₂, hne, hs, hb, rfl, rfl⟩
    obtain ⟨x, s₁, rfl⟩ := List.exists_cons_of_ne_nil hne
    have htext : methodWords r (x :: s₁) s₂ ++ '(' :: da =
        "func".toList ++ (x :: s₁ ++ (r.methodName ++ (s₂ ++ ("(".toList ++ da)))) := by
      simp [methodWords]
    rw [htext]
    refine ⟨_, ⟨_, ⟨_, ⟨_, ⟨_, ⟨?_, rfl⟩, _, rfl, rfl⟩, x, s₁, _, rfl,
      fun c hc => hs c (List.mem_append_left _ hc), rfl⟩, _, rfl, rfl⟩, s₂, _, rfl,
      fun c hc => hs c (List.mem_append_right _ hc), rfl⟩, da, rfl, ?_⟩
    · simp [hb, hkeyword]
    · simp [methodWords]

/-- **The parenthesis of a header that is recognised.** Among the positions before the brace that has
the header, one opens the parameters. -/
theorem exists_opensParameters
    (h : (methodHeader r).occursIn (headerText Position.isPlain zs.reverse) = true) :
    ∃ xs o us, zs = xs ++ o :: us ∧ OpensParameters r xs o us := by
  obtain ⟨x, y, hheader, hmatch⟩ := Pattern.occursIn_iff.1 h
  obtain ⟨d, hd⟩ := Pattern.matchesAt_iff.1 hmatch
  obtain ⟨s₁, s₂, hne, hs, hb, rfl, -⟩ := mem_methodHeader.1 hd
  rw [← List.append_assoc] at hheader
  obtain ⟨xs, o, us, rfl, hplain, hchar, hbefore, hus⟩ :=
    exists_position_of_headerText (by decide) hheader
  have hsig : o.significant = true := by
    simp only [Position.isPlain, Bool.and_eq_true] at hplain
    exact hplain.1.1.1
  exact ⟨xs, o, us, rfl, Position.live_iff.2 ⟨hsig, hchar⟩,
    ⟨x, _, hbefore, mem_methodHeader.2 ⟨s₁, s₂, hne, hs, hb, rfl, rfl⟩⟩, hus⟩

/-- **The parentheses of a header balance** from where the header of the method is recognised up to the
brace that is taken for the one of its body, just if the list of parameters that starts there is
closed with no live brace or semicolon in it, and what follows it up to that brace balances. -/
theorem balances_header_iff (hl : r.language = .swift)
    (hm : (r.analyze content).methodBody = some m) :
    ∃ zs b ys, positions .swift content = zs ++ b :: ys ∧ b.live '{' = true ∧ b.offset + 1 = m ∧
      (∃ xs o us, zs = xs ++ o :: us ∧ OpensParameters r xs o us) ∧
      ∀ xs o us, zs = xs ++ o :: us → OpensParameters r xs o us →
        (balances 0 (o :: us) = true ↔ PlainParameters (us ++ b :: ys)) := by
  rw [Recipe.methodBody_analyze] at hm
  obtain ⟨zs, b, ys, hsplit, hoffset, henter⟩ := Recipe.origin_body hm
  have hquoting : r.language.quoting = .swift := by rw [hl]; rfl
  have hheader : (methodHeader r).occursIn (headerText Position.isPlain zs.reverse) = true := by
    have hopens := henter.opens
    simp only [Recipe.opensMethod, Recipe.methodHeader, hl, Bool.and_eq_true] at hopens
    rw [← r.header_run zs]
    exact hopens.2
  have hends : b.endsHeader = true := by
    simp [Position.endsHeader, henter.significant, henter.char_eq]
  rw [hquoting] at hsplit
  refine ⟨zs, b, ys, hsplit, henter.live, hoffset, exists_opensParameters hheader, ?_⟩
  intro xs o us _ hopens
  exact balances_iff hopens.live hopens.unbroken hends

/-- A method with parentheses among its parameters, but no brace. -/
def callback : Text :=
  "class AppDelegate \x7b\n  func application(done: (Int) -> Void = go()) \x7b\n  \x7d\n\x7d\n".toList

theorem balances_header_iff_callback :
    ((Recipe.forRemoval .swift).analyze callback).methodBody = some 68 ∧
      ∃ zs b ys, positions .swift callback = zs ++ b :: ys ∧ b.live '{' = true ∧ b.offset + 1 = 68 ∧
        (∃ xs o us, zs = xs ++ o :: us ∧ OpensParameters (.forRemoval .swift) xs o us) ∧
        ∀ xs o us, zs = xs ++ o :: us → OpensParameters (.forRemoval .swift) xs o us →
          (balances 0 (o :: us) = true ↔ PlainParameters (us ++ b :: ys)) :=
  have hbody : ((Recipe.forRemoval .swift).analyze callback).methodBody = some 68 := by decide +kernel
  ⟨hbody, balances_header_iff rfl hbody⟩

/-- A method with a closure for a default argument. -/
def closureDefault : Text :=
  "class AppDelegate \x7b\n  func application(done: () -> Void = \x7b\x7d) \x7b\n  \x7d\n\x7d\n".toList

/-- **A closure is taken for the body of the method.** The method is entered at the brace before offset
59, with its list of parameters still open; its body starts at offset 63. -/
theorem defaultArgument_taken :
    ((Recipe.forRemoval .swift).analyze closureDefault).methodBody = some 59 ∧
      ∃ xs o us b ys, positions .swift closureDefault = xs ++ o :: (us ++ b :: ys) ∧
        b.live '{' = true ∧ b.offset + 1 = 59 ∧
        OpensParameters (.forRemoval .swift) xs o us ∧ balances 0 (o :: us) = false := by
  refine ⟨by decide +kernel, (positions .swift closureDefault).take 38,
    (positions .swift closureDefault).get ⟨38, by decide⟩,
    ((positions .swift closureDefault).drop 39).take 19,
    (positions .swift closureDefault).get ⟨58, by decide⟩,
    (positions .swift closureDefault).drop 59, ?_, ?_, ?_, ⟨?_, ?_, ?_⟩, ?_⟩
  · decide
  · decide
  · decide
  · decide
  · exact ⟨"\n  ".toList, "func application".toList, by decide, by decide +kernel⟩
  · decide
  · decide

end Swift

end SdkWiring
