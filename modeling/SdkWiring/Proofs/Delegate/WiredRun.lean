import SdkWiring.Proofs.Delegate.CallLine
import SdkWiring.Proofs.Delegate.Surroundings

/-!
# The scan of a wired method

A text up to the brace of the method is scanned in another place, with a rendered start call behind
the brace. What is found is what the scan of the text alone finds, moved to the new place: the
imports end where the text begins, the method is the same, and the only start call is the new one.

* `Recipe.run_to_brace`, `Recipe.run_from_brace`: the scan in two parts.
* `Recipe.run_wired`: the landmarks of the text with a start call in it.
-/

namespace SdkWiring

variable {r : Recipe} {i : Integration} {s s' : Survey} {p : Position} {ps qs : List Position}
  {b b' t a a' : Text} {c : Char} {eol : LineBreak} {E : Bool → Header → Header → Prop}
  {quoting : Quoting} {m : Mode} {φ : Nat → Nat}

theorem Unmarked.left (h : Unmarked r s (ps ++ qs)) : Unmarked r s ps := by
  rintro xs p ys rfl
  exact h xs p (ys ++ qs) (by simp)

/-- Surveys that found nothing yet look alike. -/
theorem Recipe.Orderly.alike (h : Recipe.Orderly s) (h' : Recipe.Orderly s')
    (hs : s.typeSeen = false) (hs' : s'.typeSeen = false) (φ : Nat → Nat) : Alike φ s s' where
  inType := by rw [h.inType hs, h'.inType hs']
  typeSeen := by rw [hs, hs']
  inMethod := by rw [h.inMethod hs, h'.inMethod hs']
  firstBody := by rw [h.firstBody hs, h'.firstBody hs']; rfl
  preferredBody := by rw [h.preferredBody hs, h'.preferredBody hs']; rfl

namespace Recipe

/-- Behind the brace of a method the scan is in live code, one level deeper. -/
theorem Enters.step (h : r.Enters s (m.place b '{' a)) (next : Option Char) :
    m.step quoting '{' next = ⟨.code, r.methodLevel + 1⟩ := by
  obtain ⟨context, l⟩ := m
  have hlive := h.live
  have hlevel := h.level_eq
  cases context with
  | code =>
    have hl : l = r.methodLevel := hlevel
    subst hl
    cases quoting <;> rfl
  | _ => cases hlive

/-- Behind a text that ends with the brace of a method the scan is in live code, too. -/
theorem Enters.behind_brace
    (h : r.Enters s ((m.behind quoting t (some '{')).place b '{' a)) (next : Option Char) :
    m.behind quoting (t ++ ['{']) next = ⟨.code, r.methodLevel + 1⟩ := by
  rw [behind_append]
  exact h.step next

/-- The survey is inside the method once its brace was read. -/
theorem Enters.inMethod_run (h : r.Enters (r.run s (stretch quoting m b t ('{' :: a)))
      ((m.behind quoting t (some '{')).place (t.reverse ++ b) '{' a)) :
    (r.run s (stretch quoting m b (t ++ ['{']) a)).inMethod = true := by
  rw [stretch_append, run_append, stretch_cons, stretch_nil]
  exact h.survey.1

/-- Where the receiver does not occur in a text up to a brace, no start call stands there. -/
theorem callAt?_of_brace (w : r.Writes i) (habs : ¬ Integration.receiver <:+: t)
    (hp : p ∈ stretch quoting m b (t ++ ['{']) a) : r.callAt? p = none := by
  obtain ⟨x, y, hxy, hplace⟩ := stretch_split_of_mem hp
  obtain ⟨z, hz⟩ : ∃ z, p.char :: y = z ++ ['{'] ∧ t = x ++ z := by
    obtain ⟨z, d, hz⟩ : ∃ z d, p.char :: y = z ++ [d] :=
      ⟨_, _, (List.dropLast_concat_getLast (by simp)).symm⟩
    rw [hz, ← List.append_assoc] at hxy
    obtain ⟨ht, hd⟩ := List.append_inj' hxy rfl
    exact ⟨z, by rw [hz, hd], ht⟩
  have hfore : p.forepart = z ++ '{' :: a := by
    rw [Position.forepart, congrArg Position.after hplace, Mode.place, ← List.cons_append, hz.1]
    simp
  refine callAt?_eq_none w.receiver w.selector (by decide) hfore fun hin => habs ?_
  rw [hz.2]
  exact hin.trans (List.suffix_append _ _).isInfix

/-- **Up to the brace** the surveys look alike, and the imports end where the text begins. -/
theorem run_to_brace (quoting : Quoting) (ht : Text.isIdentifier r.typeName = true) (hE : r.Indistinct E)
    (hb : EndsLine b) (hb' : EndsLine b') (hs : Orderly s) (hs' : Orderly s')
    (hn : s.typeSeen = false) (hn' : s'.typeSeen = false) (e : E false s.header s'.header)
    (hmarks : Unmarked r (r.survey s (Mode.start.place b c (t ++ '{' :: a)))
      (stretch quoting (Mode.start.step quoting c (t ++ ['{']).head?) (c :: b) (t ++ ['{']) a))
    (hends : r.endsImports (Mode.start.place b' c (t ++ '{' :: a')) = true)
    (hφ : ∀ n, n < Text.size (c :: (t ++ ['{'])) → φ (b.size + n + 1) = b'.size + n + 1) :
    Alike φ (r.run s (stretch quoting .start b (c :: (t ++ ['{'])) a))
        (r.run s' (stretch quoting .start b' (c :: (t ++ ['{'])) a')) ∧
      (r.run s' (stretch quoting .start b' (c :: (t ++ ['{'])) a')).endOfImports = some b'.size := by
  have hhead : ∀ a : Text, (t ++ ['{'] ++ a).head? = (t ++ ['{']).head? := by
    intro a
    cases t <;> rfl
  have hfirst : ∀ a : Text, t ++ ['{'] ++ a = t ++ '{' :: a := by simp
  rw [stretch_cons, stretch_cons, hhead, hhead, hfirst, hfirst, run_cons, run_cons]
  have hsize := c.utf8Size_pos
  set p := Mode.start.place b c (t ++ '{' :: a) with hp
  set q := Mode.start.place b' c (t ++ '{' :: a') with hq
  have w : Matched r φ p q := ⟨.place_brace ht .start b b' c t a a', hφ 0 (by
    simp only [Text.size_cons]
    omega)⟩
  rw [← hs.inType hn] at e
  obtain ⟨hstep, estep⟩ := (hs.alike hs' hn hn' φ).step hE e w
  -- from the second character on, the two places cannot be told apart
  have hpairs : List.Forall₂ (FullyMatched r φ)
      (stretch quoting (Mode.start.step quoting c (t ++ ['{']).head?) (c :: b) (t ++ ['{']) a)
      (stretch quoting (Mode.start.step quoting c (t ++ ['{']).head?) (c :: b') (t ++ ['{']) a') := by
    refine twins_stretch (x := [c]) ht hb hb' (by simp) fun n hn => ?_
    have := hφ (c.utf8Size + n) (by simp only [Text.size_cons]; omega)
    simp only [List.reverse_singleton, List.singleton_append, Text.size_cons] at this ⊢
    rw [show c.utf8Size + b.size + n + 1 = b.size + (c.utf8Size + n) + 1 by omega, this]
    omega
  have hmatched : List.Forall₂ (Matched r φ) _ _ := hpairs.imp fun _ _ h => h.toMatched
  refine ⟨(Alike.run hE hstep estep hmatched).1, ?_⟩
  rw [(hmarks.transfer hE hstep estep hpairs).endOfImports]
  simp only [survey, hn', hends]
  rfl

/-- Once the type was seen, the end of the imports stays where it is. -/
theorem endOfImports_run (h : s.typeSeen = true) : (r.run s ps).endOfImports = s.endOfImports := by
  refine (run_induction (P := fun u => u.typeSeen = true ∧ u.endOfImports = s.endOfImports) ⟨h, rfl⟩
    fun u p _ hu => ⟨?_, ?_⟩).2
  · simp [survey, hu.1]
  · simp [survey, hu.1, hu.2]

/-- **From the brace on**, with a rendered start call behind it, the surveys still look alike, and
the call is the only one. -/
theorem run_from_brace (w : r.Writes i) (quoting : Quoting) (eol : LineBreak) (b b' : Text)
    (hs' : Orderly s') (hin' : s'.inMethod = true) (hcalls : s'.startCalls = []) (hb' : b'.head? ≠ some '\r')
    (hl : r.methodLevel < m.level) (hcode : m.context = .code) (ha : Alike φ s s')
    (hφ : ∀ n, φ (b.size + n + 1) = b'.size + (r.callLine eol).size + n + 1)
    (habs : ¬ Integration.receiver <:+: a) :
    ∃ stop, (r.run s' (stretch quoting m b' (r.callLine eol ++ a) [])).landmarks =
        ⟨s'.endOfImports, true, (r.run s (stretch quoting m b a [])).body?.map φ,
          [⟨b'.size, stop⟩]⟩ ∧
      (stop = b'.size + (r.callLine eol).size ↔
        (r.language = .swift → ')' ∉ a.takeWhile (· != '\n'))) := by
  obtain ⟨context, l⟩ := m
  obtain rfl : context = .code := hcode
  have hseen : s'.typeSeen = true := by
    by_contra hn
    rw [hs'.inMethod (by simpa using hn)] at hin'
    cases hin'
  obtain ⟨k, stop, hrun, -, hstop⟩ := w.run_callLine quoting eol a hb' hl hin'
  set u : Survey := { s' with header := k, startCalls := s'.startCalls ++ [⟨b'.size, stop⟩] } with hu
  have hsplit : r.run s' (stretch quoting ⟨.code, l⟩ b' (r.callLine eol ++ a) []) =
      r.run u (stretch quoting ⟨.code, l⟩ ((r.callLine eol).reverse ++ b') a []) := by
    rw [stretch_append, run_append, w.behind_callLine, List.append_nil, hrun]
  have halike : Alike φ s u := ⟨ha.inType, ha.typeSeen, ha.inMethod, ha.firstBody, ha.preferredBody⟩
  -- the line leaves another header behind, which does not matter inside a method
  have hdeep : Alike φ (r.run s (stretch quoting ⟨.code, l⟩ b a []))
      (r.run u (stretch quoting ⟨.code, l⟩ ((r.callLine eol).reverse ++ b') a [])) :=
    halike.run_deep w.typeName (.inl hl) fun n => by
      rw [hφ, Text.size_append, Text.size_reverse]
      omega
  have hnone : (r.run u (stretch quoting ⟨.code, l⟩ ((r.callLine eol).reverse ++ b') a [])).startCalls
      = u.startCalls := by
    refine startCalls_run fun p hp => ?_
    obtain ⟨x, y, hxy, hplace⟩ := stretch_split_of_mem hp
    refine callAt?_eq_none_of_absent w.receiver w.selector fun hin => habs (hin.trans ?_)
    rw [hxy, Position.forepart, congrArg Position.after hplace, Mode.place, List.append_nil]
    exact (List.suffix_append _ _).isInfix
  refine ⟨stop, ?_, hstop⟩
  rw [hsplit]
  change Landmarks.mk _ _ (Survey.body? _) _ = _
  rw [endOfImports_run (s := u) hseen, typeSeen_run (s := u) hseen, ← hdeep.body?, hnone, hu, hcalls]
  rfl

/-- **The scan of a wired method.** -/
theorem run_wired (w : r.Writes i) (hE : r.Indistinct E) (hb : EndsLine b) (hb' : EndsLine b')
    (hs : Orderly s) (hs' : Orderly s') (hn : s.typeSeen = false) (hn' : s'.typeSeen = false)
    (e : E false s.header s'.header)
    (henter : r.Enters (r.run s (stretch quoting .start b (c :: t) ('{' :: a)))
      ((Mode.start.behind quoting (c :: t) (some '{')).place ((c :: t).reverse ++ b) '{' a))
    (hbody : (r.run s (stretch quoting .start b (c :: (t ++ '{' :: a)) [])).body? =
      some (b.size + Text.size (c :: (t ++ ['{']))))
    (hmarks : Unmarked r (r.survey s (Mode.start.place b c (t ++ '{' :: a)))
      (stretch quoting (Mode.start.step quoting c (t ++ ['{']).head?) (c :: b) (t ++ ['{']) a))
    (hends : r.endsImports (Mode.start.place b' c (t ++ '{' :: (r.callLine eol ++ a))) = true)
    (habs : ¬ Integration.receiver <:+: c :: (t ++ '{' :: a)) :
    ∃ stop, (r.run s' (stretch quoting .start b'
        (c :: (t ++ '{' :: (r.callLine eol ++ a))) [])).landmarks =
        ⟨some b'.size, true, some (b'.size + Text.size (c :: (t ++ ['{']))),
          [⟨b'.size + Text.size (c :: (t ++ ['{'])), stop⟩]⟩ ∧
      (stop = b'.size + Text.size (c :: (t ++ ['{'])) + (r.callLine eol).size ↔
        (r.language = .swift → ')' ∉ a.takeWhile (· != '\n'))) := by
  obtain ⟨front, hfront⟩ : ∃ front : Text, front = c :: t ++ ['{'] := ⟨_, rfl⟩
  have hfront' : c :: (t ++ ['{']) = front := hfront.symm
  have htext : ∀ z : Text, c :: (t ++ '{' :: z) = front ++ z := by
    intro z
    simp [hfront]
  rw [htext] at hbody habs
  rw [hfront'] at hbody ⊢
  rw [htext]
  set φ : Nat → Nat := fun n =>
    if n ≤ b.size + front.size then n - b.size + b'.size
    else n - b.size + b'.size + (r.callLine eol).size with hφ
  obtain ⟨ha, himports⟩ := run_to_brace (φ := φ) quoting w.typeName hE hb hb' hs hs' hn hn'
    e hmarks hends fun n hlt => by
      rw [hfront'] at hlt
      simp only [hφ]
      rw [if_pos (by omega)]
      omega
  rw [hfront'] at ha himports
  -- behind the text the scan is in live code, inside the method
  have hmode : ∀ next, Mode.start.behind quoting front next = ⟨.code, r.methodLevel + 1⟩ :=
    hfront ▸ henter.behind_brace
  have hsplit : ∀ s b z, r.run s (stretch quoting .start b (front ++ z) []) =
      r.run (r.run s (stretch quoting .start b front z))
        (stretch quoting ⟨.code, r.methodLevel + 1⟩ (front.reverse ++ b) z []) := by
    intro s b z
    rw [stretch_append, run_append, hmode, List.append_nil]
  have hin : (r.run s (stretch quoting .start b front a)).inMethod = true :=
    hfront ▸ henter.inMethod_run
  have hcalls : (r.run s' (stretch quoting .start b' front (r.callLine eol ++ a))).startCalls = [] := by
    rw [startCalls_run, hs'.startCalls hn']
    intro p hp
    rw [hfront] at hp
    refine callAt?_of_brace w (fun h => habs (h.trans ?_)) hp
    rw [hfront, List.append_assoc]
    exact (List.prefix_append _ _).isInfix
  have hbrace : ∀ b : Text, front.reverse ++ b = '{' :: ((c :: t).reverse ++ b) := by
    intro b
    simp [hfront]
  obtain ⟨stop, hlandmarks, hstop⟩ := run_from_brace (φ := φ) (m := ⟨.code, r.methodLevel + 1⟩) w
    quoting eol (front.reverse ++ b) (front.reverse ++ b') (orderly_run hs') (ha.inMethod ▸ hin) hcalls
    (by rw [hbrace]; simp) (Nat.lt_succ_self _) rfl ha
    (fun n => by
      simp only [hφ, Text.size_append, Text.size_reverse]
      rw [if_neg (by omega)]
      omega) (fun h => habs (h.trans (List.suffix_append _ _).isInfix))
  have hsize : Text.size (front.reverse ++ b') = b'.size + front.size := by
    rw [Text.size_append, Text.size_reverse, Nat.add_comm]
  rw [hsize] at hlandmarks hstop
  refine ⟨stop, ?_, hstop⟩
  rw [hsplit, hlandmarks, himports, ← hsplit, hbody]
  have hmoved : φ (b.size + front.size) = b'.size + front.size := by
    simp only [hφ]
    rw [if_pos le_rfl]
    omega
  rw [Option.map_some, hmoved]

end Recipe

end SdkWiring
