import SdkWiring.Proofs.Delegate.FoldedHeader
import SdkWiring.Proofs.Scan.Balance
import SdkWiring.Proofs.Text.Identifier
import SdkWiring.Proofs.Text.Parts
import Mathlib.Data.List.TakeWhile

/-!
# The skeleton of a text

What remains of a text without what its comments and literals say: the characters that are code, in
their order, and one mark for each gap between them, however long the gap is and whatever is in it.

* `outline`: positions with their gaps closed; `skeleton`: its characters.
* `Parallel`: two lists of positions with the same code and gaps at the same places.
* `parallel_of_outline`: positions with the same skeleton run in parallel.
* `Parallel.split_code`, `Parallel.word`: what is code on one side is on the other, words included.
-/

namespace SdkWiring

/-- Positions with every run of what is no code taken for one gap. -/
def outline (quoting : Quoting) : List Position → List (Option Position)
  | [] => []
  | p :: ps =>
    if p.isCode quoting then some p :: outline quoting ps
    else none :: (outline quoting ps).dropWhile Option.isNone

/-- The code of a text, with a mark for each maximal run of other characters. -/
def skeleton (quoting : Quoting) (t : Text) : List (Option Char) :=
  (outline quoting (positions quoting t)).map (Option.map Position.char)

/-- Two lists of positions with the same code, and with gaps at the same places. -/
inductive Parallel (quoting : Quoting) : List Position → List Position → Prop
  | nil : Parallel quoting [] []
  | code {p q ps qs} (hp : p.isCode quoting = true) (hq : q.isCode quoting = true)
      (char : p.char = q.char) (rest : Parallel quoting ps qs) :
      Parallel quoting (p :: ps) (q :: qs)
  | gap {us vs ps qs} (hus : us ≠ []) (hvs : vs ≠ [])
      (left : ∀ u ∈ us, u.isCode quoting = false) (right : ∀ v ∈ vs, v.isCode quoting = false)
      (hps : ∀ p ∈ ps.head?, p.isCode quoting = true)
      (hqs : ∀ q ∈ qs.head?, q.isCode quoting = true) (rest : Parallel quoting ps qs) :
      Parallel quoting (us ++ ps) (vs ++ qs)

variable {quoting : Quoting} {t t' w rest : Text} {p q : Position}
  {ps qs us xs ys : List Position} {c : Char}

/-! ### Gaps -/

/-- What is no code is not live, or opens a comment or a literal. -/
theorem opener_of_gap (hp : p.isCode quoting = false) (hsig : p.significant = true) :
    p.char = '/' ∨ p.char = '"' ∨ p.char = '\'' := by
  rw [Position.isCode, hsig, Bool.true_and, Position.isCode_enter] at hp
  simp only [Bool.and_eq_false_iff, Bool.not_eq_false', decide_eq_false_iff_not, not_not] at hp
  rcases hp with hp | hp
  · refine .inl ?_
    simp only [Position.opensComment, Bool.and_eq_true, beq_iff_eq] at hp
    exact hp.1
  · cases quoting <;> simp only [Quoting.quotes, List.mem_cons, List.not_mem_nil, or_false] at hp
    · exact .inr hp
    · exact .inr (.inl hp)

/-- No other character is live in a gap. -/
theorem not_live_of_gap (hp : p.isCode quoting = false)
    (hc : c ≠ '/' ∧ c ≠ '"' ∧ c ≠ '\'') : p.live c = false := by
  rw [← Bool.not_eq_true, Position.live_iff]
  rintro ⟨hsig, rfl⟩
  rcases opener_of_gap hp hsig with h | h | h
  · exact hc.1 h
  · exact hc.2.1 h
  · exact hc.2.2 h

/-- Braces in a gap do not count. -/
theorem depth_gap (hus : ∀ u ∈ us, u.isCode quoting = false) :
    depth '{' '}' (xs ++ us) = depth '{' '}' xs := by
  induction us using List.reverseRecOn with
  | nil => rw [List.append_nil]
  | append_singleton us u ih =>
    have hu := hus u (by simp)
    rw [← List.append_assoc, depth_concat (by decide), not_live_of_gap hu (by decide),
      not_live_of_gap hu (by decide), ih fun v hv => hus v (by simp [hv])]
    simp

/-- Code is live, and neither opens a comment nor a literal. -/
theorem of_isCode (hp : p.isCode quoting = true) :
    p.significant = true ∧ p.opensComment = false := by
  rw [Position.isCode, Position.isCode_enter] at hp
  simp only [Bool.and_eq_true, Bool.not_eq_true'] at hp
  exact ⟨hp.1, hp.2.1⟩

/-! ### Outlines -/

theorem outline_code (hp : p.isCode quoting = true) :
    outline quoting (p :: ps) = some p :: outline quoting ps := by
  rw [outline, if_pos hp]

/-- The outline of what starts with code has no gap in front. -/
theorem dropWhile_outline (hps : ∀ p ∈ ps.head?, p.isCode quoting = true) :
    (outline quoting ps).dropWhile Option.isNone = outline quoting ps := by
  cases ps with
  | nil => rfl
  | cons p ps => rw [outline_code (hps p rfl), List.dropWhile_cons_of_neg (by simp)]

/-- A run of what is no code is one gap. -/
theorem outline_gap (hus : us ≠ []) (hgap : ∀ u ∈ us, u.isCode quoting = false)
    (hps : ∀ p ∈ ps.head?, p.isCode quoting = true) :
    outline quoting (us ++ ps) = none :: outline quoting ps := by
  induction us with
  | nil => exact absurd rfl hus
  | cons u us ih =>
    have hu : ¬ u.isCode quoting = true := by simp [hgap u (by simp)]
    rw [List.cons_append, outline, if_neg hu]
    by_cases hne : us = []
    · rw [hne, List.nil_append, dropWhile_outline hps]
    · rw [ih hne fun v hv => hgap v (by simp [hv]), List.dropWhile_cons_of_pos rfl,
        dropWhile_outline hps]

/-- What does not start with code starts with a gap. -/
theorem exists_gap (hp : p.isCode quoting = false) (ps : List Position) :
    ∃ us qs, p :: ps = us ++ qs ∧ us ≠ [] ∧
    (∀ u ∈ us, u.isCode quoting = false) ∧ (∀ q ∈ qs.head?, q.isCode quoting = true) ∧
    outline quoting (p :: ps) = none :: outline quoting qs := by
  have hne : (p :: ps).takeWhile (fun u => !u.isCode quoting) ≠ [] := by
    rw [List.takeWhile_cons_of_pos (by simp [hp])]
    simp
  have hgap : ∀ u ∈ (p :: ps).takeWhile (fun u => !u.isCode quoting), u.isCode quoting = false :=
    fun u hu => by simpa using List.mem_takeWhile_imp hu
  have hcode : ∀ q ∈ ((p :: ps).dropWhile (fun u => !u.isCode quoting)).head?,
      q.isCode quoting = true := by
    intro q hq
    have hhead := List.head?_dropWhile_not (fun u : Position => !u.isCode quoting) (p :: ps)
    rw [Option.mem_def.1 hq] at hhead
    simpa using hhead
  have happ := List.takeWhile_append_dropWhile (p := fun u : Position => !u.isCode quoting)
    (l := p :: ps)
  refine ⟨_, _, happ.symm, hne, hgap, hcode, ?_⟩
  rw [← outline_gap hne hgap hcode, happ]

/-- **Positions with the same skeleton run in parallel.** -/
theorem parallel_of_outline (h : (outline quoting ps).map (Option.map Position.char) =
    (outline quoting qs).map (Option.map Position.char)) : Parallel quoting ps qs := by
  -- a gap may be long, so the induction is on the length of the first list
  induction hn : ps.length using Nat.strong_induction_on generalizing ps qs with
  | _ n ih =>
  cases ps with
  | nil =>
    cases qs with
    | nil => exact .nil
    | cons q qs =>
      rw [outline, outline] at h
      split at h <;> simp at h
  | cons p ps =>
    rw [List.length_cons] at hn
    cases hp : p.isCode quoting with
    | true =>
      rw [outline_code hp] at h
      cases qs with
      | nil => simp [outline] at h
      | cons q qs =>
        cases hq : q.isCode quoting with
        | true =>
          rw [outline_code hq, List.map_cons, List.map_cons, List.cons.injEq] at h
          exact .code hp hq (Option.some.inj h.1) (ih _ (by omega) h.2 rfl)
        | false =>
          obtain ⟨-, qs', -, -, -, -, hout⟩ := exists_gap hq qs
          simp [hout] at h
    | false =>
      obtain ⟨us, ps', hsplit, hus, hgap, hcode, hout⟩ := exists_gap hp ps
      rw [hout] at h
      have hlen := congrArg List.length hsplit
      rw [List.length_cons, List.length_append] at hlen
      have hpos := List.length_pos_iff.2 hus
      cases qs with
      | nil => simp [outline] at h
      | cons q qs =>
        cases hq : q.isCode quoting with
        | true => simp [outline_code hq] at h
        | false =>
          obtain ⟨vs, qs', hsplit', hvs, hgap', hcode', hout'⟩ := exists_gap hq qs
          rw [hout', List.map_cons, List.map_cons, List.cons.injEq] at h
          rw [hsplit, hsplit']
          exact .gap hus hvs hgap hgap' hcode hcode' (ih _ (by omega) h.2 rfl)

/-! ### Parallel positions -/

namespace Parallel

theorem symm (h : Parallel quoting ps qs) : Parallel quoting qs ps := by
  induction h with
  | nil => exact .nil
  | code hp hq hchar _ ih => exact .code hq hp hchar.symm ih
  | gap hus hvs left right hps hqs _ ih => exact .gap hvs hus right left hqs hps ih

/-- Code at the front of one side is code on the other. -/
theorem split_code (hus : ∀ u ∈ us, u.isCode quoting = true)
    (h : Parallel quoting (us ++ ps) qs) : ∃ vs qs', qs = vs ++ qs' ∧
      (∀ v ∈ vs, v.isCode quoting = true) ∧ vs.map Position.char = us.map Position.char ∧
      Parallel quoting ps qs' := by
  induction us generalizing qs with
  | nil => exact ⟨[], qs, rfl, by simp, rfl, h⟩
  | cons u us ih =>
    rw [List.cons_append] at h
    generalize hl : u :: (us ++ ps) = l at h
    cases h with
    | nil => cases hl
    | code hp hq hchar rest =>
      obtain ⟨rfl, rfl⟩ := List.cons.inj hl
      obtain ⟨vs, qs', rfl, hcode, hvs, hrest⟩ := ih (fun v hv => hus v (by simp [hv])) rest
      refine ⟨_ :: vs, qs', rfl, ?_, by rw [List.map_cons, List.map_cons, hvs, hchar], hrest⟩
      exact List.forall_mem_cons.2 ⟨hq, hcode⟩
    | gap hne _ left _ _ _ _ =>
      -- a gap does not start with code
      obtain ⟨v, vs, rfl⟩ := List.exists_cons_of_ne_nil hne
      obtain ⟨rfl, -⟩ := List.cons.inj hl
      have hu := left u (by simp)
      rw [hus u (by simp)] at hu
      cases hu

end Parallel

/-- Behind code, every character is live. -/
theorem significant_behind_code (h : positions quoting t = xs ++ p :: q :: ps)
    (hp : p.isCode quoting = true) : q.significant = true := by
  rw [Position.isCode, Bool.and_eq_true] at hp
  obtain ⟨l, -, hpqs⟩ := stretch_of_live h hp.1
  rw [Position.forepart, stretch_cons, List.append_nil, List.cons.injEq] at hpqs
  have hbetween : positions quoting t = xs ++ p :: ([] ++ q :: ps) := h
  have hafter : p.after = q.forepart := (positions_between hbetween).1
  have hq := hpqs.2
  rw [hafter, Position.forepart, stretch_cons, List.cons.injEq] at hq
  rw [hq.1, Mode.place, Mode.step, Context.advance, ← Position.forepart, ← hafter]
  exact hp.2

/-- Live and quiet characters are code. -/
theorem isCode_of_isQuiet (hsig : p.significant = true) (hc : Text.isQuiet p.char = true) :
    p.isCode quoting = true := by
  by_contra hp
  rw [Bool.not_eq_true] at hp
  rcases opener_of_gap hp hsig with h | h | h <;> rw [h] at hc <;> exact absurd hc (by decide)

/-- The text from a position on is that of the positions from there on. -/
theorem map_char_forepart (h : positions quoting t = xs ++ p :: ps) :
    (p :: ps).map Position.char = p.forepart := by
  obtain ⟨-, -, hpqs, -⟩ := positions_split h
  rw [hpqs, map_char_stretch]

/-- Quiet text at a live position is code. -/
theorem exists_word (h : positions quoting t = xs ++ p :: ps) (hsig : p.significant = true)
    (hw : ∀ c ∈ w, Text.isQuiet c = true) (hfore : p.forepart = w ++ rest) :
    ∃ us ps', p :: ps = us ++ ps' ∧ us.map Position.char = w ∧ ps'.map Position.char = rest ∧
      ∀ u ∈ us, u.isCode quoting = true := by
  obtain ⟨l, -, hpqs⟩ := stretch_of_live h hsig
  rw [hfore, stretch_append] at hpqs
  refine ⟨_, _, hpqs, map_char_stretch, map_char_stretch, fun u hu => ?_⟩
  refine isCode_of_isQuiet (stretch_quiet hw hu).1 (hw _ ?_)
  have hmem := List.mem_map_of_mem (f := Position.char) hu
  rwa [map_char_stretch] at hmem

/-- **A word at one position is at its counterpart**, and ends there if it ends here: behind a word
that is code stands code, or the opening of a comment or literal. -/
theorem Parallel.word (h : positions quoting t = xs ++ p :: ps)
    (h' : positions quoting t' = ys ++ q :: qs) (hpar : Parallel quoting (p :: ps) (q :: qs))
    (hsig : p.significant = true) (hw : ∀ c ∈ w, Text.isQuiet c = true) (hne : w ≠ [])
    (hfore : p.forepart = w ++ rest) :
    ∃ rest', q.forepart = w ++ rest' ∧
      (rest.head?.any Text.isWord = false → rest'.head?.any Text.isWord = false) := by
  obtain ⟨us, ps', hps, hus, rfl, hcode⟩ := exists_word h hsig hw hfore
  rw [hps] at hpar
  obtain ⟨vs, qs', hqs, hvcode, hvs, hrest⟩ := hpar.split_code hcode
  refine ⟨qs'.map Position.char, ?_, fun hborder => ?_⟩
  · rw [← map_char_forepart h', hqs, List.map_append, hvs, hus]
  · cases hrest with
    | nil => rfl
    | code _ _ hchar _ =>
      rw [List.map_cons, List.head?_cons] at hborder ⊢
      rwa [hchar] at hborder
    | @gap _ gap _ behind _ hgap _ right _ _ _ =>
      -- the gap opens with a live character, since there is code before it
      obtain ⟨v, gap, rfl⟩ := List.exists_cons_of_ne_nil hgap
      obtain ⟨vs, z, rfl⟩ : ∃ vs' z, vs = vs' ++ [z] := by
        have hlast : vs ≠ [] := by
          rintro rfl
          rw [hus, List.map_nil] at hvs
          exact hne hvs.symm
        exact ⟨_, _, (List.dropLast_concat_getLast hlast).symm⟩
      have hsplit : positions quoting t' = (ys ++ vs) ++ z :: v :: (gap ++ behind) := by
        rw [h', hqs]
        simp
      have hv := significant_behind_code hsplit (hvcode z (by simp))
      rw [List.cons_append, List.map_cons, List.head?_cons, Option.any_some]
      rcases opener_of_gap (right v (by simp)) hv with h | h | h <;> rw [h] <;> decide

end SdkWiring
