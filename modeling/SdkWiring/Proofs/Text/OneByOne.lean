import Mathlib
import SdkWiring.Proofs.Text.Splicing

/-!
# Splicing one edit at a time

All edits of a splice refer to the text as it is before any of them. Those that are accepted do not
overlap, so the last one can be applied first and the others still refer to what they referred to:
applied one at a time, from the last to the first, they give the splice.

* `Edit.Rearranged`: the edits of a list in another order, those of the same range in the same one.
* `Rearranged.mergeSort_eq`: such lists are sorted alike.
* `Splice.accepted_concat`: what becomes of one edit, given what became of those before it.
* `Splice.exists_splice`: edits on character boundaries belong to pieces.
* `Piece.applyAll_edits`: edits that belong to pieces, one at a time.
* `splice_eq_applyAll`: a splice as such a sequence.
-/

namespace SdkWiring

variable {content pre rest tail : Text} {es es' xs ys : List Edit} {ps : List Piece} {e : Edit}
  {size cursor : Nat}

/-! ## Stable order -/

/-- Whether an edit replaces a given range. -/
def Edit.isOn (start stop : Nat) (e : Edit) : Bool := e.start == start && e.stop == stop

/-- The edits of a list in another order, but those of the same range in the same one. -/
structure Edit.Rearranged (es es' : List Edit) : Prop where
  perm : es'.Perm es
  alike : ∀ start stop, es'.filter (Edit.isOn start stop) = es.filter (Edit.isOn start stop)

namespace Edit

theorem isOn_iff {start stop : Nat} : e.isOn start stop = true ↔ e.start = start ∧ e.stop = stop := by
  rw [isOn, Bool.and_eq_true, beq_iff_eq, beq_iff_eq]

theorem isOn_self (e : Edit) : e.isOn e.start e.stop = true := isOn_iff.2 ⟨rfl, rfl⟩

/-- Two edits each of which comes before the other replace the same range. -/
theorem isOn_of_before {a b : Edit} (hab : a.before b = true) (hba : b.before a = true) :
    b.isOn a.start a.stop = true := by
  rw [before_iff] at hab hba
  rw [isOn_iff]
  omega

/-- **Sorting keeps the order of edits of the same range.** -/
theorem rearranged_mergeSort (es : List Edit) : Rearranged es (es.mergeSort before) := by
  refine ⟨List.mergeSort_perm es _, fun start stop => ?_⟩
  have hpairwise : (es.filter (isOn start stop)).Pairwise fun a b => a.before b = true := by
    refine List.pairwise_of_forall_mem_list fun a ha b hb => ?_
    have ha := isOn_iff.1 (List.mem_filter.1 ha).2
    have hb := isOn_iff.1 (List.mem_filter.1 hb).2
    rw [before_iff]
    omega
  have hsub : (es.filter (isOn start stop)).Sublist ((es.mergeSort before).filter (isOn start stop)) := by
    have h := (List.sublist_mergeSort Splice.before_trans Splice.before_total hpairwise
      List.filter_sublist).filter (isOn start stop)
    simpa only [List.filter_filter, Bool.and_self] using h
  exact (hsub.eq_of_length ((List.mergeSort_perm es before).filter _).length_eq.symm).symm

/-- Two sorted lists are the same if they have the same edits of each range in the same order. -/
theorem eq_of_sorted (h : es.Pairwise fun a b => a.before b = true)
    (h' : es'.Pairwise fun a b => a.before b = true)
    (halike : ∀ start stop, es'.filter (isOn start stop) = es.filter (isOn start stop)) : es = es' := by
  induction es generalizing es' with
  | nil =>
    refine (List.eq_nil_iff_forall_not_mem.2 fun a ha => ?_).symm
    have hin : a ∈ es'.filter (isOn a.start a.stop) := List.mem_filter.2 ⟨ha, a.isOn_self⟩
    rw [halike] at hin
    cases hin
  | cons a es ih =>
    have hmem : ∀ {b}, b ∈ es' ↔ b ∈ a :: es := by
      intro b
      have hin : b ∈ es'.filter (isOn b.start b.stop) ↔ b ∈ (a :: es).filter (isOn b.start b.stop) := by
        rw [halike]
      simpa only [List.mem_filter, b.isOn_self, and_true] using hin
    obtain ⟨b, es', rfl⟩ := List.exists_cons_of_ne_nil (List.ne_nil_of_mem (hmem.2 List.mem_cons_self))
    obtain ⟨ha, hes⟩ := List.pairwise_cons.1 h
    obtain ⟨hb, hes'⟩ := List.pairwise_cons.1 h'
    -- the first edits are of the same range, so they are the first ones of it in either list
    have hon : b.isOn a.start a.stop = true := by
      rcases List.mem_cons.1 (hmem.1 List.mem_cons_self) with heq | hin
      · rw [heq]
        exact a.isOn_self
      · rcases List.mem_cons.1 (hmem.2 List.mem_cons_self) with heq | hin'
        · rw [heq]
          exact b.isOn_self
        · exact isOn_of_before (ha b hin) (hb a hin')
    have hfirst := halike a.start a.stop
    rw [List.filter_cons_of_pos hon, List.filter_cons_of_pos a.isOn_self] at hfirst
    obtain ⟨rfl, -⟩ := List.cons.inj hfirst
    refine congrArg (b :: ·) (ih hes hes' fun start stop => ?_)
    have hsame := halike start stop
    rw [List.filter_cons, List.filter_cons] at hsame
    split at hsame
    · exact (List.cons.inj hsame).2
    · exact hsame

/-- There is one stable order. -/
theorem Rearranged.eq_mergeSort (h : Rearranged es es')
    (hsorted : es'.Pairwise fun a b => a.before b = true) : es' = es.mergeSort before := by
  refine eq_of_sorted hsorted (Splice.pairwise_sorted es) fun start stop => ?_
  rw [(rearranged_mergeSort es).alike, h.alike]

/-- **Edits in another order are sorted alike**, if those of the same range keep theirs. -/
theorem Rearranged.mergeSort_eq (h : Rearranged es es') : es'.mergeSort before = es.mergeSort before := by
  have hsorted := rearranged_mergeSort es'
  exact Rearranged.eq_mergeSort ⟨hsorted.perm.trans h.perm, fun start stop =>
    (hsorted.alike start stop).trans (h.alike start stop)⟩ (Splice.pairwise_sorted es')

/-- The text with one edit applied, if it falls on character boundaries. -/
def applyTo? (e : Edit) (t : Text) : Option Text := do
  let (front, _) ← t.splitAt? e.start
  let (_, back) ← t.splitAt? e.stop
  some (front ++ e.replacement ++ back)

/-- The text with edits applied one at a time, the last one first. -/
def applyAll (es : List Edit) (content : Text) : Option Text := es.foldrM applyTo? content

end Edit

namespace Splice

/-! ## Which edits are accepted -/

/-- **What becomes of one edit.** It is left out just if it ends past the text, or starts before the
end of one that was accepted before. -/
theorem accepted_concat (hle : ∀ e ∈ es, e.start ≤ e.stop) :
    accepted size cursor (es ++ [e]) = accepted size cursor es ++
      if e.start < cursor ∨ size < e.stop ∨ ∃ a ∈ accepted size cursor es, e.start < a.stop then []
      else [e] := by
  induction es generalizing cursor with
  | nil => simp [accepted]
  | cons x es ih =>
    have hes : ∀ e ∈ es, e.start ≤ e.stop := fun e he => hle e (List.mem_cons_of_mem _ he)
    rw [List.cons_append, accepted, accepted]
    split
    · exact ih hes
    · rename_i hx
      -- what starts before the cursor starts before the end of this edit
      have hback : e.start < cursor → e.start < x.stop := by
        have := hle x List.mem_cons_self
        omega
      have hiff : (e.start < x.stop ∨ size < e.stop ∨ ∃ a ∈ accepted size x.stop es, e.start < a.stop) ↔
          e.start < cursor ∨ size < e.stop ∨
            ∃ a ∈ x :: accepted size x.stop es, e.start < a.stop := by
        rw [List.exists_mem_cons_iff]
        tauto
      rw [ih hes, List.cons_append]
      simp only [hiff]

/-- Accepted edits start behind the cursor. -/
theorem le_start_of_accepted (hle : ∀ e ∈ es, e.start ≤ e.stop) (he : e ∈ accepted size cursor es) :
    cursor ≤ e.start := by
  induction es generalizing cursor with
  | nil => cases he
  | cons x es ih =>
    have hes : ∀ e ∈ es, e.start ≤ e.stop := fun e he => hle e (List.mem_cons_of_mem _ he)
    rw [accepted] at he
    split at he
    · exact ih hes he
    · rcases List.mem_cons.1 he with rfl | he
      · omega
      · have := ih hes he
        have := hle x List.mem_cons_self
        omega

/-- **Accepted edits do not overlap.** -/
theorem pairwise_accepted (hle : ∀ e ∈ es, e.start ≤ e.stop) :
    (accepted size cursor es).Pairwise fun a b => a.stop ≤ b.start := by
  induction es generalizing cursor with
  | nil => exact .nil
  | cons x es ih =>
    have hes : ∀ e ∈ es, e.start ≤ e.stop := fun e he => hle e (List.mem_cons_of_mem _ he)
    rw [accepted]
    split
    · exact ih hes
    · exact List.pairwise_cons.2 ⟨fun a ha => le_start_of_accepted hes ha, ih hes⟩

/-- **Edits on character boundaries belong to pieces**, those of them that are accepted. -/
theorem exists_pieces (hle : ∀ e ∈ es, e.start ≤ e.stop)
    (hfit : ∀ e ∈ es, e.stop ≤ content.size → content.IsBoundary e.start ∧ content.IsBoundary e.stop)
    (hcontent : content = pre ++ rest) :
    ∃ ps tail, accepted content.size pre.size es = Piece.edits pre.size ps ∧
      rest = Piece.old ps tail := by
  -- along the edits the text is cut where the last accepted one ends
  induction es generalizing pre rest with
  | nil => exact ⟨[], rest, rfl, rfl⟩
  | cons e es ih =>
    have hes : ∀ {pre rest}, content = pre ++ rest → ∃ ps tail,
        accepted content.size pre.size es = Piece.edits pre.size ps ∧ rest = Piece.old ps tail :=
      ih (fun a ha => hle a (List.mem_cons_of_mem _ ha)) fun a ha => hfit a (List.mem_cons_of_mem _ ha)
    rw [accepted]
    split
    · exact hes hcontent
    · rename_i hin
      rw [not_or, Nat.not_lt, Nat.not_lt] at hin
      obtain ⟨⟨x, y, hx, hstart⟩, ⟨x', y', hx', hstop⟩⟩ := hfit e List.mem_cons_self hin.2
      have hlt := hle e List.mem_cons_self
      obtain ⟨kept, rfl, hkept⟩ := Text.split_of_size (hx.symm.trans hcontent) (by omega)
      obtain ⟨removed, rfl, hremoved⟩ := Text.split_of_size (hx'.symm.trans hx) (by omega)
      obtain ⟨ps, tail, hps, rfl⟩ := hes hx'
      refine ⟨⟨kept, removed, e.replacement⟩ :: ps, tail, ?_, ?_⟩
      · simp only [Text.size_append] at hstart hstop hps
        have he : e = ⟨pre.size + kept.size, pre.size + kept.size + removed.size, e.replacement⟩ := by
          rw [← hstop, ← hstart]
        rw [Piece.edits_cons, ← he, hstop, hps]
      · rw [Piece.old_cons, hremoved, hkept]

/-- **A splice of edits on character boundaries** does not fail, and is what the pieces say. -/
theorem exists_splice (hle : ∀ e ∈ es, e.start ≤ e.stop)
    (hfit : ∀ e ∈ es, e.stop ≤ content.size → content.IsBoundary e.start ∧ content.IsBoundary e.stop) :
    ∃ ps tail, accepted content.size 0 (es.mergeSort Edit.before) = Piece.edits 0 ps ∧
      content = Piece.old ps tail ∧ splice content es = some (Piece.new ps tail) := by
  obtain ⟨ps, tail, hps, hold⟩ := exists_pieces (fun e he => hle e (List.mem_mergeSort.1 he))
    (fun e he => hfit e (List.mem_mergeSort.1 he)) (List.nil_append content).symm
  have happly := apply_edits [] ps tail
  rw [← hps, List.nil_append, ← hold] at happly
  exact ⟨ps, tail, hps, hold, happly⟩

end Splice

/-- **Edits that belong to pieces**, applied one at a time, do to a text what the pieces say. -/
theorem Piece.applyAll_edits (pre : Text) (ps : List Piece) (tail : Text) :
    Edit.applyAll (edits pre.size ps) (pre ++ old ps tail) = some (pre ++ new ps tail) := by
  induction ps generalizing pre with
  | nil => rfl
  | cons p ps ih =>
    -- the edits behind this one leave the text up to its end as it is
    have hrest := ih (pre ++ (p.kept ++ p.removed))
    have hsize : (pre ++ (p.kept ++ p.removed)).size = pre.size + p.kept.size + p.removed.size := by
      simp only [Text.size_append, Nat.add_assoc]
    rw [hsize, List.append_assoc, List.append_assoc] at hrest
    rw [edits_cons, old_cons, Edit.applyAll, List.foldrM_cons]
    change (Edit.applyAll _ _).bind _ = _
    rw [hrest, Option.bind_some]
    have hfront := Text.splitAt?_append (pre ++ p.kept) (p.removed ++ new ps tail)
    have hback := Text.splitAt?_append (pre ++ (p.kept ++ p.removed)) (new ps tail)
    rw [Text.size_append, List.append_assoc] at hfront
    rw [hsize, List.append_assoc, List.append_assoc] at hback
    simp only [Edit.applyTo?, List.append_assoc, hfront, hback, Option.bind_eq_bind, Option.bind_some,
      new_cons]

/-- **A splice is one edit at a time.** If the edits fall on character boundaries where they lie within
the text, the splice does not fail. In the stable order of the ranges, an edit is left out just if it
ends past the text or starts before the end of one that was accepted before; those that are accepted
do not overlap, and applied one at a time, the last one first, they give the splice. It is the same for
any order of the edits in which those of the same range keep theirs. -/
theorem splice_eq_applyAll (hle : ∀ e ∈ es, e.start ≤ e.stop)
    (hfit : ∀ e ∈ es, (e.start ≤ content.size → content.IsBoundary e.start) ∧
      (e.stop ≤ content.size → content.IsBoundary e.stop)) :
    ∃ ordered res, Edit.Rearranged es ordered ∧ ordered.Pairwise (fun a b => a.before b = true) ∧
      (∀ xs e ys, ordered = xs ++ e :: ys →
        Splice.accepted content.size 0 (xs ++ [e]) = Splice.accepted content.size 0 xs ++
          if content.size < e.stop ∨ ∃ a ∈ Splice.accepted content.size 0 xs, e.start < a.stop then []
          else [e]) ∧
      (Splice.accepted content.size 0 ordered).Pairwise (fun a b => a.stop ≤ b.start) ∧
      splice content es = some res ∧
      Edit.applyAll (Splice.accepted content.size 0 ordered) content = some res ∧
      ∀ es', Edit.Rearranged es es' → splice content es' = some res := by
  have hsorted := Edit.rearranged_mergeSort es
  have hle' : ∀ e ∈ es.mergeSort Edit.before, e.start ≤ e.stop := fun e he =>
    hle e (List.mem_mergeSort.1 he)
  obtain ⟨ps, tail, hps, hold, hsplice⟩ := Splice.exists_splice hle fun e he hstop =>
    ⟨(hfit e he).1 ((hle e he).trans hstop), (hfit e he).2 hstop⟩
  have hone := Piece.applyAll_edits [] ps tail
  rw [Text.size_nil, ← hps, List.nil_append, ← hold] at hone
  refine ⟨_, Piece.new ps tail, hsorted, Splice.pairwise_sorted es, fun xs e ys hxs => ?_,
    Splice.pairwise_accepted hle', hsplice, hone, fun es' h => ?_⟩
  · have hxs' : ∀ a ∈ xs, a.start ≤ a.stop := fun a ha => hle' a (by rw [hxs]; simp [ha])
    rw [Splice.accepted_concat hxs']
    simp only [Nat.not_lt_zero, false_or]
  · rw [splice, h.mergeSort_eq]
    exact hsplice

/-- A word with a character of two bytes. -/
def accented : Text := "señor".toList

/-- Edits of that word that touch, nest, fall on the same place and reach behind its end. -/
def touching : List Edit :=
  [.delete 1 4, .insert 4 ['y'], .insert 1 ['a'], ⟨2, 4, ['x']⟩, .delete 5 9, .insert 1 ['b']]

/-- The nested edit and the one that reaches behind the end are left out, and the two insertions at the
same place stay in their order. -/
theorem splice_eq_applyAll_touching : (∀ e ∈ touching, e.start ≤ e.stop) ∧
    (∀ e ∈ touching, (e.start ≤ accented.size → accented.IsBoundary e.start) ∧
      (e.stop ≤ accented.size → accented.IsBoundary e.stop)) ∧
    splice accented touching = some "sabyor".toList ∧
    Edit.applyAll [.insert 1 ['a'], .insert 1 ['b'], .delete 1 4, .insert 4 ['y']] accented =
      some "sabyor".toList := by
  have hle : ∀ e ∈ touching, e.start ≤ e.stop := by decide
  have hfit : ∀ e ∈ touching, (e.start ≤ accented.size → accented.IsBoundary e.start) ∧
      (e.stop ≤ accented.size → accented.IsBoundary e.stop) := by decide
  have hsplice : splice accented touching = some "sabyor".toList := by cbv
  obtain ⟨ordered, res, hordered, hsorted, -, -, hres, hone, -⟩ := splice_eq_applyAll hle hfit
  have haccepted : Splice.accepted accented.size 0 (touching.mergeSort Edit.before) =
      [.insert 1 ['a'], .insert 1 ['b'], .delete 1 4, .insert 4 ['y']] := by cbv
  rw [hordered.eq_mergeSort hsorted, haccepted, ← hres, hsplice] at hone
  exact ⟨hle, hfit, hsplice, hone⟩

end SdkWiring
