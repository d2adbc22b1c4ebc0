import SdkWiring.Proofs.Text.OneByOne

/-!
# Deletions

Edits that only take text away may overlap, and then some of them are left out of a splice. Nothing is
lost by that if no two of them cross: an edit that is left out starts inside one that is applied, and
ends in it, too. So all that any edit takes is taken.

* `Text.without`: a text without the characters at some offsets.
* `Piece.without_old`: what is left of a text, piece by piece.
* `Edit.Nested`: edits of which no two cross.
* `splice_deletions`: a splice of such edits takes away what any of them takes.
-/

namespace SdkWiring

variable {content t u : Text} {taken taken' : Nat → Bool} {n m : Nat} {es : List Edit}
  {ps : List Piece} {tail : Text} {e : Edit}

namespace Text

/-- A text that starts at an offset, without the characters at the offsets that are taken. -/
def without (taken : Nat → Bool) : Nat → Text → Text
  | _, [] => []
  | n, c :: t =>
    if taken n then without taken (n + c.utf8Size) t else c :: without taken (n + c.utf8Size) t

theorem without_cons (c : Char) (t : Text) : without taken n (c :: t) =
    if taken n then without taken (n + c.utf8Size) t
    else c :: without taken (n + c.utf8Size) t := rfl

theorem without_append :
    without taken n (t ++ u) = without taken n t ++ without taken (n + t.size) u := by
  induction t generalizing n with
  | nil => rfl
  | cons c t ih =>
    rw [List.cons_append, without_cons, without_cons, ih, size_cons, Nat.add_assoc]
    split <;> rfl

/-- Only the offsets of the text matter. -/
theorem without_congr (h : ∀ m, n ≤ m → m < n + t.size → taken m = taken' m) :
    without taken n t = without taken' n t := by
  induction t generalizing n with
  | nil => rfl
  | cons c t ih =>
    have hc := c.utf8Size_pos
    simp only [size_cons] at h
    rw [without_cons, without_cons, h n le_rfl (by omega), ih fun m hm hlt => h m (by omega) (by omega)]

theorem without_all (h : ∀ m, n ≤ m → m < n + t.size → taken m = true) : without taken n t = [] := by
  induction t generalizing n with
  | nil => rfl
  | cons c t ih =>
    have hc := c.utf8Size_pos
    simp only [size_cons] at h
    rw [without_cons, if_pos (h n le_rfl (by omega))]
    exact ih fun m hm hlt => h m (by omega) (by omega)

theorem without_none (h : ∀ m, n ≤ m → m < n + t.size → taken m = false) : without taken n t = t := by
  induction t generalizing n with
  | nil => rfl
  | cons c t ih =>
    have hc := c.utf8Size_pos
    simp only [size_cons] at h
    rw [without_cons, if_neg (by simp [h n le_rfl (by omega)])]
    exact congrArg (c :: ·) (ih fun m hm hlt => h m (by omega) (by omega))

end Text

/-- Whether an edit takes the text at an offset away. -/
def Edit.takes (e : Edit) (n : Nat) : Bool := e.start ≤ n && n < e.stop

theorem Edit.takes_iff : e.takes n = true ↔ e.start ≤ n ∧ n < e.stop := by
  rw [takes, Bool.and_eq_true, decide_eq_true_eq, decide_eq_true_eq]

/-- Each piece has its edit. -/
theorem Piece.exists_edit {p : Piece} (hp : p ∈ ps) : ∃ e ∈ edits n ps, e.replacement = p.inserted := by
  obtain ⟨xs, ys, rfl⟩ := List.append_of_mem hp
  rw [edits_append, edits_cons]
  exact ⟨_, List.mem_append_right _ List.mem_cons_self, rfl⟩

/-- The edits of pieces take nothing in front of them. -/
theorem Piece.takes_edits_of_lt (h : m < n) : (edits n ps).any (·.takes m) = false := by
  rw [List.any_eq_false]
  intro e he htakes
  obtain ⟨xs, p, ys, -, rfl⟩ := mem_edits he
  have := (Edit.takes_iff.1 htakes).1
  simp only at this
  omega

/-- **What is left of a text**, piece by piece, if nothing comes in the place of what goes. -/
theorem Piece.without_old (hps : ∀ p ∈ ps, p.inserted = []) (tail : Text) :
    (old ps tail).without (fun m => (edits n ps).any (·.takes m)) n = new ps tail := by
  induction ps generalizing n with
  | nil => exact Text.without_none fun _ _ _ => rfl
  | cons p ps ih =>
    rw [old_cons, new_cons, hps p List.mem_cons_self, Text.without_append, Text.without_append]
    have hkept : p.kept.without (fun m => (edits n (p :: ps)).any (·.takes m)) n = p.kept := by
      refine Text.without_none fun m _ hlt => ?_
      rw [edits_cons, List.any_cons, takes_edits_of_lt (by omega), Bool.or_false, ← Bool.not_eq_true,
        Edit.takes_iff]
      simp only
      omega
    have hremoved : p.removed.without (fun m => (edits n (p :: ps)).any (·.takes m))
        (n + p.kept.size) = [] := by
      refine Text.without_all fun m hle hlt => ?_
      rw [edits_cons, List.any_cons, Edit.takes_iff.2 ⟨hle, hlt⟩, Bool.true_or]
    -- the first edit takes nothing of the rest
    have hrest : (old ps tail).without (fun m => (edits n (p :: ps)).any (·.takes m))
        (n + p.kept.size + p.removed.size) = new ps tail := by
      rw [← ih fun q hq => hps q (List.mem_cons_of_mem _ hq)]
      refine Text.without_congr fun m hle _ => ?_
      rw [edits_cons, List.any_cons, Bool.or_eq_right_iff_imp, Edit.takes_iff]
      simp only
      omega
    rw [hkept, hremoved, hrest]

/-- Edits of which no two cross: one that starts inside another ends in it, too. -/
def Edit.Nested (es : List Edit) : Prop :=
  ∀ a ∈ es, ∀ b ∈ es, a.start ≤ b.start → b.start < a.stop → b.stop ≤ a.stop

/-- **What nested edits take** is taken by those of them that are applied. -/
theorem Edit.Nested.takes_accepted (h : Nested es) (hstop : ∀ e ∈ es, e.stop ≤ content.size) (m : Nat) :
    (Splice.accepted content.size 0 (es.mergeSort before)).any (·.takes m) = es.any (·.takes m) := by
  rw [Bool.eq_iff_iff, List.any_eq_true, List.any_eq_true]
  refine ⟨fun ⟨e, he, hm⟩ => ⟨e, mem_of_mem_sorted he, hm⟩, fun ⟨e, he, hm⟩ => ?_⟩
  rcases sorted_or he (hstop e he) with h' | ⟨a, ha, hbefore, hlt⟩
  · exact ⟨e, h', hm⟩
  · have hstart := Splice.start_le_of_before hbefore
    have hle := h a (mem_of_mem_sorted ha) e he hstart hlt
    rw [takes_iff] at hm
    exact ⟨a, ha, takes_iff.2 (by omega)⟩

/-- **A splice of nested deletions** takes away what any of them takes. -/
theorem splice_deletions (hes : ∀ e ∈ es, e.start ≤ e.stop ∧ e.replacement = [])
    (hfit : ∀ e ∈ es, content.IsBoundary e.start ∧ content.IsBoundary e.stop) (h : Edit.Nested es) :
    splice content es = some (content.without (fun m => es.any (·.takes m)) 0) := by
  obtain ⟨ps, tail, hps, hold, hsplice⟩ := Splice.exists_splice (fun e he => (hes e he).1)
    fun e he _ => hfit e he
  have hinserted : ∀ p ∈ ps, p.inserted = [] := by
    intro p hp
    obtain ⟨e, he, hins⟩ := Piece.exists_edit (n := 0) hp
    rw [← hps] at he
    rw [← hins]
    exact (hes e (mem_of_mem_sorted he)).2
  have hstop : ∀ e ∈ es, e.stop ≤ content.size := fun e he => (hfit e he).2.le_size
  rw [hsplice, ← Piece.without_old hinserted, ← hps, ← hold]
  simp only [h.takes_accepted hstop]

end SdkWiring
