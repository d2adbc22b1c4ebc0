import SdkWiring.Proofs.Text.Parts
import SdkWiring.Text.Splice
import Mathlib.Tactic.Common

/-!
# Splicing, piece by piece

A text and the text that edits make of it are written side by side as a list of pieces: what stays,
what goes and what comes in its place. The offsets of the edits follow from the pieces.

* `splice_pieces`: edits that belong to pieces do to a text what the pieces say.
* `Splice.apply_eq_some`: edits that are applied belong to pieces.
* `mergeSort_eq`: edits that do not fall on the same range have one order.
* `sorted_or`: an edit that is left out starts inside one that is not.
-/

namespace SdkWiring

/-- A part of a text that stays, the part that goes behind it, and what comes in its place. -/
structure Piece where
  kept : Text
  removed : Text
  inserted : Text

namespace Piece

/-- The text before the edits. -/
def old : List Piece → Text → Text
  | [], tail => tail
  | p :: ps, tail => p.kept ++ (p.removed ++ old ps tail)

/-- The text behind the edits. -/
def new : List Piece → Text → Text
  | [], tail => tail
  | p :: ps, tail => p.kept ++ (p.inserted ++ new ps tail)

/-- The edits, for pieces that start at an offset. -/
def edits : Nat → List Piece → List Edit
  | _, [] => []
  | offset, p :: ps =>
    ⟨offset + p.kept.size, offset + p.kept.size + p.removed.size, p.inserted⟩ ::
      edits (offset + p.kept.size + p.removed.size) ps

variable {p : Piece} {ps qs : List Piece} {tail : Text} {offset : Nat} {e : Edit}

@[simp] theorem old_nil : old [] tail = tail := rfl

@[simp] theorem old_cons : old (p :: ps) tail = p.kept ++ (p.removed ++ old ps tail) := rfl

@[simp] theorem new_nil : new [] tail = tail := rfl

@[simp] theorem new_cons : new (p :: ps) tail = p.kept ++ (p.inserted ++ new ps tail) := rfl

@[simp] theorem edits_nil : edits offset [] = [] := rfl

@[simp] theorem edits_cons : edits offset (p :: ps) =
    ⟨offset + p.kept.size, offset + p.kept.size + p.removed.size, p.inserted⟩ ::
      edits (offset + p.kept.size + p.removed.size) ps := rfl

theorem old_append : old (ps ++ qs) tail = old ps [] ++ old qs tail := by
  induction ps with
  | nil => rfl
  | cons p ps ih => simp [ih]

theorem new_append : new (ps ++ qs) tail = new ps [] ++ new qs tail := by
  induction ps with
  | nil => rfl
  | cons p ps ih => simp [ih]

theorem edits_append : edits offset (ps ++ qs) =
    edits offset ps ++ edits (offset + (old ps []).size) qs := by
  induction ps generalizing offset with
  | nil => simp
  | cons p ps ih => simp [ih, Nat.add_assoc]

/-- An edit of a list of pieces belongs to one of them, and to none before that. -/
theorem exists_first_edit (h : e ∈ edits offset ps) : ∃ xs p ys, ps = xs ++ p :: ys ∧
    e = ⟨offset + (old xs []).size + p.kept.size,
      offset + (old xs []).size + p.kept.size + p.removed.size, p.inserted⟩ ∧
    e ∉ edits offset xs := by
  induction ps generalizing offset with
  | nil => simp at h
  | cons p ps ih =>
    by_cases hfirst : e = ⟨offset + p.kept.size, offset + p.kept.size + p.removed.size, p.inserted⟩
    · exact ⟨[], p, ps, rfl, by simp [hfirst], by simp⟩
    · rw [edits_cons, List.mem_cons] at h
      obtain ⟨xs, q, ys, rfl, rfl, hnot⟩ := ih (h.resolve_left hfirst)
      refine ⟨p :: xs, q, ys, rfl, ?_, ?_⟩
      · simp only [old_cons, Text.size_append, Edit.mk.injEq, and_true]
        omega
      · rw [edits_cons, List.mem_cons, not_or]
        exact ⟨hfirst, hnot⟩

theorem mem_edits (h : e ∈ edits offset ps) : ∃ xs p ys, ps = xs ++ p :: ys ∧
    e = ⟨offset + (old xs []).size + p.kept.size,
      offset + (old xs []).size + p.kept.size + p.removed.size, p.inserted⟩ := by
  obtain ⟨xs, p, ys, hps, he, -⟩ := exists_first_edit h
  exact ⟨xs, p, ys, hps, he⟩

/-- The last edit ends where what stays behind all pieces begins. -/
theorem exists_last_edit (hps : ps ≠ []) :
    ∃ e ∈ edits offset ps, e.stop = offset + (old ps []).size := by
  obtain ⟨ps, p, rfl⟩ := (List.eq_nil_or_concat' ps).resolve_left hps
  rw [edits_append, old_append, edits_cons, edits_nil, old_cons, old_nil, List.append_nil]
  refine ⟨_, List.mem_append_right _ (List.mem_singleton_self _), ?_⟩
  simp only [Text.size_append]
  omega

end Piece

/-- The order of application, spelled out. -/
theorem Edit.before_iff {a b : Edit} : a.before b = true ↔
    a.start < b.start ∨ a.start = b.start ∧ a.stop ≤ b.stop := by
  simp only [before, Bool.or_eq_true, Bool.and_eq_true, decide_eq_true_eq, beq_iff_eq]

/-- The order of edits that do not fall on the same range. -/
def Edit.Precedes (a b : Edit) : Prop := a.start < b.start ∨ a.start = b.start ∧ a.stop < b.stop

namespace Piece

variable {ps : List Piece} {offset : Nat} {e : Edit}

/-- Every edit keeps or removes something behind the place where its pieces start. -/
theorem start_of_mem_edits (hps : ∀ p ∈ ps, 0 < p.kept.size + p.removed.size)
    (h : e ∈ edits offset ps) : offset ≤ e.start ∧ e.start ≤ e.stop ∧ offset < e.stop := by
  obtain ⟨xs, p, ys, rfl, rfl⟩ := mem_edits h
  have := hps p (by simp)
  simp only
  omega

/-- **Pieces give their edits in order**, if each but the first keeps or removes something. -/
theorem pairwise_edits (hps : ∀ p ∈ ps.tail, 0 < p.kept.size + p.removed.size) :
    (edits offset ps).Pairwise Edit.Precedes := by
  induction ps generalizing offset with
  | nil => exact .nil
  | cons p ps ih =>
    rw [edits_cons, List.pairwise_cons]
    refine ⟨fun e he => ?_, ih fun q hq => hps q (List.mem_of_mem_tail hq)⟩
    have := start_of_mem_edits hps he
    unfold Edit.Precedes
    simp only
    omega

end Piece

namespace Text

variable {t x y : Text} {m : Nat}

theorem eq_nil_of_size (h : t.size = 0) : t = [] := by
  cases t with
  | nil => rfl
  | cons c t =>
    have := c.utf8Size_pos
    simp only [size_cons] at h
    omega

/-- Of two first parts of a text, the one with more bytes starts with the other. -/
theorem split_of_size {z a b : Text} (h : x ++ a = z ++ b) (hle : z.size ≤ x.size) :
    ∃ y, x = z ++ y ∧ y ++ a = b := by
  rcases List.append_eq_append_iff.1 h with ⟨y, rfl, hy⟩ | ⟨y, hy, hy'⟩
  · rw [size_append] at hle
    obtain rfl := eq_nil_of_size (t := y) (by omega)
    exact ⟨[], by simp, by simpa using hy⟩
  · exact ⟨y, hy, hy'.symm⟩

/-- The slice between two parts of a text. -/
theorem slice?_append (x t y : Text) : (x ++ (t ++ y)).slice? x.size (x.size + t.size) = some t := by
  unfold slice?
  simp [splitAt?_append]

theorem slice?_eq_some {n : Nat} (h : t.slice? m n = some x) :
    ∃ pre rest, t = pre ++ (x ++ rest) ∧ pre.size = m ∧ n = m + x.size := by
  unfold slice? at h
  split at h
  · simp only [Option.bind_eq_bind, Option.bind_eq_some_iff, Option.some.injEq, Prod.exists] at h
    obtain ⟨pre, rest, h₁, part, rest', h₂, rfl⟩ := h
    obtain ⟨rfl, rfl⟩ := splitAt?_eq_some.1 h₁
    obtain ⟨rfl, hn⟩ := splitAt?_eq_some.1 h₂
    exact ⟨pre, rest', rfl, rfl, by omega⟩
  · cases h

end Text

namespace Splice

variable {content pre rest tail res : Text} {es : List Edit} {ps : List Piece} {size cursor : Nat}
  {e : Edit}

theorem accepted_edits (tail : Text) (h : cursor + (Piece.old ps tail).size ≤ size) :
    accepted size cursor (Piece.edits cursor ps) = Piece.edits cursor ps := by
  induction ps generalizing cursor with
  | nil => rfl
  | cons p ps ih =>
    simp only [Piece.old_cons, Text.size_append] at h
    have hfit : ¬ (cursor + p.kept.size < cursor ∨
        size < cursor + p.kept.size + p.removed.size) := by omega
    have hrest : accepted size (cursor + p.kept.size + p.removed.size)
        (Piece.edits (cursor + p.kept.size + p.removed.size) ps) =
          Piece.edits (cursor + p.kept.size + p.removed.size) ps := ih (by omega)
    rw [Piece.edits_cons, accepted, if_neg hfit, hrest]

theorem apply_edits (pre : Text) (ps : List Piece) (tail : Text) :
    apply (pre ++ Piece.old ps tail) pre.size (Piece.edits pre.size ps) =
      some (Piece.new ps tail) := by
  induction ps generalizing pre with
  | nil => simp [apply, Text.splitAt?_append]
  | cons p ps ih =>
    have htail := ih (pre ++ (p.kept ++ p.removed))
    simp only [Text.size_append, ← Nat.add_assoc, List.append_assoc] at htail
    simp only [Piece.old_cons, Piece.edits_cons, apply, Text.slice?_append, htail]
    simp

theorem start_of_apply (h : apply content cursor es = some res) :
    ∃ pre rest, content = pre ++ rest ∧ pre.size = cursor := by
  cases es with
  | nil =>
    rw [apply, Option.map_eq_some_iff] at h
    obtain ⟨⟨pre, rest⟩, h, -⟩ := h
    obtain ⟨hc, rfl⟩ := Text.splitAt?_eq_some.1 h
    exact ⟨pre, rest, hc, rfl⟩
  | cons e es =>
    simp only [apply, Option.bind_eq_bind, Option.bind_eq_some_iff] at h
    obtain ⟨kept, hk, -⟩ := h
    obtain ⟨pre, rest, hc, hp, -⟩ := Text.slice?_eq_some hk
    exact ⟨pre, _, hc, hp⟩

/-- **Edits that are applied belong to pieces.** -/
theorem apply_eq_some (hle : ∀ e ∈ es, e.start ≤ e.stop)
    (h : apply (pre ++ rest) pre.size es = some res) :
    ∃ ps tail, es = Piece.edits pre.size ps ∧ rest = Piece.old ps tail ∧ res = Piece.new ps tail := by
  induction es generalizing pre rest res with
  | nil => exact ⟨[], rest, rfl, rfl, by simpa [apply, Text.splitAt?_append, eq_comm] using h⟩
  | cons e es ih =>
    simp only [apply, Option.bind_eq_bind, Option.bind_eq_some_iff, Option.some.injEq] at h
    obtain ⟨kept, hk, tail, ht, rfl⟩ := h
    obtain ⟨pre', rest', hc, hp, hstart⟩ := Text.slice?_eq_some hk
    obtain ⟨rfl, rfl⟩ := Text.append_inj_of_size hc hp.symm
    -- the next edit is looked for where this one ends
    obtain ⟨pre₂, rest₂, hc₂, hp₂⟩ := start_of_apply ht
    obtain ⟨removed, rfl, rfl⟩ : ∃ removed, pre₂ = pre ++ (kept ++ removed) ∧
        rest' = removed ++ rest₂ := by
      rw [← List.append_assoc] at hc₂
      have hstop := hle e (by simp)
      rcases List.append_eq_append_iff.1 hc₂ with ⟨z, hz, hz'⟩ | ⟨z, hz, hz'⟩
      · exact ⟨z, by rw [hz, List.append_assoc], hz'⟩
      · have hsize := congrArg Text.size hz
        simp only [Text.size_append] at hsize
        obtain rfl := Text.eq_nil_of_size (t := z) (by omega)
        exact ⟨[], by simpa using hz.symm, by simpa using hz'.symm⟩
    have hstop : e.stop = e.start + removed.size := by
      simp only [Text.size_append] at hp₂
      omega
    rw [← hp₂, show pre ++ (kept ++ (removed ++ rest₂)) = pre ++ (kept ++ removed) ++ rest₂ by simp]
      at ht
    obtain ⟨ps, tail', rfl, rfl, rfl⟩ := ih (fun e he => hle e (by simp [he])) ht
    refine ⟨⟨kept, removed, e.replacement⟩ :: ps, tail', ?_, rfl, by simp⟩
    have he : e = ⟨pre.size + kept.size, pre.size + kept.size + removed.size, e.replacement⟩ := by
      rw [← hstart, ← hstop]
    rw [Piece.edits_cons, ← he, Text.size_append, Text.size_append, Nat.add_assoc]

theorem sublist_accepted : (accepted size cursor es).Sublist es := by
  induction es generalizing cursor with
  | nil => exact .slnil
  | cons x es ih =>
    rw [accepted]
    split
    · exact ih.cons x
    · exact ih.cons_cons x

/-- **An edit that is left out starts inside one that is not**, or before the cursor. -/
theorem accepted_or (hsorted : es.Pairwise fun a b => a.before b = true) (he : e ∈ es)
    (hsize : e.stop ≤ size) :
    e ∈ accepted size cursor es ∨ e.start < cursor ∨
      ∃ a ∈ accepted size cursor es, a.before e = true ∧ e.start < a.stop := by
  induction es generalizing cursor with
  | nil => simp at he
  | cons x es ih =>
    obtain ⟨hx, hes⟩ := List.pairwise_cons.1 hsorted
    rw [accepted]
    split
    · rename_i hout
      rcases List.mem_cons.1 he with rfl | he
      · exact .inr (.inl (by omega))
      · exact ih hes he
    · rcases List.mem_cons.1 he with rfl | he
      · exact .inl (by simp)
      · have hrest : e ∈ accepted size x.stop es ∨ e.start < x.stop ∨
            ∃ a ∈ accepted size x.stop es, a.before e = true ∧ e.start < a.stop := ih hes he
        rcases hrest with h | h | ⟨a, ha, h⟩
        · exact .inl (List.mem_cons_of_mem _ h)
        · exact .inr (.inr ⟨x, by simp, hx e he, h⟩)
        · exact .inr (.inr ⟨a, List.mem_cons_of_mem _ ha, h⟩)

theorem before_trans (a b c : Edit) (hab : a.before b = true) (hbc : b.before c = true) :
    a.before c = true := by
  rw [Edit.before_iff] at *
  omega

theorem before_total (a b : Edit) : (a.before b || b.before a) = true := by
  rw [Bool.or_eq_true, Edit.before_iff, Edit.before_iff]
  omega

/-- The edits in the order in which they are applied. -/
theorem pairwise_sorted (es : List Edit) :
    (es.mergeSort Edit.before).Pairwise fun a b => a.before b = true :=
  List.pairwise_mergeSort before_trans before_total es

theorem start_le_of_before {a b : Edit} (h : a.before b = true) : a.start ≤ b.start := by
  rw [Edit.before_iff] at h
  omega

end Splice

theorem eq_or_of_pairwise {α : Type} {R : α → α → Prop} {l : List α} (h : l.Pairwise R) {a b : α}
    (ha : a ∈ l) (hb : b ∈ l) : a = b ∨ R a b ∨ R b a := by
  induction l with
  | nil => simp at ha
  | cons x l ih =>
    obtain ⟨hx, hl⟩ := List.pairwise_cons.1 h
    rcases List.mem_cons.1 ha with ha' | ha' <;> rcases List.mem_cons.1 hb with hb' | hb'
    · exact .inl (ha'.trans hb'.symm)
    · exact .inr (.inl (ha' ▸ hx b hb'))
    · exact .inr (.inr (hb' ▸ hx a ha'))
    · exact ih hl ha' hb'

/-- Edits that do not fall on the same range are applied in their order, however they are given. -/
theorem mergeSort_eq {es ordered : List Edit} (hperm : es.Perm ordered)
    (hord : ordered.Pairwise Edit.Precedes) : es.mergeSort Edit.before = ordered := by
  refine List.Perm.eq_of_pairwise ?_ (Splice.pairwise_sorted es) (hord.imp ?_)
    ((List.mergeSort_perm es _).trans hperm)
  · intro a b ha hb hab hba
    have ha' : a ∈ ordered := hperm.subset (List.mem_mergeSort.1 ha)
    rw [Edit.before_iff] at hab hba
    rcases eq_or_of_pairwise hord ha' hb with h | h | h
    · exact h
    · unfold Edit.Precedes at h
      omega
    · unfold Edit.Precedes at h
      omega
  · intro a b h
    unfold Edit.Precedes at h
    rw [Edit.before_iff]
    omega

/-- **Edits that belong to pieces** do to a text what the pieces say, in whatever order they are
given. -/
theorem splice_pieces (ps : List Piece) (tail : Text) {es : List Edit}
    (hperm : es.Perm (Piece.edits 0 ps)) (hord : (Piece.edits 0 ps).Pairwise Edit.Precedes) :
    splice (Piece.old ps tail) es = some (Piece.new ps tail) := by
  have happly := Splice.apply_edits [] ps tail
  rw [splice, mergeSort_eq hperm hord, Splice.accepted_edits tail (by omega)]
  simpa using happly

/-- The same behind text that stays. -/
theorem splice_pieces_behind (pre : Text) (ps : List Piece) (tail : Text) {es : List Edit}
    (hperm : es.Perm (Piece.edits pre.size ps))
    (hord : (Piece.edits pre.size ps).Pairwise Edit.Precedes) :
    splice (pre ++ Piece.old ps tail) es = some (pre ++ Piece.new ps tail) := by
  cases ps with
  | nil =>
    rw [List.Perm.eq_nil hperm]
    exact splice_nil _
  | cons p ps =>
    have hedits : Piece.edits 0 (⟨pre ++ p.kept, p.removed, p.inserted⟩ :: ps) =
        Piece.edits pre.size (p :: ps) := by
      simp [Nat.add_assoc]
    have h := splice_pieces (⟨pre ++ p.kept, p.removed, p.inserted⟩ :: ps) tail (hedits ▸ hperm)
      (hedits ▸ hord)
    simpa using h

/-- Text in front of all pieces that are touched stays. -/
theorem Piece.new_of_start {ps : List Piece} {tail x y : Text} {n : Nat}
    (hes : ∀ e ∈ Piece.edits n ps, n + x.size ≤ e.start) (h : Piece.old ps tail = x ++ y) :
    ∃ y', Piece.new ps tail = x ++ y' := by
  cases ps with
  | nil => exact ⟨y, h⟩
  | cons p ps =>
    have hstart := hes _ (by rw [Piece.edits_cons]; exact List.mem_cons_self)
    rw [Piece.old_cons] at h
    rcases List.append_eq_append_iff.1 h with ⟨z, hz, -⟩ | ⟨z, hz, -⟩
    · have hsize := congrArg Text.size hz
      rw [Text.size_append] at hsize
      obtain rfl := Text.eq_nil_of_size (t := z) (by simp only at hstart; omega)
      rw [List.append_nil] at hz
      exact ⟨p.inserted ++ Piece.new ps tail, by rw [hz, Piece.new_cons]⟩
    · exact ⟨z ++ (p.inserted ++ Piece.new ps tail), by rw [Piece.new_cons, hz]; simp⟩

/-- The edits of a splice, in the order in which they are applied. -/
theorem mem_of_mem_sorted {size cursor : Nat} {es : List Edit} {e : Edit}
    (h : e ∈ Splice.accepted size cursor (es.mergeSort Edit.before)) : e ∈ es :=
  List.mem_mergeSort.1 (Splice.sublist_accepted.subset h)

/-- **A splice is what pieces say.** -/
theorem splice_eq_some {content res : Text} {es : List Edit} (hle : ∀ e ∈ es, e.start ≤ e.stop)
    (h : splice content es = some res) :
    ∃ ps tail, Splice.accepted content.size 0 (es.mergeSort Edit.before) = Piece.edits 0 ps ∧
      content = Piece.old ps tail ∧ res = Piece.new ps tail := by
  have happly : Splice.apply ([] ++ content) (Text.size [])
      (Splice.accepted content.size 0 (es.mergeSort Edit.before)) = some res := h
  exact Splice.apply_eq_some (fun e he => hle e (mem_of_mem_sorted he)) happly

/-- **What happens to an edit**: it is applied, or it starts inside one that is and comes before. -/
theorem sorted_or {content : Text} {es : List Edit} {e : Edit} (he : e ∈ es)
    (hsize : e.stop ≤ content.size) :
    e ∈ Splice.accepted content.size 0 (es.mergeSort Edit.before) ∨
      ∃ a ∈ Splice.accepted content.size 0 (es.mergeSort Edit.before),
        a.before e = true ∧ e.start < a.stop := by
  rcases Splice.accepted_or (Splice.pairwise_sorted es) (List.mem_mergeSort.2 he) hsize with
    h | h | h
  · exact .inl h
  · exact absurd h (Nat.not_lt_zero _)
  · exact .inr h

/-- **Text in front of all edits stays.** -/
theorem splice_kept {x y res : Text} {es : List Edit} (hle : ∀ e ∈ es, e.start ≤ e.stop)
    (hes : ∀ e ∈ es, x.size ≤ e.start) (h : splice (x ++ y) es = some res) :
    ∃ y', res = x ++ y' := by
  obtain ⟨ps, tail, hedits, hold, rfl⟩ := splice_eq_some hle h
  refine Piece.new_of_start (n := 0) (fun e he => ?_) hold.symm
  rw [Nat.zero_add]
  exact hes e (mem_of_mem_sorted (hedits ▸ he))

/-- **A text that is written in front of all other edits**, and the text up to these. -/
theorem splice_insert_first {pre t x y res : Text} {es : List Edit}
    (hle : ∀ e ∈ es, e.start ≤ e.stop) (hx : x ≠ []) (hes : ∀ e ∈ es, pre.size + x.size ≤ e.start)
    (h : splice (pre ++ (x ++ y)) (es ++ [Edit.insert pre.size t]) = some res) :
    ∃ y', res = pre ++ (t ++ (x ++ y')) := by
  have hpos : 0 < x.size := Nat.pos_of_ne_zero fun h => hx (Text.eq_nil_of_size h)
  -- the edit that writes the text is the first one
  obtain ⟨rest, hsort⟩ : ∃ rest, (es ++ [Edit.insert pre.size t]).mergeSort Edit.before =
      Edit.insert pre.size t :: rest := by
    have hmem : Edit.insert pre.size t ∈ (es ++ [Edit.insert pre.size t]).mergeSort Edit.before :=
      List.mem_mergeSort.2 (by simp)
    obtain ⟨e, rest, hrest⟩ := List.exists_cons_of_ne_nil (List.ne_nil_of_mem hmem)
    have hsorted := Splice.pairwise_sorted (es ++ [Edit.insert pre.size t])
    rw [hrest] at hmem hsorted
    rcases List.mem_cons.1 hmem with he | he
    · exact ⟨rest, by rw [hrest, he]⟩
    · have hstart := Splice.start_le_of_before ((List.pairwise_cons.1 hsorted).1 _ he)
      have hmem' : e ∈ es ++ [Edit.insert pre.size t] :=
        List.mem_mergeSort.1 (hrest ▸ List.mem_cons_self)
      rcases List.mem_append.1 hmem' with he' | he'
      · have := hes e he'
        simp only [Edit.insert] at hstart
        omega
      · exact ⟨rest, by rw [hrest, List.mem_singleton.1 he']⟩
  have hperm : rest.Perm es := by
    have := (List.mergeSort_perm (es ++ [Edit.insert pre.size t]) Edit.before)
    rw [hsort] at this
    exact (List.perm_cons _).1 (this.trans List.perm_append_comm)
  have hsize : ¬ ((Edit.insert pre.size t).start < 0 ∨
      (pre ++ (x ++ y)).size < (Edit.insert pre.size t).stop) := by
    simp only [Text.size_append, Edit.insert]
    omega
  rw [splice, hsort, Splice.accepted, if_neg hsize] at h
  simp only [Edit.insert, Splice.apply, Option.bind_eq_bind, Option.bind_eq_some_iff, Option.some.injEq] at h
  obtain ⟨kept, hk, rest', hrest', rfl⟩ := h
  have hslice := Text.slice?_append [] pre (x ++ y)
  simp only [List.nil_append, Text.size_nil, Nat.zero_add] at hslice
  have hkept : kept = pre := Option.some.inj (hk.symm.trans hslice)
  have hmem : ∀ e ∈ Splice.accepted (pre ++ (x ++ y)).size pre.size rest, e ∈ es := fun e he =>
    hperm.subset (Splice.sublist_accepted.subset he)
  obtain ⟨ps, tail, hedits, hold, rfl⟩ := Splice.apply_eq_some (fun e he => hle e (hmem e he)) hrest'
  obtain ⟨y', hy'⟩ := Piece.new_of_start (fun e he => hes e (hmem e (hedits ▸ he))) hold.symm
  exact ⟨y', by rw [hkept, hy', List.append_assoc]⟩

end SdkWiring
