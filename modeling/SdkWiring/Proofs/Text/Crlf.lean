import SdkWiring.Proofs.Text.Lines
import SdkWiring.Proofs.Text.Shifting

/-!
# Texts with carriage returns

In a file of the second kind every line feed stands behind a carriage return. Parts of such a file can
be put together at will. Taken apart, what is left behind a cut may start with a line feed that has lost
its carriage return, but only where the cut is behind one.

* `Text.Crlf`: texts without a lone line feed.
* `Text.crlf_iff_lines`: each of their lines that is ended is ended by both characters.
* `Text.Crlf.append`, `Text.Crlf.right`: putting together and cutting.
* `Text.Crlf.splice`: edits that end behind no carriage return.
-/

namespace SdkWiring

namespace Text

variable {t x y : Text} {ls : List Text} {ps : List Piece} {tail : Text}

/-- Every line feed of a text stands right behind a carriage return. -/
def Crlf (t : Text) : Prop := ∀ x y, t = x ++ '\n' :: y → x.getLast? = some '\r'

theorem crlf_of_no_feed (h : '\n' ∉ t) : t.Crlf := by
  rintro x y rfl
  exact absurd (by simp) h

/-! ## Putting together and cutting -/

theorem Crlf.append (hx : x.Crlf) (hy : y.Crlf) : (x ++ y).Crlf := by
  intro u v h
  rcases List.append_eq_append_iff.1 h with ⟨w, rfl, hw⟩ | ⟨w, hw, hw'⟩
  · rw [List.getLast?_append, hy w v hw]
    rfl
  · cases w with
    | nil =>
      -- the feed would be the first character of the second text
      rw [List.append_nil] at hw
      exact absurd (hy [] v hw'.symm) (by simp)
    | cons c w =>
      obtain ⟨rfl, -⟩ := List.cons.inj hw'
      exact hx u w hw

theorem Crlf.left (h : (x ++ y).Crlf) : x.Crlf := by
  rintro u v rfl
  exact h u (v ++ y) (by simp)

/-- Behind a cut no line feed is alone, unless the cut is behind a carriage return. -/
theorem Crlf.right (h : (x ++ y).Crlf) (hx : x.getLast? ≠ some '\r') : y.Crlf := by
  rintro u v rfl
  have hlast := h (x ++ u) v (List.append_assoc _ _ _).symm
  rw [List.getLast?_append, Option.or_eq_some_iff] at hlast
  exact hlast.resolve_right fun hnone => hx hnone.2

/-- What starts a line has lost no carriage return. -/
theorem Crlf.right_of_endsLine (h : (x ++ y).Crlf) (hx : EndsLine x.reverse) : y.Crlf :=
  h.right fun hlast => absurd (hx.eq_of_getLast? hlast) (by decide)

theorem crlf_flatten (h : ∀ line ∈ ls, Crlf line) : Crlf ls.flatten := by
  induction ls with
  | nil => exact crlf_of_no_feed List.not_mem_nil
  | cons line ls ih =>
    rw [List.flatten_cons]
    exact (h line List.mem_cons_self).append (ih fun l hl => h l (List.mem_cons_of_mem _ hl))

/-! ## The lines -/

theorem crlf_line (ht : '\n' ∉ t) : (t ++ '\n' :: y).Crlf ↔ t.getLast? = some '\r' ∧ y.Crlf := by
  constructor
  · intro h
    refine ⟨h t y rfl, ?_⟩
    rw [List.append_cons] at h
    exact h.right (by rw [List.getLast?_concat]; decide)
  · rintro ⟨hlast, hy⟩
    rw [List.append_cons]
    refine Crlf.append (fun u v h => ?_) hy
    rcases List.eq_nil_or_concat' v with rfl | ⟨v, c, rfl⟩
    · rwa [← (List.append_inj' h rfl).1]
    · rw [← List.cons_append, ← List.append_assoc] at h
      exact absurd (by simp [(List.append_inj' h rfl).1]) ht

/-- **The lines of a text without lone line feeds**: each that is ended is ended by both
characters. -/
theorem crlf_iff_lines :
    t.Crlf ↔ ∀ line ∈ t.lines, line.endsLine = true → ['\r', '\n'] <:+ line := by
  induction t using line_induction with
  | nil => simp [crlf_of_no_feed]
  | last t hne ht =>
    have hopen : ¬ endsLine t = true := by
      rw [endsLine, beq_iff_eq]
      exact fun hlast => ht (List.mem_of_getLast? hlast)
    simp [lines_last ht hne, hopen, crlf_of_no_feed ht]
  | line t y ht ih =>
    have hpair : ['\r', '\n'] <:+ t ++ ['\n'] ↔ t.getLast? = some '\r' := by
      rw [List.getLast?_eq_some_iff]
      constructor
      · rintro ⟨u, hu⟩
        rw [List.append_cons] at hu
        exact ⟨u, (List.append_inj' hu rfl).1.symm⟩
      · rintro ⟨u, rfl⟩
        exact ⟨u, by simp⟩
    have hended : (t ++ ['\n']).endsLine = true := by simp [endsLine]
    rw [crlf_line ht, lines_line ht, List.forall_mem_cons, ih, hpair]
    simp [hended]

instance (t : Text) : Decidable t.Crlf := decidable_of_iff _ crlf_iff_lines.symm

/-- Lines of a text without lone line feeds have none. -/
theorem Crlf.of_mem_lines (h : t.Crlf) {line : Text} (hline : line ∈ t.lines) : line.Crlf := by
  obtain ⟨before, behind, hlines⟩ := List.append_of_mem hline
  obtain ⟨hbefore, -, -⟩ := lines_split hlines
  rw [eq_of_lines_split hlines] at h
  exact (h.right_of_endsLine (endsLine_flatten hbefore)).left

/-! ## Splicing -/

/-- **Pieces whose removed parts end behind no carriage return**, and in whose place no lone line feed
comes, leave none. -/
theorem Crlf.new (h : (Piece.old ps tail).Crlf) (hins : ∀ p ∈ ps, p.inserted.Crlf)
    (hstop : ∀ p ∈ ps, (p.kept ++ p.removed).getLast? ≠ some '\r') : (Piece.new ps tail).Crlf := by
  induction ps with
  | nil => exact h
  | cons p ps ih =>
    rw [List.forall_mem_cons] at hins hstop
    rw [Piece.old_cons] at h
    have hkept : p.kept.Crlf := h.left
    rw [← List.append_assoc] at h
    exact hkept.append (hins.1.append (ih (h.right hstop.1) hins.2 hstop.2))

/-- **Edits keep the carriage returns** if what they write has no lone line feed and they end behind no
carriage return. -/
theorem Crlf.splice {content res : Text} {es : List Edit} (h : content.Crlf)
    (hle : ∀ e ∈ es, e.start ≤ e.stop) (hwrite : ∀ e ∈ es, e.replacement.Crlf)
    (hstop : ∀ e ∈ es, ¬ content.IsBehind '\r' e.stop) (hres : SdkWiring.splice content es = some res) :
    res.Crlf := by
  obtain ⟨ps, tail, hedits, rfl, rfl⟩ := splice_eq_some hle hres
  have hmem : ∀ e ∈ Piece.edits 0 ps, e ∈ es := fun e he => mem_of_mem_sorted (hedits ▸ he)
  -- the edit that a piece belongs to
  have hedit : ∀ xs p ys, ps = xs ++ p :: ys → (⟨0 + (Piece.old xs p.kept).size,
      0 + (Piece.old xs p.kept).size + p.removed.size, p.inserted⟩ : Edit) ∈ es := by
    rintro xs p ys rfl
    apply hmem
    rw [Piece.edits_split]
    exact List.mem_append_right _ List.mem_cons_self
  refine h.new (fun p hp => ?_) fun p hp hlast => ?_ <;>
    obtain ⟨xs, ys, rfl⟩ := List.append_of_mem hp
  · exact hwrite _ (hedit xs p ys rfl)
  · obtain ⟨x, hx⟩ : ∃ x, Piece.old xs p.kept ++ p.removed = x ++ ['\r'] := by
      rw [← List.getLast?_eq_some_iff, ← List.nil_append p.kept, Piece.old_tail, List.append_assoc,
        List.getLast?_append, hlast]
      rfl
    refine hstop _ (hedit xs p ys rfl) ⟨x, Piece.old ys tail, ?_, ?_⟩
    · rw [Piece.old_split, ← List.append_assoc, hx]
    · rw [← hx, Text.size_append, Nat.zero_add]

end Text

theorem LineBreak.crlf_text : crlf.text.Crlf := by decide

end SdkWiring
