import SdkWiring.Proofs.Podfile.Opening

/-!
# The block of a target, line by line

The search for the block of a target finds the first line with an opening of the block anywhere in
it that has a line behind it which ends a block, and the first such line.

* `Podfile.Block`, `Podfile.Block.Found`: the lines of a file around a block, and what is first.
* `Podfile.Block.Found.unique`: there is one such block at most.
* `Podfile.targetBlock?_of_found`, `Podfile.exists_found_of_isSome`: what the search finds.
-/

namespace SdkWiring

namespace Podfile

open Pattern

variable {target content line t x y z : Text} {ls : List Text} {opens : Text → Prop}

/-- The lines of a file around a block. -/
structure Block where
  before : List Text
  /-- The line with the opening. -/
  opener : Text
  inner : List Text
  /-- The line that ends the block. -/
  closer : Text
  behind : List Text

namespace Block

/-- All lines of the file. -/
def lines (b : Block) : List Text := b.before ++ b.opener :: (b.inner ++ b.closer :: b.behind)

/-- The place before the line that ends the block. -/
def stop (b : Block) : Cursor :=
  ⟨(b.before.flatten ++ (b.opener ++ b.inner.flatten)).reverse, b.closer ++ b.behind.flatten⟩

/-- The block is the first one, given which lines open one. -/
structure Found (b : Block) (opens : Text → Prop) : Prop where
  before : ∀ l ∈ b.before, ¬ opens l
  opener : opens b.opener
  inner : ∀ l ∈ b.inner, ¬ IsEnd l
  closer : IsEnd b.closer

end Block

/-- A first line of a kind. -/
theorem exists_first {P : Text → Prop} (h : ∃ l ∈ ls, P l) :
    ∃ before l behind, ls = before ++ l :: behind ∧ P l ∧ ∀ m ∈ before, ¬ P m := by
  induction ls with
  | nil => simp at h
  | cons l ls ih =>
    by_cases hl : P l
    · exact ⟨[], l, ls, rfl, hl, by simp⟩
    · have hrest : ∃ m ∈ ls, P m := by
        obtain ⟨m, hm, hP⟩ := h
        rcases List.mem_cons.1 hm with rfl | hm
        · exact absurd hP hl
        · exact ⟨m, hm, hP⟩
      obtain ⟨before, m, behind, rfl, hm, hbefore⟩ := ih hrest
      exact ⟨l :: before, m, behind, rfl, hm, List.forall_mem_cons.2 ⟨hl, hbefore⟩⟩

/-- A first line of a kind is where two cuts at one agree. -/
theorem first_unique {P : Text → Prop} {a a' c c' : List Text} {l l' : Text}
    (h : a ++ l :: c = a' ++ l' :: c') (ha : ∀ m ∈ a, ¬ P m) (ha' : ∀ m ∈ a', ¬ P m) (hl : P l)
    (hl' : P l') : a = a' ∧ l = l' ∧ c = c' := by
  rcases List.append_eq_append_iff.1 h with ⟨u, rfl, hu⟩ | ⟨u, rfl, hu⟩ <;> cases u with
  | nil => simp_all
  | cons m u =>
    obtain ⟨rfl, -⟩ := List.cons.inj hu
    first
      | exact absurd hl (ha' _ (by simp))
      | exact absurd hl' (ha _ (by simp))

/-- **There is one first block at most.** -/
theorem Block.Found.unique {b b' : Block} (h : b.Found opens) (h' : b'.Found opens)
    (heq : b.lines = b'.lines) : b = b' := by
  obtain ⟨hbefore, hopener, hrest⟩ := first_unique heq h.before h'.before h.opener h'.opener
  obtain ⟨hinner, hcloser, hbehind⟩ := first_unique hrest h.inner h'.inner h.closer h'.closer
  cases b
  cases b'
  simp_all

/-- There is a first block if any line that opens one has a line behind it that ends one. -/
theorem Block.exists_found (before : List Text) {behind : List Text} (hopener : opens line)
    (hend : ∃ l ∈ behind, IsEnd l) : ∃ b : Block, b.lines = before ++ line :: behind ∧ b.Found opens := by
  have hline : ∃ l ∈ before ++ [line], opens l := ⟨line, by simp, hopener⟩
  obtain ⟨before', opener, behind', hsplit, hopener', hbefore⟩ := exists_first hline
  have hend' : ∃ l ∈ behind' ++ behind, IsEnd l := by
    obtain ⟨l, hl, hE⟩ := hend
    exact ⟨l, List.mem_append_right _ hl, hE⟩
  obtain ⟨inner, closer, rest, hlines, hcloser, hinner⟩ := exists_first hend'
  refine ⟨⟨before', opener, inner, closer, rest⟩, ?_, ⟨hbefore, hopener', hinner, hcloser⟩⟩
  calc before' ++ opener :: (inner ++ closer :: rest)
      = (before' ++ opener :: behind') ++ behind := by rw [← hlines]; simp
    _ = before ++ line :: behind := by rw [← hsplit]; simp

/-! ## What the search finds -/

/-- What is said of a place in front of the rest of its line. -/
theorem opens_at {before behind : List Text} {u v : Text} (ht : '\n' ∉ target)
    (hlines : content.lines = before ++ (u ++ v) :: behind) (hv : v ≠ []) :
    Opens target (v ++ behind.flatten) ↔ Opens target v := by
  refine opens_line ht ?_
  rcases Text.stop_of_lines_split hlines with h | ⟨w, hw⟩
  · exact .inl h
  · obtain ⟨v, c, rfl⟩ := (List.eq_nil_or_concat' v).resolve_left hv
    rw [← List.append_assoc] at hw
    obtain ⟨-, rfl⟩ := List.append_inj' hw rfl |>.imp id (fun h => (List.cons.inj h).1)
    exact .inr ⟨v, rfl⟩

/-- Where no opening starts the block does not start. -/
theorem matchesAt_targetPattern (h : ¬ Opens target y) (b : Text) :
    (targetPattern target).matchesAt ⟨b, y⟩ = false := by
  rw [← Bool.not_eq_true, matchesAt_iff, targetPattern_eq]
  rintro ⟨d, hd⟩
  obtain ⟨m, hm, -⟩ := mem_append.1 hd
  obtain ⟨op, hop, rfl, hborder, -⟩ := mem_targetOpening.1 hm
  exact h ⟨op, hop, m.after, rfl, hborder⟩

/-- **Where the block ends that starts at an opening**: before the first line that ends one. -/
theorem end?_targetPattern (hopens : Opens target (z ++ ['\n'])) (ht : '\n' ∉ target) (hz : '\n' ∉ z)
    (hwhole : ∀ l ∈ ls, Text.Whole l) (hls : ∀ l ∈ ls, ¬ IsEnd l) (hend : IsEnd t) (b : Text) :
    (targetPattern target).end? ⟨b, z ++ '\n' :: (ls.flatten ++ t)⟩ =
      some ⟨(z ++ '\n' :: ls.flatten).reverse ++ b, t⟩ := by
  obtain ⟨op, hop, hbegins⟩ := hopens
  have hfeed : Text.isWord '\n' = false := by decide
  obtain ⟨rest, rfl, hrest⟩ := (Text.beginsWith_append_stop (hop.no_feed ht) hfeed []).1 hbegins
  have hborder : (rest ++ '\n' :: (ls.flatten ++ t)).head?.any Text.isWord = false := by
    cases rest with
    | nil => simpa using hfeed
    | cons c rest => exact hrest
  have hmem : (⟨op.reverse ++ b, rest ++ '\n' :: (ls.flatten ++ t)⟩ : Cursor) ∈
      targetOpening target ⟨b, op ++ rest ++ '\n' :: (ls.flatten ++ t)⟩ :=
    mem_targetOpening.2 ⟨op, hop, List.append_assoc _ _ _, hborder, rfl⟩
  have hrest' : '\n' ∉ rest := fun h => hz (List.mem_append_right _ h)
  rw [targetPattern_eq, end?_append unambiguous_targetOpening hmem, end?_few_append,
    find?_blockEnd hrest' hwhole hls hend]
  simp

/-- A first place of a kind in a text. -/
theorem exists_first_place {P : Text → Prop} (h : ∃ x y, t = x ++ y ∧ P y) :
    ∃ x y, t = x ++ y ∧ P y ∧ ∀ u v, x = u ++ v → v ≠ [] → ¬ P (v ++ y) := by
  induction t with
  | nil =>
    obtain ⟨x, y, hxy, hy⟩ := h
    obtain ⟨rfl, rfl⟩ := List.append_eq_nil_iff.1 hxy.symm
    exact ⟨[], [], rfl, hy, fun u v huv hv => absurd (List.append_eq_nil_iff.1 huv.symm).2 hv⟩
  | cons c t ih =>
    by_cases hc : P (c :: t)
    · exact ⟨[], _, rfl, hc, fun u v huv hv => absurd (List.append_eq_nil_iff.1 huv.symm).2 hv⟩
    · have hrest : ∃ x y, t = x ++ y ∧ P y := by
        obtain ⟨x, y, hxy, hy⟩ := h
        cases x with
        | nil => exact absurd (by rwa [hxy]) hc
        | cons d x => exact ⟨x, y, (List.cons.inj hxy).2, hy⟩
      obtain ⟨x, y, rfl, hy, hfirst⟩ := ih hrest
      refine ⟨c :: x, y, rfl, hy, fun u v huv hv => ?_⟩
      cases u with
      | nil =>
        obtain rfl : c :: x = v := huv
        exact hc
      | cons d u => exact hfirst u v (List.cons.inj huv).2 hv

namespace Block

variable {b : Block}

/-- The lines of a block in front of its end are whole. -/
theorem whole (hlines : content.lines = b.lines) :
    (∀ l ∈ b.before, Text.Whole l) ∧ Text.Whole b.opener ∧ ∀ l ∈ b.inner, Text.Whole l := by
  have hsplit : content.lines = (b.before ++ b.opener :: b.inner) ++ b.closer :: b.behind := by
    rw [hlines]
    simp [Block.lines]
  have hwhole := (Text.lines_split hsplit).1
  exact ⟨fun l hl => hwhole l (by simp [hl]), hwhole _ (by simp), fun l hl => hwhole l (by simp [hl])⟩

theorem eq_of_lines (hlines : content.lines = b.lines) : content =
    b.before.flatten ++ (b.opener ++ (b.inner.flatten ++ (b.closer ++ b.behind.flatten))) := by
  rw [← Text.flatten_lines content, hlines]
  simp [Block.lines]

/-- The text from the end of a block on begins with `end`. -/
theorem Found.isEnd (h : b.Found opens) (hlines : content.lines = b.lines) :
    IsEnd (b.closer ++ b.behind.flatten) := by
  have hsplit : content.lines = (b.before ++ b.opener :: b.inner) ++ b.closer :: b.behind := by
    rw [hlines]
    simp [Block.lines]
  exact (isEnd_line (Text.stop_of_lines_split hsplit)).2 h.closer

/-- No opening starts in front of the first line that has one. -/
theorem Found.not_opens (h : b.Found (Mentions target)) (ht : '\n' ∉ target)
    (hlines : content.lines = b.lines) (hx : b.before.flatten = x ++ y) (hy : y ≠ []) (r : Text)
    (hr : content = x ++ (y ++ r)) : ¬ Opens target (y ++ r) := by
  obtain ⟨before, u, v, behind, hbefore, -, rfl, -, hv⟩ := Text.exists_line_at hx hy
  rw [Text.lines_flatten_whole (whole hlines).1] at hbefore
  have hsplit : content.lines =
      before ++ (u ++ v) :: (behind ++ b.opener :: (b.inner ++ b.closer :: b.behind)) := by
    rw [hlines, Block.lines, hbefore]
    simp
  have hrest : r = (b.opener :: (b.inner ++ b.closer :: b.behind)).flatten := by
    have hcontent := eq_of_lines hlines
    rw [hr, hx] at hcontent
    simpa using hcontent
  intro hopens
  rw [hrest, List.append_assoc, ← List.flatten_append, opens_at ht hsplit hv] at hopens
  exact h.before (u ++ v) (by simp [hbefore]) ⟨u, v, rfl, hopens⟩

end Block

/-- **The block that the search finds**: it starts at the first opening in the first line that has
one with an end behind it, and ends before the first line that ends a block. -/
theorem targetBlock?_of_found (ht : '\n' ∉ target) {b : Block} (hlines : content.lines = b.lines)
    (h : b.Found (Mentions target)) : ∃ x y, b.opener = x ++ y ∧ Opens target y ∧
      (∀ u v, x = u ++ v → v ≠ [] → ¬ Opens target (v ++ y)) ∧
      targetBlock? content target = some
        (⟨(b.before.flatten ++ x).reverse, y ++ (b.inner.flatten ++ b.stop.after)⟩, b.stop) := by
  obtain ⟨x, y, hopener, hy, hfirst⟩ := exists_first_place h.opener
  refine ⟨x, y, hopener, hy, hfirst, ?_⟩
  have hcontent := Block.eq_of_lines hlines
  obtain ⟨-, ⟨z, hz, hwhole⟩, hinner⟩ := Block.whole hlines
  have hyne : y ≠ [] := by
    rintro rfl
    exact absurd hy.head? (by simp)
  obtain ⟨y', c, rfl⟩ := (List.eq_nil_or_concat' y).resolve_left hyne
  rw [hopener, ← List.append_assoc] at hwhole
  obtain ⟨hz', hc⟩ := List.append_inj' hwhole rfl
  obtain rfl : c = '\n' := (List.cons.inj hc).1
  have hsplit : content = (b.before.flatten ++ x) ++
      (y' ++ '\n' :: (b.inner.flatten ++ (b.closer ++ b.behind.flatten))) := by
    rw [hcontent, hopener]
    simp
  -- no block starts in front of the opening
  have hskip : (targetPattern target).find? (.start content) = (targetPattern target).find?
      ⟨(b.before.flatten ++ x).reverse,
        y' ++ '\n' :: (b.inner.flatten ++ (b.closer ++ b.behind.flatten))⟩ := by
    rw [Cursor.start, hsplit]
    refine (find?_skip fun p q hpq hq => matchesAt_targetPattern ?_ _).trans (by rw [List.append_nil])
    have hline : ∀ u v, x = u ++ v → v ≠ [] → ¬ Opens target (v ++ (y' ++ '\n' ::
        (b.inner.flatten ++ (b.closer ++ b.behind.flatten)))) := by
      intro u v huv hv hopens
      have hlines' : content.lines =
          b.before ++ (u ++ (v ++ (y' ++ ['\n']))) :: (b.inner ++ b.closer :: b.behind) := by
        rw [hlines, Block.lines, hopener, huv, List.append_assoc]
      refine hfirst u v huv hv ((opens_at ht hlines' (by simp)).1 ?_)
      simpa using hopens
    rcases List.append_eq_append_iff.1 hpq with ⟨u, rfl, huv⟩ | ⟨u, hbefore, rfl⟩
    · exact hline u q huv hq
    · by_cases hu : u = []
      · rw [hu] at hq ⊢
        exact hline [] x rfl hq
      · rw [List.append_assoc]
        refine h.not_opens ht hlines hbefore hu _ ?_
        rw [hsplit, hbefore]
        simp
  rw [targetBlock?, hskip, find?_of_end?
    (end?_targetPattern hy ht (fun hm => hz (hz' ▸ List.mem_append_right _ hm)) hinner h.inner
      (h.isEnd hlines) _)]
  simp [Block.stop, hopener]

/-- **A block that the search finds** has a line with an opening, and behind it one that ends a
block. -/
theorem exists_found_of_isSome (ht : '\n' ∉ target) (h : (targetBlock? content target).isSome) :
    ∃ b : Block, content.lines = b.lines ∧ b.Found (Mentions target) := by
  obtain ⟨⟨⟨bs, a⟩, d⟩, hfind⟩ := Option.isSome_iff_exists.1 h
  obtain ⟨x, hfound⟩ := find?_eq_some hfind
  have hcontent : content = x ++ a := hfound.after
  have hmem := end?_mem hfound.ends
  rw [targetPattern_eq] at hmem
  obtain ⟨m, hm, hrest⟩ := mem_append.1 hmem
  obtain ⟨op, hop, rfl, hborder, -⟩ := mem_targetOpening.1 hm
  have hopens : Opens target (op ++ m.after) := ⟨op, hop, m.after, rfl, hborder⟩
  obtain ⟨n, hn, hd⟩ := mem_append.1 hrest
  obtain ⟨w, rest, hw, -, rfl⟩ := mem_few.1 hn
  obtain ⟨e, he, hend⟩ := mem_append.1 hd
  obtain ⟨rest, hrest, rfl⟩ := mem_literal.1 he
  obtain ⟨hend, -⟩ := mem_guard.1 hend
  obtain rfl : _ = '\n' :: rest := hrest
  replace hend : IsEnd rest := isEnd_iff.1 hend
  -- the end stands at the start of a line, the opening on a line in front of it
  have hsplit : content = (x ++ (op ++ w ++ ['\n'])) ++ rest := by
    rw [hcontent, hw]
    simp
  obtain ⟨before, line, behind, hlines, hbefore, rfl⟩ := Text.exists_line_start hsplit hend.ne_nil
    (by simp [EndsLine])
  have hline : IsEnd line := (isEnd_line (Text.stop_of_lines_split hlines)).1 hend
  obtain ⟨bs, u, v, bh, hbs, -, hv, -, hne⟩ := Text.exists_line_at hbefore.symm (by simp)
  rw [Text.lines_flatten_whole (Text.lines_split hlines).1] at hbs
  have hlines' : content.lines = bs ++ (u ++ v) :: (bh ++ line :: behind) := by
    rw [hlines, hbs]
    simp
  have hopener : Opens target v := by
    refine (opens_at ht hlines' hne).1 ?_
    have heq : op ++ m.after = v ++ (bh ++ line :: behind).flatten := by
      rw [hw, List.flatten_append, ← List.append_assoc v, ← hv]
      simp
    rwa [← heq]
  have hmentions : Mentions target (u ++ v) := ⟨u, v, rfl, hopener⟩
  have hbehind : ∃ l ∈ bh ++ line :: behind, IsEnd l := ⟨line, by simp, hline⟩
  obtain ⟨b, hb, hfound⟩ := Block.exists_found bs hmentions hbehind
  exact ⟨b, hlines'.trans hb.symm, hfound⟩

end Podfile

end SdkWiring
