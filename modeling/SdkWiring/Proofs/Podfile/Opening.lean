import SdkWiring.Proofs.Podfile.LiveLine

/-!
# Openings and ends of blocks

The block of a target begins at its opening, which the search takes anywhere on a line, and it ends
before a line that begins with `end`. Both are told from a single line.

* `Podfile.mem_targetOpening`, `Podfile.unambiguous_targetOpening`: what opens a block.
* `Podfile.find?_blockEnd`: the first line that ends one.
-/

namespace SdkWiring

namespace Podfile

open Pattern

variable {target op line t y z : Text} {ls : List Text}

/-! ## Openings and ends on a line -/

/-- The text that opens the block of a target. -/
def IsOpening (target op : Text) : Prop :=
  ∃ gap q q' gap', op = "target".toList ++ (gap ++ q :: (target ++ q' :: (gap' ++ "do".toList))) ∧
    (∀ c ∈ gap ++ gap', Text.isBlank c = true) ∧ gap ≠ [] ∧ gap' ≠ [] ∧ IsQuote q ∧ IsQuote q'

/-- A text begins with the opening of the block. -/
def Opens (target t : Text) : Prop := ∃ op, IsOpening target op ∧ Text.BeginsWith op t

/-- A line has the opening of the block somewhere. -/
def Mentions (target line : Text) : Prop := ∃ x y, line = x ++ y ∧ Opens target y

/-- A line that opens the block: only blanks stand in front of the opening. -/
def IsTargetLine (target line : Text) : Prop :=
  ∃ indent y, line = indent ++ y ∧ (∀ c ∈ indent, Text.isBlank c = true) ∧ Opens target y

/-- A line that ends a block. -/
def IsEnd (line : Text) : Prop := Text.BeginsWith "end".toList line

theorem IsOpening.no_feed (ht : '\n' ∉ target) (h : IsOpening target op) : '\n' ∉ op := by
  obtain ⟨gap, q, q', gap', rfl, hblank, -, -, hq, hq'⟩ := h
  have hgap : ∀ c ∈ gap ++ gap', c ≠ '\n' := fun c hc => ne_feed_of_isBlank (hblank c hc)
  simp only [List.mem_append, List.mem_cons, not_or]
  exact ⟨by decide, fun h => hgap _ (List.mem_append_left _ h) rfl, hq.ne_feed.symm, ht,
    hq'.ne_feed.symm, fun h => hgap _ (List.mem_append_right _ h) rfl, by decide⟩

theorem IsOpening.head? (h : IsOpening target op) : op.head? = some 't' := by
  obtain ⟨gap, q, q', gap', rfl, -⟩ := h
  rfl

theorem Opens.head? (h : Opens target t) : t.head? = some 't' := by
  obtain ⟨op, hop, rest, rfl, -⟩ := h
  rw [List.head?_append, hop.head?]
  rfl

theorem opens_line (ht : '\n' ∉ target) (h : z = [] ∨ ∃ u, y = u ++ ['\n']) :
    Opens target (y ++ z) ↔ Opens target y :=
  exists_congr fun _ => and_congr_right fun hop => Text.beginsWith_line (hop.no_feed ht) h

theorem isEnd_line (h : z = [] ∨ ∃ u, y = u ++ ['\n']) : IsEnd (y ++ z) ↔ IsEnd y :=
  Text.beginsWith_line (by decide) h

theorem IsEnd.ne_nil (h : IsEnd t) : t ≠ [] := by
  obtain ⟨rest, rfl, -⟩ := h
  exact List.cons_ne_nil _ _

theorem IsTargetLine.mentions (h : IsTargetLine target line) : Mentions target line := by
  obtain ⟨indent, y, hline, -, hy⟩ := h
  exact ⟨indent, y, hline, hy⟩

/-- A line that opens a block ends none. -/
theorem IsTargetLine.not_isEnd (h : IsTargetLine target line) : ¬ IsEnd line := by
  obtain ⟨indent, y, rfl, hblank, hy⟩ := h
  rintro ⟨rest, hend, -⟩
  cases indent with
  | nil =>
    have hhead := hy.head?
    rw [List.nil_append] at hend
    rw [hend] at hhead
    exact absurd (Option.some.inj hhead) (by decide)
  | cons c indent =>
    obtain rfl : c = 'e' := (List.cons.inj hend).1
    exact absurd (hblank 'e' List.mem_cons_self) (by decide)

/-- The line with the opening of a block lists no pod. -/
theorem Opens.not_isPodLine {pod : Text} (h : Opens target t) : ¬ IsPodLine pod t := by
  rintro ⟨-, ⟨indent, gap, q, q', rfl, hblank, -⟩, rest, rfl⟩
  have hhead := h.head?
  cases indent with
  | nil => exact absurd (Option.some.inj hhead) (by decide)
  | cons c indent =>
    obtain rfl : c = 't' := Option.some.inj hhead
    exact absurd (hblank 't' (by simp)) (by decide)

/-! ## The patterns -/

theorem targetOpening_eq (target : Text) : targetOpening target =
    literal "target".toList ++ (many1 Text.isBlank ++ (one (fun c => c == '\'' || c == '"')
      ++ (literal target ++ (one (fun c => c == '\'' || c == '"') ++ (many1 Text.isBlank
      ++ (literal "do".toList ++ border)))))) := by
  simp only [targetOpening, quoted, quote, append_assoc]

theorem mem_targetOpening {b a : Text} {d : Cursor} : d ∈ targetOpening target ⟨b, a⟩ ↔
    ∃ op, IsOpening target op ∧ a = op ++ d.after ∧ d.after.head?.any Text.isWord = false ∧
      d.before = op.reverse ++ b := by
  obtain ⟨db, da⟩ := d
  simp only [targetOpening_eq, mem_append, mem_many1, mem_literal, mem_one, mem_border, quote_iff,
    Cursor.advance]
  have hword : Text.isWord 'o' = true := by decide
  constructor
  · rintro ⟨-, ⟨-, rfl, rfl⟩, -, ⟨x, gap, -, rfl, hgap, rfl⟩, -, ⟨q, -, rfl, hq, rfl⟩, -, ⟨-, rfl, rfl⟩,
      -, ⟨q', -, rfl, hq', rfl⟩, -, ⟨x', gap', -, rfl, hgap', rfl⟩, -, ⟨rest, rfl, rfl⟩, hborder, h⟩
    obtain ⟨rfl, rfl⟩ := Cursor.mk.inj h
    refine ⟨_, ⟨x :: gap, q, q', x' :: gap', rfl, ?_, by simp, by simp, hq, hq'⟩, by simp, ?_, by simp⟩
    · intro c hc
      exact (List.mem_append.1 hc).elim (hgap c) (hgap' c)
    · simpa [hword] using hborder
  · rintro ⟨-, ⟨gap, q, q', gap', rfl, hblank, hgap, hgap', hq, hq'⟩, rfl, hborder, rfl⟩
    obtain ⟨x, gap, rfl⟩ := List.exists_cons_of_ne_nil hgap
    obtain ⟨x', gap', rfl⟩ := List.exists_cons_of_ne_nil hgap'
    have hline : "target".toList ++ (x :: gap ++ q :: (target ++ q' :: (x' :: gap' ++ "do".toList)))
        ++ da = "target".toList ++ (x :: gap ++ q :: (target ++ q' :: (x' :: gap' ++
          ("do".toList ++ da)))) := by simp
    rw [hline]
    refine ⟨_, ⟨_, rfl, rfl⟩, _, ⟨x, gap, _, rfl, fun c hc => hblank c (List.mem_append_left _ hc),
      rfl⟩, _, ⟨q, _, rfl, hq, rfl⟩, _, ⟨_, rfl, rfl⟩, _, ⟨q', _, rfl, hq', rfl⟩, _, ⟨x', gap', _, rfl,
      fun c hc => hblank c (List.mem_append_right _ hc), rfl⟩, _, ⟨_, rfl, rfl⟩, ?_, by simp⟩
    simpa [hword] using hborder

/-- An opening can be read in one way only. -/
theorem unambiguous_targetOpening : Unambiguous (targetOpening target) := by
  have hquote : ∀ c, Text.isBlank c = true → (c == '\'' || c == '"') = false := by
    intro c hc
    simp only [Text.isBlank, Bool.or_eq_true, beq_iff_eq] at hc
    rcases hc with rfl | rfl <;> decide
  rw [targetOpening_eq]
  refine (unambiguous_literal _).append (.many1 ?_ ((refuses_one hquote).append _))
  refine (unambiguous_one _).append ((unambiguous_literal _).append ((unambiguous_one _).append ?_))
  exact .many1 ((unambiguous_literal _).append (unambiguous_guard _))
    ((refuses_literal (by decide)).append _)

/-- A line feed with a line behind it that ends a block. -/
def blockEnd : Pattern :=
  literal ['\n'] ++ guard (literal "end".toList ++ border).matchesAt

theorem targetPattern_eq (target : Text) :
    targetPattern target = targetOpening target ++ (few (fun _ => true) ++ blockEnd) := by
  simp only [targetPattern, blockEnd, append_assoc]

theorem isEnd_iff {b : Text} :
    (literal "end".toList ++ border).matchesAt ⟨b, t⟩ = true ↔ IsEnd t := by
  simp only [matchesAt_iff, mem_append, mem_literal, mem_border, Cursor.advance, IsEnd,
    Text.BeginsWith]
  have hword : Text.isWord 'd' = true := by decide
  constructor
  · rintro ⟨-, -, ⟨rest, rfl, rfl⟩, hborder, rfl⟩
    exact ⟨rest, rfl, by simpa [hword] using hborder⟩
  · rintro ⟨rest, rfl, hrest⟩
    exact ⟨_, _, ⟨rest, rfl, rfl⟩, by simpa [hword] using hrest, rfl⟩

theorem blockEnd_cons {b : Text} {c : Char} : blockEnd ⟨b, c :: t⟩ =
    if c == '\n' && (literal "end".toList ++ border).matchesAt ⟨'\n' :: b, t⟩ then
      [⟨'\n' :: b, t⟩] else [] := by
  rw [blockEnd, append_apply]
  by_cases hc : c = '\n'
  · subst hc
    have hfeed : literal ['\n'] ⟨b, '\n' :: t⟩ = [⟨'\n' :: b, t⟩] := literal_append_apply ['\n'] b t
    rw [hfeed, List.flatMap_singleton, Pattern.guard, beq_self_eq_true, Bool.true_and]
  · have hother : literal ['\n'] ⟨b, c :: t⟩ = [] :=
      literal_apply_eq_nil fun h => hc (List.cons_prefix_cons.1 h).1.symm
    rw [hother, beq_false_of_ne hc, Bool.false_and]
    rfl

theorem end?_blockEnd {b : Text} (h : IsEnd t) :
    blockEnd.end? ⟨b, '\n' :: t⟩ = some ⟨'\n' :: b, t⟩ := by
  rw [end?, blockEnd_cons, isEnd_iff.2 h]
  rfl

theorem end?_blockEnd_eq_none {b : Text} {c : Char} (h : c = '\n' → ¬ IsEnd t) :
    blockEnd.end? ⟨b, c :: t⟩ = none := by
  have hno : ¬ (c == '\n' && (literal "end".toList ++ border).matchesAt ⟨'\n' :: b, t⟩) = true := by
    rw [Bool.and_eq_true, beq_iff_eq, isEnd_iff]
    exact fun hm => h hm.1 hm.2
  rw [end?, blockEnd_cons, if_neg hno]
  rfl

/-- The search for the end of a block passes over the rest of a line. -/
theorem find?_blockEnd_skip (hz : '\n' ∉ z) (b r : Text) :
    blockEnd.find? ⟨b, z ++ r⟩ = blockEnd.find? ⟨z.reverse ++ b, r⟩ := by
  refine find?_skip fun x y hxy hy => ?_
  obtain ⟨c, y, rfl⟩ := List.exists_cons_of_ne_nil hy
  have hc : c ≠ '\n' := by
    rintro rfl
    exact hz (by rw [hxy]; simp)
  rw [matchesAt_eq_isSome, List.cons_append, end?_blockEnd_eq_none fun h => absurd h hc]
  rfl

/-- **The first line that ends a block** is found behind lines that do not. -/
theorem find?_blockEnd (hz : '\n' ∉ z) (hwhole : ∀ l ∈ ls, Text.Whole l) (hls : ∀ l ∈ ls, ¬ IsEnd l)
    (ht : IsEnd t) (b : Text) :
    (blockEnd.find? ⟨b, z ++ '\n' :: (ls.flatten ++ t)⟩).map (·.2) =
      some ⟨(z ++ '\n' :: ls.flatten).reverse ++ b, t⟩ := by
  rw [find?_blockEnd_skip hz]
  induction ls generalizing b z with
  | nil =>
    rw [List.flatten_nil, List.nil_append, find?_of_end? (end?_blockEnd ht)]
    simp
  | cons l ls ih =>
    obtain ⟨u, hu, rfl⟩ := hwhole l List.mem_cons_self
    have hnot : ¬ IsEnd (u ++ '\n' :: (ls.flatten ++ t)) := by
      have hl := hls _ List.mem_cons_self
      rw [← isEnd_line (z := ls.flatten ++ t) (.inr ⟨u, rfl⟩)] at hl
      simpa using hl
    have hrest := ih hu (fun l hl => hwhole l (List.mem_cons_of_mem _ hl))
      (fun l hl => hls l (List.mem_cons_of_mem _ hl)) ('\n' :: (z.reverse ++ b))
    have hline : ((u ++ ['\n']) :: ls).flatten ++ t = u ++ '\n' :: (ls.flatten ++ t) := by simp
    -- the line feed in front of this line ends no block
    rw [hline, find?_cons, end?_blockEnd_eq_none fun _ => hnot]
    change (blockEnd.find? ⟨'\n' :: (z.reverse ++ b), _⟩).map _ = _
    rw [find?_blockEnd_skip hu, hrest]
    simp

end Podfile

end SdkWiring
