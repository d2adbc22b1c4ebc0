import SdkWiring.Podfile.Pods
import SdkWiring.Proofs.Text.Lines

/-!
# Live pod lines

A live line for a pod has nothing but blanks in front of the word `pod`, and behind more blanks the
name between quotes. What the search for pod lines finds are the live lines of the text.

* `Podfile.podLine_matchesAt`: where the pattern matches.
* `Podfile.lists_iff`: a pod is listed just if the text has a live line for it.
* `Podfile.isPodLine_newLine`: the line that is written for a pod is one.
-/

namespace SdkWiring.Podfile

open Pattern

variable {pod content line w y z : Text} {c : Char} {eol : LineBreak}

/-- A quote of either kind. -/
def IsQuote (c : Char) : Prop := c = '\'' ∨ c = '"'

/-- The beginning of a live line for a pod, up to the quote behind its name. -/
def IsPodHead (pod w : Text) : Prop :=
  ∃ indent gap q q', w = indent ++ ("pod".toList ++ (gap ++ q :: (pod ++ [q']))) ∧
    (∀ c ∈ indent ++ gap, Text.isBlank c = true) ∧ gap ≠ [] ∧ IsQuote q ∧ IsQuote q'

/-- A live line for a pod, whatever options it gives. -/
def IsPodLine (pod line : Text) : Prop := ∃ w, IsPodHead pod w ∧ w <+: line

theorem quote_iff : (c == '\'' || c == '"') = true ↔ IsQuote c := by
  simp only [IsQuote, Bool.or_eq_true, beq_iff_eq]

/-- A character that is no blank and no letter of a fixed word is in no part of a line around the
name. -/
theorem IsQuote.ne_feed (h : IsQuote c) : c ≠ '\n' := by
  rcases h with rfl | rfl <;> decide

theorem ne_feed_of_isBlank (h : Text.isBlank c = true) : c ≠ '\n' := by
  rintro rfl
  exact absurd h (by decide)

theorem IsPodHead.no_feed (hpod : '\n' ∉ pod) (h : IsPodHead pod w) : '\n' ∉ w := by
  obtain ⟨indent, gap, q, q', rfl, hblank, -, hq, hq'⟩ := h
  have hgap : ∀ c ∈ indent ++ gap, c ≠ '\n' := fun c hc => ne_feed_of_isBlank (hblank c hc)
  simp only [List.mem_append, List.mem_cons, List.not_mem_nil, or_false, not_or]
  exact ⟨fun h => hgap _ (List.mem_append_left _ h) rfl, by decide,
    fun h => hgap _ (List.mem_append_right _ h) rfl, hq.ne_feed.symm, hpod, hq'.ne_feed.symm⟩

/-- The pattern of a pod line up to the quote behind the name. -/
def podHead (pod : Text) : Pattern :=
  lineStart ++ (many Text.isBlank ++ (literal "pod".toList ++ (many1 Text.isBlank
    ++ (one (fun c => c == '\'' || c == '"') ++ (literal pod
    ++ one fun c => c == '\'' || c == '"')))))

/-- The rest of a line with its line feed, if it has one. -/
def restOfPodLine : Pattern := many (· != '\n') ++ (literal ['\n'] <|> lineEnd)

theorem podLine_eq (pod : Text) : podLine pod = podHead pod ++ restOfPodLine := by
  simp only [podLine, podHead, restOfPodLine, quoted, quote, append_assoc]

theorem mem_podHead {b : Text} {d : Cursor} : d ∈ podHead pod ⟨b, z⟩ ↔
    EndsLine b ∧ ∃ w, IsPodHead pod w ∧ z = w ++ d.after ∧ d.before = w.reverse ++ b := by
  obtain ⟨db, da⟩ := d
  simp only [podHead, mem_append, lineStart, mem_guard, lineStart_iff, mem_many, mem_many1, mem_few,
    mem_literal, mem_one, quote_iff, Cursor.advance]
  constructor
  · rintro ⟨-, ⟨hb, rfl⟩, -, ⟨indent, -, rfl, hindent, rfl⟩, -, ⟨-, rfl, rfl⟩, -,
      ⟨x, gap, -, rfl, hgap, rfl⟩, -, ⟨q, -, rfl, hq, rfl⟩, -, ⟨-, rfl, rfl⟩, q', rest, rfl, hq', h⟩
    obtain ⟨rfl, rfl⟩ := Cursor.mk.inj h
    refine ⟨hb, _, ⟨indent, x :: gap, q, q', rfl, ?_, by simp, hq, hq'⟩, by simp, by simp⟩
    intro c hc
    exact (List.mem_append.1 hc).elim (hindent c) (hgap c)
  · rintro ⟨hb, -, ⟨indent, gap, q, q', rfl, hblank, hgap, hq, hq'⟩, rfl, rfl⟩
    obtain ⟨x, gap, rfl⟩ := List.exists_cons_of_ne_nil hgap
    have hline : indent ++ ("pod".toList ++ (x :: gap ++ q :: (pod ++ [q']))) ++ da =
        indent ++ ("pod".toList ++ (x :: gap ++ q :: (pod ++ q' :: da))) := by simp
    rw [hline]
    exact ⟨_, ⟨hb, rfl⟩, _, ⟨indent, _, rfl, fun c hc => hblank c (List.mem_append_left _ hc), rfl⟩, _,
      ⟨_, rfl, rfl⟩, _, ⟨x, gap, _, rfl, fun c hc => hblank c (List.mem_append_right _ hc), rfl⟩, _,
      ⟨q, _, rfl, hq, rfl⟩, _, ⟨_, rfl, rfl⟩, q', da, rfl, hq', by simp⟩

/-- Any rest of a line is taken. -/
theorem exists_mem_restOfPodLine (b a : Text) : ∃ d, d ∈ restOfPodLine ⟨b, a⟩ := by
  have hrun : ∀ c ∈ a.takeWhile (· != '\n'), (c != '\n') = true := fun c hc =>
    List.all_eq_true.1 List.all_takeWhile c hc
  have ha : a = a.takeWhile (· != '\n') ++ a.dropWhile (· != '\n') :=
    List.takeWhile_append_dropWhile.symm
  simp only [restOfPodLine, mem_append, mem_many, mem_few, mem_orElse, mem_literal, lineEnd,
    mem_guard]
  cases hend : a.dropWhile (· != '\n') with
  | nil => exact ⟨_, _, ⟨_, [], hend ▸ ha, hrun, rfl⟩, .inr ⟨rfl, rfl⟩⟩
  | cons c y =>
    have hc : c = '\n' := by
      have hhead := List.head?_dropWhile_not (· != '\n') a
      rw [hend] at hhead
      simpa using hhead
    exact ⟨_, _, ⟨_, c :: y, hend ▸ ha, hrun, rfl⟩, .inl ⟨y, by rw [hc]; rfl, rfl⟩⟩

/-- **Where the pattern of a pod line matches**: at the start of a live line. -/
theorem podLine_matchesAt {b : Text} :
    (podLine pod).matchesAt ⟨b, z⟩ = true ↔ EndsLine b ∧ IsPodLine pod z := by
  rw [podLine_eq, matchesAt_iff]
  constructor
  · rintro ⟨d, hd⟩
    obtain ⟨m, hm, -⟩ := mem_append.1 hd
    obtain ⟨hb, w, hw, hz, -⟩ := mem_podHead.1 hm
    exact ⟨hb, w, hw, m.after, hz.symm⟩
  · rintro ⟨hb, w, hw, rest, hz⟩
    obtain ⟨d, hd⟩ := exists_mem_restOfPodLine (w.reverse ++ b) rest
    exact ⟨d, mem_append.2 ⟨_, mem_podHead.2 ⟨hb, w, hw, hz.symm, rfl⟩, hd⟩⟩

/-- Whether a line is live for a pod does not depend on the lines behind it. -/
theorem isPodLine_line (hpod : '\n' ∉ pod) (h : z = [] ∨ ∃ u, y = u ++ ['\n']) :
    IsPodLine pod (y ++ z) ↔ IsPodLine pod y :=
  exists_congr fun _ => and_congr_right fun hw => Text.prefix_line (hw.no_feed hpod) h

theorem IsPodLine.ne_nil (h : IsPodLine pod line) : line ≠ [] := by
  obtain ⟨w, ⟨indent, gap, q, q', rfl, -⟩, hw⟩ := h
  rintro rfl
  simpa using List.prefix_nil.1 hw

/-- **A pod is listed** just if the text has a live line for it. -/
theorem lists_iff (hpod : '\n' ∉ pod) :
    lists content pod = true ↔ ∃ line ∈ content.lines, IsPodLine pod line := by
  rw [lists, occursIn_iff]
  constructor
  · rintro ⟨y, z, hyz, hmatch⟩
    obtain ⟨hy, hz⟩ := podLine_matchesAt.1 hmatch
    obtain ⟨before, line, behind, hlines, -, rfl⟩ := Text.exists_line_start hyz hz.ne_nil hy
    have hline := (isPodLine_line hpod (Text.stop_of_lines_split hlines)).1 hz
    exact ⟨line, by rw [hlines]; simp, hline⟩
  · rintro ⟨line, hmem, hline⟩
    obtain ⟨before, behind, hlines⟩ := List.append_of_mem hmem
    have hwhole := (Text.lines_split hlines).1
    have hz := (isPodLine_line hpod (Text.stop_of_lines_split hlines)).2 hline
    exact ⟨_, _, Text.eq_of_lines_split hlines,
      podLine_matchesAt.2 ⟨Text.endsLine_flatten hwhole, hz⟩⟩

theorem newLine_eq (pod : Text) (eol : LineBreak) :
    newLine pod eol = "pod '".toList ++ (pod ++ '\'' :: eol.text) := by
  have hparts : newLine pod eol = "pod '".toList ++ pod ++ "'".toList ++ eol.text := rfl
  rw [hparts, List.append_assoc, List.append_assoc]
  rfl

/-- **The line that is written for a pod** is a live one, at the start of a line or indented. -/
theorem isPodLine_newLine {indent : Text} (h : ∀ c ∈ indent, Text.isBlank c = true) (pod : Text)
    (eol : LineBreak) : IsPodLine pod (indent ++ newLine pod eol) := by
  refine ⟨_, ⟨indent, [' '], '\'', '\'', rfl, ?_, by simp, .inl rfl, .inl rfl⟩, eol.text, ?_⟩
  · intro c hc
    rcases List.mem_append.1 hc with hc | hc
    · exact h c hc
    · rw [List.mem_singleton.1 hc]
      rfl
  · rw [List.append_assoc]
    rfl

end SdkWiring.Podfile
