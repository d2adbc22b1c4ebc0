import SdkWiring.Proofs.Podfile.LiveLine
import SdkWiring.Sdk.Service
import Mathlib.Data.List.TakeWhile

/-!
# Taking pods out, line by line

The search for pod lines goes through the text from match to match. It comes to the start of every
line, and there it takes the line as a whole if it is live for the pod, and leaves it otherwise. So
what is left of a file are its other lines.

* `Podfile.LineBefore`: a line in front of the rest of a text.
* `Podfile.end?_podLine`: a live line is matched as a whole.
* `Podfile.outside_podLines`: what is left behind the start of a line.
* `Podfile.withoutPod_eq`, `Podfile.lines_withoutPods`: the lines that are left.
* `Podfile.withoutPod_linewise`: neither repetitions nor the order of pods make a difference.
-/

namespace SdkWiring.Podfile

open Pattern

variable {pod content line b a t w y : Text} {pods : List Text} {p : Pattern} {c d : Cursor}

instance (pod line : Text) : Decidable (IsPodLine pod line) :=
  decidable_of_iff ((podLine pod).matchesAt ⟨[], line⟩ = true)
    (podLine_matchesAt.trans (and_iff_right rfl))

/-! ## Where a live line ends -/

/-- The beginning of a live line can be read in one way only. -/
theorem unambiguous_podHead : Unambiguous (podHead pod) := by
  have hquote : ∀ c, Text.isBlank c = true → (c == '\'' || c == '"') = false := by
    intro c hc
    simp only [Text.isBlank, Bool.or_eq_true, beq_iff_eq] at hc
    rcases hc with rfl | rfl <;> decide
  refine (unambiguous_guard _).append (.many ?_ ((refuses_literal (by decide)).append _))
  refine (unambiguous_literal _).append (.many1 ?_ ((refuses_one hquote).append _))
  exact (unambiguous_one _).append ((unambiguous_literal _).append (unambiguous_one _))

theorem refuses_feed : Refuses (literal ['\n'] <|> lineEnd) (· != '\n') := by
  intro b x a hx
  have hne : x ≠ '\n' := by simpa using hx
  have hliteral : literal ['\n'] ⟨b, x :: a⟩ = [] :=
    literal_apply_eq_nil fun h => hne (List.cons_prefix_cons.1 h).1.symm
  change literal ['\n'] ⟨b, x :: a⟩ ++ lineEnd ⟨b, x :: a⟩ = []
  simp [hliteral, lineEnd, Pattern.guard, hne]

/-- A line in front of the rest of a text: its characters with a line feed behind them, or without one
at the end of the text. -/
structure LineBefore (t line a : Text) : Prop where
  no_feed : '\n' ∉ t
  ended : line = t ++ ['\n'] ∨ line = t ∧ a = []

/-- What follows the name is taken up to the end of its line. -/
theorem end?_restOfPodLine (h : LineBefore t line a) :
    restOfPodLine.end? ⟨b, line ++ a⟩ = some ⟨line.reverse ++ b, a⟩ := by
  obtain ⟨ht, h⟩ := h
  have hrun : ∀ c ∈ t, (c != '\n') = true := fun c hc => by
    simpa using fun e : c = '\n' => ht (e ▸ hc)
  rw [end?, restOfPodLine, many_append_apply refuses_feed]
  rcases h with rfl | ⟨rfl, rfl⟩
  · have htake : (t ++ ['\n'] ++ a).takeWhile (· != '\n') = t := by
      simp [List.takeWhile_append_of_pos hrun]
    have hdrop : (t ++ ['\n'] ++ a).dropWhile (· != '\n') = '\n' :: a := by
      simp [List.dropWhile_append_of_pos hrun]
    rw [htake, hdrop, List.reverse_append]
    rfl
  · rw [List.append_nil, List.takeWhile_eq_self_iff.2 hrun, List.dropWhile_eq_nil_iff.2 hrun]
    rfl

/-- **A live line is matched as a whole**, with its line feed if it has one. -/
theorem end?_podLine (hpod : '\n' ∉ pod) (hb : EndsLine b) (h : LineBefore t line a)
    (hline : IsPodLine pod line) :
    (podLine pod).end? ⟨b, line ++ a⟩ = some ⟨line.reverse ++ b, a⟩ := by
  obtain ⟨ht, h⟩ := h
  obtain ⟨w, hw, hpre⟩ := hline
  -- the name and what stands before it lie in front of the line feed
  obtain ⟨u, rfl⟩ : w <+: t := by
    rcases h with rfl | ⟨rfl, -⟩
    · exact (Text.prefix_append_stop (hw.no_feed hpod)).1 hpre
    · exact hpre
  obtain ⟨rest, hrest, hshort⟩ : ∃ rest, line = w ++ rest ∧
      (rest = u ++ ['\n'] ∨ rest = u ∧ a = []) := by
    rcases h with rfl | ⟨rfl, ha⟩
    · exact ⟨u ++ ['\n'], List.append_assoc _ _ _, .inl rfl⟩
    · exact ⟨u, rfl, .inr ⟨rfl, ha⟩⟩
  subst hrest
  have hhead : (⟨w.reverse ++ b, rest ++ a⟩ : Cursor) ∈ podHead pod ⟨b, w ++ (rest ++ a)⟩ :=
    mem_podHead.2 ⟨hb, w, hw, rfl, rfl⟩
  have hu : '\n' ∉ u := fun h => ht (List.mem_append_right _ h)
  have hrest := end?_restOfPodLine (b := w.reverse ++ b) ⟨hu, hshort⟩
  rw [podLine_eq, List.append_assoc, end?_append unambiguous_podHead hhead, hrest]
  simp

/-- A match of a pod line moves on. -/
theorem podLine_moves (h : (podLine pod).end? c = some d) : d.after.length < c.after.length := by
  obtain ⟨m, hm, hd⟩ := mem_append.1 (podLine_eq pod ▸ end?_mem h)
  obtain ⟨-, w, ⟨indent, gap, q, q', rfl, -⟩, hc, -⟩ := mem_podHead.1 hm
  have hle : d.after.length ≤ m.after.length := by
    obtain ⟨n, hn, hd⟩ := mem_append.1 hd
    obtain ⟨u, rest, hm, -, rfl⟩ := mem_few.1 (mem_many.1 hn)
    rw [hm, List.length_append]
    rcases mem_orElse.1 hd with hd | hd
    · obtain ⟨rest', hr, rfl⟩ := mem_literal.1 hd
      have hr : rest = '\n' :: rest' := hr
      simp only [hr, Cursor.advance, List.length_cons]
      omega
    · obtain ⟨-, rfl⟩ := mem_guard.1 hd
      simp only [Cursor.advance]
      omega
  have hlen := congrArg List.length hc
  simp only [List.length_append, List.length_cons] at hlen
  omega

/-! ## The lines that are left -/

/-- What a search passes over is left, if its matches move on. -/
theorem outside_skip (hmoves : ∀ s d, p.end? s = some d → d.after.length < s.after.length)
    (h : p.find? ⟨b, w ++ a⟩ = p.find? ⟨w.reverse ++ b, a⟩) :
    outside ⟨b, w ++ a⟩ (p.findAll ⟨b, w ++ a⟩) =
      w ++ outside ⟨w.reverse ++ b, a⟩ (p.findAll ⟨w.reverse ++ b, a⟩) := by
  cases hfind : p.find? ⟨w.reverse ++ b, a⟩ with
  | none =>
    rw [findAll_of_find?_none (h.trans hfind), findAll_of_find?_none hfind]
    rfl
  | some found =>
    obtain ⟨s, d⟩ := found
    obtain ⟨x, hfound⟩ := find?_eq_some hfind
    have hafter : a = x ++ s.after := hfound.after
    have hlt : d.after.length < a.length := by
      have := hmoves s d hfound.ends
      rw [hafter, List.length_append]
      omega
    have hlt' : d.after.length < (w ++ a).length := by
      rw [List.length_append]
      omega
    have hupTo : ∀ e u : Text, Cursor.upTo ⟨e, u ++ s.after⟩ s = u := fun e u => by
      rw [Cursor.upTo, List.length_append, Nat.add_sub_cancel, List.take_left]
    rw [findAll_of_find? (h.trans hfind) hlt', findAll_of_find? hfind hlt, outside, outside,
      ← List.append_assoc]
    congr 1
    rw [hafter, ← List.append_assoc, hupTo, hupTo]

/-- **What is left of a line**, and what is left behind it. -/
theorem outside_line (hpod : '\n' ∉ pod) (hb : EndsLine b) (h : LineBefore t line a) :
    outside ⟨b, line ++ a⟩ ((podLine pod).findAll ⟨b, line ++ a⟩) =
      (if IsPodLine pod line then [] else line) ++
        outside ⟨line.reverse ++ b, a⟩ ((podLine pod).findAll ⟨line.reverse ++ b, a⟩) := by
  split
  · rename_i hline
    have hend := end?_podLine hpod hb h hline
    rw [findAll_of_find? (find?_of_end? hend) (podLine_moves hend), outside]
    simp [Cursor.upTo]
  · rename_i hline
    obtain ⟨ht, h⟩ := h
    refine outside_skip (fun _ _ => podLine_moves) (find?_skip fun x z hxz hz => ?_)
    rw [← Bool.not_eq_true, podLine_matchesAt]
    rintro ⟨hstart, hmatch⟩
    -- only the start of the line is at the start of a line
    rcases List.eq_nil_or_concat' x with rfl | ⟨x, c, rfl⟩
    · obtain rfl : line = z := hxz
      refine hline ((isPodLine_line hpod ?_).1 hmatch)
      rcases h with rfl | ⟨-, rfl⟩
      · exact .inr ⟨t, rfl⟩
      · exact .inl rfl
    · have hc : c = '\n' := by simpa [EndsLine] using hstart
      subst hc
      have hin : '\n' ∈ t := by
        rcases h with rfl | ⟨rfl, -⟩
        · obtain ⟨z, e, rfl⟩ := (List.eq_nil_or_concat' z).resolve_left hz
          rw [← List.append_assoc] at hxz
          rw [(List.append_inj' hxz rfl).1]
          simp
        · rw [hxz]
          simp
      exact ht hin

/-- What is left behind the start of a line. -/
theorem outside_podLines (hpod : '\n' ∉ pod) (hb : EndsLine b) :
    outside ⟨b, a⟩ ((podLine pod).findAll ⟨b, a⟩) =
      (a.lines.filter fun line => ¬ IsPodLine pod line).flatten := by
  have hline : ∀ {line : Text} {ls : List Text}, (if IsPodLine pod line then [] else line) ++
      (ls.filter fun line => ¬ IsPodLine pod line).flatten =
        ((line :: ls).filter fun line => ¬ IsPodLine pod line).flatten := by
    intro line ls
    by_cases h : IsPodLine pod line <;> simp [h]
  have hnil : ∀ b : Text, outside ⟨b, []⟩ ((podLine pod).findAll ⟨b, []⟩) = [] := by
    intro b
    have hno : (podLine pod).matchesAt ⟨b, []⟩ = false := by
      rw [← Bool.not_eq_true, podLine_matchesAt]
      exact fun h => h.2.ne_nil rfl
    rw [findAll_of_find?_none (find?_nil hno)]
    rfl
  induction a using Text.line_induction generalizing b with
  | nil => exact hnil b
  | last t hne ht =>
    have h := outside_line (a := []) hpod hb ⟨ht, .inr ⟨rfl, rfl⟩⟩
    rw [hnil, List.append_nil, List.append_nil] at h
    rw [h, Text.lines_last ht hne, ← hline]
    simp
  | line t y ht ih =>
    have h := outside_line (a := y) hpod hb ⟨ht, .inl rfl⟩
    rw [ih (by simp [EndsLine]), hline, ← Text.lines_line ht] at h
    simpa using h

/-- **A file without a pod** is made of the lines that are not live for the pod. -/
theorem withoutPod_eq (hpod : '\n' ∉ pod) (content : Text) :
    withoutPod content pod = (content.lines.filter fun line => ¬ IsPodLine pod line).flatten :=
  outside_podLines hpod rfl

theorem lines_withoutPod (hpod : '\n' ∉ pod) (content : Text) :
    (withoutPod content pod).lines = content.lines.filter fun line => ¬ IsPodLine pod line := by
  rw [withoutPod_eq hpod, Text.lines_flatten_of_sublist List.filter_sublist]

/-- The lines of a file without several pods. -/
theorem lines_withoutPods (hpods : ∀ pod ∈ pods, '\n' ∉ pod) (content : Text) :
    (withoutPods content pods).lines =
      content.lines.filter fun line => ∀ pod ∈ pods, ¬ IsPodLine pod line := by
  induction pods generalizing content with
  | nil => simp [withoutPods]
  | cons pod pods ih =>
    have hrest := ih (fun q hq => hpods q (List.mem_cons_of_mem _ hq)) (withoutPod content pod)
    rw [withoutPods, List.foldl_cons]
    rw [withoutPods] at hrest
    rw [hrest, lines_withoutPod (hpods pod List.mem_cons_self), List.filter_filter]
    simp [Bool.and_comm]

/-- A file without lines for a pod stays as it is. -/
theorem withoutPod_of_absent (hpod : '\n' ∉ pod) (h : ∀ line ∈ content.lines, ¬ IsPodLine pod line) :
    withoutPod content pod = content := by
  have hall : ∀ line ∈ content.lines, decide (¬ IsPodLine pod line) = true := fun line hline =>
    decide_eq_true (h line hline)
  rw [withoutPod_eq hpod, List.filter_eq_self.2 hall, Text.flatten_lines]

/-- Files with the same lines are the same. -/
theorem eq_of_lines_eq {x y : Text} (h : x.lines = y.lines) : x = y := by
  rw [← Text.flatten_lines x, h, Text.flatten_lines]

/-- **Pods are taken out line by line.** Of a file without a pod just the lines are left that are not
live for it. So a second removal changes nothing, two pods can be taken out in either order, and
without the pods of the SDK, taken out in any order, just the other lines are left. -/
theorem withoutPod_linewise (content : Text) (hpod : '\n' ∉ pod) :
    withoutPod content pod = (content.lines.filter fun line => ¬ IsPodLine pod line).flatten ∧
      withoutPod (withoutPod content pod) pod = withoutPod content pod ∧
      (∀ other, '\n' ∉ other →
        withoutPod (withoutPod content pod) other = withoutPod (withoutPod content other) pod) ∧
      ∀ pods : List Text, pods.Perm Service.allPods → (withoutPods content pods).lines =
        content.lines.filter fun line => ∀ pod ∈ Service.allPods, ¬ IsPodLine pod line := by
  refine ⟨withoutPod_eq hpod content, ?_, fun other hother => ?_, fun pods hpods => ?_⟩
  · apply eq_of_lines_eq
    rw [lines_withoutPod hpod, lines_withoutPod hpod, List.filter_filter]
    simp
  · apply eq_of_lines_eq
    rw [lines_withoutPod hother, lines_withoutPod hpod, lines_withoutPod hpod,
      lines_withoutPod hother, List.filter_filter, List.filter_filter]
    simp only [Bool.and_comm]
  · have hall : ∀ pod ∈ Service.allPods, '\n' ∉ pod := by decide
    rw [lines_withoutPods fun pod hmem => hall pod (hpods.mem_iff.1 hmem)]
    simp only [hpods.mem_iff]

/-- A pod in quotes of both kinds, with options, in a comment and as the beginning of a name. -/
def listedTwice : Text :=
  "target 'App' do\n  pod 'A', '~> 1'\n# pod 'A'\n\tpod \"A\"\r\n  pod 'AB'\nend\npod 'A'".toList

theorem withoutPod_linewise_listedTwice :
    '\n' ∉ "A".toList ∧ '\n' ∉ "AB".toList ∧
      Service.allPods.reverse.Perm Service.allPods ∧
      withoutPod listedTwice "A".toList =
        "target 'App' do\n# pod 'A'\n  pod 'AB'\nend\n".toList ∧
      withoutPod (withoutPod listedTwice "A".toList) "A".toList =
        withoutPod listedTwice "A".toList ∧
      withoutPod (withoutPod listedTwice "A".toList) "AB".toList =
        withoutPod (withoutPod listedTwice "AB".toList) "A".toList ∧
      (withoutPods listedTwice Service.allPods.reverse).lines = listedTwice.lines := by
  have hpod : '\n' ∉ "A".toList := by decide
  obtain ⟨hleft, hagain, hother, hall⟩ := withoutPod_linewise listedTwice hpod
  refine ⟨hpod, by decide, List.reverse_perm _, ?_, hagain, hother _ (by decide), ?_⟩
  · rw [hleft]
    decide +kernel
  · rw [hall _ (List.reverse_perm _)]
    decide +kernel

end SdkWiring.Podfile
