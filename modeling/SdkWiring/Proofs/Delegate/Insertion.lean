import SdkWiring.Proofs.Delegate.CallSpans

/-!
# Whether the start call is written

An installation reports that it has written the start call. The edit that writes it is left out,
though, where it falls into the span of a call that is taken away: a call in an earlier method that
runs on, over the end of that method, past the brace of the one that is preferred.

* `Recipe.Inserted`: the line of the call right behind the brace of the method.
* `Recipe.inserted_iff`: it is there just if no recorded span reaches over that brace.
* `Recipe.insertion_lost`: a delegate that is left without any call.
-/

namespace SdkWiring

variable {r : Recipe} {content kept tail : Text} {out : Outcome} {m : Nat} {call : Span} {e : Edit}
  {xs ys : List Piece}

namespace Recipe

/-- **The line of the call right behind the brace of the method**: it stands between what the other
edits leave of the text up to the brace, the brace included, and what they leave of the rest. -/
structure Inserted (r : Recipe) (content out : Text) (m : Nat) (xs : List Piece) (kept : Text)
    (ys : List Piece) (tail : Text) : Prop where
  edits : Splice.accepted content.size 0
      ((r.installEdits content (r.analyze content) m).mergeSort Edit.before) =
    Piece.edits 0 (xs ++ ⟨kept ++ ['{'], [], r.callLine (LineBreak.detect content)⟩ :: ys)
  text : content = Piece.old xs (kept ++ ['{']) ++ Piece.old ys tail
  body : (Piece.old xs (kept ++ ['{'])).size = m
  result : out = Piece.new xs (kept ++ ['{']) ++
    (r.callLine (LineBreak.detect content) ++ Piece.new ys tail)

/-- The edits of an installation: each takes a call away, or writes text in front of a character. -/
theorem mem_installEdits (he : e ∈ r.installEdits content (r.analyze content) m) :
    (∃ call ∈ (r.analyze content).startCalls, e = Edit.delete call.start call.stop) ∨
      e = Edit.insert m (r.callLine (LineBreak.detect content)) ∨
      e.start = (r.analyze content).importOffset ∧ e.stop = (r.analyze content).importOffset := by
  simp only [installEdits, List.mem_append, List.mem_singleton] at he
  rcases he with (he | he) | he
  · obtain ⟨call, hcall, rfl⟩ := List.mem_map.1 he
    exact .inl ⟨call, hcall, rfl⟩
  · exact .inr (.inl he)
  · split at he
    · simp at he
    · rw [List.mem_singleton.1 he]
      exact .inr (.inr ⟨rfl, rfl⟩)

/-- An edit that takes up anything takes a call away. -/
theorem call_of_lt (he : e ∈ r.installEdits content (r.analyze content) m) (hlt : e.start < e.stop) :
    ∃ call ∈ (r.analyze content).startCalls, e = Edit.delete call.start call.stop := by
  rcases mem_installEdits he with h | rfl | ⟨hstart, hstop⟩
  · exact h
  · exact absurd hlt (Nat.lt_irrefl m)
  · omega

theorem start_le_stop (hr : Text.isIdentifier r.receiver = true)
    (hs : Text.isIdentifier r.selector = true)
    (he : e ∈ r.installEdits content (r.analyze content) m) : e.start ≤ e.stop := by
  rcases mem_installEdits he with ⟨call, hcall, rfl⟩ | rfl | ⟨hstart, hstop⟩
  · exact (span_of_mem hr hs hcall).2.2.le
  · exact le_rfl
  · omega

theorem mem_delete (hcall : call ∈ (r.analyze content).startCalls) :
    Edit.delete call.start call.stop ∈ r.installEdits content (r.analyze content) m := by
  simp only [installEdits, List.mem_append, List.mem_singleton]
  exact .inl (.inl (List.mem_map_of_mem hcall))

theorem mem_insert : Edit.insert m (r.callLine (LineBreak.detect content)) ∈
    r.installEdits content (r.analyze content) m := by
  simp [installEdits]

namespace Inserted

/-- No edit that is applied reaches over the brace. -/
theorem apart (h : r.Inserted content out.content m xs kept ys tail)
    (he : e ∈ Splice.accepted content.size 0
      ((r.installEdits content (r.analyze content) m).mergeSort Edit.before))
    (hstart : e.start < m) : e.stop ≤ m := by
  have hbody := h.body
  rw [h.edits, Piece.edits_split, Nat.zero_add, hbody, List.mem_append, List.mem_cons] at he
  rcases he with he | rfl | he
  · -- it is one of those that change the text up to the brace
    obtain ⟨zs, p, rest, rfl, rfl⟩ := Piece.mem_edits he
    have hkept : (Piece.old zs p.kept).size = (Piece.old zs []).size + p.kept.size :=
      Piece.size_old p.kept
    rw [Piece.old_split] at hbody
    simp only [Text.size_append] at hbody ⊢
    omega
  · exact absurd hstart (Nat.lt_irrefl m)
  · obtain ⟨zs, p, rest, rfl, rfl⟩ := Piece.mem_edits he
    simp only [Text.size_nil] at hstart
    omega

/-- **No recorded span reaches over the brace** if the line is written there. A span that is left out
overlaps one that is not, and then ends with it. -/
theorem stop_le (hr : Text.isIdentifier r.receiver = true) (hs : Text.isIdentifier r.selector = true)
    (h : r.Inserted content out.content m xs kept ys tail)
    (hcall : call ∈ (r.analyze content).startCalls) (hstart : call.start < m) : call.stop ≤ m := by
  have hsize : call.stop ≤ content.size := (span_of_mem hr hs hcall).2.1.le_size
  rcases sorted_or (mem_delete hcall) hsize with he | ⟨a, ha, hbefore, hlt⟩
  · exact h.apart he hstart
  · have hle : a.start ≤ call.start := Splice.start_le_of_before hbefore
    have hlt : call.start < a.stop := hlt
    obtain ⟨c, hc, rfl⟩ := call_of_lt (mem_of_mem_sorted ha) (by omega)
    have hstop : c.stop ≤ m := h.apart ha (lt_of_le_of_lt hle hstart)
    rw [← stop_eq_of_overlap hr hs hc hcall hle hlt]
    exact hstop

end Inserted

/-- An edit up to the brace of the method ends in front of the brace, but for the line of the call. -/
theorem ne_body_of_mem (hr : Text.isIdentifier r.receiver = true)
    (hs : Text.isIdentifier r.selector = true) (hm : (r.analyze content).methodBody = some m)
    (he : e ∈ r.installEdits content (r.analyze content) m)
    (hne : e ≠ Edit.insert m (r.callLine (LineBreak.detect content))) : e.stop ≠ m := by
  rcases mem_installEdits he with ⟨call, hcall, rfl⟩ | rfl | ⟨-, hstop⟩
  · -- in front of its end stands another character than a brace
    intro heq
    have hcloser := closer_of_mem hr hs hcall
    rw [show call.stop = m from heq] at hcloser
    have hbrace : r.closer ≠ '{' := by
      unfold closer
      cases r.language <;> decide
    exact hbrace (hcloser.unique (methodBody_brace hm))
  · exact absurd rfl hne
  · have hlt := importOffset_lt hm
    omega

/-- **The line is written behind the brace** where its edit is applied. -/
theorem exists_inserted (hr : Text.isIdentifier r.receiver = true)
    (hs : Text.isIdentifier r.selector = true) (hm : (r.analyze content).methodBody = some m)
    (h : r.install content = .ok out)
    (hin : Edit.insert m (r.callLine (LineBreak.detect content)) ∈ Splice.accepted content.size 0
      ((r.installEdits content (r.analyze content) m).mergeSort Edit.before)) :
    ∃ xs kept ys tail, r.Inserted content out.content m xs kept ys tail := by
  set line := r.callLine (LineBreak.detect content) with hline
  obtain ⟨ps, tail, hedits, hold, hnew⟩ := splice_eq_some (fun e he => start_le_stop hr hs he)
    (splice_of_install hm h).1
  have hmem : ∀ e ∈ Piece.edits 0 ps, e ∈ r.installEdits content (r.analyze content) m :=
    fun e he => mem_of_mem_sorted (hedits ▸ he)
  obtain ⟨xs, p, ys, rfl, hp, hfirst⟩ := Piece.exists_first_edit (hedits ▸ hin)
  obtain ⟨kept, removed, inserted⟩ := p
  simp only [Edit.insert, Edit.mk.injEq, Nat.zero_add] at hp
  obtain ⟨hstart, hstop, rfl⟩ := hp
  obtain rfl := Text.eq_nil_of_size (t := removed) (by omega)
  have hsize : (Piece.old xs kept).size = m := by rw [hstart, ← Piece.size_old]
  have htext : content = Piece.old xs kept ++ Piece.old ys tail := by
    rw [hold, Piece.old_split, List.nil_append]
  obtain ⟨front, a, hfront, hm'⟩ := methodBody_brace hm
  obtain ⟨hbrace, -⟩ := Text.append_inj_of_size (htext.symm.trans hfront) (hsize.trans hm')
  -- the brace is kept: no edit before this one ends behind it
  obtain ⟨kept, rfl⟩ : ∃ kept', kept = kept' ++ ['{'] := by
    rcases List.eq_nil_or_concat' kept with rfl | ⟨kept', d, rfl⟩
    · exfalso
      have hxs : xs ≠ [] := by
        rintro rfl
        simp at hbrace
      obtain ⟨e, he, hend⟩ : ∃ e ∈ Piece.edits 0 xs, e.stop = 0 + (Piece.old xs []).size :=
        Piece.exists_last_edit hxs
      rw [Nat.zero_add, hsize] at hend
      refine ne_body_of_mem hr hs hm (hmem e ?_) (fun heq => hfirst (heq ▸ he)) hend
      rw [Piece.edits_append]
      exact List.mem_append_left _ he
    · rw [Piece.old_tail] at hbrace
      exact ⟨kept', by rw [(List.append_inj' hbrace rfl).2]⟩
  exact ⟨xs, kept, ys, tail, hedits, htext, hsize, by rw [hnew, Piece.new_split]⟩

/-- **The reported insertion happened** just if no recorded span reaches over the brace of the
method. -/
theorem inserted_iff (hr : Text.isIdentifier r.receiver = true)
    (hs : Text.isIdentifier r.selector = true) (h : r.install content = .ok out) :
    ∃ m, (r.analyze content).methodBody = some m ∧ out.callInserted = true ∧
      ((∃ xs kept ys tail, r.Inserted content out.content m xs kept ys tail) ↔
        ∀ call ∈ (r.analyze content).startCalls, call.start < m → call.stop ≤ m) := by
  obtain ⟨m, hm⟩ := methodBody_of_install h
  refine ⟨m, hm, (splice_of_install hm h).2.2, ?_, fun hspans => ?_⟩
  · rintro ⟨xs, kept, ys, tail, hins⟩ call hcall hstart
    exact hins.stop_le hr hs hcall hstart
  · refine exists_inserted hr hs hm h ?_
    obtain ⟨front, a, htext, hsize⟩ := methodBody_brace hm
    have hle : m ≤ content.size := by
      rw [hsize, htext, Text.size_append (front ++ ['{'])]
      exact Nat.le_add_right _ _
    rcases sorted_or mem_insert hle with he | ⟨e, he, hbefore, hlt⟩
    · exact he
    · -- the edit in the way would take a call away that reaches over the brace
      have hlt : m < e.stop := hlt
      have hbefore : e.start < m := by
        rw [Edit.before_iff] at hbefore
        simp only [Edit.insert] at hbefore
        omega
      obtain ⟨c, hc, rfl⟩ := call_of_lt (mem_of_mem_sorted he) (by omega)
      exact absurd (hspans c hc hbefore) (Nat.not_le.2 hlt)

/-- A recipe for Swift that starts one service. -/
def crashes : Recipe := forIntegration .swift (.ofServices ['k'] [.crashes])

/-- A delegate with a call on a line of its own in an earlier method. -/
def earlierCall : Text :=
  "class AppDelegate \x7b\n func application() \x7b".toList ++ ("\n  MSMobileCenter.start(1)".toList
    ++ ("\n \x7d\n func application(didFinishLaunchingWithOptions: Int) \x7b".toList
      ++ "\n \x7d\n\x7d\n".toList))

/-- The span of that call ends in front of the preferred method, so the new call is written. -/
theorem inserted_iff_earlierCall : ∃ out m, crashes.install earlierCall = .ok out ∧
    (crashes.analyze earlierCall).methodBody = some m ∧ out.callInserted = true ∧
    ((∃ xs kept ys tail, crashes.Inserted earlierCall out.content m xs kept ys tail) ↔
      ∀ call ∈ (crashes.analyze earlierCall).startCalls, call.start < m → call.stop ≤ m) ∧
    ∀ call ∈ (crashes.analyze earlierCall).startCalls, call.start < m ∧ call.stop ≤ m := by
  have hfound : crashes.analyze earlierCall = ⟨none, true, some 126, [⟨41, 67⟩]⟩ := by
    decide +kernel
  obtain ⟨out, hout, -⟩ := install_of_pieces (m := 126) (r := crashes)
    (l := ⟨none, true, some 126, [⟨41, 67⟩]⟩)
    [⟨[], [], "import MobileCenter\nimport MobileCenterCrashes\n".toList⟩,
      ⟨"class AppDelegate \x7b\n func application() \x7b".toList,
        "\n  MSMobileCenter.start(1)".toList, []⟩,
      ⟨"\n \x7d\n func application(didFinishLaunchingWithOptions: Int) \x7b".toList, [],
        crashes.callLine .lf⟩]
    "\n \x7d\n\x7d\n".toList (show earlierCall = _ from rfl) hfound rfl
    (by decide +kernel) (by decide)
  obtain ⟨m, hm, hreport, hiff⟩ := inserted_iff (by decide) (by decide) hout
  obtain rfl : 126 = m := by
    rw [hfound] at hm
    exact Option.some.inj hm
  exact ⟨out, 126, hout, hm, hreport, hiff, by rw [hfound]; decide⟩

/-- A delegate on one line, with a call in an earlier method. -/
def overloads : Text :=
  "class AppDelegate \x7b func application() \x7b MSMobileCenter.start(1) \x7d ".toList
    ++ "func application(didFinishLaunchingWithOptions: Int) \x7b go() \x7d \x7d\n".toList

/-- **The call is lost.** The span of the call that is there reaches to the last parenthesis of the
line, over the brace of the preferred method. It is taken away, and the edit that writes the new call
is left out; still the installation reports that it has written one. -/
theorem insertion_lost : ∃ out, Text.isIdentifier crashes.receiver = true ∧
    Text.isIdentifier crashes.selector = true ∧ crashes.install overloads = .ok out ∧
    out.callInserted = true ∧ out.content.contains (crashes.callLine .lf) = false ∧
    out.content.contains crashes.receiver = false := by
  have hfound : crashes.analyze overloads = ⟨none, true, some 121, [⟨40, 126⟩]⟩ := by
    decide +kernel
  have hm : (crashes.analyze overloads).methodBody = some 121 := by rw [hfound]
  have hsort : (crashes.installEdits overloads ⟨none, true, some 121, [⟨40, 126⟩]⟩ 121).mergeSort
      Edit.before = [Edit.insert 0 "import MobileCenter\nimport MobileCenterCrashes\n".toList,
        Edit.delete 40 126, Edit.insert 121 (crashes.callLine .lf)] :=
    mergeSort_eq (by decide +kernel) (by simp [Edit.Precedes, Edit.insert, Edit.delete])
  have hsplice : splice overloads
      (crashes.installEdits overloads ⟨none, true, some 121, [⟨40, 126⟩]⟩ 121) =
        some ("import MobileCenter\nimport MobileCenterCrashes\n".toList
          ++ "class AppDelegate \x7b func application() \x7b \x7d \x7d\n".toList) := by
    rw [splice, hsort]
    decide +kernel
  have hout := install_eq (r := crashes) hm
  rw [hfound, hsplice] at hout
  exact ⟨_, by decide, by decide, hout, rfl, by decide +kernel, by decide⟩

end Recipe

end SdkWiring
