import SdkWiring.Proofs.Delegate.TopCall

/-!
# Delegates that are given back

A second installation cuts start calls out of a wired delegate and writes its line at the top of the
method. Where that gives the delegate back, nothing was cut out in front of the line, and all that was
cut out behind it is one part of the length of the line.

* `Recipe.GivenBack`: the edits that are applied, where they give the delegate back.
* `Recipe.exists_givenBack`: every splice that gives the delegate back is of this kind.
* `Recipe.GivenBack.before`, `Recipe.GivenBack.behind`: what is cut out in front of the line, and
  behind it.
-/

namespace SdkWiring

variable {r : Recipe} {i : Integration} {content line kept tail x y : Text} {m : Nat}
  {xs ys ps : List Piece} {p : Piece} {eol : LineBreak}

namespace Recipe

/-- Pieces that cut start calls out of a text. -/
def Cuts (r : Recipe) (ps : List Piece) (tail : Text) : Prop :=
  ∀ xs p ys, ps = xs ++ p :: ys → p.inserted = [] ∧ r.CallPart p.removed (Piece.old ys tail)

namespace Cuts

theorem of_mem (h : r.Cuts ps tail) (hp : p ∈ ps) : p.inserted = [] ∧ r.closer ∈ p.removed := by
  obtain ⟨xs, ys, rfl⟩ := List.append_of_mem hp
  obtain ⟨hins, hpart⟩ := h xs p ys rfl
  exact ⟨hins, hpart.closer_mem⟩

theorem inserted (h : r.Cuts ps tail) : ∀ p ∈ ps, p.inserted = [] := fun _ hp => (h.of_mem hp).1

/-- Nothing is cut out if what is lost has no end of a call in it. -/
theorem eq_nil (h : r.Cuts ps tail) (hy : r.closer ∉ y)
    (hold : Piece.old ps x = Piece.new ps x ++ y) : ps = [] :=
  Piece.eq_nil_of_count h.inserted (fun _ hp => (h.of_mem hp).2) hy hold

theorem closeLines (hl : r.language = .swift) (h : r.Cuts ps (x ++ y)) : Piece.CloseLines ps x := by
  intro xs p ys hps
  obtain ⟨hins, hpart⟩ := h xs p ys hps
  have hcloses := hpart.swift hl
  refine ⟨hins, hcloses.last, hcloses.onLine, fun hmem => hcloses.clear ?_⟩
  rw [Piece.old_tail]
  exact Piece.mem_takeWhile_append hmem

/-- **Nothing is cut out in front of a brace** if the start of a line makes up for it. -/
theorem eq_nil_of_line (w : r.Writes i) (h : r.Cuts ps (kept ++ tail))
    (hline : line <+: r.callLine eol) (hlast : (Piece.old ps kept).getLast? = some '{')
    (hold : Piece.old ps kept = Piece.new ps kept ++ line) : ps = [] := by
  rcases List.eq_nil_or_concat' line with rfl | ⟨z, d, hz⟩
  · exact h.eq_nil (by simp) hold
  obtain rfl : d = '{' := by
    rw [hold, hz, ← List.append_assoc, List.getLast?_concat] at hlast
    exact Option.some.inj hlast
  cases hl : r.language with
  | objectiveC =>
    obtain ⟨u, d, hu, -, hend⟩ := w.callLine_last eol
    obtain ⟨rfl, hclear⟩ := hend hl
    refine h.eq_nil (fun hmem => hclear ?_) hold
    have hcloser : r.closer = ';' := by rw [closer, hl]
    rw [hu, List.prefix_concat_iff] at hline
    rcases hline with hline | hline
    · rw [hz] at hline
      exact absurd (List.append_inj' hline rfl).2 (by decide)
    · exact hline.subset (hcloser ▸ hmem)
  | swift =>
    obtain ⟨rest, hrest⟩ := hline
    rw [callLine, List.append_assoc] at hrest
    rcases List.append_eq_append_iff.1 hrest with ⟨v, hv, -⟩ | ⟨t, ht, hcall⟩
    · -- the line breaks before there is a brace in it
      have hbrace : '{' ∈ eol.text := by
        rw [hv, hz]
        simp
      cases eol <;> exact absurd hbrace (by decide)
    · have hclear : '\n' ∉ t := fun hmem => w.no_break.1 (hcall ▸ List.mem_append_left _ hmem)
      have hend : (t ++ []).getLast? = some '{' := by
        have hlast : (eol.text ++ t).getLast? = some '{' := by rw [← ht, hz, List.getLast?_concat]
        rw [List.append_nil]
        rw [List.getLast?_append] at hlast
        cases ht' : t.getLast? with
        | none =>
          rw [ht'] at hlast
          cases eol <;> exact absurd hlast (by decide)
        | some d =>
          rw [ht'] at hlast
          exact hlast
      have hshift : Piece.old ps kept = Piece.new ps kept ++ ([] ++ (eol.text ++ t)) := by
        rw [hold, ht, List.nil_append]
      exact absurd hshift (Piece.not_shifted (h.closeLines hl) (by simp) (by simp) hclear hend)

end Cuts

/-- **The edits of a second installation that are applied**, where they give the delegate back. -/
structure GivenBack (r : Recipe) (content line : Text) (m : Nat) (xs : List Piece) (kept : Text)
    (ys : List Piece) (tail : Text) : Prop where
  edits : Splice.accepted content.size 0
      (((r.analyze content).callEdits ++ [Edit.insert m line]).mergeSort Edit.before) =
    Piece.edits 0 (xs ++ ⟨kept, [], line⟩ :: ys)
  body : (Piece.old xs kept).size = m
  text : content = Piece.old xs kept ++ Piece.old ys tail
  back : content = Piece.new xs kept ++ (line ++ Piece.new ys tail)
  cutsBefore : r.Cuts xs (kept ++ Piece.old ys tail)
  cutsBehind : r.Cuts ys tail

/-- A piece whose edit cuts out a start call. -/
theorem cut_of_mem (hr : Text.isIdentifier r.receiver = true)
    (hs : Text.isIdentifier r.selector = true) (hcontent : content = Piece.old (xs ++ p :: ys) tail)
    (he : ⟨(Piece.old xs p.kept).size, (Piece.old xs p.kept).size + p.removed.size, p.inserted⟩ ∈
      (r.analyze content).callEdits) :
    p.inserted = [] ∧ r.CallPart p.removed (Piece.old ys tail) := by
  obtain ⟨call, hcall, he⟩ := List.mem_map.1 he
  obtain ⟨pre, part, behind, htext, rfl, hpart⟩ := part_of_mem hr hs hcall
  simp only [Edit.delete, Edit.mk.injEq] at he
  obtain ⟨hstart, hstop, hins⟩ := he
  rw [Piece.old_split] at hcontent
  obtain ⟨-, hrest⟩ := Text.append_inj_of_size (htext.symm.trans hcontent) hstart
  obtain ⟨hremoved, hbehind⟩ := Text.append_inj_of_size hrest (by omega)
  exact ⟨hins.symm, hremoved ▸ hbehind ▸ hpart⟩

/-- The edits of a second installation run forwards. -/
theorem start_le_stop_of_mem (hr : Text.isIdentifier r.receiver = true)
    (hs : Text.isIdentifier r.selector = true) {e : Edit}
    (he : e ∈ (r.analyze content).callEdits ++ [Edit.insert m line]) : e.start ≤ e.stop := by
  rcases List.mem_append.1 he with he | he
  · obtain ⟨call, hcall, rfl⟩ := List.mem_map.1 he
    obtain ⟨pre, part, behind, -, rfl, -⟩ := part_of_mem hr hs hcall
    exact Nat.le_add_right _ _
  · rw [List.mem_singleton.1 he]
    exact le_rfl

/-- The line is written once at most. -/
theorem count_insert_le (r : Recipe) (content : Text) (m : Nat) (hline : line ≠ []) :
    (Splice.accepted content.size 0
      (((r.analyze content).callEdits ++ [Edit.insert m line]).mergeSort Edit.before)).count
        (Edit.insert m line) ≤ 1 := by
  have hnot : Edit.insert m line ∉ (r.analyze content).callEdits := fun hin => by
    obtain ⟨call, -, he⟩ := List.mem_map.1 hin
    exact hline (congrArg Edit.replacement he).symm
  refine (Splice.sublist_accepted.count_le _).trans ?_
  rw [(List.mergeSort_perm _ _).count_eq, List.count_append, List.count_eq_zero.2 hnot]
  simp

/-- An edit that is applied cuts out a call, but for the one that writes the line. -/
theorem cut_of_accepted (hr : Text.isIdentifier r.receiver = true)
    (hs : Text.isIdentifier r.selector = true) (hcontent : content = Piece.old ps tail)
    (hedits : Splice.accepted content.size 0
      (((r.analyze content).callEdits ++ [Edit.insert m line]).mergeSort Edit.before) =
        Piece.edits 0 ps) (xs : List Piece) (p : Piece) (ys : List Piece) (hps : ps = xs ++ p :: ys)
    (hne : (⟨(Piece.old xs p.kept).size, (Piece.old xs p.kept).size + p.removed.size, p.inserted⟩ :
      Edit) ≠ Edit.insert m line) :
    p.inserted = [] ∧ r.CallPart p.removed (Piece.old ys tail) := by
  subst hps
  have hmem := mem_of_mem_sorted (hedits ▸ Piece.mem_edits_split 0 xs p ys)
  rw [Nat.zero_add] at hmem
  rcases List.mem_append.1 hmem with he | he
  · exact cut_of_mem hr hs hcontent he
  · exact absurd (List.mem_singleton.1 he) hne

/-- **Every splice that gives a delegate back** is of this kind. -/
theorem exists_givenBack (hr : Text.isIdentifier r.receiver = true)
    (hs : Text.isIdentifier r.selector = true) (hline : line ≠ []) (hm : m ≤ content.size)
    (h : splice content ((r.analyze content).callEdits ++ [Edit.insert m line]) = some content) :
    ∃ xs kept ys tail, r.GivenBack content line m xs kept ys tail := by
  obtain ⟨ps, tail, hedits, hold, hnew⟩ := splice_eq_some (fun _ he => start_le_stop_of_mem hr hs he) h
  have hcut := cut_of_accepted hr hs hold hedits
  -- were the line not written, calls would be cut out and the text could not be the same
  have hins : Edit.insert m line ∈ Piece.edits 0 ps := by
    by_contra hno
    have hcuts : r.Cuts ps tail := fun xs p ys hps => hcut xs p ys hps fun he => hno <| by
      have := Piece.mem_edits_split 0 xs p ys
      rwa [Nat.zero_add, he, ← hps] at this
    obtain rfl := hcuts.eq_nil (y := []) (by simp) (by rw [List.append_nil, ← hold, ← hnew])
    have hin : Edit.insert m line ∈ (r.analyze content).callEdits ++ [Edit.insert m line] := by simp
    rcases sorted_or hin hm with h | ⟨a, ha, -⟩
    · exact hno (hedits ▸ h)
    · rw [hedits] at ha
      simp at ha
  obtain ⟨xs, ⟨kept, removed, inserted⟩, ys, rfl, hp⟩ := Piece.mem_edits hins
  simp only [Edit.insert, Edit.mk.injEq, Nat.zero_add] at hp
  obtain ⟨hstart, hstop, rfl⟩ := hp
  obtain rfl := Text.eq_nil_of_size (t := removed) (by omega)
  have hsize : (Piece.old xs kept).size = m := by
    rw [hstart, ← Piece.size_old]
  -- it is written once, so the edits around it cut out calls
  have hother : Edit.insert m line ∉ Piece.edits 0 xs ∧ Edit.insert m line ∉ Piece.edits m ys := by
    have hcount := count_insert_le r content m hline
    rw [hedits, Piece.edits_split, List.count_append, hsize, Text.size_nil, Nat.add_zero, Nat.zero_add,
      show (⟨m, m, line⟩ : Edit) = Edit.insert m line from rfl, List.count_cons_self] at hcount
    exact ⟨List.count_eq_zero.1 (by omega), List.count_eq_zero.1 (by omega)⟩
  refine ⟨xs, kept, ys, tail, hedits, hsize, ?_, ?_, fun zs q rest hxs => ?_, fun zs q rest hys => ?_⟩
  · rw [hold, Piece.old_split, List.nil_append]
  · rw [hnew, Piece.new_split]
  · have hq := hcut zs q (rest ++ ⟨kept, [], line⟩ :: ys) (by simp [hxs]) fun he => hother.1 <| by
      have := Piece.mem_edits_split 0 zs q rest
      rwa [Nat.zero_add, he, ← hxs] at this
    rwa [Piece.old_split, List.nil_append, ← Piece.old_tail] at hq
  · refine hcut (xs ++ ⟨kept, [], line⟩ :: zs) q rest (by simp [hys]) fun he => hother.2 ?_
    have hback : (Piece.old (xs ++ ⟨kept, [], line⟩ :: zs) q.kept).size =
        m + (Piece.old zs q.kept).size := by
      rw [Piece.old_split, List.nil_append, Text.size_append, hsize]
    have := Piece.mem_edits_split m zs q rest
    rwa [← hback, he, ← hys] at this

namespace GivenBack

/-- **Nothing is cut out in front of the line** where it is written behind a brace, and what stands
behind it loses as much as is written. -/
theorem before (w : r.Writes i) (h : r.GivenBack content (r.callLine eol) m xs kept ys tail)
    (hlast : (Piece.old xs kept).getLast? = some '{') :
    xs = [] ∧ Piece.old ys tail = r.callLine eol ++ Piece.new ys tail := by
  have hlen : (Piece.new xs kept).length ≤ (Piece.old xs kept).length ∧
      (Piece.new ys tail).length ≤ (Piece.old ys tail).length :=
    ⟨(Piece.sublist_new h.cutsBefore.inserted).length_le,
      (Piece.sublist_new h.cutsBehind.inserted).length_le⟩
  -- the line is split where the brace stands
  obtain ⟨line, hbefore, hline⟩ : ∃ line, Piece.old xs kept = Piece.new xs kept ++ line ∧
      line ++ Piece.old ys tail = r.callLine eol ++ Piece.new ys tail := by
    rcases List.append_eq_append_iff.1 (h.text.symm.trans h.back) with ⟨z, hz, hrest⟩ | ⟨z, hz, hrest⟩
    · have := congrArg List.length hz
      rw [List.length_append] at this
      obtain rfl : z = [] := List.length_eq_zero_iff.1 (by omega)
      exact ⟨[], by simpa using hz.symm, by simpa using hrest⟩
    · exact ⟨z, hz, hrest.symm⟩
  have hstart : line <+: r.callLine eol := by
    refine List.prefix_of_prefix_length_le ⟨_, hline⟩ (List.prefix_append _ _) ?_
    have := congrArg List.length hline
    simp only [List.length_append] at this
    omega
  obtain rfl := h.cutsBefore.eq_nil_of_line w hstart hlast hbefore
  obtain rfl : line = [] := by simpa using hbefore
  exact ⟨rfl, hline⟩

/-- **What is cut out behind the line** is the line as it was, where a call is cut out that reaches at
least as far. -/
theorem behind (h : r.GivenBack content line m xs kept ys tail)
    (hold : Piece.old ys tail = line ++ Piece.new ys tail) {stop : Nat} (hstop : m + line.size ≤ stop)
    (hmem : Edit.delete m stop ∈ Piece.edits m ys) : ys = [⟨[], line, []⟩] := by
  obtain ⟨zs, q, rest, rfl, he⟩ := Piece.mem_edits hmem
  obtain ⟨kept', removed, inserted⟩ := q
  simp only [Edit.delete, Edit.mk.injEq] at he
  obtain ⟨hstart, hend, rfl⟩ := he
  obtain rfl := Text.eq_nil_of_size (t := kept') (by omega)
  obtain rfl : zs = [] := by
    have hnil := Text.eq_nil_of_size (t := Piece.old zs []) (by omega)
    cases zs with
    | nil => rfl
    | cons z zs =>
      simp only [Piece.old_cons, List.append_eq_nil_iff] at hnil
      exact absurd hnil.2.1 (h.cutsBehind [] z _ rfl).2.ne_nil
  have hrest : r.Cuts rest tail := fun zs q rest' hr =>
    h.cutsBehind (⟨[], removed, []⟩ :: zs) q rest' (by simp [hr])
  simp only [List.nil_append, Piece.old_cons, Piece.new_cons, Piece.old_nil, Text.size_nil,
    Nat.add_zero] at hold hend
  -- the part takes the line along and maybe more, but what loses parts only does not grow
  obtain ⟨z, rfl, hnew⟩ : ∃ z, removed = line ++ z ∧ Piece.new rest tail = z ++ Piece.old rest tail := by
    rcases List.append_eq_append_iff.1 hold with ⟨z, hz, hz'⟩ | ⟨z, hz, hz'⟩
    · have hsize := congrArg Text.size hz
      rw [Text.size_append] at hsize
      obtain rfl := Text.eq_nil_of_size (t := z) (by omega)
      exact ⟨[], by simpa using hz.symm, by simpa using hz'.symm⟩
    · exact ⟨z, hz, hz'⟩
  have hlen := congrArg List.length hnew
  have hle : (Piece.new rest tail).length ≤ (Piece.old rest tail).length :=
    (Piece.sublist_new hrest.inserted).length_le
  rw [List.length_append] at hlen
  obtain rfl : z = [] := List.length_eq_zero_iff.1 (by omega)
  obtain rfl := hrest.eq_nil (y := []) (by simp) (by simpa using hnew.symm)
  simp

/-- Where nothing is cut out in front of the line, it is the first edit. -/
theorem accepted_eq (h : r.GivenBack content line m [] kept ys tail) :
    Splice.accepted content.size 0
        (((r.analyze content).callEdits ++ [Edit.insert m line]).mergeSort Edit.before) =
      Edit.insert m line :: Piece.edits m ys := by
  have hbody : kept.size = m := h.body
  rw [h.edits, List.nil_append, Piece.edits_cons]
  simp only [hbody, Text.size_nil, Nat.zero_add, Nat.add_zero]
  rfl

/-- A call is cut out behind the line, or it starts inside a part that is. -/
theorem call_or (hr : Text.isIdentifier r.receiver = true) (hs : Text.isIdentifier r.selector = true)
    (h : r.GivenBack content line m [] kept ys tail) (hline : line ≠ []) {call : Span}
    (hcall : call ∈ (r.analyze content).startCalls) :
    Edit.delete call.start call.stop ∈ Piece.edits m ys ∨
      ∃ e ∈ Piece.edits m ys, e.start ≤ call.start ∧ call.start < e.stop := by
  have hsize : call.stop ≤ content.size := (span_of_mem hr hs hcall).2.1.le_size
  have hmem : Edit.delete call.start call.stop ∈
      (r.analyze content).callEdits ++ [Edit.insert m line] :=
    List.mem_append_left _ (List.mem_map_of_mem hcall)
  rcases sorted_or hmem hsize with hin | ⟨e, he, hbefore, hstop⟩
  · rw [h.accepted_eq, List.mem_cons] at hin
    rcases hin with hin | hin
    · exact absurd (congrArg Edit.replacement hin).symm hline
    · exact .inl hin
  · have hstart : e.start ≤ call.start := Splice.start_le_of_before hbefore
    rw [h.accepted_eq, List.mem_cons] at he
    rcases he with rfl | he
    · exact absurd hstart (Nat.not_le.2 hstop)
    · exact .inr ⟨e, he, hstart, hstop⟩

/-- What is cut out behind the line is a call that starts there. -/
theorem call_of_mem (h : r.GivenBack content line m [] kept ys tail) (hline : line ≠ []) {e : Edit}
    (he : e ∈ Piece.edits m ys) : m ≤ e.start ∧
      ∃ call ∈ (r.analyze content).startCalls, e = Edit.delete call.start call.stop := by
  have hmem : e ∈ (r.analyze content).callEdits ++ [Edit.insert m line] :=
    mem_of_mem_sorted (h.accepted_eq ▸ List.mem_cons_of_mem _ he)
  obtain ⟨zs, q, rest, rfl, rfl⟩ := Piece.mem_edits he
  refine ⟨by simp only; omega, ?_⟩
  rcases List.mem_append.1 hmem with hmem | hmem
  · obtain ⟨call, hcall, he⟩ := List.mem_map.1 hmem
    exact ⟨call, hcall, he.symm⟩
  · have hins := congrArg Edit.replacement (List.mem_singleton.1 hmem)
    exact absurd (hins.symm.trans (h.cutsBehind zs q rest rfl).1) hline

end GivenBack

end Recipe

end SdkWiring
