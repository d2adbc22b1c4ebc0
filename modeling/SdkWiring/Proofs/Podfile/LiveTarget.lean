import SdkWiring.Proofs.Podfile.Placement

/-!
# When the range of a target is live

The search for the block of a target takes an opening anywhere on a line, so one in a comment counts
as well. Whether the range that it finds begins at a live line is decided by the first line with an
opening. A pod still gets into the live block of its target if no block ends between that line and
the live one.

* `Podfile.HasBlock.isIndented_iff`: whether the range begins at a live line.
* `Podfile.HasBlock.stop_eq_iff`: whether it ends where the live block ends.
* `Podfile.live_range_iff`: both, read off the lines of the file.
-/

namespace SdkWiring

namespace Podfile

variable {target content pod x y : Text} {b live : Block}

/-- Only blanks stand in front of a place on its line. -/
def IsIndented (c : Cursor) : Prop := ∀ x ∈ c.before.takeWhile (· != '\n'), Text.isBlank x = true

/-- What stands in front of a place on its line. -/
theorem takeWhile_line {before : List Text} (h : ∀ l ∈ before, Text.Whole l) (hx : '\n' ∉ x) :
    (before.flatten ++ x).reverse.takeWhile (· != '\n') = x.reverse := by
  have hends := Text.endsLine_flatten h
  have hrev : ∀ c ∈ x.reverse, (c != '\n') = true := by
    intro c hc
    have hc : c ≠ '\n' := fun e => hx (e ▸ List.mem_reverse.1 hc)
    simpa using hc
  rw [List.reverse_append, List.takeWhile_append_of_pos hrev]
  cases hrest : before.flatten.reverse with
  | nil => simp
  | cons c rest =>
    rw [hrest] at hends
    have hc : c = '\n' := by simpa [EndsLine] using hends
    simp [hc]

/-- The first opening in a line stands behind blanks just if the line is a live one. -/
theorem isTargetLine_iff (hy : Opens target y)
    (hfirst : ∀ u v, x = u ++ v → v ≠ [] → ¬ Opens target (v ++ y)) :
    IsTargetLine target (x ++ y) ↔ ∀ c ∈ x, Text.isBlank c = true := by
  constructor
  · rintro ⟨indent, z, hxy, hblank, hz⟩
    rcases List.append_eq_append_iff.1 hxy with ⟨u, rfl, -⟩ | ⟨u, rfl, rfl⟩
    · exact fun c hc => hblank c (List.mem_append_left _ hc)
    · by_cases hu : u = []
      · simpa [hu] using hblank
      · exact absurd hz (hfirst indent u rfl hu)
  · exact fun hblank => ⟨x, y, rfl, hblank, hy⟩

/-- What stands behind a line of a kind stands behind the first one. -/
theorem mem_behind_first {P : Text → Prop} {a a' c c' : List Text} {l l' : Text}
    (h : a ++ l :: c = a' ++ l' :: c') (ha : ∀ m ∈ a, ¬ P m) (hl' : P l') : ∀ m ∈ c', m ∈ c := by
  intro m hm
  rcases List.append_eq_append_iff.1 h with ⟨u, -, hu⟩ | ⟨u, rfl, hu⟩ <;> cases u with
  | nil => simpa [(List.cons.inj hu).2] using hm
  | cons k u =>
    obtain ⟨rfl, htail⟩ := List.cons.inj hu
    first
      | exact htail ▸ List.mem_append_right _ (List.mem_cons_of_mem _ hm)
      | exact absurd hl' (ha _ (by simp))

/-- One block opens in front of another one, with some lines between the two openers. -/
structure Block.Precedes (b live : Block) (mid : List Text) : Prop where
  before : live.before = b.before ++ b.opener :: mid
  behind : b.inner ++ b.closer :: b.behind =
    mid ++ live.opener :: (live.inner ++ live.closer :: live.behind)

namespace HasBlock

/-- **The range begins at a live line** just if the first line with an opening is one. -/
theorem isIndented_iff (h : HasBlock content target b) (ht : '\n' ∉ target) {start stop : Cursor}
    (hrange : targetBlock? content target = some (start, stop)) :
    IsIndented start ↔ IsTargetLine target b.opener := by
  obtain ⟨x, y, hopener, hy, hfirst, hfound⟩ := targetBlock?_of_found ht h.lines h.found
  rw [hfound] at hrange
  obtain ⟨rfl, -⟩ := Prod.mk.inj (Option.some.inj hrange)
  obtain ⟨hbefore, ⟨z, hz, hwhole⟩, -⟩ := Block.whole h.lines
  have hx : '\n' ∉ x := by
    have hyne : y ≠ [] := by
      rintro rfl
      exact absurd hy.head? (by simp)
    obtain ⟨y', c, rfl⟩ := (List.eq_nil_or_concat' y).resolve_left hyne
    rw [hopener, ← List.append_assoc] at hwhole
    obtain ⟨rfl, -⟩ := List.append_inj' hwhole rfl
    exact fun hm => hz (List.mem_append_left _ hm)
  rw [hopener, isTargetLine_iff hy hfirst, IsIndented, takeWhile_line hbefore hx]
  simp

/-- The first line with an opening is the live one, or stands in front of it. -/
theorem before_cases (h : HasBlock content target b) (hlines : content.lines = live.lines)
    (hlive : live.Found (IsTargetLine target)) :
    b = live ∨ ∃ mid, b.Precedes live mid := by
  have heq : b.before ++ b.opener :: (b.inner ++ b.closer :: b.behind) =
      live.before ++ live.opener :: (live.inner ++ live.closer :: live.behind) :=
    h.lines.symm.trans hlines
  have hmentions := hlive.opener.mentions
  have hsame : b.before = live.before → b = live := fun hu =>
    h.found.unique ⟨hu ▸ h.found.before, hmentions, hlive.inner, hlive.closer⟩
      (h.lines.symm.trans hlines)
  rcases List.append_eq_append_iff.1 heq with ⟨u, hu, hrest⟩ | ⟨u, hu, hrest⟩
  · cases u with
    | nil => exact .inl (hsame (by rw [hu, List.append_nil]))
    | cons m u =>
      obtain ⟨rfl, htail⟩ := List.cons.inj hrest
      exact .inr ⟨u, ⟨hu, htail⟩⟩
  · cases u with
    | nil => exact .inl (hsame (by rw [hu, List.append_nil]))
    | cons m u =>
      obtain ⟨rfl, -⟩ := List.cons.inj hrest
      have hmem : live.opener ∈ b.before := by simp [hu]
      exact absurd hmentions (h.found.before _ hmem)

/-- **The range ends where the live block ends** just if no block ends between a line with an opening
and the live one. -/
theorem stop_eq_iff (h : HasBlock content target b) (hlines : content.lines = live.lines)
    (hlive : live.Found (IsTargetLine target)) :
    b.stop = live.stop ↔ ∀ before line mid, live.before = before ++ line :: mid →
      Mentions target line → ∀ l ∈ mid, ¬ IsEnd l := by
  rcases h.before_cases hlines hlive with rfl | ⟨mid, hbefore, hbehind⟩
  · refine iff_of_true rfl fun before line mid hsplit hline => ?_
    exact absurd hline (h.found.before line (by simp [hsplit]))
  constructor
  · intro hstop before line mid' hsplit hline l hl hend
    have hmem : l ∈ mid :=
      mem_behind_first (hbefore.symm.trans hsplit) h.found.before hline l hl
    obtain ⟨inner, closer, rest, rfl, hcloser, hinner⟩ := exists_first ⟨l, hmem, hend⟩
    rw [List.append_assoc, List.cons_append] at hbehind
    obtain ⟨rfl, rfl, -⟩ := first_unique hbehind h.found.inner hinner h.found.closer hcloser
    -- the live block ends behind the line that ends the range
    have hlength := congrArg (fun c => c.before.length) hstop
    have hne := List.length_pos_iff.2 h.found.closer.ne_nil
    simp only [Block.stop, hbefore, List.length_reverse, List.length_append, List.flatten_append,
      List.flatten_cons] at hlength
    omega
  · intro hno
    have hmid : ∀ l ∈ mid ++ live.opener :: live.inner, ¬ IsEnd l :=
      List.forall_mem_append.2 ⟨hno _ _ mid hbefore h.found.opener,
        List.forall_mem_cons.2 ⟨hlive.opener.not_isEnd, hlive.inner⟩⟩
    have hsplit : b.inner ++ b.closer :: b.behind =
        (mid ++ live.opener :: live.inner) ++ live.closer :: live.behind := by
      rw [hbehind]
      simp
    obtain ⟨hinner, hcloser, hrest⟩ :=
      first_unique hsplit h.found.inner hmid h.found.closer hlive.closer
    simp [Block.stop, hbefore, hinner, hcloser, hrest]

end HasBlock

/-- **When the range of a target is live.** The range that is found begins at a live line just if
the first line with an opening anywhere in it is a live one. A pod gets into the live block just if
no block ends between a line with an opening and the live one. -/
theorem live_range_iff (content target : Text) (ht : '\n' ∉ target) :
    (∀ before line behind, content.lines = before ++ line :: behind →
      (∀ m ∈ before, ¬ Mentions target m) → Mentions target line →
        ∀ start stop, targetBlock? content target = some (start, stop) →
          (IsIndented start ↔ IsTargetLine target line)) ∧
      ∀ live : Block, content.lines = live.lines → live.Found (IsTargetLine target) →
        ∀ pod place, placement content target pod = .inTarget place →
          (place = live.stop ↔ ∀ before line mid, live.before = before ++ line :: mid →
            Mentions target line → ∀ l ∈ mid, ¬ IsEnd l) := by
  refine ⟨fun before line behind hlines hbefore hline start stop hrange => ?_,
    fun live hlines hlive pod place hplace => ?_⟩
  · -- the block that is found is the one of the first line with an opening
    have hsome : (targetBlock? content target).isSome := by rw [hrange, Option.isSome_some]
    obtain ⟨b, hb, hfound⟩ := exists_found_of_isSome ht hsome
    obtain ⟨-, rfl, -⟩ := first_unique (hlines.symm.trans hb) hbefore hfound.before hline hfound.opener
    exact HasBlock.isIndented_iff ⟨hb, hfound⟩ ht hrange
  · rw [placement] at hplace
    -- a pod that is put in a block is put where the found block ends
    cases hrange : targetBlock? content target with
    | none =>
      rw [hrange] at hplace
      simp only at hplace
      split at hplace <;> cases hplace
    | some range =>
      have hsome : (targetBlock? content target).isSome := by rw [hrange, Option.isSome_some]
      obtain ⟨b, hb, hfound⟩ := exists_found_of_isSome ht hsome
      have h : HasBlock content target b := ⟨hb, hfound⟩
      obtain ⟨start, y, hstart, -⟩ := h.range ht
      rw [hstart] at hplace
      simp only at hplace
      split at hplace
      · cases hplace
      · obtain rfl := Placement.inTarget.inj hplace
        exact h.stop_eq_iff hlines hlive

theorem live_range_iff_indented :
    let content := "  target 'App' do\nend\n".toList
    let live : Block := ⟨[], "  target 'App' do\n".toList, [], "end\n".toList, []⟩
    '\n' ∉ "App".toList ∧ IsIndented ⟨"  ".toList, "target 'App' do\nend\n".toList⟩ ∧
      placement content "App".toList "AppCenter".toList = .inTarget live.stop := by
  intro content live
  have hopens : Opens "App".toList "target 'App' do\n".toList :=
    ⟨"target 'App' do".toList, ⟨[' '], '\'', '\'', [' '], rfl, by decide, by decide, by decide,
      .inl rfl, .inl rfl⟩, ['\n'], rfl, rfl⟩
  have htarget : IsTargetLine "App".toList live.opener :=
    ⟨"  ".toList, "target 'App' do\n".toList, rfl, by decide, hopens⟩
  have hlive : live.Found (IsTargetLine "App".toList) :=
    ⟨by simp [live], htarget, by simp [live], ⟨['\n'], rfl, rfl⟩⟩
  have hrange : targetBlock? content "App".toList = some
      (⟨"  ".toList, "target 'App' do\nend\n".toList⟩, live.stop) := by decide +kernel
  have hplace : placement content "App".toList "AppCenter".toList =
      .inTarget ⟨"  target 'App' do\n".toList.reverse, "end\n".toList⟩ := by decide +kernel
  obtain ⟨hstart, hstop⟩ := live_range_iff content "App".toList (by decide)
  have hindented := hstart [] _ _ rfl (by simp) htarget.mentions _ _ hrange
  have hsame := hstop live rfl hlive _ _ hplace
  refine ⟨by decide, hindented.2 htarget, ?_⟩
  rw [hplace, hsame.2 (by simp [live])]

/-- An opening in a comment is taken for the target, and the pod gets into another block. -/
theorem comment_taken :
    let content := "# target 'App' do\ntarget 'Other' do\nend\ntarget 'App' do\nend\n".toList
    (∃ start stop, targetBlock? content "App".toList = some (start, stop) ∧ start.offset = 2 ∧
      ¬ IsIndented start) ∧
    addPod content "App".toList "AppCenter".toList =
      "# target 'App' do\ntarget 'Other' do\n  pod 'AppCenter'\nend\ntarget 'App' do\nend\n".toList := by
  refine ⟨⟨⟨[' ', '#'], "target 'App' do\ntarget 'Other' do\nend\ntarget 'App' do\nend\n".toList⟩,
    ⟨"# target 'App' do\ntarget 'Other' do\n".toList.reverse, "end\ntarget 'App' do\nend\n".toList⟩,
    by decide +kernel, rfl, ?_⟩, by decide +kernel⟩
  intro h
  exact absurd (h '#' (by decide)) (by decide)

end Podfile

end SdkWiring
