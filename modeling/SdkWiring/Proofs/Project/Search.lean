import SdkWiring.Project.Search
import SdkWiring.Proofs.Files.Walk

/-!
# Searches that find the same

Without links a search sees the entries of directories in order. What it finds is the first file that
is wanted, so it finds the same after files that are not wanted were added, and others were taken
away.

* `Search.exists_of_run`: where a file that is found stands.
* `View.SeesAlike`: two views whose difference a search does not see.
* `View.SeesAlike.run`, `View.SeesAlike.search`: such views give the same.
* `View.search_first`, `View.search_lone`: a search that ends where it starts.
-/

namespace SdkWiring

open SdkWiring.Tree

variable {s : Search} {v v' : View} {dir p found : Path} {start d l here : Location} {name : Name}
  {names names' : List Name} {unlisted unlisted' : List Location} {queue : List Search.Waiting}

/-! ## Ordered lists -/

/-- Of an ordered list the first element of a kind is the least one. -/
theorem le_of_find? {P : Name → Bool} (h : names.Pairwise (· ≤ ·)) (hfind : names.find? P = some name) :
    ∀ n ∈ names, P n = true → name ≤ n := by
  obtain ⟨-, as, bs, rfl, has⟩ := List.find?_eq_some_iff_append.1 hfind
  intro n hn hP
  rw [List.mem_append, List.mem_cons] at hn
  rcases hn with hn | rfl | hn
  · exact absurd (has n hn) (by simp [hP])
  · exact String.le_refl _
  · exact (List.pairwise_cons.1 (List.pairwise_append.1 h).2.1).1 n hn

theorem find?_eq_least {P : Name → Bool} (h : names.Pairwise (· ≤ ·)) (hmem : name ∈ names)
    (hP : P name = true) (hleast : ∀ n ∈ names, P n = true → name ≤ n) :
    names.find? P = some name := by
  cases hfind : names.find? P with
  | none => exact absurd hP (List.find?_eq_none.1 hfind name hmem)
  | some other =>
    have hle := le_of_find? h hfind name hmem hP
    have hge := hleast other (List.mem_of_find?_eq_some hfind) (List.find?_some hfind)
    rw [String.le_antisymm hle hge]

/-- Of an ordered list the first element of a kind is still the first one when others are added that
are not of the kind, and others are taken away. -/
theorem find?_of_pairwise {P : Name → Bool} (h : names.Pairwise (· ≤ ·))
    (h' : names'.Pairwise (· ≤ ·)) (hfind : names.find? P = some name) (hmem : name ∈ names')
    (hold : ∀ n ∈ names', P n = true → n ∈ names) : names'.find? P = some name :=
  find?_eq_least h' hmem (List.find?_some hfind) fun n hn hP =>
    le_of_find? h hfind n (hold n hn hP) hP

/-- The elements of a kind are listed in the same order. -/
theorem filter_of_pairwise {P : Name → Bool} (h : names.Pairwise (· ≤ ·))
    (h' : names'.Pairwise (· ≤ ·)) (hnodup : names.Nodup) (hnodup' : names'.Nodup)
    (hsame : ∀ n, P n = true → (n ∈ names ↔ n ∈ names')) : names.filter P = names'.filter P := by
  have hperm : (names.filter P).Perm (names'.filter P) := by
    refine (List.perm_ext_iff_of_nodup (hnodup.filter P) (hnodup'.filter P)).2 fun n => ?_
    simp only [List.mem_filter]
    exact ⟨fun hn => ⟨(hsame n hn.2).1 hn.1, hn.2⟩, fun hn => ⟨(hsame n hn.2).2 hn.1, hn.2⟩⟩
  exact hperm.eq_of_pairwise (fun a b _ _ => String.le_antisymm) (h.filter P) (h'.filter P)

namespace Search

/-! ## Entries -/

theorem entries_find? (q : Path → Bool) : (s.entries v dir names).find? q =
    (names.find? fun n => !s.skips (dir.join n) (v.isDirectory (dir.join n)) && q (dir.join n)).map
      dir.join := by
  rw [entries, List.find?_filter, List.find?_map]
  refine congrArg (Option.map dir.join) (congrArg (fun f => names.find? f) (funext fun n => ?_))
  simp [Function.comp_apply]

theorem entries_filter (q : Path → Bool) : (s.entries v dir names).filter q =
    (names.filter fun n => q (dir.join n) &&
      !s.skips (dir.join n) (v.isDirectory (dir.join n))).map dir.join := by
  rw [entries, List.filter_filter, List.filter_map]
  rfl

/-- The directories that wait in a queue lie below a directory. -/
def Below (v : View) (start : Location) (queue : List Waiting) : Prop :=
  ∀ w ∈ queue, ∀ l, v.base w.path = some l → start <+: l

/-- The directories that are queued behind a listed one lie below it. -/
theorem Below.append {ancestors : List Location} (hv : v.Sound) (hlinks : v.tree.LinkFree)
    (h : Below v start queue) (hbase : v.base dir = some d) (hstart : start <+: d) :
    Below v start (queue ++ ((s.entries v dir (v.tree.namesIn d)).filter v.isDirectory).map
      fun p => ⟨p, ancestors⟩) := by
  intro w hw l hl
  rcases List.mem_append.1 hw with hw | hw
  · exact h w hw l hl
  · obtain ⟨p, hp, rfl⟩ := List.mem_map.1 hw
    obtain ⟨hentry, hdir⟩ := List.mem_filter.1 hp
    obtain ⟨name, hmem, rfl⟩ := List.mem_map.1 (List.mem_of_mem_filter hentry)
    obtain ⟨n, hn⟩ := Option.isSome_iff_exists.1 (hv.tree.mem_namesIn.1 hmem)
    have hproper := hv.tree.proper_of_get? hn
    have hbase' := View.base_entry hproper hbase ((View.isDirectory_join hlinks hproper hbase).1 hdir)
    obtain rfl := Option.some.inj (hl.symm.trans hbase')
    exact hstart.trans (List.prefix_append _ _)

/-- **A file that is found** is wanted, and an entry of a directory below the start. -/
theorem exists_of_run (hv : v.Sound) (hlinks : v.tree.LinkFree) (hbelow : Below v start queue)
    (h : (s.run v unlisted queue).result = .ok (some found)) :
    ∃ dir d name, found = dir.join name ∧ IsProper name ∧ v.base dir = some d ∧ start <+: d ∧
      s.wants found = true ∧ ∃ c, v.tree.get? (d ++ [name]) = some (.file c) := by
  -- along the search what waits lies below the start
  induction unlisted, queue using Search.run.induct s v with
  | case1 unlisted =>
    rw [run] at h
    cases h
  | case2 unlisted dir queue fault hlist =>
    rw [run, hlist] at h
    cases h
  | case3 unlisted dir queue here names hlist hcycle =>
    rw [run, hlist] at h
    simp only [if_pos hcycle] at h
    cases h
  | case4 unlisted dir queue here names hlist hcycle hmem entries found' hfind =>
    rw [run, hlist] at h
    simp only [if_neg hcycle, dif_pos hmem] at h
    rw [hfind] at h
    obtain rfl : found' = found := Option.some.inj (Except.ok.inj h)
    obtain ⟨⟨hne, hbase⟩, rfl⟩ := (View.list_eq_ok hv hlinks).1 hlist
    obtain ⟨name, hname, rfl⟩ := List.mem_map.1 (List.mem_of_mem_filter (List.mem_of_find?_eq_some hfind))
    obtain ⟨n, hn⟩ := Option.isSome_iff_exists.1 (hv.tree.mem_namesIn.1 hname)
    have hproper := hv.tree.proper_of_get? hn
    have hwanted := List.find?_some hfind
    simp only [Bool.and_eq_true, Bool.not_eq_true'] at hwanted
    refine ⟨dir.path, here, name, rfl, hproper, hbase, hbelow dir List.mem_cons_self here hbase,
      hwanted.2, ?_⟩
    cases n with
    | file c => exact ⟨c, hn⟩
    | link target => exact absurd hn (hlinks _ _)
    | directory =>
      rw [(View.isDirectory_join hlinks hproper hbase).2 hn] at hwanted
      cases hwanted.1
  | case5 unlisted dir queue here names hlist hcycle hmem entries hfind next ih =>
    rw [run, hlist] at h
    simp only [if_neg hcycle, dif_pos hmem] at h
    rw [hfind] at h
    obtain ⟨⟨hne, hbase⟩, rfl⟩ := (View.list_eq_ok hv hlinks).1 hlist
    have hrest : Below v start queue := fun w hw => hbelow w (List.mem_cons_of_mem _ hw)
    exact ih (hrest.append hv hlinks hbase (hbelow dir List.mem_cons_self here hbase)) h
  | case6 unlisted dir queue here names hlist hcycle hmem ih =>
    rw [run, hlist] at h
    simp only [if_neg hcycle, dif_neg hmem] at h
    exact ih (fun w hw => hbelow w (List.mem_cons_of_mem _ hw)) h

end Search

/-- Two views whose difference a search for a file does not see: the directories are the same, what is
new below the start is not wanted, and the file is still there. -/
structure View.SeesAlike (s : Search) (start : Location) (found : Path) (v v' : View) : Prop
    extends KeepsDirectories v v' where
  soundBefore : v.Sound
  linkFreeBefore : v.tree.LinkFree
  new : ∀ dir d name, v.base dir = some d → start <+: d → v.tree.get? (d ++ [name]) = none →
    (v'.tree.get? (d ++ [name])).isSome → s.wants (dir.join name) = false
  kept : ∀ dir d name, v.base dir = some d → dir.join name = found →
    (v.tree.get? (d ++ [name])).isSome → (v'.tree.get? (d ++ [name])).isSome

namespace View.SeesAlike

variable {P : Name → Bool}

theorem isDirectory (h : SeesAlike s start found v v') (p : Path) :
    v'.isDirectory p = v.isDirectory p := by
  rw [Bool.eq_iff_iff, isDirectory_iff h.soundBefore h.linkFreeBefore, isDirectory_iff h.sound h.linkFree,
    h.base_eq]

theorem list (h : SeesAlike s start found v v') (hlist : v.list p = .ok (l, names)) :
    v'.list p = .ok (l, v'.tree.namesIn l) := by
  obtain ⟨⟨hne, hbase⟩, -⟩ := (list_eq_ok h.soundBefore h.linkFreeBefore).1 hlist
  exact (list_eq_ok h.sound h.linkFree).2
    ⟨⟨hne, (h.base_eq p).trans hbase⟩, rfl⟩

theorem entries_find? (h : SeesAlike s start found v v') (hbase : v.base dir = some d)
    (hstart : start <+: d) {result : Option Path}
    (hfind : (s.entries v dir (v.tree.namesIn d)).find? (fun p => !v.isDirectory p && s.wants p) =
      result) (hresult : ∀ p, result = some p → p = found) :
    (s.entries v' dir (v'.tree.namesIn d)).find? (fun p => !v'.isDirectory p && s.wants p) =
      result := by
  rw [Search.entries_find?] at hfind ⊢
  simp only [h.isDirectory]
  -- a new name is not wanted, so one that is wanted was there
  have hold : ∀ n ∈ v'.tree.namesIn d, (!s.skips (dir.join n) (v.isDirectory (dir.join n)) &&
      (!v.isDirectory (dir.join n) && s.wants (dir.join n))) = true → n ∈ v.tree.namesIn d := by
    intro n hn hP
    rw [h.sound.tree.mem_namesIn] at hn
    rw [h.soundBefore.tree.mem_namesIn]
    cases hget : v.tree.get? (d ++ [n]) with
    | some node => rfl
    | none =>
      rw [h.new dir d n hbase hstart hget hn] at hP
      simp at hP
  cases hname : (v.tree.namesIn d).find? fun n =>
      !s.skips (dir.join n) (v.isDirectory (dir.join n)) &&
        (!v.isDirectory (dir.join n) && s.wants (dir.join n)) with
  | none =>
    rw [hname] at hfind
    have hnone : (v'.tree.namesIn d).find? (fun n =>
        !s.skips (dir.join n) (v.isDirectory (dir.join n)) &&
          (!v.isDirectory (dir.join n) && s.wants (dir.join n))) = none :=
      List.find?_eq_none.2 fun n hn hP => List.find?_eq_none.1 hname n (hold n hn hP) hP
    rw [hnone]
    exact hfind
  | some name =>
    rw [hname] at hfind
    have hfound := hresult _ hfind.symm
    have hin := h.soundBefore.tree.mem_namesIn.1 (List.mem_of_find?_eq_some hname)
    have hin' := h.sound.tree.mem_namesIn.2 (h.kept dir d name hbase hfound hin)
    rw [find?_of_pairwise (pairwise_namesIn _ _) (pairwise_namesIn _ _) hname hin' hold]
    exact hfind

theorem entries_filter (h : SeesAlike s start found v v') (hbase : v.base dir = some d) :
    (s.entries v' dir (v'.tree.namesIn d)).filter v'.isDirectory =
      (s.entries v dir (v.tree.namesIn d)).filter v.isDirectory := by
  have hsame : v'.isDirectory = v.isDirectory := funext h.isDirectory
  rw [Search.entries_filter, Search.entries_filter, hsame]
  refine congrArg (List.map dir.join) (filter_of_pairwise (pairwise_namesIn _ _)
    (pairwise_namesIn _ _) (h.sound.tree.nodup_namesIn _) (h.soundBefore.tree.nodup_namesIn _) ?_)
  intro n hP
  have hdir : v.isDirectory (dir.join n) = true := (Bool.and_eq_true _ _ ▸ hP).1
  have hentry : IsProper n → v.tree.get? (d ++ [n]) = some .directory := fun hproper =>
    (isDirectory_join h.linkFreeBefore hproper hbase).1 hdir
  rw [h.soundBefore.tree.mem_namesIn, h.sound.tree.mem_namesIn]
  constructor
  · intro hin
    obtain ⟨node, hnode⟩ := Option.isSome_iff_exists.1 hin
    rw [hentry (h.sound.tree.proper_of_get? hnode)]
    rfl
  · intro hin
    obtain ⟨node, hnode⟩ := Option.isSome_iff_exists.1 hin
    rw [(h.directories _).2 (hentry (h.soundBefore.tree.proper_of_get? hnode))]
    rfl

/-- **Two views whose difference a search does not see** give the same file. -/
theorem run (h : SeesAlike s start found v v') (hbelow : Search.Below v start queue)
    (hperm : unlisted.Perm unlisted') (hrun : (s.run v unlisted queue).result = .ok (some found)) :
    (s.run v' unlisted' queue).result = .ok (some found) := by
  -- both searches see the same queue, and list the same directories of it
  induction unlisted, queue using Search.run.induct s v generalizing unlisted' with
  | case1 unlisted =>
    rw [Search.run] at hrun
    cases hrun
  | case2 unlisted dir queue fault hlist =>
    rw [Search.run, hlist] at hrun
    cases hrun
  | case3 unlisted dir queue here names hlist hcycle =>
    rw [Search.run, hlist] at hrun
    simp only [if_pos hcycle] at hrun
    cases hrun
  | case4 unlisted dir queue here names hlist hcycle hmem entries found' =>
    rename_i hfind
    rw [Search.run, hlist] at hrun
    simp only [if_neg hcycle, dif_pos hmem] at hrun
    rw [hfind] at hrun
    obtain rfl : found' = found := Option.some.inj (Except.ok.inj hrun)
    obtain ⟨⟨-, hbase⟩, rfl⟩ := (list_eq_ok h.soundBefore h.linkFreeBefore).1 hlist
    have hfind' := h.entries_find? hbase (hbelow dir List.mem_cons_self here hbase) hfind
      fun p hp => (Option.some.inj hp).symm
    rw [Search.run, h.list hlist]
    simp only [if_neg hcycle, dif_pos (hperm.mem_iff.1 hmem)]
    rw [hfind']
    rfl
  | case5 unlisted dir queue here names hlist hcycle hmem entries hfind next =>
    rename_i ih
    rw [Search.run, hlist] at hrun
    simp only [if_neg hcycle, dif_pos hmem] at hrun
    rw [hfind] at hrun
    obtain ⟨⟨-, hbase⟩, rfl⟩ := (list_eq_ok h.soundBefore h.linkFreeBefore).1 hlist
    have hstart := hbelow dir List.mem_cons_self here hbase
    have hfind' := h.entries_find? hbase hstart hfind nofun
    have hrest : Search.Below v start queue := fun w hw => hbelow w (List.mem_cons_of_mem _ hw)
    rw [Search.run, h.list hlist]
    simp only [if_neg hcycle, dif_pos (hperm.mem_iff.1 hmem)]
    rw [hfind', h.entries_filter hbase]
    exact ih (hrest.append h.soundBefore h.linkFreeBefore hbase hstart) (hperm.erase here) hrun
  | case6 unlisted dir queue here names hlist hcycle hmem ih =>
    rw [Search.run, hlist] at hrun
    simp only [if_neg hcycle, dif_neg hmem] at hrun
    rw [Search.run, h.list hlist]
    simp only [if_neg hcycle, dif_neg fun hin => hmem (hperm.mem_iff.2 hin)]
    exact ih (fun w hw => hbelow w (List.mem_cons_of_mem _ hw)) hperm hrun

end View.SeesAlike

theorem Search.below_start {top : Path} (h : ∀ l, v.base top = some l → start <+: l) :
    Search.Below v start [⟨top, []⟩] := by
  intro w hw l hl
  rw [List.mem_singleton.1 hw] at hl
  exact h l hl

/-- **A search gives the same file.** -/
theorem View.SeesAlike.search {top : Path} (h : View.SeesAlike s start found v v')
    (htop : ∀ l, v.base top = some l → start <+: l)
    (hsearch : (v.search s top).result = .ok (some found)) :
    (v'.search s top).result = .ok (some found) := by
  have hperm : v.tree.directories.Perm v'.tree.directories := by
    refine (List.perm_ext_iff_of_nodup h.soundBefore.tree.nodup_directories
      h.sound.tree.nodup_directories).2 fun l => ?_
    rw [h.soundBefore.tree.mem_directories, h.sound.tree.mem_directories, h.directories l]
  exact h.run (Search.below_start htop) hperm hsearch

/-- **The first file that is wanted** in the directory where a search starts is found at once. -/
theorem View.search_first {top : Path} (hv : v.Sound) (hlinks : v.tree.LinkFree)
    (hne : top.pieces ≠ [""]) (hbase : v.base top = some d)
    (hsome : (v.tree.get? (d ++ [name])).isSome) (hfile : v.tree.get? (d ++ [name]) ≠ some .directory)
    (hskips : s.skips (top.join name) false = false) (hwants : s.wants (top.join name) = true)
    (hleast : ∀ n, (v.tree.get? (d ++ [n])).isSome → v.tree.get? (d ++ [n]) ≠ some .directory →
      s.wants (top.join n) = true → name ≤ n) :
    (v.search s top).result = .ok (some (top.join name)) := by
  have hlist : v.list top = .ok (d, v.tree.namesIn d) := (list_eq_ok hv hlinks).2 ⟨⟨hne, hbase⟩, rfl⟩
  have hmem : d ∈ v.tree.directories := hv.tree.mem_directories.2 (hv.base_directory hbase)
  have hentry : ∀ n, (v.tree.get? (d ++ [n])).isSome →
      (v.isDirectory (top.join n) = true ↔ v.tree.get? (d ++ [n]) = some .directory) := by
    intro n hn
    obtain ⟨node, hnode⟩ := Option.isSome_iff_exists.1 hn
    exact isDirectory_join hlinks (hv.tree.proper_of_get? hnode) hbase
  have hfind : (s.entries v top (v.tree.namesIn d)).find? (fun p => !v.isDirectory p && s.wants p) =
      some (top.join name) := by
    have hnot : v.isDirectory (top.join name) = false :=
      Bool.eq_false_iff.2 ((hentry name hsome).not.2 hfile)
    rw [Search.entries_find?, find?_eq_least (pairwise_namesIn _ _) (hv.tree.mem_namesIn.2 hsome)
      (by simp [hnot, hskips, hwants]) fun n hn hP => ?_]
    · rfl
    · have hn' := hv.tree.mem_namesIn.1 hn
      simp only [Bool.and_eq_true, Bool.not_eq_true', Bool.eq_false_iff] at hP
      exact hleast n hn' ((hentry n hn').not.1 hP.2.1) hP.2.2
  rw [View.search, Search.run, hlist]
  simp only [List.not_mem_nil, if_false, dif_pos hmem]
  rw [hfind]
  rfl

/-- A file that stands alone in the directory where a search starts is found if it is wanted. -/
theorem View.search_lone {top : Path} {c : Content} (hv : v.Sound) (hlinks : v.tree.LinkFree)
    (hne : top.pieces ≠ [""]) (hbase : v.base top = some d)
    (hfile : v.tree.get? (d ++ [name]) = some (.file c))
    (hskips : s.skips (top.join name) false = false) (hwants : s.wants (top.join name) = true)
    (hlone : ∀ n, (v.tree.get? (d ++ [n])).isSome → name = n) :
    (v.search s top).result = .ok (some (top.join name)) := by
  refine search_first hv hlinks hne hbase (by simp [hfile]) (by simp [hfile]) hskips hwants
    fun n hn _ _ => ?_
  obtain rfl := hlone n hn
  exact String.le_refl name

end SdkWiring
