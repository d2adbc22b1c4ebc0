import Mathlib
import SdkWiring.Proofs.Project.Breadth

/-!
# Searches end

Through links a directory can be reached by endlessly many paths. A search lists it once: when it comes
there again it goes on with the next directory that waits, or stops when the directory is among those
on the way to it. So each turn of its loop uses up a directory that waits, which are no more than the
entries of the directories that were listed.

* `Search.turn`: one turn of the loop, with the directories that were listed so far.
* `Search.Upholds`: what is true between two turns, `Upholds.turn`.
* `Search.State.left`: how many turns there can still be, less after each one, `left_turn`.
* `Search.State.result_turn`: the turns give what the search gives.
* `View.search_ends`: how a search ends, whatever links there are.
-/

namespace SdkWiring

namespace Tree

/-- Each entry is in one directory. -/
theorem Sound.sum_namesIn_le {t : Tree} {places : List Location} (h : t.Sound)
    (hplaces : places.Nodup) :
    (places.map fun l => (t.namesIn l).length).sum ≤ t.nodes.length := by
  let entries : List Location := places.flatMap fun l => (t.namesIn l).map fun name => l ++ [name]
  have hnodup : entries.Nodup := by
    refine List.nodup_flatMap.2 ⟨fun l _ => ?_, hplaces.imp fun {l m} hne => ?_⟩
    · exact (h.nodup_namesIn l).map fun a b hab => by simpa using hab
    · rintro entry hl hm
      obtain ⟨a, -, rfl⟩ := List.mem_map.1 hl
      obtain ⟨b, -, hb⟩ := List.mem_map.1 hm
      exact hne (List.append_inj' hb rfl).1.symm
  have hsub : entries ⊆ t.nodes.map (·.1) := by
    intro entry hentry
    obtain ⟨l, -, hl⟩ := List.mem_flatMap.1 hentry
    obtain ⟨name, hname, rfl⟩ := List.mem_map.1 hl
    obtain ⟨n, hn⟩ := Option.isSome_iff_exists.1 (h.mem_namesIn.1 hname)
    exact List.mem_map_of_mem (mem_of_get? hn (by simp))
  have hlength := (List.subperm_of_subset hnodup hsub).length_le
  simpa [entries, List.length_flatMap] using hlength

end Tree

namespace Search

/-- A search between two turns of its loop: the directories that were listed, those that wait, and what
came out if it has ended. -/
structure State where
  listed : List Location
  queue : List Waiting
  outcome : Option (Except Problem (Option Path))

/-- A search before its first turn. -/
def State.start (top : Path) : State := ⟨[], [⟨top, []⟩], none⟩

/-- One turn of the loop, which looks at the directory that has waited longest. -/
def turn (s : Search) (v : View) (σ : State) : State :=
  match σ.outcome, σ.queue with
  | some _, _ => σ
  | none, [] => { σ with outcome := some (.ok none) }
  | none, dir :: queue =>
    match v.list dir.path with
    | .error fault => { σ with outcome := some (.error (.file fault)) }
    | .ok (here, names) =>
      if dir.ancestors.contains here then { σ with outcome := some (.error (.linkCycle dir.path.text)) }
      else if σ.listed.contains here then { σ with queue }
      else
        let entries := s.entries v dir.path names
        match entries.find? fun p => !v.isDirectory p && s.wants p with
        | some found => ⟨σ.listed ++ [here], queue, some (.ok (some found))⟩
        | none =>
          let next := (entries.filter v.isDirectory).map fun p => ⟨p, dir.ancestors ++ [here]⟩
          ⟨σ.listed ++ [here], queue ++ next, none⟩

variable {s : Search} {v : View} {top : Path} {names : List Name} {here : Location} {σ : State}

/-! ## What is true between two turns -/

/-- A directory that a search comes to is the same one as a directory on the way to it. -/
structure LeadsBack (s : Search) (v : View) (top : Path) (names : List Name) : Prop where
  entered : s.Enters v top names
  same : ∃ front l, front <+: names ∧ front ≠ names ∧
    v.find (top.descend front) = .ok (l, .directory) ∧
      v.find (top.descend names) = .ok (l, .directory)

/-- A directory that waits is one that the search comes to, and what is kept with it are directories on
the way there. -/
def Reaches (s : Search) (v : View) (top : Path) (w : Waiting) : Prop :=
  ∃ names, w.path = top.descend names ∧ s.Enters v top names ∧ ∀ l ∈ w.ancestors,
    ∃ front, front <+: names ∧ front ≠ names ∧ v.find (top.descend front) = .ok (l, .directory)

/-- What is true between two turns. -/
structure Upholds (s : Search) (v : View) (top : Path) (σ : State) : Prop where
  nodup : σ.listed.Nodup
  reaches : ∀ w ∈ σ.queue, s.Reaches v top w
  back : ∀ text, σ.outcome = some (.error (.linkCycle text)) →
    ∃ names, text = (top.descend names).text ∧ s.LeadsBack v top names

theorem upholds_start (s : Search) (v : View) (top : Path) : s.Upholds v top (.start top) where
  nodup := List.nodup_nil
  reaches w hw := by
    rw [State.start, List.mem_singleton] at hw
    subst hw
    exact ⟨[], rfl, enters_nil, nofun⟩
  back _ h := nomatch h

/-- The search comes to the directories in a directory that it came to. -/
theorem Reaches.next {w : Waiting} {p : Path} (hv : v.Sound) (h : s.Reaches v top w)
    (hlist : v.list w.path = .ok (here, names))
    (hp : p ∈ (s.entries v w.path names).filter v.isDirectory) :
    s.Reaches v top ⟨p, w.ancestors ++ [here]⟩ := by
  obtain ⟨front, hpath, henters, hancestors⟩ := h
  obtain ⟨hfind, rfl⟩ := View.list_iff_find.1 hlist
  obtain ⟨hentry, hdirectory⟩ := List.mem_filter.1 hp
  obtain ⟨hjoin, hkept⟩ := List.mem_filter.1 hentry
  obtain ⟨name, hname, rfl⟩ := List.mem_map.1 hjoin
  obtain ⟨n, hn⟩ := Option.isSome_iff_exists.1 (hv.tree.mem_namesIn.1 hname)
  rw [hdirectory, Bool.not_eq_true'] at hkept
  rw [hpath] at hfind hdirectory hkept ⊢
  refine ⟨front ++ [name], (Path.descend_concat _ _ _).symm,
    enters_concat.2 ⟨henters, hv.tree.proper_of_get? hn, hdirectory, hkept⟩, fun l hl => ?_⟩
  rcases List.mem_append.1 hl with hl | hl
  · obtain ⟨start, hstart, -, hstartFind⟩ := hancestors l hl
    refine ⟨start, hstart.trans (List.prefix_append _ _), ?_, hstartFind⟩
    rintro rfl
    simpa using hstart.length_le
  · obtain rfl := List.mem_singleton.1 hl
    exact ⟨front, List.prefix_append _ _, by simp, hfind⟩

/-- **A turn keeps it true.** -/
theorem Upholds.turn (hv : v.Sound) (h : s.Upholds v top σ) : s.Upholds v top (s.turn v σ) := by
  have hnodup : ∀ l, l ∉ σ.listed → (σ.listed ++ [l]).Nodup := fun l hl => by
    rw [← List.concat_eq_append]
    exact h.nodup.concat hl
  -- a turn ends the search, skips a directory, or lists one that was not listed before
  fun_cases Search.turn s v σ with
  | case1 result hended => exact h
  | case2 hqueue hgoes => exact ⟨h.nodup, h.reaches, nofun⟩
  | case3 dir queue hqueue hgoes fault hlist => exact ⟨h.nodup, h.reaches, nofun⟩
  | case4 dir queue hqueue hgoes here names hlist hcycle =>
    rw [List.contains_iff_mem] at hcycle
    refine ⟨h.nodup, h.reaches, fun text htext => ?_⟩
    have hdir := h.reaches dir (by rw [hqueue]; exact List.mem_cons_self)
    obtain ⟨front, hpath, henters, hancestors⟩ := hdir
    obtain ⟨start, hstart, hne, hsame⟩ := hancestors here hcycle
    have hfind := (View.list_iff_find.1 hlist).1
    rw [hpath] at htext hfind
    simp only [Option.some.injEq, Except.error.injEq, Problem.linkCycle.injEq] at htext
    exact ⟨front, htext.symm, henters, start, here, hstart, hne, hsame, hfind⟩
  | case5 dir queue hqueue hgoes here names hlist hcycle hlisted =>
    refine ⟨h.nodup, fun w hw => h.reaches w ?_, h.back⟩
    rw [hqueue]
    exact List.mem_cons_of_mem _ hw
  | case6 dir queue hqueue hgoes here names hlist hcycle hlisted entries found hfind =>
    rw [List.contains_iff_mem] at hlisted
    refine ⟨hnodup here hlisted, fun w hw => h.reaches w ?_, nofun⟩
    rw [hqueue]
    exact List.mem_cons_of_mem _ hw
  | case7 dir queue hqueue hgoes here names hlist hcycle hlisted entries hfind next =>
    rw [List.contains_iff_mem] at hlisted
    have hwaiting : ∀ w ∈ dir :: queue, s.Reaches v top w := hqueue ▸ h.reaches
    refine ⟨hnodup here hlisted, fun w hw => ?_, nofun⟩
    rcases List.mem_append.1 hw with hw | hw
    · exact hwaiting w (List.mem_cons_of_mem _ hw)
    · obtain ⟨p, hp, rfl⟩ := List.mem_map.1 hw
      exact (hwaiting dir List.mem_cons_self).next hv hlist hp

/-- What is true after any number of turns. -/
theorem upholds_turns (s : Search) (top : Path) (hv : v.Sound) (n : ℕ) :
    s.Upholds v top ((s.turn v)^[n] (.start top)) := by
  induction n with
  | zero => exact upholds_start s v top
  | succ n ih =>
    rw [Function.iterate_succ_apply']
    exact ih.turn hv

/-! ## The turns come to an end -/

/-- The directories that are still to be listed. -/
def unlisted (v : View) (listed : List Location) : List Location :=
  v.tree.directories.filter fun l => !listed.contains l

theorem mem_unlisted {listed : List Location} {l : Location} :
    l ∈ unlisted v listed ↔ l ∈ v.tree.directories ∧ l ∉ listed := by
  rw [unlisted, List.mem_filter, Bool.not_eq_true', ← Bool.not_eq_true, List.contains_iff_mem]

@[simp] theorem unlisted_nil (v : View) : unlisted v [] = v.tree.directories :=
  List.filter_eq_self.2 (by simp)

theorem unlisted_concat (hv : v.Sound) (listed : List Location) (l : Location) :
    unlisted v (listed ++ [l]) = (unlisted v listed).erase l := by
  have hnodup : (unlisted v listed).Nodup := hv.tree.nodup_directories.filter _
  rw [hnodup.erase_eq_filter, unlisted, unlisted, List.filter_filter]
  refine List.filter_congr fun m _ => ?_
  rw [Bool.eq_iff_iff]
  simp [and_comm]

/-- What can be listed is a directory of the tree. -/
theorem mem_directories_of_list {dir : Path} (hv : v.Sound) (h : v.list dir = .ok (here, names)) :
    here ∈ v.tree.directories :=
  hv.tree.mem_directories.2 (View.find_eq_ok.1 (View.list_iff_find.1 h).1).2

namespace State

/-- How many turns there can still be before the last one: one for each directory that waits, and one
for each entry of a directory that is still to be listed. -/
def left (v : View) (σ : State) : ℕ :=
  σ.queue.length + ((unlisted v σ.listed).map fun l => (v.tree.namesIn l).length).sum

/-- What comes out of the turns that are left. -/
def result (s : Search) (v : View) (σ : State) : Except Problem (Option Path) :=
  σ.outcome.getD (s.run v (unlisted v σ.listed) σ.queue).result

theorem left_start (hv : v.Sound) (top : Path) : (start top).left v ≤ v.tree.nodes.length + 1 := by
  have hentries := hv.tree.sum_namesIn_le hv.tree.nodup_directories
  rw [left, start, unlisted_nil, List.length_singleton]
  omega

/-- **A turn that is not the last one** leaves fewer of them. -/
theorem left_turn (hv : v.Sound) (h : (s.turn v σ).outcome = none) :
    (s.turn v σ).left v < σ.left v := by
  fun_cases Search.turn s v σ with
  | case1 result hended => simp [Search.turn, hended] at h
  | case2 hqueue hgoes => simp [Search.turn, hqueue, hgoes] at h
  | case3 dir queue hqueue hgoes fault hlist => simp [Search.turn, hqueue, hgoes, hlist] at h
  | case4 dir queue hqueue hgoes here names hlist hcycle =>
    rw [List.contains_iff_mem] at hcycle
    simp [Search.turn, hqueue, hgoes, hlist, hcycle] at h
  | case5 dir queue hqueue hgoes here names hlist hcycle hlisted =>
    simp only [left, hqueue, List.length_cons]
    omega
  | case6 dir queue hqueue hgoes here names hlist hcycle hlisted entries found hfind =>
    rw [List.contains_iff_mem] at hcycle hlisted
    simp [Search.turn, hqueue, hgoes, hlist, hcycle, hlisted, entries, hfind] at h
  | case7 dir queue hqueue hgoes here names hlist hcycle hlisted entries hfind next =>
    rw [List.contains_iff_mem] at hlisted
    -- what joins the queue are entries of the directory that was listed
    have hmem : here ∈ unlisted v σ.listed :=
      mem_unlisted.2 ⟨mem_directories_of_list hv hlist, hlisted⟩
    have hsum := ((List.perm_cons_erase hmem).map fun l => (v.tree.namesIn l).length).sum_eq
    rw [List.map_cons, List.sum_cons] at hsum
    have hnext : next.length ≤ (v.tree.namesIn here).length := by
      rw [List.length_map, ← (View.list_iff_find.1 hlist).2]
      refine (List.length_filter_le _ _).trans ((List.length_filter_le _ _).trans ?_)
      rw [List.length_map]
    simp only [left, hqueue, unlisted_concat hv, List.length_append, List.length_cons]
    omega

/-- **The search ends** after so many turns. -/
theorem exists_outcome (hv : v.Sound) (s : Search) (σ : State) :
    ∃ n ≤ σ.left v + 1, ((s.turn v)^[n] σ).outcome ≠ none := by
  induction hleft : σ.left v using Nat.strong_induction_on generalizing σ with
  | _ left ih =>
    by_cases hlast : (s.turn v σ).outcome = none
    · have hless := left_turn hv hlast
      obtain ⟨n, hn, hended⟩ := ih _ (hleft ▸ hless) _ rfl
      exact ⟨n + 1, by omega, hended⟩
    · exact ⟨1, by omega, hlast⟩

/-- **A turn does not change what comes out.** -/
theorem result_turn (hv : v.Sound) (s : Search) (σ : State) :
    (s.turn v σ).result s v = σ.result s v := by
  fun_cases Search.turn s v σ with
  | case1 outcome hended => rfl
  | case2 hqueue hgoes =>
    rw [result, result, hgoes, hqueue, Search.run]
    rfl
  | case3 dir queue hqueue hgoes fault hlist =>
    rw [result, result, hgoes, hqueue, Search.run, hlist]
    rfl
  | case4 dir queue hqueue hgoes here names hlist hcycle =>
    rw [List.contains_iff_mem] at hcycle
    rw [result, result, hgoes, hqueue, Search.run, hlist]
    simp [hcycle]
  | case5 dir queue hqueue hgoes here names hlist hcycle hlisted =>
    rw [List.contains_iff_mem] at hcycle hlisted
    have hmem : here ∉ unlisted v σ.listed := fun h => (mem_unlisted.1 h).2 hlisted
    rw [result, result, hgoes, hqueue, Search.run, hlist]
    simp [hcycle, hmem]
  | case6 dir queue hqueue hgoes here names hlist hcycle hlisted entries found hfind =>
    rw [List.contains_iff_mem] at hcycle hlisted
    have hmem : here ∈ unlisted v σ.listed :=
      mem_unlisted.2 ⟨mem_directories_of_list hv hlist, hlisted⟩
    rw [result, result, hgoes, hqueue, Search.run, hlist]
    simp only [hcycle, hmem, if_false, dite_true]
    rw [hfind]
    rfl
  | case7 dir queue hqueue hgoes here names hlist hcycle hlisted entries hfind next =>
    rw [List.contains_iff_mem] at hcycle hlisted
    have hmem : here ∈ unlisted v σ.listed :=
      mem_unlisted.2 ⟨mem_directories_of_list hv hlist, hlisted⟩
    rw [result, result, hgoes, hqueue, Search.run, hlist]
    simp only [hcycle, hmem, if_false, dite_true]
    rw [hfind, unlisted_concat hv]

end State

theorem result_turns (hv : v.Sound) (s : Search) (n : ℕ) (σ : State) :
    ((s.turn v)^[n] σ).result s v = σ.result s v := by
  induction n with
  | zero => rfl
  | succ n ih => rw [Function.iterate_succ_apply', State.result_turn hv, ih]

/-- A path leads nowhere from what is no directory. -/
theorem base_descend_eq_none (h : v.base top = none) (names : List Name) :
    v.base (top.descend names) = none := by
  induction names using List.reverseRecOn with
  | nil => exact h
  | append_singleton names name ih => rw [Path.descend_concat, View.base_join, ih, Option.bind_none]

/-- Without links a search comes to no directory twice. -/
theorem not_leadsBack (hv : v.Sound) (hlinks : v.tree.LinkFree) : ¬ s.LeadsBack v top names := by
  rintro ⟨henters, front, l, hfront, hne, hfrontFind, hfind⟩
  have hbase := ((View.find_directory hv hlinks).1 hfind).2
  have hfrontBase := ((View.find_directory hv hlinks).1 hfrontFind).2
  cases hstart : v.base top with
  | none =>
    rw [base_descend_eq_none hstart] at hbase
    cases hbase
  | some d =>
    rw [henters.base hlinks hstart, ← hfrontBase,
      (henters.of_prefix hfront).base hlinks hstart] at hbase
    exact hne (List.append_cancel_left (Option.some.inj hbase)).symm

end Search

/-- **How a search ends**, whatever links there are: after no more turns than the tree has entries and
two more, and no directory is listed twice. It fails for a cycle only at a directory that is the same one
as a directory on the way to it, so never without links. -/
theorem View.search_ends {v : View} (s : Search) (top : Path) (hv : v.Sound) :
    ∃ n ≤ v.tree.nodes.length + 2, ∃ σ, (s.turn v)^[n] (.start top) = σ ∧
      σ.outcome = some (v.search s top).result ∧ σ.listed.Nodup ∧
        (∀ text, (v.search s top).result = .error (.linkCycle text) →
          ∃ names, text = (top.descend names).text ∧ s.LeadsBack v top names) ∧
        (v.tree.LinkFree → ∀ text, (v.search s top).result ≠ .error (.linkCycle text)) := by
  obtain ⟨n, hn, hended⟩ := Search.State.exists_outcome hv s (.start top)
  have hleft := Search.State.left_start hv top
  have hupholds := Search.upholds_turns s top hv n
  have hresult := Search.result_turns hv s n (.start top)
  obtain ⟨result, houtcome⟩ := Option.ne_none_iff_exists'.1 hended
  have hsame : result = (v.search s top).result := by
    rw [Search.State.result, houtcome] at hresult
    simpa [Search.State.result, Search.State.start, View.search] using hresult
  subst hsame
  have hback : ∀ text, (v.search s top).result = .error (.linkCycle text) →
      ∃ names, text = (top.descend names).text ∧ s.LeadsBack v top names := fun text htext =>
    hupholds.back text (houtcome.trans (congrArg some htext))
  refine ⟨n, by omega, _, rfl, houtcome, hupholds.nodup, hback, fun hlinks text htext => ?_⟩
  obtain ⟨names, -, hnames⟩ := hback text htext
  exact Search.not_leadsBack hv hlinks hnames

/-- A directory with a link in it that leads back to it. -/
def loopView : View where
  tree := ⟨[(["App"], .directory), (["App", "Loop"], .link ⟨["..", "App"]⟩)]⟩

theorem sound_loop : loopView.Sound where
  tree :=
    { nodup := by simp [loopView]
      ne_nil := by simp [loopView]
      proper := by
        simp only [loopView, List.forall_mem_cons, List.not_mem_nil, false_implies, implies_true,
          and_true]
        decide
      parent := by simp [loopView, Tree.get?] }
  here := rfl

/-- A search that leaves nothing out and that nothing ends. -/
def everywhere : Search := ⟨fun _ _ => false, fun _ => false⟩

/-- A search in it stops at the link. -/
theorem search_ends_loop : ∃ n ≤ 4, ∃ σ, (everywhere.turn loopView)^[n] (.start ⟨["App"]⟩) = σ ∧
    σ.outcome = some (.error (.linkCycle "App/Loop")) ∧ σ.listed.Nodup ∧
      ∃ names, "App/Loop" = ((⟨["App"]⟩ : Path).descend names).text ∧
        everywhere.LeadsBack loopView ⟨["App"]⟩ names := by
  have hresult : (loopView.search everywhere ⟨["App"]⟩).result = .error (.linkCycle "App/Loop") := by
    cbv
  obtain ⟨n, hn, σ, hσ, houtcome, hnodup, hback, -⟩ :=
    View.search_ends everywhere ⟨["App"]⟩ sound_loop
  exact ⟨n, hn, σ, hσ, houtcome.trans (congrArg some hresult), hnodup, hback _ hresult⟩

end SdkWiring
