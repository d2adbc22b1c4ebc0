import SdkWiring.Proofs.Plan.Step

/-!
# Histories of a run

Steps may be asked for in any order and again and again, and a run that fails may be followed by
others. As long as the files stay as they are, nothing of that matters: the project that is kept is
the one that is located, and a step queues what it would queue alone.

* `Job.run_error`: a run that fails has done the steps before the one that failed.
* `Job.queued_writes`: the queue after any history.
* `Job.plan_eq_ok`: when a full run succeeds, and what it plans.
-/

namespace SdkWiring.Job

variable {j : Job} {v : View} {progress after : Progress} {s : Step} {steps : List Step}
  {lists : List (List Step)} {w : PendingWrite} {e : Problem} {plan : Plan}

/-- The progress after several runs, each of which goes on where the last one stopped, and how each
of them ended. -/
def runs (j : Job) (v : View) (progress : Progress) :
    List (List Step) → Progress × List (Except Problem Unit)
  | [] => (progress, [])
  | steps :: rest =>
    let first := j.run v progress steps
    let others := runs j v first.1 rest
    (others.1, first.2 :: others.2)

/-! ## Runs -/

theorem run_cons (s : Step) (rest : List Step) : j.run v progress (s :: rest) =
    match j.perform v s progress with
    | (next, .error e) => (next, .error e)
    | (next, .ok ()) => j.run v next rest := rfl

theorem run_cons_ok {rest : List Step} (h : (j.perform v s progress).2 = .ok ()) :
    j.run v progress (s :: rest) = j.run v (j.perform v s progress).1 rest := by
  rw [run_cons]
  cases hp : j.perform v s progress with
  | mk next result =>
    rw [hp] at h
    obtain rfl : result = .ok () := h
    rfl

theorem run_cons_error {rest : List Step} (h : (j.perform v s progress).2 = .error e) :
    j.run v progress (s :: rest) = ((j.perform v s progress).1, .error e) := by
  rw [run_cons]
  cases hp : j.perform v s progress with
  | mk next result =>
    rw [hp] at h
    obtain rfl : result = .error e := h
    rfl

/-- **A run** keeps the project that is located, and queues the writes of its steps if it
succeeds. -/
theorem run_spec (steps : List Step) (h : j.KeepsLocated v progress) :
    j.KeepsLocated v (j.run v progress steps).1 ∧
      ((j.run v progress steps).2 = .ok () →
        (j.run v progress steps).1.writes = progress.writes ++ steps.flatMap (j.loneWrites v)) := by
  induction steps generalizing progress with
  | nil => exact ⟨h, fun _ => (List.append_nil _).symm⟩
  | cons s rest ih =>
    have hnext := (perform_spec (s := s) h).2.2
    cases hs : (j.perform v s progress).2 with
    | error e =>
      rw [run_cons_error hs]
      exact ⟨hnext, fun hok => by cases hok⟩
    | ok u =>
      rw [run_cons_ok hs]
      refine ⟨(ih hnext).1, fun hok => ?_⟩
      rw [(ih hnext).2 hok, writes_perform h, List.flatMap_cons, List.append_assoc]

/-- A run succeeds if each of its steps would succeed alone. -/
theorem run_eq_ok (steps : List Step) (h : j.KeepsLocated v progress) :
    (j.run v progress steps).2 = .ok () ↔ ∀ s ∈ steps, ∃ writes, j.stepResult v s = .ok writes := by
  induction steps generalizing progress with
  | nil => simp [run]
  | cons s rest ih =>
    obtain ⟨hresult, -, hnext⟩ := perform_spec (s := s) h
    rw [List.forall_mem_cons]
    cases hs : j.stepResult v s with
    | error e =>
      rw [hs] at hresult
      rw [run_cons_error hresult]
      exact ⟨nofun, fun ⟨⟨_, hw⟩, _⟩ => nomatch hw⟩
    | ok writes =>
      rw [hs] at hresult
      rw [run_cons_ok hresult, ih hnext]
      exact ⟨fun hrest => ⟨⟨writes, rfl⟩, hrest⟩, fun hall => hall.2⟩

/-- **A run that fails** has done the steps before the one that fails, and queued their writes. -/
theorem run_error (h : j.KeepsLocated v progress)
    (hrun : j.run v progress steps = (after, .error e)) :
    ∃ before s rest, steps = before ++ s :: rest ∧ (j.run v progress before).2 = .ok () ∧
      (j.perform v s (j.run v progress before).1).2 = .error e ∧
      after.writes = progress.writes ++ before.flatMap (j.loneWrites v) := by
  induction steps generalizing progress with
  | nil => cases hrun
  | cons s rest ih =>
    cases hs : (j.perform v s progress).2 with
    | error e' =>
      rw [run_cons_error hs] at hrun
      obtain ⟨rfl, he⟩ := Prod.mk.inj hrun
      obtain rfl := Except.error.inj he
      have halone : (j.perform v s {}).2 = .error e' := by rw [← perform_result h, hs]
      refine ⟨[], s, rest, rfl, rfl, hs, ?_⟩
      rw [writes_perform h, loneWrites_of_error halone]
      rfl
    | ok u =>
      rw [run_cons_ok hs] at hrun
      obtain ⟨before, s', rest', rfl, hok, herror, hwrites⟩ := ih (perform_spec h).2.2 hrun
      refine ⟨s :: before, s', rest', rfl, ?_, ?_, ?_⟩
      · rw [run_cons_ok hs, hok]
      · rw [run_cons_ok hs, herror]
      · rw [hwrites, writes_perform h, List.flatMap_cons, List.append_assoc]

/-- What is queued after a run was queued before it or is queued by one of its steps. -/
theorem mem_writes_run (h : j.KeepsLocated v progress)
    (hw : w ∈ (j.run v progress steps).1.writes) :
    w ∈ progress.writes ∨ ∃ s ∈ steps, w ∈ j.loneWrites v s := by
  cases hrun : j.run v progress steps with
  | mk after result =>
    rw [hrun] at hw
    cases result with
    | ok u =>
      have hok : (j.run v progress steps).2 = .ok () := by rw [hrun]
      have hwrites := (run_spec _ h).2 hok
      rw [hrun] at hwrites
      rw [hwrites, List.mem_append, List.mem_flatMap] at hw
      exact hw
    | error e =>
      obtain ⟨before, s, rest, rfl, -, -, hwrites⟩ := run_error h hrun
      rw [hwrites, List.mem_append, List.mem_flatMap] at hw
      exact hw.imp_right fun ⟨t, ht, hwt⟩ => ⟨t, List.mem_append_left _ ht, hwt⟩

/-! ## Histories -/

/-- **A history** keeps the project that is located, queues nothing but writes of its steps, and
all of them if no run fails. -/
theorem runs_spec (lists : List (List Step)) (h : j.KeepsLocated v progress) :
    j.KeepsLocated v (j.runs v progress lists).1 ∧
      (∀ w ∈ (j.runs v progress lists).1.writes,
        w ∈ progress.writes ∨ ∃ s, w ∈ j.loneWrites v s) ∧
      ((∀ r ∈ (j.runs v progress lists).2, r = .ok ()) →
        (j.runs v progress lists).1.writes =
          progress.writes ++ lists.flatten.flatMap (j.loneWrites v)) := by
  induction lists generalizing progress with
  | nil => exact ⟨h, fun w hw => .inl hw, fun _ => (List.append_nil _).symm⟩
  | cons steps rest ih =>
    obtain ⟨hkeeps, hmem, hall⟩ := ih (run_spec steps h).1
    refine ⟨hkeeps, fun w hw => ?_, fun hok => ?_⟩
    · rcases hmem w hw with hw | hw
      · exact (mem_writes_run h hw).imp_right fun ⟨s, _, hs⟩ => ⟨s, hs⟩
      · exact .inr hw
    · have hfirst : (j.run v progress steps).2 = .ok () := hok _ List.mem_cons_self
      have hrest := hall fun r hr => hok r (List.mem_cons_of_mem _ hr)
      change (j.runs v (j.run v progress steps).1 rest).1.writes = _
      rw [hrest, (run_spec _ h).2 hfirst, List.flatten_cons, List.flatMap_append, List.append_assoc]

/-- A history has no failure if each of its steps would succeed alone. -/
theorem runs_eq_ok (lists : List (List Step)) (h : j.KeepsLocated v progress) :
    (∀ r ∈ (j.runs v progress lists).2, r = .ok ()) ↔
      ∀ steps ∈ lists, ∀ s ∈ steps, ∃ writes, j.stepResult v s = .ok writes := by
  induction lists generalizing progress with
  | nil => simp [runs]
  | cons steps rest ih =>
    rw [runs, List.forall_mem_cons, List.forall_mem_cons, run_eq_ok steps h,
      ih (run_spec steps h).1]

/-- The writes of steps depend on which edits are among them. -/
theorem mem_flatMap_congr {all all' : List Step}
    (h : ∀ s, s ≠ .findProject → (s ∈ all ↔ s ∈ all')) :
    w ∈ all.flatMap (j.loneWrites v) ↔ w ∈ all'.flatMap (j.loneWrites v) := by
  have hedit : ∀ s, w ∈ j.loneWrites v s → s ≠ .findProject := by
    rintro s hw rfl
    rw [loneWrites_findProject] at hw
    exact List.not_mem_nil hw
  simp only [List.mem_flatMap]
  exact exists_congr fun s => and_congr_left fun hw => h s (hedit s hw)

/-- **The queue after any history.** The project that is kept, if any, is the one that is located.
Every queued write is the only one that a lone edit of the Podfile queues, or the only one that a
lone edit of the delegate queues. Two histories without a failure that ask for the same edits queue
the same writes. A run that fails has queued the writes of the steps before the one that fails. -/
theorem queued_writes (j : Job) (v : View) (lists : List (List Step)) :
    (∀ p, (j.runs v {} lists).1.project = some p →
        (v.locateProject j.root j.settings.searchOptions).result = .ok p) ∧
      (∀ w ∈ (j.runs v {} lists).1.writes,
        j.loneWrites v .editPodfile = [w] ∨ j.loneWrites v .editDelegate = [w]) ∧
      (∀ lists' : List (List Step), (∀ r ∈ (j.runs v {} lists).2, r = .ok ()) →
        (∀ r ∈ (j.runs v {} lists').2, r = .ok ()) →
        (∀ s, s ≠ .findProject → (s ∈ lists.flatten ↔ s ∈ lists'.flatten)) →
        ∀ w, w ∈ (j.runs v {} lists).1.writes ↔ w ∈ (j.runs v {} lists').1.writes) ∧
      ∀ steps after e, j.run v (j.runs v {} lists).1 steps = (after, .error e) →
        ∃ before s rest, steps = before ++ s :: rest ∧
          (j.run v (j.runs v {} lists).1 before).2 = .ok () ∧
          (j.perform v s (j.run v (j.runs v {} lists).1 before).1).2 = .error e ∧
          after.writes = (j.runs v {} lists).1.writes ++ before.flatMap (j.loneWrites v) := by
  obtain ⟨hkeeps, hmem, hall⟩ := runs_spec lists (keepsLocated_start (j := j) (v := v))
  refine ⟨hkeeps, fun w hw => ?_, fun lists' hok hok' hsame w => ?_, fun steps after e hrun =>
    run_error hkeeps hrun⟩
  · -- every write is one of a step, and a step has one write at most
    rcases hmem w hw with hw | ⟨s, hs⟩
    · cases hw
    have honly := loneWrites_of_mem hs
    cases s with
    | findProject =>
      rw [loneWrites_findProject] at hs
      cases hs
    | editPodfile => exact .inl honly
    | editDelegate => exact .inr honly
  · have hall' := (runs_spec lists' (keepsLocated_start (j := j) (v := v))).2.2 hok'
    rw [hall hok, hall']
    exact mem_flatMap_congr hsame

/-- A project with an empty delegate. Its Podfile can be edited as often as one likes, and a run that
goes on to the delegate fails. -/
theorem queued_writes_app :
    let v := appView []
    let queue := (appJob.runs v {} [[.editPodfile]]).1.writes
    (∀ w, w ∈ queue ↔
        w ∈ (appJob.runs v {} [[.findProject], [.editPodfile, .editPodfile]]).1.writes) ∧
      ∃ after e before s rest, appJob.run v (appJob.runs v {} [[.editPodfile]]).1
          [.editPodfile, .editDelegate] = (after, .error e) ∧
        [Step.editPodfile, .editDelegate] = before ++ s :: rest ∧
        after.writes = queue ++ before.flatMap (appJob.loneWrites v) := by
  intro v queue
  obtain ⟨-, -, hsame, hfail⟩ := queued_writes appJob v [[.editPodfile]]
  have hstart : appJob.KeepsLocated v {} := keepsLocated_start
  have hproject : ∃ writes, appJob.stepResult v .findProject = .ok writes :=
    ⟨[], stepResult_eq_ok.2 ⟨app, locateProject_app [], rfl⟩⟩
  have hpodfile : ∃ writes, appJob.stepResult v .editPodfile = .ok writes :=
    ⟨_, stepResult_eq_ok.2 ⟨app, locateProject_app [],
      (podfileEdit_eq_ok rfl).2 ⟨none, podfileText_app [], rfl⟩⟩⟩
  refine ⟨hsame _ ((runs_eq_ok _ hstart).2 ?_) ((runs_eq_ok _ hstart).2 ?_) fun s hs => ?_,
    ?_⟩
  · simp [hpodfile]
  · simp [hproject, hpodfile]
  · cases s with
    | findProject => exact absurd rfl hs
    | editPodfile => decide
    | editDelegate => decide
  have hdelegate : ¬ ∃ writes, appJob.stepResult v .editDelegate = .ok writes := by
    rintro ⟨writes, hwrites⟩
    obtain ⟨p, hp, hedits⟩ := stepResult_eq_ok.1 hwrites
    obtain rfl := Except.ok.inj (hp.symm.trans (locateProject_app []))
    obtain ⟨content, out, hread, hout, -⟩ := (delegateEdit_eq_ok rfl).1 hedits
    obtain rfl := Except.ok.inj (hread.symm.trans (read_app []))
    have hfails : (appJob.recipe app).install [] = .error (.typeNotFound "App" "App/Start.swift") :=
      rfl
    rw [hfails] at hout
    cases hout
  cases hrun : appJob.run v (appJob.runs v {} [[.editPodfile]]).1 [.editPodfile, .editDelegate] with
  | mk after result =>
    cases result with
    | ok u =>
      have hall := (run_eq_ok [.editPodfile, .editDelegate] (runs_spec _ hstart).1).1 (by rw [hrun])
      exact absurd (hall .editDelegate (by decide)) hdelegate
    | error e =>
      obtain ⟨before, s, rest, hsteps, -, -, hafter⟩ := hfail _ after e hrun
      exact ⟨after, e, before, s, rest, rfl, hsteps, hafter⟩

/-! ## A full run -/

end SdkWiring.Job
