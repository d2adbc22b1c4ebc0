import SdkWiring.Plan.Steps
import SdkWiring.Proofs.Project.Locate

/-!
# Steps

A step works on the project that is located, whether it finds it kept or not. So it does what it does
on a fresh progress: it queues one write at most, or fails.

* `Job.perform_spec`: a step ends as it would alone, and queues what it would queue alone.
* `Job.podfileEdit_eq_ok`, `Job.delegateEdit_eq_ok`: the two writes of an integration.
-/

namespace SdkWiring.Job

variable {j : Job} {v : View} {progress : Progress} {s : Step} {p : Project} {i : Integration}
  {w : PendingWrite} {writes : List PendingWrite} {e : Problem} {t : Text}

/-- The writes that a step queues alone, nothing having happened before. -/
def loneWrites (j : Job) (v : View) (s : Step) : List PendingWrite := (j.perform v s {}).1.writes

/-- No other project is kept than the one that is located. -/
def KeepsLocated (j : Job) (v : View) (progress : Progress) : Prop :=
  ∀ p, progress.project = some p → (v.locateProject j.root j.settings.searchOptions).result = .ok p

theorem keepsLocated_start : j.KeepsLocated v {} := by
  intro p hp
  cases hp

theorem locate_result : (j.locate v).result =
    (v.locateProject j.root j.settings.searchOptions).result := by
  simp only [locate, Traced.result_bind, Traced.result_tell, Traced.result_pure]
  cases (v.locateProject j.root j.settings.searchOptions).result <;> rfl

/-- The project of a run does not depend on whether it is kept already. -/
theorem project_result (h : j.KeepsLocated v progress) :
    (j.project v progress).result = (v.locateProject j.root j.settings.searchOptions).result := by
  unfold project
  cases hp : progress.project with
  | none => exact locate_result
  | some p => exact (h p hp).symm

/-- What a step gives that finds no project kept: its writes, or why it fails. -/
def stepResult (j : Job) (v : View) (s : Step) : Except Problem (List PendingWrite) :=
  (v.locateProject j.root j.settings.searchOptions).result.bind fun p => (j.edits v s p).result

theorem stepResult_eq_ok {s : Step} : j.stepResult v s = .ok writes ↔
    ∃ p, (v.locateProject j.root j.settings.searchOptions).result = .ok p ∧
      (j.edits v s p).result = .ok writes := by
  rw [stepResult]
  cases (v.locateProject j.root j.settings.searchOptions).result with
  | error e => exact ⟨nofun, fun ⟨_, h, _⟩ => nomatch h⟩
  | ok p => exact ⟨fun h => ⟨p, rfl, h⟩, fun ⟨_, hp, h⟩ => Except.ok.inj hp ▸ h⟩

/-- **A step ends as it would alone**, queues what it would queue alone, and keeps the project that
is located. -/
theorem perform_spec (h : j.KeepsLocated v progress) :
    (j.perform v s progress).2 = (j.stepResult v s).map (fun _ => ()) ∧
      (j.perform v s progress).1.writes =
        progress.writes ++ (j.stepResult v s).toOption.getD [] ∧
      j.KeepsLocated v (j.perform v s progress).1 := by
  have hproject := project_result h
  unfold stepResult
  rw [← hproject]
  cases hp : (j.project v progress).result with
  | error e =>
    simp only [perform, hp]
    exact ⟨rfl, (List.append_nil _).symm, h⟩
  | ok p =>
    have hkeeps : ∀ q, some p = some q →
        (v.locateProject j.root j.settings.searchOptions).result = .ok q := by
      intro q hq
      rw [← hproject, hp, Option.some.inj hq]
    cases he : (j.edits v s p).result with
    | error e =>
      simp only [perform, hp, he, Except.bind]
      exact ⟨rfl, (List.append_nil _).symm, hkeeps⟩
    | ok writes =>
      simp only [perform, hp, he, Except.bind]
      exact ⟨rfl, rfl, hkeeps⟩

theorem loneWrites_eq : j.loneWrites v s = (j.stepResult v s).toOption.getD [] :=
  (perform_spec keepsLocated_start).2.1

theorem perform_result (h : j.KeepsLocated v progress) :
    (j.perform v s progress).2 = (j.perform v s {}).2 := by
  rw [(perform_spec h).1, (perform_spec keepsLocated_start).1]

theorem writes_perform (h : j.KeepsLocated v progress) :
    (j.perform v s progress).1.writes = progress.writes ++ j.loneWrites v s := by
  rw [(perform_spec h).2.1, loneWrites_eq]

/-- A step that fails queues nothing. -/
theorem loneWrites_of_error (h : (j.perform v s {}).2 = .error e) : j.loneWrites v s = [] := by
  rw [(perform_spec keepsLocated_start).1] at h
  rw [loneWrites_eq]
  cases hr : j.stepResult v s with
  | error e => rfl
  | ok writes =>
    rw [hr] at h
    cases h

theorem loneWrites_findProject : j.loneWrites v .findProject = [] := by
  rw [loneWrites_eq, stepResult]
  cases (v.locateProject j.root j.settings.searchOptions).result <;> rfl

/-- A step queues one write at most. -/
theorem length_edits {p : Project} {writes : List PendingWrite}
    (h : (j.edits v s p).result = .ok writes) : writes.length ≤ 1 := by
  cases s with
  | findProject =>
    obtain rfl := Except.ok.inj h
    exact Nat.zero_le 1
  | editPodfile =>
    simp only [edits, podfileEdit, Traced.bind_eq_ok] at h
    obtain ⟨previous, -, h⟩ := h
    cases hop : j.operation with
    | integrate i =>
      rw [hop] at h
      cases previous <;> obtain rfl := Except.ok.inj h <;> exact Nat.le_refl 1
    | remove =>
      rw [hop] at h
      cases previous <;> obtain rfl := Except.ok.inj h <;> simp
  | editDelegate =>
    simp only [edits, delegateEdit, Traced.bind_eq_ok] at h
    obtain ⟨previous, -, out, -, -, -, h⟩ := h
    obtain rfl := Except.ok.inj h
    exact Nat.le_refl 1

/-- A write that an edit step queues is the only one that it queues. -/
theorem loneWrites_of_mem (h : w ∈ j.loneWrites v s) : j.loneWrites v s = [w] := by
  have hlength : (j.loneWrites v s).length ≤ 1 := by
    rw [loneWrites_eq, stepResult]
    cases hp : (v.locateProject j.root j.settings.searchOptions).result with
    | error e => exact Nat.zero_le 1
    | ok p =>
      simp only [Except.bind]
      cases hr : (j.edits v s p).result with
      | error e => exact Nat.zero_le 1
      | ok writes => exact length_edits hr
  obtain ⟨x, hx⟩ := List.length_eq_one_iff.1 (Nat.le_antisymm hlength (List.length_pos_of_mem h))
  rw [hx] at h ⊢
  rw [List.mem_singleton.1 h]

/-! ## The writes of an integration -/

/-- **The write of an integration to the Podfile.** -/
theorem podfileEdit_eq_ok (hop : j.operation = .integrate i) :
    (j.edits v .editPodfile p).result = .ok writes ↔
      ∃ previous, podfileText v p = .ok previous ∧ writes = [⟨p.podfile, previous,
        Podfile.addPods (j.startingPodfile p previous) p.name.toList i.pods⟩] := by
  simp only [edits, podfileEdit, Traced.bind_eq_ok, Traced.result_ofExcept, hop]
  refine exists_congr fun previous => and_congr_right fun _ => ?_
  cases previous <;> simp [Except.bind, eq_comm]

theorem mapError_eq_ok {ε ε' α : Type} {x : Except ε α} {f : ε → ε'} {a : α} :
    x.mapError f = .ok a ↔ x = .ok a := by
  cases x <;> simp [Except.mapError]

/-- **The write of an integration to the delegate.** -/
theorem delegateEdit_eq_ok (hop : j.operation = .integrate i) :
    (j.edits v .editDelegate p).result = .ok writes ↔
      ∃ content out, v.read p.delegate = .ok content ∧ (j.recipe p).install content = .ok out ∧
        writes = [⟨p.delegate, some content, out.content⟩] := by
  simp only [edits, delegateEdit, Traced.bind_eq_ok, Traced.result_ofExcept, Traced.result_tell,
    Traced.result_pure, outcome, hop, mapError_eq_ok]
  refine exists_congr fun content => ?_
  simp [eq_comm]

/-! ## A small project -/

/-- A run that integrates into the small project. -/
def appJob : Job where
  root := ⟨["App.xcodeproj"]⟩
  operation := .integrate (.ofServices ['k'] [.crashes])
  settings :=
    { typeName := "App".toList
      methodName := "run".toList
      swiftIndent := some ['\t']
      delegateNames := ["*".toList]
      disableGitignore := true }

theorem locateProject_app (delegate : Text) :
    ((appView delegate).locateProject appJob.root appJob.settings.searchOptions).result = .ok app :=
  View.locateProject_eq_ok.2 ⟨_, _, located_app delegate⟩

theorem leads_app (delegate : Text) :
    (appView delegate).Leads app.delegate ["App", "Start.swift"] :=
  ⟨app.sources, "Start.swift", ["App"], rfl, by decide, rfl, rfl⟩

theorem podfile_app (delegate : Text) : (appView delegate).Leads app.podfile ["Podfile"] :=
  ⟨app.root, "Podfile", [], rfl, isProper_podfile, rfl, rfl⟩

theorem read_app (delegate : Text) : (appView delegate).read app.delegate = .ok delegate :=
  ((leads_app delegate).read (linkFree_app delegate) rfl).2

theorem podfileText_app (delegate : Text) : podfileText (appView delegate) app = .ok none := by
  have hfind : (appView delegate).find app.podfile = .error .notFound := by
    rw [(podfile_app delegate).find (linkFree_app delegate)]
    rfl
  rw [podfileText, View.isFile, hfind]
  rfl

end SdkWiring.Job
