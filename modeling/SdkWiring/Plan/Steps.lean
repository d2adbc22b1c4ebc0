import SdkWiring.Delegate.Wiring
import SdkWiring.Operation
import SdkWiring.Plan.Write
import SdkWiring.Podfile.Pods
import SdkWiring.Project.Locate
import SdkWiring.Text.Quoted

/-!
# Steps of a run

A run is a list of steps that only read. Every file that a step wants to change is queued, and
written only when all steps have succeeded.

* `Job.edits`: the writes that a step queues for a project, which depend on nothing else.
* `Job.perform`: a step, with the project located on first use and kept.
* `Job.run`: steps in order, up to the first that fails. What was queued before stays queued.
* `Job.plan`: a full run.
-/

namespace SdkWiring

/-- A step of a run. -/
inductive Step
  | findProject
  | editPodfile
  | editDelegate
  deriving DecidableEq, Repr

namespace Step

/-- The steps of a full run, in order. -/
def all : List Step := [findProject, editPodfile, editDelegate]

/-- The name of a step. -/
def name : Step → String
  | findProject => "find project paths"
  | editPodfile => "edit Podfile"
  | editDelegate => "edit AppDelegate"

/-- The step with a name. -/
def ofName? (name : String) : Option Step := all.find? fun s => s.name == name

end Step

/-- What shall be done, and where. -/
structure Job where
  root : Path
  operation : Operation
  settings : Settings := {}
  deriving DecidableEq, Repr

/-- How far a run has come. -/
structure Progress where
  project : Option Project := none
  writes : List PendingWrite := []
  events : List Event := []
  deriving DecidableEq, Repr

namespace Podfile

/-- The events of adding a pod. -/
def addEvents (content target pod : Text) : List Event :=
  match placement content target pod with
  | .listed => []
  | .inTarget _ =>
    [⟨.debug, .podfile, "adding pod to target",
      [("pod", Text.quoted pod), ("target", Text.quoted target)]⟩]
  | .atEnd =>
    [⟨.debug, .podfile, "no target block found, appending pod", [("pod", Text.quoted pod)]⟩]

/-- The events of adding several pods. -/
def addAllEvents (content target : Text) : List Text → List Event
  | [] => []
  | pod :: rest =>
    addEvents content target pod ++ addAllEvents (addPod content target pod) target rest

/-- The events of taking several pods out. -/
def removeAllEvents (content : Text) : List Text → List Event
  | [] => []
  | pod :: rest =>
    (match podLines content pod with
      | [] => []
      | lines =>
        [⟨.debug, .podfile, "removing pod",
          [("pod", Text.quoted pod), ("lines", toString lines.length)]⟩])
      ++ removeAllEvents (withoutPod content pod) rest

end Podfile

namespace Job

/-- The project of a job. -/
def locate (j : Job) (v : View) : Traced Project := do
  let project ← v.locateProject j.root j.settings.searchOptions
  Traced.tell [⟨.info, .plan, "found Xcode project",
    [("name", project.name), ("app_delegate", project.delegate.text)]⟩]
  return project

/-- The text of the Podfile, if there is one. -/
def podfileText (v : View) (p : Project) : Except Problem (Option Text) :=
  if v.isFile p.podfile then
    match v.read p.podfile with
    | .ok t => .ok (some t)
    | .error f => .error (.file f)
  else .ok none

/-- The Podfile that an integration starts from. -/
def startingPodfile (j : Job) (p : Project) (previous : Option Text) : Text :=
  previous.getD (Podfile.initial p.name.toList j.settings.platform .lf)

/-- The write that the Podfile needs. -/
def podfileEdit (j : Job) (v : View) (p : Project) : Traced (List PendingWrite) := do
  let previous ← Traced.ofExcept (podfileText v p)
  match j.operation with
  | .integrate i =>
    let start := j.startingPodfile p previous
    let target := p.name.toList
    if previous.isNone then
      Traced.tell [⟨.info, .plan, "creating Podfile", [("path", p.podfile.text)]⟩]
    Traced.tell (Podfile.addAllEvents start target i.pods)
    return [⟨p.podfile, previous, Podfile.addPods start target i.pods⟩]
  | .remove =>
    match previous with
    | none => return []
    | some t =>
      Traced.tell (Podfile.removeAllEvents t Service.allPods)
      return [⟨p.podfile, previous, Podfile.withoutPods t Service.allPods⟩]

/-- The recipe for the delegate of a project. -/
def recipe (j : Job) (p : Project) : Recipe :=
  let base :=
    match j.operation with
    | .integrate i => Recipe.forIntegration p.language i
    | .remove => Recipe.forRemoval p.language
  { base with
    typeName := j.settings.typeName
    methodName := j.settings.methodName
    indent := j.settings.indent p.language
    sourceName := p.delegate.shownFrom j.root }

/-- What an operation makes of a delegate. -/
def outcome (j : Job) (p : Project) (content : Text) : Except Problem Outcome :=
  match j.operation with
  | .integrate _ => (j.recipe p).install content
  | .remove => (j.recipe p).uninstall content

/-- The events of editing a delegate. -/
def delegateEvents (j : Job) (p : Project) (o : Outcome) : List Event :=
  let language := ("language", p.language.tag)
  let added := toString o.importsAdded.length
  let removed := toString o.importsRemoved.length
  let calls := toString o.callsRemoved
  [match j.operation with
    | .integrate _ =>
      ⟨.debug, .delegate, "injecting start call",
        [language, ("replaced", calls), ("imports", added)]⟩
    | .remove =>
      ⟨.debug, .delegate, "removing start call",
        [language, ("calls", calls), ("imports", removed)]⟩,
    ⟨.debug, .plan, "edited application delegate",
      [("imports_added", added), ("imports_removed", removed), ("calls_removed", calls)]⟩]

/-- The write that the delegate needs. -/
def delegateEdit (j : Job) (v : View) (p : Project) : Traced (List PendingWrite) := do
  let previous ← Traced.ofExcept ((v.read p.delegate).mapError Problem.file)
  let o ← Traced.ofExcept (j.outcome p previous)
  Traced.tell (j.delegateEvents p o)
  return [⟨p.delegate, some previous, o.content⟩]

/-- The writes that a step queues for a project. -/
def edits (j : Job) (v : View) (s : Step) (p : Project) : Traced (List PendingWrite) :=
  match s with
  | .findProject => pure []
  | .editPodfile => j.podfileEdit v p
  | .editDelegate => j.delegateEdit v p

/-- The project of a run: the one that is kept, or else the one that is located. -/
def project (j : Job) (v : View) (progress : Progress) : Traced Project :=
  match progress.project with
  | some p => pure p
  | none => j.locate v

/-- The event that a step starts. -/
def stepEvent (s : Step) : Event :=
  ⟨.debug, .plan, "running step", [("step", Text.quoted s.name.toList)]⟩

/-- A run after a step. -/
def perform (j : Job) (v : View) (s : Step) (progress : Progress) :
    Progress × Except Problem Unit :=
  let found := j.project v progress
  let events := progress.events ++ stepEvent s :: found.events
  match found.result with
  | .error e => ({ progress with events }, .error e)
  | .ok p =>
    let edits := j.edits v s p
    let events := events ++ edits.events
    match edits.result with
    | .error e => ({ progress with project := some p, events }, .error e)
    | .ok writes => (⟨some p, progress.writes ++ writes, events⟩, .ok ())

/-- A run after several steps, up to the first that fails. -/
def run (j : Job) (v : View) (progress : Progress) : List Step → Progress × Except Problem Unit
  | [] => (progress, .ok ())
  | s :: rest =>
    match j.perform v s progress with
    | (progress, .error e) => (progress, .error e)
    | (progress, .ok ()) => j.run v progress rest

end Job

/-- What a full run wants to write. -/
structure Plan where
  project : Project
  writes : List PendingWrite
  deriving DecidableEq, Repr

/-- A full run, nothing being written. -/
def Job.plan (j : Job) (v : View) : Traced Plan :=
  match j.run v {} Step.all with
  | (progress, .error e) => ⟨progress.events, .error e⟩
  | (progress, .ok ()) =>
    let found := j.project v progress
    ⟨progress.events ++ found.events, found.result.map fun p => ⟨p, progress.writes⟩⟩

namespace Plan

/-- The writes that change something. -/
def changed (p : Plan) : List PendingWrite := p.writes.filter PendingWrite.isChanged

/-- The view after a plan was carried out, and the number of files written. -/
def apply (p : Plan) (stamp : String) (v : View) : View × Traced Nat :=
  let (v, done) := installAll stamp v p.changed
  (v, ⟨done.events, done.result.map fun _ => p.changed.length⟩)

end Plan

end SdkWiring
