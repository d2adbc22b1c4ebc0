import SdkWiring.Plan.Steps
import SdkWiring.Proofs.Files.Parents
import SdkWiring.Proofs.Files.Prefix
import SdkWiring.Proofs.Project.Locate

/-!
# Carrying a plan out

The files that a plan changes are written one after the other, and the first failure ends it. Whatever
the tree holds by then, a first part of the writes is carried out and all else is as it was.

* `temporary_dots`: the name of a temporary file has no two dots if the path of the file has none.
* `View.Installed`: what is left of several writes.
* `Plan.apply_written`, `Plan.apply_prefix`: what is left of a plan.
-/

namespace SdkWiring

variable {v v' : View} {p q : Path} {name piece : Name} {w : PendingWrite} {ws : List PendingWrite}
  {stamp : String} {plan : Plan}

/-! ## Names of temporary files -/

/-- **The path of a temporary file** has no two dots if that of the file has none. -/
theorem temporary_dots (h : ".." ∉ w.path.pieces) (stamp : String) :
    ".." ∉ (w.temporary stamp).pieces := by
  have hname : ".." ≠ "." ++ w.path.fileName?.getD "" ++ ".tmp-" ++ stamp :=
    (isProper_temporary _ stamp).2.symm
  rw [PendingWrite.temporary, Path.withFileName]
  split
  · rename_i hparent
    intro hmem
    rcases mem_join hmem with hmem | heq
    · rcases mem_parent? hparent hmem with hmem | hempty
      · exact h hmem
      · exact absurd hempty (by decide)
    · exact hname heq
  · intro hmem
    rcases mem_join hmem with hmem | heq
    · exact h hmem
    · exact hname heq

namespace View

/-! ## What is left of several writes -/

/-- What several writes leave: each path is a file with its content now, and every other entry of the
tree is as before. -/
structure Installed (v v' : View) (ws : List PendingWrite) : Prop where
  here : v'.here = v.here
  written : ∀ w ∈ ws, ∃ l, v.locate .entry w.path = .ok l ∧ v'.locate .entry w.path = .ok l ∧
    v'.tree.get? l = some (.file (.text w.content))
  others : ∀ l, (∀ w ∈ ws, v.locate .entry w.path ≠ .ok l) → v'.tree.get? l = v.tree.get? l

theorem Written.installed (h : Written v v' ws) (hv : v.Sound) (hlinks : v.tree.FileLinksOnly) :
    Installed v v' ws := by
  refine ⟨h.here, fun w hw => ?_, fun l hl => h.others l fun w hw hentry => ?_⟩
  · obtain ⟨l, hl, hget⟩ := h.written w hw
    exact ⟨l, (locate_entry hv hlinks).2 hl,
      (locate_entry h.sound h.fileLinks).2 ((h.entry_eq _).trans hl), hget⟩
  · exact hl w hw ((locate_entry hv hlinks).2 hentry)

/-- Paths without two dots that stand for different places name different entries. -/
theorem apart_of_named (hp : ".." ∉ p.pieces) (hq : ".." ∉ q.pieces) (h : v.named p ≠ v.named q) :
    v.Apart p q := by
  intro l hpl hql
  exact h ((named_of_entry hp hpl).symm.trans (named_of_entry hq hql))

end View

namespace Plan

/-- The files that a plan changes are written one after the other. -/
theorem apply_result (plan : Plan) (stamp : String) (v : View) : (plan.apply stamp v).2.result =
    (installAll stamp v plan.changed).2.result.map fun _ => plan.changed.length := rfl

/-- **Carrying a plan out** is carrying out a first part of what it changes, all of it just if no
write fails. -/
theorem apply_written (hv : v.Sound) (hlinks : v.tree.FileLinksOnly)
    (hpaths : plan.changed.Pairwise fun w x => v.Apart w.path x.path)
    (hfresh : ∀ w ∈ plan.changed, v.Fresh stamp w)
    (htemporary : plan.changed.Pairwise fun w x => v.Apart w.path (x.temporary stamp)) :
    ∃ done, View.Written v (plan.apply stamp v).1 (plan.changed.take done) ∧
      (done = plan.changed.length ∧ (plan.apply stamp v).2.result = .ok plan.changed.length ∨
        done < plan.changed.length ∧ ∃ e, (plan.apply stamp v).2.result = .error e) := by
  rcases View.installAll_spec hv hlinks hpaths hfresh htemporary with ⟨hok, hw⟩ |
    ⟨e, done, herror, hlength, hw⟩
  · refine ⟨plan.changed.length, by rwa [List.take_length], .inl ⟨rfl, ?_⟩⟩
    rw [apply_result, hok]
    rfl
  · refine ⟨done, hw, .inr ⟨hlength, e, ?_⟩⟩
    rw [apply_result, herror]
    rfl

/-- **What is left of a plan**, whatever the tree holds by then. If no two of its writes are to one
place and there are no files with the names of the temporary ones, a first part of the writes that
change something is carried out, all of them just if no write fails. Nothing else changes: neither
what the other writes are to, nor is a temporary file left. -/
theorem apply_prefix (hv : v.Sound) (hlinks : v.tree.FileLinksOnly)
    (hdots : ∀ w ∈ plan.writes, ".." ∉ w.path.pieces)
    (hpaths : plan.writes.Pairwise fun w x => v.named w.path ≠ v.named x.path)
    (hunused : ∀ w ∈ plan.changed, v.tree.get? (v.named (w.temporary stamp)) = none)
    (htemporary : plan.changed.Pairwise fun w x => v.named w.path ≠ v.named (x.temporary stamp)) :
    ∃ done, View.Installed v (plan.apply stamp v).1 (plan.changed.take done) ∧
      (∀ w ∈ plan.changed.drop done, ∀ l, v.locate .entry w.path = .ok l →
        (plan.apply stamp v).1.tree.get? l = v.tree.get? l) ∧
      (∀ w ∈ plan.changed, (∀ x ∈ plan.changed, v.named x.path ≠ v.named (w.temporary stamp)) →
        (plan.apply stamp v).1.tree.get? (v.named (w.temporary stamp)) = none) ∧
      (done = plan.changed.length ∧ (plan.apply stamp v).2.result = .ok plan.changed.length ∨
        done < plan.changed.length ∧ ∃ e, (plan.apply stamp v).2.result = .error e) := by
  have hmem : ∀ w ∈ plan.changed, ".." ∉ w.path.pieces := fun w hw =>
    hdots w (List.mem_filter.1 hw).1
  have hnamed : plan.changed.Pairwise fun w x => v.named w.path ≠ v.named x.path :=
    hpaths.sublist List.filter_sublist
  -- without steps back, paths of different names lead to different entries
  have hapart : plan.changed.Pairwise fun w x => v.Apart w.path x.path :=
    hnamed.imp_of_mem fun hw hx h => View.apart_of_named (hmem _ hw) (hmem _ hx) h
  have hclear : plan.changed.Pairwise fun w x => v.Apart w.path (x.temporary stamp) :=
    htemporary.imp_of_mem fun hw hx h =>
      View.apart_of_named (hmem _ hw) (temporary_dots (hmem _ hx) stamp) h
  have hfresh : ∀ w ∈ plan.changed, v.Fresh stamp w := by
    intro w hw k hk
    rw [View.named_of_entry (temporary_dots (hmem w hw) stamp) hk]
    exact hunused w hw
  obtain ⟨done, hwritten, hend⟩ := apply_written hv hlinks hapart hfresh hclear
  have hinstalled := hwritten.installed hv hlinks
  refine ⟨done, hinstalled, fun w hw l hl => ?_, fun w hw hno => ?_, hend⟩
  · -- what is still to be written is to other entries
    rw [← List.take_append_drop done plan.changed] at hapart
    have hothers := (List.pairwise_append.1 hapart).2.2
    refine hinstalled.others l fun x hx hxl => ?_
    exact hothers x hx w hw l ((View.locate_entry hv hlinks).1 hxl)
      ((View.locate_entry hv hlinks).1 hl)
  · rw [hinstalled.others _ fun x hx hxl => ?_]
    · exact hunused w hw
    · have hxmem := List.mem_of_mem_take hx
      have hentry := (View.locate_entry hv hlinks).1 hxl
      exact hno x hxmem (View.named_of_entry (hmem x hxmem) hentry).symm

/-- A view with a Podfile that is a link to another file, and a directory where a delegate could be. -/
def linkView : View where
  tree := ⟨[(["Podfile"], .link ⟨["Shared"]⟩), (["Shared"], .file (.text ['a'])),
    (["Start.swift"], .directory)]⟩

/-- A plan that changes both. -/
def linkPlan : Plan where
  project := app
  writes := [⟨⟨["Podfile"]⟩, some ['a'], ['b']⟩, ⟨⟨["Start.swift"]⟩, none, ['c']⟩]

theorem sound_linkView : linkView.Sound where
  tree :=
    { nodup := by simp [linkView]
      ne_nil := by simp [linkView]
      proper := by
        simp only [linkView, List.forall_mem_cons, List.not_mem_nil, false_implies, implies_true,
          and_true]
        decide
      parent := by simp [linkView, Tree.get?] }
  here := rfl

theorem fileLinksOnly_linkView : linkView.tree.FileLinksOnly := by
  intro here name target links d hlink hd
  have hmem := Tree.mem_of_get? hlink (by simp)
  obtain ⟨⟨rfl, -⟩, rfl⟩ : (here = [] ∧ name = "Podfile") ∧ target = ⟨["Shared"]⟩ := by
    simpa [linkView, List.append_eq_cons_iff] using hmem
  have hshared : linkView.tree.get? ["Shared"] = some (.file (.text ['a'])) := rfl
  have hproper : Path.isIdle "Shared" = false ∧ "Shared" ≠ ".." := by decide
  rw [ite_self, Tree.resolve, hproper.1, if_neg Bool.false_ne_true, if_neg hproper.2,
    List.nil_append, hshared] at hd
  obtain rfl : ["Shared"] = d := Except.ok.inj hd
  simp [hshared]

/-- The link is replaced or stays; the file that it leads to stays in any case. -/
theorem apply_prefix_link :
    (linkPlan.apply "1" linkView).1.tree.get? ["Shared"] = some (.file (.text ['a'])) := by
  have hdots : ∀ w ∈ linkPlan.writes, ".." ∉ w.path.pieces := by decide
  have hplaces : ∀ w ∈ linkPlan.writes, linkView.named w.path ≠ ["Shared"] := by decide
  have hunused : ∀ w ∈ linkPlan.changed,
      linkView.tree.get? (linkView.named (w.temporary "1")) = none := by decide
  obtain ⟨done, hinstalled, -⟩ := apply_prefix sound_linkView fileLinksOnly_linkView hdots
    (by decide) hunused (by decide)
  refine (hinstalled.others _ fun w hw hlocate => ?_).trans rfl
  have hentry := (View.locate_entry sound_linkView fileLinksOnly_linkView).1 hlocate
  have hmem := (List.mem_filter.1 (List.mem_of_mem_take hw)).1
  exact hplaces w hmem (View.named_of_entry (hdots w hmem) hentry).symm

end Plan

end SdkWiring
