import SdkWiring.Proofs.Files.Entry
import SdkWiring.Proofs.Files.Install

/-!
# Writes that stop

A write replaces the entry that its path names by a file, or leaves everything as it was. So several
writes, the first failure ending them, are a first part of them carried out, and nothing else.

* `View.Written`: a view after writes, all other entries being as before.
* `View.install_spec`: one write.
* `View.installAll_spec`: several writes.
-/

namespace SdkWiring

namespace View

variable {v v' v'' : View} {p : Path} {k l m : Location} {c : Content} {w x : PendingWrite}
  {ws : List PendingWrite} {stamp : String}

/-- A view after writes: what they name are files with their contents, and all else is as before. -/
structure Written (v v' : View) (ws : List PendingWrite) : Prop where
  sound : v'.Sound
  fileLinks : v'.tree.FileLinksOnly
  here : v'.here = v.here
  directories : v.tree.SameDirectories v'.tree
  written : ∀ w ∈ ws, ∃ l, v.entry w.path = some l ∧
    v'.tree.get? l = some (.file (.text w.content))
  others : ∀ l, (∀ w ∈ ws, v.entry w.path ≠ some l) → v'.tree.get? l = v.tree.get? l

/-! ## Single changes -/

/-- A file put where no directory is leaves a view sound. -/
theorem Sound.put (hv : v.Sound) (h : v.entry p = some l) (hnot : v.tree.get? l ≠ some .directory)
    (c : Content) : (v.put l (.file c)).Sound := by
  obtain ⟨d, name, rfl, hname, hd⟩ := (entry_cases hv h).resolve_left hnot
  refine ⟨hv.tree.set hd hname hnot _, ?_⟩
  have hne : v.here ≠ d ++ [name] := fun heq => hnot (heq ▸ hv.here)
  rw [put, Tree.get?_set v.tree _ (by simp), if_neg hne, hv.here]

theorem get?_put (hnot : v.tree.get? l ≠ some .directory) (n : Node) (m : Location) :
    (v.put l n).tree.get? m = if m = l then some n else v.tree.get? m := by
  refine Tree.get?_set v.tree n ?_ m
  rintro rfl
  exact hnot (Tree.get?_nil _)

/-- A view that differs in nothing. -/
theorem Written.nil (hlinks : v.tree.FileLinksOnly) (hv' : v'.Sound) (hhere : v'.here = v.here)
    (hget : ∀ m, v'.tree.get? m = v.tree.get? m) : Written v v' [] := by
  have hdirs : v.tree.SameDirectories v'.tree := fun m => by rw [hget]
  exact ⟨hv', hlinks.mono hdirs fun m target h => hget m ▸ h, hhere, hdirs, by simp,
    fun m _ => hget m⟩

/-- A view that differs in one file. -/
theorem Written.single (hlinks : v.tree.FileLinksOnly) (hv' : v'.Sound) (hhere : v'.here = v.here)
    (h : v.entry w.path = some l) (hnot : v.tree.get? l ≠ some .directory)
    (hget : ∀ m, v'.tree.get? m =
      if m = l then some (.file (.text w.content)) else v.tree.get? m) : Written v v' [w] := by
  have hdirs : v.tree.SameDirectories v'.tree := by
    intro m
    rw [hget]
    split
    · rename_i hm
      exact iff_of_false nofun (hm ▸ hnot)
    · rfl
  refine ⟨hv', hlinks.mono hdirs fun m target htarget => ?_, hhere, hdirs, ?_, fun m hm => ?_⟩
  · rw [hget] at htarget
    split at htarget
    · cases htarget
    · exact htarget
  · rw [List.forall_mem_singleton]
    exact ⟨l, h, by rw [hget, if_pos rfl]⟩
  · have hne : m ≠ l := fun heq => hm w (List.mem_singleton_self w) (heq ▸ h)
    rw [hget, if_neg hne]

/-! ## One write -/

/-- The temporary file of a write is put where nothing is. -/
def Fresh (v : View) (stamp : String) (w : PendingWrite) : Prop :=
  ∀ k, v.entry (w.temporary stamp) = some k → v.tree.get? k = none

section Temporary

variable (hv : v.Sound) (hlinks : v.tree.FileLinksOnly) (htemp : v.entry p = some k)
  (hnone : v.tree.get? k = none)

include hnone in
theorem get?_put_new (n : Node) (m : Location) :
    (v.put k n).tree.get? m = if m = k then some n else v.tree.get? m :=
  get?_put (by rw [hnone]; nofun) n m

include hv hlinks htemp hnone in
/-- A view with a new file. -/
theorem sound_put (c : Content) : (v.put k (.file c)).Sound ∧
    (v.put k (.file c)).tree.FileLinksOnly ∧ v.tree.SameDirectories (v.put k (.file c)).tree := by
  have hget := get?_put_new hnone (.file c)
  have hdirs : v.tree.SameDirectories (v.put k (.file c)).tree := by
    intro m
    rw [hget]
    split
    · rename_i hm
      rw [hm, hnone]
      exact iff_of_false nofun nofun
    · rfl
  refine ⟨hv.put htemp (by rw [hnone]; nofun) c, hlinks.mono hdirs fun m target htarget => ?_, hdirs⟩
  rw [hget] at htarget
  split at htarget
  · cases htarget
  · exact htarget

/-- The view without a file that was put. -/
def cleaned (v : View) (k : Location) (c : Content) : View :=
  ⟨(v.put k (.file c)).tree.remove k, v.here⟩

include hv hlinks htemp hnone in
/-- Without the new file the view is as it was. -/
theorem sound_cleaned (c : Content) : (v.cleaned k c).Sound ∧
    ∀ m, (v.cleaned k c).tree.get? m = v.tree.get? m := by
  obtain ⟨hsound, -, -⟩ := sound_put hv hlinks htemp hnone c
  have hget := get?_put_new hnone (.file c)
  have hfile : (v.put k (.file c)).tree.get? k ≠ some .directory := by
    rw [hget, if_pos rfl]
    nofun
  have hgone : ∀ m, (v.cleaned k c).tree.get? m = v.tree.get? m := by
    intro m
    rw [cleaned, hsound.tree.get?_remove_eq hfile, hget]
    split
    · rename_i hm
      rw [hm, hnone]
    · rfl
  exact ⟨⟨hsound.tree.remove hfile, (hgone _).trans hv.here⟩, hgone⟩

include hv hlinks htemp hnone

/-- The new file is taken away. -/
theorem remove_put (c : Content) : (v.put k (.file c)).remove p = .ok (v.cleaned k c) := by
  obtain ⟨-, -, hdirs⟩ := sound_put hv hlinks htemp hnone c
  have hentry : (v.put k (.file c)).entry p = some k := (entry_congr hdirs rfl p).trans htemp
  have hlocate : (v.put k (.file c)).locate .entry p = .ok k :=
    locate_of_entry hentry (by decide) (.inl rfl)
  have hsome : ((v.put k (.file c)).tree.get? k).isSome := by
    rw [get?_put_new hnone, if_pos rfl]
    rfl
  rw [remove, hlocate]
  exact if_pos hsome

/-- The new file is moved onto the entry that a path names, unless that is a directory. -/
theorem rename_put (c : Content) (q : Path) :
    (∃ l, v.entry q = some l ∧ v.tree.get? l ≠ some .directory ∧
      (v.put k (.file c)).rename p q = .ok ((v.cleaned k c).put l (.file c))) ∨
    ∃ f, (v.put k (.file c)).rename p q = .error f := by
  obtain ⟨hsound, hfileLinks, hdirs⟩ := sound_put hv hlinks htemp hnone c
  have hentry : ∀ r, (v.put k (.file c)).entry r = v.entry r := entry_congr hdirs rfl
  have hsource : (v.put k (.file c)).locate .entry p = .ok k :=
    locate_of_entry ((hentry p).trans htemp) (by decide) (.inl rfl)
  have hfile : (v.put k (.file c)).tree.get? k = some (.file c) := by
    rw [get?_put_new hnone, if_pos rfl]
  cases hpath : v.entry q with
  | none =>
    obtain ⟨f, hf⟩ : ∃ f, (v.put k (.file c)).locate .entry q = .error f :=
      locate_error hsound hfileLinks ((hentry q).trans hpath)
    refine .inr ⟨f, ?_⟩
    rw [rename, hsource, hf]
    rfl
  | some l =>
    have htarget : (v.put k (.file c)).locate .entry q = .ok l :=
      locate_of_entry ((hentry q).trans hpath) (by decide) (.inl rfl)
    have hrename : (v.put k (.file c)).rename p q =
        if (v.put k (.file c)).tree.get? l = some .directory then .error .isDirectory
        else .ok ((v.cleaned k c).put l (.file c)) := by
      simp only [rename, hsource, htarget, bind, Except.bind, hfile]
      rfl
    by_cases hnot : v.tree.get? l = some .directory
    · exact .inr ⟨.isDirectory, hrename.trans (if_pos ((hdirs l).2 hnot))⟩
    · exact .inl ⟨l, rfl, hnot, hrename.trans (if_neg ((hdirs l).not.2 hnot))⟩

end Temporary

/-- **One write** is carried out, or changes nothing. -/
theorem install_spec (hv : v.Sound) (hlinks : v.tree.FileLinksOnly) (hfresh : v.Fresh stamp w) :
    ((w.install stamp v).2 = .ok () ∧ Written v (w.install stamp v).1 [w]) ∨
      ∃ f, (w.install stamp v).2 = .error f ∧ Written v (w.install stamp v).1 [] := by
  set c : Content := .text w.content with hc
  rw [PendingWrite.install]
  cases htemp : v.entry (w.temporary stamp) with
  | none =>
    -- the temporary file cannot be written
    obtain ⟨f, hf⟩ : ∃ f, v.locate .writable (w.temporary stamp) = .error f :=
      locate_error hv hlinks htemp
    have hwrite : v.write (w.temporary stamp) c = .error f := by
      rw [write, hf]
      rfl
    rw [hwrite]
    exact .inr ⟨f, rfl, .nil hlinks hv rfl fun _ => rfl⟩
  | some k =>
    have hnone := hfresh k htemp
    have hlocate : v.locate .writable (w.temporary stamp) = .ok k :=
      locate_of_entry htemp (by decide) (.inr fun target => by simp [hnone])
    have hwrite : v.write (w.temporary stamp) c = .ok (v.put k (.file c)) := by
      rw [write, hlocate]
      exact if_neg (by simp [hnone])
    obtain ⟨hcleaned, hgone⟩ := sound_cleaned hv hlinks htemp hnone c
    rw [hwrite]
    rcases rename_put hv hlinks htemp hnone c w.path with ⟨l, hpath, hnot, hrename⟩ | ⟨f, hrename⟩
    · -- the file takes its place
      have hdirs : v.tree.SameDirectories (v.cleaned k c).tree := fun m => by rw [hgone]
      have hpath' : (v.cleaned k c).entry w.path = some l := (entry_congr hdirs rfl _).trans hpath
      have hnot' : (v.cleaned k c).tree.get? l ≠ some .directory := (hdirs l).not.2 hnot
      simp only [hrename]
      refine .inl ⟨trivial, .single hlinks (hcleaned.put hpath' hnot' c) rfl hpath hnot fun m => ?_⟩
      rw [get?_put hnot', hgone]
    · -- the temporary file is taken away again
      simp only [hrename, remove_put hv hlinks htemp hnone c]
      exact .inr ⟨f, rfl, .nil hlinks hcleaned rfl hgone⟩

/-! ## Several writes -/

/-- Two writes are to different entries. -/
def Apart (v : View) (p q : Path) : Prop := ∀ l, v.entry p = some l → v.entry q ≠ some l

theorem Apart.symm {q : Path} (h : v.Apart p q) : v.Apart q p := fun l hq hp => h l hp hq

namespace Written

theorem entry_eq (h : Written v v' ws) (q : Path) : v'.entry q = v.entry q :=
  entry_congr h.directories h.here q

/-- Writes one after the other, if none is to the entry of the first one. -/
theorem cons (h : Written v v' [w]) (h' : Written v' v'' ws)
    (hapart : ∀ x ∈ ws, v.Apart w.path x.path) : Written v v'' (w :: ws) := by
  refine ⟨h'.sound, h'.fileLinks, h'.here.trans h.here,
    fun m => (h'.directories m).trans (h.directories m), ?_, fun m hm => ?_⟩
  · obtain ⟨l, hl, hget⟩ := h.written w (List.mem_singleton_self w)
    refine List.forall_mem_cons.2 ⟨⟨l, hl, ?_⟩, fun x hx => ?_⟩
    · rw [h'.others l fun x hx => h.entry_eq x.path ▸ hapart x hx l hl, hget]
    · rw [← h.entry_eq]
      exact h'.written x hx
  · rw [h'.others m fun x hx => h.entry_eq x.path ▸ hm x (List.mem_cons_of_mem _ hx),
      h.others m fun x hx => List.mem_singleton.1 hx ▸ hm w List.mem_cons_self]

end Written

/-- **Several writes**: all of them are carried out, or a first part of them and nothing else. -/
theorem installAll_spec (hv : v.Sound) (hlinks : v.tree.FileLinksOnly)
    (hpaths : ws.Pairwise fun w x => v.Apart w.path x.path)
    (hfresh : ∀ w ∈ ws, v.Fresh stamp w)
    (htemporary : ws.Pairwise fun w x => v.Apart w.path (x.temporary stamp)) :
    ((installAll stamp v ws).2.result = .ok () ∧ Written v (installAll stamp v ws).1 ws) ∨
      ∃ e done, (installAll stamp v ws).2.result = .error e ∧ done < ws.length ∧
        Written v (installAll stamp v ws).1 (ws.take done) := by
  induction ws generalizing v with
  | nil => exact .inl ⟨rfl, .nil hlinks hv rfl fun _ => rfl⟩
  | cons w ws ih =>
    obtain ⟨hpath, hpaths⟩ := List.pairwise_cons.1 hpaths
    obtain ⟨htemp, htemporary⟩ := List.pairwise_cons.1 htemporary
    rw [installAll]
    have hspec := install_spec hv hlinks (hfresh w List.mem_cons_self)
    cases hinstall : w.install stamp v with
    | mk next result =>
      rw [hinstall] at hspec
      rcases hspec with ⟨hok, hw⟩ | ⟨f, hf, hw⟩
      · -- the other writes are to the same entries as before the first one
        obtain rfl : result = .ok () := hok
        have hentry : ∀ q, next.entry q = v.entry q := hw.entry_eq
        have happart : ∀ {p q}, v.Apart p q → next.Apart p q := by
          intro p q h l
          rw [hentry, hentry]
          exact h l
        have hstill : ∀ x ∈ ws, next.Fresh stamp x := by
          intro x hx k hk
          rw [hentry] at hk
          rw [hw.others k fun y hy => ?_]
          · exact hfresh x (List.mem_cons_of_mem _ hx) k hk
          · rw [List.mem_singleton.1 hy]
            exact (htemp x hx).symm k hk
        simp only
        rcases ih hw.sound hw.fileLinks (hpaths.imp happart) hstill (htemporary.imp happart) with
          ⟨hok, hrest⟩ | ⟨e, done, herror, hlength, hrest⟩
        · exact .inl ⟨hok, hw.cons hrest hpath⟩
        · refine .inr ⟨e, done + 1, herror, Nat.succ_lt_succ hlength, ?_⟩
          exact hw.cons hrest fun x hx => hpath x (List.mem_of_mem_take hx)
      · -- the first failure ends it
        obtain rfl : result = .error f := hf
        exact .inr ⟨.file f, 0, rfl, Nat.succ_pos _, hw⟩

end View

end SdkWiring
