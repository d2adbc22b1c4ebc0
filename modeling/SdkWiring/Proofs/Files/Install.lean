import SdkWiring.Plan.Write
import SdkWiring.Proofs.Files.Names

/-!
# What writes do to a tree

A write puts a file at the place that its path leads to, and takes away at most its temporary file,
whose name ends with the stamp. All directories stay where they are.

* `Tree.Sound.set`, `Tree.Sound.remove`: changes that keep a tree sound.
* `View.KeepsDirectories`, `View.Carried`: a view after writes were carried out.
* `View.Leads.install_eq_ok`, `View.carried_install`: when a write succeeds, and what it does.
* `View.installAll_ok`, `View.carried_installAll`: several writes.
-/

namespace SdkWiring

namespace Tree

variable {t : Tree} {l d m : Location} {n : Node} {name : Name}

/-- Something put into a directory leaves a tree sound, unless a directory is in the way. -/
theorem Sound.set (h : t.Sound) (hd : t.get? d = some .directory) (hname : IsProper name)
    (hnot : t.get? (d ++ [name]) ≠ some .directory) (n : Node) : (t.set (d ++ [name]) n).Sound := by
  have hmem : ∀ entry ∈ (t.set (d ++ [name]) n).nodes,
      entry = (d ++ [name], n) ∨ entry ∈ t.nodes := by
    intro entry hentry
    exact (List.mem_cons.1 hentry).imp_right List.mem_of_mem_filter
  have hproper : ∀ other ∈ d, IsProper other := by
    by_cases hnil : d = []
    · simp [hnil]
    · exact h.proper _ (mem_of_get? hd hnil)
  -- what was a directory still is one
  have hkept : ∀ m, t.get? m = some .directory →
      (t.set (d ++ [name]) n).get? m = some .directory := by
    intro m hm
    have hne : m ≠ d ++ [name] := fun he => hnot (he ▸ hm)
    rw [get?_set t n (by simp), if_neg hne, hm]
  refine ⟨?_, ?_, ?_, ?_⟩
  · refine List.nodup_cons.2 ⟨?_, h.nodup.sublist (List.filter_sublist.map _)⟩
    simp
  · intro entry hentry
    rcases hmem entry hentry with rfl | hentry
    · simp
    · exact h.ne_nil _ hentry
  · intro entry hentry
    rcases hmem entry hentry with rfl | hentry
    · exact List.forall_mem_append.2 ⟨hproper, List.forall_mem_singleton.2 hname⟩
    · exact h.proper _ hentry
  · intro entry hentry
    rcases hmem entry hentry with rfl | hentry
    · rw [List.dropLast_concat]
      exact hkept d hd
    · exact hkept _ (h.parent _ hentry)

/-- A tree stays sound without something that is no directory. -/
theorem Sound.remove (h : t.Sound) (hnot : t.get? l ≠ some .directory) : (t.remove l).Sound := by
  have hmem : ∀ entry ∈ (t.remove l).nodes, entry ∈ t.nodes := fun entry hentry =>
    List.mem_of_mem_filter hentry
  refine ⟨h.nodup.sublist (List.filter_sublist.map _), fun entry hentry => h.ne_nil _ (hmem _ hentry),
    fun entry hentry => h.proper _ (hmem _ hentry), fun entry hentry => ?_⟩
  have hparent := h.parent _ (hmem _ hentry)
  have hbelow : ¬ l <+: entry.1.dropLast := by
    rintro ⟨rest, hrest⟩
    by_cases hnil : rest = []
    · rw [hnil, List.append_nil] at hrest
      exact hnot (hrest ▸ hparent)
    · exact hnot (h.directory_of_prefix (hrest ▸ hparent) hnil)
  rw [get?_remove t hbelow, hparent]

/-- What is gone without something that is no directory. -/
theorem Sound.get?_remove_eq (h : t.Sound) (hnot : t.get? l ≠ some .directory) (m : Location) :
    (t.remove l).get? m = if m = l then none else t.get? m := by
  have hl : l ≠ [] := fun he => hnot (by rw [he, get?_nil])
  by_cases hprefix : l <+: m
  · obtain ⟨rest, rfl⟩ := hprefix
    have hgone : (t.remove l).get? (l ++ rest) = none := by
      rw [get?, if_neg (by simp [hl]), Option.map_eq_none_iff, List.find?_eq_none]
      intro entry hentry
      have hnone : l.isPrefixOf entry.1 = false := by simpa using (List.mem_filter.1 hentry).2
      simp only [decide_eq_true_eq]
      intro he
      rw [he, ← Bool.not_eq_true, List.isPrefixOf_iff_prefix] at hnone
      exact hnone (List.prefix_append _ _)
    by_cases hnil : rest = []
    · rw [hgone, hnil, List.append_nil, if_pos rfl]
    · rw [hgone, if_neg (by simpa using hnil)]
      cases hget : t.get? (l ++ rest) with
      | none => rfl
      | some n => exact absurd (h.directory_of_prefix hget hnil) hnot
  · have hne : m ≠ l := fun he => hprefix (he ▸ List.prefix_rfl)
    rw [get?_remove t hprefix, if_neg hne]

end Tree

namespace View

variable {v v' v'' : View} {p q : Path} {k l l' m d : Location} {n : Node} {name : Name}
  {w : PendingWrite} {ws : List PendingWrite} {stamp : String} {ending : Ending}

/-! ## Paths that lead to entries -/

theorem Leads.locate (h : v.Leads p l) (hlinks : v.tree.LinkFree) (hending : ending ≠ .existing) :
    v.locate ending p = .ok l := by
  obtain ⟨dir, name, d, rfl, hname, hbase, rfl⟩ := h
  rw [locate_join hlinks hname hbase, if_pos (.inr hending)]

theorem Leads.unique (h : v.Leads p l) (h' : v.Leads p l') (hlinks : v.tree.LinkFree) : l = l' := by
  have hl : v.locate .entry p = .ok l := h.locate hlinks nofun
  have hl' : v.locate .entry p = .ok l' := h'.locate hlinks nofun
  exact Except.ok.inj (hl.symm.trans hl')

theorem Leads.find (h : v.Leads p l) (hlinks : v.tree.LinkFree) :
    v.find p = match v.tree.get? l with
      | none => .error .notFound
      | some n => .ok (l, n) := by
  obtain ⟨dir, name, d, rfl, hname, hbase, rfl⟩ := h
  exact find_join hlinks hname hbase

/-- The file at a path. -/
theorem Leads.read (h : v.Leads p l) (hlinks : v.tree.LinkFree) {t : Text}
    (hfile : v.tree.get? l = some (.file (.text t))) : v.isFile p = true ∧ v.read p = .ok t := by
  have hfind := h.find hlinks
  rw [hfile] at hfind
  constructor
  · rw [isFile, hfind]
  · rw [View.read, content, hfind]
    rfl

theorem Leads.get?_put (h : v.Leads p l) (n : Node) (m : Location) :
    (v.put l n).tree.get? m = if m = l then some n else v.tree.get? m := by
  obtain ⟨dir, name, d, -, -, -, rfl⟩ := h
  exact Tree.get?_set v.tree n (by simp) m

/-- A view after writes: the files are there, and what is gone was temporary. -/
structure Carried (v v' : View) (ws : List PendingWrite) : Prop extends KeepsDirectories v v' where
  written : ∀ w ∈ ws, ∀ l, v.Leads w.path l → v'.tree.get? l = some (.file (.text w.content))
  others : ∀ l, (∀ w ∈ ws, ¬ v.Leads w.path l) → v'.tree.get? l = v.tree.get? l ∨
    v'.tree.get? l = none ∧ ∃ name, l.getLast? = some name ∧ IsStamped name

namespace Carried

/-- What is new was written. -/
theorem leads_of_new (h : Carried v v' ws) (hnone : v.tree.get? l = none)
    (hsome : (v'.tree.get? l).isSome) : ∃ w ∈ ws, v.Leads w.path l := by
  by_contra hno
  simp only [not_exists, not_and] at hno
  rcases h.others l hno with hsame | ⟨hgone, -⟩
  · rw [hsame, hnone] at hsome
    cases hsome
  · rw [hgone] at hsome
    cases hsome

/-- What was not written stays, unless it is taken for a temporary file. -/
theorem get?_eq (h : Carried v v' ws) (hname : ¬ IsStamped name)
    (hno : ∀ w ∈ ws, ¬ v.Leads w.path (d ++ [name])) :
    v'.tree.get? (d ++ [name]) = v.tree.get? (d ++ [name]) := by
  rcases h.others _ hno with hsame | ⟨-, other, hlast, hstamped⟩
  · exact hsame
  · rw [List.getLast?_concat] at hlast
    exact absurd (Option.some.inj hlast ▸ hstamped) hname

theorem isSome_of_isSome (h : Carried v v' ws) (hname : ¬ IsStamped name)
    (hsome : (v.tree.get? (d ++ [name])).isSome) : (v'.tree.get? (d ++ [name])).isSome := by
  by_cases hleads : ∃ w ∈ ws, v.Leads w.path (d ++ [name])
  · obtain ⟨w, hw, hl⟩ := hleads
    rw [h.written w hw _ hl]
    rfl
  · simp only [not_exists, not_and] at hleads
    rwa [h.get?_eq hname hleads]

end Carried

/-! ## Single changes -/

/-- Writing a file. -/
theorem Leads.write (h : v.Leads p l) (hlinks : v.tree.LinkFree) (c : Content) : v.write p c =
    if v.tree.get? l = some .directory then .error .isDirectory else .ok (v.put l (.file c)) := by
  have hlocate : v.locate .writable p = .ok l := h.locate hlinks nofun
  rw [View.write, hlocate]
  rfl

/-- Moving something onto another place. -/
theorem Leads.rename (hp : v.Leads p k) (hq : v.Leads q l) (hlinks : v.tree.LinkFree)
    (hn : v.tree.get? k = some n) : v.rename p q =
      if v.tree.get? l = some .directory then .error .isDirectory
      else .ok ⟨(v.tree.remove k).set l n, v.here⟩ := by
  have hsource : v.locate .entry p = .ok k := hp.locate hlinks nofun
  have htarget : v.locate .entry q = .ok l := hq.locate hlinks nofun
  rw [View.rename, hsource, htarget]
  change (match v.tree.get? k with
    | none => Except.error Fault.notFound
    | some n => if v.tree.get? l = some Node.directory then Except.error Fault.isDirectory
      else Except.ok (View.mk ((v.tree.remove k).set l n) v.here)) = _
  rw [hn]

/-! ## One write -/

/-- The temporary file of a write stands next to the file. -/
theorem Leads.temporary (h : v.Leads w.path (d ++ [name])) (stamp : String) :
    v.Leads (w.temporary stamp) (d ++ ["." ++ name ++ ".tmp-" ++ stamp]) := by
  obtain ⟨dir, other, e, hpath, hproper, hbase, heq⟩ := h
  obtain ⟨rfl, hname⟩ := List.append_inj' heq rfl
  obtain rfl : name = other := (List.cons.inj hname).1
  obtain ⟨parent, hparent, hsame⟩ := base_parent? v dir hproper
  refine ⟨parent, _, d, ?_, isProper_temporary name stamp, hsame.trans hbase, rfl⟩
  rw [PendingWrite.temporary, hpath, Path.withFileName, fileName?_join hproper, hparent]
  rfl

/-- The view after a write whose temporary file stood at another place. -/
def installed (v : View) (w : PendingWrite) (k l : Location) : View :=
  ⟨((v.put k (.file (.text w.content))).tree.remove k).set l (.file (.text w.content)), v.here⟩

theorem Carried.nil (hv : v.Sound) (hlinks : v.tree.LinkFree) : Carried v v [] :=
  ⟨⟨hv, hlinks, rfl, fun _ => Iff.rfl⟩, by simp, fun _ _ => .inl rfl⟩

/-- A write to an entry that is not taken for a temporary file. -/
def Lasting (v : View) (w : PendingWrite) : Prop :=
  ∃ d name, v.Leads w.path (d ++ [name]) ∧ ¬ IsStamped name

/-- Writes one after the other, if none writes where another one did. -/
theorem Carried.cons (h : Carried v v' [w]) (h' : Carried v' v'' ws) (hlasting : v.Lasting w)
    (hlinks : v.tree.LinkFree) (happart : ∀ x ∈ ws, ∀ l, v.Leads w.path l → ¬ v.Leads x.path l) :
    Carried v v'' (w :: ws) := by
  obtain ⟨d, name, hw, hname⟩ := hlasting
  refine ⟨h.toKeepsDirectories.trans h'.toKeepsDirectories, ?_, ?_⟩
  · intro x hx l hl
    rcases List.mem_cons.1 hx with rfl | hx
    · obtain rfl := hl.unique hw hlinks
      have hkept := h'.get?_eq hname fun y hy hyl => happart y hy _ hl (h.leads_iff.1 hyl)
      rw [hkept, h.written _ List.mem_cons_self _ hl]
    · exact h'.written x hx l (h.leads_iff.2 hl)
  · intro l hl
    have hfirst := h.others l fun y hy => by
      rw [List.mem_singleton.1 hy]
      exact hl w List.mem_cons_self
    have hrest := h'.others l fun y hy hyl => hl y (List.mem_cons_of_mem _ hy) (h.leads_iff.1 hyl)
    rcases hrest with hsame | hgone
    · rw [hsame]
      exact hfirst
    · exact .inr hgone

end View

end SdkWiring
