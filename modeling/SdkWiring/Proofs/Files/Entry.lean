import SdkWiring.Proofs.Files.Walk

/-!
# Entries in trees with links to files

Where links lead to files only, or nowhere, no path goes on behind a link. So the entry that a path
names is still told by a walk through directories, and what a link leads to matters only where the
link is the last thing that a path names.

* `Tree.FileLinksOnly`: no link leads to a directory.
* `Tree.Sound.resolve_append`: what is in front of other names is resolved to a directory.
* `Tree.FileLinksOnly.mono`: other files and fewer links.
* `View.entry`, `View.locate_entry`: the entry that a path names.
* `View.locate_of_entry`, `View.locate_error`: what such a path is resolved to, if anything.
* `View.named_of_entry`: the only entry that a path without two dots can name.
-/

namespace SdkWiring

namespace Tree

variable {t t' : Tree} {l d here : Location} {name : Name} {names rest : List Name}
  {ending : Ending} {links : Nat} {target : Path}

/-- No link leads to a directory. -/
def FileLinksOnly (t : Tree) : Prop :=
  ∀ here name target links d, t.get? (here ++ [name]) = some (.link target) →
    t.resolve .existing links (if target.isAbsolute then [] else here) target.pieces = .ok d →
      t.get? d ≠ some .directory

theorem LinkFree.fileLinksOnly (h : t.LinkFree) : t.FileLinksOnly := fun _ _ _ _ _ hlink =>
  absurd hlink (h _ _)

/-- A link is followed from the top or from where it stands. -/
theorem start_directory (hhere : t.get? here = some .directory) (absolute : Bool) :
    t.get? (if absolute then [] else here) = some .directory := by
  cases absolute with
  | true => exact get?_nil _
  | false => exact hhere

/-- **What is in front of other names** is resolved to a directory. -/
theorem Sound.resolve_append (h : t.Sound) (hhere : t.get? here = some .directory) (hrest : rest ≠ [])
    (hok : t.resolve ending links here (names ++ rest) = .ok l) :
    ∃ d, t.resolve .existing links here names = .ok d ∧ t.get? d = some .directory := by
  -- a link leads to more names and leaves fewer links to follow
  induction links using Nat.strongRecOn generalizing here names with
  | ind links hlinks =>
    induction names generalizing here with
    | nil => exact ⟨here, by rw [resolve], hhere⟩
    | cons name names ih =>
      rw [List.cons_append, resolve] at hok
      rw [resolve]
      split at hok
      · rw [if_pos ‹_›]
        exact ih hhere hok
      · rw [if_neg ‹_›]
        split at hok
        · rw [if_pos ‹_›]
          exact ih (h.parent_of_get? hhere) hok
        · rw [if_neg ‹_›]
          cases hget : t.get? (here ++ [name]) with
          | none =>
            rw [hget] at hok
            simp [hrest] at hok
          | some n =>
            rw [hget] at hok
            cases n with
            | directory => exact ih hget hok
            | file c => simp [hrest] at hok
            | link target =>
              simp only [List.append_eq_nil_iff, hrest, and_false, false_and, if_false] at hok
              cases links with
              | zero => cases hok
              | succ links =>
                rw [← List.append_assoc] at hok
                obtain ⟨d, hd, hdir⟩ :=
                  hlinks links (Nat.lt_succ_self _) (start_directory hhere _) hok
                exact ⟨d, by simpa using hd, hdir⟩

/-- Nothing is found behind names that lead to no directory. -/
theorem FileLinksOnly.resolve_error (h : t.FileLinksOnly) (ht : t.Sound)
    (hhere : t.get? here = some .directory) (hwalk : t.walk here names = none) (hrest : rest ≠ []) :
    ∃ f, t.resolve ending links here (names ++ rest) = .error f := by
  induction names generalizing here with
  | nil => cases hwalk
  | cons name names ih =>
    rw [walk_cons] at hwalk
    rw [List.cons_append, resolve]
    split
    · rw [if_pos ‹_›] at hwalk
      exact ih hhere hwalk
    · rw [if_neg ‹_›] at hwalk
      split
      · rw [if_pos ‹_›] at hwalk
        exact ih (ht.parent_of_get? hhere) hwalk
      · rw [if_neg ‹_›] at hwalk
        have hbehind : names ++ rest ≠ [] := by simp [hrest]
        cases hget : t.get? (here ++ [name]) with
        | none => exact ⟨.notFound, by simp [hrest]⟩
        | some n =>
          cases n with
          | directory =>
            rw [hget, if_pos rfl] at hwalk
            exact ih hget hwalk
          | file c => exact ⟨.notDirectory, by simp [hrest]⟩
          | link target =>
            simp only [hbehind, false_and, if_false]
            cases links with
            | zero => exact ⟨_, rfl⟩
            | succ links =>
              -- behind the link it would have to be a directory
              cases hok : t.resolve ending links (if target.isAbsolute then [] else here)
                  (target.pieces ++ (names ++ rest)) with
              | error f => exact ⟨f, by simpa using hok⟩
              | ok l =>
                obtain ⟨d, hd, hdir⟩ := ht.resolve_append (start_directory hhere _) hbehind hok
                exact absurd hdir (h _ _ _ _ _ hget hd)

/-- What a last piece names in a directory. -/
def enter (d : Location) (last : Name) : Location :=
  if Path.isIdle last then d else if last = ".." then d.dropLast else d ++ [last]

/-- Where something may be missing, the last piece names an entry, whatever a link there leads to. -/
theorem resolve_last (hending : ending ≠ .existing)
    (h : ending = .entry ∨ ∀ target, t.get? (enter d name) ≠ some (.link target)) :
    t.resolve ending links d [name] = .ok (enter d name) := by
  rw [resolve]
  split
  · rw [enter, if_pos ‹_›, resolve]
  · split
    · rw [enter, if_neg ‹_›, if_pos ‹_›, resolve]
    · have henter : enter d name = d ++ [name] := by rw [enter, if_neg ‹_›, if_neg ‹_›]
      rw [henter] at h ⊢
      cases hget : t.get? (d ++ [name]) with
      | none => simp [hending]
      | some n =>
        cases n with
        | directory => simp [resolve]
        | file c => simp
        | link target =>
          have hentry : ending = .entry := h.resolve_right fun hno => hno target hget
          simp [hentry]

/-- A directory that is found where there are other files, and perhaps more links, is found all the
same. -/
theorem resolve_mono (hdirs : t.SameDirectories t')
    (hlinks : ∀ m target, t'.get? m = some (.link target) → t.get? m = some (.link target))
    (hok : t'.resolve .existing links here names = .ok d) (hd : t'.get? d = some .directory) :
    t.resolve .existing links here names = .ok d := by
  -- on the links that may still be followed and, as long as none is, on the names
  induction links using Nat.strongRecOn generalizing here names with
  | ind links hfewer =>
    induction names generalizing here with
    | nil =>
      rw [resolve] at hok ⊢
      exact hok
    | cons name names ih =>
      rw [resolve] at hok ⊢
      split at hok
      · rw [if_pos ‹_›]
        exact ih hok
      · rw [if_neg ‹_›]
        split at hok
        · rw [if_pos ‹_›]
          exact ih hok
        · rw [if_neg ‹_›]
          cases hget : t'.get? (here ++ [name]) with
          | none =>
            rw [hget] at hok
            simp at hok
          | some n =>
            rw [hget] at hok
            cases n with
            | directory =>
              rw [(hdirs _).1 hget]
              exact ih hok
            | file c =>
              simp only at hok
              split at hok
              · obtain rfl := Except.ok.inj hok
                rw [hget] at hd
                cases hd
              · cases hok
            | link target =>
              rw [hlinks _ _ hget]
              simp only [reduceCtorEq, and_false, if_false] at hok ⊢
              cases links with
              | zero => cases hok
              | succ links => exact hfewer links (Nat.lt_succ_self _) hok

/-- **Other files and fewer links** lead to no more directories. -/
theorem FileLinksOnly.mono (h : t.FileLinksOnly) (hdirs : t.SameDirectories t')
    (hlinks : ∀ m target, t'.get? m = some (.link target) → t.get? m = some (.link target)) :
    t'.FileLinksOnly := by
  intro here name target links d hget hok hd
  exact h here name target links d (hlinks _ _ hget) (resolve_mono hdirs hlinks hok hd)
    ((hdirs d).1 hd)

end Tree

namespace View

variable {v v' : View} {p : Path} {l : Location} {ending : Ending}

/-- Where a path starts. -/
def start (v : View) (p : Path) : Location := if p.isAbsolute then [] else v.here

/-- The entry that a path names, if no link is followed on the way. -/
def entry (v : View) (p : Path) : Option Location :=
  if p.pieces = [""] then none
  else
    match p.pieces.getLast? with
    | none => some (v.start p)
    | some last => (v.tree.walk (v.start p) p.pieces.dropLast).map fun d => Tree.enter d last

theorem Sound.start_directory (hv : v.Sound) (p : Path) :
    v.tree.get? (v.start p) = some .directory := Tree.start_directory hv.here _

theorem entry_concat {front : List Name} {last : Name} (h : p.pieces = front ++ [last])
    (hne : p.pieces ≠ [""]) :
    v.entry p = (v.tree.walk (v.start p) front).map fun d => Tree.enter d last := by
  rw [entry, if_neg hne, h, List.getLast?_concat, List.dropLast_concat]

/-- A path is resolved to the entry that it names, if that is no link to be followed. -/
theorem locate_of_entry (h : v.entry p = some l) (hending : ending ≠ .existing)
    (hlink : ending = .entry ∨ ∀ target, v.tree.get? l ≠ some (.link target)) :
    v.locate ending p = .ok l := by
  rw [locate]
  by_cases hempty : p.pieces = [""]
  · rw [entry, if_pos hempty] at h
    cases h
  · rw [if_neg hempty]
    rcases List.eq_nil_or_concat' p.pieces with hnil | ⟨front, last, hconcat⟩
    · rw [entry, if_neg hempty, hnil, List.getLast?_nil] at h
      rw [hnil, Tree.resolve, ← Option.some.inj h, start]
    · rw [entry_concat hconcat hempty, Option.map_eq_some_iff] at h
      obtain ⟨d, hwalk, rfl⟩ := h
      rw [start] at hwalk
      rw [hconcat, Tree.resolve_of_walk hwalk, Tree.resolve_last hending hlink]

/-- A path that names no entry is resolved to nothing. -/
theorem locate_error (hv : v.Sound) (hlinks : v.tree.FileLinksOnly) (h : v.entry p = none) :
    ∃ f, v.locate ending p = .error f := by
  rw [locate]
  by_cases hempty : p.pieces = [""]
  · exact ⟨.notFound, if_pos hempty⟩
  · rw [if_neg hempty]
    rcases List.eq_nil_or_concat' p.pieces with hnil | ⟨front, last, hconcat⟩
    · rw [entry, if_neg hempty, hnil, List.getLast?_nil] at h
      cases h
    · rw [entry_concat hconcat hempty, Option.map_eq_none_iff] at h
      rw [hconcat]
      exact hlinks.resolve_error hv.tree (hv.start_directory p) h (List.cons_ne_nil last [])

/-- **The entry that a path names** is what it is resolved to, a link standing for itself. -/
theorem locate_entry (hv : v.Sound) (hlinks : v.tree.FileLinksOnly) :
    v.locate .entry p = .ok l ↔ v.entry p = some l := by
  constructor
  · intro h
    cases hentry : v.entry p with
    | none =>
      obtain ⟨f, hf⟩ := locate_error hv hlinks hentry
      rw [hf] at h
      cases h
    | some m =>
      have hm : v.locate .entry p = .ok m := locate_of_entry hentry (by decide) (.inl rfl)
      rw [Except.ok.inj (hm.symm.trans h)]
  · intro h
    exact locate_of_entry h (by decide) (.inl rfl)

/-- An entry is a directory, or stands in one. -/
theorem entry_cases (hv : v.Sound) (h : v.entry p = some l) : v.tree.get? l = some .directory ∨
    ∃ d name, l = d ++ [name] ∧ IsProper name ∧ v.tree.get? d = some .directory := by
  rw [entry] at h
  split at h
  · cases h
  · split at h
    · obtain rfl := Option.some.inj h
      exact .inl (hv.start_directory p)
    · obtain ⟨d, hwalk, rfl⟩ := Option.map_eq_some_iff.1 h
      have hd := hv.tree.walk_directory (hv.start_directory p) hwalk
      rw [Tree.enter]
      split
      · exact .inl hd
      · split
        · exact .inl (hv.tree.parent_of_get? hd)
        · exact .inr ⟨d, _, rfl, ⟨Bool.eq_false_iff.2 ‹_›, ‹_›⟩, hd⟩

/-- Entries depend on the directories only. -/
theorem entry_congr (hdirs : v.tree.SameDirectories v'.tree) (hhere : v'.here = v.here) (p : Path) :
    v'.entry p = v.entry p := by
  rw [entry, entry, start, start, hhere]
  simp only [hdirs.walk]

/-! ## Names of entries -/

/-- The place that a path without two dots stands for, whatever the tree holds. -/
def named (v : View) (p : Path) : Location := v.start p ++ p.pieces.filter (!Path.isIdle ·)

/-- **A path without two dots** names no other entry. -/
theorem named_of_entry (hdots : ".." ∉ p.pieces) (h : v.entry p = some l) : l = v.named p := by
  -- without steps back, a walk goes down one name after the other
  have hwalk : ∀ {t : Tree} {names : List Name} {here d : Location}, ".." ∉ names →
      t.walk here names = some d → d = here ++ names.filter (!Path.isIdle ·) := by
    intro t names
    induction names with
    | nil =>
      intro here d _ hd
      rw [← Option.some.inj hd, List.filter_nil, List.append_nil]
    | cons name names ih =>
      intro here d hnot hd
      rw [List.mem_cons, not_or] at hnot
      rw [Tree.walk_cons, if_neg (Ne.symm hnot.1)] at hd
      split at hd
      · rw [List.filter_cons_of_neg (by simp [*])]
        exact ih hnot.2 hd
      · split at hd
        · rw [List.filter_cons_of_pos (by simp [*]), ih hnot.2 hd, List.append_assoc,
            List.singleton_append]
        · cases hd
  rw [entry] at h
  split at h
  · cases h
  · rcases List.eq_nil_or_concat' p.pieces with hnil | ⟨front, last, hconcat⟩
    · rw [hnil, List.getLast?_nil] at h
      rw [← Option.some.inj h, named, hnil, List.filter_nil, List.append_nil]
    · rw [hconcat] at h hdots
      rw [List.mem_append, List.mem_singleton, not_or] at hdots
      rw [List.getLast?_concat, List.dropLast_concat] at h
      obtain ⟨d, hd, rfl⟩ := Option.map_eq_some_iff.1 h
      rw [named, hconcat, List.filter_append, ← List.append_assoc, ← hwalk hdots.1 hd, Tree.enter,
        if_neg (Ne.symm hdots.2)]
      split <;> simp [*]

end View

end SdkWiring
