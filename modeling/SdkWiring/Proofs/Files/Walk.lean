import Mathlib.Data.List.Induction
import Mathlib.Data.List.Nodup
import SdkWiring.Files.View

/-!
# Resolution without links

In a tree without links a path leads through directories only, up to its last name. So where it leads
is told by a walk along its names, and depends only on where the directories of the tree are.

* `Tree.Sound`, `Tree.LinkFree`: trees as they can be, and those without links.
* `Tree.walk`: the directory that names lead to.
* `Tree.resolve_of_walk`, `Tree.LinkFree.resolve_eq_ok`: resolution as a walk.
* `View.base`, `View.base_join`, `View.base_parent?`: the directory that a path leads to.
* `View.find_join`, `View.isDirectory_iff`, `View.list_eq_ok`: what is found there.
-/

namespace SdkWiring

/-- A name that leads to an entry of a directory. -/
def IsProper (name : Name) : Prop := Path.isIdle name = false ∧ name ≠ ".."

instance (name : Name) : Decidable (IsProper name) := inferInstanceAs (Decidable (_ ∧ _))

namespace Tree

variable {t t' : Tree} {l m here d : Location} {n : Node} {name : Name} {names rest : List Name}
  {ending : Ending} {links : Nat}

/-- A tree as it can be: just one thing is at a place, in a directory and with a proper name. -/
structure Sound (t : Tree) : Prop where
  nodup : (t.nodes.map (·.1)).Nodup
  ne_nil : ∀ entry ∈ t.nodes, entry.1 ≠ []
  proper : ∀ entry ∈ t.nodes, ∀ name ∈ entry.1, IsProper name
  parent : ∀ entry ∈ t.nodes, t.get? entry.1.dropLast = some .directory

/-- A tree without links. -/
def LinkFree (t : Tree) : Prop := ∀ l target, t.get? l ≠ some (.link target)

/-- Two trees have their directories at the same places. -/
def SameDirectories (t t' : Tree) : Prop :=
  ∀ l, t'.get? l = some .directory ↔ t.get? l = some .directory

/-! ## What is where -/

@[simp] theorem get?_nil (t : Tree) : t.get? [] = some .directory := if_pos rfl

theorem mem_of_get? (h : t.get? l = some n) (hl : l ≠ []) : (l, n) ∈ t.nodes := by
  rw [get?, if_neg hl, Option.map_eq_some_iff] at h
  obtain ⟨entry, hfind, rfl⟩ := h
  have hentry : entry.1 = l := by simpa using List.find?_some hfind
  exact hentry ▸ List.mem_of_find?_eq_some hfind

theorem linkFree_of_nodes (h : ∀ entry ∈ t.nodes, ∀ target, entry.2 ≠ .link target) : t.LinkFree := by
  intro l target hget
  by_cases hl : l = []
  · subst hl
    cases hget
  · exact h _ (mem_of_get? hget hl) target rfl

/-- What is said to be at a place is there. -/
theorem Sound.get?_of_mem (h : t.Sound) (hmem : (l, n) ∈ t.nodes) : t.get? l = some n := by
  rw [get?, if_neg (h.ne_nil _ hmem)]
  cases hfind : t.nodes.find? (·.1 = l) with
  | none =>
    rw [List.find?_eq_none] at hfind
    exact absurd (hfind _ hmem) (by simp)
  | some entry =>
    have hentry : entry.1 = l := by simpa using List.find?_some hfind
    have hsame := List.inj_on_of_nodup_map h.nodup (List.mem_of_find?_eq_some hfind) hmem hentry
    rw [hsame]
    rfl

theorem Sound.get?_eq_some (h : t.Sound) (hl : l ≠ []) : t.get? l = some n ↔ (l, n) ∈ t.nodes :=
  ⟨fun hn => mem_of_get? hn hl, h.get?_of_mem⟩

/-- What is somewhere is in a directory. -/
theorem Sound.parent_of_get? (h : t.Sound) (hn : t.get? l = some n) :
    t.get? l.dropLast = some .directory := by
  by_cases hl : l = []
  · rw [hl, List.dropLast_nil, get?_nil]
  · exact h.parent _ (mem_of_get? hn hl)

/-- On the way to a place there are directories. -/
theorem Sound.directory_of_prefix (h : t.Sound) (hn : t.get? (l ++ m) = some n) (hm : m ≠ []) :
    t.get? l = some .directory := by
  induction m using List.reverseRecOn generalizing n with
  | nil => exact absurd rfl hm
  | append_singleton m name ih =>
    have hparent := h.parent_of_get? hn
    rw [← List.append_assoc, List.dropLast_concat] at hparent
    by_cases hm : m = []
    · rwa [hm, List.append_nil] at hparent
    · exact ih hparent hm

theorem Sound.proper_of_get? (h : t.Sound) (hn : t.get? (l ++ [name]) = some n) : IsProper name :=
  h.proper _ (mem_of_get? hn (by simp)) name (by simp)

/-! ## Walking along names -/

/-- The directory that names lead to from another one, if no link is followed. -/
def walk (t : Tree) (here : Location) : List Name → Option Location
  | [] => some here
  | name :: rest =>
    if Path.isIdle name then t.walk here rest
    else if name = ".." then t.walk here.dropLast rest
    else if t.get? (here ++ [name]) = some .directory then t.walk (here ++ [name]) rest
    else none

@[simp] theorem walk_nil (t : Tree) (here : Location) : t.walk here [] = some here := rfl

theorem walk_cons (t : Tree) (here : Location) (name : Name) (rest : List Name) :
    t.walk here (name :: rest) =
      if Path.isIdle name then t.walk here rest
      else if name = ".." then t.walk here.dropLast rest
      else if t.get? (here ++ [name]) = some .directory then t.walk (here ++ [name]) rest
      else none := rfl

theorem walk_append (t : Tree) (here : Location) (names rest : List Name) :
    t.walk here (names ++ rest) = (t.walk here names).bind fun d => t.walk d rest := by
  induction names generalizing here with
  | nil => rfl
  | cons name names ih =>
    simp only [List.cons_append, walk_cons]
    split
    · exact ih here
    · split
      · exact ih _
      · split
        · exact ih _
        · rfl

theorem walk_idle (h : Path.isIdle name = true) : t.walk here [name] = some here := by
  simp [walk_cons, h]

theorem walk_proper (h : IsProper name) : t.walk here [name] =
    if t.get? (here ++ [name]) = some .directory then some (here ++ [name]) else none := by
  simp [walk_cons, h.1, h.2]

theorem walk_idles (h : ∀ name ∈ names, Path.isIdle name = true) : t.walk here names = some here := by
  induction names with
  | nil => rfl
  | cons name rest ih =>
    rw [walk_cons, if_pos (h name List.mem_cons_self)]
    exact ih fun n hn => h n (List.mem_cons_of_mem _ hn)

/-- Pieces at the end that do not move can be left out. -/
theorem walk_trimmed (t : Tree) (here : Location) (names : List Name) :
    t.walk here (Path.trimmed names) = t.walk here names := by
  cases names with
  | nil => rfl
  | cons first rest =>
    have hsplit : first :: rest = Path.trimmed (first :: rest) ++
        (rest.reverse.takeWhile Path.isIdle).reverse := by
      rw [Path.trimmed, List.cons_append, ← List.reverse_append, List.takeWhile_append_dropWhile,
        List.reverse_reverse]
    have hidles : ∀ name ∈ (rest.reverse.takeWhile Path.isIdle).reverse, Path.isIdle name = true :=
      fun name hn => List.all_eq_true.1 List.all_takeWhile name (List.mem_reverse.1 hn)
    conv_rhs => rw [hsplit, walk_append]
    simp only [walk_idles hidles, Option.bind_fun_some]

/-- Walks depend on the directories of a tree only. -/
theorem SameDirectories.walk (h : t.SameDirectories t') (here : Location) (names : List Name) :
    t'.walk here names = t.walk here names := by
  induction names generalizing here with
  | nil => rfl
  | cons name names ih => simp only [walk_cons, h (here ++ [name]), ih]

/-- A walk from a directory ends at a directory. -/
theorem Sound.walk_directory (h : t.Sound) (hhere : t.get? here = some .directory)
    (hwalk : t.walk here names = some l) : t.get? l = some .directory := by
  induction names generalizing here with
  | nil => exact Option.some.inj hwalk ▸ hhere
  | cons name names ih =>
    rw [walk_cons] at hwalk
    split at hwalk
    · exact ih hhere hwalk
    · split at hwalk
      · exact ih (h.parent_of_get? hhere) hwalk
      · split at hwalk
        · rename_i hdir
          exact ih hdir hwalk
        · cases hwalk

/-! ## Resolution as a walk -/

/-- The part of a path that leads through directories is resolved by a walk. -/
theorem resolve_of_walk (h : t.walk here names = some d) (rest : List Name) :
    t.resolve ending links here (names ++ rest) = t.resolve ending links d rest := by
  induction names generalizing here with
  | nil => rw [← Option.some.inj h, List.nil_append]
  | cons name names ih =>
    rw [walk_cons] at h
    rw [List.cons_append, resolve]
    split
    · rw [if_pos ‹_›] at h
      exact ih h
    · rw [if_neg ‹_›] at h
      split
      · rw [if_pos ‹_›] at h
        exact ih h
      · rw [if_neg ‹_›] at h
        split at h
        · rename_i hdir
          rw [hdir]
          exact ih h
        · cases h

/-- Without links nothing is found behind names that lead to no directory. -/
theorem LinkFree.resolve_error (h : t.LinkFree) (hwalk : t.walk here names = none)
    (hrest : rest ≠ []) : ∃ f, t.resolve ending links here (names ++ rest) = .error f := by
  induction names generalizing here with
  | nil => cases hwalk
  | cons name names ih =>
    rw [walk_cons] at hwalk
    rw [List.cons_append, resolve]
    split
    · rw [if_pos ‹_›] at hwalk
      exact ih hwalk
    · rw [if_neg ‹_›] at hwalk
      split
      · rw [if_pos ‹_›] at hwalk
        exact ih hwalk
      · rw [if_neg ‹_›] at hwalk
        cases hget : t.get? (here ++ [name]) with
        | none => exact ⟨.notFound, by simp [hrest]⟩
        | some n =>
          cases n with
          | directory =>
            rw [hget, if_pos rfl] at hwalk
            exact ih hwalk
          | file c => exact ⟨.notDirectory, by simp [hrest]⟩
          | link target => exact absurd hget (h _ _)

/-- The last name of a path. -/
theorem LinkFree.resolve_proper (h : t.LinkFree) (hname : IsProper name) (here : Location) :
    t.resolve ending links here [name] =
      if (t.get? (here ++ [name])).isSome ∨ ending ≠ .existing then .ok (here ++ [name])
      else .error .notFound := by
  rw [resolve, hname.1, if_neg Bool.false_ne_true, if_neg hname.2]
  cases hget : t.get? (here ++ [name]) with
  | none => simp
  | some n =>
    cases n with
    | directory => simp [resolve]
    | file c => simp
    | link target => exact absurd hget (h _ _)

/-- **What a path leads to without links**: a directory that a walk reaches, or a file in one. -/
theorem LinkFree.resolve_eq_ok (h : t.LinkFree)
    (hok : t.resolve .existing links here names = .ok l) :
    t.walk here names = some l ∨ ∃ c, t.get? l = some (.file c) := by
  -- without links the names only become fewer, as on the walk
  induction names generalizing here with
  | nil =>
    rw [resolve] at hok
    exact .inl (congrArg some (Except.ok.inj hok))
  | cons name names ih =>
    rw [resolve] at hok
    rw [walk_cons]
    split at hok
    · rw [if_pos ‹_›]
      exact ih hok
    · rw [if_neg ‹_›]
      split at hok
      · rw [if_pos ‹_›]
        exact ih hok
      · rw [if_neg ‹_›]
        cases hget : t.get? (here ++ [name]) with
        | none =>
          rw [hget] at hok
          simp at hok
        | some n =>
          rw [hget] at hok
          cases n with
          | directory =>
            rw [if_pos rfl]
            exact ih hok
          | file c =>
            simp only at hok
            split at hok
            · obtain rfl := Except.ok.inj hok
              exact .inr ⟨c, hget⟩
            · cases hok
          | link target => exact absurd hget (h _ _)

/-! ## The names in a directory -/

theorem Sound.mem_namesIn (h : t.Sound) : name ∈ t.namesIn l ↔ (t.get? (l ++ [name])).isSome := by
  have hne : l ++ [name] ≠ [] := by simp
  simp only [namesIn, List.mem_mergeSort, List.mem_filterMap, Option.ite_none_right_eq_some,
    Option.isSome_iff_exists, h.get?_eq_some hne]
  constructor
  · rintro ⟨⟨m, n⟩, hmem, hdrop, hlast⟩
    obtain ⟨m, rfl⟩ := List.getLast?_eq_some_iff.1 hlast
    rw [List.dropLast_concat] at hdrop
    exact ⟨n, hdrop ▸ hmem⟩
  · rintro ⟨n, hmem⟩
    exact ⟨_, hmem, by simp, by simp⟩

theorem Sound.nodup_namesIn (h : t.Sound) (l : Location) : (t.namesIn l).Nodup := by
  refine (List.mergeSort_perm _ _).nodup_iff.2 ?_
  have hnodes : t.nodes.Pairwise fun a b => a.1 ≠ b.1 := List.pairwise_map.1 h.nodup
  refine List.Pairwise.filterMap _ ?_ hnodes
  intro a b hne x hx y hy
  simp only [Option.ite_none_right_eq_some] at hx hy
  rintro rfl
  obtain ⟨m, hm⟩ := List.getLast?_eq_some_iff.1 hx.2
  obtain ⟨m', hm'⟩ := List.getLast?_eq_some_iff.1 hy.2
  have hl := hx.1
  have hl' := hy.1
  rw [hm, List.dropLast_concat] at hl
  rw [hm', List.dropLast_concat] at hl'
  exact hne (by rw [hm, hm', hl, hl'])

/-- The names in a directory are in order. -/
theorem pairwise_namesIn (t : Tree) (l : Location) : (t.namesIn l).Pairwise fun a b => a ≤ b := by
  have htrans : ∀ a b c : Name, decide (a ≤ b) = true → decide (b ≤ c) = true →
      decide (a ≤ c) = true := by
    simp only [decide_eq_true_eq]
    exact fun a b c => String.le_trans
  have htotal : ∀ a b : Name, (decide (a ≤ b) || decide (b ≤ a)) = true := by
    simp only [Bool.or_eq_true, decide_eq_true_eq]
    exact String.le_total
  exact (List.pairwise_mergeSort htrans htotal _).imp of_decide_eq_true

theorem Sound.mem_directories (h : t.Sound) : l ∈ t.directories ↔ t.get? l = some .directory := by
  by_cases hl : l = []
  · simp [directories, hl]
  · rw [h.get?_eq_some hl]
    simp [directories, hl]

theorem Sound.nodup_directories (h : t.Sound) : t.directories.Nodup := by
  refine List.nodup_cons.2 ⟨?_, h.nodup.sublist (List.filter_sublist.map _)⟩
  intro hmem
  obtain ⟨entry, hentry, hnil⟩ := List.mem_map.1 hmem
  exact h.ne_nil _ (List.mem_of_mem_filter hentry) hnil

end Tree

/-! ## Paths -/

namespace View

variable {v v' : View} {p dir : Path} {l d : Location} {name : Name} {n : Node} {ending : Ending}

/-- A view as it can be: the current directory is one. -/
structure Sound (v : View) : Prop where
  tree : v.tree.Sound
  here : v.tree.get? v.here = some .directory

/-- The directory that the components of a path lead to, if no link is followed. The empty path
stands for the current directory. -/
def base (v : View) (p : Path) : Option Location :=
  v.tree.walk (if p.isAbsolute then [] else v.here) p.pieces

/-- A path leads to directories only. -/
theorem Sound.base_directory (hv : v.Sound) (h : v.base p = some d) :
    v.tree.get? d = some .directory := by
  refine hv.tree.walk_directory ?_ h
  split
  · exact Tree.get?_nil _
  · exact hv.here

/-- A path leads to an entry of a directory, whether there is one of that name or not. -/
def Leads (v : View) (p : Path) (l : Location) : Prop :=
  ∃ dir name d, p = dir.join name ∧ IsProper name ∧ v.base dir = some d ∧ l = d ++ [name]

/-- A view that has kept the directories of another one, and has no links. -/
structure KeepsDirectories (v v' : View) : Prop where
  sound : v'.Sound
  linkFree : v'.tree.LinkFree
  here : v'.here = v.here
  directories : v.tree.SameDirectories v'.tree

namespace KeepsDirectories

theorem trans {v'' : View} (h : KeepsDirectories v v') (h' : KeepsDirectories v' v'') :
    KeepsDirectories v v'' :=
  ⟨h'.sound, h'.linkFree, h'.here.trans h.here,
    fun m => (h'.directories m).trans (h.directories m)⟩

theorem base_eq (h : KeepsDirectories v v') (p : Path) : v'.base p = v.base p := by
  rw [base, base, h.here, h.directories.walk]

/-- Paths lead where they led. -/
theorem leads_iff (h : KeepsDirectories v v') : v'.Leads p l ↔ v.Leads p l := by
  simp only [Leads, h.base_eq]

end KeepsDirectories

/-- The pieces of a path to an entry. Nothing is lost but an empty piece at the end. -/
theorem pieces_join (p : Path) (name : Name) : ∃ ps, (p.join name).pieces = ps ++ [name] ∧
    (ps = [] ∧ (p.pieces = [] ∨ p.pieces = [""]) ∨
      ps ≠ [] ∧ (p.pieces = ps ++ [""] ∨ p.pieces = ps ∧ ps.getLast? ≠ some "")) := by
  have hentry : Path.isAbsolute ⟨[name]⟩ = false := by
    rw [Path.isAbsolute]
    simp
  rw [Path.join, Path.append, hentry, if_neg Bool.false_ne_true]
  rcases List.eq_nil_or_concat' p.pieces with hnil | ⟨ps, last, hlast⟩
  · exact ⟨[], by simp [hnil], .inl ⟨rfl, .inl hnil⟩⟩
  · rw [hlast, List.getLast?_concat]
    by_cases hempty : last = ""
    · subst hempty
      by_cases hps : ps = []
      · exact ⟨[], by simp [hps], .inl ⟨rfl, .inr (by simp [hps])⟩⟩
      · have hlength := List.length_pos_iff.2 hps
        refine ⟨ps, ?_, .inr ⟨hps, .inl rfl⟩⟩
        simp [hps]
    · refine ⟨ps ++ [last], ?_, .inr ⟨by simp, .inr ⟨rfl, ?_⟩⟩⟩
      · split
        · simp_all
        · simp_all
        · rfl
      · simpa using hempty

theorem isAbsolute_cons (first second : Name) (rest : List Name) :
    Path.isAbsolute ⟨first :: second :: rest⟩ = decide (first = "") := by
  by_cases h : first = ""
  · subst h
    rfl
  · rw [decide_eq_false h, Path.isAbsolute]
    simp [h]

theorem isAbsolute_join (p : Path) (name : Name) : (p.join name).isAbsolute = p.isAbsolute := by
  obtain ⟨ps, hjoin, hpieces⟩ := pieces_join p name
  have hpath : ∀ q : Path, q = ⟨q.pieces⟩ := fun q => rfl
  rw [hpath (p.join name), hpath p, hjoin]
  rcases hpieces with ⟨rfl, hp | hp⟩ | ⟨hne, hp | ⟨hp, hlast⟩⟩ <;> rw [hp]
  · simp [Path.isAbsolute]
  · simp [Path.isAbsolute]
  · obtain ⟨first, ps, rfl⟩ := List.exists_cons_of_ne_nil hne
    cases ps <;> simp only [List.cons_append, List.nil_append, isAbsolute_cons]
  · obtain ⟨first, ps, rfl⟩ := List.exists_cons_of_ne_nil hne
    cases ps with
    | nil =>
      have hfirst : first ≠ "" := by simpa using hlast
      simp only [List.cons_append, List.nil_append, isAbsolute_cons]
      simp [Path.isAbsolute, hfirst]
    | cons second ps => simp only [List.cons_append, isAbsolute_cons]

/-- In front of its name the path of an entry leads where the path of the directory leads. -/
theorem walk_front (p : Path) (name : Name) : ∃ ps, (p.join name).pieces = ps ++ [name] ∧
    ∀ (t : Tree) (here : Location), t.walk here p.pieces = t.walk here ps := by
  obtain ⟨ps, hjoin, hpieces⟩ := pieces_join p name
  have hidle : ∀ (t : Tree) (d : Location), t.walk d [""] = some d := fun t d => Tree.walk_idle rfl
  refine ⟨ps, hjoin, fun t here => ?_⟩
  rcases hpieces with ⟨rfl, hp | hp⟩ | ⟨hne, hp | ⟨hp, -⟩⟩ <;> rw [hp]
  · rw [hidle, Tree.walk_nil]
  · rw [Tree.walk_append]
    simp only [hidle, Option.bind_fun_some]

/-- **The directory that a path to an entry leads to.** -/
theorem base_join (v : View) (p : Path) (name : Name) :
    v.base (p.join name) = (v.base p).bind fun d => v.tree.walk d [name] := by
  obtain ⟨ps, hjoin, hwalk⟩ := walk_front p name
  rw [base, base, isAbsolute_join, hjoin, Tree.walk_append, hwalk]

theorem trimmed_concat (hname : IsProper name) (ps : List Name) :
    Path.trimmed (ps ++ [name]) = ps ++ [name] := by
  cases ps with
  | nil => rfl
  | cons first rest => simp [Path.trimmed, hname.1]

/-- **The parent of an entry** leads where its directory leads. -/
theorem base_parent? (v : View) (dir : Path) (hname : IsProper name) :
    ∃ q, (dir.join name).parent? = some q ∧ v.base q = v.base dir := by
  obtain ⟨ps, hjoin, hwalk⟩ := walk_front dir name
  have hne : name ≠ "" := by
    rintro rfl
    exact absurd hname.1 (by decide)
  have hbase : v.base dir = v.tree.walk (if Path.isAbsolute ⟨ps ++ [name]⟩ then [] else v.here) ps := by
    rw [base, hwalk, ← isAbsolute_join dir name, ← hjoin]
  rw [Path.parent?, hjoin, trimmed_concat hname, hbase]
  cases ps with
  | nil =>
    refine ⟨⟨[""]⟩, if_neg hne, ?_⟩
    have habsolute : Path.isAbsolute ⟨[name]⟩ = false := by simp [Path.isAbsolute]
    rw [List.nil_append, habsolute]
    rfl
  | cons first rest =>
    obtain ⟨second, tail, hsecond⟩ : ∃ second tail, rest ++ [name] = second :: tail :=
      List.exists_cons_of_ne_nil (by simp)
    have habsolute : Path.isAbsolute ⟨first :: rest ++ [name]⟩ = decide (first = "") := by
      rw [List.cons_append, hsecond, isAbsolute_cons]
    rw [habsolute, ← Tree.walk_trimmed]
    have hdrop : (second :: tail).dropLast = rest := by rw [← hsecond, List.dropLast_concat]
    simp only [List.cons_append, hsecond, hdrop]
    split
    · rename_i htop
      refine ⟨_, rfl, ?_⟩
      obtain ⟨rfl, -⟩ := List.cons.inj htop
      rw [htop]
      rfl
    · rename_i hno
      refine ⟨_, rfl, ?_⟩
      -- the pieces at the end that do not move say nothing about where a path starts
      have hsame : Path.isAbsolute ⟨Path.trimmed (first :: rest)⟩ = decide (first = "") := by
        cases hrest : (rest.reverse.dropWhile Path.isIdle).reverse with
        | nil =>
          have hfirst : first ≠ "" := by
            rintro rfl
            exact hno (by rw [Path.trimmed, hrest])
          simp [Path.trimmed, hrest, Path.isAbsolute, hfirst]
        | cons a as => rw [Path.trimmed, hrest, isAbsolute_cons]
      rw [base, hsame]

theorem locate_join_eq (hname : IsProper name) : v.locate ending (dir.join name) =
    v.tree.resolve ending mostLinks (if dir.isAbsolute then [] else v.here)
      (dir.join name).pieces := by
  obtain ⟨ps, hjoin, -⟩ := walk_front dir name
  have hne : (dir.join name).pieces ≠ [""] := by
    rw [hjoin]
    intro h
    have hlast : [name] = [""] := (List.append_inj' (h.trans (List.nil_append [""]).symm) rfl).2
    obtain rfl : name = "" := (List.cons.inj hlast).1
    exact absurd hname.1 (by decide)
  rw [locate, if_neg hne, isAbsolute_join]

/-- **What a path to an entry is resolved to**: that entry of the directory. -/
theorem locate_join (h : v.tree.LinkFree) (hname : IsProper name) (hbase : v.base dir = some d) :
    v.locate ending (dir.join name) =
      if (v.tree.get? (d ++ [name])).isSome ∨ ending ≠ .existing then .ok (d ++ [name])
      else .error .notFound := by
  obtain ⟨ps, hjoin, hwalk⟩ := walk_front dir name
  rw [base, hwalk] at hbase
  rw [locate_join_eq hname, hjoin, Tree.resolve_of_walk hbase, h.resolve_proper hname]

theorem locate_join_error (h : v.tree.LinkFree) (hname : IsProper name) (hbase : v.base dir = none) :
    ∃ f, v.locate ending (dir.join name) = .error f := by
  obtain ⟨ps, hjoin, hwalk⟩ := walk_front dir name
  rw [base, hwalk] at hbase
  rw [locate_join_eq hname, hjoin]
  exact h.resolve_error hbase (by simp)

/-- What is found at a path is what is where it is resolved to. -/
theorem find_of_some (h : v.locate .existing p = .ok l) (hn : v.tree.get? l = some n) :
    v.find p = .ok (l, n) := by
  simp only [find, h, bind, Except.bind, hn]

theorem find_of_none (h : v.locate .existing p = .ok l) (hn : v.tree.get? l = none) :
    v.find p = .error .notFound := by
  simp only [find, h, bind, Except.bind, hn]

theorem find_of_error {f : Fault} (h : v.locate .existing p = .error f) : v.find p = .error f := by
  rw [find, h]
  rfl

/-- **What a path to an entry leads to.** -/
theorem find_join (h : v.tree.LinkFree) (hname : IsProper name) (hbase : v.base dir = some d) :
    v.find (dir.join name) = match v.tree.get? (d ++ [name]) with
      | none => .error .notFound
      | some n => .ok (d ++ [name], n) := by
  have hlocate : v.locate .existing (dir.join name) = _ := locate_join h hname hbase
  cases hget : v.tree.get? (d ++ [name]) with
  | none =>
    rw [hget] at hlocate
    exact find_of_error hlocate
  | some n =>
    rw [hget] at hlocate
    exact find_of_some hlocate hget

theorem find_join_error (h : v.tree.LinkFree) (hname : IsProper name) (hbase : v.base dir = none) :
    ∃ f, v.find (dir.join name) = .error f := by
  have herror : ∃ f, v.locate .existing (dir.join name) = .error f :=
    locate_join_error h hname hbase
  obtain ⟨f, hf⟩ := herror
  exact ⟨f, find_of_error hf⟩

/-- What is found at a path is found where it is resolved to. -/
theorem find_eq_ok : v.find p = .ok (l, n) ↔
    v.locate .existing p = .ok l ∧ v.tree.get? l = some n := by
  constructor
  · intro h
    cases hloc : v.locate .existing p with
    | error f =>
      rw [find_of_error hloc] at h
      cases h
    | ok m =>
      cases hget : v.tree.get? m with
      | none =>
        rw [find_of_none hloc hget] at h
        cases h
      | some k =>
        rw [find_of_some hloc hget] at h
        obtain ⟨rfl, rfl⟩ := Prod.mk.inj (Except.ok.inj h)
        exact ⟨rfl, hget⟩
  · rintro ⟨hloc, hget⟩
    exact find_of_some hloc hget

/-- **The directories that are found**: those that a walk reaches. -/
theorem find_directory (hv : v.Sound) (h : v.tree.LinkFree) :
    v.find p = .ok (l, .directory) ↔ p.pieces ≠ [""] ∧ v.base p = some l := by
  rw [find_eq_ok, locate, base]
  have hstart : v.tree.get? (if p.isAbsolute then [] else v.here) = some .directory := by
    split
    · exact Tree.get?_nil _
    · exact hv.here
  constructor
  · rintro ⟨hok, hget⟩
    split at hok
    · cases hok
    · refine ⟨‹_›, (h.resolve_eq_ok hok).resolve_right ?_⟩
      rintro ⟨c, hc⟩
      rw [hget] at hc
      cases hc
  · rintro ⟨hne, hwalk⟩
    have hresolve : v.tree.resolve .existing mostLinks _ (p.pieces ++ []) = _ :=
      Tree.resolve_of_walk hwalk []
    rw [List.append_nil, Tree.resolve] at hresolve
    rw [if_neg hne]
    exact ⟨hresolve, hv.tree.walk_directory hstart hwalk⟩

theorem isDirectory_iff (hv : v.Sound) (h : v.tree.LinkFree) :
    v.isDirectory p = true ↔ p.pieces ≠ [""] ∧ ∃ l, v.base p = some l := by
  have hfind : v.isDirectory p = true ↔ ∃ l, v.find p = .ok (l, .directory) := by
    rw [isDirectory]
    split
    · exact iff_of_true rfl ⟨_, ‹_›⟩
    · rename_i hno
      refine iff_of_false Bool.false_ne_true ?_
      rintro ⟨l, hl⟩
      exact hno l hl
  rw [hfind, ← exists_and_left]
  exact exists_congr fun l => find_directory hv h

/-- An entry is a directory. -/
theorem isDirectory_join (h : v.tree.LinkFree) (hname : IsProper name) (hbase : v.base dir = some d) :
    v.isDirectory (dir.join name) = true ↔ v.tree.get? (d ++ [name]) = some .directory := by
  rw [isDirectory, find_join h hname hbase]
  cases v.tree.get? (d ++ [name]) with
  | none => simp
  | some n => cases n <;> simp

/-- An entry is a file. -/
theorem isFile_join (h : v.tree.LinkFree) (hname : IsProper name) (hbase : v.base dir = some d) :
    v.isFile (dir.join name) = true ↔ ∃ c, v.tree.get? (d ++ [name]) = some (.file c) := by
  rw [isFile, find_join h hname hbase]
  cases v.tree.get? (d ++ [name]) with
  | none => simp
  | some n => cases n <;> simp

theorem base_entry (hname : IsProper name) (hbase : v.base dir = some d)
    (hentry : v.tree.get? (d ++ [name]) = some .directory) :
    v.base (dir.join name) = some (d ++ [name]) := by
  rw [base_join, hbase, Option.bind_some, Tree.walk_proper hname, if_pos hentry]

/-- A directory that is found is listed by the names in it. -/
theorem list_iff_find {names : List Name} :
    v.list p = .ok (l, names) ↔ v.find p = .ok (l, .directory) ∧ names = v.tree.namesIn l := by
  rw [list]
  cases hfind : v.find p with
  | error f => exact ⟨nofun, fun h => nomatch h.1⟩
  | ok found =>
    obtain ⟨m, n⟩ := found
    cases n with
    | directory =>
      constructor
      · intro h
        obtain ⟨rfl, rfl⟩ := Prod.mk.inj (Except.ok.inj h)
        exact ⟨rfl, rfl⟩
      · rintro ⟨h, rfl⟩
        obtain ⟨rfl, -⟩ := Prod.mk.inj (Except.ok.inj h)
        rfl
    | file c => exact ⟨nofun, fun h => nomatch h.1⟩
    | link target => exact ⟨nofun, fun h => nomatch h.1⟩

/-- **What is listed.** -/
theorem list_eq_ok (hv : v.Sound) (h : v.tree.LinkFree) {names : List Name} :
    v.list p = .ok (l, names) ↔
      (p.pieces ≠ [""] ∧ v.base p = some l) ∧ names = v.tree.namesIn l := by
  rw [list_iff_find, find_directory hv h]

end View

end SdkWiring
