import Mathlib.Data.List.Shortlex
import SdkWiring.Proofs.Files.Parents
import SdkWiring.Proofs.Project.Locate
import SdkWiring.Proofs.Text.ByteOrder

/-!
# The order of a search

A search enters the directories below its start level by level, and those of a level in the order of
their names. So of all files that it offers it gives the one on the lowest level whose names come
first, and there is none just if it gives none.

* `Search.Enters`, `Search.Offers`: the directories that a search comes to, and the files that it could
  give, by the names on the way from the start.
* `Search.Precedes`: one directory is queued before another one.
* `Search.Frontier`: what the queue holds. Listing its first directory keeps it, `Frontier.next`.
* `Frontier.run`: what a search gives whose queue holds this.
* `View.search_eq_least`: what a search gives.
-/

namespace SdkWiring

open SdkWiring.Tree
open List (Shortlex)

/-- An order by length and then by names is kept by names that are added, no more to the lesser
list. -/
theorem shortlex_append {r : Name → Name → Prop} {a b x y : List Name} (h : Shortlex r a b)
    (hlength : x.length ≤ y.length) : Shortlex r (a ++ x) (b ++ y) := by
  have hlex : ∀ {a b : List Name}, List.Lex r a b → a.length = b.length →
      List.Lex r (a ++ x) (b ++ y) := by
    intro a b hab
    induction hab with
    | nil => simp
    | cons _ ih => exact fun hlen => .cons (ih (Nat.succ.inj hlen))
    | rel hr => exact fun _ => .rel hr
  rw [List.shortlex_def] at h ⊢
  simp only [List.length_append]
  rcases h with hlt | ⟨heq, hab⟩
  · exact .inl (by omega)
  · rcases hlength.lt_or_eq with hlt | hsame
    · exact .inl (by omega)
    · exact .inr ⟨by omega, hlex hab heq⟩

namespace Search

variable {s : Search} {v : View} {top dir : Path} {d : Location} {names other front : List Name}
  {name m n : Name} {unlisted : List Location} {queue : List Waiting} {pending : List (List Name)}

/-! ## Directories and files on the way -/

/-- A search comes to a directory: none on the way to it from the start is left out. -/
def Enters (s : Search) (v : View) (top : Path) (names : List Name) : Prop :=
  ∀ front name, front ++ [name] <+: names → IsProper name ∧
    v.isDirectory (top.descend (front ++ [name])) = true ∧
      s.skips (top.descend (front ++ [name])) true = false

/-- A file that a search could give: it stands in a directory that the search comes to, is not left
out, and is wanted. -/
structure Offers (s : Search) (v : View) (top : Path) (names : List Name) : Prop where
  entered : s.Enters v top names.dropLast
  proper : ∀ name ∈ names, IsProper name
  isFile : v.isFile (top.descend names) = true
  kept : s.skips (top.descend names) false = false
  wanted : s.wants (top.descend names) = true

/-- Of the files that a search could give, the one on the lowest level, and of those on that level
the one whose names come first. -/
structure IsLeast (s : Search) (v : View) (top : Path) (names : List Name) : Prop where
  offered : s.Offers v top names
  least : ∀ other, s.Offers v top other → other ≠ names → Shortlex Name.before names other

theorem enters_nil : s.Enters v top [] := by
  intro front name h
  simp at h

theorem Enters.of_prefix (h : s.Enters v top names) (hfront : front <+: names) :
    s.Enters v top front :=
  fun start name hstart => h start name (hstart.trans hfront)

theorem enters_concat : s.Enters v top (names ++ [name]) ↔ s.Enters v top names ∧ IsProper name ∧
    v.isDirectory ((top.descend names).join name) = true ∧
      s.skips ((top.descend names).join name) true = false := by
  rw [← Path.descend_concat]
  constructor
  · intro h
    exact ⟨h.of_prefix (List.prefix_append _ _), h names name List.prefix_rfl⟩
  · rintro ⟨h, hlast⟩ front other hfront
    rcases List.prefix_concat_iff.1 hfront with heq | hprefix
    · obtain ⟨rfl, hname⟩ := List.append_inj' heq rfl
      obtain rfl : other = name := (List.cons.inj hname).1
      exact hlast
    · exact h front other hprefix

section Start

variable (hv : v.Sound) (hlinks : v.tree.LinkFree) (htop : v.isDirectory top = true)
  (hbase : v.base top = some d)

include hlinks hbase in
/-- Where a directory stands that a search comes to. -/
theorem Enters.base (h : s.Enters v top names) : v.base (top.descend names) = some (d ++ names) := by
  induction names using List.reverseRecOn with
  | nil => rwa [Path.descend_nil, List.append_nil]
  | append_singleton names name ih =>
    obtain ⟨hfront, hproper, hdirectory, -⟩ := enters_concat.1 h
    have hfrontBase := ih hfront
    rw [Path.descend_concat, ← List.append_assoc]
    exact View.base_entry hproper hfrontBase
      ((View.isDirectory_join hlinks hproper hfrontBase).1 hdirectory)

include htop in
theorem Enters.isDirectory (h : s.Enters v top names) :
    v.isDirectory (top.descend names) = true := by
  rcases List.eq_nil_or_concat' names with rfl | ⟨front, name, rfl⟩
  · exact htop
  · exact (h front name List.prefix_rfl).2.1

include htop in
/-- The start is no file. -/
theorem Offers.exists_concat (h : s.Offers v top names) : ∃ front name, names = front ++ [name] := by
  rcases List.eq_nil_or_concat' names with rfl | hconcat
  · have hfile := h.isFile
    rw [Path.descend_nil, View.isFile] at hfile
    rw [View.isDirectory] at htop
    split at hfile
    · rename_i hfind
      rw [hfind] at htop
      cases htop
    · cases hfile
  · exact hconcat

include hv hlinks hbase in
theorem Enters.get? (h : s.Enters v top names) : v.tree.get? (d ++ names) = some .directory :=
  hv.base_directory (h.base hlinks hbase)

include hv hlinks htop hbase in
/-- What is listed there. -/
theorem Enters.list (h : s.Enters v top names) : v.list (top.descend names) =
    .ok (d ++ names, v.tree.namesIn (d ++ names)) := by
  have hne := ((View.isDirectory_iff hv hlinks).1 (h.isDirectory htop)).1
  exact (View.list_eq_ok hv hlinks).2 ⟨⟨hne, h.base hlinks hbase⟩, rfl⟩

include hv hlinks hbase in
/-- **The directories that are queued** when a directory is listed are those that the search comes to
next. -/
theorem enters_iff (h : s.Enters v top names) : s.Enters v top (names ++ [n]) ↔
    n ∈ v.tree.namesIn (d ++ names) ∧ (v.isDirectory ((top.descend names).join n) &&
      !s.skips ((top.descend names).join n) (v.isDirectory ((top.descend names).join n))) = true := by
  have hdir := h.base hlinks hbase
  rw [enters_concat, hv.tree.mem_namesIn]
  constructor
  · rintro ⟨-, hproper, hdirectory, hkept⟩
    have hget := (View.isDirectory_join hlinks hproper hdir).1 hdirectory
    exact ⟨by rw [hget]; rfl, by simp [hdirectory, hkept]⟩
  · rintro ⟨hsome, hkept⟩
    obtain ⟨node, hnode⟩ := Option.isSome_iff_exists.1 hsome
    simp only [Bool.and_eq_true, Bool.not_eq_true'] at hkept
    obtain ⟨hdirectory, hkept⟩ := hkept
    rw [hdirectory] at hkept
    exact ⟨h, hv.tree.proper_of_get? hnode, hdirectory, hkept⟩

include hv hlinks hbase in
/-- **The files that are looked at** when a directory is listed are those that the search could give
there. -/
theorem offers_iff (h : s.Enters v top names) : s.Offers v top (names ++ [n]) ↔
    n ∈ v.tree.namesIn (d ++ names) ∧
      (!s.skips ((top.descend names).join n) (v.isDirectory ((top.descend names).join n)) &&
        (!v.isDirectory ((top.descend names).join n) && s.wants ((top.descend names).join n))) =
          true := by
  have hdir := h.base hlinks hbase
  rw [hv.tree.mem_namesIn]
  constructor
  · intro hoffers
    have hproper := hoffers.proper n (by simp)
    have hfile := hoffers.isFile
    have hkept := hoffers.kept
    have hwanted := hoffers.wanted
    rw [Path.descend_concat] at hfile hkept hwanted
    obtain ⟨c, hget⟩ := (View.isFile_join hlinks hproper hdir).1 hfile
    have hnot : v.isDirectory ((top.descend names).join n) = false := by
      rw [← Bool.not_eq_true, View.isDirectory_join hlinks hproper hdir, hget]
      nofun
    exact ⟨by rw [hget]; rfl, by simp [hnot, hkept, hwanted]⟩
  · rintro ⟨hsome, hkept⟩
    obtain ⟨node, hnode⟩ := Option.isSome_iff_exists.1 hsome
    have hproper := hv.tree.proper_of_get? hnode
    simp only [Bool.and_eq_true, Bool.not_eq_true'] at hkept
    obtain ⟨hkept, hnot, hwanted⟩ := hkept
    rw [hnot] at hkept
    rw [← Bool.not_eq_true, View.isDirectory_join hlinks hproper hdir, hnode] at hnot
    -- what is listed and no directory is a file, as there are no links
    have hfile : v.isFile ((top.descend names).join n) = true := by
      rw [View.isFile_join hlinks hproper hdir, hnode]
      cases node with
      | directory => exact absurd rfl hnot
      | file c => exact ⟨c, rfl⟩
      | link target => exact absurd hnode (hlinks _ _)
    have hnames : ∀ other ∈ d ++ names ++ [n], IsProper other :=
      hv.tree.proper _ (mem_of_get? hnode (by simp))
    refine ⟨by rwa [List.dropLast_concat], fun other hother => hnames other ?_, ?_, ?_, ?_⟩
    · rw [List.append_assoc]
      exact List.mem_append_right _ hother
    all_goals rwa [Path.descend_concat]

end Start

/-! ## What the queue holds -/

/-- One directory is queued before another one: it comes first, and what is in it comes before what is
in the other one. -/
def Precedes (a b : List Name) : Prop :=
  Shortlex Name.before a b ∧ (b.length ≤ a.length ∨ Shortlex Name.before b.dropLast a)

/-- What waits in the queue comes before what is in the directory that is listed. -/
theorem Precedes.child {a b : List Name} (h : Precedes a b) (n : Name) : Precedes b (a ++ [n]) := by
  obtain ⟨hab, hnear⟩ := h
  refine ⟨?_, .inr (by rwa [List.dropLast_concat])⟩
  rcases hnear with hlength | hdrop
  · refine .of_length_lt ?_
    rw [List.length_append, List.length_singleton]
    omega
  · rcases List.eq_nil_or_concat' b with rfl | ⟨front, last, rfl⟩
    · exact absurd hab List.not_shortlex_nil_right
    · rw [List.dropLast_concat] at hdrop
      exact shortlex_append hdrop le_rfl

theorem Precedes.sibling (names : List Name) (h : Name.before m n) :
    Precedes (names ++ [m]) (names ++ [n]) :=
  ⟨.append_left ((List.shortlex_singleton_iff m n).2 h) names, .inl (by simp)⟩

/-- A directory in the queue, by the names that lead to it. -/
def Awaits (top : Path) (d : Location) (w : Waiting) (names : List Name) : Prop :=
  w.path = top.descend names ∧ ∀ a ∈ w.ancestors, a.length < (d ++ names).length

/-- The directories that are queued when a directory is listed. -/
def doors (s : Search) (v : View) (top : Path) (d : Location) (names : List Name) :
    List (List Name) :=
  ((v.tree.namesIn (d ++ names)).filter fun n => v.isDirectory ((top.descend names).join n) &&
    !s.skips ((top.descend names).join n) (v.isDirectory ((top.descend names).join n))).map
      (names ++ [·])

theorem mem_doors (hv : v.Sound) (hlinks : v.tree.LinkFree) (hbase : v.base top = some d)
    (h : s.Enters v top names) :
    other ∈ s.doors v top d names ↔ ∃ n, other = names ++ [n] ∧ s.Enters v top other := by
  rw [doors, List.mem_map]
  simp only [List.mem_filter, ← enters_iff hv hlinks hbase h]
  constructor
  · rintro ⟨n, hn, rfl⟩
    exact ⟨n, rfl, hn⟩
  · rintro ⟨n, rfl, hn⟩
    exact ⟨n, hn, rfl⟩

/-- They are in order. -/
theorem pairwise_doors (hv : v.Sound) : (s.doors v top d names).Pairwise Precedes := by
  have hsorted := ((pairwise_namesIn v.tree (d ++ names)).and
    (hv.tree.nodup_namesIn (d ++ names))).filter fun n =>
      v.isDirectory ((top.descend names).join n) &&
        !s.skips ((top.descend names).join n) (v.isDirectory ((top.descend names).join n))
  rw [doors, List.pairwise_map]
  exact hsorted.imp fun hmn => .sibling names (Name.before_of_le hmn.1 hmn.2)

/-- **What the queue holds**: directories that the search comes to, in order and not listed yet, and on
the way to every file that it could give one of them. -/
structure Frontier (s : Search) (v : View) (top : Path) (d : Location) (unlisted : List Location)
    (queue : List Waiting) (pending : List (List Name)) : Prop where
  queue : List.Forall₂ (Awaits top d) queue pending
  entered : ∀ names ∈ pending, s.Enters v top names
  ordered : pending.Pairwise Precedes
  unlisted : ∀ names, s.Enters v top names → (∃ front ∈ pending, front <+: names) →
    d ++ names ∈ unlisted
  complete : ∀ names, s.Offers v top names → ∃ front ∈ pending, front <+: names.dropLast

section Start

variable (hv : v.Sound) (hlinks : v.tree.LinkFree) (htop : v.isDirectory top = true)
  (hbase : v.base top = some d)

include hv hlinks hbase in
/-- What the queue holds at the start. -/
theorem frontier_start : s.Frontier v top d v.tree.directories [⟨top, []⟩] [[]] where
  queue := .cons ⟨rfl, nofun⟩ .nil
  entered := by
    intro names hnames
    rw [List.mem_singleton.1 hnames]
    exact enters_nil
  ordered := List.pairwise_singleton _ _
  unlisted _ h _ := hv.tree.mem_directories.2 (h.get? hv hlinks hbase)
  complete _ _ := ⟨[], List.mem_singleton_self _, List.nil_prefix⟩

/-- What is queued when a directory is listed. -/
theorem awaits_doors {w : Waiting} (h : Awaits top d w names) :
    List.Forall₂ (Awaits top d)
      (((s.entries v w.path (v.tree.namesIn (d ++ names))).filter v.isDirectory).map
        fun p => ⟨p, w.ancestors ++ [d ++ names]⟩) (s.doors v top d names) := by
  obtain ⟨hpath, hancestors⟩ := h
  rw [Search.entries_filter, hpath, doors, List.map_map, List.forall₂_map_left_iff,
    List.forall₂_map_right_iff, List.forall₂_same]
  intro n _
  refine ⟨(Path.descend_concat _ _ _).symm, fun a ha => ?_⟩
  have hlength : (d ++ (names ++ [n])).length = (d ++ names).length + 1 := by simp [Nat.add_assoc]
  rcases List.mem_append.1 ha with ha | ha
  · have := hancestors a ha
    omega
  · rw [List.mem_singleton.1 ha]
    omega

/-- A directory that waits does not lie on the way to one that comes first. -/
theorem Precedes.not_above {a b : List Name} (h : Precedes a b) : ¬ b <+: a := by
  intro hprefix
  rcases List.shortlex_def.1 h.1 with hlength | ⟨hlength, -⟩
  · have := hprefix.length_le
    omega
  · obtain rfl := hprefix.eq_of_length hlength.symm
    exact Std.Asymm.asymm (r := Shortlex Name.before) _ _ h.1 h.1

include hv hlinks hbase in
/-- What lies below a directory in the queue was not listed yet, when the first one was. -/
theorem Frontier.unlisted_next (h : s.Frontier v top d unlisted queue (names :: pending))
    (hother : s.Enters v top other)
    (hbelow : ∃ front ∈ pending ++ s.doors v top d names, front <+: other) :
    d ++ other ∈ unlisted.erase (d ++ names) := by
  obtain ⟨front, hfront, hprefix⟩ := hbelow
  have hplace : other ≠ names ∧ ∃ front ∈ names :: pending, front <+: other := by
    rcases List.mem_append.1 hfront with hwaits | hdoor
    · refine ⟨?_, front, List.mem_cons_of_mem _ hwaits, hprefix⟩
      rintro rfl
      exact ((List.pairwise_cons.1 h.ordered).1 front hwaits).not_above hprefix
    · obtain ⟨n, rfl, -⟩ :=
        (mem_doors hv hlinks hbase (h.entered names List.mem_cons_self)).1 hdoor
      refine ⟨?_, names, List.mem_cons_self, (List.prefix_append _ _).trans hprefix⟩
      rintro rfl
      simpa using hprefix.length_le
  have hne : d ++ other ≠ d ++ names := fun heq => hplace.1 (List.append_cancel_left heq)
  exact (List.mem_erase_of_ne hne).2 (h.unlisted other hother hplace.2)

include hv hlinks htop hbase in
/-- On the way to every file that the search could give, there is one of the directories that are left,
unless the file is in the first one. -/
theorem Frontier.complete_next (h : s.Frontier v top d unlisted queue (names :: pending))
    (hnone : ∀ n, ¬ s.Offers v top (names ++ [n])) (hother : s.Offers v top other) :
    ∃ front ∈ pending ++ s.doors v top d names, front <+: other.dropLast := by
  obtain ⟨front, hfront, rest, hrest⟩ := h.complete other hother
  rcases List.mem_cons.1 hfront with rfl | hfront
  · cases rest with
    | nil =>
      rw [List.append_nil] at hrest
      obtain ⟨front', n, rfl⟩ := hother.exists_concat htop
      rw [List.dropLast_concat] at hrest
      exact absurd (hrest ▸ hother) (hnone n)
    | cons n rest =>
      have hprefix : front ++ [n] <+: other.dropLast :=
        ⟨rest, by rw [← hrest, List.append_assoc, List.singleton_append]⟩
      refine ⟨front ++ [n], List.mem_append_right _ ?_, hprefix⟩
      exact (mem_doors hv hlinks hbase (h.entered front List.mem_cons_self)).2
        ⟨n, rfl, hother.entered.of_prefix hprefix⟩
  · exact ⟨front, List.mem_append_left _ hfront, rest, hrest⟩

include hv hlinks htop hbase in
/-- **Listing the first directory keeps what the queue holds**, unless a file is found in it. -/
theorem Frontier.next {w : Waiting} (h : s.Frontier v top d unlisted (w :: queue) (names :: pending))
    (hnone : ∀ n, ¬ s.Offers v top (names ++ [n])) :
    s.Frontier v top d (unlisted.erase (d ++ names))
      (queue ++ ((s.entries v w.path (v.tree.namesIn (d ++ names))).filter v.isDirectory).map
        fun p => ⟨p, w.ancestors ++ [d ++ names]⟩)
      (pending ++ s.doors v top d names) := by
  obtain ⟨hw, hqueue⟩ := List.forall₂_cons.1 h.queue
  obtain ⟨hfirst, hordered⟩ := List.pairwise_cons.1 h.ordered
  have hdoors : ∀ other, other ∈ s.doors v top d names ↔
      ∃ n, other = names ++ [n] ∧ s.Enters v top other := fun other =>
    mem_doors hv hlinks hbase (h.entered names List.mem_cons_self)
  refine ⟨List.rel_append hqueue (awaits_doors hw), fun other hother => ?_, ?_,
    fun other hother => h.unlisted_next hv hlinks hbase hother,
    fun other hother => h.complete_next hv hlinks htop hbase hnone hother⟩
  · rcases List.mem_append.1 hother with hother | hother
    · exact h.entered other (List.mem_cons_of_mem _ hother)
    · obtain ⟨n, -, hn⟩ := (hdoors other).1 hother
      exact hn
  · refine List.pairwise_append.2 ⟨hordered, pairwise_doors hv, fun a ha b hb => ?_⟩
    obtain ⟨n, rfl, -⟩ := (hdoors b).1 hb
    exact (hfirst a ha).child n

include hv hlinks htop hbase in
/-- The first directory can be listed, and was not listed yet. -/
theorem Frontier.first {w : Waiting} (h : s.Frontier v top d unlisted (w :: queue) pending) :
    ∃ names rest, pending = names :: rest ∧ w.path = top.descend names ∧ s.Enters v top names ∧
      v.list w.path = .ok (d ++ names, v.tree.namesIn (d ++ names)) ∧ d ++ names ∉ w.ancestors ∧
        d ++ names ∈ unlisted := by
  obtain ⟨names, rest, ⟨hpath, hancestors⟩, -, rfl⟩ := List.forall₂_cons_left_iff.1 h.queue
  have henters := h.entered names List.mem_cons_self
  refine ⟨names, rest, rfl, hpath, henters, ?_, fun hcycle => ?_, ?_⟩
  · rw [hpath]
    exact henters.list hv hlinks htop hbase
  · exact lt_irrefl _ (hancestors _ hcycle)
  · exact h.unlisted names henters ⟨names, List.mem_cons_self, List.prefix_rfl⟩

/-- What a search gives: the least file that it could give, or nothing if there is none. -/
def Gives (s : Search) (v : View) (top : Path) : Option Path → Prop
  | none => ∀ names, ¬ s.Offers v top names
  | some found => ∃ names, found = top.descend names ∧ s.IsLeast v top names

include htop in
/-- **The file that is found in a directory** is the least one that the search could give. -/
theorem Frontier.isLeast (h : s.Frontier v top d unlisted queue (names :: pending))
    (hoffers : s.Offers v top (names ++ [name]))
    (hfirst : ∀ n, s.Offers v top (names ++ [n]) → name ≤ n) : s.IsLeast v top (names ++ [name]) := by
  refine ⟨hoffers, fun other hother hne => ?_⟩
  obtain ⟨front, hfront, rest, hrest⟩ := h.complete other hother
  obtain ⟨start, n, rfl⟩ := hother.exists_concat htop
  rw [List.dropLast_concat] at hrest
  subst hrest
  rcases List.mem_cons.1 hfront with rfl | hfront
  · rw [List.append_assoc]
    refine .append_left ?_ front
    cases rest with
    | nil =>
      rw [List.append_nil] at hother
      rw [List.nil_append, List.shortlex_singleton_iff]
      refine Name.before_of_le (hfirst n hother) ?_
      rintro rfl
      simp at hne
    | cons m rest => exact .of_length_lt (by simp)
  · have hlt := ((List.pairwise_cons.1 h.ordered).1 front hfront).1
    rw [List.append_assoc]
    exact shortlex_append hlt (by simp)

include hv hlinks htop hbase in
/-- **What a search gives** whose queue holds the directories that are left. -/
theorem Frontier.run (h : s.Frontier v top d unlisted queue pending) :
    ∃ result, (s.run v unlisted queue).result = .ok result ∧ s.Gives v top result := by
  -- each directory that is listed gives the least file or leaves a queue that holds what is left
  induction unlisted, queue using Search.run.induct s v generalizing pending with
  | case1 unlisted =>
    refine ⟨none, by rw [Search.run]; rfl, fun names hoffers => ?_⟩
    obtain ⟨front, hfront, -⟩ := h.complete names hoffers
    rw [List.forall₂_nil_left_iff.1 h.queue] at hfront
    cases hfront
  | case2 unlisted dir queue fault hlist =>
    obtain ⟨names, rest, -, -, -, hnames, -⟩ := h.first hv hlinks htop hbase
    rw [hlist] at hnames
    cases hnames
  | case3 unlisted dir queue here names hlist hcycle =>
    obtain ⟨front, rest, -, -, -, hnames, hnot, -⟩ := h.first hv hlinks htop hbase
    obtain ⟨rfl, -⟩ := Prod.mk.inj (Except.ok.inj (hlist.symm.trans hnames))
    exact absurd hcycle hnot
  | case4 unlisted dir queue here names hlist hcycle hmem entries found =>
    rename_i hfind
    obtain ⟨front, rest, rfl, hpath, henters, hnames, -⟩ := h.first hv hlinks htop hbase
    obtain ⟨rfl, rfl⟩ := Prod.mk.inj (Except.ok.inj (hlist.symm.trans hnames))
    rw [Search.run, hlist]
    simp only [if_neg hcycle, dif_pos hmem]
    rw [hfind]
    refine ⟨some found, rfl, ?_⟩
    rw [entries_find?, hpath, Option.map_eq_some_iff] at hfind
    obtain ⟨name, hname, rfl⟩ := hfind
    have hwanted := List.find?_some hname
    have hoffers := fun n => offers_iff (n := n) hv hlinks hbase henters
    refine ⟨front ++ [name], (Path.descend_concat _ _ _).symm, h.isLeast htop
      ((hoffers name).2 ⟨List.mem_of_find?_eq_some hname, hwanted⟩) fun n hn => ?_⟩
    obtain ⟨hn, hwanted⟩ := (hoffers n).1 hn
    exact le_of_find? (pairwise_namesIn _ _) hname n hn hwanted
  | case5 unlisted dir queue here names hlist hcycle hmem entries hfind next =>
    rename_i ih
    obtain ⟨front, rest, rfl, hpath, henters, hnames, -⟩ := h.first hv hlinks htop hbase
    obtain ⟨rfl, rfl⟩ := Prod.mk.inj (Except.ok.inj (hlist.symm.trans hnames))
    rw [Search.run, hlist]
    simp only [if_neg hcycle, dif_pos hmem]
    rw [hfind]
    refine ih (h.next hv hlinks htop hbase fun n hoffers => ?_)
    obtain ⟨hn, hwanted⟩ := (offers_iff hv hlinks hbase henters).1 hoffers
    rw [entries_find?, hpath, Option.map_eq_none_iff, List.find?_eq_none] at hfind
    exact hfind n hn hwanted
  | case6 unlisted dir queue here names hlist hcycle hmem ih =>
    obtain ⟨front, rest, -, -, -, hnames, -, hunlisted⟩ := h.first hv hlinks htop hbase
    obtain ⟨rfl, -⟩ := Prod.mk.inj (Except.ok.inj (hlist.symm.trans hnames))
    exact absurd hunlisted hmem

include hlinks hbase in
/-- What a search could give is a file of the tree. -/
theorem Offers.get? (h : s.Offers v top (names ++ [name])) :
    ∃ c, v.tree.get? (d ++ (names ++ [name])) = some (.file c) := by
  have henters := h.entered
  rw [List.dropLast_concat] at henters
  have hfile := h.isFile
  rw [Path.descend_concat] at hfile
  rw [← List.append_assoc]
  exact (View.isFile_join hlinks (h.proper name (by simp)) (henters.base hlinks hbase)).1 hfile

end Start

/-- Two least files are the same. -/
theorem IsLeast.unique (h : s.IsLeast v top names) (h' : s.IsLeast v top other) : names = other := by
  by_contra hne
  have hlt := h.least other h'.offered (Ne.symm hne)
  have hgt := h'.least names h.offered hne
  exact Std.Asymm.asymm (r := Shortlex Name.before) _ _ hlt hgt

end Search

namespace View

variable {s : Search} {v : View} {top : Path}

/-- What a search gives. -/
theorem search_gives (s : Search) (hv : v.Sound) (hlinks : v.tree.LinkFree)
    (htop : v.isDirectory top = true) :
    ∃ result, (v.search s top).result = .ok result ∧ s.Gives v top result := by
  obtain ⟨-, d, hbase⟩ := (isDirectory_iff hv hlinks).1 htop
  exact (Search.frontier_start hv hlinks hbase).run hv hlinks htop hbase

/-- A file that is given could be given. -/
theorem search_offers {found : Path} (hv : v.Sound) (hlinks : v.tree.LinkFree)
    (h : (v.search s top).result = .ok (some found)) :
    ∃ names, found = top.descend names ∧ s.Offers v top names := by
  cases hlist : v.list top with
  | error fault =>
    rw [search, Search.run, hlist] at h
    cases h
  | ok listed =>
    obtain ⟨l, listed⟩ := listed
    obtain ⟨⟨hne, hbase⟩, -⟩ := (list_eq_ok hv hlinks).1 hlist
    obtain ⟨result, hresult, hgives⟩ :=
      search_gives s hv hlinks ((isDirectory_iff hv hlinks).2 ⟨hne, _, hbase⟩)
    obtain rfl := Except.ok.inj (hresult.symm.trans h)
    obtain ⟨names, hfound, hleast⟩ := hgives
    exact ⟨names, hfound, hleast.offered⟩

/-- The only file that could be given is given. -/
theorem search_only {names : List Name} (hv : v.Sound) (hlinks : v.tree.LinkFree)
    (htop : v.isDirectory top = true) (hoffers : s.Offers v top names)
    (honly : ∀ other, s.Offers v top other → other = names) :
    (v.search s top).result = .ok (some (top.descend names)) := by
  obtain ⟨result, hresult, hgives⟩ := search_gives s hv hlinks htop
  cases result with
  | none => exact absurd hoffers (hgives names)
  | some found =>
    obtain ⟨other, rfl, hleast⟩ := hgives
    rw [hresult, honly other hleast.offered]

/-- **What a search gives.** Of the files that are wanted, not left out and reached through directories
that are not left out, it gives the one on the lowest level, and of those on that level the one whose
names come first, byte by byte. It gives nothing just if there is no such file. -/
theorem search_eq_least (s : Search) (hv : v.Sound) (hlinks : v.tree.LinkFree)
    (htop : v.isDirectory top = true) :
    ∃ result, (v.search s top).result = .ok result ∧
      (result = none ↔ ∀ names, ¬ s.Offers v top names) ∧
      ∀ found, result = some found ↔ ∃ names, found = top.descend names ∧ s.IsLeast v top names := by
  obtain ⟨result, hresult, hgives⟩ := search_gives s hv hlinks htop
  refine ⟨result, hresult, ?_⟩
  cases result with
  | none =>
    refine ⟨iff_of_true rfl hgives, fun found => iff_of_false nofun ?_⟩
    rintro ⟨names, -, hleast⟩
    exact hgives names hleast.offered
  | some file =>
    obtain ⟨names, rfl, hleast⟩ := hgives
    refine ⟨iff_of_false nofun fun hnone => hnone names hleast.offered, fun found => ?_⟩
    constructor
    · intro hfound
      exact ⟨names, (Option.some.inj hfound).symm, hleast⟩
    · rintro ⟨other, rfl, hother⟩
      rw [hleast.unique hother]

theorem isDirectory_app (delegate : Text) : (appView delegate).isDirectory ⟨["."]⟩ = true :=
  (isDirectory_iff (sound_app _) (linkFree_app _)).2 ⟨by decide, [], rfl⟩

/-- The small project has two files, each a level down from the top. -/
theorem offers_app {delegate : Text} {names : List Name}
    (h : s.Offers (appView delegate) ⟨["."]⟩ names) :
    names = ["App.xcodeproj", "project.pbxproj"] ∨ names = ["App", "Start.swift"] := by
  obtain ⟨front, name, rfl⟩ := h.exists_concat (isDirectory_app _)
  obtain ⟨c, hget⟩ := h.get? (linkFree_app _) (d := []) rfl
  have hmem := Tree.mem_of_get? hget (by simp)
  simp only [appView, List.nil_append, List.mem_cons, List.not_mem_nil, or_false, Prod.mk.injEq,
    reduceCtorEq, and_false, false_or] at hmem
  exact hmem.imp And.left And.left

/-- The delegate of the small project is given if it is wanted and not left out, and its directory is
not left out. -/
theorem search_eq_least_app :
    ((appView []).search ⟨fun _ _ => false, fun p => p.extension? = some "swift"⟩ ⟨["."]⟩).result =
      .ok (some ⟨[".", "App", "Start.swift"]⟩) := by
  set s : Search := ⟨fun _ _ => false, fun p => p.extension? = some "swift"⟩ with hs
  have hv := sound_app []
  have hlinks := linkFree_app []
  have hsources : (appView []).isDirectory ⟨[".", "App"]⟩ = true :=
    (isDirectory_iff hv hlinks).2 ⟨by decide, ["App"], rfl⟩
  have hfile : (appView []).isFile ((⟨[".", "App"]⟩ : Path).join "Start.swift") = true :=
    (isFile_join hlinks (by decide) rfl).2 ⟨.text [], rfl⟩
  have hwanted : s.wants ⟨[".", "App", "Start.swift"]⟩ = true := by decide
  have hunwanted : s.wants ⟨[".", "App.xcodeproj", "project.pbxproj"]⟩ ≠ true := by decide
  have hoffers : s.Offers (appView []) ⟨["."]⟩ ["App", "Start.swift"] :=
    ⟨Search.enters_concat.2 ⟨Search.enters_nil, by decide, hsources, rfl⟩, by decide, hfile, rfl,
      hwanted⟩
  have honly : ∀ other, s.Offers (appView []) ⟨["."]⟩ other → other = ["App", "Start.swift"] := by
    intro other hother
    refine (offers_app hother).resolve_left ?_
    rintro rfl
    exact hunwanted hother.wanted
  obtain ⟨result, hresult, -, hfound⟩ := search_eq_least s hv hlinks (isDirectory_app [])
  rw [hresult, (hfound ⟨[".", "App", "Start.swift"]⟩).2 ⟨["App", "Start.swift"], rfl, hoffers,
    fun other h hne => absurd (honly other h) hne⟩]

end View

end SdkWiring
