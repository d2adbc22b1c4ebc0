import SdkWiring.Proofs.Project.Breadth

/-!
# What is left out

A project is located by a search for its project file and a search for its delegate. Both pass over
what is left out; but the second one starts in the directory of sources, which is told by the name of
the project and not come across. So that directory is the only one between the root and the files of
a project that may be left out.

* `Path.OpenFrom`: no directory on the way from a root to a path is left out.
* `View.Located.placed`: where the files of a project below the root stand.
* `View.openFrom_delegate_iff`: what is left out on the way to them.
* `openFrom_excluded`: a directory of sources that is left out, and still searched.
-/

namespace SdkWiring

open Project

/-- No directory strictly between a root and a path is left out. -/
def Path.OpenFrom (skips : Path → Bool → Bool) (root p : Path) : Prop :=
  ∀ dir, Path.Above dir p → Path.Below root dir → skips dir true = false

variable {v : View} {root p dir top : Path} {o : SearchOptions} {project : Project}
  {name stem ext bundle : Name} {excluded : IgnoreRules} {patterns : List (List Glob.Token)}

/-- No directory on the way to a file that a search could give is left out. -/
theorem Search.Offers.kept_of_prefix {s : Search} {names front : List Name} (h : s.Offers v top names)
    (hfront : front <+: names) (hnil : front ≠ []) (hne : front ≠ names) :
    s.skips (top.descend front) true = false := by
  rcases List.eq_nil_or_concat' names with rfl | ⟨start, last, rfl⟩
  · exact absurd (List.prefix_nil.1 hfront) hnil
  · have hentered := h.entered
    rw [List.dropLast_concat] at hentered
    obtain ⟨way, name, rfl⟩ := (List.eq_nil_or_concat' front).resolve_left hnil
    exact (hentered way name ((List.prefix_concat_iff.1 hfront).resolve_left hne)).2.2

theorem Search.Offers.openFrom {s : Search} {names : List Name} (h : s.Offers v root names) :
    Path.OpenFrom s.skips root (root.descend names) := by
  intro dir habove hbelow
  rcases Path.above_descend h.proper habove with ⟨front, hfront, hnil, hne, rfl⟩ | hprefix
  · exact h.kept_of_prefix hfront hnil hne
  · exact absurd hbelow (Path.not_below hprefix)

/-! ## The name of a project -/

/-- A file name starts as its stem does. -/
theorem head?_of_cutAtDot? (h : Path.cutAtDot? name = some (stem, ext)) :
    stem ≠ "" ∧ stem.toList.head? = name.toList.head? := by
  have hsplit := List.takeWhile_append_dropWhile (p := (· != '.')) (l := name.toList.reverse)
  rw [Path.cutAtDot?] at h
  simp only at h
  split at h
  · cases h
  · cases h
  · rename_i dot rest hrest hdrop
    obtain ⟨rfl, -⟩ := Prod.mk.inj (Option.some.inj h)
    rw [hdrop] at hsplit
    obtain ⟨first, front, hfront⟩ := List.exists_cons_of_ne_nil
      (mt List.reverse_eq_nil_iff.1 hrest)
    have hname := congrArg List.reverse hsplit
    rw [List.reverse_reverse, List.reverse_append, List.reverse_cons, hfront] at hname
    refine ⟨fun hempty => ?_, ?_⟩
    · have hnil := congrArg String.toList hempty
      rw [String.toList_ofList, hfront] at hnil
      cases hnil
    · rw [← hname, String.toList_ofList, hfront]
      rfl

/-- The stem of a name that does not start with a dot is the name of an entry. -/
theorem isProper_stem (h : Path.cutAtDot? name = some (stem, ext))
    (hdot : name.toList.head? ≠ some '.') : IsProper stem := by
  obtain ⟨hne, hhead⟩ := head?_of_cutAtDot? h
  have hnot : ∀ other : Name, other.toList.head? = some '.' → stem ≠ other := by
    rintro other hother rfl
    exact hdot (hhead.symm.trans hother)
  refine ⟨?_, hnot ".." (by decide)⟩
  rw [Path.isIdle, beq_false_of_ne hne, beq_false_of_ne (hnot "." (by decide))]
  rfl

/-- The bundle tells the directory and the name of a project. -/
theorem owner?_eq_some (h : owner? p = some (root, name)) : ∃ q, p.parent? = some q ∧
    q.parent? = some root ∧ q.stem? = some name ∧ q.extension? = some "xcodeproj" := by
  simp only [owner?, Option.bind_eq_bind, Option.bind_eq_some_iff] at h
  obtain ⟨q, hq, extension, hextension, h⟩ := h
  split at h
  · rename_i heq
    simp only [Option.bind_eq_some_iff] at h
    obtain ⟨stem, hstem, home, hhome, hsame⟩ := h
    obtain ⟨rfl, rfl⟩ := Prod.mk.inj (Option.some.inj hsame)
    exact ⟨q, hq, hhome, hstem, heq ▸ hextension⟩
  · cases h

/-- The name of a project is the name of an entry, if its bundle is not hidden. -/
theorem isProper_of_stem? (hbundle : IsProper bundle) (hforeign : isForeign bundle = false)
    (hstem : (dir.join bundle).stem? = some name)
    (hextension : (dir.join bundle).extension? = some ext) : IsProper name := by
  rw [Path.extension?, fileName?_join hbundle, Option.bind_some, Option.map_eq_some_iff] at hextension
  obtain ⟨⟨front, ext⟩, hcut, -⟩ := hextension
  rw [Path.stem?, fileName?_join hbundle, Option.map_some, hcut] at hstem
  obtain rfl : front = name := Option.some.inj hstem
  refine isProper_stem hcut fun hdot => ?_
  rw [isForeign, hdot] at hforeign
  cases hforeign

/-! ## Where the files of a project stand -/

/-- A project below a root: the project file is come across, and the names in front of its bundle lead
to the directory of the project. If there are none, that is the root, perhaps spelled in another
way. -/
structure Project.Placed (project : Project) (s : Search) (v : View) (root top : Path)
    (front : List Name) (bundle file : Name) : Prop where
  offered : s.Offers v root (front ++ [bundle, file])
  projectFile : project.projectFile = root.descend (front ++ [bundle, file])
  home : project.root = top.descend front
  components : top.components = root.components
  same : front ≠ [] → top = root
  name : IsProper project.name

namespace View

/-- **Where the files of a project below the root stand.** -/
theorem Located.placed (h : v.Located root o excluded patterns project) (hv : v.Sound)
    (hlinks : v.tree.LinkFree) (hbelow : root.components <+: project.root.components) :
    ∃ top front bundle file, project.Placed ⟨skips (v.gitignored root o) excluded,
      fun p => p.extension? = some "pbxproj"⟩ v root top front bundle file := by
  obtain ⟨names, hfile, hoffers⟩ := search_offers hv hlinks h.projectFile
  obtain ⟨q, hq, hhome, hstem, hextension⟩ := owner?_eq_some h.owner
  have hqComponents := components_parent? hq
  have hhomeComponents := components_parent? hhome
  rw [hfile] at hq
  rw [hfile, Path.components_descend root hoffers.proper] at hqComponents
  have hlong : ¬ names.length ≤ 1 := by
    -- else the bundle would be the root, and the project next to the root
    intro hshort
    have hroot := hbelow.length_le
    have hlength := congrArg List.length hqComponents
    rw [hhomeComponents, List.length_dropLast] at hroot
    rw [List.length_dropLast, List.length_append] at hlength
    have hnone : q.components = [] := List.eq_nil_of_length_eq_zero (by omega)
    rw [Path.extension?, Path.fileName?, hnone] at hextension
    cases hextension
  obtain ⟨front, bundle, file, rfl⟩ : ∃ front bundle file, names = front ++ [bundle, file] := by
    rcases List.eq_nil_or_concat' names with rfl | ⟨start, file, rfl⟩
    · simp at hlong
    · rcases List.eq_nil_or_concat' start with rfl | ⟨front, bundle, rfl⟩
      · simp at hlong
      · exact ⟨front, bundle, file, by simp⟩
  rw [Path.parent?_descend root hoffers.proper] at hq
  obtain rfl := Option.some.inj hq
  have hentered := hoffers.entered
  rw [show front ++ [bundle, file] = front ++ [bundle] ++ [file] by simp, List.dropLast_concat] at hentered
  obtain ⟨-, hbundle, -, hkept⟩ := Search.enters_concat.1 hentered
  rw [Path.descend_concat] at hhome hstem hextension hhomeComponents
  have hname : IsProper project.name := by
    refine isProper_of_stem? hbundle ?_ hstem hextension
    simp only [skips, fileName?_join hbundle, Bool.or_eq_false_iff] at hkept
    simpa using hkept.1.1
  rcases List.eq_nil_or_concat' front with rfl | ⟨start, last, rfl⟩
  · refine ⟨project.root, [], bundle, file, hoffers, hfile, rfl, ?_, fun hne => absurd rfl hne, hname⟩
    rw [hhomeComponents, Path.descend_nil, components_join root hbundle, List.dropLast_concat]
  · refine ⟨root, start ++ [last], bundle, file, hoffers, hfile, ?_, rfl, fun _ => rfl, hname⟩
    rw [← Path.descend_concat, List.append_assoc, List.singleton_append,
      Path.parent?_descend root fun n hn => hoffers.proper n (by simp at hn ⊢; tauto)] at hhome
    exact (Option.some.inj hhome).symm

/-- Between the root and the delegate of a project only its directory of sources may be left out. -/
theorem Located.kept_above_delegate (h : v.Located root o excluded patterns project) (hv : v.Sound)
    (hlinks : v.tree.LinkFree) (hbelow : root.components <+: project.root.components) :
    skips (v.gitignored root o) excluded project.delegate false = false ∧
      Path.Above project.sources project.delegate ∧ Path.Below root project.sources ∧
      ∀ dir, Path.Above dir project.delegate → Path.Below root dir → dir ≠ project.sources →
        skips (v.gitignored root o) excluded dir true = false := by
  obtain ⟨top, front, bundle, file, hplaced⟩ := h.placed hv hlinks hbelow
  obtain ⟨names, hdelegate, hoffers⟩ := search_offers hv hlinks h.delegate
  have hkept := hoffers.kept
  rw [← hdelegate] at hkept
  have hsources : project.sources = top.descend (front ++ [project.name]) := by
    rw [h.sources, hplaced.home, Path.descend_concat]
  rw [hsources, ← Path.descend_append] at hdelegate
  have hproper : ∀ name ∈ front ++ [project.name] ++ names, IsProper name := by
    intro name hname
    rcases List.mem_append.1 hname with hname | hname
    · rcases List.mem_append.1 hname with hname | hname
      · exact hplaced.offered.proper name (List.mem_append_left _ hname)
      · exact List.mem_singleton.1 hname ▸ hplaced.name
    · exact hoffers.proper name hname
  -- the delegate is a file below the sources, which are a directory
  have hnames : names ≠ [] := by
    obtain ⟨start, last, hlast⟩ := hoffers.exists_concat h.isDirectory
    simp [hlast]
  refine ⟨hkept, ?_, ⟨?_, ?_⟩, ?_⟩
  · rw [hdelegate, hsources]
    exact Path.descend_above hproper (List.prefix_append _ _) (by simp) (by simpa using hnames)
  · rw [hsources, Path.components_descend top fun n hn => hproper n (List.mem_append_left _ hn),
      hplaced.components]
    exact List.prefix_append _ _
  · rw [hsources, Path.components_descend top fun n hn => hproper n (List.mem_append_left _ hn),
      hplaced.components]
    simp
  · intro dir habove hbelow hne
    rw [hdelegate] at habove
    rcases Path.above_descend hproper habove with ⟨way, hway, hnil, hlast, rfl⟩ | hprefix
    · rcases List.prefix_or_prefix_of_prefix hway (List.prefix_append _ names) with hbefore |
        ⟨rest, rfl⟩
      · -- on the way to the directory of the project, as to the project file
        have hfront := (List.prefix_concat_iff.1 hbefore).resolve_left fun heq =>
          hne (by rw [heq, hsources])
        have htop : top = root := hplaced.same fun heq =>
          hnil (List.prefix_nil.1 (heq ▸ hfront))
        rw [htop]
        refine hplaced.offered.kept_of_prefix (hfront.trans (List.prefix_append _ _)) hnil ?_
        rintro rfl
        have := hfront.length_le
        simp at this
      · -- below the sources
        have hrest : rest <+: names := (List.prefix_append_right_inj _).1 hway
        rw [Path.descend_append, ← hsources] at hne ⊢
        refine hoffers.kept_of_prefix hrest (fun heq => ?_) fun heq => hlast (by rw [heq])
        rw [heq] at hne
        exact hne rfl
    · rw [hplaced.components] at hprefix
      exact absurd hbelow (Path.not_below hprefix)

/-- **What is left out on the way to a project.** Neither its project file nor its delegate is left out,
nor is a directory between the root and the project file. A directory between the root and the
delegate is left out just if the directory of sources is, which no search has come across. -/
theorem openFrom_delegate_iff (hv : v.Sound) (hlinks : v.tree.LinkFree)
    (hproject : (v.locateProject root o).result = .ok project)
    (hbelow : root.components <+: project.root.components) :
    ∃ excluded, exclusions root o.excluded = .ok excluded ∧
      skips (v.gitignored root o) excluded project.projectFile false = false ∧
      skips (v.gitignored root o) excluded project.delegate false = false ∧
      Path.OpenFrom (skips (v.gitignored root o) excluded) root project.projectFile ∧
      (∀ dir, Path.Above dir project.delegate → Path.Below root dir → dir ≠ project.sources →
        skips (v.gitignored root o) excluded dir true = false) ∧
      (Path.OpenFrom (skips (v.gitignored root o) excluded) root project.delegate ↔
        skips (v.gitignored root o) excluded project.sources true = false) := by
  obtain ⟨excluded, patterns, h⟩ := locateProject_eq_ok.1 hproject
  obtain ⟨names, hfile, hoffers⟩ := search_offers hv hlinks h.projectFile
  obtain ⟨hdelegate, habove, hsources, hothers⟩ := h.kept_above_delegate hv hlinks hbelow
  have hkept := hoffers.kept
  have hopen := hoffers.openFrom
  rw [← hfile] at hkept hopen
  refine ⟨excluded, h.exclusions, hkept, hdelegate, hopen, hothers, ?_⟩
  constructor
  · intro hfrom
    exact hfrom _ habove hsources
  · intro hsource dir hdir hdirBelow
    by_cases heq : dir = project.sources
    · rw [heq]
      exact hsource
    · exact hothers dir hdir hdirBelow heq

end View

/-! ## A small project below the root -/

/-- The small project as it is seen from the directory that holds it. -/
def appBelow : Project where
  name := "App"
  projectFile := ⟨[".", "App.xcodeproj", "project.pbxproj"]⟩
  root := ⟨["."]⟩
  sources := ⟨[".", "App"]⟩
  delegate := ⟨[".", "App", "Start.swift"]⟩
  language := .swift

theorem locateProject_appBelow {leftOut : List Text} {rules : IgnoreRules}
    (hrules : exclusions ⟨["."]⟩ leftOut = .ok rules)
    (hbundle : skips ⟨⟨["."]⟩, []⟩ rules ⟨[".", "App.xcodeproj"]⟩ true = false)
    (hfile : skips ⟨⟨["."]⟩, []⟩ rules appBelow.projectFile false = false)
    (hdelegate : skips ⟨⟨["."]⟩, []⟩ rules appBelow.delegate false = false) :
    ((appView []).locateProject ⟨["."]⟩ { appOptions with excluded := leftOut }).result =
      .ok appBelow := by
  have hv := sound_app []
  have hlinks := linkFree_app []
  have hsources : (appView []).isDirectory appBelow.sources = true :=
    (View.isDirectory_iff hv hlinks).2 ⟨by decide, ["App"], rfl⟩
  have hentered : (appView []).isDirectory ⟨[".", "App.xcodeproj"]⟩ = true :=
    (View.isDirectory_iff hv hlinks).2 ⟨by decide, ["App.xcodeproj"], rfl⟩
  have hisFile : (appView []).isFile ((⟨[".", "App.xcodeproj"]⟩ : Path).join "project.pbxproj") =
      true := (View.isFile_join hlinks (by decide) rfl).2 ⟨.text [], rfl⟩
  refine View.locateProject_eq_ok.2 ⟨rules, [[.star]], hrules, ?_, by decide, rfl, hsources,
    rfl, ?_, by decide +kernel⟩
  · have hwanted : decide (appBelow.projectFile.extension? = some "pbxproj") = true := by
      decide
    have hunwanted : decide (appBelow.delegate.extension? = some "pbxproj") ≠ true := by
      decide
    have hoffers : Search.Offers ⟨skips ⟨⟨["."]⟩, []⟩ rules, fun p => p.extension? = some "pbxproj"⟩
        (appView []) ⟨["."]⟩ ["App.xcodeproj", "project.pbxproj"] :=
      ⟨Search.enters_concat.2 ⟨Search.enters_nil, by decide, hentered, hbundle⟩, by decide, hisFile,
        hfile, hwanted⟩
    refine View.search_only hv hlinks (View.isDirectory_app []) hoffers fun other hother =>
      (View.offers_app hother).resolve_right ?_
    rintro rfl
    exact hunwanted hother.wanted
  · have hwants : hasName [[.star]] appBelow.delegate = true := by decide +kernel
    have hbase : (appView []).base ⟨[".", "App"]⟩ = some ["App"] := rfl
    have hfile : (appView []).tree.get? (["App"] ++ ["Start.swift"]) = some (.file (.text [])) := rfl
    exact View.search_lone hv hlinks (by decide) hbase hfile hdelegate hwants
      fun n hn => by simpa [appView, Tree.get?] using hn

namespace View

theorem openFrom_delegate_iff_app : ∃ rules, exclusions ⟨["."]⟩ ["Legacy/".toList] = .ok rules ∧
    Path.OpenFrom (skips ⟨⟨["."]⟩, []⟩ rules) ⟨["."]⟩ appBelow.delegate := by
  have hexclusions : exclusions ⟨["."]⟩ ["Legacy/".toList] = .ok _ := rfl
  have hproject := locateProject_appBelow hexclusions (by decide +kernel) (by decide +kernel)
    (by decide)
  obtain ⟨rules, hrules, -, -, -, -, hiff⟩ :=
    openFrom_delegate_iff (sound_app []) (linkFree_app []) hproject (by decide)
  refine ⟨rules, hrules, hiff.2 ?_⟩
  obtain rfl := Except.ok.inj hrules
  decide +kernel

/-- **A directory of sources that is left out is searched all the same**: a project is located whose
delegate stands in a directory that an exclude pattern names. -/
theorem openFrom_excluded : ∃ rules, exclusions ⟨["."]⟩ ["App/".toList] = .ok rules ∧
    ((appView []).locateProject ⟨["."]⟩ { appOptions with excluded := ["App/".toList] }).result =
      .ok appBelow ∧ Path.Below ⟨["."]⟩ appBelow.projectFile ∧
      ¬ Path.OpenFrom (skips ⟨⟨["."]⟩, []⟩ rules) ⟨["."]⟩ appBelow.delegate := by
  have hexclusions : exclusions ⟨["."]⟩ ["App/".toList] = .ok _ := rfl
  have hproject := locateProject_appBelow hexclusions (by decide +kernel) (by decide +kernel)
    (by decide)
  refine ⟨_, hexclusions, hproject, by decide, fun hopen => ?_⟩
  have habove : Path.Above appBelow.sources appBelow.delegate := .parent (by decide)
  have hskipped := hopen _ habove (by decide)
  revert hskipped
  decide +kernel

end View

end SdkWiring
