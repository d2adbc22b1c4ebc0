import SdkWiring.Proofs.Files.Install
import SdkWiring.Proofs.Project.Search
import SdkWiring.Project.Locate

/-!
# Projects that are located again

A project is located by two searches and by what its paths say. Writes to its Podfile and its delegate
change nothing of that, as long as the search for the delegate does not come across a new Podfile.

* `View.Located`, `View.locateProject_eq_ok`: what it takes to locate a project.
* `View.Located.added`, `View.Located.seesAlike`: what is new after writes, and who sees it.
* `View.Located.again`: a project is located again after writes to its files.
* `located_app`: a small project that is located.
-/

namespace SdkWiring

open Project

variable {v v' : View} {root p dir : Path} {o : SearchOptions} {project : Project} {name : Name}

/-- The rules of the `.gitignore` file, if they are to be kept. -/
def View.gitignored (v : View) (root : Path) (o : SearchOptions) : IgnoreRules :=
  if o.disableGitignore then ⟨root, []⟩ else gitignore v root

/-- What it takes to locate a project, given the rules of the settings. -/
structure View.Located (v : View) (root : Path) (o : SearchOptions) (excluded : IgnoreRules)
    (patterns : List (List Glob.Token)) (project : Project) : Prop where
  exclusions : Project.exclusions root o.excluded = .ok excluded
  projectFile : (v.search ⟨skips (v.gitignored root o) excluded,
    fun p => p.extension? = some "pbxproj"⟩ root).result = .ok (some project.projectFile)
  owner : owner? project.projectFile = some (project.root, project.name)
  sources : project.sources = project.root.join project.name
  isDirectory : v.isDirectory project.sources = true
  namePatterns : Project.namePatterns o.delegateNames = .ok patterns
  delegate : (v.search ⟨skips (v.gitignored root o) excluded, hasName patterns⟩
    project.sources).result = .ok (some project.delegate)
  language : Language.ofPath? project.delegate = some project.language

theorem Traced.bind_eq_ok {α β : Type} {x : Traced α} {f : α → Traced β} {b : β} :
    (x >>= f).result = .ok b ↔ ∃ a, x.result = .ok a ∧ (f a).result = .ok b := by
  rw [result_bind]
  cases x.result with
  | error e => exact ⟨nofun, fun ⟨_, h, _⟩ => nomatch h⟩
  | ok a => exact ⟨fun h => ⟨a, rfl, h⟩, fun ⟨_, ha, hb⟩ => Except.ok.inj ha ▸ hb⟩

/-- **What it takes to locate a project.** -/
theorem View.locateProject_eq_ok : (v.locateProject root o).result = .ok project ↔
    ∃ excluded patterns, v.Located root o excluded patterns project := by
  constructor
  · -- each step of the location gives one part
    intro h
    simp only [locateProject, Traced.bind_eq_ok, Traced.result_tell, Traced.result_ofExcept] at h
    obtain ⟨-, -, excluded, hexcluded, -, -, projectFile, hfile, h⟩ := h
    cases projectFile with
    | none => cases h
    | some projectFile =>
      simp only [Traced.bind_eq_ok, Traced.result_tell] at h
      obtain ⟨-, -, h⟩ := h
      cases howner : owner? projectFile with
      | none =>
        rw [howner] at h
        cases h
      | some home =>
        rw [howner] at h
        simp only at h
        split at h
        · simp only [Traced.bind_eq_ok, Traced.result_tell, Traced.result_ofExcept] at h
          obtain ⟨patterns, hpatterns, -, -, delegate, hdelegate, h⟩ := h
          cases delegate with
          | none => cases h
          | some delegate =>
            simp only [Traced.bind_eq_ok, Traced.result_tell] at h
            obtain ⟨-, -, h⟩ := h
            cases hlanguage : Language.ofPath? delegate with
            | none =>
              rw [hlanguage] at h
              cases h
            | some language =>
              rw [hlanguage] at h
              obtain rfl := Except.ok.inj h
              exact ⟨excluded, patterns, hexcluded, hfile, howner, rfl, ‹_›, hpatterns, hdelegate,
                hlanguage⟩
        · cases h
  · rintro ⟨excluded, patterns, h⟩
    obtain ⟨name, projectFile, home, sources, delegate, language⟩ := project
    -- a location that has all its parts takes each step again
    have hsources : sources = home.join name := h.sources
    have hdirectory := h.isDirectory
    have hdelegate := h.delegate
    simp only [hsources] at hdirectory hdelegate ⊢
    simp only [locateProject, Traced.bind_eq_ok, Traced.result_tell, Traced.result_ofExcept]
    refine ⟨(), trivial, excluded, h.exclusions, (), trivial, some projectFile, h.projectFile, ?_⟩
    simp only [Traced.bind_eq_ok, Traced.result_tell, h.owner]
    refine ⟨(), trivial, ?_⟩
    rw [if_pos hdirectory]
    simp only [Traced.bind_eq_ok, Traced.result_tell, Traced.result_ofExcept]
    refine ⟨patterns, h.namePatterns, (), trivial, some delegate, hdelegate, ?_⟩
    simp only [Traced.bind_eq_ok, Traced.result_tell, h.language]
    exact ⟨(), trivial, rfl⟩

/-! ## Where the paths of a project lead -/

theorem hasName_join {dir' : Path} {patterns : List (List Glob.Token)} (hname : IsProper name) :
    hasName patterns (dir.join name) = hasName patterns (dir'.join name) := by
  rw [hasName, hasName, fileName?_join hname, fileName?_join hname]

theorem isProper_podfile : IsProper "Podfile" := by decide

namespace View

variable {excluded : IgnoreRules} {patterns : List (List Glob.Token)} {l d : Location}
  {ws : List PendingWrite}

/-- The Podfile stands next to the sources. -/
theorem Located.podfile (h : v.Located root o excluded patterns project) (hv : v.Sound)
    (hlinks : v.tree.LinkFree) : ∃ home d, v.base project.root = some home ∧
      v.base project.sources = some d ∧ v.Leads project.podfile (home ++ ["Podfile"]) ∧
      (IsProper project.name → d = home ++ [project.name]) := by
  obtain ⟨-, d, hd⟩ := (isDirectory_iff hv hlinks).1 h.isDirectory
  have hjoin := base_join v project.root project.name
  rw [← h.sources, hd] at hjoin
  cases hhome : v.base project.root with
  | none =>
    rw [hhome] at hjoin
    cases hjoin
  | some home =>
    refine ⟨home, d, rfl, hd, ⟨_, _, _, rfl, isProper_podfile, hhome, rfl⟩, fun hname => ?_⟩
    rw [hhome, Option.bind_some, Tree.walk_proper hname] at hjoin
    split at hjoin
    · exact Option.some.inj hjoin
    · cases hjoin

/-- The delegate is a file below the sources whose name does not end with a digit. -/
theorem Located.delegate_file (h : v.Located root o excluded patterns project) (hv : v.Sound)
    (hlinks : v.tree.LinkFree) : ∃ d name c, v.Leads project.delegate (d ++ [name]) ∧
      v.tree.get? (d ++ [name]) = some (.file c) ∧ ¬ IsStamped name ∧ name ≠ "Podfile" ∧
      name ≠ ".gitignore" := by
  have hbelow : Search.Below v [] [⟨project.sources, []⟩] :=
    Search.below_start fun l _ => List.nil_prefix
  obtain ⟨dir, d, name, hpath, hname, hbase, -, -, c, hfile⟩ :=
    Search.exists_of_run hv hlinks hbelow h.delegate
  have hlanguage := h.language
  rw [hpath] at hlanguage
  have hother : ∀ other : Name, Path.cutAtDot? other = none → name ≠ other := by
    rintro other hother rfl
    rw [Language.ofPath?, Path.extension?, fileName?_join hname, Option.bind_some, hother] at hlanguage
    cases hlanguage
  exact ⟨d, name, c, ⟨dir, name, d, hpath, hname, hbase, rfl⟩, hfile,
    not_isStamped_of_language hname hlanguage, hother _ (by decide), hother _ (by decide)⟩

/-- The writes are writes of the Podfile or of the delegate. -/
def OfProject (project : Project) (ws : List PendingWrite) : Prop :=
  ∀ w ∈ ws, w.path = project.podfile ∨ w.path = project.delegate

/-- The `.gitignore` file is read as before. -/
theorem Located.gitignored (h : v.Located root o excluded patterns project) (hv : v.Sound)
    (hlinks : v.tree.LinkFree) (hws : OfProject project ws) (hc : Carried v v' ws) :
    v'.gitignored root o = v.gitignored root o := by
  have hproper : IsProper ".gitignore" := by decide
  have hrules : gitignore v' root = gitignore v root := by
    rw [gitignore, gitignore]
    cases hbase : v.base root with
    | none =>
      have hbase' : v'.base root = none := (hc.base_eq root).trans hbase
      obtain ⟨f, hf⟩ := find_join_error hlinks hproper hbase
      obtain ⟨f', hf'⟩ := find_join_error hc.linkFree hproper hbase'
      rw [content, content, hf, hf']
      rfl
    | some d =>
      have hbase' : v'.base root = some d := (hc.base_eq root).trans hbase
      obtain ⟨home, -, -, -, hpodfile, -⟩ := h.podfile hv hlinks
      obtain ⟨e, name, c, hdelegate, -, -, -, hname⟩ := h.delegate_file hv hlinks
      have hsame : v'.tree.get? (d ++ [".gitignore"]) = v.tree.get? (d ++ [".gitignore"]) := by
        refine hc.get?_eq (by decide) fun w hw hleads => ?_
        rcases hws w hw with hpath | hpath <;> rw [hpath] at hleads
        · have heq := hleads.unique hpodfile hlinks
          exact absurd (List.append_inj' heq rfl).2 (by decide)
        · have heq := hleads.unique hdelegate hlinks
          exact hname (List.cons.inj (List.append_inj' heq rfl).2).1.symm
      rw [content, content, find_join hlinks hproper hbase, find_join hc.linkFree hproper hbase', hsame]
  rw [View.gitignored, View.gitignored, hrules]

/-- Nothing is new after writes to a project but its Podfile. -/
theorem Located.added {home : Location} {n : Name} (h : v.Located root o excluded patterns project)
    (hv : v.Sound) (hlinks : v.tree.LinkFree) (hws : OfProject project ws) (hc : Carried v v' ws)
    (hpodfile : v.Leads project.podfile (home ++ ["Podfile"])) (hnone : v.tree.get? (d ++ [n]) = none)
    (hsome : (v'.tree.get? (d ++ [n])).isSome) :
    d = home ∧ n = "Podfile" ∧ v.isFile project.podfile = false := by
  obtain ⟨e, name, c, hdelegate, hfile, -⟩ := h.delegate_file hv hlinks
  obtain ⟨w, hw, hleads⟩ := hc.leads_of_new hnone hsome
  rcases hws w hw with hpath | hpath <;> rw [hpath] at hleads
  · have hfind := hleads.find hlinks
    rw [hnone] at hfind
    obtain ⟨rfl, hlast⟩ := List.append_inj' (hleads.unique hpodfile hlinks) rfl
    exact ⟨rfl, (List.cons.inj hlast).1, by rw [isFile, hfind]⟩
  · rw [hleads.unique hdelegate hlinks, hfile] at hnone
    cases hnone

/-- A search does not see writes to a project, unless it comes across a new Podfile. -/
theorem Located.seesAlike {home start : Location} {s : Search} {found : Path}
    (h : v.Located root o excluded patterns project) (hv : v.Sound) (hlinks : v.tree.LinkFree)
    (hws : OfProject project ws) (hc : Carried v v' ws)
    (hpodfile : v.Leads project.podfile (home ++ ["Podfile"]))
    (hfound : ∀ (dir : Path) (n : Name), dir.join n = found → IsProper n → ¬ IsStamped n)
    (hpod : ∀ dir : Path, v.base dir = some home → start <+: home →
      v.isFile project.podfile = false → s.wants (dir.join "Podfile") = false) :
    SeesAlike s start found v v' := by
  refine ⟨hc.toKeepsDirectories, hv, hlinks, ?_, ?_⟩
  · intro dir d n hbase hstart hnone hsome
    obtain ⟨rfl, rfl, hno⟩ := h.added hv hlinks hws hc hpodfile hnone hsome
    exact hpod dir hbase hstart hno
  · intro dir d n hbase hpath hsome
    obtain ⟨node, hnode⟩ := Option.isSome_iff_exists.1 hsome
    exact hc.isSome_of_isSome (hfound dir n hpath (hv.tree.proper_of_get? hnode)) hsome

/-- The project file is found again, since no Podfile is taken for it. -/
theorem Located.projectFile_again (h : v.Located root o excluded patterns project) (hv : v.Sound)
    (hlinks : v.tree.LinkFree) (hws : OfProject project ws) (hc : Carried v v' ws) :
    (v'.search ⟨skips (v.gitignored root o) excluded, fun p => p.extension? = some "pbxproj"⟩
      root).result = .ok (some project.projectFile) := by
  obtain ⟨home, -, -, -, hpodfile, -⟩ := h.podfile hv hlinks
  obtain ⟨-, -, -, -, -, -, -, hwants, -⟩ := Search.exists_of_run hv hlinks
    (Search.below_start fun l _ => List.nil_prefix) h.projectFile
  refine (h.seesAlike hv hlinks hws hc hpodfile (fun dir n hpath hproper => ?_)
    fun dir _ _ _ => ?_).search (fun _ _ => List.nil_prefix) h.projectFile
  · have hext : (dir.join n).extension? = some "pbxproj" := by
      rw [hpath]
      exact of_decide_eq_true hwants
    exact not_isStamped hproper hext (by decide) (by decide)
  · have hext : (dir.join "Podfile").extension? = none := by
      rw [Path.extension?, fileName?_join isProper_podfile]
      rfl
    simp [hext]

/-- **A project is located again** after writes to its Podfile and its delegate, if the search for the
delegate does not come across a new Podfile. -/
theorem Located.again (h : v.Located root o excluded patterns project) (hv : v.Sound)
    (hlinks : v.tree.LinkFree) (hws : OfProject project ws) (hc : Carried v v' ws)
    (hnew : v.isFile project.podfile = true ∨ IsProper project.name ∨
      hasName patterns project.podfile = false) :
    v'.Located root o excluded patterns project := by
  obtain ⟨home, d, hhome, hd, hpodfile, hsources⟩ := h.podfile hv hlinks
  have hrules := h.gitignored hv hlinks hws hc
  have hdirectory : v'.isDirectory project.sources = true :=
    (isDirectory_iff hc.sound hc.linkFree).2
      ⟨((isDirectory_iff hv hlinks).1 h.isDirectory).1, d, (hc.base_eq _).trans hd⟩
  refine ⟨h.exclusions, ?_, h.owner, h.sources, hdirectory, h.namePatterns, ?_, h.language⟩
  · rw [hrules]
    exact h.projectFile_again hv hlinks hws hc
  · rw [hrules]
    have htop : ∀ l, v.base project.sources = some l → d <+: l := by
      intro l hl
      rw [hd] at hl
      exact Option.some.inj hl ▸ List.prefix_rfl
    refine (h.seesAlike hv hlinks hws hc hpodfile (fun dir n hpath hproper => ?_)
      fun dir hbase hstart hno => ?_).search htop h.delegate
    · exact not_isStamped_of_language hproper (hpath ▸ h.language)
    · rcases hnew with hfile | hproper | hunnamed
      · rw [hfile] at hno
        cases hno
      · -- a new Podfile stands next to the directory that is searched, not below it
        rw [hsources hproper] at hstart
        have hlength := hstart.length_le
        rw [List.length_append, List.length_singleton] at hlength
        omega
      · exact (hasName_join isProper_podfile).trans hunnamed

end View

/-! ## A small project -/

/-- A view with nothing but a project and its delegate. -/
def appView (delegate : Text) : View where
  tree := ⟨[(["App.xcodeproj"], .directory),
    (["App.xcodeproj", "project.pbxproj"], .file (.text [])), (["App"], .directory),
    (["App", "Start.swift"], .file (.text delegate))]⟩

/-- How the project in it is searched for. -/
def appOptions : SearchOptions := { disableGitignore := true, delegateNames := ["*".toList] }

/-- The project in it. -/
def app : Project where
  name := "App"
  projectFile := ⟨["App.xcodeproj", "project.pbxproj"]⟩
  root := ⟨[""]⟩
  sources := ⟨["App"]⟩
  delegate := ⟨["App", "Start.swift"]⟩
  language := .swift

theorem sound_app (delegate : Text) : (appView delegate).Sound where
  tree :=
    { nodup := by simp [appView]
      ne_nil := by simp [appView]
      proper := by
        simp only [appView, List.forall_mem_cons, List.not_mem_nil, false_implies, implies_true,
          and_true]
        decide
      parent := by simp [appView, Tree.get?] }
  here := rfl

theorem linkFree_app (delegate : Text) : (appView delegate).tree.LinkFree :=
  Tree.linkFree_of_nodes (by simp [appView])

theorem located_app (delegate : Text) : (appView delegate).Located ⟨["App.xcodeproj"]⟩ appOptions
    ⟨⟨["App.xcodeproj"]⟩, []⟩ [[.star]] app where
  exclusions := rfl
  projectFile := by
    have hwants : decide ((⟨["App.xcodeproj", "project.pbxproj"]⟩ : Path).extension? =
        some "pbxproj") = true := by decide
    have hbase : (appView delegate).base ⟨["App.xcodeproj"]⟩ = some ["App.xcodeproj"] := rfl
    have hfile : (appView delegate).tree.get? (["App.xcodeproj"] ++ ["project.pbxproj"]) = some (.file (.text [])) := rfl
    exact View.search_lone (sound_app _) (linkFree_app _) (by decide) hbase hfile rfl hwants
      fun n hn => by simpa [appView, Tree.get?] using hn
  owner := by decide
  sources := by decide
  isDirectory := (View.isDirectory_iff (sound_app _) (linkFree_app _)).2 ⟨by decide, ["App"], rfl⟩
  namePatterns := rfl
  delegate := by
    have hwants : hasName [[.star]] ⟨["App", "Start.swift"]⟩ = true := by decide +kernel
    have hbase : (appView delegate).base ⟨["App"]⟩ = some ["App"] := rfl
    have hfile : (appView delegate).tree.get? (["App"] ++ ["Start.swift"]) = some (.file (.text delegate)) := rfl
    exact View.search_lone (sound_app _) (linkFree_app _) (by decide) hbase hfile rfl hwants
      fun n hn => by simpa [appView, Tree.get?] using hn
  language := by decide +kernel

end SdkWiring
