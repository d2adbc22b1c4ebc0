import SdkWiring.Delegate.Language
import SdkWiring.Proofs.Files.Walk

/-!
# Names of files

The file name of a path to an entry is the name of the entry. The names of temporary files end with a
digit, those of source files do not.

* `fileName?_join`: the file name of a path to an entry.
* `isProper_temporary`: the names of temporary files.
* `IsStamped`, `not_isStamped_of_language`: names that end with a digit, and some that do not.
-/

namespace SdkWiring

variable {dir : Path} {name : Name}

/-- A name that ends with a digit. -/
def IsStamped (name : Name) : Prop := name.toList.getLast?.any Char.isDigit = true

instance : DecidablePred IsStamped := fun _ => inferInstanceAs (Decidable (_ = true))

theorem IsStamped.append {stamp : String} (h : IsStamped stamp) (front : String) :
    IsStamped (front ++ stamp) := by
  rw [IsStamped] at h ⊢
  rw [String.toList_append, List.getLast?_append]
  cases hlast : stamp.toList.getLast? with
  | none =>
    rw [hlast] at h
    cases h
  | some c =>
    rw [hlast] at h
    exact h

/-- The name of a temporary file leads to an entry. -/
theorem isProper_temporary (name : Name) (stamp : String) :
    IsProper ("." ++ name ++ ".tmp-" ++ stamp) := by
  have hne : ∀ other : Name, other.length ≤ 2 → "." ++ name ++ ".tmp-" ++ stamp ≠ other := by
    intro other hshort heq
    have hlengths : ".".length = 1 ∧ ".tmp-".length = 5 := by decide
    have hlength := congrArg String.length heq
    simp only [String.length_append] at hlength
    omega
  refine ⟨?_, hne ".." (by decide)⟩
  rw [Path.isIdle, beq_false_of_ne (hne "" (by decide)), beq_false_of_ne (hne "." (by decide))]
  rfl

theorem components_concat {ps : List Name} (hname : IsProper name) :
    Path.components ⟨ps ++ [name]⟩ = match ps with
      | [] => [name]
      | first :: ps => first :: (ps.filter (!Path.isIdle ·) ++ [name]) := by
  have hne : name ≠ "" := by
    rintro rfl
    exact absurd hname.1 (by decide)
  cases ps with
  | nil => simp [Path.components, hne]
  | cons first ps =>
    rw [Path.components]
    split
    · simp_all
    · simp_all
    · rename_i heq
      obtain ⟨rfl, rfl⟩ := List.cons.inj heq
      simp [hname.1]

/-- The file name of an entry of a directory. -/
theorem fileName?_join (hname : IsProper name) : (dir.join name).fileName? = some name := by
  obtain ⟨ps, hjoin, -⟩ := View.walk_front dir name
  have hpath : dir.join name = ⟨ps ++ [name]⟩ := by rw [← hjoin]
  have hlast : (dir.join name).components.getLast? = some name := by
    rw [hpath, components_concat hname]
    cases ps with
    | nil => rfl
    | cons first ps =>
      simp only
      rw [← List.cons_append, List.getLast?_concat]
  rw [Path.fileName?, hlast]
  simp [hname.1, hname.2]

/-- The extension of a file name is its end. -/
theorem getLast?_of_cutAtDot? {stem ext : Name} (h : Path.cutAtDot? name = some (stem, ext))
    (hne : ext ≠ "") : name.toList.getLast? = ext.toList.getLast? := by
  have hext : ext = String.ofList (name.toList.reverse.takeWhile (· != '.')).reverse := by
    rw [Path.cutAtDot?] at h
    simp only at h
    split at h
    · cases h
    · cases h
    · exact (Prod.mk.inj (Option.some.inj h)).2.symm
  have hrun : name.toList.reverse.takeWhile (· != '.') ≠ [] := by
    intro hnil
    rw [hnil] at hext
    exact hne hext
  obtain ⟨c, rest, hrest⟩ := List.exists_cons_of_ne_nil hrun
  have hreverse : name.toList.reverse.head? = some c := by
    cases hcs : name.toList.reverse with
    | nil =>
      rw [hcs] at hrest
      cases hrest
    | cons d cs =>
      rw [hcs, List.takeWhile_cons] at hrest
      split at hrest
      · rw [(List.cons.inj hrest).1]
        rfl
      · cases hrest
  rw [hext, hrest, String.toList_ofList, List.getLast?_reverse, ← List.head?_reverse, hreverse]
  rfl

/-- A name with an extension ends with a digit just if the extension does. -/
theorem not_isStamped {ext : Name} (hname : IsProper name)
    (h : (dir.join name).extension? = some ext) (hne : ext ≠ "") (hext : ¬ IsStamped ext) :
    ¬ IsStamped name := by
  rw [Path.extension?, fileName?_join hname, Option.bind_some, Option.map_eq_some_iff] at h
  obtain ⟨⟨stem, ext'⟩, hcut, rfl⟩ := h
  rwa [IsStamped, getLast?_of_cutAtDot? hcut hne]

theorem IsStamped.toLower {name : Name} (h : IsStamped name) : IsStamped name.toLower := by
  have hdigit : ∀ c : Char, c.isDigit = true → c.toLower.isDigit = true := by
    intro c hc
    have hupper : ¬ (c.val ≥ 'A'.val ∧ c.val ≤ 'Z'.val) := by
      simp only [Char.isDigit, Bool.and_eq_true, decide_eq_true_eq] at hc
      exact fun hle => absurd (UInt32.le_trans hle.1 hc.2) (by decide)
    have hsame : c.toLower = c := dif_neg hupper
    rwa [hsame]
  have hlower : name.toLower.toList = name.toList.map Char.toLower := String.toList_map
  rw [IsStamped, hlower, List.getLast?_map]
  rw [IsStamped] at h
  cases hlast : name.toList.getLast? with
  | none =>
    rw [hlast] at h
    cases h
  | some c =>
    rw [hlast] at h
    exact hdigit c h

/-- The name of a delegate does not end with a digit. -/
theorem not_isStamped_of_language {language : Language} (hname : IsProper name)
    (h : Language.ofPath? (dir.join name) = some language) : ¬ IsStamped name := by
  rw [Language.ofPath?] at h
  cases hext : (dir.join name).extension? with
  | none =>
    rw [hext] at h
    cases h
  | some ext =>
    rw [hext, Option.map_some] at h
    have hlower : ext.toLower = "swift" ∨ ext.toLower = "m" ∨ ext.toLower = "mm" := by
      split at h
      · exact .inl (Option.some.inj ‹_›)
      · exact .inr (.inl (Option.some.inj ‹_›))
      · exact .inr (.inr (Option.some.inj ‹_›))
      · cases h
    refine not_isStamped hname hext ?_ fun hstamped => ?_
    · rintro rfl
      have hnil : "".toLower = "" := String.map_eq_empty.2 rfl
      rw [hnil] at hlower
      exact absurd hlower (by decide)
    · have hstamped := hstamped.toLower
      rcases hlower with hlower | hlower | hlower <;> rw [hlower] at hstamped <;>
        exact absurd hstamped (by decide)

end SdkWiring
