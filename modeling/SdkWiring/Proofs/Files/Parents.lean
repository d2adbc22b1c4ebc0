import SdkWiring.Proofs.Files.Names

/-!
# Going down and up

From a directory names lead down, and the parent of a path leads back. On the way up from an entry
stand the directories that its names led through, and then what stands above the directory itself.

* `Path.descend`: what names lead to.
* `components_join`, `components_parent?`: what going down and up does to the components of a path.
* `Path.Above`, `Path.Below`: what stands above a path, and what lies below a directory.
* `above_descend`: what stands above an entry.
-/

namespace SdkWiring

variable {p q root top : Path} {name piece m n : Name} {names front : List Name}

/-! ## Components -/

theorem IsProper.ne_empty (h : IsProper name) : name ≠ "" := by
  rintro rfl
  exact absurd h.1 (by decide)

theorem components_cons {first : Name} {rest : List Name} (h : first :: rest ≠ [""]) :
    Path.components ⟨first :: rest⟩ = first :: rest.filter (!Path.isIdle ·) := by
  rw [Path.components]
  split
  · cases ‹first :: rest = []›
  · exact absurd ‹_› h
  · rename_i heq
    obtain ⟨rfl, rfl⟩ := List.cons.inj heq
    rfl

/-- Going down adds a component. -/
theorem components_join (p : Path) (hname : IsProper name) :
    (p.join name).components = p.components ++ [name] := by
  obtain ⟨ps, hjoin, hpieces⟩ := View.pieces_join p name
  have hpath : ∀ q : Path, q = ⟨q.pieces⟩ := fun q => rfl
  rw [hpath (p.join name), hpath p, hjoin, components_concat hname]
  -- the path has no piece or is the empty one, or it ends in a slash, or in a name
  rcases hpieces with ⟨rfl, hp | hp⟩ | ⟨hne, hp | ⟨hp, hlast⟩⟩ <;> rw [hp]
  · rfl
  · rfl
  · obtain ⟨first, ps, rfl⟩ := List.exists_cons_of_ne_nil hne
    have hidle : Path.isIdle "" = true := by decide
    rw [List.cons_append, components_cons (by simp), List.filter_append]
    simp [hidle]
  · obtain ⟨first, ps, rfl⟩ := List.exists_cons_of_ne_nil hne
    have hnot : first :: ps ≠ [""] := by
      intro heq
      rw [heq] at hlast
      exact hlast rfl
    rw [components_cons hnot]
    rfl

/-- Pieces at the end that do not move are no components. -/
theorem filter_trimmed (rest : List Name) :
    (rest.reverse.dropWhile Path.isIdle).reverse.filter (!Path.isIdle ·) =
      rest.filter (!Path.isIdle ·) := by
  have hidles : (rest.reverse.takeWhile Path.isIdle).filter (!Path.isIdle ·) = [] := by
    rw [List.filter_eq_nil_iff]
    intro name hn
    simp [List.all_eq_true.1 List.all_takeWhile name hn]
  have hsplit := congrArg (List.filter (!Path.isIdle ·))
    (List.takeWhile_append_dropWhile (p := Path.isIdle) (l := rest.reverse))
  rw [List.filter_append, hidles, List.nil_append] at hsplit
  rw [List.filter_reverse, hsplit, List.filter_reverse, List.reverse_reverse]

/-- The last of the pieces that are kept does move. -/
theorem getLast?_trimmed {rest kept : List Name} {last : Name}
    (h : (rest.reverse.dropWhile Path.isIdle).reverse = kept ++ [last]) :
    Path.isIdle last = false := by
  have hfront : rest.reverse.dropWhile Path.isIdle = last :: kept.reverse := by
    rw [← List.reverse_reverse (rest.reverse.dropWhile Path.isIdle), h, List.reverse_concat]
  have hhead := List.head?_dropWhile_not Path.isIdle rest.reverse
  rw [hfront] at hhead
  exact Bool.eq_false_iff.2 (by simpa using hhead)

/-- **Going up** takes the last component away. -/
theorem components_parent? (h : p.parent? = some q) : q.components = p.components.dropLast := by
  obtain ⟨pieces⟩ := p
  cases pieces with
  | nil => cases h
  | cons first rest =>
    rw [Path.parent?] at h
    have hfilter := filter_trimmed rest
    rcases List.eq_nil_or_concat' (rest.reverse.dropWhile Path.isIdle).reverse with hnil |
      ⟨kept, last, hkept⟩
    · -- nothing but one piece, which has to be a name
      rw [hnil, List.filter_nil] at hfilter
      rw [Path.trimmed, hnil] at h
      by_cases hfirst : first = ""
      · simp [hfirst] at h
      · simp only [if_neg hfirst] at h
        obtain rfl := Option.some.inj h
        have hcomponents : (⟨first :: rest⟩ : Path).components =
            first :: rest.filter (!Path.isIdle ·) := components_cons fun heq => hfirst (List.cons.inj heq).1
        rw [hcomponents, ← hfilter]
        rfl
    · -- the last piece that moves is taken away
      have hmoves := getLast?_trimmed hkept
      have hcomponents : (⟨first :: rest⟩ : Path).components =
          first :: rest.filter (!Path.isIdle ·) := by
        refine components_cons fun heq => ?_
        rw [(List.cons.inj heq).2] at hkept
        simp at hkept
      rw [hkept, List.filter_append] at hfilter
      have hlast : [last].filter (!Path.isIdle ·) = [last] := by simp [hmoves]
      rw [hcomponents, ← hfilter, hlast, ← List.cons_append, List.dropLast_concat]
      obtain ⟨second, tail, hsecond⟩ : ∃ second tail, kept ++ [last] = second :: tail :=
        List.exists_cons_of_ne_nil (by simp)
      have hdrop : (second :: tail).dropLast = kept := by rw [← hsecond, List.dropLast_concat]
      rw [Path.trimmed, hkept, hsecond] at h
      simp only [hdrop] at h
      have hkeptFilter := filter_trimmed kept
      split at h
      · rename_i htop
        obtain rfl := Option.some.inj h
        obtain ⟨rfl, hnone⟩ := List.cons.inj htop
        rw [← hkeptFilter, hnone]
        rfl
      · rename_i hno
        obtain rfl := Option.some.inj h
        rw [Path.trimmed] at hno ⊢
        rw [components_cons hno, hkeptFilter]

/-! ## Pieces -/

/-- Going down adds no other piece than the name. -/
theorem mem_join (h : piece ∈ (p.join name).pieces) : piece ∈ p.pieces ∨ piece = name := by
  obtain ⟨ps, hps, hpieces⟩ := View.pieces_join p name
  rw [hps, List.mem_append, List.mem_singleton] at h
  refine h.imp_left fun h => ?_
  rcases hpieces with ⟨rfl, -⟩ | ⟨-, hp | ⟨hp, -⟩⟩
  · cases h
  · rw [hp]
    exact List.mem_append_left _ h
  · rwa [hp]

theorem mem_of_mem_trimmed (h : piece ∈ Path.trimmed names) : piece ∈ names := by
  cases names with
  | nil => exact h
  | cons first rest =>
    rw [Path.trimmed, List.mem_cons] at h
    rw [List.mem_cons]
    refine h.imp_right fun h => ?_
    exact List.mem_reverse.1 ((List.dropWhile_sublist _).mem (List.mem_reverse.1 h))

/-- Going up adds no piece but an empty one. -/
theorem mem_parent? (h : p.parent? = some q) (hpiece : piece ∈ q.pieces) :
    piece ∈ p.pieces ∨ piece = "" := by
  rw [Path.parent?] at h
  split at h
  · cases h
  · split at h
    · cases h
    · obtain rfl := Option.some.inj h
      exact .inr (by simpa using hpiece)
  · rename_i first rest _ htrimmed
    split at h
    · obtain rfl := Option.some.inj h
      exact .inr (by simpa using hpiece)
    · obtain rfl := Option.some.inj h
      have hmem : piece ∈ first :: rest.dropLast := mem_of_mem_trimmed hpiece
      refine .inl (mem_of_mem_trimmed (htrimmed ▸ ?_))
      exact List.mem_cons.2 ((List.mem_cons.1 hmem).imp_right (List.dropLast_subset _ ·))

/-! ## Entries of entries -/

/-- Below an entry a path only grows. -/
theorem pieces_join_join (p : Path) (hm : IsProper m) (n : Name) :
    ((p.join m).join n).pieces = (p.join m).pieces ++ [n] := by
  obtain ⟨ps, hps, -⟩ := View.pieces_join p m
  obtain ⟨qs, hqs, hpieces⟩ := View.pieces_join (p.join m) n
  have hne : ∀ rest, ps ++ [m] ≠ rest ++ [""] := fun rest heq =>
    hm.ne_empty (List.cons.inj (List.append_inj' heq rfl).2).1
  rw [hqs]
  rw [hps] at hpieces ⊢
  -- only a last piece that is empty would be dropped, and the name of an entry is not
  rcases hpieces with ⟨-, hnil | hempty⟩ | ⟨-, hempty | ⟨hsame, -⟩⟩
  · simp at hnil
  · exact absurd hempty (hne [])
  · exact absurd hempty (hne qs)
  · rw [hsame]

/-- Going up from an entry of an entry. -/
theorem parent?_join_join (p : Path) (hm : IsProper m) (hn : IsProper n) :
    ((p.join m).join n).parent? = some (p.join m) := by
  obtain ⟨ps, hps, -⟩ := View.pieces_join p m
  have hpath : p.join m = ⟨ps ++ [m]⟩ := by rw [← hps]
  rw [Path.parent?, pieces_join_join p hm, hps, View.trimmed_concat hn]
  obtain ⟨first, rest, hfirst⟩ : ∃ first rest, ps ++ [m] = first :: rest :=
    List.exists_cons_of_ne_nil (by simp)
  obtain ⟨second, tail, hsecond⟩ : ∃ second tail, rest ++ [n] = second :: tail :=
    List.exists_cons_of_ne_nil (by simp)
  have hdrop : (second :: tail).dropLast = rest := by rw [← hsecond, List.dropLast_concat]
  rw [hfirst, List.cons_append, hsecond]
  simp only [hdrop]
  rw [← hfirst, View.trimmed_concat hm, hpath]
  split
  · rename_i hempty
    have hlast : [m] = [""] := (List.append_inj' (hempty.trans (List.nil_append [""]).symm) rfl).2
    exact absurd (List.cons.inj hlast).1 hm.ne_empty
  · rfl

namespace Path

/-! ## Down -/

/-- What names lead to from a directory. -/
def descend (p : Path) (names : List Name) : Path := names.foldl join p

@[simp] theorem descend_nil (p : Path) : p.descend [] = p := rfl

@[simp] theorem descend_concat (p : Path) (names : List Name) (name : Name) :
    p.descend (names ++ [name]) = (p.descend names).join name := by
  rw [descend, descend, List.foldl_concat]

theorem descend_append (p : Path) (front names : List Name) :
    p.descend (front ++ names) = (p.descend front).descend names := List.foldl_append

theorem components_descend (p : Path) (h : ∀ name ∈ names, IsProper name) :
    (p.descend names).components = p.components ++ names := by
  induction names using List.reverseRecOn with
  | nil => rw [descend_nil, List.append_nil]
  | append_singleton names name ih =>
    have hnames := ih fun n hn => h n (List.mem_append_left _ hn)
    rw [descend_concat, components_join _ (h name (by simp)), hnames, List.append_assoc]

/-- The parent of an entry below a directory. -/
theorem parent?_descend (p : Path) (h : ∀ name ∈ names ++ [m, n], IsProper name) :
    (p.descend (names ++ [m, n])).parent? = some (p.descend (names ++ [m])) := by
  have hsplit : names ++ [m, n] = names ++ [m] ++ [n] := by simp
  rw [hsplit, descend_concat, descend_concat]
  exact parent?_join_join _ (h m (by simp)) (h n (by simp))

/-! ## Up -/

/-- One path stands above another one: it is the parent, or the parent of a parent. -/
inductive Above : Path → Path → Prop
  | parent {p q : Path} (h : p.parent? = some q) : Above q p
  | up {p q r : Path} (h : p.parent? = some r) (habove : Above q r) : Above q p

/-- A path lies below a directory. -/
def Below (root p : Path) : Prop :=
  root.components <+: p.components ∧ p.components ≠ root.components

instance (root p : Path) : Decidable (Below root p) := inferInstanceAs (Decidable (_ ∧ _))

theorem Above.components (h : Above q p) : q.components <+: p.components.dropLast := by
  induction h with
  | parent h =>
    have hsame := components_parent? h
    exact hsame ▸ List.prefix_rfl
  | up h _ ih =>
    rw [components_parent? h] at ih
    exact ih.trans (List.dropLast_prefix _)

/-- What stands above a path with no more components does not lie below it. -/
theorem not_below (h : q.components <+: root.components) : ¬ Below root q := fun hbelow =>
  hbelow.2 (h.eq_of_length (Nat.le_antisymm h.length_le hbelow.1.length_le))

theorem above_iff {r : Path} (h : p.parent? = some r) : Above q p ↔ q = r ∨ Above q r := by
  constructor
  · intro habove
    cases habove with
    | parent h' => exact .inl (Option.some.inj (h'.symm.trans h))
    | up h' habove =>
      obtain rfl := Option.some.inj (h'.symm.trans h)
      exact .inr habove
  · rintro (rfl | habove)
    · exact .parent h
    · exact .up h habove

/-- **What stands above an entry**: the directories on the way to it, and what has no more components
than the directory where the way starts. -/
theorem above_descend (h : ∀ name ∈ names, IsProper name) (habove : Above q (top.descend names)) :
    (∃ front, front <+: names ∧ front ≠ [] ∧ front ≠ names ∧ q = top.descend front) ∨
      q.components <+: top.components := by
  -- from the end of the way: its parent is the last directory on it
  induction names using List.reverseRecOn with
  | nil => exact .inr (habove.components.trans (List.dropLast_prefix _))
  | append_singleton names n ih =>
    rcases List.eq_nil_or_concat' names with rfl | ⟨start, m, rfl⟩
    · have hprefix := habove.components
      rw [components_descend top h, List.nil_append, List.dropLast_concat] at hprefix
      exact .inr hprefix
    · have hstart : ∀ name ∈ start ++ [m], IsProper name := fun name hn =>
        h name (List.mem_append_left _ hn)
      rw [List.append_assoc, List.singleton_append] at h habove
      rcases (above_iff (parent?_descend top h)).1 habove with rfl | habove
      · exact .inl ⟨start ++ [m], List.prefix_append _ _, by simp, by simp, rfl⟩
      · refine (ih hstart habove).imp_left ?_
        rintro ⟨front, hfront, hnil, -, rfl⟩
        refine ⟨front, hfront.trans (List.prefix_append _ _), hnil, ?_, rfl⟩
        rintro rfl
        have := hfront.length_le
        simp at this

/-- The directories on the way stand above an entry. -/
theorem descend_above (h : ∀ name ∈ names, IsProper name) (hfront : front <+: names)
    (hnil : front ≠ []) (hne : front ≠ names) : Above (top.descend front) (top.descend names) := by
  induction names using List.reverseRecOn with
  | nil => exact absurd (List.prefix_nil.1 hfront) hnil
  | append_singleton names n ih =>
    have hprefix := (List.prefix_concat_iff.1 hfront).resolve_left hne
    rcases List.eq_nil_or_concat' names with rfl | ⟨start, m, rfl⟩
    · exact absurd (List.prefix_nil.1 hprefix) hnil
    · rw [List.append_assoc, List.singleton_append] at h ⊢
      rw [above_iff (parent?_descend top h)]
      by_cases heq : front = start ++ [m]
      · exact .inl (by rw [heq])
      · exact .inr (ih (fun name hn => h name (by simp at hn ⊢; tauto)) hprefix heq)

end Path

end SdkWiring
