import SdkWiring.Proofs.Delegate.ImportPoint

/-!
# Where frameworks are imported

A line that imports a framework is looked for in the text up to the end of the imports, live or not.
This text consists of whole lines, so what is found are positions of the delegate, and a removal
takes the whole line that begins there.

* `ImportsAt`: a line in front of an offset imports a framework.
* `importsAt_iff`: which lines do depends on the text up to the offset only.
* `occursIn_iff_importsAt`: a search finds out whether there is one.
* `Recipe.mem_importEdits`: the edits of a removal, one for each of them.
* `Language.isQuiet_of_importOf`, `significant_of_quiet`: a line that begins live is live to its end.
-/

namespace SdkWiring

variable {r : Recipe} {language : Language} {quoting : Quoting} {content block rest f u x y z : Text}
  {p q : Position} {e : Edit} {n : Nat}

/-- **A line in front of an offset imports a framework.** It is given by the position at which it
begins. -/
structure ImportsAt (language : Language) (content : Text) (n : Nat) (f : Text) (p : Position) :
    Prop where
  mem : p ∈ positions language.quoting content
  before : p.offset < n
  matched : (language.importOf f).matchesAt p.cursor = true

/-- The part of whole lines behind one of their characters consists of whole lines. -/
theorem endsLine_part (hb : EndsLine block.reverse) (h : block = x ++ y) (hy : y ≠ []) :
    EndsLine y.reverse := by
  obtain ⟨z, rfl⟩ := Language.split_endsLine hb h hy
  simp [EndsLine]

/-- **Which lines import a framework** depends on the text up to the offset only. -/
theorem importsAt_iff (hf : Text.isIdentifier f = true) (hb : EndsLine block.reverse) :
    ImportsAt language (block ++ rest) block.size f p ↔ ∃ x y, block = x ++ p.char :: y ∧
      (language.importOf f).matchesAt ⟨x.reverse, p.char :: y⟩ = true ∧
      p = (Mode.start.behind language.quoting x (some p.char)).place x.reverse p.char
        (y ++ rest) := by
  -- a block of whole lines decides for itself what is matched in it
  have hmatch : ∀ {x y c}, block = x ++ c :: y →
      ((language.importOf f).matchesAt ⟨x.reverse, c :: (y ++ rest)⟩ = true ↔
        (language.importOf f).matchesAt ⟨x.reverse, c :: y⟩ = true) := fun hxy =>
    Language.importOf_append_iff hf (endsLine_part hb hxy (by simp)) (by simp) rest
  constructor
  · rintro ⟨hmem, hbefore, hm⟩
    obtain ⟨x, y', hxy, hp⟩ := mem_positions.1 hmem
    have hx : p.before = x.reverse := by rw [hp]; rfl
    have hy' : p.after = y' := by rw [hp]; rfl
    have hsize : x.size < block.size := by simpa [Position.offset, hx] using hbefore
    obtain ⟨w, hw, hrest⟩ := Text.split_of_size hxy hsize.le
    cases w with
    | nil =>
      rw [hw, List.append_nil] at hsize
      exact absurd hsize (Nat.lt_irrefl _)
    | cons c y =>
      obtain ⟨rfl, htail⟩ := List.cons.inj hrest
      obtain rfl : y ++ rest = y' := htail
      rw [Position.cursor, hx, hy', hmatch hw] at hm
      exact ⟨x, y, hw, hm, hp⟩
  · rintro ⟨x, y, hxy, hm, hp⟩
    have hx : p.before = x.reverse := by rw [hp]; rfl
    have hy : p.after = y ++ rest := by rw [hp]; rfl
    refine ⟨mem_positions.2 ⟨x, y ++ rest, by rw [hxy]; simp, hp⟩, ?_, ?_⟩
    · have := p.char.utf8Size_pos
      rw [Position.offset, hx, hxy]
      simp only [Text.size_reverse, Text.size_append, Text.size_cons]
      omega
    · rw [Position.cursor, hx, hy, hmatch hxy]
      exact hm

/-- So does whether one of them begins in live code. -/
theorem live_importsAt_iff (hf : Text.isIdentifier f = true) (hb : EndsLine block.reverse) :
    (∃ p, ImportsAt language (block ++ rest) block.size f p ∧ p.significant = true) ↔
      ∃ x c y, block = x ++ c :: y ∧ (language.importOf f).matchesAt ⟨x.reverse, c :: y⟩ = true ∧
        (Mode.start.behind language.quoting x (some c)).context.isCode = true := by
  simp only [importsAt_iff hf hb]
  constructor
  · rintro ⟨p, ⟨x, y, hxy, hm, hp⟩, hsig⟩
    rw [hp] at hsig
    exact ⟨x, p.char, y, hxy, hm, hsig⟩
  · rintro ⟨x, c, y, hxy, hm, hsig⟩
    exact ⟨(Mode.start.behind language.quoting x (some c)).place x.reverse c (y ++ rest),
      ⟨x, y, hxy, hm, rfl⟩, hsig⟩

/-- **A search finds out** whether a line of the text up to the offset imports a framework. -/
theorem occursIn_iff_importsAt (hf : Text.isIdentifier f = true) (hb : EndsLine block.reverse) :
    (language.importOf f).occursIn block = true ↔
      ∃ p, ImportsAt language (block ++ rest) block.size f p := by
  rw [Pattern.occursIn_iff]
  constructor
  · rintro ⟨x, z, rfl, hm⟩
    obtain ⟨c, y, rfl⟩ := List.exists_cons_of_ne_nil (Language.ne_nil_of_importOf hf hm)
    exact ⟨(Mode.start.behind language.quoting x (some c)).place x.reverse c (y ++ rest),
      (importsAt_iff hf hb).2 ⟨x, y, rfl, hm, rfl⟩⟩
  · rintro ⟨p, h⟩
    obtain ⟨x, y, hxy, hm, -⟩ := (importsAt_iff hf hb).1 h
    exact ⟨x, p.char :: y, hxy, hm⟩

/-- A match in whole lines is the rest of one. -/
theorem exists_line (hf : Text.isIdentifier f = true) (hb : EndsLine block.reverse)
    (h : block = x ++ y) (hm : (language.importOf f).matchesAt ⟨x.reverse, y⟩ = true) :
    ∃ u z, y = u ++ '\n' :: z ∧ '\n' ∉ u ∧
      (language.importOf f).end? ⟨x.reverse, y⟩ = some ⟨'\n' :: (u.reverse ++ x.reverse), z⟩ := by
  obtain ⟨w, hw⟩ := Language.split_endsLine hb h (Language.ne_nil_of_importOf hf hm)
  obtain ⟨u, z, hy, hn⟩ := List.eq_append_cons_of_mem (show '\n' ∈ y by simp [hw])
  subst hy
  exact ⟨u, z, rfl, hn, Language.end?_importOf hf hn hm⟩

/-- Such a line ends in front of the offset. -/
theorem ImportsAt.exists_line (hf : Text.isIdentifier f = true) (hb : EndsLine block.reverse)
    (h : ImportsAt language (block ++ rest) block.size f p) :
    ∃ u z, block = p.backpart ++ (u ++ '\n' :: z) ∧ '\n' ∉ u ∧
      p.forepart = u ++ '\n' :: (z ++ rest) ∧
      (language.importOf f).matchesAt ⟨p.before, u ++ '\n' :: z⟩ = true := by
  obtain ⟨x, y, hxy, hm, hp⟩ := (importsAt_iff hf hb).1 h
  obtain ⟨u, z, hline, hn, -⟩ := SdkWiring.exists_line hf hb hxy hm
  have hx : p.before = x.reverse := by rw [hp]; rfl
  have hy : p.after = y ++ rest := by rw [hp]; rfl
  refine ⟨u, z, ?_, hn, ?_, ?_⟩
  · rw [Position.backpart, hx, List.reverse_reverse, ← hline]
    exact hxy
  · rw [Position.forepart, hy, ← List.cons_append, hline]
    simp
  · rw [hx, ← hline]
    exact hm

/-- **The edits that take the lines of a framework away**, one for each line. -/
theorem Recipe.mem_importEdits (hf : Text.isIdentifier f = true) (hb : EndsLine block.reverse) :
    e ∈ r.importEdits block f ↔ ∃ x u z, block = x ++ (u ++ '\n' :: z) ∧ '\n' ∉ u ∧
      (r.language.importOf f).matchesAt ⟨x.reverse, u ++ '\n' :: z⟩ = true ∧
      e = Edit.delete x.size (x.size + (u ++ ['\n']).size) := by
  -- a match is a line of its own, so no other one starts inside it
  have hlone : ∀ x y d, (Cursor.start block).after = x ++ y →
      (r.language.importOf f).end? ((Cursor.start block).advance x y) = some d →
        (r.language.importOf f).Lone ((Cursor.start block).advance x y) d := by
    intro x y d hxy hend
    rw [Pattern.start_advance] at hend ⊢
    obtain ⟨u, z, rfl, hn, hend'⟩ := exists_line hf hb hxy (Pattern.matchesAt_of_end? hend)
    obtain rfl := Option.some.inj (hend.symm.trans hend')
    refine ⟨u ++ ['\n'], by simp, by simp, by simp [Cursor.advance], fun v w hvw hv hw => ?_⟩
    obtain ⟨w, c, rfl⟩ := (List.eq_nil_or_concat' w).resolve_left hw
    rw [← List.append_assoc] at hvw
    refine Language.importOf_inside hv fun hmem => hn ?_
    rw [(List.append_inj' hvw rfl).1]
    exact List.mem_append_left _ hmem
  have hedit : ∀ x u z : Text, Edit.delete (Cursor.offset ⟨x.reverse, u ++ '\n' :: z⟩)
      (Cursor.offset ⟨'\n' :: (u.reverse ++ x.reverse), z⟩) =
        Edit.delete x.size (x.size + (u ++ ['\n']).size) := by
    intro x u z
    simp only [Cursor.offset, Text.size_cons, Text.size_append, Text.size_reverse, Text.size_nil]
    congr 1
    omega
  simp only [importEdits, List.mem_map, Prod.exists, Pattern.mem_findAll hlone,
    Pattern.start_advance]
  constructor
  · rintro ⟨-, d, ⟨x, y, hxy, rfl, hend⟩, rfl⟩
    have hm := Pattern.matchesAt_of_end? hend
    obtain ⟨u, z, rfl, hn, hend'⟩ := exists_line hf hb hxy hm
    obtain rfl := Option.some.inj (hend.symm.trans hend')
    exact ⟨x, u, z, hxy, hn, hm, hedit x u z⟩
  · rintro ⟨x, u, z, hxy, hn, hm, rfl⟩
    exact ⟨_, _, ⟨x, _, hxy, rfl, Language.end?_importOf hf hn hm⟩, hedit x u z⟩

theorem Recipe.bounds_of_importEdits (hf : Text.isIdentifier f = true) (hb : EndsLine block.reverse)
    (he : e ∈ r.importEdits block f) : e.start < e.stop ∧ e.stop ≤ block.size := by
  obtain ⟨x, u, z, rfl, -, -, rfl⟩ := (mem_importEdits hf hb).1 he
  have hbreak : '\n'.utf8Size = 1 := by decide
  simp only [Edit.delete, Text.size_append, Text.size_cons, Text.size_nil, hbreak]
  omega

/-- Each of these edits takes the line away that begins at a position. -/
theorem Recipe.mem_importEdits_iff (hf : Text.isIdentifier f = true) (hb : EndsLine block.reverse) :
    e ∈ r.importEdits block f ↔ ∃ p u z, ImportsAt r.language (block ++ rest) block.size f p ∧
      p.forepart = u ++ '\n' :: z ∧ '\n' ∉ u ∧
      e = Edit.delete p.offset (p.offset + (u ++ ['\n']).size) := by
  rw [mem_importEdits hf hb]
  constructor
  · rintro ⟨x, u, z, hxy, hn, hm, rfl⟩
    obtain ⟨c, y, hcy⟩ := List.exists_cons_of_ne_nil (Language.ne_nil_of_importOf hf hm)
    set p := (Mode.start.behind r.language.quoting x (some c)).place x.reverse c (y ++ rest) with hp
    have hfore : p.forepart = u ++ '\n' :: (z ++ rest) := by
      change c :: y ++ rest = _
      rw [← hcy, List.append_assoc]
      rfl
    have hoffset : p.offset = x.size := Text.size_reverse x
    rw [hcy] at hm hxy
    exact ⟨p, u, z ++ rest, (importsAt_iff hf hb).2 ⟨x, y, hxy, hm, hp⟩, hfore, hn, by rw [hoffset]⟩
  · rintro ⟨p, u, z, hat, hfore, hn, rfl⟩
    obtain ⟨u', z', hxy, hn', hfore', hm⟩ := hat.exists_line hf hb
    obtain rfl : u = u' := Text.eq_of_first hn hn' (hfore.symm.trans hfore')
    have hoffset : p.backpart.size = p.offset := Text.size_reverse p.before
    refine ⟨p.backpart, u, z', hxy, hn, ?_, by rw [hoffset]⟩
    rw [Position.backpart, List.reverse_reverse]
    exact hm

/-- **Lines that are taken away do not overlap.** -/
theorem Recipe.eq_of_importEdits {a : Edit} {g : Text} (hf : Text.isIdentifier f = true)
    (hg : Text.isIdentifier g = true) (hb : EndsLine block.reverse) (he : e ∈ r.importEdits block f)
    (ha : a ∈ r.importEdits block g) (hle : a.start ≤ e.start) (hlt : e.start < a.stop) : a = e := by
  obtain ⟨x, u, z, hxy, hn, hm, rfl⟩ := (mem_importEdits hf hb).1 he
  obtain ⟨x', u', z', hxy', hn', -, rfl⟩ := (mem_importEdits hg hb).1 ha
  simp only [Edit.delete] at hle hlt
  obtain ⟨w, rfl, hw⟩ := Text.split_of_size (hxy.symm.trans hxy') hle
  obtain rfl : w = [] := by
    by_contra hne
    -- a line begins behind a line feed, and that is behind the end of the other line
    obtain ⟨v, hv⟩ := Language.split_endsLine (Language.importOf_iff.1 hm).1 rfl hne
    rw [hv, List.append_assoc, List.singleton_append] at hw
    obtain ⟨v', rfl⟩ := (Text.prefix_append_stop hn').1 ⟨_, hw.symm⟩
    rw [hv] at hlt
    simp only [Text.size_append] at hlt
    omega
  rw [Text.eq_of_first hn hn' hw, List.append_nil]

/-- An import line has no character that a scan reacts to. -/
theorem Language.isQuiet_of_importOf {b : Text} (hf : Text.isIdentifier f = true) (hn : '\n' ∉ u)
    (hm : (language.importOf f).matchesAt ⟨b, u ++ '\n' :: z⟩ = true) :
    ∀ c ∈ u ++ ['\n'], Text.isQuiet c = true := by
  obtain ⟨-, w, e, h, hw, he⟩ := importOf_iff.1 hm
  obtain ⟨v, rfl⟩ := (Text.prefix_append_stop (hw.spec hf).1).1 ⟨e, h.symm⟩
  rw [List.append_assoc] at h
  have hnv : '\n' ∉ v := fun hmem => hn (List.mem_append_right _ hmem)
  have hv : v = [] ∨ v = ['\r'] := by
    rw [← List.append_cancel_left h] at he
    obtain ⟨eol, rest, heol⟩ := he.exists_break (by simp)
    cases eol with
    | lf => exact .inl (Text.eq_of_first hnv (by decide) (heol : v ++ '\n' :: z = [] ++ '\n' :: rest))
    | crlf =>
      exact .inr (Text.eq_of_first hnv (by decide) (heol : v ++ '\n' :: z = ['\r'] ++ '\n' :: rest))
  intro c hc
  rw [List.append_assoc, List.mem_append] at hc
  rcases hc with hc | hc
  · exact hw.isQuiet hf c hc
  · rcases hv with rfl | rfl
    · exact (by decide : ∀ c ∈ ([] ++ ['\n'] : Text), Text.isQuiet c = true) c hc
    · exact (by decide : ∀ c ∈ (['\r'] ++ ['\n'] : Text), Text.isQuiet c = true) c hc

/-- **From a live position on, quiet text is live.** -/
theorem significant_of_quiet (hp : p ∈ positions quoting content) (hsig : p.significant = true)
    (hfore : p.forepart = u ++ z) (hu : ∀ c ∈ u, Text.isQuiet c = true)
    (hq : q ∈ positions quoting content) (hle : p.offset ≤ q.offset)
    (hlt : q.offset < p.offset + u.size) : q.significant = true := by
  obtain ⟨x, y, rfl, hplace⟩ := mem_positions.1 hp
  obtain ⟨x', y', hxy, hplace'⟩ := mem_positions.1 hq
  have hx : p.offset = x.size := by rw [hplace, Position.offset, Mode.place, Text.size_reverse]
  have hx' : q.offset = x'.size := by rw [hplace', Position.offset, Mode.place, Text.size_reverse]
  have hy : p.char :: y = u ++ z := by rw [← hfore, hplace]; rfl
  rw [hx, hx'] at hle hlt
  -- the text between the two positions is a part of the quiet text
  obtain ⟨w, rfl, hw⟩ := Text.split_of_size hxy.symm hle
  rw [Text.size_append] at hlt
  obtain ⟨v, rfl, -⟩ := Text.split_of_size (hy.symm.trans hw.symm) (by omega)
  have hcode : ∃ l, Mode.start.behind quoting x (some p.char) = ⟨.code, l⟩ := by
    cases hm : Mode.start.behind quoting x (some p.char) with
    | mk context l =>
      rw [hplace, hm] at hsig
      cases context with
      | code => exact ⟨l, rfl⟩
      | _ => cases hsig
  obtain ⟨l, hcode⟩ := hcode
  have hhead : w.head?.or (some q.char) = some p.char := by
    have := congrArg List.head? hw
    simpa [List.head?_append] using this
  rw [hplace', behind_append, hhead, hcode, behind_quiet fun c hc => hu c (List.mem_append_left _ hc)]
  rfl

end SdkWiring
