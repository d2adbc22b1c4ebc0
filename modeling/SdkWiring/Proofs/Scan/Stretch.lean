import SdkWiring.Scan.Position

/-!
# Scanning a text piece by piece

The scan of a text is the scan of its first part followed by the scan of the rest, from the mode
that the first part leaves behind. A stretch is the part of a scan that belongs to one piece.

* `stretch_append`, `positions_eq_stretch`: a scan is put together from stretches.
* `stretch_split`: a position of a stretch cuts the piece in two.
* `positions_between`: the text between two positions.
* `behind_quiet`, `behind_quoted`: pieces that leave live code as live code at the same level.
-/

namespace SdkWiring

/-- What a scan carries from one character to the next. -/
structure Mode where
  context : Context
  level : Nat
  deriving DecidableEq, Repr

namespace Mode

/-- The mode in which a scan starts. -/
def start : Mode := ⟨.code, 0⟩

/-- The mode behind a character. -/
def step (quoting : Quoting) (m : Mode) (c : Char) (next : Option Char) : Mode :=
  ⟨m.context.advance quoting c next,
    levelAfter m.context.isCode c (levelAt m.context.isCode c m.level)⟩

/-- The mode behind a piece of text, given the character that follows it. -/
def behind (quoting : Quoting) : Mode → Text → Option Char → Mode
  | m, [], _ => m
  | m, c :: t, next => behind quoting (m.step quoting c (t.head?.or next)) t next

/-- The position of a character that is read in a mode. -/
def place (m : Mode) (before : Text) (c : Char) (after : Text) : Position :=
  ⟨before, c, after, m.context.isCode, levelAt m.context.isCode c m.level⟩

end Mode

/-- The positions of a piece of text, from a mode, the text before it and the text behind it. -/
def stretch (quoting : Quoting) : Mode → Text → Text → Text → List Position
  | _, _, [], _ => []
  | m, before, c :: t, after =>
    m.place before c (t ++ after) ::
      stretch quoting (m.step quoting c (t ++ after).head?) (c :: before) t after

variable {quoting : Quoting} {m : Mode} {before t after x y : Text} {c : Char} {p : Position}
  {ps qs : List Position} {next : Option Char}

@[simp] theorem stretch_nil : stretch quoting m before [] after = [] := rfl

theorem stretch_cons : stretch quoting m before (c :: t) after =
    m.place before c (t ++ after) ::
      stretch quoting (m.step quoting c (t ++ after).head?) (c :: before) t after := rfl

@[simp] theorem behind_nil : m.behind quoting [] next = m := rfl

theorem behind_cons : m.behind quoting (c :: t) next =
    (m.step quoting c (t.head?.or next)).behind quoting t next := rfl

theorem behind_append : m.behind quoting (x ++ y) next =
    (m.behind quoting x (y.head?.or next)).behind quoting y next := by
  induction x generalizing m with
  | nil => rfl
  | cons c x ih => simp only [List.cons_append, behind_cons, ih, List.head?_append, Option.or_assoc]

/-- **A scan is put together from stretches.** -/
theorem stretch_append : stretch quoting m before (x ++ y) after =
    stretch quoting m before x (y ++ after) ++
      stretch quoting (m.behind quoting x (y ++ after).head?) (x.reverse ++ before) y after := by
  induction x generalizing m before with
  | nil => rfl
  | cons c x ih =>
    simp only [List.cons_append, stretch_cons, behind_cons, ih, List.append_assoc,
      List.head?_append, List.reverse_cons, List.nil_append]

theorem positionsFrom_eq_stretch : positionsFrom quoting m.context m.level before t =
    stretch quoting m before t [] := by
  induction t generalizing m before with
  | nil => rfl
  | cons c t ih =>
    rw [stretch_cons, ← ih]
    simp only [positionsFrom, List.append_nil]
    rfl

theorem positions_eq_stretch : positions quoting t = stretch quoting .start [] t [] :=
  positionsFrom_eq_stretch (m := .start)

@[simp] theorem length_stretch : (stretch quoting m before t after).length = t.length := by
  induction t generalizing m before with
  | nil => rfl
  | cons c t ih => simp [stretch_cons, ih]

/-- A position of a stretch cuts the piece in two, and the stretch with it. -/
theorem stretch_split (h : stretch quoting m before t after = ps ++ p :: qs) :
    ∃ x y, t = x ++ p.char :: y ∧ ps = stretch quoting m before x (p.char :: (y ++ after)) ∧
      p = (m.behind quoting x (some p.char)).place (x.reverse ++ before) p.char (y ++ after) ∧
      qs = stretch quoting ((m.behind quoting x (some p.char)).step quoting p.char
        (y ++ after).head?) (p.char :: (x.reverse ++ before)) y after := by
  induction t generalizing m before ps with
  | nil => simp at h
  | cons c t ih =>
    rw [stretch_cons] at h
    cases ps with
    | nil =>
      obtain ⟨rfl, rfl⟩ := List.cons.inj h
      exact ⟨[], t, rfl, rfl, rfl, rfl⟩
    | cons p' ps =>
      obtain ⟨rfl, htail⟩ := List.cons.inj h
      obtain ⟨x, y, rfl, hps, hp, hqs⟩ := ih htail
      have hhead : (x ++ p.char :: y ++ after).head? = x.head?.or (some p.char) := by
        simp [List.head?_append]
      rw [hhead] at hps hp hqs
      refine ⟨c :: x, y, rfl, ?_, ?_, ?_⟩
      · rw [hps, stretch_cons]
        simp [List.head?_append]
      · rw [behind_cons, List.reverse_cons, List.append_assoc]
        exact hp
      · rw [behind_cons, List.reverse_cons, List.append_assoc]
        exact hqs

theorem stretch_split_of_mem (h : p ∈ stretch quoting m before t after) :
    ∃ x y, t = x ++ p.char :: y ∧
      p = (m.behind quoting x (some p.char)).place (x.reverse ++ before) p.char (y ++ after) := by
  obtain ⟨ps, qs, hs⟩ := List.append_of_mem h
  obtain ⟨x, y, ht, -, hp, -⟩ := stretch_split hs
  exact ⟨x, y, ht, hp⟩

/-- A position of a text cuts the text in two, and its scan with it. -/
theorem positions_split (h : positions quoting t = ps ++ p :: qs) :
    t = p.backpart ++ p.forepart ∧ ps = stretch quoting .start [] p.backpart p.forepart ∧
      p :: qs = stretch quoting (Mode.start.behind quoting p.backpart (some p.char)) p.before
        p.forepart [] ∧
      p = (Mode.start.behind quoting p.backpart (some p.char)).place p.before p.char p.after := by
  rw [positions_eq_stretch] at h
  obtain ⟨x, y, rfl, hps, hp, hqs⟩ := stretch_split h
  simp only [List.append_nil] at hps hp hqs
  have hb : p.before = x.reverse := by rw [hp]; rfl
  have ha : p.after = y := by rw [hp]; rfl
  have hx : p.backpart = x := by rw [Position.backpart, hb, List.reverse_reverse]
  refine ⟨by rw [hx, Position.forepart, ha], by rw [hx, Position.forepart, ha]; exact hps, ?_, ?_⟩
  · rw [hx, hb, Position.forepart, ha, stretch_cons, List.append_nil, ← hp, ← hqs]
  · rw [hx, hb, ha]
    exact hp

/-- The characters of a stretch are those of its piece. -/
theorem map_char_stretch : (stretch quoting m before t after).map Position.char = t := by
  induction t generalizing m before with
  | nil => rfl
  | cons c t ih => rw [stretch_cons, List.map_cons, ih, Mode.place]

/-- Between two positions of a text stand the characters of the positions between them. -/
theorem positions_between {us vs : List Position} {q : Position}
    (h : positions quoting t = ps ++ p :: (us ++ q :: vs)) :
    p.after = us.map Position.char ++ q.forepart ∧
      q.before = (us.map Position.char).reverse ++ p.char :: p.before := by
  obtain ⟨-, -, hpqs, -⟩ := positions_split h
  rw [Position.forepart, stretch_cons] at hpqs
  obtain ⟨-, htail⟩ := List.cons.inj hpqs
  obtain ⟨x, y, hx, hus, hq, -⟩ := stretch_split htail.symm
  have hafter : q.after = y := by rw [hq]; simp [Mode.place]
  rw [hus, map_char_stretch, Position.forepart, hafter]
  refine ⟨hx, ?_⟩
  rw [hq, Mode.place]

/-- From a live position on, a scan starts in live code. -/
theorem stretch_of_live (h : positions quoting t = ps ++ p :: qs) (hsig : p.significant = true) :
    ∃ l, p.level = levelAt true p.char l ∧
      p :: qs = stretch quoting ⟨.code, l⟩ p.before p.forepart [] := by
  obtain ⟨-, -, hpqs, hplace⟩ := positions_split h
  cases hm : Mode.start.behind quoting p.backpart (some p.char) with
  | mk context l =>
    rw [hm] at hplace hpqs
    have hcode : context.isCode = true := by rw [← hsig, hplace]; rfl
    have hlevel : p.level = levelAt context.isCode p.char l := congrArg Position.level hplace
    rw [hcode] at hlevel
    cases context with
    | code => exact ⟨l, hlevel, hpqs⟩
    | _ => simp [Context.isCode] at hcode

/-- A position knows the text that it belongs to. -/
theorem text_of_mem_positions (h : p ∈ positions quoting t) :
    t = p.before.reverse ++ p.char :: p.after := by
  rw [positions_eq_stretch] at h
  obtain ⟨x, y, rfl, hp⟩ := stretch_split_of_mem h
  rw [hp]
  simp [Mode.place]

/-- **The positions of a text**: one for each way to cut it in front of a character. -/
theorem mem_positions : p ∈ positions quoting t ↔ ∃ x y, t = x ++ p.char :: y ∧
    p = (Mode.start.behind quoting x (some p.char)).place x.reverse p.char y := by
  rw [positions_eq_stretch]
  constructor
  · intro h
    obtain ⟨x, y, hxy, hp⟩ := stretch_split_of_mem h
    rw [List.append_nil, List.append_nil] at hp
    exact ⟨x, y, hxy, hp⟩
  · rintro ⟨x, y, rfl, hp⟩
    rw [stretch_append, stretch_cons, List.append_nil, List.append_nil, List.append_nil,
      List.head?_cons, ← hp]
    simp

/-- A character that neither opens a comment or a literal nor is a brace. -/
def Text.isQuiet (c : Char) : Bool :=
  c != '/' && c != '"' && c != '\'' && c != '{' && c != '}'

theorem step_quiet {l : Nat} (hc : Text.isQuiet c = true) :
    (Mode.mk .code l).step quoting c next = ⟨.code, l⟩ := by
  simp only [Text.isQuiet, Bool.and_eq_true, bne_iff_ne, ne_eq] at hc
  obtain ⟨⟨⟨⟨h1, h2⟩, h3⟩, h4⟩, h5⟩ := hc
  have hq : c ∉ quoting.quotes := by cases quoting <;> simp [Quoting.quotes, h2, h3]
  simp [Mode.step, Context.advance, Context.enter, Context.isCode, levelAfter, levelAt, h1, h4, h5,
    hq]

/-- Quiet text leaves live code as live code at the same level. -/
theorem behind_quiet {l : Nat} (h : ∀ c ∈ t, Text.isQuiet c = true) :
    (Mode.mk .code l).behind quoting t next = ⟨.code, l⟩ := by
  induction t with
  | nil => rfl
  | cons c t ih =>
    rw [behind_cons, step_quiet (h c (by simp))]
    exact ih fun d hd => h d (by simp [hd])

/-- Quiet text is live, at the level where it starts. -/
theorem stretch_quiet {l : Nat} (h : ∀ c ∈ t, Text.isQuiet c = true)
    (hp : p ∈ stretch quoting ⟨.code, l⟩ before t after) : p.significant = true ∧ p.level = l := by
  obtain ⟨x, y, rfl, hplace⟩ := stretch_split_of_mem hp
  rw [behind_quiet fun c hc => h c (by simp [hc])] at hplace
  have hc := h p.char (by simp)
  simp only [Text.isQuiet, Bool.and_eq_true, bne_iff_ne, ne_eq] at hc
  rw [hplace]
  simp [Mode.place, Context.isCode, levelAt, hc.2]

/-- A character that neither ends a literal in double quotes nor escapes the next one. -/
def Text.isVerbatim (c : Char) : Bool := c != '"' && c != '\\'

theorem behind_verbatim {l : Nat} (h : ∀ c ∈ t, Text.isVerbatim c = true) :
    (Mode.mk (.literal '"' false) l).behind quoting t next = ⟨.literal '"' false, l⟩ := by
  induction t with
  | nil => rfl
  | cons c t ih =>
    have hc := h c (by simp)
    simp only [Text.isVerbatim, Bool.and_eq_true, bne_iff_ne, ne_eq] at hc
    have hs : (Mode.mk (.literal '"' false) l).step quoting c (t.head?.or next) =
        ⟨.literal '"' false, l⟩ := by
      simp [Mode.step, Context.advance, Context.isCode, levelAfter, levelAt, hc]
    rw [behind_cons, hs]
    exact ih fun d hd => h d (by simp [hd])

theorem step_quote {l : Nat} :
    (Mode.mk .code l).step quoting '"' next = ⟨.literal '"' false, l⟩ := by
  cases quoting <;>
    simp [Mode.step, Context.advance, Context.enter, Context.isCode, levelAfter, levelAt,
      Quoting.quotes]

/-- A literal leaves live code as live code at the same level. -/
theorem behind_quoted {l : Nat} (h : ∀ c ∈ t, Text.isVerbatim c = true) :
    (Mode.mk .code l).behind quoting ('"' :: (t ++ ['"'])) next = ⟨.code, l⟩ := by
  rw [behind_cons, step_quote, behind_append, behind_verbatim h, behind_cons, behind_nil]
  simp [Mode.step, Context.advance, Context.isCode, levelAfter, levelAt]

/-- The inside of a literal is not live, and at the level where the literal starts. -/
theorem stretch_quoted {l : Nat} (h : ∀ c ∈ t, Text.isVerbatim c = true)
    (hp : p ∈ stretch quoting ⟨.code, l⟩ before ('"' :: (t ++ ['"'])) after) :
    p.level = l ∧ (p.significant = true → p.char = '"') := by
  rw [stretch_cons, step_quote, List.mem_cons] at hp
  rcases hp with rfl | hp
  · simp [Mode.place, Context.isCode, levelAt]
  · rw [stretch_append, List.mem_append] at hp
    rcases hp with hp | hp
    · obtain ⟨x, y, rfl, hplace⟩ := stretch_split_of_mem hp
      rw [behind_verbatim fun c hc => h c (by simp [hc])] at hplace
      rw [hplace]
      simp [Mode.place, Context.isCode, levelAt]
    · rw [behind_verbatim h, stretch_cons, stretch_nil, List.mem_singleton] at hp
      rw [hp]
      simp [Mode.place, Context.isCode, levelAt]

end SdkWiring
