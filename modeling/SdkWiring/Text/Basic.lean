/-!
# Text and byte offsets

A text is its list of characters. Places in it are counted in bytes of the UTF-8 form, so that an
offset is the size of what stands before it.

* `Text.size_append`: sizes add up.
* `Text.splitAt?_append`: splitting at the size of a first part gives back the two parts.
* `Text.splitAt?_eq_some`: a text splits at an offset only into two parts of which the first has
  that size, so an offset inside a character splits nothing.
-/

namespace SdkWiring

/-- A text as its characters, in reading order. -/
abbrev Text := List Char

namespace Text

/-- What is said of all characters of a text is decided by going through the text. Characters could
be gone through instead, since there are finitely many, but there are far too many. -/
instance (priority := 1100) decidableForallMem (P : Char → Prop) [DecidablePred P] (t : Text) :
    Decidable (∀ c ∈ t, P c) :=
  List.decidableBAll P t

/-- The number of bytes of the UTF-8 form. -/
def size : Text → Nat
  | [] => 0
  | c :: t => c.utf8Size + size t

@[simp] theorem size_nil : size [] = 0 := rfl

@[simp] theorem size_cons (c : Char) (t : Text) : size (c :: t) = c.utf8Size + size t := rfl

@[simp] theorem size_append (a b : Text) : size (a ++ b) = size a + size b := by
  induction a with
  | nil => simp
  | cons c a ih => simp [ih, Nat.add_assoc]

@[simp] theorem size_reverse (t : Text) : size t.reverse = size t := by
  induction t with
  | nil => rfl
  | cons c t ih => simp [ih, Nat.add_comm]

/-- The two parts before and after a byte offset. There are none if the offset lies inside a
character or past the end. -/
def splitAt? : Text → Nat → Option (Text × Text)
  | t, 0 => some ([], t)
  | [], _ + 1 => none
  | c :: t, n + 1 =>
    if n + 1 < c.utf8Size then none
    else (splitAt? t (n + 1 - c.utf8Size)).map fun parts => (c :: parts.1, parts.2)

/-- The part of a text between two byte offsets that do not lie inside a character. -/
def slice? (t : Text) (start stop : Nat) : Option Text :=
  if start ≤ stop then do
    let (_, rest) ← splitAt? t start
    let (part, _) ← splitAt? rest (stop - start)
    some part
  else none

@[simp] theorem splitAt?_zero (t : Text) : splitAt? t 0 = some ([], t) := by
  cases t <;> rfl

theorem splitAt?_cons_add (c : Char) (t : Text) (n : Nat) :
    splitAt? (c :: t) (c.utf8Size + n) =
      (splitAt? t n).map fun parts => (c :: parts.1, parts.2) := by
  obtain ⟨m, hm⟩ : ∃ m, c.utf8Size + n = m + 1 :=
    ⟨c.utf8Size + n - 1, by have := c.utf8Size_pos; omega⟩
  rw [hm, splitAt?, if_neg (by omega), show m + 1 - c.utf8Size = n by omega]

/-- Splitting at the size of a first part gives back the two parts. -/
theorem splitAt?_append (a b : Text) : splitAt? (a ++ b) (size a) = some (a, b) := by
  induction a with
  | nil => simp
  | cons c a ih => simp [splitAt?_cons_add, ih]

/-- A text splits at an offset only where the size of a first part is that offset. -/
theorem splitAt?_eq_some {t a b : Text} {n : Nat} :
    splitAt? t n = some (a, b) ↔ t = a ++ b ∧ n = size a := by
  constructor
  · intro h
    fun_induction splitAt? t n generalizing a with
    | case1 => simp_all
    | case2 => simp at h
    | case3 => simp at h
    | case4 c t n hn ih =>
      obtain ⟨⟨a', b'⟩, h', he⟩ := Option.map_eq_some_iff.1 h
      obtain ⟨rfl, rfl⟩ := Prod.mk.inj he
      obtain ⟨ht, hs⟩ := ih h'
      simp only [size_cons, List.cons_append, ← ht, true_and]
      omega
  · rintro ⟨rfl, rfl⟩
    exact splitAt?_append a b

/-- Whether `part` occurs somewhere in the text. -/
def contains (t part : Text) : Bool :=
  match t with
  | [] => part.isEmpty
  | c :: rest => part.isPrefixOf (c :: rest) || contains rest part

/-- Whether the text ends with a line feed. -/
def endsLine (t : Text) : Bool :=
  t.getLast? == some '\n'

/-- The pieces of a text between the occurrences of a character. -/
def cut (separator : Char) : Text → List Text
  | [] => [[]]
  | c :: rest =>
    if c = separator then [] :: cut separator rest
    else
      match cut separator rest with
      | [] => [[c]]
      | piece :: pieces => (c :: piece) :: pieces

/-- The lines of a text, each with its line feed; the last one may lack it. -/
def lines : Text → List Text
  | [] => []
  | c :: t =>
    if c = '\n' then [c] :: lines t
    else
      match lines t with
      | [] => [[c]]
      | line :: rest => (c :: line) :: rest

/-- Nothing is lost or added by cutting a text into lines. -/
theorem flatten_lines (t : Text) : (lines t).flatten = t := by
  induction t with
  | nil => rfl
  | cons c t ih =>
    by_cases hc : c = '\n'
    · simp [lines, hc, ih]
    · cases h : lines t with
      | nil => simp_all [lines]
      | cons line rest => simp_all [lines]

end Text

end SdkWiring
