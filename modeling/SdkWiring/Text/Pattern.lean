import SdkWiring.Text.Basic
import SdkWiring.Text.CharClass

/-!
# Patterns

A pattern says from where to where in a text it matches. It lists every end of a match that starts
at a given place, the preferred one first; so the first end is the one that a search reports, and
membership alone says what matches at all.

* `Pattern.mem_append`, `Pattern.mem_orElse`: sequence and choice, read as relations.
* `Pattern.mem_literal`, `Pattern.mem_few`, `Pattern.mem_many`: what the building blocks match.
* `Pattern.find?`: the match that starts first, and of those the preferred one.
* `Pattern.findAll`: the matches found one after the other.
-/

namespace SdkWiring

/-- A place in a text: what stands before it, nearest character first, and what stands after it. -/
structure Cursor where
  before : Text
  after : Text
  deriving DecidableEq, Repr

namespace Cursor

/-- The place before the first character. -/
def start (t : Text) : Cursor := ⟨[], t⟩

/-- The byte offset of a place. -/
def offset (c : Cursor) : Nat := c.before.size

/-- The whole text. -/
def text (c : Cursor) : Text := c.before.reverse ++ c.after

/-- The place behind a part of the text that follows. -/
def advance (c : Cursor) (part rest : Text) : Cursor := ⟨part.reverse ++ c.before, rest⟩

/-- All places of the text that follows `before`, in reading order. -/
def placesFrom (before : Text) : Text → List Cursor
  | [] => [⟨before, []⟩]
  | x :: rest => ⟨before, x :: rest⟩ :: placesFrom (x :: before) rest

/-- This place and all later ones. -/
def places (c : Cursor) : List Cursor := placesFrom c.before c.after

theorem mem_placesFrom {before after : Text} {d : Cursor} :
    d ∈ placesFrom before after ↔
      ∃ part rest, after = part ++ rest ∧ d = ⟨part.reverse ++ before, rest⟩ := by
  induction after generalizing before with
  | nil => simp [placesFrom, and_assoc]
  | cons x after ih =>
    simp only [placesFrom, List.mem_cons, ih]
    constructor
    · rintro (rfl | ⟨part, rest, rfl, rfl⟩)
      · exact ⟨[], _, rfl, rfl⟩
      · exact ⟨x :: part, rest, by simp, by simp⟩
    · rintro ⟨part, rest, h, rfl⟩
      cases part with
      | nil => left; simp_all
      | cons y part =>
        obtain ⟨rfl, rfl⟩ := List.cons.inj h
        exact Or.inr ⟨part, rest, rfl, by simp⟩

end Cursor

/-- For each place, the ends of the matches that start there, the preferred one first. -/
def Pattern := Cursor → List Cursor

namespace Pattern

/-- One pattern after the other. -/
instance : Append Pattern := ⟨fun p q c => (p c).flatMap q⟩

/-- The first pattern, or else the second. -/
instance : OrElse Pattern := ⟨fun p q c => p c ++ q () c⟩

/-- Matches where nothing has to stand. -/
def skip : Pattern := fun c => [c]

/-- Matches, without moving on, where a condition holds. -/
def guard (holds : Cursor → Bool) : Pattern := fun c => if holds c then [c] else []

/-- A character of a class. -/
def one (f : Char → Bool) : Pattern := fun c =>
  match c.after with
  | [] => []
  | x :: rest => if f x then [⟨x :: c.before, rest⟩] else []

/-- The characters of a text, as they are. -/
def literal : Text → Pattern
  | [] => skip
  | x :: t => one (· == x) ++ literal t

/-- The places that a run of characters of a class reaches, the nearest one first. -/
def runs (f : Char → Bool) (before : Text) : Text → List Cursor
  | [] => [⟨before, []⟩]
  | x :: rest =>
    ⟨before, x :: rest⟩ :: if f x then runs f (x :: before) rest else []

/-- Any number of characters of a class, as few as possible. -/
def few (f : Char → Bool) : Pattern := fun c => runs f c.before c.after

/-- Any number of characters of a class, as many as possible. -/
def many (f : Char → Bool) : Pattern := fun c => (few f c).reverse

/-- At least one character of a class, as many as possible. -/
def many1 (f : Char → Bool) : Pattern := one f ++ many f

/-- A pattern, if it matches. -/
def optional (p : Pattern) : Pattern := p <|> skip

/-- At most `n` times a pattern that moves on, as often as possible. -/
def upTo (p : Pattern) : Nat → Pattern
  | 0 => skip
  | n + 1 => fun c =>
    ((p c).filter fun d => d.after.length < c.after.length).flatMap (upTo p n) ++ [c]

/-- Any number of times a pattern that moves on, as often as possible. -/
def star (p : Pattern) : Pattern := fun c => upTo p c.after.length c

/-- The border of a word: of the two neighbours just one is a word character. -/
def border : Pattern :=
  guard fun c => c.before.head?.any Text.isWord != c.after.head?.any Text.isWord

/-- The start of the text. -/
def textStart : Pattern := guard fun c => c.before.isEmpty

/-- The end of the text. -/
def textEnd : Pattern := guard fun c => c.after.isEmpty

/-- The start of a line. -/
def lineStart : Pattern := guard fun c => c.before.isEmpty || c.before.head? == some '\n'

/-- The end of a line, before its line feed. -/
def lineEnd : Pattern := guard fun c => c.after.isEmpty || c.after.head? == some '\n'

/-- A line break of either kind. -/
def lineBreak : Pattern := optional (literal ['\r']) ++ literal ['\n']

/-- The end of the preferred match at a place. -/
def end? (p : Pattern) (c : Cursor) : Option Cursor := (p c).head?

/-- Whether the pattern matches at a place. -/
def matchesAt (p : Pattern) (c : Cursor) : Bool := !(p c).isEmpty

/-- The match that starts first, from a place on. -/
def find? (p : Pattern) (c : Cursor) : Option (Cursor × Cursor) :=
  c.places.findSome? fun s => (p.end? s).map fun e => (s, e)

/-- Whether the pattern matches somewhere in a text. -/
def occursIn (p : Pattern) (t : Text) : Bool :=
  (Cursor.start t).places.any p.matchesAt

/-- The matches from a place on, each search starting where the last match ended. A match that does
not move on ends the list. -/
def findAll (p : Pattern) (c : Cursor) : List (Cursor × Cursor) :=
  match p.find? c with
  | none => []
  | some found =>
    if found.2.after.length < c.after.length then found :: findAll p found.2 else [found]
termination_by c.after.length

theorem mem_append {p q : Pattern} {c d : Cursor} :
    d ∈ (p ++ q) c ↔ ∃ m ∈ p c, d ∈ q m :=
  List.mem_flatMap

theorem mem_orElse {p q : Pattern} {c d : Cursor} :
    d ∈ (p <|> q) c ↔ d ∈ p c ∨ d ∈ q c :=
  List.mem_append

theorem mem_guard {holds : Cursor → Bool} {c d : Cursor} :
    d ∈ guard holds c ↔ holds c = true ∧ d = c := by
  by_cases h : holds c <;> simp [guard, h]

theorem mem_one {f : Char → Bool} {c d : Cursor} :
    d ∈ one f c ↔ ∃ x rest, c.after = x :: rest ∧ f x = true ∧ d = c.advance [x] rest := by
  obtain ⟨before, after⟩ := c
  cases after with
  | nil => simp [one]
  | cons x rest =>
    simp only [one, List.cons.injEq, and_assoc, exists_and_left, exists_eq_left']
    by_cases h : f x <;> simp [h, Cursor.advance]

/-- A literal matches where its characters follow, and nowhere else. -/
theorem mem_literal {t : Text} {c d : Cursor} :
    d ∈ literal t c ↔ ∃ rest, c.after = t ++ rest ∧ d = c.advance t rest := by
  induction t generalizing c with
  | nil => cases c; simp [literal, skip, Cursor.advance]
  | cons x t ih =>
    simp only [literal, mem_append, mem_one, ih]
    constructor
    · rintro ⟨m, ⟨y, rest, hc, hy, rfl⟩, rest', hm, rfl⟩
      obtain rfl : y = x := by simpa using hy
      exact ⟨rest', by simp_all [Cursor.advance], by simp [Cursor.advance]⟩
    · rintro ⟨rest, hc, rfl⟩
      exact ⟨c.advance [x] (t ++ rest), ⟨x, t ++ rest, by simpa using hc, by simp, rfl⟩,
        rest, rfl, by simp [Cursor.advance]⟩

theorem mem_runs {f : Char → Bool} {before after : Text} {d : Cursor} :
    d ∈ runs f before after ↔ ∃ part rest, after = part ++ rest ∧ (∀ x ∈ part, f x = true) ∧
      d = ⟨part.reverse ++ before, rest⟩ := by
  induction after generalizing before with
  | nil => simp [runs, and_assoc]
  | cons x after ih =>
    simp only [runs, List.mem_cons]
    constructor
    · rintro (rfl | h)
      · exact ⟨[], _, rfl, by simp, rfl⟩
      · by_cases hx : f x = true
        · rw [if_pos hx] at h
          obtain ⟨part, rest, rfl, hp, rfl⟩ := ih.1 h
          exact ⟨x :: part, rest, rfl, by simpa [hx] using hp, by simp⟩
        · simp [hx] at h
    · rintro ⟨part, rest, h, hp, rfl⟩
      cases part with
      | nil => left; simp_all
      | cons y part =>
        obtain ⟨rfl, rfl⟩ := List.cons.inj h
        have hx : f x = true := hp x (by simp)
        rw [if_pos hx]
        exact Or.inr (ih.2 ⟨part, rest, rfl, fun z hz => hp z (by simp [hz]), by simp⟩)

/-- A run matches up to any place that only characters of its class lie before. -/
theorem mem_few {f : Char → Bool} {c d : Cursor} :
    d ∈ few f c ↔ ∃ part rest, c.after = part ++ rest ∧ (∀ x ∈ part, f x = true) ∧
      d = c.advance part rest :=
  mem_runs

/-- Whether as many or as few as possible are wanted changes the preference only. -/
theorem mem_many {f : Char → Bool} {c d : Cursor} : d ∈ many f c ↔ d ∈ few f c :=
  List.mem_reverse

end Pattern

end SdkWiring
