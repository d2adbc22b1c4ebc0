import SdkWiring.Scan.Position
import Mathlib.Data.List.Infix

/-!
# The lexical grammar

A text is a sequence of lexemes: characters of code, comments and literals. Comments and literals
run up to and including what closes them, or to the end of the text. A character of code starts
neither. The scan has no notion of lexemes, only a context that it carries along, yet what it
reports as live are the characters of code and the first characters of comments and literals.

* `Lexeme.Fits`: what a lexeme is, given the text behind it.
* `Lexed`: a text that is cut into lexemes.
* `exists_lexed`: the scan from any context on, as a part that is still to be read of a comment or
  literal, and lexemes.
* `Lexed.unique`: a text is cut in one way only.
* `significant_eq_marks`: every text is cut into lexemes, and these tell what is live in it.
-/

namespace SdkWiring

/-- A part of a text that runs up to and including the first place at which it is closed, or to the
end if there is none. What stands behind it is `rest`. -/
structure UpTo (closed : Text → Prop) (part rest : Text) : Prop where
  first : ∀ u, u <+: part → closed u → u = part
  ends : closed part ∨ rest = []

/-- A text in which every backslash has the one character that it escapes behind it, so that what
follows the text is not escaped. -/
inductive Unescaping : Text → Prop
  | nil : Unescaping []
  | plain {c : Char} {t : Text} (hc : c ≠ '\\') (ht : Unescaping t) : Unescaping (c :: t)
  | escape (c : Char) {t : Text} (ht : Unescaping t) : Unescaping ('\\' :: c :: t)

/-- The inside of a literal, up to and including a quote that is not escaped. -/
def ClosesLiteral (quote : Char) (t : Text) : Prop := ∃ u, Unescaping u ∧ t = u ++ [quote]

/-- A piece of a text that belongs together. Comments and literals are given by what stands behind
their opening. -/
inductive Lexeme
  | code (c : Char)
  | lineComment (body : Text)
  | blockComment (body : Text)
  | literal (quote : Char) (body : Text)
  deriving DecidableEq, Repr

namespace Lexeme

/-- The characters of a lexeme. -/
def text : Lexeme → Text
  | code c => [c]
  | lineComment body => '/' :: '/' :: body
  | blockComment body => '/' :: '*' :: body
  | literal quote body => quote :: body

/-- What a lexeme is, given the text behind it. -/
def Fits (quoting : Quoting) (rest : Text) : Lexeme → Prop
  | code c => ¬ (c = '/' ∧ (rest.head? = some '/' ∨ rest.head? = some '*')) ∧ c ∉ quoting.quotes
  | lineComment body => UpTo (['\n'] <:+ ·) body rest
  | blockComment body => UpTo (['*', '/'] <:+ ·) body rest
  | literal quote body => quote ∈ quoting.quotes ∧ UpTo (ClosesLiteral quote) body rest

/-- Which characters of a lexeme are live: the first one. -/
def marks (x : Lexeme) : List Bool := true :: List.replicate (x.text.length - 1) false

/-- The context behind the first character of a lexeme. -/
def opening : Lexeme → Context
  | code _ => .code
  | lineComment _ => .lineComment
  | blockComment _ => .blockOpening
  | literal quote _ => .literal quote false

end Lexeme

/-- A text that is cut into lexemes. -/
inductive Lexed (quoting : Quoting) : Text → List Lexeme → Prop
  | nil : Lexed quoting [] []
  | cons {x : Lexeme} {xs : List Lexeme} {rest : Text} (hx : x.Fits quoting rest)
      (hxs : Lexed quoting rest xs) : Lexed quoting (x.text ++ rest) (x :: xs)

variable {quoting : Quoting} {closed closed' : Text → Prop} {part rest part' rest' t u : Text}
  {c quote : Char} {next : Option Char} {context : Context} {x y : Lexeme} {xs ys : List Lexeme}

/-! ### Parts that run up to where they are closed -/

theorem upTo_nil : UpTo closed [] rest ↔ closed [] ∨ rest = [] :=
  ⟨UpTo.ends, fun h => ⟨fun _ hu _ => List.prefix_nil.1 hu, h⟩⟩

theorem upTo_cons : UpTo closed (c :: part) rest ↔
    ¬ closed [] ∧ UpTo (fun u => closed (c :: u)) part rest := by
  constructor
  · rintro ⟨hfirst, hends⟩
    refine ⟨fun h => ?_, fun u hu h => ?_, hends⟩
    · exact List.cons_ne_nil c part (hfirst [] List.nil_prefix h).symm
    · exact (List.cons.inj (hfirst (c :: u) (List.cons_prefix_cons.2 ⟨rfl, hu⟩) h)).2
  · rintro ⟨hnil, hfirst, hends⟩
    refine ⟨fun u hu h => ?_, hends⟩
    cases u with
    | nil => exact absurd h hnil
    | cons d u =>
      obtain ⟨rfl, hpre⟩ := List.cons_prefix_cons.1 hu
      rw [hfirst u hpre h]

theorem upTo_congr (h : ∀ u, closed u ↔ closed' u) :
    UpTo closed part rest ↔ UpTo closed' part rest := by
  rw [show closed = closed' from funext fun u => propext (h u)]

/-- A text has one such part. -/
theorem UpTo.unique (h : UpTo closed part rest) (h' : UpTo closed part' rest')
    (ht : part ++ rest = part' ++ rest') : part = part' := by
  -- the shorter part is closed, or nothing stands behind it
  have key : ∀ {part rest part' rest' : Text}, UpTo closed part rest → UpTo closed part' rest' →
      part ++ rest = part' ++ rest' → part <+: part' → part = part' := by
    intro part rest part' rest' h h' ht hpre
    rcases h.ends with hclosed | rfl
    · exact h'.first part hpre hclosed
    · obtain ⟨u, rfl⟩ := hpre
      simp only [List.append_assoc, List.append_cancel_left_eq, List.nil_eq,
        List.append_eq_nil_iff] at ht
      simp [ht.1]
  have hpre : part <+: part' ++ rest' := ht ▸ List.prefix_append _ _
  rcases List.prefix_or_prefix_of_prefix hpre (List.prefix_append part' rest') with hp | hp
  · exact key h h' ht hp
  · exact (key h' h ht.symm hp).symm

/-! ### What closes comments and literals -/

theorem closesComment_cons :
    ['*', '/'] <:+ c :: t ↔ (c = '*' ∧ t = ['/']) ∨ ['*', '/'] <:+ t := by
  rw [List.suffix_cons_iff]
  simp [eq_comm]

theorem not_closesLiteral_nil : ¬ ClosesLiteral quote [] := by
  rintro ⟨u, -, h⟩
  simp at h

theorem closesLiteral_cons (hc : c ≠ '\\') :
    ClosesLiteral quote (c :: t) ↔ (c = quote ∧ t = []) ∨ ClosesLiteral quote t := by
  constructor
  · rintro ⟨u, hu, h⟩
    cases hu with
    | nil =>
      obtain ⟨rfl, rfl⟩ := List.cons.inj h
      exact .inl ⟨rfl, rfl⟩
    | plain hd hu => exact .inr ⟨_, hu, (List.cons.inj h).2⟩
    | escape d hu => exact absurd (List.cons.inj h).1 hc
  · rintro (⟨rfl, rfl⟩ | ⟨u, hu, rfl⟩)
    · exact ⟨[], .nil, rfl⟩
    · exact ⟨c :: u, .plain hc hu, rfl⟩

/-- A backslash takes the next character with it. -/
theorem closesLiteral_escape (hq : quote ≠ '\\') :
    ClosesLiteral quote ('\\' :: t) ↔ ClosesLiteral quote t.tail := by
  constructor
  · rintro ⟨u, hu, h⟩
    cases hu with
    | nil => exact absurd (List.cons.inj h).1.symm hq
    | plain hd hu => exact absurd (List.cons.inj h).1.symm hd
    | escape d hu =>
      obtain ⟨-, rfl⟩ := List.cons.inj h
      exact ⟨_, hu, rfl⟩
  · rintro ⟨u, hu, h⟩
    cases t with
    | nil => simp at h
    | cons d t => exact ⟨'\\' :: d :: u, .escape d hu, by simpa using h⟩

/-! ### The scan -/

/-- What is still to be read in a context: the rest of a comment or literal. -/
def Context.Remains (part rest : Text) : Context → Prop
  | code => part = []
  | lineComment => UpTo (['\n'] <:+ ·) part rest
  | blockOpening => UpTo (fun u => ['*', '/'] <:+ u.tail) part rest
  | blockComment afterStar =>
    UpTo (fun u => ['*', '/'] <:+ if afterStar then '*' :: u else u) part rest
  | literal quote false => quote ≠ '\\' → UpTo (ClosesLiteral quote) part rest
  | literal quote true => quote ≠ '\\' → UpTo (fun u => ClosesLiteral quote u.tail) part rest

theorem remains_nil (context : Context) : context.Remains [] [] := by
  unfold Context.Remains
  split <;> simp [upTo_nil]

/-- A character inside a comment or literal belongs to what is still to be read of it. -/
theorem remains_cons (hcode : context.isCode = false)
    (h : (context.advance quoting c next).Remains part rest) : context.Remains (c :: part) rest := by
  cases context with
  | code => cases hcode
  | lineComment =>
    simp only [Context.advance] at h
    refine upTo_cons.2 ⟨by simp, ?_⟩
    split at h
    · rename_i hc
      obtain rfl : part = [] := h
      exact upTo_nil.2 (.inl (by simp [hc]))
    · rename_i hc
      exact (upTo_congr fun u => by simp [List.suffix_cons_iff, Ne.symm hc]).2 h
  | blockOpening => exact upTo_cons.2 ⟨by simp, h⟩
  | blockComment afterStar =>
    simp only [Context.advance] at h
    refine upTo_cons.2 ⟨by cases afterStar <;> decide, ?_⟩
    split at h
    · rename_i hc
      obtain ⟨rfl, rfl⟩ := hc
      obtain rfl : part = [] := h
      exact upTo_nil.2 (.inl (by simp))
    · rename_i hc
      -- the star of a closing `*/` is the one just read, or it is still to come
      refine (upTo_congr fun u => ?_).2 h
      have hslash : afterStar = true → c ≠ '/' := fun hstar hs => hc ⟨hstar, hs⟩
      cases afterStar with
      | false => by_cases hstar : c = '*' <;> simp [closesComment_cons, hstar]
      | true => by_cases hstar : c = '*' <;> simp [closesComment_cons, hstar, hslash rfl]
  | literal quote escaped =>
    cases escaped with
    | true => exact fun hq => upTo_cons.2 ⟨not_closesLiteral_nil, h hq⟩
    | false =>
      intro hq
      simp only [Context.advance] at h
      refine upTo_cons.2 ⟨not_closesLiteral_nil, ?_⟩
      split at h
      · rename_i hc
        subst hc
        exact (upTo_congr fun u => closesLiteral_escape hq).2 (h hq)
      · rename_i hc
        split at h
        · rename_i hquote
          obtain rfl : part = [] := h
          exact upTo_nil.2 (.inl ((closesLiteral_cons hc).2 (.inl ⟨hquote, rfl⟩)))
        · rename_i hquote
          exact (upTo_congr fun u => by simp [closesLiteral_cons hc, hquote]).2 (h hq)

/-- A live character, together with what is still to be read behind it, is a lexeme. -/
theorem exists_fits (h : (Context.enter quoting c (part ++ rest).head?).Remains part rest) :
    ∃ x : Lexeme, x.Fits quoting rest ∧ x.text = c :: part := by
  -- a comment or literal that is not closed at once goes on with the character that was seen ahead
  have hempty : ∀ {d : Char} {closed : Text → Prop}, ¬ closed [] → UpTo closed part rest →
      (part ++ rest).head? = some d → ∃ body, part = d :: body := by
    intro d closed hnil h hd
    cases part with
    | nil =>
      rcases upTo_nil.1 h with h | rfl
      · exact absurd h hnil
      · cases hd
    | cons e body => exact ⟨body, by simpa using hd⟩
  unfold Context.enter at h
  split at h
  · rename_i hc
    obtain ⟨body, rfl⟩ := hempty (by simp) h hc.2
    refine ⟨.lineComment body, ?_, by rw [hc.1]; rfl⟩
    exact (upTo_congr fun u => by simp [List.suffix_cons_iff]).1 (upTo_cons.1 h).2
  · rename_i hline
    split at h
    · rename_i hc
      obtain ⟨body, rfl⟩ := hempty (by simp) h hc.2
      exact ⟨.blockComment body, (upTo_cons.1 h).2, by rw [hc.1]; rfl⟩
    · rename_i hblock
      split at h
      · rename_i hc
        refine ⟨.literal c part, ⟨hc, h ?_⟩, rfl⟩
        rintro rfl
        cases quoting <;> simp [Quoting.quotes] at hc
      · rename_i hc
        obtain rfl : part = [] := h
        refine ⟨.code c, ⟨?_, hc⟩, rfl⟩
        rintro ⟨rfl, hd | hd⟩
        · exact hline ⟨rfl, hd⟩
        · exact hblock ⟨rfl, hd⟩

/-- **The scan from any context on.** The rest of a comment or literal comes first, of which nothing
is live, then lexemes, of which the first characters are. -/
theorem exists_lexed (quoting : Quoting) (context : Context) (level : Nat) (before t : Text) :
    ∃ part rest xs, t = part ++ rest ∧ context.Remains part rest ∧ Lexed quoting rest xs ∧
      (positionsFrom quoting context level before t).map Position.significant =
        List.replicate part.length false ++ xs.flatMap Lexeme.marks := by
  -- a character of a comment or literal joins the rest of it, and one of live code starts a lexeme
  induction t generalizing context level before with
  | nil => exact ⟨[], [], [], rfl, remains_nil context, .nil, rfl⟩
  | cons c t ih =>
    obtain ⟨part, rest, xs, ht, hpart, hxs, hmarks⟩ :=
      ih (context.advance quoting c t.head?)
        (levelAfter context.isCode c (levelAt context.isCode c level)) (c :: before)
    have hscan : (positionsFrom quoting context level before (c :: t)).map Position.significant =
        context.isCode :: (List.replicate part.length false ++ xs.flatMap Lexeme.marks) := by
      rw [← hmarks]
      rfl
    cases hcode : context.isCode with
    | false =>
      refine ⟨c :: part, rest, xs, by rw [ht]; rfl, remains_cons hcode hpart, hxs, ?_⟩
      rw [hscan, hcode]
      rfl
    | true =>
      obtain rfl : context = .code := by
        cases context with
        | code => rfl
        | _ => cases hcode
      rw [ht] at hpart
      obtain ⟨x, hfits, htext⟩ := exists_fits hpart
      refine ⟨[], c :: t, x :: xs, rfl, rfl, ?_, ?_⟩
      · rw [ht, ← List.cons_append, ← htext]
        exact .cons hfits hxs
      · rw [hscan, hcode, List.flatMap_cons, Lexeme.marks, htext]
        rfl

/-! ### One way to cut a text -/

theorem Lexeme.text_ne_nil (x : Lexeme) : x.text ≠ [] := by
  cases x <;> simp [Lexeme.text]

/-- The first two characters tell what kind of lexeme stands there. -/
theorem Lexeme.Fits.enter (h : x.Fits quoting rest) (ht : x.text ++ rest = c :: t) :
    Context.enter quoting c t.head? = x.opening := by
  have hslash : '/' ∉ quoting.quotes := by cases quoting <;> decide
  cases x with
  | code d =>
    obtain ⟨rfl, rfl⟩ := List.cons.inj ht
    obtain ⟨hopen, hquote⟩ := h
    simp only [not_and, not_or] at hopen
    unfold Context.enter
    rw [if_neg fun hc => (hopen hc.1).1 hc.2, if_neg fun hc => (hopen hc.1).2 hc.2, if_neg hquote]
    rfl
  | lineComment body =>
    obtain ⟨rfl, rfl⟩ := List.cons.inj ht
    rfl
  | blockComment body =>
    obtain ⟨rfl, rfl⟩ := List.cons.inj ht
    rfl
  | literal quote body =>
    obtain ⟨rfl, rfl⟩ := List.cons.inj ht
    have hne : quote ≠ '/' := fun hc => hslash (hc ▸ h.1)
    unfold Context.enter
    rw [if_neg fun hc => hne hc.1, if_neg fun hc => hne hc.1, if_pos h.1]
    rfl

/-- A text starts with one lexeme. -/
theorem Lexeme.Fits.unique (h : x.Fits quoting rest) (h' : y.Fits quoting rest')
    (ht : x.text ++ rest = y.text ++ rest') : x = y := by
  obtain ⟨c, t, hct⟩ : ∃ c t, x.text ++ rest = c :: t :=
    List.exists_cons_of_ne_nil (by simp [x.text_ne_nil])
  have hopen : x.opening = y.opening := (h.enter hct).symm.trans (h'.enter (ht ▸ hct))
  cases x <;> cases y <;> cases hopen
  case code.code => exact congrArg _ (List.cons.inj ht).1
  case lineComment.lineComment => exact congrArg _ (UpTo.unique h h' (by simpa [text] using ht))
  case blockComment.blockComment => exact congrArg _ (UpTo.unique h h' (by simpa [text] using ht))
  case literal.literal => exact congrArg _ (UpTo.unique h.2 h'.2 (by simpa [text] using ht))

/-- A text is cut into lexemes in at most one way. -/
theorem Lexed.unique (h : Lexed quoting t xs) (h' : Lexed quoting t ys) : xs = ys := by
  induction h generalizing ys with
  | nil =>
    generalize ht : ([] : Text) = t at h'
    cases h' with
    | nil => rfl
    | cons hy hys => simp [Lexeme.text_ne_nil] at ht
  | @cons x xs rest hx hxs ih =>
    generalize ht : x.text ++ rest = t at h'
    cases h' with
    | nil => simp [Lexeme.text_ne_nil] at ht
    | cons hy hys =>
      obtain rfl := hx.unique hy ht
      obtain rfl := List.append_cancel_left ht
      rw [ih hys]

/-- **What is live in a text.** Every text is cut into lexemes in exactly one way, and the scan
reports as live exactly the characters of code and the first character of each comment and
literal. -/
theorem significant_eq_marks (quoting : Quoting) (t : Text) :
    ∃ xs, Lexed quoting t xs ∧ (∀ ys, Lexed quoting t ys → ys = xs) ∧
      (positions quoting t).map Position.significant = xs.flatMap Lexeme.marks := by
  obtain ⟨part, rest, xs, ht, hpart, hxs, hmarks⟩ := exists_lexed quoting .code 0 [] t
  obtain rfl : part = [] := hpart
  obtain rfl : t = rest := ht
  exact ⟨xs, hxs, fun ys hys => hys.unique hxs, hmarks⟩

end SdkWiring
