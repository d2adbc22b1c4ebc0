import SdkWiring.Proofs.Delegate.ParameterList
import SdkWiring.Proofs.Scan.Grammar
import Mathlib.Data.List.DropRight
import Mathlib.Data.List.SplitBy

/-!
# Headers and lexemes

While a delegate is scanned its header is collected. What opens a comment or a literal is found there a
second time, from the raw text, and not taken from the scan. Both agree at every character: the header
takes up just the characters of code as they are, but for an apostrophe, which opens nothing in Swift.

* `map_isCode_of_lexed`: what is code, told from the lexemes of a text.
* `Header.isPlain_iff`: what a header takes up as it is.
* `foldedHeader`: the text since the last live brace or semicolon, folded run by run.
* `headerText_eq_foldedHeader`: the header is that text.
* `header_agrees_lexemes`: **the header and the lexemes agree** on what is code.
-/

namespace SdkWiring

variable {quoting : Quoting} {context : Context} {level : Nat} {before t u rest : Text} {c : Char}
  {isPart : Position → Bool} {p q : Position} {ps qs run : List Position} {xs : List Lexeme}

/-! ### What is code -/

/-- Whether a lexeme is a character of code, no comment and no literal. -/
def Lexeme.isCode : Lexeme → Bool
  | code _ => true
  | _ => false

/-- Which characters of a lexeme are code: all, or none. -/
def Lexeme.codeMarks (x : Lexeme) : List Bool := List.replicate x.text.length x.isCode

/-- Which of the characters that are marked as live start neither a comment nor a literal, as far as two
characters tell. -/
def plainMarks (quoting : Quoting) : List Bool → Text → List Bool
  | live :: marks, c :: t =>
    (live && (Context.enter quoting c t.head?).isCode) :: plainMarks quoting marks t
  | _, _ => []

theorem plainMarks_cons (live : Bool) (marks : List Bool) (c : Char) (t : Text) :
    plainMarks quoting (live :: marks) (c :: t) =
      (live && (Context.enter quoting c t.head?).isCode) :: plainMarks quoting marks t := rfl

theorem map_isCode_positionsFrom :
    (positionsFrom quoting context level before t).map (Position.isCode quoting) =
      plainMarks quoting ((positionsFrom quoting context level before t).map Position.significant)
        t := by
  induction t generalizing context level before with
  | nil => rfl
  | cons c t ih =>
    rw [positionsFrom, List.map_cons, List.map_cons, plainMarks_cons, ih]
    rfl

/-- What is not live is no code. -/
theorem plainMarks_dead (u : Text) (marks : List Bool) (t : Text) :
    plainMarks quoting (List.replicate u.length false ++ marks) (u ++ t) =
      List.replicate u.length false ++ plainMarks quoting marks t := by
  induction u with
  | nil => rfl
  | cons c u ih => simp [List.replicate_succ, plainMarks_cons, ih]

/-- A lexeme is code or opens a comment or a literal. -/
theorem Lexeme.Fits.codeMarks {x : Lexeme} (h : x.Fits quoting rest) (marks : List Bool) :
    plainMarks quoting (x.marks ++ marks) (x.text ++ rest) =
      x.codeMarks ++ plainMarks quoting marks rest := by
  obtain ⟨c, body, htext⟩ := List.exists_cons_of_ne_nil x.text_ne_nil
  have henter := h.enter (c := c) (t := body ++ rest) (by rw [htext]; rfl)
  have hmarks : x.codeMarks = x.opening.isCode :: List.replicate body.length false := by
    have hlen : x.text.length = body.length + 1 := by rw [htext, List.length_cons]
    cases x with
    | code d =>
      obtain ⟨rfl, rfl⟩ := List.cons.inj htext
      rfl
    | lineComment | blockComment | literal => rw [Lexeme.codeMarks, hlen, List.replicate_succ]; rfl
  rw [Lexeme.marks, hmarks, htext, List.length_cons, Nat.add_sub_cancel, List.cons_append,
    List.cons_append, plainMarks_cons, henter, plainMarks_dead, Bool.true_and, List.cons_append]

theorem plainMarks_of_lexed (h : Lexed quoting t xs) :
    plainMarks quoting (xs.flatMap Lexeme.marks) t = xs.flatMap Lexeme.codeMarks := by
  induction h with
  | nil => rfl
  | cons hx _ ih => rw [List.flatMap_cons, List.flatMap_cons, hx.codeMarks, ih]

/-- **What is code in a text** is what its lexemes say. -/
theorem map_isCode_of_lexed (h : Lexed quoting t xs) :
    (positions quoting t).map (Position.isCode quoting) = xs.flatMap Lexeme.codeMarks := by
  obtain ⟨part, rest, ys, ht, hpart, hys, hlive⟩ := exists_lexed quoting .code 0 [] t
  obtain rfl : part = [] := hpart
  obtain rfl : t = rest := ht
  obtain rfl := h.unique hys
  rw [positions, map_isCode_positionsFrom, hlive, ← plainMarks_of_lexed h]
  rfl

/-- In either language an apostrophe is no plain character, and in Objective-C it is no code. -/
theorem Position.isPlain_eq (quoting : Quoting) (p : Position) :
    p.isPlain = (p.isCode quoting && p.char != '\'') := by
  cases quoting with
  | swift => exact p.isPlain_eq_isCode
  | c =>
    have hquote : p.isCode .c = true → p.char ≠ '\'' := by
      intro hcode hchar
      rw [Position.isCode, Position.isCode_enter, hchar] at hcode
      simp [Quoting.quotes] at hcode
    rw [p.isPlain_eq_isCode_c, Bool.eq_iff_iff, Bool.and_eq_true, bne_iff_ne]
    exact ⟨fun h => ⟨h, hquote h⟩, And.left⟩

/-- **A header takes up just the plain characters as they are**, whatever it holds already. Of another
character it takes up a space at most, and behind a space nothing. -/
theorem Header.isPlain_iff :
    p.isPlain = true ↔ ∀ h : Header, (h.record p).text = h.text ++ [p.char] := by
  constructor
  · intro hp h
    rw [text_record, if_pos hp]
  · intro h
    by_contra hp
    have hspace := congrArg List.length (h ⟨[' ']⟩)
    rw [text_record, if_neg hp] at hspace
    simp [text] at hspace

/-! ### Runs -/

/-- A folded text with one more run: code as it is, anything else as a space, which is dropped behind
another space. -/
def foldRun (isPart : Position → Bool) (folded : Text) (run : List Position) : Text :=
  if run.all isPart then folded ++ run.map Position.char
  else if folded.getLast? = some ' ' then folded
  else folded ++ [' ']

/-- The text since the last live brace or semicolon, folded run by run: it is cut into runs as long as
possible of what is a part of it, and of what is not. -/
def foldedHeader (isPart : Position → Bool) (ps : List Position) : Text :=
  ((ps.rtakeWhile fun p => !p.endsHeader).splitBy fun p q => isPart p == isPart q).foldl
    (foldRun isPart) []

/-- A folded text with one more character. -/
def foldChar (isPart : Position → Bool) (folded : Text) (p : Position) : Text :=
  folded ++ if isPart p then [p.char] else if folded.getLast? = some ' ' then [] else [' ']

theorem foldl_foldChar_part (h : ∀ p ∈ run, isPart p = true) (folded : Text) :
    run.foldl (foldChar isPart) folded = folded ++ run.map Position.char := by
  induction run generalizing folded with
  | nil => simp
  | cons p run ih =>
    have hp : foldChar isPart folded p = folded ++ [p.char] := by
      rw [foldChar, if_pos (h p (by simp))]
    rw [List.foldl_cons, hp, ih fun q hq => h q (by simp [hq])]
    simp

/-- Behind a space a run of other characters leaves nothing. -/
theorem foldl_foldChar_other {folded : Text} (h : ∀ p ∈ run, isPart p = false)
    (hspace : folded.getLast? = some ' ') : run.foldl (foldChar isPart) folded = folded := by
  induction run with
  | nil => rfl
  | cons p run ih =>
    have hp : foldChar isPart folded p = folded := by
      rw [foldChar, h p (by simp), if_neg (by decide), if_pos hspace, List.append_nil]
    rw [List.foldl_cons, hp, ih fun q hq => h q (by simp [hq])]

/-- **A run is folded at once** as it is character by character. -/
theorem foldl_foldChar_run (hne : run ≠ [])
    (hrun : run.IsChain fun p q => (isPart p == isPart q) = true) (folded : Text) :
    run.foldl (foldChar isPart) folded = foldRun isPart folded run := by
  obtain ⟨p, run, rfl⟩ := List.exists_cons_of_ne_nil hne
  have htrans : IsTrans Position fun p q => (isPart p == isPart q) = true :=
    ⟨fun a b c hab hbc => by
      rw [beq_iff_eq] at *
      exact hab.trans hbc⟩
  have hsame : ∀ q ∈ p :: run, isPart q = isPart p := by
    intro q hq
    rcases List.mem_cons.1 hq with rfl | hq
    · rfl
    · exact (beq_iff_eq.1 (hrun.rel_cons hq)).symm
  cases hp : isPart p with
  | true =>
    have hall : ∀ q ∈ p :: run, isPart q = true := fun q hq => (hsame q hq).trans hp
    rw [foldl_foldChar_part hall, foldRun, if_pos (List.all_eq_true.2 hall)]
  | false =>
    have hnone : ∀ q ∈ p :: run, isPart q = false := fun q hq => (hsame q hq).trans hp
    have hall : ¬ (p :: run).all isPart = true := by simp [hp]
    rw [foldRun, if_neg hall]
    split
    · rename_i hspace
      exact foldl_foldChar_other hnone hspace
    · rename_i hspace
      have hfirst : foldChar isPart folded p = folded ++ [' '] := by
        rw [foldChar, hp, if_neg (by decide), if_neg hspace]
      rw [List.foldl_cons, hfirst, foldl_foldChar_other (fun q hq => hnone q (by simp [hq]))]
      simp

/-- The text since the last live brace or semicolon, folded character by character. -/
theorem foldedHeader_eq_foldl (isPart : Position → Bool) (ps : List Position) :
    foldedHeader isPart ps =
      (ps.rtakeWhile fun p => !p.endsHeader).foldl (foldChar isPart) [] := by
  unfold foldedHeader
  set since := ps.rtakeWhile fun p => !p.endsHeader
  conv_rhs => rw [← List.flatten_splitBy (fun p q => isPart p == isPart q) since, List.foldl_flatten]
  refine (List.foldl_ext _ _ _ fun folded run hrun => ?_).symm
  exact foldl_foldChar_run (List.ne_nil_of_mem_splitBy hrun) (List.isChain_of_mem_splitBy hrun) folded

/-- **The header behind some positions** is their folded text since the last live brace or
semicolon. -/
theorem headerText_eq_foldedHeader (isPart : Position → Bool) (ps : List Position) :
    headerText isPart ps.reverse = foldedHeader isPart ps := by
  rw [foldedHeader_eq_foldl]
  induction ps using List.reverseRecOn with
  | nil => rfl
  | append_singleton ps p ih =>
    rw [List.reverse_concat]
    cases hp : p.endsHeader with
    | true =>
      rw [headerText_of_endsHeader hp, List.rtakeWhile_concat_neg _ _ _ (by simp [hp])]
      rfl
    | false =>
      rw [headerText_of_not_endsHeader hp, ih, List.rtakeWhile_concat_pos _ _ _ (by simp [hp]),
        List.foldl_concat]
      rfl

/-- **The header and the lexemes of a text agree on what is code.** At every character but an
apostrophe of Swift, the header takes up the character as it is just if it is code, no matter what the
header holds. So at each position the header of a delegate is the text since the last live brace or
semicolon in which every run of anything but code, apostrophes included, is folded to one space, and to
nothing behind a space. -/
theorem header_agrees_lexemes (quoting : Quoting) (t : Text) : ∃ xs, Lexed quoting t xs ∧
    (positions quoting t).map (Position.isCode quoting) = xs.flatMap Lexeme.codeMarks ∧
    (∀ p ∈ positions quoting t, quoting = .c ∨ p.char ≠ '\'' →
      ((∀ h : Header, (h.record p).text = h.text ++ [p.char]) ↔ p.isCode quoting = true)) ∧
    ∀ r : Recipe, r.language.quoting = quoting → ∀ ps qs, positions quoting t = ps ++ qs →
      (observeAll r.rules {} ps).header.text =
        foldedHeader (fun p => p.isCode quoting && p.char != '\'') ps := by
  obtain ⟨part, rest, xs, ht, hpart, hxs, -⟩ := exists_lexed quoting .code 0 [] t
  obtain rfl : part = [] := hpart
  obtain rfl : t = rest := ht
  refine ⟨xs, hxs, map_isCode_of_lexed hxs, fun p _ hp => ?_, fun r _ ps _ _ => ?_⟩
  · rw [← Header.isPlain_iff, p.isPlain_eq quoting, Bool.and_eq_true, bne_iff_ne]
    refine ⟨And.left, fun hcode => ⟨hcode, ?_⟩⟩
    rcases hp with rfl | hp
    · have hplain := p.isPlain_eq .c
      rw [p.isPlain_eq_isCode_c, hcode] at hplain
      simpa using hplain.symm
    · exact hp
  · have hplain : Position.isPlain = fun p => p.isCode quoting && p.char != '\'' :=
      funext (Position.isPlain_eq quoting)
    rw [Recipe.observeAll_rules, r.header_run, headerText_eq_foldedHeader, hplain]

/-- A comment and a literal side by side are one run, and nothing is left of it behind a space. -/
example : foldedHeader (Position.isCode .swift) (positions .swift ";class /*a;*/\"b\" App//".toList) =
    "class  App ".toList := by
  decide

end SdkWiring
