import SdkWiring.Proofs.Delegate.Headers

/-!
# Headers as folded text

The header of a brace, told from the positions before it: what is code since the last live brace or
semicolon, with comments and literals folded to spaces. What counts as code is left open here, since
the header that is followed during a scan takes an apostrophe for a quote in either language.

* `Position.isCode`: the code of a language.
* `headerText`: the header behind some positions.
* `text_next`: the header that is followed is that text.
-/

namespace SdkWiring

variable {code : Position → Bool} {p : Position} {h : Header} {before : List Position}

namespace Position

/-- Whether the character is live and opens neither a comment nor a literal. -/
def isCode (quoting : Quoting) (p : Position) : Bool :=
  p.significant && (Context.enter quoting p.char p.after.head?).isCode

theorem isCode_enter (quoting : Quoting) (p : Position) :
    (Context.enter quoting p.char p.after.head?).isCode =
      (!p.opensComment && decide (p.char ∉ quoting.quotes)) := by
  unfold Context.enter opensComment
  split
  · rename_i hline
    simp [hline, Context.isCode]
  · rename_i hline
    split
    · rename_i hblock
      simp [hblock, Context.isCode]
    · rename_i hblock
      have hopen : (p.char == '/' && (p.after.head? == some '/' || p.after.head? == some '*')) =
          false := by
        simp only [not_and] at hline hblock
        by_cases hslash : p.char = '/' <;> simp_all
      rw [hopen]
      split <;> simp_all [Context.isCode]

/-- Besides comments and strings, an apostrophe is no plain character. -/
theorem isPlain_eq_isCode (p : Position) : p.isPlain = (p.isCode .swift && p.char != '\'') := by
  unfold isPlain isCode
  rw [isCode_enter, Bool.eq_iff_iff]
  simp [Quoting.quotes]
  tauto

/-- In Objective-C an apostrophe opens a literal anyway. -/
theorem isPlain_eq_isCode_c (p : Position) : p.isPlain = p.isCode .c := by
  unfold isPlain isCode
  rw [isCode_enter, Bool.eq_iff_iff]
  simp [Quoting.quotes]
  tauto

end Position

/-- The text of positions, nearest first, in which each run of what is no code is folded to a space.
Behind a space a run leaves nothing more. -/
def foldRuns (code : Position → Bool) : List Position → Text
  | [] => []
  | p :: before =>
    if code p then p.char :: foldRuns code before
    else if before.head?.any (fun q => !code q || q.char == ' ') then foldRuns code before
    else ' ' :: foldRuns code before

/-- The header behind positions, which are given with the nearest first. -/
def headerText (code : Position → Bool) (before : List Position) : Text :=
  (foldRuns code (before.takeWhile fun p => !p.endsHeader)).reverse

/-- A folded text ends with a space where a run was folded, or where a space stands. -/
theorem head?_foldRuns (code : Position → Bool) (before : List Position) :
    (foldRuns code before).head? = some ' ' ↔
      before.head?.any (fun q => !code q || q.char == ' ') = true := by
  induction before with
  | nil => simp [foldRuns]
  | cons p before ih =>
    by_cases hcode : code p = true
    · simp [foldRuns, hcode]
    · by_cases hrun : before.head?.any (fun q => !code q || q.char == ' ') = true
      · simp only [foldRuns, hcode, Bool.false_eq_true, if_false, if_pos hrun, ih.2 hrun]
        simp [hcode]
      · simp [foldRuns, hcode, hrun]

theorem headerText_of_endsHeader (hp : p.endsHeader = true) :
    headerText code (p :: before) = [] := by
  rw [headerText, List.takeWhile_cons_of_neg (by simp [hp])]
  rfl

theorem headerText_of_not_endsHeader (hp : p.endsHeader = false) :
    headerText code (p :: before) = headerText code before ++
      if code p then [p.char]
      else if (headerText code before).getLast? = some ' ' then [] else [' '] := by
  rw [headerText, headerText, List.takeWhile_cons_of_pos (by simp [hp]), foldRuns,
    List.getLast?_reverse]
  simp only [head?_foldRuns]
  split
  · simp
  · split <;> simp

/-- **The header that is followed** during a scan is the folded text behind the last brace or
semicolon, if what is code is plain. -/
theorem text_next (hcode : code p = p.isPlain) (hh : h.text = headerText code before) :
    (h.next p).text = headerText code (p :: before) := by
  cases hp : p.endsHeader with
  | true =>
    rw [Header.next_of_endsHeader hp, headerText_of_endsHeader hp]
    rfl
  | false =>
    rw [Header.next_of_not_endsHeader hp, Header.text_record, headerText_of_not_endsHeader hp, hh,
      hcode]

end SdkWiring
