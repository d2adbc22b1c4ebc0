import SdkWiring.Text.Basic

/-!
# Lexical contexts

What a character of C-like source text belongs to: live code, a comment or a literal. The context
before a character, the character and the one after it give the context before the next.

* `Context.advance`: the step from one character to the next.
* `Context.isCode`: whether a character read in this context is live. The first character of a
  comment or literal is, everything after it up to and including the terminator is not.
-/

namespace SdkWiring

/-- Which characters open a literal. -/
inductive Quoting
  /-- Strings and character literals, as in C and Objective-C. -/
  | c
  /-- Strings only: in Swift an apostrophe opens nothing. -/
  | swift
  deriving DecidableEq, Repr

/-- The characters that open a literal. -/
def Quoting.quotes : Quoting → List Char
  | c => ['"', '\'']
  | swift => ['"']

/-- The lexical context before a character. -/
inductive Context
  | code
  | lineComment
  /-- Before the star that opens a block comment, which does not close it. -/
  | blockOpening
  /-- Inside a block comment, `afterStar` behind a star that may close it. -/
  | blockComment (afterStar : Bool)
  /-- Inside a literal, `escaped` behind a backslash that escapes the next character. -/
  | literal (quote : Char) (escaped : Bool)
  deriving DecidableEq, Repr

namespace Context

/-- Whether a character read in this context is live code. -/
def isCode : Context → Bool
  | code => true
  | _ => false

/-- The context behind a live character. -/
def enter (quoting : Quoting) (current : Char) (next : Option Char) : Context :=
  if current = '/' ∧ next = some '/' then lineComment
  else if current = '/' ∧ next = some '*' then blockOpening
  else if current ∈ quoting.quotes then literal current false
  else code

/-- The context behind a character. -/
def advance (quoting : Quoting) (context : Context) (current : Char) (next : Option Char) :
    Context :=
  match context with
  | code => enter quoting current next
  | lineComment => if current = '\n' then code else lineComment
  | blockOpening => blockComment false
  | blockComment afterStar =>
    if afterStar = true ∧ current = '/' then code else blockComment (current == '*')
  | literal quote true => literal quote false
  | literal quote false =>
    if current = '\\' then literal quote true
    else if current = quote then code
    else literal quote false

end Context

end SdkWiring
