import SdkWiring.Text.CharClass
import SdkWiring.Toml.Scalar

/-!
# TOML strings

A string stands in single or double quotes, on one line or, between three quotes, on several.
Backslashes escape in double quotes only.

* `quoted?`: a string of any kind at the start of a text, and what follows it.
* `shortString?`: a string on one line, as keys have to be.
-/

namespace SdkWiring.Toml

/-- Whether a character may stand in a string or comment as it is: all but control characters other
than the tab. -/
def isPrintable (c : Char) : Bool := c == '\t' || (0x20 ≤ c.toNat && c.toNat != 0x7F)

/-- What the reading of a string in double quotes is in the middle of. -/
inductive Escape
  /-- Of nothing; blanks and line breaks are dropped if `folding`. -/
  | none (folding : Bool)
  /-- Of an escape, behind its backslash. -/
  | backslash
  /-- Of the blanks between a backslash and the line break that it takes away. -/
  | lineBreak
  /-- Of a character number, with digits left to read. -/
  | number (left : Nat) (value : Nat)
  deriving DecidableEq, Repr

/-- The character that a backslash and a letter stand for. -/
def escaped? : Char → Option Char
  | 'b' => some '\x08'
  | 't' => some '\t'
  | 'n' => some '\n'
  | 'f' => some '\x0C'
  | 'r' => some '\r'
  | 'e' => some '\x1B'
  | '"' => some '"'
  | '\\' => some '\\'
  | _ => none

/-- The number of digits of a character number behind a letter. -/
def numberWidth? : Char → Option Nat
  | 'x' => some 2
  | 'u' => some 4
  | 'U' => some 8
  | _ => none

/-- The character with a number, unless there is none. -/
def character? (n : Nat) : Option Char :=
  if n.isValidChar then some (Char.ofNat n) else none

/-- Whether a line break starts with a character and what follows it. -/
def startsBreak (c : Char) (rest : Text) : Bool :=
  c == '\n' || (c == '\r' && rest.head? == some '\n')

/-- A string in double quotes behind the opening ones, and what follows the closing ones. -/
def basic? (long : Bool) (state : Escape) : Text → Option (Text × Text)
  | [] => none
  | c :: rest =>
    let keep (x : Char) : Option (Text × Text) :=
      (basic? long (.none false) rest).map fun read => (x :: read.1, read.2)
    match state with
    | .number left value =>
      match Text.digit? c with
      | none => none
      | some d =>
        if left ≤ 1 then (character? (value * 16 + d)).bind keep
        else basic? long (.number (left - 1) (value * 16 + d)) rest
    | .lineBreak =>
      if c = '\n' then basic? long (.none true) rest
      else if Text.isBlank c || startsBreak c rest then basic? long .lineBreak rest
      else none
    | .backslash =>
      match escaped? c, numberWidth? c with
      | some x, _ => keep x
      | none, some width => basic? long (.number width 0) rest
      | none, none =>
        if !long then none
        else if c = '\n' then basic? long (.none true) rest
        else if Text.isBlank c || startsBreak c rest then basic? long .lineBreak rest
        else none
    | .none folding =>
      if folding && (Text.isBlank c || startsBreak c rest) then basic? long (.none true) rest
      else if c = '\\' then basic? long .backslash rest
      else if c = '"' then
        if !long then some ([], rest)
        else
          match rest with
          | '"' :: '"' :: '"' :: '"' :: behind => some (['"', '"'], behind)
          | '"' :: '"' :: '"' :: behind => some (['"'], behind)
          | '"' :: '"' :: behind => some ([], behind)
          | _ => keep c
      else if isPrintable c || (long && startsBreak c rest) then keep c
      else none

/-- A string in single quotes behind the opening ones, and what follows the closing ones. -/
def literal? (long : Bool) : Text → Option (Text × Text)
  | [] => none
  | c :: rest =>
    let keep : Option (Text × Text) :=
      (literal? long rest).map fun read => (c :: read.1, read.2)
    if c = '\'' then
      if !long then some ([], rest)
      else
        match rest with
        | '\'' :: '\'' :: '\'' :: '\'' :: behind => some (['\'', '\''], behind)
        | '\'' :: '\'' :: '\'' :: behind => some (['\''], behind)
        | '\'' :: '\'' :: behind => some ([], behind)
        | _ => keep
    else if isPrintable c || (long && startsBreak c rest) then keep
    else none

/-- A text without the line break at its start. -/
def afterBreak : Text → Text
  | '\n' :: rest => rest
  | '\r' :: '\n' :: rest => rest
  | t => t

/-- A string on one line at the start of a text, and what follows it. -/
def shortString? : Text → Option (Text × Text)
  | '"' :: rest => basic? false (.none false) rest
  | '\'' :: rest => literal? false rest
  | _ => none

/-- A string of any kind at the start of a text, and what follows it. -/
def quoted? (t : Text) : Option (Text × Text) :=
  match t with
  | '"' :: '"' :: '"' :: rest => basic? true (.none false) (afterBreak rest)
  | '\'' :: '\'' :: '\'' :: rest => literal? true (afterBreak rest)
  | _ => shortString? t

end SdkWiring.Toml
