import SdkWiring.Text.CharClass
import SdkWiring.Text.Number

/-!
# Patterns for values

A log filter may compare the value of a field with a number or a regular expression. No such
condition is ever met, but one that is malformed spoils the whole filter. A pattern holds no closing
brace, as that ends it; so no part of it can be in braces.

* `ValuePattern.escape?`: what an escape stands for.
* `ValuePattern.afterClass?`: what follows a class in brackets.
* `ValuePattern.isExpression`: whether a text is a regular expression.
* `ValuePattern.isValid`: whether a text is a pattern.
-/

namespace SdkWiring.ValuePattern

/-! ## Modes -/

/-- How the characters of an expression are read. -/
structure Mode where
  /-- Whether blanks and comments are left out. -/
  spaced : Bool := false
  /-- Whether characters are compared, and not bytes. -/
  unicode : Bool := true
  deriving DecidableEq, Repr

/-- A text without the blanks and comments at its start. `comment` says whether it starts in one. -/
def skipBlanks (comment : Bool) : Text → Text
  | [] => []
  | c :: rest =>
    if comment then skipBlanks (c != '\n') rest
    else if c = '#' then skipBlanks true rest
    else if Text.isSpace c then skipBlanks false rest
    else c :: rest

/-- A text without what a mode leaves out at its start. -/
def Mode.skip (m : Mode) (t : Text) : Text := if m.spaced then skipBlanks false t else t

/-! ## Characters and escapes -/

/-- What a character or an escape stands for. -/
inductive Item
  | character (c : Char)
  /-- A character whose number is written in two digits, so that it may be meant as a byte. -/
  | byte (c : Char)
  /-- The members of a class with a letter of its own, or all others. -/
  | letterClass (negated : Bool)
  /-- The characters with a property. -/
  | property
  /-- The edge of the text or of a word. -/
  | edge (ofWord : Bool)
  deriving DecidableEq, Repr

namespace Item

/-- The character that a range may start or end with. -/
def character? : Item → Option Char
  | character c | byte c => some c
  | _ => none

/-- Whether an item can be used outside of classes. What could match half a character cannot, nor
can the edges of words that are made of any letters. -/
def standsAlone (m : Mode) : Item → Bool
  | character _ => true
  | byte c => m.unicode || c.toNat < 0x80
  | letterClass negated => m.unicode || !negated
  | property => m.unicode
  | edge ofWord => !(ofWord && m.unicode)

/-- Whether an item can be a member of a class. -/
def standsInClass (m : Mode) : Item → Bool
  | character c | byte c => m.unicode || c.toNat < 0x80
  | letterClass negated => m.unicode || !negated
  | property => m.unicode
  | edge _ => false

end Item

/-- The character that hexadecimal digits write, and what follows them. -/
def hexCharacter? (m : Mode) : Nat → Nat → Text → Option (Char × Text)
  | 0, value, t => if value.isValidChar then some (Char.ofNat value, m.skip t) else none
  | left + 1, value, t =>
    match m.skip t with
    | [] => none
    | c :: rest =>
      match Text.digit? c with
      | none => none
      | some d => hexCharacter? m left (value * 16 + d) rest

/-- What an escape stands for, behind its backslash, and what follows it. -/
def escape? (m : Mode) : Text → Option (Item × Text)
  | [] => none
  | 'x' :: rest => (hexCharacter? m 2 0 rest).map fun read => (.byte read.1, read.2)
  | 'u' :: rest => (hexCharacter? m 4 0 rest).map fun read => (.character read.1, read.2)
  | 'U' :: rest => (hexCharacter? m 8 0 rest).map fun read => (.character read.1, read.2)
  | c :: rest =>
    if c ∈ "dsw".toList then some (.letterClass false, rest)
    else if c ∈ "DSW".toList then some (.letterClass true, rest)
    else if c ∈ "Az".toList then some (.edge false, rest)
    else if c ∈ "bB<>".toList then some (.edge true, rest)
    else if c ∈ "pP".toList then
      match m.skip rest with
      | name :: rest =>
        if name ∈ "CLMNPSZclmnpsz".toList then some (.property, m.skip rest) else none
      | [] => none
    else
      match c with
      | 'a' => some (.character '\x07', rest)
      | 'f' => some (.character '\x0C', rest)
      | 't' => some (.character '\t', rest)
      | 'n' => some (.character '\n', rest)
      | 'r' => some (.character '\r', rest)
      | 'v' => some (.character '\x0B', rest)
      | c => if c.toNat < 0x80 ∧ !c.isAlphanum then some (.character c, rest) else none

/-! ## Classes -/

/-- A character or escape in a class, and what follows it. -/
def classItem? (m : Mode) : Text → Option (Item × Text)
  | [] => none
  | '\\' :: rest => escape? m rest
  | c :: rest => some (.character c, rest)

/-- What follows an item in a class, or a range of them. A dash before the closing bracket or
another dash makes no range. -/
def afterRange? (m : Mode) (t : Text) : Option Text :=
  match classItem? m t with
  | none => none
  | some (low, rest) =>
    let rest := m.skip rest
    let single : Option Text := if low.standsInClass m then some rest else none
    match rest with
    | '-' :: behind =>
      let behind := m.skip behind
      if behind.head? = some ']' ∨ behind.head? = some '-' then single
      else
        match classItem? m behind with
        | none => none
        | some (high, rest) =>
          match low.character?, high.character? with
          | some a, some b =>
            if a ≤ b ∧ low.standsInClass m ∧ high.standsInClass m then some rest else none
          | _, _ => none
    | _ => single

/-- The names of the classes that have one. -/
def classNames : List String :=
  ["alnum", "alpha", "ascii", "blank", "cntrl", "digit", "graph", "lower", "print", "punct",
   "space", "upper", "word", "xdigit"]

/-- What follows the name of a class between colons, behind its opening bracket, and whether the
name is negated. -/
def afterClassName? : Text → Option (Bool × Text)
  | ':' :: rest =>
    let negated := rest.head? == some '^'
    let rest := if negated then rest.tail else rest
    match rest.dropWhile (· != ':') with
    | ':' :: ']' :: behind =>
      let name := String.ofList (rest.takeWhile (· != ':'))
      if classNames.contains name then some (negated, behind) else none
    | _ => none
  | _ => none

/-- A text without the dashes at its start, at most so many. -/
def skipDashes (m : Mode) : Nat → Text → Text
  | most + 1, '-' :: rest => skipDashes m most (m.skip rest)
  | _, t => t

/-- What follows the start of a class behind its opening bracket. A closing bracket in the first
place stands for itself, and so do dashes. -/
def afterClassStart? (m : Mode) (t : Text) : Option Text :=
  let t := m.skip t
  let negated := t.head? == some '^'
  let t := if negated then m.skip t.tail else t
  if negated && !m.unicode then none
  else if t.head? = some ']' then some (m.skip t.tail)
  else some (skipDashes m t.length t)

/-- How deep the parts of an expression may stand in each other. -/
def deepest : Nat := 250

/-- What follows a class, in at most so many steps, with so many classes open. -/
def afterClass? (m : Mode) : Nat → Nat → Text → Option Text
  | 0, _, _ => none
  | steps + 1, opened, t =>
    match m.skip t with
    | [] => none
    | ']' :: rest => if opened ≤ 1 then some rest else afterClass? m steps (opened - 1) rest
    | '[' :: rest =>
      match if opened = 0 then none else afterClassName? rest with
      | some (negated, rest) =>
        if negated && !m.unicode then none else afterClass? m steps opened rest
      | none =>
        match afterClassStart? m rest with
        | none => none
        | some rest => if opened < deepest then afterClass? m steps (opened + 1) rest else none
    | '&' :: '&' :: rest => afterClass? m steps opened rest
    | '-' :: '-' :: rest => afterClass? m steps opened rest
    | '~' :: '~' :: rest => afterClass? m steps opened rest
    | t =>
      match afterRange? m t with
      | none => none
      | some rest => afterClass? m steps opened rest

/-! ## Groups -/

/-- How a parenthesis goes on. -/
inductive GroupStart
  /-- It sets a mode for what follows. -/
  | setting (mode : Mode)
  /-- It opens a group in a mode, with a name if it has one. -/
  | opening (mode : Mode) (name : Option Text)
  deriving DecidableEq, Repr

/-- A value as flags change it that turn it on or off. -/
def flagged (flag : Char) (on off : Text) (value : Bool) : Bool :=
  if on.any (· == flag) then true else if off.any (· == flag) then false else value

/-- The mode that flags make, and what follows them. Each flag is given once, at most one dash
stands before a flag, and flags that open no group are not empty. -/
def flags? (m : Mode) (t : Text) : Option (GroupStart × Text) :=
  let isEnd (c : Char) : Bool := c == ':' || c == ')'
  let flags := t.takeWhile (!isEnd ·)
  let on := flags.takeWhile (· != '-')
  let off := flags.dropWhile (· != '-')
  let mode : Mode := ⟨flagged 'x' on off m.spaced, flagged 'u' on off m.unicode⟩
  if !(flags.all fun c => "imsUuxR-".toList.contains c) then none
  else if flags.eraseDups.length ≠ flags.length ∨ flags.getLast? = some '-' then none
  else
    match t.dropWhile (!isEnd ·) with
    | ':' :: rest => some (.opening mode none, rest)
    | ')' :: rest => if flags.isEmpty then none else some (.setting mode, rest)
    | _ => none

/-- A group with a name, behind the angle bracket before it, and what follows the one behind it. -/
def named? (m : Mode) (t : Text) : Option (GroupStart × Text) :=
  let isPart (c : Char) : Bool := c ∈ ['_', '.', '[', ']'] || Text.isAlphanumeric c
  match t.takeWhile (· != '>'), t.dropWhile (· != '>') with
  | c :: name, '>' :: rest =>
    if (c == '_' || Text.isAlphabetic c) && name.all isPart then
      some (.opening m (some (c :: name)), rest)
    else none
  | _, _ => none

/-- How an opening parenthesis goes on, and what follows that. -/
def groupStart? (m : Mode) (t : Text) : Option (GroupStart × Text) :=
  match m.skip t with
  | '?' :: '=' :: _ => none
  | '?' :: '!' :: _ => none
  | '?' :: '<' :: '=' :: _ => none
  | '?' :: '<' :: '!' :: _ => none
  | '?' :: 'P' :: '<' :: rest => named? m rest
  | '?' :: '<' :: rest => named? m rest
  | '?' :: rest => flags? m rest
  | t => some (.opening m none, t)

/-! ## Expressions -/

/-- What was read of a group, or of the whole expression. Depths count how often parts stand in each
other. -/
structure Group where
  /-- The mode of what follows the group. -/
  mode : Mode := {}
  /-- The number of branches before the current one, and their greatest depth. -/
  branches : Nat := 0
  branchDepth : Nat := 0
  /-- The number of parts of the current branch, and the greatest depth of all but the last one. -/
  parts : Nat := 0
  partDepth : Nat := 0
  /-- The depth of the last part, if it can be repeated. -/
  last : Option Nat := none
  deriving DecidableEq, Repr

namespace Group

/-- The group with a part more, which can be repeated if its depth is given. -/
def push (g : Group) (depth : Option Nat) : Group :=
  { g with
    parts := g.parts + 1
    partDepth := max g.partDepth (g.last.getD 0)
    last := depth }

/-- The depth of the current branch. -/
def currentDepth (g : Group) : Nat :=
  let depth := max g.partDepth (g.last.getD 0)
  if g.parts ≤ 1 then depth else depth + 1

/-- The group at its next branch. -/
def nextBranch (g : Group) : Group :=
  { mode := g.mode
    branches := g.branches + 1
    branchDepth := max g.branchDepth g.currentDepth }

/-- The depth of the group. -/
def depth (g : Group) : Nat :=
  let depth := max g.branchDepth g.currentDepth
  if g.branches = 0 then depth else depth + 1

end Group

/-- Whether a text is the rest of an expression, in at most so many steps, given the names of groups
before it, the group that it stands in, and those around that one. -/
def isExpressionFrom (names : List Text) (m : Mode) (g : Group) (outer : List Group) :
    Nat → Text → Bool
  | 0, _ => false
  | steps + 1, t =>
    match m.skip t with
    | [] => outer.isEmpty && g.depth ≤ deepest
    | c :: rest =>
      match c with
      | '(' =>
        match groupStart? m rest with
        | none => false
        | some (.setting mode, rest) =>
          isExpressionFrom names mode (g.push none) outer steps rest
        | some (.opening mode none, rest) =>
          isExpressionFrom names mode { mode := m } (g :: outer) steps rest
        | some (.opening mode (some name), rest) =>
          !names.contains name
            && isExpressionFrom (name :: names) mode { mode := m } (g :: outer) steps rest
      | ')' =>
        match outer with
        | [] => false
        | around :: outer =>
          isExpressionFrom names g.mode (around.push (some (g.depth + 1))) outer steps rest
      | '|' => isExpressionFrom names m g.nextBranch outer steps rest
      | '*' | '+' | '?' =>
        match g.last with
        | none => false
        | some depth =>
          let rest := if rest.head? = some '?' then rest.tail else rest
          isExpressionFrom names m { g with last := some (depth + 1) } outer steps rest
      | '\x7b' => false
      | '[' =>
        match afterClass? m (rest.length + 2) 0 ('[' :: rest) with
        | none => false
        | some rest => isExpressionFrom names m (g.push (some 1)) outer steps rest
      | '\\' =>
        match escape? m rest with
        | none => false
        | some (item, rest) =>
          item.standsAlone m && isExpressionFrom names m (g.push (some 0)) outer steps rest
      | c =>
        (c != '.' || m.unicode) && isExpressionFrom names m (g.push (some 0)) outer steps rest

/-- Whether a text is a regular expression. -/
def isExpression (t : Text) : Bool := isExpressionFrom [] {} {} [] (t.length + 1) t

/-- Whether a text with a plus sign in front is a number. All other numbers are expressions. -/
def isPlusNumber (t : Text) : Bool :=
  let isDigits (t : Text) : Bool := t.all fun c => '0' ≤ c ∧ c ≤ '9'
  match t with
  | '+' :: t =>
    let mantissa := t.takeWhile fun c => c != 'e' && c != 'E'
    let whole := mantissa.takeWhile (· != '.')
    let places := (mantissa.dropWhile (· != '.')).tail
    let exponent := t.dropWhile fun c => c != 'e' && c != 'E'
    let power :=
      match exponent.tail with
      | '+' :: t => t
      | '-' :: t => t
      | t => t
    ["inf", "infinity", "nan"].contains (String.ofList (t.map Char.toLower))
      || (isDigits whole && isDigits places && !(whole ++ places).isEmpty
        && (exponent.isEmpty || (isDigits power && !power.isEmpty)))
  | _ => false

/-- Whether a text is a pattern: a number or a regular expression. -/
def isValid (t : Text) : Bool := isPlusNumber t || isExpression t

/-- The empty text is an expression, which matches the empty value. -/
theorem isValid_nil : isValid [] = true := by decide

end SdkWiring.ValuePattern
