import SdkWiring.Text.Basic

/-!
# Glob patterns

A glob is a list of tokens that a path has to match from its start to its end. Paths are compared
byte by byte, so that a question mark and a class stand for one byte.

* `Glob.parse`: the tokens that a text writes, or what is wrong with it.
* `Glob.matches`: whether the bytes of a path match.
-/

namespace SdkWiring.Glob

/-- One token of a glob. -/
inductive Token
  | literal (c : Char)
  /-- One byte other than a slash. -/
  | any
  /-- Any number of bytes other than slashes. -/
  | star
  /-- Two stars at the start: any directories, or none. -/
  | anyStart
  /-- Two stars at the end: everything below. -/
  | anyEnd
  /-- Two stars in the middle: any directories, or none. -/
  | anyMiddle
  /-- A byte of a class, or outside of it if `negated`. -/
  | oneOf (negated : Bool) (ranges : List (Char × Char))
  /-- One of several globs. -/
  | choice (branches : List (List Token))
  deriving Repr

/-- What is wrong with a glob. -/
inductive Fault
  | unclosedClass
  | badRange (low high : Char)
  | unclosedChoice
  | unopenedChoice
  | danglingEscape
  deriving DecidableEq, Repr

/-- What is wrong with a glob, in words. -/
def Fault.reason : Fault → String
  | unclosedClass => "unclosed character class; missing ']'"
  | badRange low high => "invalid range; '" ++ low.toString ++ "' > '" ++ high.toString ++ "'"
  | unclosedChoice =>
    "unclosed alternate group; missing '\x7d' (maybe escape '\x7b' with '[\x7b]'?)"
  | unopenedChoice =>
    "unopened alternate group; missing '\x7b' (maybe escape '\x7d' with '[\x7d]'?)"
  | danglingEscape => "dangling '\\'"

/-- What is wrong with a glob, with the glob. -/
def Fault.message (f : Fault) (glob : Text) : String :=
  "error parsing glob '" ++ String.ofList glob ++ "': " ++ f.reason

/-! ## Reading globs -/

/-- A choice that is not closed yet: the tokens before it, and its branches so far. Everything is
kept with the last one first. -/
structure OpenChoice where
  before : List Token
  branches : List (List Token)

/-- A glob while it is read. -/
structure Draft where
  /-- The choices that are open, the innermost one first. -/
  choices : List OpenChoice := []
  /-- The tokens of the current branch, the last one first. -/
  tokens : List Token := []

namespace Draft

/-- The draft with a token more. -/
def push (d : Draft) (t : Token) : Draft := { d with tokens := t :: d.tokens }

/-- The draft with a choice opened. -/
def openChoice (d : Draft) : Draft := ⟨⟨d.tokens, []⟩ :: d.choices, []⟩

/-- The draft at the next branch of the innermost choice. Outside of one a comma is just that. -/
def nextBranch (d : Draft) : Draft :=
  match d.choices with
  | [] => d.push (.literal ',')
  | c :: rest => ⟨⟨c.before, d.tokens.reverse :: c.branches⟩ :: rest, []⟩

/-- The draft with the innermost choice closed. -/
def closeChoice (d : Draft) : Except Fault Draft :=
  match d.choices with
  | [] => .error .unopenedChoice
  | c :: rest =>
    .ok ⟨rest, .choice (d.tokens.reverse :: c.branches).reverse :: c.before⟩

/-- The draft behind two stars, given the character before them and the rest. Next to other
characters they are two single stars; the slash behind them belongs to them. -/
def stars (d : Draft) (previous : Option Char) (rest : Text) : Draft × Text :=
  let plain := (d.push .star).push .star
  if d.tokens = [] then
    match rest with
    | [] => (d.push .anyStart, [])
    | '/' :: rest => (d.push .anyStart, rest)
    | _ => (plain, rest)
  else if previous ≠ some '/' ∧
      (d.choices = [] ∨ (previous ≠ some ',' ∧ previous ≠ some '\x7b')) then (plain, rest)
  else
    let replaceLast (t : Token) : Draft :=
      match d.tokens with
      | .anyStart :: before => { d with tokens := .anyStart :: before }
      | .anyEnd :: before => { d with tokens := .anyEnd :: before }
      | before => { d with tokens := t :: before.tail }
    match rest with
    | [] => (replaceLast .anyEnd, [])
    | '/' :: behind => (replaceLast .anyMiddle, behind)
    | c :: _ =>
      if (c = ',' ∨ c = '\x7d') ∧ d.choices ≠ [] then (replaceLast .anyEnd, rest)
      else (plain, rest)

end Draft

/-- A class while it is read: its ranges so far, the last one first, and whether a dash was read
behind the last one. -/
structure ClassDraft where
  ranges : List (Char × Char) := []
  inRange : Bool := false

namespace ClassDraft

/-- The class behind a character that stands for itself or ends a range. -/
def add (d : ClassDraft) (c : Char) : Except Fault ClassDraft :=
  match d.inRange, d.ranges with
  | true, (low, _) :: rest =>
    if c < low then .error (.badRange low c) else .ok ⟨(low, c) :: rest, false⟩
  | _, ranges => .ok ⟨(c, c) :: ranges, false⟩

/-- The ranges of a class that is closed. A dash at its end stands for itself. -/
def close (d : ClassDraft) : List (Char × Char) :=
  (if d.inRange then ('-', '-') :: d.ranges else d.ranges).reverse

/-- The ranges up to the closing bracket, and what follows it. A bracket or dash in the first place
stands for itself. -/
def read (d : ClassDraft) (first : Bool) : Text → Except Fault (List (Char × Char) × Text)
  | [] => .error .unclosedClass
  | c :: rest =>
    if c = ']' ∧ ¬ first then .ok (d.close, rest)
    else if c = '-' ∧ ¬ first ∧ ¬ d.inRange then read { d with inRange := true } false rest
    else
      match d.add c with
      | .error f => .error f
      | .ok d => read d false rest

end ClassDraft

/-- The class behind an opening bracket, and what follows it. -/
def class? (t : Text) : Except Fault (Token × Text) :=
  let (negated, body) : Bool × Text :=
    match t with
    | '!' :: rest => (true, rest)
    | '^' :: rest => (true, rest)
    | _ => (false, t)
  match ClassDraft.read {} true body with
  | .error f => .error f
  | .ok (ranges, rest) => .ok (.oneOf negated ranges, rest)

/-- Reads a glob, in at most so many steps. If `lenient`, an opening bracket without a closing one
stands for itself, as do all that follow it. `classes` says whether brackets still open classes. -/
def readFrom (lenient : Bool) :
    Nat → (classes : Bool) → (previous : Option Char) → Draft → Text → Except Fault Draft
  | 0, _, _, d, _ => .ok d
  | _ + 1, _, _, d, [] => .ok d
  | steps + 1, classes, previous, d, c :: rest =>
    let next (d : Draft) := readFrom lenient steps classes (some c) d rest
    match c with
    | '?' => next (d.push .any)
    | '*' =>
      match rest with
      | '*' :: behind =>
        let (d, behind') := d.stars previous behind
        readFrom lenient steps classes (some (if behind'.length < behind.length then '/' else '*'))
          d behind'
      | _ => next (d.push .star)
    | '[' =>
      if classes then
        match class? rest with
        | .ok (t, behind) => readFrom lenient steps classes (some ']') (d.push t) behind
        | .error .unclosedClass =>
          if lenient then readFrom lenient steps false (some c) (d.push (.literal c)) rest
          else .error .unclosedClass
        | .error f => .error f
      else next (d.push (.literal c))
    | '\x7b' => next d.openChoice
    | '\x7d' =>
      match d.closeChoice with
      | .error f => .error f
      | .ok d => next d
    | ',' => next d.nextBranch
    | '\\' =>
      match rest with
      | [] => .error .danglingEscape
      | x :: behind => readFrom lenient steps classes (some x) (d.push (.literal x)) behind
    | c => next (d.push (.literal c))

/-- The tokens that a text writes. -/
def parse (lenient : Bool) (t : Text) : Except Fault (List Token) :=
  match readFrom lenient (t.length + 1) true none {} t with
  | .error f => .error f
  | .ok d => if d.choices.isEmpty then .ok d.tokens.reverse else .error .unclosedChoice

/-! ## Matching -/

/-- The bytes of a path. -/
abbrev Bytes := List UInt8

/-- The slash between names. -/
def slash : UInt8 := 0x2F

/-- The bytes of a character. -/
def bytesOf (c : Char) : Bytes := c.toString.toUTF8.toList

/-- An upper-case letter made lower-case. -/
def lowered (b : UInt8) : UInt8 := if 0x41 ≤ b ∧ b ≤ 0x5A then b + 0x20 else b

/-- Whether two bytes are equal, the case of letters not counting if `anyCase`. -/
def sameByte (anyCase : Bool) (a b : UInt8) : Bool :=
  a == b || (anyCase && lowered a == lowered b)

/-- Whether a byte lies in a range of characters: between the last byte of the first and the first
byte of the last, or among the other bytes of the two. -/
def inRange (range : Char × Char) (b : UInt8) : Bool :=
  let low := bytesOf range.1
  let high := bytesOf range.2
  if range.1 = range.2 then low.contains b
  else
    low.dropLast.contains b || high.tail.contains b
      || ((low.getLast?.any (· ≤ b)) && (high.head?.any (b ≤ ·)))

/-- Whether a byte lies in a class. -/
def inClass (anyCase : Bool) (ranges : List (Char × Char)) (b : UInt8) : Bool :=
  ranges.any fun range =>
    inRange range b
      || (anyCase && (List.range 128).any fun n =>
        sameByte true (UInt8.ofNat n) b && inRange range (UInt8.ofNat n))

/-- What is left behind each number of bytes other than slashes. -/
def restsInName : Bytes → List Bytes
  | [] => [[]]
  | b :: rest => (b :: rest) :: if b = slash then [] else restsInName rest

/-- What is left behind each slash. -/
def restsBehindSlash : Bytes → List Bytes
  | [] => []
  | b :: rest => if b = slash then rest :: restsBehindSlash rest else restsBehindSlash rest

/-- Every end of the bytes, the whole included. -/
def rests : Bytes → List Bytes
  | [] => [[]]
  | b :: rest => (b :: rest) :: rests rest

/-- What is left behind the bytes of a character. -/
def restsBehind (anyCase : Bool) : Bytes → Bytes → List Bytes
  | [], t => [t]
  | _ :: _, [] => []
  | x :: xs, b :: rest => if sameByte anyCase x b then restsBehind anyCase xs rest else []

mutual

/-- What can be left of the bytes of a path behind a token. -/
def Token.ends (anyCase : Bool) (t : Token) (path : Bytes) : List Bytes :=
  match t with
  | .literal c => restsBehind anyCase (bytesOf c) path
  | .any =>
    match path with
    | [] => []
    | b :: rest => if b = slash then [] else [rest]
  | .star => restsInName path
  | .anyStart => path :: restsBehindSlash path
  | .anyEnd =>
    match path with
    | [] => []
    | b :: rest => if b = slash then rests rest else []
  | .anyMiddle =>
    match path with
    | [] => []
    | b :: rest => if b = slash then rest :: restsBehindSlash rest else []
  | .oneOf negated ranges =>
    match path with
    | [] => []
    | b :: rest => if inClass anyCase ranges b != negated then [rest] else []
  | .choice branches => endsOfBranches anyCase branches false path

/-- What can be left behind one of several globs. Empty ones do not count unless there are no
others. -/
def endsOfBranches (anyCase : Bool) (branches : List (List Token)) (found : Bool) (path : Bytes) :
    List Bytes :=
  match branches with
  | [] => if found then [] else [path]
  | branch :: rest =>
    if branch.isEmpty then endsOfBranches anyCase rest found path
    else endsOfAll anyCase branch path ++ endsOfBranches anyCase rest true path

/-- What can be left behind several tokens. -/
def endsOfAll (anyCase : Bool) (tokens : List Token) (path : Bytes) : List Bytes :=
  match tokens with
  | [] => [path]
  | t :: rest => (t.ends anyCase path).flatMap fun p => endsOfAll anyCase rest p

end

/-- Whether the bytes of a path match a glob. Two stars alone match everything. -/
def «matches» (anyCase : Bool) (tokens : List Token) (path : Bytes) : Bool :=
  match tokens with
  | [.anyStart] => true
  | _ => (endsOfAll anyCase tokens path).any (·.isEmpty)

end SdkWiring.Glob
