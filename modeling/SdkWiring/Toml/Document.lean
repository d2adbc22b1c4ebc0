import SdkWiring.Toml.Quoted

/-!
# TOML documents

A document is a list of lines: blank ones, headers, and keys with their values. Values in brackets
and braces may run over several lines.

* `read?`: the table that a document says, unless the document is malformed.

Values are read by recursion on a number that bounds the steps; twice the length of the text is
enough, as every second step reads a character.
-/

namespace SdkWiring.Toml

/-- A text without the blanks at its start. -/
def skipBlanks (t : Text) : Text := t.dropWhile Text.isBlank

/-- What follows a comment, from the line break on, unless the comment holds control characters. -/
def afterComment? (t : Text) : Option Text :=
  let comment := t.takeWhile (· != '\n')
  let rest := t.dropWhile (· != '\n')
  let visible := if rest.isEmpty || comment.getLast? != some '\r' then comment else comment.dropLast
  if visible.all isPrintable then some rest else none

/-- What follows the end of a line: blanks and a comment, then a line break or the end. -/
def afterLine? (t : Text) : Option Text :=
  let t := skipBlanks t
  let behind? := match t with
    | '#' :: comment => afterComment? comment
    | _ => some t
  match behind? with
  | some [] => some []
  | some ('\n' :: rest) => some rest
  | some ('\r' :: '\n' :: rest) => some rest
  | _ => none

/-- What follows blanks, line breaks and comments, in at most so many steps. -/
def afterGap? : Nat → Text → Option Text
  | 0, _ => none
  | steps + 1, t =>
    match skipBlanks t with
    | '#' :: comment => (afterComment? comment).bind (afterGap? steps)
    | '\n' :: rest => afterGap? steps rest
    | '\r' :: '\n' :: rest => afterGap? steps rest
    | rest => some rest

/-- Whether a character may stand in a key without quotes. -/
def isBare (c : Char) : Bool := c.isAlphanum || c == '_' || c == '-'

/-- A key without dots, and what follows it. -/
def simpleKey? (t : Text) : Option (Text × Text) :=
  match t.takeWhile isBare with
  | [] => shortString? t
  | key => some (key, t.dropWhile isBare)

/-- A key with its dots: the keys of the tables that hold it, the key, and what follows it and the
blanks behind it. -/
def key? : Nat → Text → Option (List Text × Text × Text)
  | 0, _ => none
  | steps + 1, t =>
    match simpleKey? (skipBlanks t) with
    | none => none
    | some (key, rest) =>
      match skipBlanks rest with
      | '.' :: rest => (key? steps rest).map fun read => (key :: read.1, read.2)
      | rest => some ([], key, rest)

/-- A key in braces with its equals sign, and what follows that. Line breaks and comments may stand
on both sides of the sign there. -/
def fieldKey? (t : Text) : Option (List Text × Text × Text) :=
  match key? (t.length + 1) t with
  | none => none
  | some (path, key, rest) =>
    match afterGap? (rest.length + 1) rest with
    | some ('=' :: rest) => (afterGap? (rest.length + 1) rest).map (path, key, ·)
    | _ => none

/-- Whether a character ends a value that is written without quotes. -/
def endsScalar (c : Char) : Bool :=
  c ∈ [' ', '\t', '\r', '\n', ',', '[', ']', '\x7b', '\x7d', '#', '=']

/-- A number, boolean or date, and what follows it. -/
def scalarValue? (t : Text) : Option (Value × Text) :=
  let run := t.takeWhile (!endsScalar ·)
  let rest := t.dropWhile (!endsScalar ·)
  match rest with
  | ' ' :: behind =>
    let clock := behind.takeWhile (!endsScalar ·)
    if isDay run && isTimeOfDay clock then
      some (.dateTime, behind.dropWhile (!endsScalar ·))
    else (scalar? run).map (·, rest)
  | _ => (scalar? run).map (·, rest)

/-- How deep values may stand in each other. -/
def deepest : Nat := 80

mutual

/-- A value, and what follows it. -/
def value? (steps depth : Nat) (t : Text) : Option (Value × Text) :=
  match steps with
  | 0 => none
  | steps + 1 =>
    match t with
    | '[' :: rest =>
      if depth = 0 then none
      else (items? steps (depth - 1) rest).map fun read => (.array false read.1, read.2)
    | '\x7b' :: rest =>
      if depth = 0 then none
      else (fields? steps (depth - 1) [] rest).map fun read => (.table .inline read.1, read.2)
    | '"' :: _ => (quoted? t).map fun read => (.string read.1, read.2)
    | '\'' :: _ => (quoted? t).map fun read => (.string read.1, read.2)
    | _ => scalarValue? t

/-- The values up to the closing bracket, and what follows it. -/
def items? (steps depth : Nat) (t : Text) : Option (List Value × Text) :=
  match steps with
  | 0 => none
  | steps + 1 =>
    match afterGap? (t.length + 1) t with
    | none => none
    | some (']' :: rest) => some ([], rest)
    | some t =>
      match value? steps depth t with
      | none => none
      | some (v, rest) =>
        match afterGap? (rest.length + 1) rest with
        | some (',' :: rest) => (items? steps depth rest).map fun read => (v :: read.1, read.2)
        | some (']' :: rest) => some ([v], rest)
        | _ => none

/-- The entries up to the closing brace, added to those before them, and what follows it. -/
def fields? (steps depth : Nat) (entries : Table) (t : Text) : Option (Table × Text) :=
  match steps with
  | 0 => none
  | steps + 1 =>
    match afterGap? (t.length + 1) t with
    | none => none
    | some ('\x7d' :: rest) => some (entries, rest)
    | some t =>
      match fieldKey? t with
      | none => none
      | some (path, key, rest) =>
        match value? steps depth rest with
        | none => none
        | some (v, rest) =>
          match Table.assign true entries path key v, afterGap? (rest.length + 1) rest with
          | some entries, some (',' :: rest) => fields? steps depth entries rest
          | some entries, some ('\x7d' :: rest) => some (entries, rest)
          | _, _ => none

end

/-- A document while it is read: its table, and the table that the last header defined. -/
structure Document where
  root : Table := []
  header : List Text := []

/-- The document behind a header, and the lines that follow. -/
def readHeader? (d : Document) (item : Bool) (t : Text) : Option (Document × Text) :=
  match key? (t.length + 1) t with
  | none => none
  | some (path, key, rest) =>
    let behind? := match item, rest with
      | true, ']' :: ']' :: rest => afterLine? rest
      | false, ']' :: rest => afterLine? rest
      | _, _ => none
    match behind?, Table.define item d.root path key with
    | some rest, some root => some (⟨root, path ++ [key]⟩, rest)
    | _, _ => none

/-- The document behind a key and its value, and the lines that follow. -/
def readPair? (d : Document) (t : Text) : Option (Document × Text) :=
  match key? (t.length + 1) t with
  | some (path, key, '=' :: rest) =>
    match value? (2 * rest.length + 2) deepest (skipBlanks rest) with
    | none => none
    | some (v, rest) =>
      match afterLine? rest, Table.assignUnder d.root d.header path key v with
      | some rest, some root => some (⟨root, d.header⟩, rest)
      | _, _ => none
  | _ => none

/-- The document behind all lines, in at most so many steps. -/
def readLines? : Nat → Document → Text → Option Document
  | 0, _, _ => none
  | steps + 1, d, t =>
    match afterGap? (t.length + 1) t with
    | none => none
    | some [] => some d
    | some ('[' :: '[' :: rest) =>
      (readHeader? d true rest).bind fun read => readLines? steps read.1 read.2
    | some ('[' :: rest) =>
      (readHeader? d false rest).bind fun read => readLines? steps read.1 read.2
    | some rest => (readPair? d rest).bind fun read => readLines? steps read.1 read.2

/-- The table that a document says, unless the document is malformed. A byte order mark at its start
does not count. -/
def read? (t : Text) : Option Table :=
  let t := match t with
    | '\uFEFF' :: rest => rest
    | t => t
  (readLines? (t.length + 1) {} t).map Document.root

end SdkWiring.Toml
