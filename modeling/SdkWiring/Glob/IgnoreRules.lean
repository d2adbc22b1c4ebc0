import SdkWiring.Files.Tree
import SdkWiring.Glob.Summary
import SdkWiring.Text.CharClass

/-!
# Ignore rules

Rules in the style of a `.gitignore` file, one a line. A rule leaves paths out or, behind an
exclamation mark, keeps them; of the rules that match a path the last one decides.

* `IgnoreRule.ofLine`: the rule that a line writes, if it writes one.
* `IgnoreRules.leavesOut`: whether a path is left out.
* `IgnoreRules.ofFile`: the rules of a file, lines that are malformed being skipped.
-/

namespace SdkWiring

/-- A rule that leaves paths out or keeps them. -/
structure IgnoreRule where
  /-- The glob for whole paths. -/
  glob : Text
  /-- Its tokens. -/
  tokens : List Glob.Token
  /-- Whether the rule keeps what it matches. -/
  keeps : Bool
  /-- Whether the rule is about directories only. -/
  onlyDirectories : Bool
  deriving Repr

namespace IgnoreRule

/-- A text without the white space at its end, unless that is an escaped space. -/
def trimmed (line : Text) : Text :=
  if "\\ ".toList.reverse.isPrefixOf line.reverse then line
  else (line.reverse.dropWhile Text.isSpace).reverse

/-- A line taken apart: what marks it, and its glob. -/
structure Parts where
  keeps : Bool := false
  /-- Whether the glob is about whole paths from the root on. -/
  anchored : Bool := false
  onlyDirectories : Bool := false
  glob : Text

namespace Parts

/-- The marks at the start of a line. A backslash takes the first mark away. -/
def ofLine (line : Text) : Parts :=
  match line with
  | '\\' :: '!' :: rest => { glob := '!' :: rest }
  | '\\' :: '#' :: rest => { glob := '#' :: rest }
  | '!' :: '/' :: rest => { keeps := true, anchored := true, glob := rest }
  | '!' :: rest => { keeps := true, glob := rest }
  | '/' :: rest => { anchored := true, glob := rest }
  | _ => { glob := line }

/-- The mark at the end of a line: a slash, with a backslash before it if there is one. -/
def takeSlash (p : Parts) : Parts :=
  match p.glob.reverse with
  | '/' :: '\\' :: rest => { p with onlyDirectories := true, glob := rest.reverse }
  | '/' :: rest => { p with onlyDirectories := true, glob := rest.reverse }
  | _ => p

/-- The glob for whole paths: one without slashes is about names anywhere, and one for everything
below a directory is not about the directory. -/
def fullGlob (p : Parts) : Text :=
  let anyDirectory := "**/".toList
  let glob :=
    if p.anchored || p.glob.any (· == '/') || p.glob == "**".toList then p.glob
    else anyDirectory ++ p.glob
  if "/**".toList.reverse.isPrefixOf glob.reverse then glob ++ "/*".toList else glob

end Parts

/-- The rule that a line writes, if it is neither empty nor a comment. -/
def ofLine (line : Text) : Except String (Option IgnoreRule) :=
  if line.head? = some '#' then .ok none
  else
    let line := trimmed line
    if line.isEmpty then .ok none
    else
      let parts := (Parts.ofLine line).takeSlash
      match Glob.parse true parts.fullGlob with
      | .error fault => .error (fault.message line)
      | .ok tokens => .ok (some ⟨parts.fullGlob, tokens, parts.keeps, parts.onlyDirectories⟩)

/-- Whether a rule is about a path. -/
def concerns (r : IgnoreRule) (path : Glob.Bytes) (isDirectory : Bool) : Bool :=
  (isDirectory || !r.onlyDirectories) && Glob.matches false r.tokens path

end IgnoreRule

/-- Rules about the paths below a root. -/
structure IgnoreRules where
  root : Path
  rules : List IgnoreRule := []
  deriving Repr

namespace IgnoreRules

/-- What is said about the rules. -/
def reports (rs : IgnoreRules) : List Event :=
  Glob.reports false (rs.rules.map fun rule => (rule.glob, rule.tokens))

/-- A text without a part at its start, if it has that. -/
def without (start t : Text) : Text := if start.isPrefixOf t then t.drop start.length else t

/-- A path as the rules see it: from the root on. -/
def seen (root path : Path) : Text :=
  let dot := "./".toList
  let root := without dot root.text.toList
  let path := without dot path.text.toList
  if (Path.ofString (String.ofList root)).components = ["."] || !path.any (· == '/') then path
  else if root.isPrefixOf path then without ['/'] (path.drop root.length)
  else path

/-- Whether a path is left out. -/
def leavesOut (rs : IgnoreRules) (path : Path) (isDirectory : Bool) : Bool :=
  let bytes := (String.ofList (seen rs.root path)).toUTF8.toList
  match rs.rules.reverse.find? (·.concerns bytes isDirectory) with
  | none => false
  | some r => !r.keeps

/-- The rules that lines write, or what is wrong with the first malformed one, and that line. -/
def ofLines (root : Path) (lines : List Text) : Except (Text × String) IgnoreRules := do
  let rules ← lines.mapM fun line =>
    match IgnoreRule.ofLine line with
    | .error message => .error (line, message)
    | .ok rule => .ok rule
  .ok ⟨root, rules.filterMap id⟩

/-- A line without its line break. -/
def withoutBreak (line : Text) : Text :=
  match line.reverse with
  | '\n' :: '\r' :: rest => rest.reverse
  | '\n' :: rest => rest.reverse
  | _ => line

/-- Bytes cut into lines, each with its line feed. -/
def byteLines : List UInt8 → List (List UInt8)
  | [] => []
  | b :: rest =>
    if b = 0x0A then [b] :: byteLines rest
    else
      match byteLines rest with
      | [] => [[b]]
      | line :: lines => (b :: line) :: lines

/-- The texts up to the first content that is none. -/
def firstTexts : List Content → List Text
  | .text t :: rest => t :: firstTexts rest
  | _ => []

/-- The lines of a file, up to the first one that is no text. -/
def linesOf (c : Content) : List Text :=
  let lines :=
    match c with
    | .text t => t.lines
    | .raw bytes => firstTexts ((byteLines bytes).map Content.ofBytes)
  match lines.map withoutBreak with
  | [] => []
  | first :: rest => first.dropWhile (· == '\uFEFF') :: rest

/-- The rules of a file. Lines that are malformed are skipped. -/
def ofFile (root : Path) (c : Content) : IgnoreRules :=
  ⟨root, (linesOf c).filterMap fun line =>
    match IgnoreRule.ofLine line with
    | .error _ => none
    | .ok rule => rule⟩

end IgnoreRules

end SdkWiring
