import SdkWiring.Glob.Pattern
import SdkWiring.Journal
import SdkWiring.Text.Quoted

/-!
# Summaries of sets of globs

What a log says about a set of globs: which of them need a regular expression of their own, and how
many can be matched in simpler ways.

* `Glob.Kind.of`: the simplest way in which a glob can be matched.
* `Glob.regex`: the regular expression for a glob.
* `Glob.reports`: what is said about a set of globs.
-/

namespace SdkWiring.Glob

/-! ## Regular expressions -/

/-- Characters that mean something in a regular expression. -/
def metaCharacters : List Char :=
  ['\\', '.', '+', '*', '?', '(', ')', '|', '[', ']', '\x7b', '\x7d', '^', '$', '#', '&', '-', '~']

/-- A byte as two digits. -/
def hexByte (b : UInt8) : Text :=
  let digits := Nat.toDigits 16 b.toNat
  if digits.length < 2 then '0' :: digits else digits

/-- A character that stands for itself in a regular expression over bytes. -/
def escaped (c : Char) : Text :=
  if c ∈ metaCharacters then ['\\', c]
  else if c.toNat < 0x80 then [c]
  else (bytesOf c).flatMap fun b => "\\x".toList ++ hexByte b

/-- A range of characters in a class. -/
def rangeRegex (range : Char × Char) : Text :=
  if range.1 = range.2 then escaped range.1 else escaped range.1 ++ '-' :: escaped range.2

mutual

/-- The regular expression for a token. -/
def Token.regex : Token → Text
  | .literal c => escaped c
  | .any => "[^/]".toList
  | .star => "[^/]*".toList
  | .anyStart => "(?:/?|.*/)".toList
  | .anyEnd => "/.*".toList
  | .anyMiddle => "(?:/|/.*/)".toList
  | .oneOf negated ranges =>
    '[' :: (if negated then ['^'] else []) ++ ranges.flatMap rangeRegex ++ [']']
  | .choice branches =>
    match branchesRegex branches with
    | [] => []
    | regex => "(?:".toList ++ regex ++ [')']

/-- The regular expressions for branches, empty ones being left out. -/
def branchesRegex : List (List Token) → Text
  | [] => []
  | branch :: rest =>
    match tokensRegex branch, branchesRegex rest with
    | [], others => others
    | regex, [] => regex
    | regex, others => regex ++ '|' :: others

/-- The regular expression for several tokens. -/
def tokensRegex : List Token → Text
  | [] => []
  | t :: rest => t.regex ++ tokensRegex rest

end

/-- The regular expression for a glob, the case of letters not counting if `anyCase`. -/
def regex (anyCase : Bool) (tokens : List Token) : Text :=
  let body :=
    match tokens with
    | [.anyStart] => ".*".toList
    | _ => tokensRegex tokens
  "(?-u)".toList ++ (if anyCase then "(?i)".toList else []) ++ '^' :: body ++ ['$']

/-! ## Kinds of globs -/

/-- The ways in which a glob can be matched, the simpler ones first. -/
inductive Kind
  /-- The last name of a path is this one. -/
  | name (name : Text)
  /-- The path is this one. -/
  | path (path : Text)
  /-- The last name of a path has this extension. -/
  | anyWith (extension : Text)
  /-- The path starts like this. -/
  | below (start : Text)
  /-- The path ends like this, or is this without the slash at its start. -/
  | ending (ending : Text)
  /-- An expression, which only paths with this extension match. -/
  | regexWith (extension : Text)
  /-- An expression for the last name of a path. -/
  | nameRegex
  /-- An expression for the path. -/
  | regex
  deriving DecidableEq, Repr

/-- The characters of tokens, if all of them stand for themselves. -/
def literals? : List Token → Option Text
  | [] => some []
  | .literal c :: rest => (literals? rest).map (c :: ·)
  | _ => none

/-- The extension with which tokens end, given the last token first. -/
def lastExtension? : List Token → Option Text
  | .literal c :: rest =>
    if c = '/' then none
    else if c = '.' then some ['.']
    else (lastExtension? rest).map (· ++ [c])
  | _ => none

mutual

/-- Whether a token matches only within one name. -/
def Token.staysInName : Token → Bool
  | .literal c => c != '/'
  | .any | .star => true
  | .oneOf negated ranges => inClass false ranges slash == negated
  | .choice branches => branchesStayInName branches
  | .anyStart | .anyEnd | .anyMiddle => false

/-- Whether all branches match only within one name. -/
def branchesStayInName : List (List Token) → Bool
  | [] => true
  | branch :: rest => stayInName branch && branchesStayInName rest

/-- Whether all tokens match only within one name. -/
def stayInName : List Token → Bool
  | [] => true
  | t :: rest => t.staysInName && stayInName rest

end

/-- The kind of a glob that is compared as it is written. -/
def Kind.ofExact (tokens : List Token) : Kind :=
  let other : Kind :=
    match lastExtension? tokens.reverse, tokens with
    | some ext, _ => .regexWith ext
    | none, .anyStart :: rest => if !rest.isEmpty && stayInName rest then .nameRegex else .regex
    | none, _ => .regex
  match tokens with
  | .anyStart :: .star :: .literal '.' :: rest =>
    match literals? rest with
    | some ext => if ext.all fun c => c != '.' && c != '/' then .anyWith ('.' :: ext) else other
    | none => other
  | .anyStart :: rest =>
    match literals? rest with
    | some (c :: t) =>
      if (c :: t).all (· != '/') then .name (c :: t) else .ending ('/' :: c :: t)
    | _ => other
  | _ =>
    match literals? tokens, tokens.getLast?, literals? tokens.dropLast with
    | some (c :: t), _, _ => .path (c :: t)
    | _, some .anyEnd, some start => .below (start ++ ['/'])
    | _, _, _ => other

/-- The simplest way in which a glob can be matched. If the case of letters does not count, there is
only one. -/
def Kind.of (anyCase : Bool) (tokens : List Token) : Kind :=
  if anyCase then .regex else .ofExact tokens

/-! ## Reports -/

/-- The number of different texts in a list. -/
def countDistinct (texts : List Text) : Nat := texts.eraseDups.length

/-- The event that counts the kinds of the globs of a set. Texts that are looked up as a whole count
once. -/
def countEvent (kinds : List Kind) : Event :=
  let count (f : Kind → Option Text) : Nat := (kinds.filterMap f).length
  let distinct (f : Kind → Option Text) : Nat := countDistinct (kinds.filterMap f)
  let paths := distinct fun | .path t => some t | .ending t => some t.tail | _ => none
  let names := distinct fun | .name t => some t | _ => none
  let extensions := distinct fun | .anyWith t => some t | _ => none
  let starts := count fun | .below t => some t | _ => none
  let endings := count fun | .ending t => some t | _ => none
  let required := distinct fun | .regexWith t => some t | _ => none
  let nameRegexes := kinds.count .nameRegex
  let regexes := kinds.count .regex
  ⟨.debug, .globs,
    s!"built glob set; {paths} literals, {names} basenames, {extensions} extensions, "
    ++ s!"{starts} prefixes, {endings} suffixes, {required} required extensions, "
    ++ s!"{nameRegexes} basename regexes, {regexes} regexes", []⟩

/-- The event that a glob needs a regular expression of its own. -/
def regexEvent (anyCase : Bool) (glob : Text × List Token) : Event :=
  ⟨.debug, .globs,
    "glob `Glob(" ++ Text.quoted glob.1 ++ ")` converted to regex: `"
      ++ Text.quoted (regex anyCase glob.2) ++ "`", []⟩

/-- What is said about a set of globs, each given with its text. -/
def reports (anyCase : Bool) (globs : List (Text × List Token)) : List Event :=
  if globs.isEmpty then []
  else
    (globs.filter fun glob => Kind.of anyCase glob.2 = .regex).map (regexEvent anyCase)
      ++ [countEvent (globs.map fun glob => Kind.of anyCase glob.2)]

/-- Nothing is said about an empty set. -/
@[simp] theorem reports_nil (anyCase : Bool) : reports anyCase [] = [] := rfl

/-- Globs for which the case of letters does not count all need a regular expression. -/
theorem length_reports {globs : List (Text × List Token)} (h : globs ≠ []) :
    (reports true globs).length = globs.length + 1 := by
  simp [reports, h, Kind.of]

end SdkWiring.Glob
