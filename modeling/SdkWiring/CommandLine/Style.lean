import SdkWiring.Text.Number

/-!
# Styled output

Output is coloured unless it is switched off. As it never goes to a terminal, the environment has to
ask for colours, or to have the output taken for that of a terminal.

* `Environment.usesColor`: whether output is coloured.
* `Style.apply`: a text in a style.
-/

namespace SdkWiring

/-- The variables of the environment. -/
abbrev Environment := List (String × String)

namespace Environment

/-- The value of a variable. -/
def get? (env : Environment) (name : String) : Option String :=
  (env.find? (·.1 == name)).map (·.2)

/-- Whether the value of a variable that forces colours does so: a number other than zero, or any
other word than `false`. -/
def forces (value : String) : Bool :=
  if value = "false" then false
  else
    match Text.number? value.toList with
    | some n => n != 0
    | none => true

/-- Whether the environment asks for colours. Only one of the two variables counts. -/
def asksForColor (env : Environment) : Bool :=
  match env.get? "FORCE_COLOR", env.get? "CLICOLOR_FORCE" with
  | some value, _ => forces value
  | none, some value => value != "0"
  | none, none => false

/-- Words by whose presence the name of a terminal tells that it has colours. -/
def colorWords : List String := ["color", "ansi", "cygwin", "linux"]

/-- Words with which the name of a terminal that has colours starts. -/
def colorStarts : List String := ["screen", "xterm", "vt100", "vt220", "rxvt"]

/-- Words with which the name of a terminal that has many colours ends. -/
def colorEnds : List String := ["direct", "256"]

/-- Whether a terminal of a name has colours. -/
def isColorTerminal (name : String) : Bool :=
  let name := name.toList
  colorWords.any (Text.contains name ·.toList)
    || colorStarts.any (·.toList.isPrefixOf name)
    || colorEnds.any (·.toList.reverse.isPrefixOf name.reverse)

/-- Whether the environment knows of colours, if output is taken for that of a terminal. -/
def knowsColor (env : Environment) : Bool :=
  (env.get? "COLORTERM").isSome
    || (env.get? "TERM").any isColorTerminal
    || (env.get? "TERM_PROGRAM").any (· ∈ ["iTerm.app", "Apple_Terminal"])
    || (env.get? "CLICOLOR").any (· != "0")
    || (env.get? "CI").any (· ∈ ["true", "1", "woodpecker"])

/-- Whether output is taken for that of a terminal with colours. -/
def actsAsTerminal (env : Environment) : Bool :=
  (env.get? "IGNORE_IS_TERMINAL").any (· != "0") && env.get? "TERM" != some "dumb"
    && env.knowsColor

/-- Whether output is coloured. -/
def usesColor (env : Environment) (noColor : Bool) : Bool :=
  !noColor && (env.get? "NO_COLOR").isNone && (env.asksForColor || env.actsAsTerminal)

end Environment

/-- How a text is set off. -/
inductive Style
  | bold
  | red
  | green
  deriving DecidableEq, Repr

namespace Style

/-- What turns a style on. -/
def on : Style → String
  | bold => "\x1B[1m"
  | red => "\x1B[31m"
  | green => "\x1B[32m"

/-- What turns a style off. -/
def off : Style → String
  | bold => "\x1B[0m"
  | _ => "\x1B[39m"

/-- A text in a style, if output is coloured. -/
def apply (colored : Bool) (s : Style) (text : String) : String :=
  if colored then s.on ++ text ++ s.off else text

end Style

end SdkWiring
