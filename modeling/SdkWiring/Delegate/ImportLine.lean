import SdkWiring.Delegate.Language
import SdkWiring.Text.Pattern

/-!
# Import lines

Two questions are asked about lines of a delegate. Whether a line imports anything at all decides
where the imports end. Whether a line imports one framework decides what is there already and what
is taken out again.

* `Language.anyImport`: a whole line, with its break, that imports something.
* `Language.importOf`: a line, with its break if it has one, that imports one framework.
-/

namespace SdkWiring

namespace Pattern

/-- The rest of a line. -/
def restOfLine : Pattern := many (· != '\n')

/-- One of several texts, an earlier one first. -/
def anyOf (texts : List Text) : Pattern := fun c => texts.flatMap fun t => literal t c

/-- Blanks, then a comment that runs to the end of the line, if there is one. -/
def trailingComment : Pattern :=
  many Text.isBlank ++ optional (literal "//".toList ++ restOfLine)

end Pattern

namespace Language

open Pattern

/-- What a Swift import may be narrowed to. -/
def swiftImportKinds : List Text :=
  ["typealias", "struct", "class", "enum", "protocol", "let", "var", "func"].map String.toList

/-- A Swift import line: attributes, the keyword, what the import is narrowed to, and a dotted
name. -/
def swiftImport : Pattern :=
  textStart ++ many Text.isBlank
    ++ star (literal "@".toList ++ many1 Text.isWord ++ many1 Text.isBlank)
    ++ literal "import".toList ++ many1 Text.isBlank
    ++ optional (anyOf swiftImportKinds ++ many1 Text.isBlank)
    ++ many1 (fun c => Text.isWord c || c == '.')
    ++ trailingComment ++ lineBreak ++ textEnd

/-- A character of what an Objective-C import names: a module, or a file in quotes or brackets. -/
def isImportable (c : Char) : Bool :=
  Text.isWord c || c ∈ ['<', '>', '"', '/', '.', '+', '-']

/-- An Objective-C import line: a module import, or a file that is imported or included. -/
def objectiveCImport : Pattern :=
  textStart ++ many Text.isBlank ++ one (fun c => c == '@' || c == '#') ++ many Text.isBlank
    ++ anyOf ["import".toList, "include".toList] ++ many Text.isBlank
    ++ many1 isImportable ++ many Text.isBlank ++ optional (literal ";".toList)
    ++ trailingComment ++ lineBreak ++ textEnd

/-- A whole line, with its break, that imports something. -/
def anyImport : Language → Pattern
  | swift => swiftImport
  | objectiveC => objectiveCImport

/-- The end of a line: its break, or the end of the text. -/
def importEnd : Pattern := many Text.isBlank ++ (lineBreak <|> lineEnd)

/-- A line, with its break if it has one, that imports one framework. -/
def importOf (language : Language) (framework : Text) : Pattern :=
  match language with
  | swift =>
    lineStart ++ many Text.isBlank ++ literal "import".toList ++ many1 Text.isBlank
      ++ literal framework ++ importEnd
  | objectiveC =>
    lineStart ++ many Text.isBlank ++ literal "@import".toList ++ many1 Text.isBlank
      ++ literal framework ++ many Text.isBlank ++ literal ";".toList ++ importEnd

end Language

end SdkWiring
