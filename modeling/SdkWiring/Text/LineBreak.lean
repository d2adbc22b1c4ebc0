import SdkWiring.Text.Basic

/-!
# Line breaks

A file is written either with line feeds or with carriage return and line feed. One `\r\n` is
enough to take the whole file for the second kind.
-/

namespace SdkWiring

/-- The two kinds of line break. -/
inductive LineBreak
  /-- A line feed. -/
  | lf
  /-- A carriage return and a line feed. -/
  | crlf
  deriving DecidableEq, Repr

namespace LineBreak

/-- The characters of a line break. -/
def text : LineBreak → Text
  | lf => ['\n']
  | crlf => ['\r', '\n']

/-- The kind of line break of a file. -/
def detect (content : Text) : LineBreak :=
  if content.contains ['\r', '\n'] then crlf else lf

theorem endsLine_text (b : LineBreak) : b.text.endsLine = true := by
  cases b <;> rfl

end LineBreak

end SdkWiring
