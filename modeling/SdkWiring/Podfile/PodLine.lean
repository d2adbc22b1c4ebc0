import SdkWiring.Text.Pattern

/-!
# Pod lines

A Podfile names a pod on a line of its own. The name stands in quotes of either kind and any options
may follow. A line that is commented out does not count.

* `Podfile.podLine`: the pattern of a line for one pod.
* `Podfile.lists`: whether a text has such a line.
* `Podfile.withoutPod`: a text without them.
-/

namespace SdkWiring

namespace Cursor

/-- The text from one place to a later one. -/
def upTo (c d : Cursor) : Text := c.after.take (c.after.length - d.after.length)

end Cursor

namespace Podfile

open Pattern

/-- A quote of either kind. -/
def quote : Pattern := one fun c => c == '\'' || c == '"'

/-- A name between quotes. -/
def quoted (name : Text) : Pattern := quote ++ literal name ++ quote

/-- A line for one pod, with its line feed if it has one. -/
def podLine (pod : Text) : Pattern :=
  lineStart ++ many Text.isBlank ++ literal "pod".toList ++ many1 Text.isBlank ++ quoted pod
    ++ many (· != '\n') ++ (literal ['\n'] <|> lineEnd)

/-- Whether a text has a line for a pod. -/
def lists (content pod : Text) : Bool := (podLine pod).occursIn content

/-- The lines for a pod, from a place on. -/
def podLines (content pod : Text) : List (Cursor × Cursor) :=
  (podLine pod).findAll (.start content)

/-- The text from a place on without the given parts of it. -/
def outside (c : Cursor) : List (Cursor × Cursor) → Text
  | [] => c.after
  | (start, stop) :: rest => c.upTo start ++ outside stop rest

/-- A Podfile without any line for a pod. -/
def withoutPod (content pod : Text) : Text :=
  outside (.start content) (podLines content pod)

end Podfile

end SdkWiring
