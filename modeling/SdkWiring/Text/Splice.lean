import SdkWiring.Text.Basic

/-!
# Splicing edits into a text

An edit replaces a range of byte offsets. All edits of a list refer to the text as it is before any
of them, so none has to account for the shifts that others cause.

* `Splice.accepted`: the edits that take effect, in order: one that starts before the end of an
  earlier one, or ends past the text, is left out.
* `splice`: the text with the accepted edits applied in one pass. It fails where an edit does not
  fall on character boundaries.
-/

namespace SdkWiring

/-- Replaces the bytes from `start` to `stop` by a text. -/
structure Edit where
  start : Nat
  stop : Nat
  replacement : Text
  deriving DecidableEq, Repr

namespace Edit

/-- Writes a text at an offset. -/
def insert (offset : Nat) (t : Text) : Edit := ⟨offset, offset, t⟩

/-- Takes the bytes of a range away. -/
def delete (start stop : Nat) : Edit := ⟨start, stop, []⟩

/-- The order of application: by start, then by end, so that an insertion comes before a deletion
that starts at the same place. -/
def before (a b : Edit) : Bool :=
  a.start < b.start || (a.start == b.start && a.stop ≤ b.stop)

end Edit

namespace Splice

/-- The edits that take effect on a text of the given size, when those up to `cursor` are done. -/
def accepted (size : Nat) : Nat → List Edit → List Edit
  | _, [] => []
  | cursor, e :: rest =>
    if e.start < cursor ∨ size < e.stop then accepted size cursor rest
    else e :: accepted size e.stop rest

/-- The text from `cursor` on with edits applied that do not overlap. -/
def apply (content : Text) : Nat → List Edit → Option Text
  | cursor, [] => (content.splitAt? cursor).map (·.2)
  | cursor, e :: rest => do
    let kept ← content.slice? cursor e.start
    let tail ← apply content e.stop rest
    some (kept ++ e.replacement ++ tail)

end Splice

/-- A text with edits applied, or nothing if an edit that takes effect does not fall on character
boundaries. -/
def splice (content : Text) (edits : List Edit) : Option Text :=
  Splice.apply content 0 (Splice.accepted content.size 0 (edits.mergeSort Edit.before))

/-- Without edits a text stays as it is. -/
@[simp] theorem splice_nil (content : Text) : splice content [] = some content := by
  simp [splice, Splice.accepted, Splice.apply]

end SdkWiring
