import SdkWiring.Files.View
import SdkWiring.Journal

/-!
# Pending writes

A write that waits until everything else has succeeded. The new content goes to a temporary file
next to the old one, which then takes its place; so the file is never half written, and a link is
replaced by a file.

* `PendingWrite.install`: one write. If it fails, no temporary file remains.
* `installAll`: several writes, up to the first that fails.
-/

namespace SdkWiring

/-- A file that waits to be written. -/
structure PendingWrite where
  path : Path
  /-- What the file held when it was read, if it was there. -/
  previous : Option Text
  content : Text
  deriving DecidableEq, Repr

namespace PendingWrite

/-- Whether the write changes anything. -/
def isChanged (w : PendingWrite) : Bool := w.previous != some w.content

/-- The temporary file that holds the new content, told apart from others by a stamp. -/
def temporary (w : PendingWrite) (stamp : String) : Path :=
  w.path.withFileName ("." ++ w.path.fileName?.getD "" ++ ".tmp-" ++ stamp)

/-- The view after a write. -/
def install (w : PendingWrite) (stamp : String) (v : View) : View × Except Fault Unit :=
  match v.write (w.temporary stamp) (.text w.content) with
  | .error f => (v, .error f)
  | .ok written =>
    match written.rename (w.temporary stamp) w.path with
    | .ok installed => (installed, .ok ())
    | .error f =>
      match written.remove (w.temporary stamp) with
      | .ok cleaned => (cleaned, .error f)
      | .error _ => (written, .error f)

/-- The event that a file is being written. -/
def event (w : PendingWrite) : Event := ⟨.info, .plan, "writing", [("path", w.path.text)]⟩

end PendingWrite

/-- The view after several writes, up to the first that fails. -/
def installAll (stamp : String) (v : View) : List PendingWrite → View × Traced Unit
  | [] => (v, pure ())
  | w :: rest =>
    match w.install stamp v with
    | (v, .error f) => (v, ⟨[w.event], .error (.file f)⟩)
    | (v, .ok ()) =>
      let (v, done) := installAll stamp v rest
      (v, ⟨w.event :: done.events, done.result⟩)

end SdkWiring
