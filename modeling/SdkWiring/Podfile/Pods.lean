import SdkWiring.Podfile.PodLine
import SdkWiring.Text.LineBreak

/-!
# Pods of a target

A Podfile lists the pods of a target in a block that ends with an `end` at the start of a line. All
that was written around the pod lines stays as it is.

* `Podfile.targetBlock?`: the block of a target, up to its `end`.
* `Podfile.addPod`: adds a pod to the block of a target, unless the block lists it. Without a block
  the pod goes to the end of the file, unless the file lists it.
-/

namespace SdkWiring.Podfile

open Pattern

/-- The Podfile of a project that has none yet. -/
def initial (target platform : Text) (eol : LineBreak) : Text :=
  "platform :ios, '".toList ++ platform ++ "'".toList ++ eol.text
    ++ "target '".toList ++ target ++ "' do".toList ++ eol.text
    ++ "  use_frameworks!".toList ++ eol.text
    ++ "end".toList ++ eol.text

/-- The opening of the block of a target. -/
def targetOpening (target : Text) : Pattern :=
  literal "target".toList ++ many1 Text.isBlank ++ quoted target ++ many1 Text.isBlank
    ++ literal "do".toList ++ border

/-- The block of a target up to the first line that starts with `end`. -/
def targetPattern (target : Text) : Pattern :=
  targetOpening target ++ few (fun _ => true) ++ literal ['\n']
    ++ guard (literal "end".toList ++ border).matchesAt

/-- Where the block of a target starts, and where its `end` stands. -/
def targetBlock? (content target : Text) : Option (Cursor × Cursor) :=
  (targetPattern target).find? (.start content)

/-- Where a pod has to be written. -/
inductive Placement
  /-- It is listed already. -/
  | listed
  /-- At the end of the block of the target. -/
  | inTarget (place : Cursor)
  /-- At the end of the file. -/
  | atEnd
  deriving DecidableEq, Repr

/-- Where a pod has to be written. -/
def placement (content target pod : Text) : Placement :=
  match targetBlock? content target with
  | some (start, stop) => if lists (start.upTo stop) pod then .listed else .inTarget stop
  | none => if lists content pod then .listed else .atEnd

/-- The line that lists a pod. -/
def newLine (pod : Text) (eol : LineBreak) : Text :=
  "pod '".toList ++ pod ++ "'".toList ++ eol.text

/-- The text with its last line ended. -/
def endLastLine (content : Text) (eol : LineBreak) : Text :=
  if content.isEmpty || content.endsLine then content else content ++ eol.text

/-- A Podfile with a pod for a target. -/
def addPod (content target pod : Text) : Text :=
  let eol := LineBreak.detect content
  match placement content target pod with
  | .listed => content
  | .inTarget place =>
    place.before.reverse ++ "  ".toList ++ newLine pod eol ++ place.after
  | .atEnd => endLastLine content eol ++ newLine pod eol

/-- A Podfile with several pods for a target. -/
def addPods (content target : Text) (pods : List Text) : Text :=
  pods.foldl (fun content pod => addPod content target pod) content

/-- A Podfile without several pods. -/
def withoutPods (content : Text) (pods : List Text) : Text :=
  pods.foldl withoutPod content

end SdkWiring.Podfile
