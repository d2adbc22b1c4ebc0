import SdkWiring.Files.View
import SdkWiring.Journal
import SdkWiring.Settings.Reader

/-!
# Loading settings

The settings file is the first of several candidates that is a file.

* `View.settingsFile?`: the settings file of a directory.
* `View.loadSettings`: its settings; without one, those that hold where nothing is said.
-/

namespace SdkWiring

/-- The settings file of a directory. -/
def View.settingsFile? (v : View) (root : Path) : Option Path :=
  (Settings.fileNames.map fun name => root.append (.ofString name)).find? v.isFile

/-- The settings that a text gives. -/
def Settings.parse (content : Text) : Except Problem Settings :=
  match Settings.parse? content with
  | none => .error .malformedSettings
  | some s => .ok s

/-- The settings of a directory. -/
def View.loadSettings (v : View) (root : Path) : Traced Settings :=
  match v.settingsFile? root with
  | none => pure {}
  | some file => do
    Traced.tell [⟨.debug, .settings, "loading config", [("path", file.text)]⟩]
    let content ← Traced.ofExcept ((v.read file).mapError Problem.file)
    Traced.ofExcept (Settings.parse content)

end SdkWiring
