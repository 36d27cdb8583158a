import Chip8.Config.Read
import Chip8.Yaml.Reading

/-!
# Settings from documents

A configuration document is a text whose value is a mapping of settings.  A document whose value
counts as false, such as an empty one, gives the standard settings.
-/

namespace Chip8.Settings

inductive DocumentError where
  | unreadable (e : Yaml.Error)
  | unfit (e : Error)

def ofDelivered (delivery : Yaml.Delivery) (text : Text) :
    List Notice × Except DocumentError Settings :=
  match Yaml.read delivery text with
  | .error e => ([], .error (.unreadable e))
  | .ok d =>
    let (notices, settings) := ofDocument (if d.isTrue d.root then d else .ofValue (.map []))
    (notices, settings.mapError .unfit)

def ofText (text : Text) : List Notice × Except DocumentError Settings :=
  ofDelivered .whole text

/-- Brings the line breaks of a file to line feeds. -/
def fileLines : List Letter → List Letter
  | .char '\r' :: .char '\n' :: rest => .char '\n' :: fileLines rest
  | .char '\r' :: rest => .char '\n' :: fileLines rest
  | l :: rest => l :: fileLines rest
  | [] => []

def ofFileText (text : Text) : List Notice × Except DocumentError Settings :=
  ofDelivered .pieces ⟨fileLines text.letters⟩

end Chip8.Settings
