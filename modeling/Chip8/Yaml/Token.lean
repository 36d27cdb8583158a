import Chip8.Text.Basic

/-!
# Tokens

The tokens of a document.  Besides the marks that stand in the text there are tokens for the
start and end of collections that only indentation shows.
-/

namespace Chip8.Yaml

/-- A tag as it is written: behind a handle, or in full. -/
structure TagName where
  handle : Option String
  suffix : String
  deriving DecidableEq, Repr

inductive Directive where
  | version (major : Nat)
  | handle (name meaning : String)
  | other
  deriving DecidableEq, Repr

inductive Token where
  | directive (d : Directive)
  | documentStart
  | documentEnd
  | blockSequenceStart
  | blockMappingStart
  | blockEnd
  | flowSequenceStart
  | flowSequenceEnd
  | flowMappingStart
  | flowMappingEnd
  | blockEntry
  | flowEntry
  | key
  | value
  | alias (name : String)
  | anchor (name : String)
  | tag (name : TagName)
  | scalar (text : Text) (plain : Bool)
  deriving DecidableEq, Repr

end Chip8.Yaml
