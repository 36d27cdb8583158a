import Chip8.Calendar
import Chip8.Text.Numeral

/-!
# What can be wrong with a document

A document can break the rules of layout and structure, or hold a scalar that does not spell a
value of its tag.
-/

namespace Chip8.Yaml

inductive Error where
  | malformed (reason : String)
  /-- An escape in quotes names no character: its number is above all code points. -/
  | noSuchCharacter (code : Nat)
  | badInteger (e : Text.NumeralError)
  | badFloat (text : Text)
  | emptyNumber
  | tooManyPlaces
  | badDate (e : Calendar.Error)
  | notABool
  | notATimestamp
  | timestampOfMapping
  | tooDeep
  deriving DecidableEq, Repr

def Error.message? : Error → Option String
  | .noSuchCharacter code =>
    if code < 0x80000000 then some "chr() arg not in range(0x110000)" else none
  | .badInteger e => some e.message
  | .badFloat text => some ("could not convert string to float: " ++ text.quoted)
  | .emptyNumber => some "string index out of range"
  | .badDate e => some e.message
  | .malformed _ | .tooManyPlaces | .notABool | .notATimestamp | .timestampOfMapping
  | .tooDeep => none

end Chip8.Yaml
