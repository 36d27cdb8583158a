import Chip8.Capacity
import Chip8.Text.Hex
import Chip8.Value

/-!
# Memory errors

What devices and the bus refuse.  Unlike a fault of the machine, a memory error means that the
host wired or used the memory wrongly.
-/

namespace Chip8.Memory

inductive CellKind where
  | ram
  | rom
  deriving DecidableEq, Repr

def CellKind.name : CellKind → String
  | .ram => "RAM"
  | .rom => "ROM"

inductive Error where
  | unmapped (address : Int)
  | offsetOutside (offset : Int) (kind : CellKind) (size : Value)
  | notAByte (value : Int)
  | badRange (first last : Int)
  | notADevice (name : String)
  | badSize (kind : CellKind) (size : Value)
  /-- A device must be as large as its range. -/
  | sizeMismatch (kind : CellKind) (size : Value) (span : Int)
  | noRoom (size : Int)
  | tooLarge (e : CapacityError)

def Error.message? : Error → Option String
  | .unmapped address => some s!"No device mapped at {Text.hex 6 address}."
  | .offsetOutside offset kind size =>
    some s!"Offset {offset} outside {kind.name} of {size.quoted} bytes."
  | .notAByte value => some s!"Value {value} does not fit in a byte."
  | .badRange first last =>
    some s!"Invalid address range {Text.hex 0 first}-{Text.hex 0 last}."
  | .notADevice name => some s!"{name} is not a Device."
  | .badSize kind size =>
    some s!"{kind.name} size must be a positive integer, got {size.quoted}."
  | .sizeMismatch kind size span =>
    some s!"{kind.name} of {size.quoted} bytes cannot cover a {span}-byte range."
  | .noRoom size => some s!"Memory size {size} leaves no room above the font region."
  | .tooLarge _ => none

end Chip8.Memory
