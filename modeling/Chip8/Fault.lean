import Chip8.Text.Hex
import Chip8.Value

/-!
# Machine faults

A fault is what the machine itself detects and a host can recover from by stopping, resetting
or going on.
-/

namespace Chip8

inductive FaultKind where
  | outOfMemory
  | unknownOpcode
  | stackUnderflow
  | stackOverflow
  | invalidKey
  | registerOutOfRange
  | addressOutOfRange
  | described
  deriving DecidableEq, Repr

namespace FaultKind

def all : List FaultKind :=
  [outOfMemory, unknownOpcode, stackUnderflow, stackOverflow, invalidKey, registerOutOfRange,
    addressOutOfRange, described]

def name : FaultKind → String
  | outOfMemory => "OutOfMemory"
  | unknownOpcode => "UnknownOpcode"
  | stackUnderflow => "StackUnderflow"
  | stackOverflow => "StackOverflow"
  | invalidKey => "InvalidKey"
  | registerOutOfRange => "RegisterIndexOutOfRange"
  | addressOutOfRange => "AddressOutOfRange"
  | described => "Chip8Error"

/-- Whether a fault of a kind is also a failed look-up by position. -/
def isLookup (kind : FaultKind) : Bool := kind == .addressOutOfRange

end FaultKind

inductive Fault where
  | outOfMemory (imageSize loadAddress memorySize : Int)
  /-- A word matches no instruction; the address is absent when the word was not fetched. -/
  | unknownOpcode (opcode : Int) (nibbles : List Int) (address : Option Int)
  | stackUnderflow
  | stackOverflow (limit : Int)
  | invalidKey (index : Value)
  | registerOutOfRange (index : Int)
  | addressOutOfRange (address count : Int)
  /-- A fault that a processor describes in its own words. -/
  | described (text : Text)

namespace Fault

def kind : Fault → FaultKind
  | .outOfMemory _ _ _ => .outOfMemory
  | .unknownOpcode _ _ _ => .unknownOpcode
  | .stackUnderflow => .stackUnderflow
  | .stackOverflow _ => .stackOverflow
  | .invalidKey _ => .invalidKey
  | .registerOutOfRange _ => .registerOutOfRange
  | .addressOutOfRange _ _ => .addressOutOfRange
  | .described _ => .described

def attributes : Fault → List (String × Value)
  | .outOfMemory imageSize loadAddress memorySize =>
    [("rom_size", .int imageSize), ("load_address", .int loadAddress),
      ("memory_size", .int memorySize)]
  | .unknownOpcode opcode nibbles address =>
    [("opcode", .int opcode), ("nibbles", .list (nibbles.map .int)),
      ("address", (address.map .int).getD .null)]
  | .stackOverflow limit => [("limit", .int limit)]
  | .invalidKey index => [("index", index)]
  | .registerOutOfRange index => [("index", .int index)]
  | .addressOutOfRange address count => [("address", .int address), ("count", .int count)]
  | .stackUnderflow | .described _ => []

/-! ## Wording

What the host is told, from the texts of what the fault is about. -/

def noRoomText (imageSize loadAddress memorySize room : Text) : Text :=
  "ROM of " ++ imageSize ++ " bytes does not fit at " ++ loadAddress ++
    " (memory size " ++ memorySize ++ " bytes, " ++ room ++ " bytes available)."

def noInstructionText (opcode : String) (address : Option String) (digits : List String) : String :=
  let place := (address.map (" at " ++ ·)).getD ""
  let fields := ", ".intercalate digits
  s!"Unknown opcode {opcode}{place} (nibbles: {fields})"

def noCallText : String := "Return from subroutine with an empty call stack."

def fullStackText (limit : Text) : Text :=
  "Call stack exceeded its limit of " ++ limit ++ " return addresses."

def noKeyText (index : Text) : Text :=
  "Key index " ++ index ++ " is outside the keypad range 0-15."

def noRegisterText (index : Text) : Text :=
  "Register index " ++ index ++ " is outside V0-VF."

def noMemoryText (address : String) (count : Text) : Text :=
  "Memory access of " ++ count ++ " byte(s) at " ++ address ++ " exceeds the address space."

def message : Fault → Text
  | .outOfMemory imageSize loadAddress memorySize =>
    noRoomText (toString imageSize) (Text.hex 5 loadAddress) (toString memorySize)
      (toString (memorySize - loadAddress))
  | .unknownOpcode opcode nibbles address =>
    noInstructionText (Text.hex 6 opcode) (address.map (Text.hex 5))
      (nibbles.map (Text.hexUpper 0))
  | .stackUnderflow => noCallText
  | .stackOverflow limit => fullStackText (toString limit)
  | .invalidKey index => noKeyText index.plain
  | .registerOutOfRange index => noRegisterText (toString index)
  | .addressOutOfRange address count => noMemoryText (Text.hex 6 address) (toString count)
  | .described text => text

end Fault

end Chip8
