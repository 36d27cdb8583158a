import Chip8.Decimal.Reading
import Chip8.Document
import Chip8.Fault

/-!
# Faults told by a host

A host can tell a fault itself, about whatever values it has.  Most values can be put into the
wording; where the wording shows a number in hexadecimal or a difference, only numbers will do.
-/

namespace Chip8

inductive TellError where
  | wrongCount
  /-- A value of some kind has no hexadecimal form; the letter tells its case. -/
  | noHexadecimal (letter : Char) (kindName : String)
  | unfit
  | tooLarge
  | unshown (e : ShowError)
  deriving DecidableEq, Repr

def TellError.message? : TellError → Option String
  | .noHexadecimal letter kindName =>
    some s!"Unknown format code '{letter}' for object of type '{kindName}'"
  | .unshown e => e.message?
  | .wrongCount | .unfit | .tooLarge => none

structure ToldFault where
  kind : FaultKind
  message : Text
  attributes : List (String × Value) := []

namespace ToldFault

def plain (value : Value) : Except TellError Text :=
  value.plain?.mapError .unshown

def hexadecimal (letter : Char) (write : Int → String) (value : Value) :
    Except TellError String :=
  match value.int?, value with
  | some z, _ => .ok (write z)
  | none, .float _ => .error (.noHexadecimal letter value.kindName)
  | none, .text _ => .error (.noHexadecimal letter value.kindName)
  | none, _ => .error .unfit

def hex (width : Nat) : Value → Except TellError String :=
  hexadecimal 'x' (Text.hex width)

def hexUpper : Value → Except TellError String :=
  hexadecimal 'X' (Text.hexUpper 0)

def float (value : Value) : Except TellError Float :=
  match value, value.int? with
  | .float x, _ => .ok x
  | _, some z => match Decimal.intFloat? z with
    | some x => .ok x
    | none => .error .tooLarge
  | _, none => .error .unfit

def difference (a b : Value) : Except TellError Value :=
  match a.int?, b.int? with
  | some m, some n => .ok (.int (m - n))
  | _, _ => return .float ((← float a) - (← float b))

def items : Value → Except TellError (List Value)
  | .list items | .tuple items => .ok items
  | .map entries => .ok (entries.map Prod.fst)
  | .text t => .ok (t.letters.map fun l => .text ⟨[l]⟩)
  | _ => .error .unfit

def noRoom (size load memory : Value) : Except TellError ToldFault := do
  let sizeText ← plain size
  let loadText ← hex 5 load
  let memoryText ← plain memory
  let room ← plain (← difference memory load)
  pure
    { kind := .outOfMemory
      message := Fault.noRoomText sizeText loadText memoryText room
      attributes := [("rom_size", size), ("load_address", load), ("memory_size", memory)] }

def noInstruction (opcode nibbles address : Value) : Except TellError ToldFault := do
  let place ← match address with
    | .null => pure none
    | _ => (hex 5 address).map some
  let digits ← (← items nibbles).mapM hexUpper
  let opcodeText ← hex 6 opcode
  pure
    { kind := .unknownOpcode
      message := Fault.noInstructionText opcodeText place digits
      attributes := [("opcode", opcode), ("nibbles", nibbles), ("address", address)] }

def noMemory (address count : Value) : Except TellError ToldFault := do
  let countText ← plain count
  let addressText ← hex 6 address
  pure
    { kind := .addressOutOfRange
      message := Fault.noMemoryText addressText countText
      attributes := [("address", address), ("count", count)] }

def about (kind : FaultKind) (name : String) (wording : Text → Text) (value : Value) :
    Except TellError ToldFault :=
  (plain value).map fun text => { kind, message := wording text, attributes := [(name, value)] }

/-- A fault in a host's own words: of several values, all are shown. -/
def described : List Value → Except TellError Text
  | [] => .ok ""
  | [value] => plain value
  | values => plain (.tuple values)

def tell (kind : FaultKind) (values : List Value) : Except TellError ToldFault :=
  match kind, values with
  | .outOfMemory, [size, load, memory] => noRoom size load memory
  | .unknownOpcode, [opcode, nibbles] => noInstruction opcode nibbles .null
  | .unknownOpcode, [opcode, nibbles, address] => noInstruction opcode nibbles address
  | .stackUnderflow, [] => .ok { kind := .stackUnderflow, message := Fault.noCallText }
  | .stackOverflow, [limit] => about .stackOverflow "limit" Fault.fullStackText limit
  | .invalidKey, [index] => about .invalidKey "index" Fault.noKeyText index
  | .registerOutOfRange, [index] =>
    about .registerOutOfRange "index" Fault.noRegisterText index
  | .addressOutOfRange, [address] => noMemory address (.int 1)
  | .addressOutOfRange, [address, count] => noMemory address count
  | .described, values =>
    (described values).map fun message => { kind := .described, message }
  | _, _ => .error .wrongCount

end ToldFault

end Chip8
