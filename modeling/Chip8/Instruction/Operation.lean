import Chip8.Text.Basic
import Chip8.Text.Hex

/-!
# Operations

An operation is an instruction word together with what decoding it found out: the mnemonic and
operands for display, the pattern that selects what executing it does, its length in bytes and
the cycles it takes.  The fields of the word are read off its low sixteen bits, so any integer
can stand for a word.
-/

namespace Chip8

namespace Opcode

/-- The hexadecimal digit at a place of a word, place 0 being the last. -/
def nibble (place : Nat) (opcode : Int) : Int := opcode / (Nat.pow 16 place : Nat) % 16

def nibbles (opcode : Int) : List Int :=
  [nibble 3 opcode, nibble 2 opcode, nibble 1 opcode, nibble 0 opcode]

def x (opcode : Int) : Fin 16 := ⟨(opcode / 256 % 16).toNat, by omega⟩

def y (opcode : Int) : Fin 16 := ⟨(opcode / 16 % 16).toNat, by omega⟩

def n (opcode : Int) : Int := opcode % 16

def nn (opcode : Int) : Int := opcode % 256

def nnn (opcode : Int) : Int := opcode % 4096

def text (opcode : Int) : String := Text.hexUpper 4 opcode

end Opcode

structure Operation where
  opcode : Int
  mnemonic : Text
  operands : List Text := []
  pattern : Int := 0
  cycleCount : Int := 1
  length : Int := 2
  deriving DecidableEq, Repr, Inhabited

def Operation.text (op : Operation) : Text :=
  if op.operands.isEmpty then op.mnemonic
  else op.mnemonic ++ " " ++ Text.join ", " op.operands

end Chip8
