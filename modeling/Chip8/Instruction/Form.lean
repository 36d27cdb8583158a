import Chip8.Instruction.Operation
import Chip8.Registers

/-!
# Instruction forms

An instruction form fixes some of the four digits of a word and leaves the others to operands.
The table lists the forms in the order in which a word is compared with them: the words that are
fixed throughout come before the form that would take them in.
-/

namespace Chip8

/-- The digits that a form fixes, the highest first; the others belong to operands. -/
structure Shape where
  third : Nat
  second : Option Nat := none
  first : Option Nat := none
  last : Option Nat := none
  deriving DecidableEq, Repr

namespace Shape

def weigh (a b c d : Nat) : Int := a * 4096 + b * 256 + c * 16 + d

def pattern (s : Shape) : Int :=
  weigh s.third (s.second.getD 0) (s.first.getD 0) (s.last.getD 0)

def mask (s : Shape) : Int :=
  let full (digit : Option Nat) : Nat := if digit.isSome then 15 else 0
  weigh 15 (full s.second) (full s.first) (full s.last)

def fits (digit : Option Nat) (nibble : Int) : Bool :=
  match digit with
  | some d => nibble == d
  | none => true

def accepts (s : Shape) (opcode : Int) : Bool :=
  fits s.third (Opcode.nibble 3 opcode) && fits s.second (Opcode.nibble 2 opcode) &&
    fits s.first (Opcode.nibble 1 opcode) && fits s.last (Opcode.nibble 0 opcode)

end Shape

inductive Form where
  | nop
  | clearDisplay
  | ret
  | sys
  | jump
  | call
  | skipEqByte
  | skipNeByte
  | skipEq
  | loadByte
  | addByte
  | copy
  | or
  | and
  | xor
  | add
  | sub
  | shiftRight
  | subFrom
  | shiftLeft
  | skipNe
  | loadIndex
  | jumpOffset
  | random
  | draw
  | skipPressed
  | skipReleased
  | readDelay
  | waitKey
  | setDelay
  | setSound
  | addIndex
  | pointGlyph
  | storeDecimal
  | storeRegisters
  | loadRegisters
  deriving DecidableEq, Repr

namespace Form

def all : List Form :=
  [nop, clearDisplay, ret, sys, jump, call, skipEqByte, skipNeByte, skipEq, loadByte, addByte,
    copy, or, and, xor, add, sub, shiftRight, subFrom, shiftLeft, skipNe, loadIndex, jumpOffset,
    random, draw, skipPressed, skipReleased, readDelay, waitKey, setDelay, setSound, addIndex,
    pointGlyph, storeDecimal, storeRegisters, loadRegisters]

def shape : Form → Shape
  | nop => ⟨0x0, some 0x0, some 0x0, some 0x0⟩
  | clearDisplay => ⟨0x0, some 0x0, some 0xE, some 0x0⟩
  | ret => ⟨0x0, some 0x0, some 0xE, some 0xE⟩
  | sys => ⟨0x0, none, none, none⟩
  | jump => ⟨0x1, none, none, none⟩
  | call => ⟨0x2, none, none, none⟩
  | skipEqByte => ⟨0x3, none, none, none⟩
  | skipNeByte => ⟨0x4, none, none, none⟩
  | skipEq => ⟨0x5, none, none, some 0x0⟩
  | loadByte => ⟨0x6, none, none, none⟩
  | addByte => ⟨0x7, none, none, none⟩
  | copy => ⟨0x8, none, none, some 0x0⟩
  | or => ⟨0x8, none, none, some 0x1⟩
  | and => ⟨0x8, none, none, some 0x2⟩
  | xor => ⟨0x8, none, none, some 0x3⟩
  | add => ⟨0x8, none, none, some 0x4⟩
  | sub => ⟨0x8, none, none, some 0x5⟩
  | shiftRight => ⟨0x8, none, none, some 0x6⟩
  | subFrom => ⟨0x8, none, none, some 0x7⟩
  | shiftLeft => ⟨0x8, none, none, some 0xE⟩
  | skipNe => ⟨0x9, none, none, some 0x0⟩
  | loadIndex => ⟨0xA, none, none, none⟩
  | jumpOffset => ⟨0xB, none, none, none⟩
  | random => ⟨0xC, none, none, none⟩
  | draw => ⟨0xD, none, none, none⟩
  | skipPressed => ⟨0xE, none, some 0x9, some 0xE⟩
  | skipReleased => ⟨0xE, none, some 0xA, some 0x1⟩
  | readDelay => ⟨0xF, none, some 0x0, some 0x7⟩
  | waitKey => ⟨0xF, none, some 0x0, some 0xA⟩
  | setDelay => ⟨0xF, none, some 0x1, some 0x5⟩
  | setSound => ⟨0xF, none, some 0x1, some 0x8⟩
  | addIndex => ⟨0xF, none, some 0x1, some 0xE⟩
  | pointGlyph => ⟨0xF, none, some 0x2, some 0x9⟩
  | storeDecimal => ⟨0xF, none, some 0x3, some 0x3⟩
  | storeRegisters => ⟨0xF, none, some 0x5, some 0x5⟩
  | loadRegisters => ⟨0xF, none, some 0x6, some 0x5⟩

def pattern (f : Form) : Int := f.shape.pattern

def mnemonic : Form → String
  | nop => "NOP"
  | clearDisplay => "CLS"
  | ret => "RET"
  | sys => "SYS"
  | jump | jumpOffset => "JP"
  | call => "CALL"
  | skipEqByte | skipEq => "SE"
  | skipNeByte | skipNe => "SNE"
  | loadByte | copy | loadIndex | readDelay | waitKey | setDelay | setSound | pointGlyph
  | storeDecimal | storeRegisters | loadRegisters => "LD"
  | addByte | add | addIndex => "ADD"
  | or => "OR"
  | and => "AND"
  | xor => "XOR"
  | sub => "SUB"
  | shiftRight => "SHR"
  | subFrom => "SUBN"
  | shiftLeft => "SHL"
  | random => "RND"
  | draw => "DRW"
  | skipPressed => "SKP"
  | skipReleased => "SKNP"

def byteText (opcode : Int) : String := "#" ++ Text.hexUpper 2 (Opcode.nn opcode)

def addressText (opcode : Int) : String := "#" ++ Text.hexUpper 3 (Opcode.nnn opcode)

def operands (f : Form) (opcode : Int) : List String :=
  let x := registerName (Opcode.x opcode)
  let y := registerName (Opcode.y opcode)
  match f with
  | nop | clearDisplay | ret => []
  | sys | jump | call => [addressText opcode]
  | skipEqByte | skipNeByte | loadByte | addByte | random => [x, byteText opcode]
  | skipEq | skipNe | copy | or | and | xor | add | sub | shiftRight | subFrom | shiftLeft =>
    [x, y]
  | loadIndex => ["I", addressText opcode]
  | jumpOffset => ["V0", addressText opcode]
  | draw => [x, y, Text.hexUpper 0 (Opcode.n opcode)]
  | skipPressed | skipReleased => [x]
  | readDelay => [x, "DT"]
  | waitKey => [x, "K"]
  | setDelay => ["DT", x]
  | setSound => ["ST", x]
  | addIndex => ["I", x]
  | pointGlyph => ["F", x]
  | storeDecimal => ["B", x]
  | storeRegisters => ["[I]", x]
  | loadRegisters => [x, "[I]"]

/-- The form of a word: the first in the table that accepts it. -/
def ofOpcode? (opcode : Int) : Option Form :=
  all.find? fun f => f.shape.accepts opcode

def ofPattern? (pattern : Int) : Option Form :=
  all.find? fun f => f.pattern == pattern

end Form

def Operation.ofForm (f : Form) (opcode : Int) : Operation :=
  { opcode, mnemonic := f.mnemonic, operands := (f.operands opcode).map .ofString
    pattern := f.pattern }

/-- Decodes a word; the address serves only to report a word that matches no form. -/
def Operation.decode (opcode : Int) (address : Option Int) : Except Fault Operation :=
  match Form.ofOpcode? opcode with
  | some f => .ok (.ofForm f opcode)
  | none => .error (.unknownOpcode opcode (Opcode.nibbles opcode) address)

end Chip8
