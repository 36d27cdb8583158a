import Chip8.Cycle

/-!
# Scripted processors

A processor whose instructions are given by a table: for each word the operation it decodes to
and a script of what executing it does.  It has a program counter and a stack pointer only, and
serves to watch the instruction cycle itself.
-/

namespace Chip8

inductive ScriptStep where
  | write (address value : Int)
  | read (address : Int)
  | pc (value : Int)
  | sp (amount : Int)
  | fault (text : Text)
  deriving DecidableEq, Repr

structure ScriptEntry where
  operation : Operation
  script : List ScriptStep := []

/-- The part of a scripted processor that its instructions work on; the registers are the stack
pointer alone. -/
abbrev ScriptCore := Core Int Unit

namespace ScriptStep

def perform : ScriptStep → Action Int Unit Unit
  | .write address value => Action.writeByte address value
  | .read address => do let _ ← Action.readByte address
  | .pc value => Action.setPc value
  | .sp amount => Action.onRegisters (· + amount)
  | .fault text => Action.raise (.described text)

def performAll : List ScriptStep → Action Int Unit Unit
  | [] => pure ()
  | step :: rest => do
    step.perform
    performAll rest

end ScriptStep

/-- The entry of a word: the first with that word. -/
def entryOf? (table : List ScriptEntry) (opcode : Int) : Option ScriptEntry :=
  table.find? fun entry => entry.operation.opcode == opcode

def scriptedSet (table : List ScriptEntry) : InstructionSet Int Unit where
  fetch := fun c => Action.readWord c.pc c
  decode := fun opcode c =>
    match entryOf? table opcode with
    | some entry => .ok entry.operation c
    | none => .error (.fault (.unknownOpcode opcode [0, 0, 0, 0] (some c.pc))) c
  execute := fun op => ScriptStep.performAll ((entryOf? table op.opcode).map (·.script) |>.getD [])
  changesDisplay := fun _ => false
  registerMap := fun c => [("PC", c.pc), ("SP", c.registers)]

def ScriptCore.create (pc : Int) (bus : Memory.Bus) : ScriptCore :=
  { pc, registers := 0, bus, hardware := () }

def ScriptCore.reset (c : ScriptCore) (pc : Int) : ScriptCore :=
  { c with pc, registers := 0, cycles := 0 }

end Chip8
