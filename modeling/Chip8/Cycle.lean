import Chip8.Fault
import Chip8.Instruction.Operation
import Chip8.Memory.Bus

/-!
# The instruction cycle

One cycle fetches and decodes the word at the program counter, moves the counter past it,
executes it and records a snapshot.  The cycle is the same for every processor; what a word
means is given by an instruction set.  A fault leaves the counter on the instruction that
failed, so that the host may report it, try it again or reset.
-/

namespace Chip8

/-- Why an action of a processor did not finish: a fault, or a memory wired wrongly. -/
inductive Failure where
  | fault (f : Fault)
  | memory (e : Memory.Error)

/-- What every processor has: a program counter, further registers `ρ`, a bus, further hardware
`δ`, and the number of cycles so far. -/
structure Core (ρ δ : Type) where
  pc : Int
  registers : ρ
  bus : Memory.Bus
  hardware : δ
  cycles : Int := 0

/-- A step of work on a processor that may fail part of the way; what was done before the
failure stays done. -/
abbrev Action (ρ δ : Type) := EStateM Failure (Core ρ δ)

namespace Action

variable {ρ δ : Type}

def raise (f : Fault) : Action ρ δ Unit := fun c => .error (.fault f) c

def readByte (address : Int) : Action ρ δ Int := fun c =>
  match c.bus.read address with
  | .ok (value, bus) => .ok value { c with bus }
  | .error e => .error (.memory e) c

def writeByte (address value : Int) : Action ρ δ Unit := fun c =>
  match c.bus.writeError? address value with
  | none => .ok () { c with bus := c.bus.written address value }
  | some e => .error (.memory e) c

/-- Stores a value past the log and past write protection. -/
def loadByte (address value : Int) : Action ρ δ Unit := fun c =>
  match c.bus.loadError? address value with
  | none => .ok () { c with bus := c.bus.loaded address value }
  | some e => .error (.memory e) c

def readBytes (address : Int) : Nat → Action ρ δ (List Int)
  | 0 => pure []
  | count + 1 => do
    let value ← readByte address
    let rest ← readBytes (address + 1) count
    pure (value :: rest)

def writeBytes (address : Int) : List Int → Action ρ δ Unit
  | [] => pure ()
  | value :: rest => do
    writeByte address value
    writeBytes (address + 1) rest

def readWord (address : Int) : Action ρ δ Int := do
  let high ← readByte address
  let low ← readByte (address + 1)
  pure (high * 256 + low)

def setPc (pc : Int) : Action ρ δ Unit := modify fun c => { c with pc }

def onRegisters (f : ρ → ρ) : Action ρ δ Unit :=
  modify fun c => { c with registers := f c.registers }

end Action

structure InstructionSet (ρ δ : Type) where
  fetch : Action ρ δ Int
  /-- The operation of a word that was fetched; the program counter is still at the word. -/
  decode : (opcode : Int) → Action ρ δ Operation
  /-- Carries out an operation; the program counter is past it already. -/
  execute : Operation → Action ρ δ Unit
  changesDisplay : Operation → Bool
  registerMap : Core ρ δ → List (String × Int)

/-- What is recorded about a cycle: the registers after it, the operation and its address, the
number of cycles including it, and the accesses to the bus. -/
structure Snapshot (ρ : Type) where
  pc : Int
  registers : ρ
  operation : Operation
  address : Int
  cycles : Int
  accesses : List Memory.Access
  displayChanged : Bool
  deriving Inhabited

def Snapshot.info {ρ : Type} (s : Snapshot ρ) : Text :=
  (Text.hex 6 s.address ++ ": ") ++ s.operation.text

namespace Core

variable {ρ δ : Type}

def clearLog (c : Core ρ δ) : Core ρ δ := { c with bus := c.bus.takeLog.2 }

def skip (c : Core ρ δ) (op : Operation) : Core ρ δ :=
  { c with pc := (c.pc + op.length) % 65536 }

def finish (c : Core ρ δ) (op : Operation) : Core ρ δ :=
  { c.clearLog with cycles := c.cycles + op.cycleCount }

/-- Puts back the registers of a snapshot; memory and hardware stay. -/
def restore (c : Core ρ δ) (s : Snapshot ρ) : Core ρ δ :=
  { c with pc := s.pc, registers := s.registers }

end Core

namespace InstructionSet

variable {ρ δ : Type}

def snapshot (isa : InstructionSet ρ δ) (address : Int) (op : Operation) (c : Core ρ δ) :
    Snapshot ρ where
  pc := c.pc
  registers := c.registers
  operation := op
  address := address
  cycles := c.cycles + op.cycleCount
  accesses := c.bus.log
  displayChanged := isa.changesDisplay op

def step (isa : InstructionSet ρ δ) : Action ρ δ (Snapshot ρ) := fun start =>
  let address := start.pc
  match isa.fetch start.clearLog with
  | .error e c => .error e c
  | .ok opcode c =>
    match isa.decode opcode c with
    | .error e c => .error e c
    | .ok op c =>
      match isa.execute op (c.skip op) with
      | .error (.fault f) c => .error (.fault f) { c with pc := address }
      | .error (.memory e) c => .error (.memory e) c
      | .ok () c => .ok (isa.snapshot address op c) (c.finish op)

end InstructionSet

end Chip8
