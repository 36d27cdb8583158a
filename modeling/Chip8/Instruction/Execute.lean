import Chip8.Cycle
import Chip8.Display
import Chip8.Instruction.Arithmetic
import Chip8.Instruction.Form
import Chip8.Keypad
import Chip8.Setup

/-!
# What instructions do

Each form of instruction as an action on the machine.  The program counter is past the
instruction already.  Whatever can fail is checked before anything is changed.
-/

namespace Chip8

/-- What instructions work on besides registers and memory.  How far memory goes is settled when a
machine is built: regions attached to its bus later do not count. -/
structure Hardware where
  display : Display
  keypad : Keypad
  random : Random.Stream
  memorySize : Int

abbrev MachineCore := Core Registers Hardware

abbrev Instruction := Action Registers Hardware

namespace Instruction

open Chip8.Action

/-- Fails unless `count` bytes from `start` on lie in memory. -/
def checkRange (start count : Int) : Instruction Unit := fun c =>
  if start < 0 ∨ c.hardware.memorySize < start + count then
    .error (.fault (.addressOutOfRange start count)) c
  else .ok () c

def registers : Instruction Registers := fun c => .ok c.registers c

def setV (n : Fin 16) (value : Int) : Instruction Unit :=
  onRegisters fun r => r.set n value

def setIndex (value : Int) : Instruction Unit :=
  onRegisters fun r => { r with index := value % 65536 }

def moveBy (distance : Int) : Instruction Unit :=
  modify fun c => { c with pc := (c.pc + distance) % 65536 }

def skipIf (condition : Registers → Bool) : Instruction Unit := do
  if condition (← registers) then moveBy 2

def ret : Instruction Unit := fun c =>
  match c.registers.pop with
  | .ok (address, registers) => .ok () { c with pc := address, registers }
  | .error f => .error (.fault f) c

def call (limit : Option Int) (target : Int) : Instruction Unit := fun c =>
  match c.registers.push limit c.pc with
  | .ok registers => .ok () { c with pc := target, registers }
  | .error f => .error (.fault f) c

def keyPressed (value : Int) : Instruction Bool := fun c =>
  .ok (c.hardware.keypad.pressed (Keypad.ofLowDigit value)) c

def skipIfKey (pressed : Bool) (x : Fin 16) : Instruction Unit := do
  if (← keyPressed ((← registers).get x)) = pressed then moveBy 2

/-- Puts the lowest pressed key in a register; while there is none, the instruction is repeated. -/
def waitKey (x : Fin 16) : Instruction Unit := do
  match (← get).hardware.keypad.first? with
  | some key => setV x key.val
  | none => moveBy (-2)

def clearDisplay : Instruction Unit :=
  modify fun c => { c with hardware := { c.hardware with display := c.hardware.display.clear } }

def draw (x y : Fin 16) (rows : Int) : Instruction Unit := do
  let r ← registers
  checkRange r.index rows
  let sprite ← readBytes r.index rows.toNat
  modify fun c =>
    let (display, hit) := c.hardware.display.draw (r.get x) (r.get y) sprite
    { c with
      registers := c.registers.setFlag (if hit then 1 else 0)
      hardware := { c.hardware with display } }

def drawByte : Instruction Int := fun c =>
  let (byte, random) := c.hardware.random.draw
  .ok byte { c with hardware := { c.hardware with random } }

def upTo (x : Fin 16) : List (Fin 16) :=
  (List.finRange 16).take (x.val + 1)

/-- Moves the index register past the registers transferred, if the dialect says so. -/
def passIndex (dialect : Dialect) (x : Fin 16) : Instruction Unit := do
  if dialect.movesIndex then setIndex ((← registers).index + (x.val + 1))

def storeDecimal (x : Fin 16) : Instruction Unit := do
  let r ← registers
  let value := r.get x
  checkRange r.index 3
  writeBytes r.index [value / 100, value / 10 % 10, value % 10]

def storeRegisters (dialect : Dialect) (x : Fin 16) : Instruction Unit := do
  let r ← registers
  checkRange r.index (x.val + 1)
  writeBytes r.index ((upTo x).map r.get)
  passIndex dialect x

def loadEach (address : Int) : List (Fin 16) → Instruction Unit
  | [] => pure ()
  | n :: rest => do
    setV n (← readByte address)
    loadEach (address + 1) rest

def loadRegisters (dialect : Dialect) (x : Fin 16) : Instruction Unit := do
  let r ← registers
  checkRange r.index (x.val + 1)
  loadEach r.index (upTo x)
  passIndex dialect x

def ofForm (setup : Setup) (form : Form) (opcode : Int) : Instruction Unit :=
  let x := Opcode.x opcode
  let y := Opcode.y opcode
  let nn := Opcode.nn opcode
  let nnn := Opcode.nnn opcode
  let clears := setup.dialect.logicClearsFlag
  let source := if setup.dialect.shiftsSecond then y else x
  match form with
  | .nop | .sys => pure ()
  | .clearDisplay => clearDisplay
  | .ret => ret
  | .jump => setPc nnn
  | .call => call setup.stackLimit nnn
  | .skipEqByte => skipIf fun r => r.get x == nn
  | .skipNeByte => skipIf fun r => r.get x != nn
  | .skipEq => skipIf fun r => r.get x == r.get y
  | .skipNe => skipIf fun r => r.get x != r.get y
  | .loadByte => setV x nn
  | .addByte => onRegisters (Registers.addByte x nn)
  | .copy => onRegisters fun r => r.set x (r.get y)
  | .or => onRegisters (Registers.combine Registers.byteOr clears x y)
  | .and => onRegisters (Registers.combine Registers.byteAnd clears x y)
  | .xor => onRegisters (Registers.combine Registers.byteXor clears x y)
  | .add => onRegisters (Registers.add x y)
  | .sub => onRegisters (Registers.sub x y)
  | .subFrom => onRegisters (Registers.subFrom x y)
  | .shiftRight => onRegisters (Registers.shiftRight x source)
  | .shiftLeft => onRegisters (Registers.shiftLeft x source)
  | .loadIndex => onRegisters fun r => { r with index := nnn }
  | .jumpOffset => do setPc (((← registers).get Registers.offsetNumber + nnn) % 65536)
  | .random => do setV x (Registers.byteAnd (← drawByte) nn)
  | .draw => draw x y (Opcode.n opcode)
  | .skipPressed => skipIfKey true x
  | .skipReleased => skipIfKey false x
  | .readDelay => onRegisters fun r => r.set x r.delay
  | .waitKey => waitKey x
  | .setDelay => onRegisters fun r => { r with delay := r.get x }
  | .setSound => onRegisters fun r => { r with sound := r.get x }
  | .addIndex => do setIndex ((← registers).index + (← registers).get x)
  | .pointGlyph => do setIndex ((← registers).get x * Memory.glyphSize)
  | .storeDecimal => storeDecimal x
  | .storeRegisters => storeRegisters setup.dialect x
  | .loadRegisters => loadRegisters setup.dialect x

/-- Carries out an operation: its pattern selects what is done, its word supplies the fields. -/
def execute (setup : Setup) (op : Operation) : Instruction Unit :=
  match Form.ofPattern? op.pattern with
  | some form => ofForm setup form op.opcode
  | none => raise (.unknownOpcode op.opcode (Opcode.nibbles op.opcode) none)

/-- The word at the program counter, which must lie in memory with both bytes. -/
def fetch : Instruction Int := fun c =>
  if c.hardware.memorySize ≤ c.pc + 1 then .error (.fault (.addressOutOfRange c.pc 2)) c
  else readWord c.pc c

def decode (opcode : Int) : Instruction Operation := fun c =>
  match Operation.decode opcode (some c.pc) with
  | .ok op => .ok op c
  | .error f => .error (.fault f) c

end Instruction

def registerMap (pc : Int) (r : Registers) : List (String × Int) :=
  (List.finRange 16).map (fun n => (registerName n, r.get n)) ++
    [("I", r.index), ("PC", pc), ("SP", r.depth), ("DT", r.delay), ("ST", r.sound)]

def instructionSet (setup : Setup) : InstructionSet Registers Hardware where
  fetch := Instruction.fetch
  decode := Instruction.decode
  execute := Instruction.execute setup
  changesDisplay := fun op =>
    op.pattern == Form.clearDisplay.pattern || op.pattern == Form.draw.pattern
  registerMap := fun c => Chip8.registerMap c.pc c.registers

end Chip8
