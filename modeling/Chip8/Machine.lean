import Chip8.Image
import Chip8.Instruction.Execute
import Chip8.Tone

/-!
# The machine

The whole machine as a host sees it: it loads programs, advances by one instruction at a time,
counts its timers down when told to, takes key presses, and can be reset to the state it was
built in.  Every operation gives the machine afterwards, also when it failed.
-/

namespace Chip8

/-- A machine: what is fixed, what instructions work on, and the tone. -/
structure Machine where
  setup : Setup
  core : MachineCore
  tone : Tone

def Machine.create (setup : Setup) (bus : Memory.Bus) : Machine where
  setup := setup
  core :=
    { pc := setup.loadAddress
      registers := {}
      bus := bus
      hardware :=
        { display := Display.standard, keypad := {}, random := setup.stream,
          memorySize := bus.size } }
  tone := {}

namespace Machine

/-- Loads a program image at the load address; one that does not fit is refused whole. -/
def load (m : Machine) (image : Image) : Machine × Except Failure Unit :=
  let address := m.setup.loadAddress
  let size := m.core.hardware.memorySize
  if size < address + image.size then
    (m, .error (.fault (.outOfMemory image.size address size)))
  else
    match m.core.bus.loadAll address image.toList with
    | (bus, none) => ({ m with core := { m.core with bus } }, .ok ())
    | (bus, some e) => ({ m with core := { m.core with bus } }, .error (.memory e))

def run {α : Type} (m : Machine) (action : Instruction α) : Machine × Except Failure α :=
  match action m.core with
  | .ok value core => ({ m with core }, .ok value)
  | .error e core => ({ m with core }, .error e)

def advance (m : Machine) : Machine × Except Failure (Snapshot Registers) :=
  m.run (instructionSet m.setup).step

/-- Decodes a word and executes it, without a cycle around it. -/
def executeWord (m : Machine) (opcode : Int) : Machine × Except Failure Unit :=
  match Operation.decode opcode none with
  | .ok op => m.run (Instruction.execute m.setup op)
  | .error f => (m, .error (.fault f))

/-- Counts both timers down by one tick; `script` says what listeners do when they are called. -/
def tick (m : Machine) (script : Text → List ToneAction) : Machine × List ToneEvent :=
  let (registers, tone, events) := tickTimers script m.core.registers m.tone
  ({ m with core := { m.core with registers }, tone }, events)

def setKey (m : Machine) (index : Value) (down : Bool) : Machine × Except Failure Unit :=
  match m.core.hardware.keypad.set index down with
  | .ok keypad =>
    ({ m with core := { m.core with hardware := { m.core.hardware with keypad } } }, .ok ())
  | .error f => (m, .error (.fault f))

def resetCore (m : Machine) : MachineCore × Option Memory.Error :=
  let (bus, problem) := m.core.bus.clearWritable.loadFont
  ({ m.core with pc := m.setup.loadAddress, registers := {}, cycles := 0, bus }, problem)

/-- Brings the machine back to the state it was built in; the random stream goes on and the
listeners stay. -/
def reset (m : Machine) : Machine × Except Failure Unit :=
  match m.resetCore with
  | (core, some e) => ({ m with core }, .error (.memory e))
  | (core, none) =>
    let core := core.clearLog
    let hardware := { core.hardware with
      display := core.hardware.display.clear
      keypad := core.hardware.keypad.releaseAll }
    ({ m with core := { core with hardware }, tone := m.tone.reset }, .ok ())

def restore (m : Machine) (pc : Int) (registers : Registers) : Machine :=
  { m with core := { m.core with pc, registers } }

def consumeTone (m : Machine) : Machine × Bool :=
  let (latched, tone) := m.tone.consume
  ({ m with tone }, latched)

def toneActive (m : Machine) : Bool := 0 < m.core.registers.sound

def takeIgnored (m : Machine) : Machine × List Memory.IgnoredWrite :=
  let (notices, bus) := m.core.bus.takeIgnored
  ({ m with core := { m.core with bus } }, notices)

def registerMap (m : Machine) : List (String × Int) :=
  (instructionSet m.setup).registerMap m.core

/-- How the registers are grouped for display, with their widths in bits. -/
def registerLayout : List (String × List (String × Nat)) :=
  [("General", (List.finRange 16).map fun n => (registerName n, 8)),
    ("Pointers", [("I", 16), ("PC", 16), ("SP", 8)]),
    ("Timers", [("DT", 8), ("ST", 8)])]

def flags (m : Machine) : List (String × Bool) :=
  [("VF", m.core.registers.flag != 0), ("SOUND", m.toneActive)]

end Machine

end Chip8
