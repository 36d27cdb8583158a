import Chip8.Debug.Debugger
import Chip8.Machine

/-!
# The host

A host works with a machine through requests: it loads programs, advances, ticks the timers,
sets keys, resets, puts back what it has seen, and debugs.  It keeps the snapshots of the
instructions that it had executed one by one.  Every request gets a reply, and the host goes on
whatever the reply was.
-/

namespace Chip8

inductive Request where
  | load (image : Value)
  | advance
  /-- Decode a word and execute it without a cycle. -/
  | execute (opcode : Int)
  | tick
  | setKey (index : Value) (down : Bool)
  | reset
  /-- Put back the registers of an earlier snapshot, by its place among them. -/
  | restore (number : Int)
  | consumeTone
  | addListener (name : Text)
  | removeListener (name : Text)
  | readBus (address : Int)
  | writeBus (address value : Int)
  | loadBus (address value : Int)
  /-- Start debugging afresh. -/
  | debug (limit : Int)
  | addBreakpoint (bp : Breakpoint)
  | removeBreakpoint (bp : Breakpoint)
  | updateBreakpoint (old new : Breakpoint)
  | debugStep
  | debugRun (budget : Nat) (stopAfter : Option Nat)
  | debugStop
  | clearHistory

inductive Answer where
  | done
  | value (n : Int)
  | flag (b : Bool)
  | snapshot (s : Snapshot Registers)
  | latest (s : Option (Snapshot Registers))

inductive Refusal where
  | failure (e : Failure)
  | image (e : Image.Error)
  | badLimit (e : Debugger.LimitError)
  | run (e : Debugger.RunError)
  | noSnapshot (e : PlaceError)

structure Reply where
  result : Except Refusal Answer
  ignored : List Memory.IgnoredWrite := []
  events : List ToneEvent := []
  report : Option Report := none

/-- A machine under a host; `script` says what the listeners do when they are called. -/
structure Host where
  machine : Machine
  script : Text → List ToneAction := fun _ => []
  snapshots : Array (Snapshot Registers) := #[]
  debugger : Debugger Registers := { limit := Debugger.standardLimit.toNat }

namespace Host

def outcome {α : Type} (answer : α → Answer) : Except Failure α → Reply
  | .ok a => { result := .ok (answer a) }
  | .error e => { result := .error (.failure e) }

def keep (h : Host) : Except Failure (Snapshot Registers) → Host
  | .ok s => { h with snapshots := h.snapshots.push s }
  | .error _ => h

def withMachine {α : Type} (h : Host) (answer : α → Answer) :
    Machine × Except Failure α → Host × Reply
  | (machine, result) => ({ h with machine }, outcome answer result)

/-- Carries a request out; notices of ignored writes are left with the machine. -/
def perform (h : Host) : Request → Host × Reply
  | .load image =>
    match Image.ofValue image with
    | .ok image => h.withMachine (fun _ => .done) (h.machine.load image)
    | .error e => (h, { result := .error (.image e) })
  | .advance =>
    let (machine, result) := h.machine.advance
    (keep { h with machine } result, outcome .snapshot result)
  | .execute opcode => h.withMachine (fun _ => .done) (h.machine.executeWord opcode)
  | .tick =>
    let (machine, events) := h.machine.tick h.script
    ({ h with machine }, { result := .ok .done, events })
  | .setKey index down => h.withMachine (fun _ => .done) (h.machine.setKey index down)
  | .reset => h.withMachine (fun _ => .done) h.machine.reset
  | .restore number =>
    match itemAt h.snapshots number with
    | .ok s => ({ h with machine := h.machine.restore s.pc s.registers }, { result := .ok .done })
    | .error e => (h, { result := .error (.noSnapshot e) })
  | .consumeTone =>
    let (machine, latched) := h.machine.consumeTone
    ({ h with machine }, { result := .ok (.flag latched) })
  | .addListener name =>
    let tone := h.machine.tone.add name
    ({ h with machine := { h.machine with tone } }, { result := .ok .done })
  | .removeListener name =>
    let tone := h.machine.tone.remove name
    ({ h with machine := { h.machine with tone } }, { result := .ok .done })
  | .readBus address => h.withMachine .value (h.machine.run (Action.readByte address))
  | .writeBus address value =>
    h.withMachine (fun _ => .done) (h.machine.run (Action.writeByte address value))
  | .loadBus address value =>
    h.withMachine (fun _ => .done) (h.machine.run (Action.loadByte address value))
  | .debug limit =>
    match Debugger.create limit with
    | .ok debugger => ({ h with debugger }, { result := .ok .done })
    | .error e => (h, { result := .error (.badLimit e) })
  | .addBreakpoint bp => ({ h with debugger := h.debugger.add bp }, { result := .ok .done })
  | .removeBreakpoint bp => ({ h with debugger := h.debugger.remove bp }, { result := .ok .done })
  | .updateBreakpoint old new =>
    let (debugger, report) := h.debugger.update old new
    ({ h with debugger }, { result := .ok .done, report })
  | .debugStep =>
    let (debugger, core, result) :=
      h.debugger.step (instructionSet h.machine.setup) h.machine.core
    (keep { h with debugger, machine := { h.machine with core } } result,
      outcome .snapshot result)
  | .debugRun budget stopAfter =>
    let (debugger, core, ending) :=
      h.debugger.run (instructionSet h.machine.setup) h.machine.core budget stopAfter
    let h := { h with debugger, machine := { h.machine with core } }
    match ending with
    | .finished => (h, { result := .ok (.latest debugger.last) })
    | .reported report => (h, { result := .ok (.latest debugger.last), report := some report })
    | .failed e => (h, { result := .error (.run e) })
  | .debugStop => ({ h with debugger := h.debugger.stop }, { result := .ok .done })
  | .clearHistory => ({ h with debugger := h.debugger.clearHistory }, { result := .ok .done })

/-- Carries a request out and passes the notices of ignored writes on. -/
def handle (h : Host) (request : Request) : Host × Reply :=
  let (h, reply) := h.perform request
  let (machine, ignored) := h.machine.takeIgnored
  ({ h with machine }, { reply with ignored })

def handleAll (h : Host) : List Request → Host
  | [] => h
  | request :: rest => (h.handle request).1.handleAll rest

end Host

end Chip8
