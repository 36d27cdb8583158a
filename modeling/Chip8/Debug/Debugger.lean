import Chip8.Capacity
import Chip8.Debug.Breakpoint

/-!
# The debugger

A debugger executes instructions one by one or until something stops it, and keeps the latest
snapshots.  It works on any processor.  A run does not stop at a breakpoint on the program
counter it starts from, so that it can go on from where it stopped.
-/

namespace Chip8

inductive Report where
  | hitAt (pc : Int)
  | hitAfter (address : Int) (text : Text)
  | halted (pc : Int) (fault : Fault)
  | unknownBreakpoint (bp : Breakpoint)

namespace Report

def level : Report → String
  | .hitAt _ | .hitAfter _ _ => "INFO"
  | .halted _ _ => "WARNING"
  | .unknownBreakpoint _ => "DEBUG"

def text : Report → Text
  | .hitAt pc => "Breakpoint hit at PC: " ++ Text.hex 6 pc
  | .hitAfter address text => s!"Breakpoint hit after PC: {Text.hex 6 address} (" ++ text ++ ")"
  | .halted pc fault => s!"Execution stopped at PC {Text.hex 6 pc}: " ++ fault.message
  | .unknownBreakpoint bp => s!"Breakpoint {bp.text} not registered; update ignored"

end Report

structure Debugger (ρ : Type) where
  limit : Nat
  breakpoints : List Breakpoint := []
  running : Bool := false
  /-- The registers before the latest instruction. -/
  before : List (String × Int) := []
  last : Option (Snapshot ρ) := none
  lastFault : Option Fault := none
  /-- The latest snapshots, oldest first. -/
  history : List (Snapshot ρ) := []

namespace Debugger

variable {ρ δ : Type}

def standardLimit : Int := 1024

inductive LimitError where
  | notPositive
  | uncountable
  deriving DecidableEq, Repr

def LimitError.message? : LimitError → Option String
  | .notPositive => some "history_limit must be positive."
  | .uncountable => none

def create (limit : Int) : Except LimitError (Debugger ρ) :=
  if limit ≤ 0 then .error .notPositive
  else if countLimit ≤ limit.toNat then .error .uncountable
  else .ok { limit := limit.toNat }

/-! ## Breakpoints -/

def has (d : Debugger ρ) (bp : Breakpoint) : Bool :=
  d.breakpoints.any (·.same bp)

def add (d : Debugger ρ) (bp : Breakpoint) : Debugger ρ :=
  if d.has bp then d else { d with breakpoints := d.breakpoints ++ [bp] }

def replaceFirst (old new : Breakpoint) : List Breakpoint → List Breakpoint
  | [] => []
  | bp :: rest => if bp.same old then new :: rest else bp :: replaceFirst old new rest

/-- Replaces a breakpoint at its place; one that is not there is reported. -/
def update (d : Debugger ρ) (old new : Breakpoint) : Debugger ρ × Option Report :=
  if d.has old then ({ d with breakpoints := replaceFirst old new d.breakpoints }, none)
  else (d, some (.unknownBreakpoint old))

def remove (d : Debugger ρ) (bp : Breakpoint) : Debugger ρ :=
  { d with breakpoints := d.breakpoints.eraseP (·.same bp) }

def hitsAt (d : Debugger ρ) (pc : Int) : Bool :=
  d.breakpoints.any (·.hitsAt pc)

def hitsAfter (d : Debugger ρ) (s : Snapshot ρ) (after : List (String × Int)) :
    Except Breakpoint.LookupError Bool :=
  Breakpoint.anyHitsAfter d.breakpoints s d.before after

/-! ## History -/

/-- The last `limit` elements of a list. -/
def lastOf {α : Type} (limit : Nat) (l : List α) : List α :=
  l.drop (l.length - limit)

def record (d : Debugger ρ) (s : Snapshot ρ) : Debugger ρ :=
  { d with
    lastFault := none
    last := some s
    history := lastOf d.limit (d.history ++ [s]) }

/-- Forgets the snapshots kept; the latest stays known. -/
def clearHistory (d : Debugger ρ) : Debugger ρ :=
  { d with history := [] }

def stop (d : Debugger ρ) : Debugger ρ :=
  { d with running := false }

/-! ## Execution -/

/-- Executes one instruction and records it, or the fault that it met. -/
def step (isa : InstructionSet ρ δ) (d : Debugger ρ) (c : Core ρ δ) :
    Debugger ρ × Core ρ δ × Except Failure (Snapshot ρ) :=
  let d := { d with before := isa.registerMap c }
  match isa.step c with
  | .ok s c => (d.record s, c, .ok s)
  | .error (.fault f) c => ({ d with lastFault := some f }, c, .error (.fault f))
  | .error (.memory e) c => (d, c, .error (.memory e))

inductive RunError where
  | memory (e : Memory.Error)
  | lookup (e : Breakpoint.LookupError)

inductive Ending where
  | finished
  | reported (report : Report)
  | failed (e : RunError)

/-- Executes up to `budget` further instructions after `done` ones.  With `stopAfter` a stop is
demanded as soon as that many have been executed. -/
def runFrom (isa : InstructionSet ρ δ) (stopAfter : Option Nat) (done : Nat) :
    (budget : Nat) → Debugger ρ → Core ρ δ → Debugger ρ × Core ρ δ × Ending
  | 0, d, c => (d, c, .finished)
  | budget + 1, d, c =>
    if !d.running then (d, c, .finished)
    else if 0 < done ∧ d.hitsAt c.pc then (d, c, .reported (.hitAt c.pc))
    else
      let pc := c.pc
      match d.step isa c with
      | (d, c, .error (.fault f)) => (d, c, .reported (.halted pc f))
      | (d, c, .error (.memory e)) => (d, c, .failed (.memory e))
      | (d, c, .ok s) =>
        let d := if stopAfter = some (done + 1) then d.stop else d
        match d.hitsAfter s (isa.registerMap c) with
        | .error e => (d, c, .failed (.lookup e))
        | .ok true => (d, c, .reported (.hitAfter s.address s.operation.text))
        | .ok false => runFrom isa stopAfter (done + 1) budget d c

/-- A budget for runs without one.  No run spends it: at a thousand million instructions a second
it lasts for more than a hundred years. -/
def unlimited : Nat := Nat.pow 2 62

/-- Runs until the budget is spent, a stop is demanded, a breakpoint is hit or an instruction
fails.  An error that is no fault leaves the debugger as it is. -/
def run (isa : InstructionSet ρ δ) (d : Debugger ρ) (c : Core ρ δ) (budget : Nat)
    (stopAfter : Option Nat) : Debugger ρ × Core ρ δ × Ending :=
  match runFrom isa stopAfter 0 budget { d with running := true } c with
  | (d, c, .failed e) => (d, c, .failed e)
  | (d, c, ending) => (d.stop, c, ending)

end Debugger

end Chip8
