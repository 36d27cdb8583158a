import Chip8.Cycle

/-!
# Breakpoints

A breakpoint names a condition on which a run stops: a program counter that is reached, or
something that the instruction just executed did.  Each kind of condition looks at its own field;
the others are free, and two breakpoints are the same only if they agree in all of them.
-/

namespace Chip8

inductive BreakpointKind where
  /-- Before an instruction: the program counter has the value. -/
  | pcMatch
  /-- The address was read, fetching included. -/
  | memoryRead
  | memoryWrite
  | registerValue
  | registerChange
  | opcodeMatch
  deriving DecidableEq, Repr

namespace BreakpointKind

def all : List BreakpointKind :=
  [pcMatch, memoryRead, memoryWrite, registerValue, registerChange, opcodeMatch]

def name : BreakpointKind → String
  | pcMatch => "PC_MATCH"
  | memoryRead => "MEMORY_READ"
  | memoryWrite => "MEMORY_WRITE"
  | registerValue => "REGISTER_VALUE"
  | registerChange => "REGISTER_CHANGE"
  | opcodeMatch => "OPCODE_MATCH"

def ofValue (value : Value) : Except String BreakpointKind :=
  let kind? := match value with
    | .text t => all.find? fun kind => t == kind.name
    | _ => none
  match kind? with
  | some kind => .ok kind
  | none => .error (value.quoted ++ " is not a valid BreakpointConditionType")

end BreakpointKind

/-- A breakpoint.  What a field holds matters only where its kind looks at the field. -/
structure Breakpoint where
  kind : BreakpointKind
  value : Value := .null
  address : Value := .null
  register : Value := .null
  mnemonic : Value := .null
  enabled : Value := .bool true

namespace Breakpoint

def fields (bp : Breakpoint) : List (String × Value) :=
  [("value", bp.value), ("address", bp.address), ("register_name", bp.register),
    ("mnemonic", bp.mnemonic), ("enabled", bp.enabled)]

def text (bp : Breakpoint) : String :=
  let kind := bp.kind.name
  "BreakpointCondition(" ++ ", ".intercalate
    (s!"condition_type=<BreakpointConditionType.{kind}: '{kind}'>" ::
      bp.fields.map fun (name, value) => name ++ "=" ++ value.quoted) ++ ")"

def same (bp other : Breakpoint) : Bool :=
  bp.kind == other.kind &&
    (bp.fields.zip other.fields).all fun (field, field') => field.2.same field'.2

def isActive (bp : Breakpoint) : Bool := bp.enabled.isTrue

inductive LookupError where
  | collection
  deriving DecidableEq, Repr

def sought (can : Value → Bool) (value : Value) : Except LookupError Value :=
  if can value then .ok value else .error .collection

def valueOf? (registers : List (String × Int)) (name : Value) : Option Int :=
  (registers.find? fun register => name.same (.text register.1)).map Prod.snd

def touched (accesses : List Memory.Access) (kind : Memory.AccessKind) (address : Value) : Bool :=
  accesses.any fun a => a.kind == kind && address.same (.int a.address)

def hitsAt (bp : Breakpoint) (pc : Int) : Bool :=
  bp.isActive && bp.kind == .pcMatch && bp.value.same (.int pc)

def holdsAfter {ρ : Type} (bp : Breakpoint) (s : Snapshot ρ)
    (before after : List (String × Int)) : Except LookupError Bool :=
  match bp.kind with
  | .pcMatch => .ok false
  | .memoryRead => (sought Value.canBeSought bp.address).map (touched s.accesses .read)
  | .memoryWrite => (sought Value.canBeSought bp.address).map (touched s.accesses .write)
  | .registerValue => (sought Value.canBeKey bp.register).map fun name =>
    match valueOf? after name with
    | some now => bp.value.same (.int now)
    | none => false
  | .registerChange => (sought Value.canBeKey bp.register).map fun name =>
    match valueOf? before name, valueOf? after name with
    | some old, some now => now != old
    | _, _ => false
  | .opcodeMatch => .ok (bp.mnemonic.same (.text s.operation.mnemonic))

/-- Whether one of some breakpoints stops a run after a cycle.  They are judged kind by kind, and
the first that holds or cannot be judged decides. -/
def anyHitsAfter {ρ : Type} (bps : List Breakpoint) (s : Snapshot ρ)
    (before after : List (String × Int)) : Except LookupError Bool :=
  let ordered := BreakpointKind.all.flatMap fun kind =>
    bps.filter fun bp => bp.isActive && bp.kind == kind
  ordered.anyM fun bp => bp.holdsAfter s before after

end Breakpoint

end Chip8
