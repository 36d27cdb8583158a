import Chip8.Instruction.Execute
import Chip8.Proofs.Memory.Transfer

/-!
# What the actions of instructions do

An action of an instruction has an equation that gives the machine it leaves, or the fault it
raises.  Over the standard memory the actions that touch memory have such an equation too, as soon
as the addresses lie in memory and the values are bytes.
-/

namespace Chip8.Proofs.Instruction.Action

open Chip8.Memory Chip8.Action Chip8.Instruction
open Chip8.Proofs.Memory.Layout Chip8.Proofs.Memory.Transfer

section Sequence

variable {ρ δ α β : Type}

theorem bind_apply (x : Action ρ δ α) (f : α → Action ρ δ β) (c : Core ρ δ) :
    (x >>= f) c =
      match x c with
      | .ok a c => f a c
      | .error e c => .error e c := by
  change EStateM.bind x f c = _
  unfold EStateM.bind
  cases x c <;> rfl

theorem pure_apply (a : α) (c : Core ρ δ) : (pure a : Action ρ δ α) c = .ok a c := rfl

theorem modify_apply (f : Core ρ δ → Core ρ δ) (c : Core ρ δ) :
    (modify f : Action ρ δ PUnit) c = .ok () (f c) := rfl

theorem get_apply (c : Core ρ δ) : (get : Action ρ δ (Core ρ δ)) c = .ok c c := rfl

theorem bind_ok {x : Action ρ δ α} {f : α → Action ρ δ β} {c d : Core ρ δ} {a : α}
    (h : x c = .ok a d) : (x >>= f) c = f a d := by
  rw [bind_apply, h]

theorem bind_error {x : Action ρ δ α} {f : α → Action ρ δ β} {c d : Core ρ δ} {e : Failure}
    (h : x c = .error e d) : (x >>= f) c = .error e d := by
  rw [bind_apply, h]

end Sequence

/-! ## Registers, program counter and hardware -/

variable (c : MachineCore)

theorem registers_apply : registers c = .ok c.registers c := rfl

theorem setV_apply (n : Fin 16) (value : Int) :
    setV n value c = .ok () { c with registers := c.registers.set n value } := rfl

theorem skipIf_apply (condition : Registers → Bool) :
    skipIf condition c =
      .ok () { c with pc := if condition c.registers then (c.pc + 2) % 65536 else c.pc } := by
  unfold skipIf
  rw [bind_ok (registers_apply c)]
  split <;> rfl

theorem keyPressed_apply (value : Int) :
    keyPressed value c =
      .ok (c.hardware.keypad.pressed (Keypad.ofLowDigit value)) c := rfl

theorem skipIfKey_apply (pressed : Bool) (x : Fin 16) :
    skipIfKey pressed x c =
      .ok () { c with
        pc := if c.hardware.keypad.pressed (Keypad.ofLowDigit (c.registers.get x)) = pressed
          then (c.pc + 2) % 65536 else c.pc } := by
  unfold skipIfKey
  rw [bind_ok (registers_apply c), bind_ok (keyPressed_apply c _)]
  split <;> rfl

theorem waitKey_apply (x : Fin 16) :
    waitKey x c =
      .ok () { c with
        pc := if c.hardware.keypad.first?.isSome then c.pc else (c.pc - 2) % 65536
        registers := c.hardware.keypad.first?.elim c.registers fun key =>
          c.registers.set x key.val } := by
  unfold waitKey
  rw [bind_ok (get_apply c)]
  cases c.hardware.keypad.first? <;> rfl

theorem passIndex_apply (dialect : Dialect) (x : Fin 16) :
    passIndex dialect x c =
      .ok () { c with registers := { c.registers with
        index := if dialect.movesIndex then (c.registers.index + (x.val + 1)) % 65536
          else c.registers.index } } := by
  unfold passIndex
  split <;> rfl

theorem ret_nil (h : c.registers.stack = []) : ret c = .error (.fault .stackUnderflow) c := by
  simp only [ret, Registers.pop, h]

theorem ret_cons {address : Int} {rest : List Int} (h : c.registers.stack = address :: rest) :
    ret c = .ok () { c with
      pc := address
      registers := { c.registers with stack := rest, depth := rest.length } } := by
  simp only [ret, Registers.pop, h]

/-- A call stack that takes no further return address. -/
def Full (limit : Option Int) (r : Registers) : Prop :=
  ∃ n, limit = some n ∧ n ≤ r.stack.length

theorem call_full {n : Int} (h : n ≤ c.registers.stack.length) (target : Int) :
    call (some n) target c = .error (.fault (.stackOverflow n)) c := by
  simp only [call, Registers.push]
  rw [if_pos h]

theorem call_apply {limit : Option Int} (h : ¬Full limit c.registers) (target : Int) :
    call limit target c = .ok () { c with
      pc := target
      registers := Registers.push.grow c.registers c.pc } := by
  unfold call Registers.push
  cases limit with
  | none => rfl
  | some n =>
      have hn : ¬n ≤ c.registers.stack.length := fun hle => h ⟨n, rfl, hle⟩
      dsimp only
      rw [if_neg hn]

/-! ## Memory -/

variable {c}
variable {size : Int}

/-- The standard memory of a size, which is the size that was settled when the machine was
built. -/
structure Housed (size : Int) (c : MachineCore) : Prop where
  bus : Mapped size c.bus
  memorySize : c.hardware.memorySize = size

abbrev OutOfRange (size : Int) (r : Registers) (count : Int) : Prop :=
  r.index < 0 ∨ size < r.index + count

theorem checkRange_error (h : Housed size c) {count : Int}
    (hout : OutOfRange size c.registers count) :
    checkRange c.registers.index count c =
      .error (.fault (.addressOutOfRange c.registers.index count)) c := by
  unfold checkRange
  rw [h.memorySize, if_pos hout]

theorem checkRange_ok (h : Housed size c) {count : Int}
    (hin : ¬OutOfRange size c.registers count) :
    checkRange c.registers.index count c = .ok () c := by
  unfold checkRange
  rw [h.memorySize, if_neg hin]

theorem readByte_apply (h : Mapped size c.bus) {a : Int} (ha : InMemory size a) :
    (readByte a : Instruction Int) c =
      .ok (byteAt c.bus a) { c with bus := logged c.bus (readLog c.bus a 1) } := by
  unfold readByte
  rw [read_eq h ha]
  rfl

theorem writeByte_apply (h : Mapped size c.bus) {a value : Int} (ha : InMemory size a)
    (hv : IsByte value) :
    (writeByte a value : Instruction Unit) c =
      .ok () { c with bus := c.bus.written a value } := by
  unfold writeByte
  rw [busWriteError?_eq_none h ha hv]

theorem readBytes_apply (count : Nat) {c : MachineCore} (h : Mapped size c.bus) {a : Int}
    (ha : 0 ≤ a) (hfit : a + count ≤ size) :
    (readBytes a count : Instruction (List Int)) c =
      .ok (bytesFrom c.bus a count)
        { c with bus := logged c.bus (readLog c.bus a count) } := by
  induction count generalizing c a with
  | zero => simp [readBytes, pure_apply, bytesFrom, readLog]
  | succ count ih =>
      unfold readBytes
      rw [bind_ok (readByte_apply h (by omega)),
        bind_ok (ih (mapped_logged h _) (by omega) (by omega)), pure_apply]
      simp [bytesFrom, readLog]

theorem writeBytes_apply (values : List Int) {c : MachineCore} (h : Mapped size c.bus) {a : Int}
    (ha : 0 ≤ a) (hfit : a + values.length ≤ size) (hv : ∀ v ∈ values, IsByte v) :
    (writeBytes a values : Instruction Unit) c =
      .ok () { c with bus := writtenAll c.bus a values } := by
  induction values generalizing c a with
  | nil => rfl
  | cons value rest ih =>
      rw [List.length_cons] at hfit
      unfold writeBytes
      rw [bind_ok (writeByte_apply h (by omega) (hv value List.mem_cons_self)),
        ih (mapped_written h (by omega) value) (by omega) (by omega)
          fun v hmem => hv v (List.mem_cons_of_mem _ hmem)]
      rfl

def loadedFrom (b : Bus) (r : Registers) (address : Int) : List (Fin 16) → Registers
  | [] => r
  | n :: rest => loadedFrom b (r.set n (byteAt b address)) (address + 1) rest

@[simp] theorem loadedFrom_logged (b : Bus) (accesses : List Access) (r : Registers)
    (address : Int) (names : List (Fin 16)) :
    loadedFrom (logged b accesses) r address names = loadedFrom b r address names := by
  induction names generalizing r address with
  | nil => rfl
  | cons n rest ih => simp [loadedFrom, ih]

theorem loadEach_apply (names : List (Fin 16)) {c : MachineCore} (h : Mapped size c.bus)
    {a : Int} (ha : 0 ≤ a) (hfit : a + names.length ≤ size) :
    loadEach a names c = .ok () { c with
      registers := loadedFrom c.bus c.registers a names
      bus := logged c.bus (readLog c.bus a names.length) } := by
  induction names generalizing c a with
  | nil => simp [loadEach, pure_apply, loadedFrom, readLog]
  | cons n rest ih =>
      rw [List.length_cons] at hfit
      unfold loadEach
      rw [bind_ok (readByte_apply h (by omega)), bind_ok (setV_apply _ _ _),
        ih (mapped_logged h _) (by omega) (by omega)]
      simp [loadedFrom, readLog]

end Chip8.Proofs.Instruction.Action
