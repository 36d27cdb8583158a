import Chip8.Proofs.Instruction.Effect

/-!
# One cycle of the machine

A cycle fails on fetching, on decoding or on executing, and then the machine is as before but for
the log of the bus.  Otherwise it leaves the effect of the instruction that it fetched.
-/

namespace Chip8.Proofs.Instruction.Cycle

open Chip8.Memory Chip8.Action Chip8.Instruction
open Chip8.Proofs.Memory.Layout Chip8.Proofs.Memory.Transfer
open Chip8.Proofs.Instruction.Action Chip8.Proofs.Instruction.Effect

/-! ## Any processor -/

section Phases

variable {ρ δ : Type} {isa : InstructionSet ρ δ} {c d e e' : Core ρ δ} {opcode : Int}
  {op : Operation} {f : Fault} {failure : Failure}

theorem step_of_fetch_error (hfetch : isa.fetch c.clearLog = .error failure d) :
    isa.step c = .error failure d := by
  simp only [InstructionSet.step, hfetch]

theorem step_of_decode_error (hfetch : isa.fetch c.clearLog = .ok opcode d)
    (hdecode : isa.decode opcode d = .error failure e) : isa.step c = .error failure e := by
  simp only [InstructionSet.step, hfetch, hdecode]

theorem step_of_fault (hfetch : isa.fetch c.clearLog = .ok opcode d)
    (hdecode : isa.decode opcode d = .ok op e)
    (hexecute : isa.execute op (e.skip op) = .error (.fault f) e') :
    isa.step c = .error (.fault f) { e' with pc := c.pc } := by
  simp only [InstructionSet.step, hfetch, hdecode, hexecute]

theorem step_of_ok (hfetch : isa.fetch c.clearLog = .ok opcode d)
    (hdecode : isa.decode opcode d = .ok op e)
    (hexecute : isa.execute op (e.skip op) = .ok () e') :
    isa.step c = .ok (isa.snapshot c.pc op e') (e'.finish op) := by
  simp only [InstructionSet.step, hfetch, hdecode, hexecute]

end Phases

/-! ## The machine's processor -/

def wordAt (b : Bus) (address : Int) : Int :=
  byteAt b address * 256 + byteAt b (address + 1)

/-- What makes a cycle fail. -/
inductive Fails (setup : Setup) (size : Int) (c : MachineCore) : Fault → Prop
  | fetch (hout : size ≤ c.pc + 1) : Fails setup size c (.addressOutOfRange c.pc 2)
  | decode (hin : c.pc + 1 < size) (hform : Form.ofOpcode? (wordAt c.bus c.pc) = none) :
      Fails setup size c
        (.unknownOpcode (wordAt c.bus c.pc) (Opcode.nibbles (wordAt c.bus c.pc)) (some c.pc))
  | execute {form : Form} {f : Fault} (hin : c.pc + 1 < size)
      (hform : Form.ofOpcode? (wordAt c.bus c.pc) = some form)
      (hblocked : Blocked setup size form (wordAt c.bus c.pc) c.registers f) :
      Fails setup size c f

def withLog (c : MachineCore) (log : List Access) : MachineCore :=
  { c with bus := { c.bus with log } }

/-- The accesses of a cycle that fails: those of the fetch, as far as memory has the word. -/
def fetchLog (size : Int) (c : MachineCore) : List Access :=
  if c.pc + 1 < size then readLog c.bus c.pc 2 else []

def started (c : MachineCore) : MachineCore :=
  { withLog c (readLog c.bus c.pc 2) with pc := (c.pc + 2) % 65536 }

def operation (form : Form) (c : MachineCore) : Operation :=
  .ofForm form (wordAt c.bus c.pc)

def executed (setup : Setup) (form : Form) (c : MachineCore) : MachineCore :=
  after setup form (wordAt c.bus c.pc) (started c)

def stepped (setup : Setup) (form : Form) (c : MachineCore) : MachineCore :=
  (executed setup form c).finish (operation form c)

def recorded (setup : Setup) (form : Form) (c : MachineCore) : Snapshot Registers :=
  (instructionSet setup).snapshot c.pc (operation form c) (executed setup form c)

/-- The pattern of a form selects its action; the two forms that share a pattern do nothing. -/
theorem execute_ofForm (setup : Setup) (form : Form) (opcode : Int) :
    Instruction.execute setup (.ofForm form opcode) = ofForm setup form opcode := by
  cases form <;> rfl

section Step

variable {setup : Setup} {size : Int} {c : MachineCore}

theorem isWord_wordAt {b : Bus} (h : Mapped size b) (address : Int) :
    IsWord (wordAt b address) := by
  have hhigh := isByte_byteAt h address
  have hlow := isByte_byteAt h (address + 1)
  unfold wordAt
  omega

theorem housed_withLog (h : Housed size c) (log : List Access) : Housed size (withLog c log) :=
  { h with bus := h.bus.congr rfl rfl }

theorem housed_started (h : Housed size c) : Housed size (started c) :=
  ⟨h.bus.congr rfl rfl, h.memorySize⟩

theorem fetch_error (h : Housed size c) (hout : size ≤ c.pc + 1) :
    fetch c = .error (.fault (.addressOutOfRange c.pc 2)) c := by
  unfold fetch
  rw [h.memorySize, if_pos hout]

theorem fetch_apply (h : Housed size c) (hpc : 0 ≤ c.pc) (hin : c.pc + 1 < size) :
    fetch c =
      .ok (wordAt c.bus c.pc)
        { c with bus := logged c.bus (readLog c.bus c.pc 2) } := by
  unfold fetch
  rw [h.memorySize, if_neg (by omega)]
  unfold readWord
  rw [bind_ok (readByte_apply h.bus (by omega)),
    bind_ok (readByte_apply (mapped_logged h.bus _) (by omega)), pure_apply]
  simp [wordAt, readLog]

theorem fetch_clearLog (h : Housed size c) (hpc : 0 ≤ c.pc) (hin : c.pc + 1 < size) :
    (instructionSet setup).fetch c.clearLog =
      .ok (wordAt c.bus c.pc) (withLog c (readLog c.bus c.pc 2)) :=
  fetch_apply (housed_withLog h []) hpc hin

theorem decode_none {opcode : Int} (hform : Form.ofOpcode? opcode = none) (c : MachineCore) :
    (instructionSet setup).decode opcode c =
      .error (.fault (.unknownOpcode opcode (Opcode.nibbles opcode) (some c.pc))) c := by
  simp only [instructionSet, Instruction.decode, Operation.decode, hform]

theorem decode_some {opcode : Int} {form : Form} (hform : Form.ofOpcode? opcode = some form)
    (c : MachineCore) :
    (instructionSet setup).decode opcode c = .ok (.ofForm form opcode) c := by
  simp only [instructionSet, Instruction.decode, Operation.decode, hform]

theorem execute_started (setup : Setup) {form : Form} (c : MachineCore) :
    (instructionSet setup).execute (operation form c) (started c) =
      ofForm setup form (wordAt c.bus c.pc) (started c) :=
  congrFun (execute_ofForm setup form _) _

/-- A cycle that fails changes nothing but the log of the bus. -/
theorem step_of_fails (h : Housed size c) (hpc : 0 ≤ c.pc) {f : Fault}
    (hf : Fails setup size c f) :
    (instructionSet setup).step c = .error (.fault f) (withLog c (fetchLog size c)) := by
  have hfetched : c.pc + 1 < size → fetchLog size c = readLog c.bus c.pc 2 :=
    fun hin => if_pos hin
  cases hf with
  | fetch hout =>
      have hnone : fetchLog size c = [] := if_neg (by omega)
      rw [hnone]
      exact step_of_fetch_error (fetch_error (housed_withLog h []) hout)
  | decode hin hform =>
      rw [hfetched hin]
      exact step_of_decode_error (fetch_clearLog h hpc hin) (decode_none hform _)
  | execute hin hform hblocked =>
      rw [hfetched hin]
      have hexecute := (execute_started setup c).trans
        (ofForm_blocked (housed_started h) hblocked)
      exact step_of_fault (fetch_clearLog h hpc hin) (decode_some hform _) hexecute

theorem not_fails_of_free {form : Form} (hin : c.pc + 1 < size)
    (hform : Form.ofOpcode? (wordAt c.bus c.pc) = some form)
    (hfree : ∀ f, ¬Blocked setup size form (wordAt c.bus c.pc) c.registers f) (f : Fault) :
    ¬Fails setup size c f := by
  rintro (hout | ⟨-, hnone⟩ | ⟨-, hsome, hblocked⟩)
  · omega
  · rw [hform] at hnone
    cases hnone
  · rw [hform] at hsome
    cases hsome
    exact hfree f hblocked

theorem step_of_not_fails (h : Housed size c) (hpc : 0 ≤ c.pc)
    (hr : ∀ n, IsByte (c.registers.get n)) (hfree : ∀ f, ¬Fails setup size c f) :
    ∃ form, Form.ofOpcode? (wordAt c.bus c.pc) = some form ∧
      (instructionSet setup).step c = .ok (recorded setup form c) (stepped setup form c) := by
  have hin : c.pc + 1 < size := Int.not_le.1 fun hout => hfree _ (.fetch hout)
  cases hform : Form.ofOpcode? (wordAt c.bus c.pc) with
  | none => exact absurd (.decode hin hform) (hfree _)
  | some form =>
      refine ⟨form, rfl, ?_⟩
      apply step_of_ok (fetch_clearLog h hpc hin) (decode_some hform _)
      exact (execute_started setup c).trans
        (ofForm_eq_after (housed_started h) hr
          fun f hblocked => hfree f (.execute hin hform hblocked))

end Step

end Chip8.Proofs.Instruction.Cycle
