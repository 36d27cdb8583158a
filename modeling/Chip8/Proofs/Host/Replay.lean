import Chip8.Proofs.Debug.Run
import Chip8.Proofs.Instruction.Frame
import Chip8.Proofs.Instruction.Word
import Chip8.Proofs.Machine.Indifference

/-!
# Replaying from a snapshot

Apart from memory and the keys, the registers of a snapshot are all that most instructions depend
on.  A machine that gets them back carries out the same instructions once more, as long as none of
them writes to memory, draws a sprite or draws a random number; only the count of cycles goes on.
-/

namespace Chip8.Proofs.Host.Replay

open Chip8.Memory Chip8.Instruction
open Chip8.Proofs.Memory.Layout Chip8.Proofs.Instruction.Effect Chip8.Proofs.Instruction.Frame
open Chip8.Proofs.Instruction.Word Chip8.Proofs.Instruction.Cycle
open Chip8.Proofs.Machine.Representation Chip8.Proofs.Machine.Operations
open Chip8.Proofs.Machine.Indifference (Executes exists_executes)
open Chip8.Proofs.Host.Invariant
open Chip8.Proofs.Debug.Run (advanced wide_advanced setup_advanced counting reachable_counting)

/-- The words that draw numbers or sprites or write to memory: Cxnn, Dxyn, Fx33 and Fx55. -/
def Escapes (word : Int) : Prop :=
  word / 0x1000 = 0xC ∨ word / 0x1000 = 0xD ∨
    word / 0x1000 = 0xF ∧ (word % 0x100 = 0x33 ∨ word % 0x100 = 0x55)

def escapingForms : List Form := [.random, .draw, .storeDecimal, .storeRegisters]

def later (n : Int) (display : Display) (random : Random.Stream) (c : MachineCore) : MachineCore :=
  { c with hardware := { c.hardware with display, random }, cycles := c.cycles + n }

def Trails (n : Int) (m m' : Machine) : Prop :=
  ∃ display random, m' = { m with core := later n display random m.core }

structure Replays (size n : Int) (m m' : Machine) : Prop where
  wide : Wide m.setup size m.core
  wide' : Wide m.setup size m'.core
  trails : Trails n m m'

/-! ## Instructions -/

section Instructions

variable {setup : Setup} {form : Form} {word size n : Int} {display : Display}
  {random : Random.Stream} {c : MachineCore} {f : Fault}

theorem not_mem_escapingForms (hword : IsWord word) (hform : Form.ofOpcode? word = some form)
    (hquiet : ¬Escapes word) : form ∉ escapingForms := by
  obtain ⟨hthird, -⟩ := digits_of_ofOpcode? hform hword
  intro hmem
  simp only [escapingForms, List.mem_cons, List.not_mem_nil, or_false] at hmem
  rcases hmem with rfl | rfl | rfl | rfl <;> simp only [Form.shape] at hthird
  · exact hquiet (.inl (by omega))
  · exact hquiet (.inr (.inl (by omega)))
  all_goals
    have hlow := lowByte_of_ofOpcode? hform hword rfl rfl
    exact hquiet (.inr (.inr ⟨by omega, by omega⟩))

/-- Only what draws looks at the display or at the random stream, and nothing at the cycles. -/
theorem after_later (hform : form ∉ escapingForms) (opcode n : Int) (display : Display)
    (random : Random.Stream) (c : MachineCore) :
    ∃ shown, after setup form opcode (later n display random c) =
      later n shown random (after setup form opcode c) := by
  cases form with
  | random | draw => exact absurd (by decide) hform
  | _ => exact ⟨_, rfl⟩

theorem fails_later_iff :
    Fails setup size (later n display random c) f ↔ Fails setup size c f := by
  constructor
  all_goals
    intro hf
    cases hf with
    | fetch hout => exact .fetch hout
    | decode hin hform => exact .decode hin hform
    | execute hin hform hblocked => exact .execute hin hform hblocked

theorem stepped_later (setup : Setup) (hform : form ∉ escapingForms) (n : Int) (display : Display)
    (random : Random.Stream) (c : MachineCore) :
    ∃ shown, stepped setup form (later n display random c) =
        later n shown random (stepped setup form c) ∧
      recorded setup form (later n display random c) =
        { recorded setup form c with cycles := (recorded setup form c).cycles + n } := by
  obtain ⟨shown, hafter⟩ :=
    after_later hform (wordAt c.bus c.pc) n display random (started c)
  have hexecuted : executed setup form (later n display random c) =
      later n shown random (executed setup form c) := hafter
  have hcycles : c.cycles + n + 1 = c.cycles + 1 + n := Int.add_right_comm _ _ _
  refine ⟨shown, ?machine, ?snapshot⟩
  case machine =>
    unfold stepped
    rw [hexecuted]
    exact congrArg (fun cycles =>
      { later n shown random (stepped setup form c) with cycles }) hcycles
  case snapshot =>
    unfold recorded
    rw [hexecuted]
    exact congrArg (fun cycles => { recorded setup form c with cycles }) hcycles

theorem stepped_eq (setup : Setup) (hform : form ∉ escapingForms) (c : MachineCore) :
    ∃ display random, stepped setup form c =
      { later 1 display random c with
        pc := (stepped setup form c).pc
        registers := (stepped setup form c).registers
        bus := { c.bus with log := [] } } := by
  have hstore : form ∉ storeForms := by
    intro hmem
    apply hform
    simp only [storeForms, escapingForms, List.mem_cons, List.not_mem_nil, or_false] at hmem ⊢
    rcases hmem with rfl | rfl <;> simp
  obtain ⟨log, hlog⟩ := busAfter_of_not_store hstore (wordAt c.bus c.pc) (started c)
  have hhardware := hardwareAfter_eq form (wordAt c.bus c.pc) (started c)
  have hbus : (stepped setup form c).bus = { c.bus with log := [] } :=
    congrArg (fun b : Bus => { b with log := [] }) hlog
  refine ⟨(stepped setup form c).hardware.display, (stepped setup form c).hardware.random, ?_⟩
  rw [← hbus]
  exact congrArg (fun hardware => { stepped setup form c with hardware }) hhardware

end Instructions

/-! ## Machines -/

section Machines

variable {m m' : Machine} {size n : Int} {t : Snapshot Registers}

theorem trails_self (m : Machine) : Trails 0 m m := by
  refine ⟨m.core.hardware.display, m.core.hardware.random, ?_⟩
  simp only [later, Int.add_zero]

theorem exists_quiet (h : Wide m.setup size m.core) (hok : m.advance.2 = .ok t)
    (hquiet : ¬Escapes t.operation.opcode) :
    ∃ form, form ∉ escapingForms ∧ Executes size m form ∧ t = recorded m.setup form m.core := by
  obtain ⟨form, hexecutes, -, rfl⟩ := exists_executes h (Prod.ext rfl hok)
  exact ⟨form, not_mem_escapingForms (isWord_wordAt h.bus _) hexecutes.found hquiet, hexecutes, rfl⟩

theorem Replays.advance (h : Replays size n m m') (hok : m.advance.2 = .ok t)
    (hquiet : ¬Escapes t.operation.opcode) :
    m'.advance.2 = .ok { t with cycles := t.cycles + n } ∧
      Replays size n m.advance.1 m'.advance.1 := by
  obtain ⟨hwide, hwide', display, random, rfl⟩ := h
  obtain ⟨form, hquiets, hexecutes, rfl⟩ := exists_quiet hwide hok hquiet
  obtain ⟨shown, hstepped, hrecorded⟩ := stepped_later m.setup hquiets n display random m.core
  have hother := advance_eq_of_free (m := { m with core := later n display random m.core }) hwide'
    (fun f hf => hexecutes.free f (fails_later_iff.1 hf)) hexecutes.found
  have hnext := wide_advance hwide
  have hnext' := wide_advance (m := { m with core := later n display random m.core }) hwide'
  rw [hexecutes.advance_eq hwide] at hnext ⊢
  rw [hother] at hnext' ⊢
  exact ⟨congrArg Except.ok hrecorded, hnext, hnext', shown, random,
    congrArg (fun core => { m with core }) hstepped⟩

/-- With its registers put back, a machine that did not write trails what it was. -/
theorem restore_trails (h : Wide m'.setup size m'.core) (hlog : m.core.bus.log = [])
    (htrails : Trails n m (m'.restore m.core.pc m.core.registers)) (hok : m'.advance.2 = .ok t)
    (hquiet : ¬Escapes t.operation.opcode) :
    Trails (n + 1) m (m'.advance.1.restore m.core.pc m.core.registers) := by
  obtain ⟨form, hquiets, hexecutes, -⟩ := exists_quiet h hok hquiet
  obtain ⟨display, random, heq⟩ := htrails
  obtain ⟨shown, drawn, hstepped⟩ := stepped_eq m'.setup hquiets m'.core
  rw [hexecutes.advance_eq h, hstepped]
  have hbus : { m.core.bus with log := [] } = m.core.bus :=
    congrArg (fun log => { m.core.bus with log }) hlog.symm
  have hstep := congrArg (fun m' : Machine => { m' with
    core := later 1 shown drawn { m'.core with bus := { m'.core.bus with log := [] } } }) heq
  refine ⟨shown, drawn, hstep.trans ?_⟩
  simp only [later, hbus, Int.add_assoc]

/-! ### Runs -/

variable {k j : Nat}
  (hrun : ∀ i < k, ∃ t, (advanced m i).advance.2 = .ok t ∧ ¬Escapes t.operation.opcode)

include hrun

theorem Replays.run (h : Replays size n m m') (hj : j ≤ k) :
    Replays size n (advanced m j) (advanced m' j) := by
  induction j with
  | zero => exact h
  | succ j ih =>
      obtain ⟨t, hok, hquiet⟩ := hrun j (by omega)
      exact ((ih (by omega)).advance hok hquiet).2

theorem restore_trails_run (h : Wide m.setup size m.core) (hlog : m.core.bus.log = [])
    (hj : j ≤ k) : Trails j m ((advanced m j).restore m.core.pc m.core.registers) := by
  induction j with
  | zero => exact trails_self m
  | succ j ih =>
      obtain ⟨t, hok, hquiet⟩ := hrun j (by omega)
      have hfit := wide_advanced h j
      rw [← setup_advanced m j] at hfit
      exact restore_trails hfit hlog (ih (by omega)) hok hquiet

end Machines

/-- A machine that gets back the registers of a snapshot, after `n` more advances none of which drew
or wrote to memory, carries out these advances again, with the same snapshots but for the number of
cycles, which is greater by `n`. -/
theorem restored_replays {s : Settings} {h : Host} (hh : Reachable s h) {m : Machine}
    {taken : Snapshot Registers} (htaken : h.machine.advance = (m, .ok taken)) {n : Nat}
    (hrun : ∀ j < n, ∃ t, (advanced m j).advance.2 = .ok t ∧ ¬Escapes t.operation.opcode) :
    ∀ j < n, ∃ t, (advanced m j).advance.2 = .ok t ∧
      (advanced ((advanced m n).restore taken.pc taken.registers) j).advance.2 =
        .ok { t with cycles := t.cycles + n } := by
  have hadvanced := wide_advance hh.held.fits
  rw [htaken] at hadvanced
  obtain ⟨form, -, hafter, rfl⟩ := exists_executes hh.held.fits htaken
  have hsetup : m.setup = h.machine.setup := congrArg (fun m => m.setup) hafter
  have hwide : Wide m.setup s.memorySize m.core := by
    rw [hsetup]
    exact hadvanced
  have hlog : m.core.bus.log = [] := congrArg (fun m => m.core.bus.log) hafter
  have hpc : m.core.pc = (recorded h.machine.setup form h.machine.core).pc :=
    congrArg (fun m => m.core.pc) hafter
  have hregisters : m.core.registers = (recorded h.machine.setup form h.machine.core).registers :=
    congrArg (fun m => m.core.registers) hafter
  rw [← hpc, ← hregisters]
  intro j hj
  have hreplays : Replays s.memorySize n m
      ((advanced m n).restore m.core.pc m.core.registers) :=
    { wide := hwide
      wide' := { wide_advanced hwide n with pc := hwide.pc, registers := hwide.registers }
      trails := restore_trails_run hrun hwide hlog (Nat.le_refl n) }
  obtain ⟨t, hok, hquiet⟩ := hrun j hj
  exact ⟨t, hok, ((hreplays.run hrun (Nat.le_of_lt hj)).advance hok hquiet).1⟩

theorem restored_replays_counting :
    Reachable { memorySize := 0x60, loadAddress := 0x50 } counting ∧
    ∃ m taken, counting.machine.advance = (m, .ok taken) ∧
      (∀ j < 4, ∃ t, (advanced m j).advance.2 = .ok t ∧ ¬Escapes t.operation.opcode) ∧
      ∀ j < 4, ∃ t, (advanced m j).advance.2 = .ok t ∧
        (advanced ((advanced m 4).restore taken.pc taken.registers) j).advance.2 =
          .ok { t with cycles := t.cycles + 4 } := by
  have hfirst : counting.machine.advance.2.toOption.isSome = true := by decide +kernel
  have hwords : ∀ j < 4,
      (advanced counting.machine.advance.1 j).advance.2.toOption.map
        (fun t => t.operation.opcode) = some (if j % 2 = 0 then 0x7001 else 0x1052) := by
    decide +kernel
  have hrun : ∀ j < 4, ∃ t, (advanced counting.machine.advance.1 j).advance.2 = .ok t ∧
      ¬Escapes t.operation.opcode := by
    intro j hj
    have hword := hwords j hj
    cases hresult : (advanced counting.machine.advance.1 j).advance.2 with
    | error e =>
        rw [hresult] at hword
        cases hword
    | ok t =>
        rw [hresult] at hword
        have hopcode : t.operation.opcode = if j % 2 = 0 then 0x7001 else 0x1052 :=
          Option.some.inj hword
        refine ⟨t, rfl, ?_⟩
        rw [hopcode]
        split <;> simp [Escapes]
  cases htaken : counting.machine.advance with
  | mk m result =>
      rw [htaken] at hfirst hrun
      cases result with
      | error e => cases hfirst
      | ok taken =>
          exact ⟨reachable_counting, m, taken, rfl, hrun,
            restored_replays reachable_counting htaken hrun⟩

end Chip8.Proofs.Host.Replay
