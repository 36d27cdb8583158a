import Chip8.Proofs.Host.Invariant
import Mathlib.Logic.Function.Basic

/-!
# The trace of memory

A snapshot lists the accesses of its cycle.  The list begins with the two bytes of the instruction,
its reads show what memory held before the cycle, and its writes, put into memory one after the
other, give what memory holds after the cycle.  Only a write into the font puts nothing there.
-/

namespace Chip8.Proofs.Host.Trace

open Chip8.Memory Chip8.Instruction
open Chip8.Proofs.Memory.Layout Chip8.Proofs.Memory.Transfer Chip8.Proofs.Memory.Contents
open Chip8.Proofs.Instruction.Action Chip8.Proofs.Instruction.Effect
open Chip8.Proofs.Instruction.Cycle Chip8.Proofs.Machine.Representation
open Chip8.Proofs.Machine.Operations Chip8.Proofs.Host.Invariant

/-! ## Accesses and memory -/

/-- Memory after an access: a write puts its value at its address, unless the font is there. -/
def applied (memory : Int → Except Error Int) (a : Access) : Int → Except Error Int :=
  if a.kind = .write ∧ fontEnd ≤ a.address then Function.update memory a.address (.ok a.value)
  else memory

def replayed (memory : Int → Except Error Int) (accesses : List Access) :
    Int → Except Error Int :=
  accesses.foldl applied memory

/-- What a snapshot says about the memory before and after its cycle. -/
structure Accounts (m after : Machine) (s : Snapshot Registers) : Prop where
  fetched : ∃ high low rest, s.accesses =
      ⟨m.core.pc, high, .read⟩ :: ⟨m.core.pc + 1, low, .read⟩ :: rest ∧
    s.operation.opcode = 256 * high + low
  reads : ∀ a ∈ s.accesses, a.kind = .read → m.core.bus.peek a.address = .ok a.value
  memory : after.core.bus.peek = replayed m.core.bus.peek s.accesses

section Replay

variable {memory : Int → Except Error Int} {a : Access} {accesses : List Access}

theorem applied_read (h : a.kind = .read) : applied memory a = memory := by
  unfold applied
  rw [if_neg]
  rintro ⟨hwrite, -⟩
  rw [h] at hwrite
  cases hwrite

theorem applied_below {x : Int} (hx : x < fontEnd) : applied memory a x = memory x := by
  unfold applied
  split
  · rename_i hwrite
    exact Function.update_of_ne (by omega) _ _
  · rfl

theorem replayed_append (first second : List Access) :
    replayed memory (first ++ second) = replayed (replayed memory first) second :=
  List.foldl_append

theorem replayed_reads (h : ∀ a ∈ accesses, a.kind = .read) :
    replayed memory accesses = memory := by
  induction accesses with
  | nil => rfl
  | cons a rest ih =>
      obtain ⟨ha, hlater⟩ := List.forall_mem_cons.1 h
      have hfirst : applied memory a = memory := applied_read ha
      have hrest := ih hlater
      unfold replayed at hrest ⊢
      rw [List.foldl_cons, hfirst, hrest]

theorem replayed_below {x : Int} (hx : x < fontEnd) : replayed memory accesses x = memory x := by
  induction accesses generalizing memory with
  | nil => rfl
  | cons a rest ih =>
      have hrest : replayed (applied memory a) rest x = applied memory a x := ih
      rw [applied_below hx] at hrest
      exact hrest

end Replay

/-! ## Buses -/

/-- One bus leads to another by logged accesses. -/
structure Traced (before after : Bus) (accesses : List Access) : Prop where
  log : after.log = before.log ++ accesses
  reads : ∀ a ∈ accesses, a.kind = .read → before.peek a.address = .ok a.value
  memory : after.peek = replayed before.peek accesses

def writeLog (address : Int) : List Int → List Access
  | [] => []
  | value :: rest => ⟨address, value, .write⟩ :: writeLog (address + 1) rest

section Buses

variable {size address : Int} {b c d : Bus}

theorem Traced.refl (b : Bus) : Traced b b [] := by
  refine ⟨(List.append_nil _).symm, ?_, rfl⟩
  intro a hmem
  cases hmem

theorem Traced.append {first second : List Access} (hbc : Traced b c first)
    (hcd : Traced c d second)
    (hreads : ∀ a ∈ second, a.kind = .read → b.peek a.address = .ok a.value) :
    Traced b d (first ++ second) := by
  refine ⟨?_, ?_, ?_⟩
  · rw [hcd.log, hbc.log, List.append_assoc]
  · intro a hmem
    rcases List.mem_append.1 hmem with hfirst | hsecond
    · exact hbc.reads a hfirst
    · exact hreads a hsecond
  · rw [replayed_append, ← hbc.memory, hcd.memory]

theorem mem_readLog {count : Nat} {a : Access} (h : a ∈ readLog b address count) :
    a.kind = .read ∧ a.value = byteAt b a.address ∧ address ≤ a.address ∧
      a.address < address + count := by
  induction count generalizing address with
  | zero => cases h
  | succ count ih =>
      rcases List.mem_cons.1 h with rfl | hrest
      · exact ⟨rfl, rfl, Int.le_refl _, by dsimp only; omega⟩
      · obtain ⟨hkind, hvalue, hlow, hhigh⟩ := ih hrest
        exact ⟨hkind, hvalue, by omega, by omega⟩

theorem traced_logged (h : Mapped size b) {count : Nat} (ha : 0 ≤ address)
    (hfit : address + count ≤ size) :
    Traced b (logged b (readLog b address count)) (readLog b address count) := by
  refine ⟨rfl, ?_, ?_⟩
  · intro a hmem _
    obtain ⟨-, hvalue, hlow, hhigh⟩ := mem_readLog hmem
    rw [peek_eq h (by omega), hvalue]
  · rw [replayed_reads fun a hmem => (mem_readLog hmem).1]
    rfl

theorem traced_written (h : Mapped size b) {value : Int} (ha : InMemory size address)
    (hv : IsByte value) :
    Traced b (b.written address value) [⟨address, value, .write⟩] := by
  obtain ⟨-, -, hlog⟩ := written_parts h ha value
  refine ⟨hlog, ?_, ?_⟩
  · intro a hmem hread
    rw [List.mem_singleton.1 hmem] at hread
    cases hread
  · funext x
    simp only [peek_written h ha hv, replayed, List.foldl_cons, List.foldl_nil, applied, true_and]
    by_cases hfont : fontEnd ≤ address
    · simp only [hfont, and_true, if_true, Function.update_apply]
    · simp only [hfont, and_false, if_false]

theorem kind_of_mem_writeLog {values : List Int} {a : Access}
    (h : a ∈ writeLog address values) : a.kind = .write := by
  induction values generalizing address with
  | nil => cases h
  | cons value rest ih =>
      rcases List.mem_cons.1 h with rfl | hrest
      · rfl
      · exact ih hrest

theorem traced_writtenAll (values : List Int) (h : Mapped size b) (ha : 0 ≤ address)
    (hfit : address + values.length ≤ size) (hv : ∀ v ∈ values, IsByte v) :
    Traced b (writtenAll b address values) (writeLog address values) := by
  induction values generalizing b address with
  | nil => exact Traced.refl b
  | cons value rest ih =>
      rw [List.length_cons] at hfit
      have hin : InMemory size address := by omega
      have hnext : 0 ≤ address + 1 := by omega
      obtain ⟨hvalue, hvalues⟩ := List.forall_mem_cons.1 hv
      have hone := traced_written h hin hvalue
      have hrest := ih (mapped_written h hin value) hnext (by omega) hvalues
      apply hone.append hrest
      intro a hmem hread
      rw [kind_of_mem_writeLog hmem] at hread
      cases hread

end Buses

/-! ## Instructions and cycles -/

section Cycles

variable {setup : Setup} {size : Int} {form : Form} {opcode : Int} {c : MachineCore}
  {m after : Machine}

/-- Whatever an instruction does to memory is logged. -/
theorem traced_after (h : Mapped size c.bus) (hr : ∀ n, IsByte (c.registers.get n))
    (hfree : ∀ f, ¬Blocked setup size form opcode c.registers f) :
    ∃ accesses, Traced c.bus (busAfter form opcode c) accesses := by
  have hspan := in_range_of_free hfree
  -- No form both reads and writes, so what one reads is what memory held before.
  cases form with
  | draw =>
      have hin := hspan _ rfl
      have hn := n_nonneg opcode
      exact ⟨_, traced_logged h (by omega) (by omega)⟩
  | loadRegisters =>
      have hin := hspan _ rfl
      exact ⟨_, traced_logged h (by omega) (by omega)⟩
  | storeDecimal =>
      have hin := hspan _ rfl
      have hlength := length_decimalDigits (c.registers.get (Opcode.x opcode))
      exact ⟨_, traced_writtenAll (decimalDigits _) h (by omega) (by omega)
        (isByte_decimalDigits (hr _))⟩
  | storeRegisters =>
      have hin := hspan _ rfl
      have hlength := length_map_upTo c.registers.get (Opcode.x opcode)
      exact ⟨_, traced_writtenAll _ h (by omega) (by omega) (isByte_of_mem_map_get hr)⟩
  | _ => exact ⟨[], Traced.refl c.bus⟩

theorem traced_started (h : Mapped size c.bus) (hpc : 0 ≤ c.pc) (hin : c.pc + 1 < size) :
    Traced c.clearLog.bus (started c).bus (readLog c.bus c.pc 2) := by
  have hmapped : Mapped size c.clearLog.bus := h.congr rfl rfl
  have hfit : c.pc + (2 : Nat) ≤ size := by omega
  exact traced_logged hmapped hpc hfit

theorem accounts_advance {s : Snapshot Registers} (h : Wide m.setup size m.core)
    (heq : m.advance = (after, .ok s)) : Accounts m after s := by
  rcases advance_cases h with ⟨f, log, -, hcase⟩ | ⟨form, hfree, hin, hform, hcase⟩
  · rw [hcase] at heq
    cases heq
  · rw [hcase] at heq
    cases heq
    -- The log was cleared first, so it holds the word's reads and what the instruction adds.
    have hbytes := h.registers.bytes
    have hblocked := not_blocked_started hfree hin hform
    obtain ⟨rest, hrest⟩ := traced_after (c := started m.core) h.started.bus hbytes hblocked
    have htrace := (traced_started h.bus h.pc.1 hin).append hrest hrest.reads
    have hlog : (recorded m.setup form m.core).accesses = readLog m.core.bus m.core.pc 2 ++ rest :=
      htrace.log
    refine ⟨⟨_, _, rest, hlog, ?_⟩, ?_, ?_⟩
    · have hopcode : (recorded m.setup form m.core).operation.opcode =
          wordAt m.core.bus m.core.pc := rfl
      rw [hopcode, wordAt]
      omega
    · rw [hlog]
      exact htrace.reads
    · rw [hlog]
      exact htrace.memory

end Cycles

/-! ## Runs -/

def snapshot? (reply : Reply) : Option (Snapshot Registers) :=
  match reply.result with
  | .ok (.snapshot s) => some s
  | _ => none

def accesses (replies : List Reply) : List Access :=
  (replies.filterMap snapshot?).flatMap Snapshot.accesses

/-- The requests that let a machine run: it advances, its timers count down, keys are pressed. -/
def Drives : Request → Prop
  | .advance | .tick | .setKey _ _ => True
  | _ => False

section Runs

variable {s : Settings} {h : Host} {r : Request}

theorem accesses_cons (reply : Reply) (rest : List Reply) :
    accesses (reply :: rest) = accesses [reply] ++ accesses rest := by
  have hcons : reply :: rest = [reply] ++ rest := rfl
  unfold accesses
  rw [hcons, List.filterMap_append, List.flatMap_append]

theorem Drives.isOperation (hr : Drives r) : IsOperation r := by
  cases r with
  | advance | tick | setKey => trivial
  | _ => exact hr.elim

theorem peek_handle (hh : Held s h) (hr : Drives r) :
    (h.handle r).1.machine.core.bus.peek =
      replayed h.machine.core.bus.peek (accesses [(h.handle r).2]) := by
  cases r with
  | advance =>
      rcases advance_cases hh.fits with ⟨f, log, -, heq⟩ | ⟨form, -, -, -, heq⟩
      · simp only [Host.handle, perform_advance_error heq]
        rfl
      · have haccounts := accounts_advance hh.fits heq
        simp only [Host.handle, perform_advance_ok heq]
        have hone : accesses [{ result := .ok (.snapshot
            (recorded h.machine.setup form h.machine.core)) }] =
              (recorded h.machine.setup form h.machine.core).accesses := List.append_nil _
        exact haccounts.memory.trans (congrArg _ hone.symm)
  | tick =>
      have hcore := core_tick h.machine h.script
      change (h.machine.tick h.script).1.core.bus.peek = _
      rw [hcore]
      rfl
  | setKey index down =>
      rcases setKey_cases h.machine index down with heq | ⟨keypad, heq⟩
      all_goals
        simp only [Host.handle, Host.perform, heq]
        rfl
  | _ => exact hr.elim

theorem peek_handleAll (hh : Reachable s h) {requests : List Request}
    (hr : ∀ r ∈ requests, Drives r) :
    (h.handleAll requests).machine.core.bus.peek =
      replayed h.machine.core.bus.peek (accesses (replies h requests)) := by
  induction requests generalizing h with
  | nil => rfl
  | cons r rest ih =>
      obtain ⟨hfirst, hlater⟩ := List.forall_mem_cons.1 hr
      have hstep := peek_handle hh.held hfirst
      have hrest := ih (hh.request hfirst.isOperation) hlater
      let next := (h.handle r).1
      calc (next.handleAll rest).machine.core.bus.peek
          = replayed next.machine.core.bus.peek (accesses (replies next rest)) := hrest
        _ = replayed (replayed h.machine.core.bus.peek (accesses [(h.handle r).2]))
              (accesses (replies next rest)) := by rw [hstep]
        _ = replayed h.machine.core.bus.peek (accesses (replies h (r :: rest))) := by
              rw [replies, accesses_cons _ (replies next rest), replayed_append]

end Runs

/-- Snapshots account for memory: that of a cycle for what the cycle fetched, read and left, and
those of a run for what the run left.  The log of earlier work does not show in them. -/
theorem trace_accounts_for_memory {s : Settings} {h : Host} (hh : Reachable s h) :
    (∀ log after snapshot, (relogged h.machine log).advance = (after, .ok snapshot) →
      Accounts h.machine after snapshot) ∧
    ∀ requests, (∀ r ∈ requests, Drives r) →
      (h.handleAll requests).machine.core.bus.peek =
        replayed h.machine.core.bus.peek (accesses (replies h requests)) := by
  refine ⟨?_, fun requests hr => peek_handleAll hh hr⟩
  intro log after snapshot heq
  rw [advance_relogged] at heq
  exact accounts_advance hh.held.fits heq

/-- Of two bytes that are written the one above the font is in memory afterwards, and an access
that was logged earlier does not show. -/
theorem trace_of_store :
    Reachable { memorySize := 0x60, loadAddress := 0x50 } storing ∧
    ∃ after snapshot,
      (relogged storing.machine [⟨0x5F, 0, .read⟩]).advance = (after, .ok snapshot) ∧
      snapshot.accesses = [⟨0x54, 0xF1, .read⟩, ⟨0x55, 0x55, .read⟩, ⟨0x4F, 0, .write⟩,
        ⟨0x50, 7, .write⟩] ∧
      Accounts storing.machine after snapshot ∧ after.core.bus.peek 0x50 = .ok 7 ∧
      (storing.handleAll [.advance, .tick, .advance]).machine.core.bus.peek =
        replayed storing.machine.core.bus.peek
          (accesses (replies storing [.advance, .tick, .advance])) := by
  obtain ⟨after, snapshot, heq, -, haccesses⟩ := advance_storing
  obtain ⟨hstep, hrun⟩ := trace_accounts_for_memory reachable_storing
  have hrelogged := (advance_relogged storing.machine [⟨0x5F, 0, .read⟩]).trans heq
  have haccounts := hstep _ after snapshot hrelogged
  have hmemory := haccounts.memory
  rw [haccesses] at hmemory
  refine ⟨reachable_storing, after, snapshot, hrelogged, haccesses, haccounts, ?_, hrun _ ?_⟩
  · rw [hmemory]
    rfl
  · intro r hr
    simp only [List.mem_cons, List.not_mem_nil, or_false] at hr
    rcases hr with rfl | rfl | rfl <;> trivial

end Chip8.Proofs.Host.Trace
