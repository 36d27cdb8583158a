import Chip8.Debug.Debugger
import Chip8.Proofs.Debug.Breakpoint
import Chip8.Proofs.Host.Invariant

/-!
# Runs of the debugger

A run advances the machine until the first of four conditions holds: its budget is spent, a
breakpoint holds after a step, a breakpoint on the program counter is reached, or an advance would
fail.  What it keeps of the steps is told by the snapshots of plain advances.
-/

namespace Chip8.Proofs.Debug.Run

open Chip8.Memory
open Chip8.Proofs.Instruction.Cycle Chip8.Proofs.Machine.Representation
open Chip8.Proofs.Machine.Operations Chip8.Proofs.Host.Invariant
open Chip8.Proofs.Debug.Breakpoint

/-! ## Plain advances -/

def advanced (m : Machine) : Nat → Machine
  | 0 => m
  | j + 1 => (advanced m j).advance.1

def snapshots (m : Machine) : Nat → List (Snapshot Registers)
  | 0 => []
  | j + 1 => snapshots m j ++ (advanced m j).advance.2.toOption.toList

def HoldsAfter (bps : List Breakpoint) (m : Machine) : Nat → Prop
  | 0 => False
  | j + 1 => ∃ s, (advanced m j).advance.2 = .ok s ∧
    AnyHolds bps s (advanced m j).registerMap (advanced m (j + 1)).registerMap

/-- Whether a breakpoint on the program counter is reached after some advances, at least one. -/
def HoldsAt (bps : List Breakpoint) (m : Machine) (k : Nat) : Prop :=
  0 < k ∧ ∃ bp ∈ bps, bp.isActive = true ∧ bp.kind = .pcMatch ∧
    bp.value.same (.int (advanced m k).core.pc) = true

/-- Whether a run ends after so many advances without trying another one. -/
def Pauses (bps : List Breakpoint) (m : Machine) (budget k : Nat) : Prop :=
  k = budget ∨ HoldsAfter bps m k ∨ HoldsAt bps m k

/-- Whether a run ends after so many advances. -/
def Stops (bps : List Breakpoint) (m : Machine) (budget k : Nat) : Prop :=
  Pauses bps m budget k ∨ ∃ f, (advanced m k).advance.2 = .error (.fault f)

/-- What a run leaves that ends after `k` advances. -/
structure Outcome (d : Debugger Registers) (m : Machine) (budget k : Nat)
    (result : Debugger Registers × MachineCore × Debugger.Ending) : Prop where
  stops : Stops d.breakpoints m budget k
  first : ∀ j < k, ¬Stops d.breakpoints m budget j
  count : (snapshots m k).length = k
  machine : ∃ log, { m with core := result.2.1 } = relogged (advanced m k) log
  history : result.1.history = Debugger.lastOf d.limit (d.history ++ snapshots m k)
  last : result.1.last = (snapshots m k).getLast?.or d.last
  paused : Pauses d.breakpoints m budget k →
    result.1.lastFault = if k = 0 then d.lastFault else none
  halted : ¬Pauses d.breakpoints m budget k →
    ∃ f, (advanced m k).advance.2 = .error (.fault f) ∧ result.1.lastFault = some f
  limit : result.1.limit = d.limit
  breakpoints : result.1.breakpoints = d.breakpoints
  ended : ∀ e, result.2.2 ≠ .failed e

section Advances

variable {m next : Machine} {size : Int} {j : Nat}

theorem advanced_eq (m : Machine) (j : Nat) :
    advanced m j = { m with core := (advanced m j).core } := by
  induction j with
  | zero => rfl
  | succ j ih =>
      have hrun : ∀ m : Machine, m.advance.1 = { m with core := m.advance.1.core } := by
        intro m
        unfold Machine.advance Machine.run
        split <;> rfl
      rw [advanced, hrun, ih]

theorem setup_advanced (m : Machine) (j : Nat) : (advanced m j).setup = m.setup := by
  rw [advanced_eq]

theorem wide_advanced (h : Wide m.setup size m.core) (j : Nat) :
    Wide m.setup size (advanced m j).core := by
  induction j with
  | zero => exact h
  | succ j ih =>
      have hadvance := wide_advance (m := advanced m j) (by rw [setup_advanced]; exact ih)
      rw [setup_advanced] at hadvance
      exact hadvance

theorem advanced_cases (h : Wide m.setup size m.core) (j : Nat) :
    (∃ f log, (advanced m j).advance = (relogged (advanced m j) log, .error (.fault f))) ∨
    (∃ s, (advanced m j).advance = (advanced m (j + 1), .ok s)) := by
  have hfit := wide_advanced h j
  rw [← setup_advanced m j] at hfit
  rcases advance_cases hfit with ⟨f, log, -, heq⟩ | ⟨form, -, -, -, heq⟩
  · exact .inl ⟨f, log, heq⟩
  · refine .inr ⟨recorded (advanced m j).setup form (advanced m j).core, ?_⟩
    rw [advanced, heq]

end Advances

/-! ## Steps of a debugger -/

section Steps

variable {m next : Machine} {d : Debugger Registers}

theorem lastOf_of_le {α : Type} {limit : Nat} {l : List α} (h : l.length ≤ limit) :
    Debugger.lastOf limit l = l := by
  unfold Debugger.lastOf
  rw [Nat.sub_eq_zero_of_le h, List.drop_zero]

theorem lastOf_concat {α : Type} (limit : Nat) (l : List α) (x : α) :
    Debugger.lastOf limit (Debugger.lastOf limit l ++ [x]) = Debugger.lastOf limit (l ++ [x]) := by
  unfold Debugger.lastOf
  rw [← List.drop_append_of_le_length (Nat.sub_le _ _), List.drop_drop]
  congr 1
  simp only [List.length_drop, List.length_append, List.length_singleton]
  omega

theorem step_fault {f : Fault} (heq : m.advance = (next, .error (.fault f))) :
    d.step (instructionSet m.setup) m.core =
      ({ d with before := m.registerMap, lastFault := some f }, next.core, .error (.fault f)) := by
  unfold Machine.advance Machine.run at heq
  split at heq
  · cases heq
  · rename_i e core hstep
    cases heq
    simp only [Debugger.step, hstep]
    rfl

theorem step_ok {s : Snapshot Registers} (heq : m.advance = (next, .ok s)) :
    d.step (instructionSet m.setup) m.core =
      (Debugger.record { d with before := m.registerMap } s, next.core, .ok s) := by
  unfold Machine.advance Machine.run at heq
  split at heq
  · rename_i s core hstep
    cases heq
    simp only [Debugger.step, hstep]
    rfl
  · cases heq

/-! One pass of the loop of a debugger that runs. -/

variable {done left : Nat}

theorem hitsAt_iff_holdsAt :
    (0 < done ∧ d.hitsAt (advanced m done).core.pc = true) ↔ HoldsAt d.breakpoints m done := by
  simp only [HoldsAt, Debugger.hitsAt, List.any_eq_true, hitsAt_iff]

theorem runFrom_at (hrunning : d.running = true) (hhits : 0 < done ∧ d.hitsAt m.core.pc = true) :
    Debugger.runFrom (instructionSet m.setup) none done (left + 1) d m.core =
      (d, m.core, .reported (.hitAt m.core.pc)) := by
  rw [Debugger.runFrom, if_neg (by simp [hrunning]), if_pos hhits]

theorem runFrom_fault (hrunning : d.running = true)
    (hhits : ¬(0 < done ∧ d.hitsAt m.core.pc = true)) {f : Fault}
    (heq : m.advance = (next, .error (.fault f))) :
    Debugger.runFrom (instructionSet m.setup) none done (left + 1) d m.core =
      ({ d with before := m.registerMap, lastFault := some f }, next.core,
        .reported (.halted m.core.pc f)) := by
  rw [Debugger.runFrom, if_neg (by simp [hrunning]), if_neg hhits, step_fault heq]

theorem runFrom_ok (hrunning : d.running = true)
    (hhits : ¬(0 < done ∧ d.hitsAt m.core.pc = true)) {s : Snapshot Registers}
    (heq : m.advance = (next, .ok s)) {b : Bool}
    (hany : Breakpoint.anyHitsAfter d.breakpoints s m.registerMap next.registerMap = .ok b) :
    Debugger.runFrom (instructionSet m.setup) none done (left + 1) d m.core =
      if b then
        (Debugger.record { d with before := m.registerMap } s, next.core,
          .reported (.hitAfter s.address s.operation.text))
      else
        Debugger.runFrom (instructionSet m.setup) none (done + 1) left
          (Debugger.record { d with before := m.registerMap } s) next.core := by
  have hafter : Debugger.hitsAfter (Debugger.record { d with before := m.registerMap } s) s
      ((instructionSet m.setup).registerMap next.core) = .ok b := hany
  rw [Debugger.runFrom, if_neg (by simp [hrunning]), if_neg hhits, step_ok heq]
  dsimp only
  rw [if_neg (by simp), hafter]
  cases b <;> rfl

end Steps

/-! ## The loop -/

/-- A debugger in the middle of a run, after so many advances. -/
structure Going (d₀ : Debugger Registers) (m : Machine) (done : Nat) (d : Debugger Registers) :
    Prop where
  count : (snapshots m done).length = done
  history : d.history = Debugger.lastOf d₀.limit (d₀.history ++ snapshots m done)
  last : d.last = (snapshots m done).getLast?.or d₀.last
  lastFault : d.lastFault = if done = 0 then d₀.lastFault else none
  limit : d.limit = d₀.limit
  breakpoints : d.breakpoints = d₀.breakpoints
  running : d.running = true

section Loop

variable {d₀ d : Debugger Registers} {m next : Machine} {size : Int} {budget done : Nat}

theorem Going.start (d : Debugger Registers) (m : Machine) (h : d.history.length ≤ d.limit) :
    Going d m 0 { d with running := true } := by
  refine ⟨rfl, ?_, rfl, rfl, rfl, rfl, rfl⟩
  have hhistory : d.history ++ snapshots m 0 = d.history := List.append_nil _
  rw [hhistory, lastOf_of_le h]

theorem Going.record (h : Going d₀ m done d) {s : Snapshot Registers}
    (heq : (advanced m done).advance = (next, .ok s)) (before : List (String × Int)) :
    Going d₀ m (done + 1) (Debugger.record { d with before } s) := by
  have hsnapshots : snapshots m (done + 1) = snapshots m done ++ [s] := by
    rw [snapshots, heq]
    rfl
  refine ⟨?_, ?_, ?_, rfl, h.limit, h.breakpoints, h.running⟩
  · rw [hsnapshots, List.length_append, h.count, List.length_singleton]
  · simp only [Debugger.record, h.history, h.limit, hsnapshots, lastOf_concat, List.append_assoc]
  · simp [Debugger.record, hsnapshots]

theorem Going.outcome (h : Going d₀ m done d) (hpauses : Pauses d₀.breakpoints m budget done)
    (hfirst : ∀ j < done, ¬Stops d₀.breakpoints m budget j) {ending : Debugger.Ending}
    (hended : ∀ e, ending ≠ .failed e) :
    Outcome d₀ m budget done (d, (advanced m done).core, ending) where
  stops := .inl hpauses
  first := hfirst
  count := h.count
  machine := ⟨(advanced m done).core.bus.log, (advanced_eq m done).symm⟩
  history := h.history
  last := h.last
  paused := fun _ => h.lastFault
  halted := fun hnot => absurd hpauses hnot
  limit := h.limit
  breakpoints := h.breakpoints
  ended := hended

theorem Going.halted (h : Going d₀ m done d) (hnot : ¬Pauses d₀.breakpoints m budget done)
    (hfirst : ∀ j < done, ¬Stops d₀.breakpoints m budget j) {f : Fault} {log : List Access}
    (heq : (advanced m done).advance = (relogged (advanced m done) log, .error (.fault f)))
    (before : List (String × Int)) {ending : Debugger.Ending} (hended : ∀ e, ending ≠ .failed e) :
    Outcome d₀ m budget done
      ({ d with before, lastFault := some f }, (relogged (advanced m done) log).core, ending) where
  stops := .inr ⟨f, by rw [heq]⟩
  first := hfirst
  count := h.count
  machine := by
    refine ⟨log, ?_⟩
    rw [advanced_eq m done]
    rfl
  history := h.history
  last := h.last
  paused := fun hpauses => absurd hpauses hnot
  halted := fun _ => ⟨f, by rw [heq], rfl⟩
  limit := h.limit
  breakpoints := h.breakpoints
  ended := hended

theorem Going.hitsAt_iff (h : Going d₀ m done d) :
    (0 < done ∧ d.hitsAt (advanced m done).core.pc = true) ↔
      HoldsAt d₀.breakpoints m done :=
  h.breakpoints ▸ hitsAt_iff_holdsAt

theorem holdsAfter_succ_iff {bps : List Breakpoint} {s : Snapshot Registers} {j : Nat}
    (heq : (advanced m j).advance = (next, .ok s)) :
    HoldsAfter bps m (j + 1) ↔
      AnyHolds bps s (advanced m j).registerMap (advanced m (j + 1)).registerMap := by
  simp only [HoldsAfter, heq, Except.ok.injEq, exists_eq_left']

/-- A run that neither pauses nor fails goes on. -/
theorem first_succ {bps : List Breakpoint} {s : Snapshot Registers} {j : Nat}
    (hfirst : ∀ i < j, ¬Stops bps m budget i) (hnot : ¬Pauses bps m budget j)
    (heq : (advanced m j).advance = (next, .ok s)) : ∀ i < j + 1, ¬Stops bps m budget i := by
  intro i hi
  rcases Nat.lt_or_eq_of_le (Nat.le_of_lt_succ hi) with hlt | rfl
  · exact hfirst i hlt
  · rintro (hpauses | ⟨f, hfault⟩)
    · exact hnot hpauses
    · rw [heq] at hfault
      cases hfault

/-- From the middle of a run on, the run ends where the first of its conditions holds.  The
condition after the latest advance has been looked at already. -/
theorem Going.run (hfit : Wide m.setup size m.core)
    (hbps : ∀ bp ∈ d₀.breakpoints, CanBeJudged bp) {left : Nat} (hleft : done + left = budget)
    (h : Going d₀ m done d) (hfirst : ∀ j < done, ¬Stops d₀.breakpoints m budget j)
    (hafter : ¬HoldsAfter d₀.breakpoints m done) :
    ∃ k, Outcome d₀ m budget k
      (Debugger.runFrom (instructionSet m.setup) none done left d (advanced m done).core) := by
  -- What is left shrinks as `done` grows; `hfirst` and `hafter` say what has been ruled out.
  induction left generalizing done d with
  | zero =>
      have hpauses : Pauses d₀.breakpoints m budget done := .inl hleft
      exact ⟨done, h.outcome hpauses hfirst fun e => nofun⟩
  | succ left ih =>
      rw [← setup_advanced m done]
      by_cases hat : HoldsAt d₀.breakpoints m done
      · have hhits := h.hitsAt_iff.2 hat
        rw [runFrom_at h.running hhits]
        exact ⟨done, h.outcome (.inr (.inr hat)) hfirst fun e => nofun⟩
      · have hhits := fun hhits => hat (h.hitsAt_iff.1 hhits)
        have hnot : ¬Pauses d₀.breakpoints m budget done := by
          rintro (heq | hholds | hholds)
          · omega
          · exact hafter hholds
          · exact hat hholds
        rcases advanced_cases hfit done with ⟨f, log, heq⟩ | ⟨s, heq⟩
        · rw [runFrom_fault h.running hhits heq]
          exact ⟨done, h.halted hnot hfirst heq _ fun e => nofun⟩
        · have hgoing := h.record heq (advanced m done).registerMap
          obtain ⟨b, hany, hiff⟩ := anyHitsAfter_eq (s := s) (nodup_names (advanced m done))
            (nodup_names (advanced m (done + 1))) hbps
          rw [← holdsAfter_succ_iff heq] at hiff
          have hlater := first_succ hfirst hnot heq
          rw [runFrom_ok h.running hhits heq (h.breakpoints ▸ hany)]
          cases b with
          | true =>
              exact ⟨done + 1, hgoing.outcome (.inr (.inl (hiff.1 rfl))) hlater fun e => nofun⟩
          | false =>
              rw [setup_advanced]
              have hnone : ¬HoldsAfter d₀.breakpoints m (done + 1) := by
                intro hholds
                cases hiff.2 hholds
              exact ih (by omega) hgoing hlater hnone

theorem Outcome.stop {k : Nat} {c : MachineCore} {ending : Debugger.Ending}
    (h : Outcome d₀ m budget k (d, c, ending)) : Outcome d₀ m budget k (d.stop, c, ending) :=
  { h with }

theorem run_cases {ρ δ : Type} (isa : InstructionSet ρ δ) (d : Debugger ρ) (c : Core ρ δ)
    (budget : Nat) (stopAfter : Option Nat) :
    let result := Debugger.runFrom isa stopAfter 0 budget { d with running := true } c
    (∃ e, result.2.2 = .failed e) ∧ d.run isa c budget stopAfter = result ∨
      (∀ e, result.2.2 ≠ .failed e) ∧
        d.run isa c budget stopAfter = (result.1.stop, result.2) := by
  unfold Debugger.run
  dsimp only
  split
  · rename_i heq
    rw [heq]
    exact .inl ⟨⟨_, rfl⟩, rfl⟩
  · rename_i hnot heq
    rw [heq]
    exact .inr ⟨fun e he => hnot e he, rfl⟩

theorem run_eq_stop {d : Debugger Registers} {c : MachineCore}
    (h : ∀ e, (Debugger.runFrom (instructionSet m.setup) none 0 budget { d with running := true }
      c).2.2 ≠ .failed e) :
    d.run (instructionSet m.setup) c budget none =
      let result := Debugger.runFrom (instructionSet m.setup) none 0 budget
        { d with running := true } c
      (result.1.stop, result.2) := by
  rcases run_cases (instructionSet m.setup) d c budget none with ⟨⟨e, hfailed⟩, -⟩ | ⟨-, heq⟩
  · exact absurd hfailed (h e)
  · exact heq

end Loop

/-- A run goes as far as plain advances do up to the first condition that ends it, and keeps their
snapshots.  It never breaks off, and it leaves a debugger that does not run. -/
theorem run_refines_advances {s : Settings} {h : Host} (hh : Reachable s h)
    (hword : s.loadAddress ≤ 0xFFFF) (d : Debugger Registers)
    (hhistory : d.history.length ≤ d.limit) (hbps : ∀ bp ∈ d.breakpoints, CanBeJudged bp)
    (budget : Nat) :
    let result := d.run (instructionSet h.machine.setup) h.machine.core budget none
    (∃ k, Outcome d h.machine budget k result) ∧ result.1.running = false := by
  have hgoing := Going.start d h.machine hhistory
  have hfit := (hh.steady hword).toKept.fits
  obtain ⟨k, houtcome⟩ := hgoing.run hfit hbps (Nat.zero_add budget) (fun j => nofun) (fun h => h)
  have hrun := run_eq_stop (c := h.machine.core) houtcome.ended
  dsimp only
  rw [hrun]
  exact ⟨⟨k, houtcome.stop⟩, rfl⟩

def counting : Host :=
  Host.handleAll { machine := newMachine { memorySize := 0x60, loadAddress := 0x50 } }
    [.load (.list [.int 0x60, .int 0x05, .int 0x70, .int 0x01, .int 0x10, .int 0x52])]

theorem reachable_counting : Reachable { memorySize := 0x60, loadAddress := 0x50 } counting :=
  reachable_small (by simp [IsOperation])

def watching : Debugger Registers where
  limit := 4
  breakpoints := [{ kind := .pcMatch, value := .int 0x50 },
    { kind := .registerValue, register := .text "V0", value := .int 8 }]

/-- The breakpoint on the register stops the run after six instructions, of which the last four are
kept. -/
theorem run_refines_advances_counting :
    Reachable { memorySize := 0x60, loadAddress := 0x50 } counting ∧ (0x50 : Int) ≤ 0xFFFF ∧
    watching.history.length ≤ watching.limit ∧ (∀ bp ∈ watching.breakpoints, CanBeJudged bp) ∧
    let result :=
      watching.run (instructionSet counting.machine.setup) counting.machine.core 20 none
    (∃ k, Outcome watching counting.machine 20 k result) ∧ result.1.running = false ∧
      result.2.1.cycles = 6 ∧ result.2.1.registers.get 0 = 8 ∧
      result.1.history.map (fun s => s.address) = [0x54, 0x52, 0x54, 0x52] := by
  have hbps : ∀ bp ∈ watching.breakpoints, CanBeJudged bp := by
    simp [watching, CanBeJudged, Value.canBeSought, Value.canBeKey]
  have hrun := run_refines_advances reachable_counting (by decide) watching (by decide) hbps 20
  exact ⟨reachable_counting, by decide, by decide, hbps, hrun.1, hrun.2, by decide +kernel,
    by decide +kernel, by decide +kernel⟩

end Chip8.Proofs.Debug.Run
