import Chip8.Proofs.Debug.Run

/-!
# Debuggers that go on running

A run tells its debugger to stop when it ends by its budget, on a breakpoint, on a fault or on
demand.  It does not when it is broken off: by an address that no device answers, or by a breakpoint
that cannot be judged.  Then the debugger counts as running until it is told to stop.  This holds
over any bus, whatever it maps.
-/

namespace Chip8.Proofs.Debug.Running

open Chip8.Memory
open Chip8.Proofs.Debug.Run

/-! ## When a run is broken off -/

def judgement (bps : List Breakpoint) (m : Machine) (j : Nat) (s : Snapshot Registers) :
    Except Breakpoint.LookupError Bool :=
  Breakpoint.anyHitsAfter bps s (advanced m j).registerMap (advanced m (j + 1)).registerMap

def Passes (bps : List Breakpoint) (m : Machine) (j : Nat) : Prop :=
  ∃ s, (advanced m j).advance.2 = .ok s ∧ judgement bps m j s = .ok false

/-- Whether the advance after `k` ones fails without a fault, or cannot be judged. -/
def BreaksOff (bps : List Breakpoint) (m : Machine) (k : Nat) : Prop :=
  (∃ e, (advanced m k).advance.2 = .error (.memory e)) ∨
    ∃ s e, (advanced m k).advance.2 = .ok s ∧ judgement bps m k s = .error e

def BrokenOff (bps : List Breakpoint) (m : Machine) (done left : Nat) : Prop :=
  ∃ k, done ≤ k ∧ k < done + left ∧ BreaksOff bps m k ∧
    (∀ j, done ≤ j → j < k → Passes bps m j) ∧ ∀ j, done ≤ j → j ≤ k → ¬HoldsAt bps m j

section Conditions

variable {bps : List Breakpoint} {m : Machine} {done left : Nat}

theorem not_brokenOff_zero : ¬BrokenOff bps m done 0 := by
  rintro ⟨k, hle, hlt, -⟩
  omega

theorem brokenOff_succ_iff :
    BrokenOff bps m done (left + 1) ↔
      ¬HoldsAt bps m done ∧
        (BreaksOff bps m done ∨ Passes bps m done ∧ BrokenOff bps m (done + 1) left) := by
  constructor
  · rintro ⟨k, hle, hlt, hbreaks, hpasses, hat⟩
    refine ⟨hat done (Nat.le_refl _) hle, ?_⟩
    rcases Nat.eq_or_lt_of_le hle with rfl | hlater
    · exact .inl hbreaks
    · refine .inr ⟨hpasses done (Nat.le_refl _) hlater, k, hlater, by omega, hbreaks, ?_, ?_⟩
      · exact fun j hj hjk => hpasses j (by omega) hjk
      · exact fun j hj hjk => hat j (by omega) hjk
  · rintro ⟨hnow, hbreaks | ⟨hpass, k, hle, hlt, hbreaks, hpasses, hat⟩⟩
    · refine ⟨done, Nat.le_refl _, by omega, hbreaks, fun j hj hjk => by omega, ?_⟩
      intro j hj hjk
      rw [Nat.le_antisymm hjk hj]
      exact hnow
    · refine ⟨k, by omega, by omega, hbreaks, ?_, ?_⟩
      · intro j hj hjk
        rcases Nat.eq_or_lt_of_le hj with rfl | hlater
        · exact hpass
        · exact hpasses j hlater hjk
      · intro j hj hjk
        rcases Nat.eq_or_lt_of_le hj with rfl | hlater
        · exact hnow
        · exact hat j hlater hjk

theorem not_breaksOff_fault {f : Fault} (h : (advanced m done).advance.2 = .error (.fault f)) :
    ¬BreaksOff bps m done ∧ ¬Passes bps m done := by
  simp [BreaksOff, Passes, h]

theorem breaksOff_iff_of_ok {s : Snapshot Registers} (h : (advanced m done).advance.2 = .ok s) :
    BreaksOff bps m done ↔ ∃ e, judgement bps m done s = .error e := by
  simp [BreaksOff, h]

theorem passes_iff_of_ok {s : Snapshot Registers} (h : (advanced m done).advance.2 = .ok s) :
    Passes bps m done ↔ judgement bps m done s = .ok false := by
  simp [Passes, h]

end Conditions

/-! ## The loop -/

section Loop

variable {m next : Machine} {d : Debugger Registers} {done left : Nat}

theorem step_memory {e : Error} (heq : m.advance = (next, .error (.memory e))) :
    d.step (instructionSet m.setup) m.core =
      ({ d with before := m.registerMap }, next.core, .error (.memory e)) := by
  unfold Machine.advance Machine.run at heq
  split at heq
  · cases heq
  · rename_i e core hstep
    cases heq
    simp only [Debugger.step, hstep]
    rfl

theorem runFrom_memory (hrunning : d.running = true)
    (hhits : ¬(0 < done ∧ d.hitsAt m.core.pc = true)) {e : Error}
    (heq : m.advance = (next, .error (.memory e))) :
    Debugger.runFrom (instructionSet m.setup) none done (left + 1) d m.core =
      ({ d with before := m.registerMap }, next.core, .failed (.memory e)) := by
  rw [Debugger.runFrom, if_neg (by simp [hrunning]), if_neg hhits, step_memory heq]

theorem runFrom_lookup (hrunning : d.running = true)
    (hhits : ¬(0 < done ∧ d.hitsAt m.core.pc = true)) {s : Snapshot Registers}
    (heq : m.advance = (next, .ok s)) {e : Breakpoint.LookupError}
    (hany : Breakpoint.anyHitsAfter d.breakpoints s m.registerMap next.registerMap = .error e) :
    Debugger.runFrom (instructionSet m.setup) none done (left + 1) d m.core =
      (Debugger.record { d with before := m.registerMap } s, next.core, .failed (.lookup e)) := by
  have hafter : Debugger.hitsAfter (Debugger.record { d with before := m.registerMap } s) s
      ((instructionSet m.setup).registerMap next.core) = .error e := hany
  rw [Debugger.runFrom, if_neg (by simp [hrunning]), if_neg hhits, step_ok heq]
  dsimp only
  rw [if_neg (by simp), hafter]

/-- From the middle of a run on, the debugger stays running, and the loop fails where the run is
broken off. -/
theorem runFrom_outcome (m : Machine) (done left : Nat) (hrunning : d.running = true) :
    let r := Debugger.runFrom (instructionSet m.setup) none done left d (advanced m done).core
    r.1.running = true ∧ ((∃ e, r.2.2 = .failed e) ↔ BrokenOff d.breakpoints m done left) := by
  induction left generalizing done d with
  | zero => exact ⟨hrunning, by simp [Debugger.runFrom, not_brokenOff_zero]⟩
  | succ left ih =>
      dsimp only
      rw [brokenOff_succ_iff, ← setup_advanced m done]
      by_cases hat : HoldsAt d.breakpoints m done
      · rw [runFrom_at hrunning (hitsAt_iff_holdsAt.2 hat)]
        exact ⟨hrunning, by simp [hat]⟩
      · have hhits := fun hhits => hat (hitsAt_iff_holdsAt.1 hhits)
        rcases hadvance : (advanced m done).advance with ⟨next, (f | e) | s⟩
        case fault =>
          obtain ⟨hbreaks, hpasses⟩ :
              ¬BreaksOff d.breakpoints m done ∧ ¬Passes d.breakpoints m done :=
            not_breaksOff_fault (congrArg Prod.snd hadvance)
          rw [runFrom_fault hrunning hhits hadvance]
          exact ⟨hrunning, by simp [hbreaks, hpasses]⟩
        case memory =>
          have hbreaks : BreaksOff d.breakpoints m done := .inl ⟨e, congrArg Prod.snd hadvance⟩
          rw [runFrom_memory hrunning hhits hadvance]
          exact ⟨hrunning, by simp [hat, hbreaks]⟩
        case ok =>
          have hs : (advanced m done).advance.2 = .ok s := congrArg Prod.snd hadvance
          have hnext : next = advanced m (done + 1) := (congrArg Prod.fst hadvance).symm
          rw [hnext] at hadvance
          rw [breaksOff_iff_of_ok hs, passes_iff_of_ok hs]
          cases hjudged : judgement d.breakpoints m done s with
          | error e =>
              rw [runFrom_lookup hrunning hhits hadvance hjudged]
              exact ⟨hrunning, iff_of_true ⟨_, rfl⟩ ⟨hat, .inl ⟨e, rfl⟩⟩⟩
          | ok holds =>
              rw [runFrom_ok hrunning hhits hadvance hjudged]
              cases holds with
              | true => exact ⟨hrunning, by simp⟩
              | false =>
                  rw [if_neg (by simp), setup_advanced]
                  have hlater := ih (done + 1) (d := Debugger.record
                    { d with before := (advanced m done).registerMap } s) hrunning
                  simpa [hat, Debugger.record] using hlater

end Loop

/-- After a run that was not broken off the debugger is not running.  If nobody demands a stop, the
run is broken off by the first advance that fails without a fault or cannot be judged, unless it
ended before, and then the debugger is left running. -/
theorem running_after_run (d : Debugger Registers) (m : Machine) (budget : Nat) :
    (∀ stopAfter, let result := d.run (instructionSet m.setup) m.core budget stopAfter
      result.1.running = false ∨ ∃ e, result.2.2 = .failed e) ∧
    let result := d.run (instructionSet m.setup) m.core budget none
    (result.1.running = true ↔ BrokenOff d.breakpoints m 0 budget) ∧
      ((∃ e, result.2.2 = .failed e) ↔ BrokenOff d.breakpoints m 0 budget) := by
  refine ⟨fun stopAfter => ?demanded, ?undemanded⟩
  case demanded =>
    rcases run_cases (instructionSet m.setup) d m.core budget stopAfter with
      ⟨⟨e, hfailed⟩, heq⟩ | ⟨-, heq⟩
    · exact .inr ⟨e, heq ▸ hfailed⟩
    · exact .inl (by rw [heq]; rfl)
  case undemanded =>
    obtain ⟨hrunning, hfailed⟩ :=
      runFrom_outcome m 0 budget (d := { d with running := true }) rfl
    rcases run_cases (instructionSet m.setup) d m.core budget none with
      ⟨hsome, heq⟩ | ⟨hnone, heq⟩
    · dsimp only
      rw [heq]
      exact ⟨iff_of_true hrunning (hfailed.1 hsome), hfailed⟩
    · have hnot : ¬BrokenOff d.breakpoints m 0 budget := fun hbroken =>
        let ⟨e, he⟩ := hfailed.2 hbroken
        hnone e he
      dsimp only
      rw [heq]
      exact ⟨iff_of_false (by simp [Debugger.stop]) hnot, hfailed⟩

def hollow : Machine :=
  Machine.create {} ((Bus.ofRanges [(.cells .ram, 0x300, 0x30F)]).toOption.getD {})

theorem run_leaves_running :
    let result := Debugger.run (instructionSet hollow.setup) { limit := 1024 } hollow.core 1 none
    result.2.2 = .failed (.memory (.unmapped 0x200)) ∧ result.1.running = true := by
  exact ⟨rfl, rfl⟩

end Chip8.Proofs.Debug.Running
