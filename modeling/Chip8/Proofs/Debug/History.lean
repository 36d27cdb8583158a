import Chip8.Proofs.Debug.Registry
import Chip8.Proofs.Debug.Run
import Mathlib.Data.List.Chain

/-!
# The history of a debugger

Under a debugger every snapshot kept starts where the one before it ended, one cycle later, and
the last one shows the machine as it is.  This holds because an instruction that fails leaves the
program counter and the cycles alone and is not recorded, and because old snapshots are dropped at
the front only.
-/

namespace Chip8.Proofs.Debug.History

open Chip8.Memory
open Chip8.Proofs.Memory.Layout Chip8.Proofs.Memory.Transfer Chip8.Proofs.Memory.Contents
open Chip8.Proofs.Instruction.Cycle Chip8.Proofs.Machine.Representation
open Chip8.Proofs.Machine.Operations Chip8.Proofs.Host.Invariant
open Chip8.Proofs.Debug.Registry Chip8.Proofs.Debug.Run

variable {ρ δ : Type}

/-! ## Attempts

What the steps of a debugger came to, whether they were asked for one by one or made by a run. -/

abbrev Attempt (ρ : Type) := Except Failure (Snapshot ρ)

def successes (attempts : List (Attempt ρ)) : List (Snapshot ρ) :=
  attempts.filterMap Except.toOption

@[simp] theorem successes_ok (attempts : List (Attempt ρ)) (s : Snapshot ρ) :
    successes (attempts ++ [.ok s]) = successes attempts ++ [s] :=
  List.filterMap_append

@[simp] theorem successes_error (attempts : List (Attempt ρ)) (e : Failure) :
    successes (attempts ++ [.error e]) = successes attempts :=
  List.filterMap_append.trans (List.append_nil _)

/-- As `Debugger.runFrom`, with what every step on the way came to. -/
def runTraced (isa : InstructionSet ρ δ) (stopAfter : Option Nat) (done : Nat) :
    (budget : Nat) → Debugger ρ → Core ρ δ →
      (Debugger ρ × Core ρ δ × Debugger.Ending) × List (Attempt ρ)
  | 0, d, c => ((d, c, .finished), [])
  | budget + 1, d, c =>
    if !d.running then ((d, c, .finished), [])
    else if 0 < done ∧ d.hitsAt c.pc then ((d, c, .reported (.hitAt c.pc)), [])
    else
      let pc := c.pc
      match d.step isa c with
      | (d, c, .error (.fault f)) => ((d, c, .reported (.halted pc f)), [.error (.fault f)])
      | (d, c, .error (.memory e)) => ((d, c, .failed (.memory e)), [.error (.memory e)])
      | (d, c, .ok s) =>
        let d := if stopAfter = some (done + 1) then d.stop else d
        match d.hitsAfter s (isa.registerMap c) with
        | .error e => ((d, c, .failed (.lookup e)), [.ok s])
        | .ok true => ((d, c, .reported (.hitAfter s.address s.operation.text)), [.ok s])
        | .ok false =>
          let (result, attempts) := runTraced isa stopAfter (done + 1) budget d c
          (result, .ok s :: attempts)

theorem runTraced_fst (isa : InstructionSet ρ δ) (stopAfter : Option Nat) (budget done : Nat)
    (d : Debugger ρ) (c : Core ρ δ) :
    (runTraced isa stopAfter done budget d c).1 =
      Debugger.runFrom isa stopAfter done budget d c := by
  induction budget generalizing done d c with
  | zero => rfl
  | succ budget ih =>
      unfold runTraced Debugger.runFrom
      split
      · rfl
      split
      · rfl
      rcases d.step isa c with ⟨stepped, core, (f | e) | s⟩
      · rfl
      · rfl
      · dsimp only
        generalize (if stopAfter = some (done + 1) then stepped.stop else stepped) = told
        rcases told.hitsAfter s (isa.registerMap core) with e | _ | _
        · rfl
        · exact ih (done + 1) told core
        · rfl

/-- What single steps keep, a run keeps; it makes the attempts of its trace. -/
theorem runTraced_keeps (isa : InstructionSet ρ δ) (stopAfter : Option Nat) (budget done : Nat)
    {P : Debugger ρ → Core ρ δ → List (Attempt ρ) → Prop}
    (hstep : ∀ d c attempts, P d c attempts →
      P (d.step isa c).1 (d.step isa c).2.1 (attempts ++ [(d.step isa c).2.2]))
    (hstop : ∀ d c attempts, P d c attempts → P d.stop c attempts)
    {d : Debugger ρ} {c : Core ρ δ} {attempts : List (Attempt ρ)}
    (h : P d c attempts) :
    let traced := runTraced isa stopAfter done budget d c
    P traced.1.1 traced.1.2.1 (attempts ++ traced.2) := by
  induction budget generalizing done d c attempts with
  | zero => simpa [runTraced] using h
  | succ budget ih =>
      have hnext := hstep d c attempts h
      unfold runTraced
      split
      · simpa using h
      split
      · simpa using h
      dsimp only
      split
      · rename_i heq
        rw [heq] at hnext
        exact hnext
      · rename_i heq
        rw [heq] at hnext
        exact hnext
      · rename_i stepped core s heq
        rw [heq] at hnext
        have htold : P (if stopAfter = some (done + 1) then stepped.stop else stepped) core
            (attempts ++ [.ok s]) := by
          split
          · exact hstop _ _ _ hnext
          · exact hnext
        generalize (if stopAfter = some (done + 1) then stepped.stop else stepped) = told at htold
        split
        · exact htold
        · exact htold
        · have hlater := ih (done + 1) htold
          simpa using hlater

theorem run_keeps (isa : InstructionSet ρ δ) (stopAfter : Option Nat) (budget : Nat)
    {P : Debugger ρ → Core ρ δ → List (Attempt ρ) → Prop}
    (hstep : ∀ d c attempts, P d c attempts →
      P (d.step isa c).1 (d.step isa c).2.1 (attempts ++ [(d.step isa c).2.2]))
    (hstop : ∀ d c attempts, P d c attempts → P d.stop c attempts)
    {d : Debugger ρ} {c : Core ρ δ} (attempts : List (Attempt ρ))
    (h : P { d with running := true } c attempts) :
    let result := d.run isa c budget stopAfter
    P result.1 result.2.1
      (attempts ++ (runTraced isa stopAfter 0 budget { d with running := true } c).2) := by
  have htraced := runTraced_keeps isa stopAfter budget 0 hstep hstop h
  dsimp only at htraced ⊢
  rw [runTraced_fst] at htraced
  unfold Debugger.run
  split <;> rename_i heq <;> rw [heq] at htraced
  · exact htraced
  · exact hstop _ _ _ htraced

/-! ## One snapshot after another -/

/-- The second snapshot starts where the first one ended, one cycle later. -/
def Follows (a b : Snapshot Registers) : Prop :=
  b.address = a.pc ∧ b.cycles = a.cycles + 1

/-- A debugger after some attempts, whose history fits together and fits the machine. -/
structure Coherent (setup : Setup) (size : Int) (limit : Nat) (d : Debugger Registers)
    (c : MachineCore) (attempts : List (Attempt Registers)) : Prop where
  wide : Wide setup size c
  limit_eq : d.limit = limit
  bounded : d.history.length ≤ limit
  kept : d.history <:+ successes attempts
  chained : d.history.IsChain Follows
  last : ∀ x, d.history.getLast? = some x → d.last = some x
  current : ∀ x, d.last = some x → x.pc = c.pc ∧ x.cycles = c.cycles
  fault : ∀ f, d.lastFault = some f ↔ attempts.getLast? = some (.error (.fault f))

section Lists

variable {α : Type} {R : α → α → Prop} {limit : Nat} {l : List α} {x : α}

theorem length_lastOf (limit : Nat) (l : List α) : (Debugger.lastOf limit l).length ≤ limit := by
  unfold Debugger.lastOf
  rw [List.length_drop]
  omega

theorem getLast?_lastOf (h : (Debugger.lastOf limit l).getLast? = some x) :
    l.getLast? = some x := by
  unfold Debugger.lastOf at h
  rw [List.getLast?_drop] at h
  split at h
  · cases h
  · exact h

theorem isChain_lastOf_concat (h : l.IsChain R) (hlast : ∀ y, l.getLast? = some y → R y x) :
    (Debugger.lastOf limit (l ++ [x])).IsChain R := by
  have hconcat : (l ++ [x]).IsChain R := by
    refine h.append (.singleton x) ?_
    intro y hy z hz
    cases hz
    exact hlast y hy
  -- Elements are dropped at the front only, so that those left still follow one another.
  exact hconcat.drop _

end Lists

section Steps

variable {setup : Setup} {size : Int} {limit : Nat} {d : Debugger Registers} {c : MachineCore}
  {attempts : List (Attempt Registers)}

theorem Coherent.record (h : Coherent setup size limit d c attempts) {form : Form}
    (hwide : Wide setup size (stepped setup form c)) (before : List (String × Int)) :
    Coherent setup size limit
      (Debugger.record { d with before } (recorded setup form c)) (stepped setup form c)
      (attempts ++ [.ok (recorded setup form c)]) where
  wide := hwide
  limit_eq := h.limit_eq
  bounded := h.limit_eq ▸ length_lastOf _ _
  kept := by
    obtain ⟨older, heq⟩ := h.kept
    rw [successes_ok, ← heq, List.append_assoc]
    exact (List.drop_suffix _ _).trans (List.suffix_append _ _)
  chained := by
    refine isChain_lastOf_concat h.chained fun x hx => ?_
    obtain ⟨hpc, hcycles⟩ := h.current x (h.last x hx)
    refine ⟨hpc.symm, ?_⟩
    rw [hcycles]
    rfl
  last := by
    intro x hx
    have hlast := getLast?_lastOf hx
    rw [List.getLast?_concat] at hlast
    exact hlast
  current := by
    rintro x ⟨⟩
    exact ⟨rfl, rfl⟩
  fault := by
    intro f
    rw [List.getLast?_concat]
    constructor <;> intro hf <;> cases hf

theorem Coherent.failed (h : Coherent setup size limit d c attempts) (f : Fault)
    (log : List Access) (before : List (String × Int)) :
    Coherent setup size limit { d with before, lastFault := some f } (withLog c log)
      (attempts ++ [.error (.fault f)]) :=
  { h with
    wide := h.wide.withLog log
    kept := by
      rw [successes_error]
      exact h.kept
    fault := by
      intro g
      rw [List.getLast?_concat]
      simp }

/-- A step keeps the history coherent, whatever it comes to. -/
theorem Coherent.step (h : Coherent setup size limit d c attempts) :
    let stepped := d.step (instructionSet setup) c
    Coherent setup size limit stepped.1 stepped.2.1 (attempts ++ [stepped.2.2]) := by
  have hcases := advance_cases (m := { setup, core := c, tone := {} }) h.wide
  dsimp only
  rcases hcases with ⟨f, log, -, heq⟩ | ⟨form, hfree, hin, hform, heq⟩
  · rw [step_fault heq]
    exact h.failed f log _
  · rw [step_ok heq]
    have hfit := fit_stepped (m := { setup, core := c, tone := {} }) h.wide hfree hin hform
    exact h.record hfit.wide _

theorem Coherent.congr {d' : Debugger Registers} (h : Coherent setup size limit d c attempts)
    (hlimit : d'.limit = d.limit) (hhistory : d'.history = d.history) (hlast : d'.last = d.last)
    (hfault : d'.lastFault = d.lastFault) : Coherent setup size limit d' c attempts := by
  obtain ⟨hwide, hlimit', hbounded, hkept, hchained, hlast', hcurrent, hfault'⟩ := h
  rw [← hlimit] at hlimit'
  rw [← hhistory] at hbounded hkept hchained hlast'
  rw [← hlast] at hlast' hcurrent
  rw [← hfault] at hfault'
  exact ⟨hwide, hlimit', hbounded, hkept, hchained, hlast', hcurrent, hfault'⟩

theorem Coherent.run (h : Coherent setup size limit d c attempts) (budget : Nat)
    (stopAfter : Option Nat) :
    let result := d.run (instructionSet setup) c budget stopAfter
    Coherent setup size limit result.1 result.2.1
      (attempts ++
        (runTraced (instructionSet setup) stopAfter 0 budget { d with running := true } c).2) := by
  have hstart : Coherent setup size limit { d with running := true } c attempts :=
    h.congr rfl rfl rfl rfl
  exact run_keeps (instructionSet setup) stopAfter budget (P := Coherent setup size limit)
    (fun d c attempts h => h.step) (fun d c attempts h => h.congr rfl rfl rfl rfl) attempts hstart

theorem Coherent.clearHistory (h : Coherent setup size limit d c attempts) :
    Coherent setup size limit d.clearHistory c attempts :=
  { h with
    bounded := Nat.zero_le _
    kept := List.nil_suffix
    chained := .nil
    last := by
      intro x hx
      cases hx }

theorem Coherent.withCore {c' : MachineCore} (h : Coherent setup size limit d c attempts)
    (hwide : Wide setup size c') (hpc : c'.pc = c.pc) (hcycles : c'.cycles = c.cycles) :
    Coherent setup size limit d c' attempts :=
  { h with
    wide := hwide
    current := by
      rw [hpc, hcycles]
      exact h.current }

/-- The calls that edit the breakpoints leave the history alone. -/
theorem Coherent.add (h : Coherent setup size limit d c attempts) (bp : Breakpoint) :
    Coherent setup size limit (d.add bp) c attempts := by
  unfold Debugger.add
  split
  · exact h
  · exact h.congr rfl rfl rfl rfl

theorem Coherent.update (h : Coherent setup size limit d c attempts) (old new : Breakpoint) :
    Coherent setup size limit (d.update old new).1 c attempts := by
  unfold Debugger.update
  split
  · exact h.congr rfl rfl rfl rfl
  · exact h

theorem coherent_create {limit : Int} (hd : Debugger.create limit = .ok d)
    (hwide : Wide setup size c) : Coherent setup size limit.toNat d c [] := by
  obtain ⟨-, rfl⟩ := create_eq hd
  refine ⟨hwide, rfl, Nat.zero_le _, List.nil_suffix, .nil, ?_, ?_, ?_⟩
  · intro x hx
    cases hx
  · intro x hx
    cases hx
  · intro f
    constructor <;> intro hf <;> cases hf

end Steps

/-! ## Hosts that debug -/

/-- The requests of a host that steps its machine by the debugger only. -/
def IsDebugging : Request → Prop
  | .debugStep | .debugRun _ _ | .debugStop | .addBreakpoint _ | .updateBreakpoint _ _
  | .removeBreakpoint _ | .clearHistory | .tick | .setKey _ _ | .load _ => True
  | _ => False

def attempts (h : Host) : Request → List (Attempt Registers)
  | .debugStep => [(h.debugger.step (instructionSet h.machine.setup) h.machine.core).2.2]
  | .debugRun budget stopAfter =>
    (runTraced (instructionSet h.machine.setup) stopAfter 0 budget
      { h.debugger with running := true } h.machine.core).2
  | _ => []

def allAttempts (h : Host) : List Request → List (Attempt Registers)
  | [] => []
  | r :: rest => attempts h r ++ allAttempts (h.handle r).1 rest

/-- A host whose debugger has a coherent history after some attempts. -/
structure Followed (size : Int) (limit : Nat) (h : Host)
    (attempts : List (Attempt Registers)) : Prop where
  coherent : Coherent h.machine.setup size limit h.debugger h.machine.core attempts
  loadAddress : 0 ≤ h.machine.setup.loadAddress

section Hosts

variable {size : Int} {limit : Nat} {h : Host} {made : List (Attempt Registers)}

theorem perform_debugStep (h : Host) :
    let stepped := h.debugger.step (instructionSet h.machine.setup) h.machine.core
    (h.perform .debugStep).1 =
      Host.keep { h with
        debugger := stepped.1
        machine := { h.machine with core := stepped.2.1 } } stepped.2.2 := rfl

theorem perform_debugRun (h : Host) (budget : Nat) (stopAfter : Option Nat) :
    let result := h.debugger.run (instructionSet h.machine.setup) h.machine.core budget stopAfter
    (h.perform (.debugRun budget stopAfter)).1 =
      { h with debugger := result.1, machine := { h.machine with core := result.2.1 } } := by
  dsimp only [Host.perform]
  generalize h.debugger.run (instructionSet h.machine.setup) h.machine.core budget stopAfter = r
  rcases r with ⟨d, core, _ | report | e⟩
  · rfl
  · rfl
  · rfl

theorem Followed.keep (hh : Followed size limit h made)
    (result : Except Failure (Snapshot Registers)) : Followed size limit (h.keep result) made := by
  cases result with
  | error e => exact hh
  | ok s => exact ⟨hh.coherent, hh.loadAddress⟩

theorem Followed.withMachine {m : Machine} (hh : Followed size limit h made)
    (hsetup : m.setup = h.machine.setup) (hwide : Wide h.machine.setup size m.core)
    (hpc : m.core.pc = h.machine.core.pc) (hcycles : m.core.cycles = h.machine.core.cycles) :
    Followed size limit { h with machine := m } made := by
  refine ⟨?_, ?_⟩
  · rw [hsetup]
    exact hh.coherent.withCore hwide hpc hcycles
  · rw [hsetup]
    exact hh.loadAddress

theorem Followed.withDebugger {d : Debugger Registers} (hh : Followed size limit h made)
    (hd : Coherent h.machine.setup size limit d h.machine.core made) :
    Followed size limit { h with debugger := d } made :=
  ⟨hd, hh.loadAddress⟩

theorem Followed.load (hh : Followed size limit h made) {image : Image}
    (hbytes : ∀ v ∈ image.toList, IsByte v) :
    Followed size limit { h with machine := (h.machine.load image).1 } made := by
  have hwide := wide_load hh.coherent.wide hh.loadAddress hbytes
  rcases load_cases hh.coherent.wide.housed hh.loadAddress hbytes with ⟨-, heq⟩ | ⟨-, heq⟩ <;>
  · rw [heq] at hwide ⊢
    exact hh.withMachine rfl hwide rfl rfl

theorem Followed.setKey (hh : Followed size limit h made) (index : Value) (down : Bool) :
    Followed size limit { h with machine := (h.machine.setKey index down).1 } made := by
  have hwide := wide_setKey hh.coherent.wide index down
  rcases setKey_cases h.machine index down with heq | ⟨keypad, heq⟩ <;>
  · rw [heq] at hwide ⊢
    exact hh.withMachine rfl hwide rfl rfl

theorem Followed.tick (hh : Followed size limit h made) :
    Followed size limit { h with machine := (h.machine.tick h.script).1 } made := by
  have hwide := wide_tick hh.coherent.wide h.script
  have hcore := core_tick h.machine h.script
  refine hh.withMachine (setup_tick _ _) hwide ?_ ?_
  · rw [hcore]
  · rw [hcore]

theorem Followed.perform (hh : Followed size limit h made) {r : Request} (hr : IsDebugging r) :
    Followed size limit (h.perform r).1 (made ++ attempts h r) := by
  -- Most requests make no attempt.
  have hidle : Followed size limit h (made ++ []) := by
    rw [List.append_nil]
    exact hh
  cases r with
  | debugStep =>
      rw [perform_debugStep]
      apply Followed.keep
      exact ⟨hh.coherent.step, hh.loadAddress⟩
  | debugRun budget stopAfter =>
      rw [perform_debugRun]
      exact ⟨hh.coherent.run budget stopAfter, hh.loadAddress⟩
  | load value =>
      cases himage : Image.ofValue value with
      | error e =>
          rw [perform_load_error himage]
          exact hidle
      | ok image =>
          rw [perform_load_ok himage]
          exact hidle.load (isByte_of_ofValue himage)
  | setKey index down => exact hidle.setKey index down
  | tick => exact hidle.tick
  | debugStop | removeBreakpoint bp =>
      exact hidle.withDebugger (hidle.coherent.congr rfl rfl rfl rfl)
  | addBreakpoint bp => exact hidle.withDebugger (hidle.coherent.add bp)
  | updateBreakpoint old new => exact hidle.withDebugger (hidle.coherent.update old new)
  | clearHistory => exact hidle.withDebugger hidle.coherent.clearHistory
  | _ => exact hr.elim

theorem Followed.handle (hh : Followed size limit h made) {r : Request} (hr : IsDebugging r) :
    Followed size limit (h.handle r).1 (made ++ attempts h r) := by
  have hperform := hh.perform hr
  have hwide := hperform.coherent.wide
  exact hperform.withMachine rfl { hwide with bus := hwide.bus.congr rfl rfl } rfl rfl

theorem Followed.handleAll (hh : Followed size limit h made) {requests : List Request}
    (hr : ∀ r ∈ requests, IsDebugging r) :
    Followed size limit (h.handleAll requests) (made ++ allAttempts h requests) := by
  induction requests generalizing h made with
  | nil => simpa [allAttempts, Host.handleAll] using hh
  | cons r rest ih =>
      obtain ⟨hfirst, hlater⟩ := List.forall_mem_cons.1 hr
      have hrest := ih (hh.handle hfirst) hlater
      rw [List.append_assoc] at hrest
      exact hrest

end Hosts

/-! ## Hosts before a debugger is made -/

/-- A host that operations and debugging lead to from a newly built machine. -/
inductive Used (s : Settings) : Host → Prop
  | built {m : Machine} (hm : Built s m) (script : Text → List ToneAction) :
      Used s { machine := m, script }
  | request {h : Host} {r : Request} (hh : Used s h)
      (hr : IsOperation r ∨ IsDebugging r ∨ ∃ limit, r = .debug limit) : Used s (h.handle r).1

section Before

variable {s : Settings} {h : Host}

theorem core_step (m : Machine) (d : Debugger Registers) :
    (d.step (instructionSet m.setup) m.core).2.1 = m.advance.1.core := by
  unfold Debugger.step Machine.advance Machine.run
  dsimp only
  rcases (instructionSet m.setup).step m.core with ⟨s, core⟩ | ⟨f | e, core⟩
  · rfl
  · rfl
  · rfl

theorem held_debugStep (hh : Held s h) : Held s (h.perform .debugStep).1 := by
  have hadvance := hh.advance
  rcases advance_cases hh.fits with ⟨f, log, -, heq⟩ | ⟨form, -, -, -, heq⟩
  · rw [perform_advance_error heq] at hadvance
    rw [perform_debugStep, step_fault heq]
    exact { hadvance with }
  · rw [perform_advance_ok heq] at hadvance
    rw [perform_debugStep, step_ok heq]
    exact { hadvance with }

theorem wide_step {setup : Setup} {size : Int} {b : Bus} {c : MachineCore}
    (h : Wide setup size c ∧ SameCells b c.bus) (d : Debugger Registers) :
    Wide setup size (d.step (instructionSet setup) c).2.1 ∧
      SameCells b (d.step (instructionSet setup) c).2.1.bus := by
  obtain ⟨hwide, hcells⟩ := h
  have hadvance := wide_advance (m := { setup, core := c, tone := {} }) hwide
  have hadvance' := sameCells_advance (m := { setup, core := c, tone := {} }) hwide
  rw [core_step { setup, core := c, tone := {} } d]
  exact ⟨hadvance, hcells.trans hadvance'⟩

theorem held_debugRun (hh : Held s h) (budget : Nat) (stopAfter : Option Nat) :
    Held s (h.perform (.debugRun budget stopAfter)).1 := by
  obtain ⟨hwide, hcells⟩ := run_keeps (instructionSet h.machine.setup) stopAfter budget
    (P := fun _ c _ => Wide h.machine.setup s.memorySize c ∧ SameCells (blank s.memorySize) c.bus)
    (fun d _ _ hc => wide_step hc d) (fun _ _ _ hc => hc) (d := h.debugger) []
    ⟨hh.fits, hh.cells⟩
  rw [perform_debugRun]
  exact ⟨hh.setup_eq, hwide, hcells, hh.snapshots⟩

theorem held_debugging (hm : ∃ m, Built s m) (hh : Held s h) {r : Request} (hr : IsDebugging r) :
    Held s (h.perform r).1 := by
  obtain ⟨m, hm⟩ := hm
  cases r with
  | load | tick | setKey => exact hh.perform hm.loadAddress hm.stackLimit trivial
  | debugStep => exact held_debugStep hh
  | debugRun budget stopAfter => exact held_debugRun hh budget stopAfter
  | debugStop | addBreakpoint | removeBreakpoint | updateBreakpoint | clearHistory =>
      exact { hh with }
  | _ => exact hr.elim

theorem held_debug (hh : Held s h) (limit : Int) : Held s (h.perform (.debug limit)).1 := by
  dsimp only [Host.perform]
  split
  · exact { hh with }
  · exact hh

theorem Used.exists_built (hh : Used s h) : ∃ m, Built s m := by
  induction hh with
  | built hm script => exact ⟨_, hm⟩
  | request hh hr ih => exact ih

theorem Used.held (hh : Used s h) : Held s h := by
  obtain ⟨m, hm⟩ := hh.exists_built
  induction hh with
  | built hm script => exact hm.held script
  | request hh hr ih =>
      rcases hr with hr | hr | ⟨limit, rfl⟩
      · exact ih.handle hm.loadAddress hm.stackLimit hr
      · exact (held_debugging ⟨m, hm⟩ ih hr).taken
      · exact (held_debug ih limit).taken

end Before

/-- Whatever a host does with a new debugger, as long as the debugger alone steps the machine: the
history stays within its limit and holds the latest successes, its snapshots follow one another,
the last one is the latest of all and shows how many cycles the machine has done, and a fault is
known as the latest if and only if the latest attempt met it. -/
theorem history_coherent {s : Settings} {h : Host} (hh : Used s h) {limit : Int}
    {d : Debugger Registers} (hd : Debugger.create limit = .ok d) {requests : List Request}
    (hr : ∀ r ∈ requests, IsDebugging r) :
    let start : Host := { h with debugger := d }
    let final := start.handleAll requests
    (final.debugger.history.length : Int) ≤ limit ∧
    final.debugger.history <:+ successes (allAttempts start requests) ∧
    (∀ (i : Nat) (hi : i + 1 < final.debugger.history.length),
      final.debugger.history[i + 1].address = final.debugger.history[i].pc ∧
      final.debugger.history[i + 1].cycles = final.debugger.history[i].cycles + 1) ∧
    (∀ x, final.debugger.history.getLast? = some x →
      final.debugger.last = some x ∧ x.cycles = final.machine.core.cycles) ∧
    (∀ f, final.debugger.lastFault = some f ↔
      (allAttempts start requests).getLast? = some (.error (.fault f))) := by
  obtain ⟨m, hm⟩ := hh.exists_built
  have hpos := (create_eq hd).1
  have hstart : Followed s.memorySize limit.toNat { h with debugger := d } [] :=
    ⟨coherent_create hd hh.held.fits, hh.held.loadAddress_eq ▸ hm.loadAddress⟩
  have hfinal := (hstart.handleAll hr).coherent
  rw [List.nil_append] at hfinal
  refine ⟨?bounded, hfinal.kept, ?chained, ?latest, hfinal.fault⟩
  case bounded =>
    have := hfinal.bounded
    omega
  case chained => exact List.isChain_iff_getElem.1 hfinal.chained
  case latest =>
    intro x hx
    have hlast := hfinal.last x hx
    exact ⟨hlast, (hfinal.current x hlast).2⟩

theorem history_coherent_cleared : ∃ m, Built {} m ∧
    let start : Host := { machine := m, debugger := { limit := 2 } }
    let requests : List Request :=
      [.debugStep, .tick, .debugRun 5 none, .clearHistory, .debugStep, .debugStep]
    let final := start.handleAll requests
    (final.debugger.history.length : Int) ≤ 2 ∧
    (∀ x, final.debugger.history.getLast? = some x → final.debugger.last = some x) ∧
    ∀ f, final.debugger.lastFault = some f ↔
      (allAttempts start requests).getLast? = some (.error (.fault f)) := by
  obtain ⟨m, hm⟩ := exists_standard
  have hd : Debugger.create 2 = .ok ({ limit := 2 } : Debugger Registers) := rfl
  have hr : ∀ r ∈ ([.debugStep, .tick, .debugRun 5 none, .clearHistory, .debugStep, .debugStep] :
      List Request), IsDebugging r := by
    simp [IsDebugging]
  have hall := history_coherent (.built hm fun _ => []) hd hr
  dsimp only at hall ⊢
  obtain ⟨hbounded, -, -, hlatest, hfault⟩ := hall
  exact ⟨m, hm, hbounded, fun x hx => (hlatest x hx).1, hfault⟩

end Chip8.Proofs.Debug.History
