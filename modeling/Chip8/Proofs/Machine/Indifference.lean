import Chip8.Proofs.Machine.Operations

/-!
# What instructions do not look at

Most forms of instruction neither look at the timers nor change them, and so it is with the keys
and with the random stream.  A machine in which such a part is altered does the same, and the
alteration stays.  Taking the part as it is, this says that an instruction which does not look at
it leaves it alone.
-/

namespace Chip8.Proofs.Machine.Indifference

open Chip8.Memory Chip8.Instruction
open Chip8.Proofs.Memory.Layout Chip8.Proofs.Instruction.Action
open Chip8.Proofs.Instruction.Effect Chip8.Proofs.Instruction.Cycle
open Chip8.Proofs.Machine.Representation Chip8.Proofs.Machine.Operations

/-! ## Alterations -/

def altered (g : Registers → Registers) (k : Hardware → Hardware) (c : MachineCore) :
    MachineCore :=
  { c with registers := g c.registers, hardware := k c.hardware }

def alteredMachine (g : Registers → Registers) (k : Hardware → Hardware) (m : Machine) :
    Machine :=
  { m with core := altered g k m.core }

/-- Whether instructions of a form do the same on altered registers and hardware. -/
def Indifferent (setup : Setup) (form : Form) (g : Registers → Registers)
    (k : Hardware → Hardware) : Prop :=
  ∀ opcode c, after setup form opcode (altered g k c) = altered g k (after setup form opcode c)

/-- Whether the registers that decide about faults are left alone. -/
def SparesFaults (g : Registers → Registers) : Prop :=
  ∀ r, (g r).index = r.index ∧ (g r).stack = r.stack

section Cycles

variable {setup : Setup} {size : Int} {form : Form} {opcode : Int} {c : MachineCore}
  {g : Registers → Registers} {k : Hardware → Hardware} {f : Fault}

theorem blocked_of_spared {r r' : Registers} (hindex : r'.index = r.index)
    (hstack : r'.stack = r.stack) (hblocked : Blocked setup size form opcode r f) :
    Blocked setup size form opcode r' f := by
  cases hblocked with
  | underflow hform hempty => exact .underflow hform (hstack.trans hempty)
  | overflow hform hlimit hfull => exact .overflow hform hlimit (hstack ▸ hfull)
  | outside hspan hout =>
      unfold OutOfRange at hout
      rw [← hindex] at hout ⊢
      exact .outside hspan hout

theorem fails_of_spared {r r' : Registers} {hardware hardware' : Hardware}
    (hindex : r'.index = r.index) (hstack : r'.stack = r.stack)
    (hf : Fails setup size { c with registers := r, hardware := hardware } f) :
    Fails setup size { c with registers := r', hardware := hardware' } f := by
  cases hf with
  | fetch hout => exact .fetch hout
  | decode hin hform => exact .decode hin hform
  | execute hin hform hblocked =>
      exact .execute hin hform (blocked_of_spared hindex hstack hblocked)

theorem fails_altered_iff (hg : SparesFaults g) :
    Fails setup size (altered g k c) f ↔ Fails setup size c f :=
  have ⟨hindex, hstack⟩ := hg c.registers
  ⟨fails_of_spared hindex.symm hstack.symm, fails_of_spared hindex hstack⟩

theorem executed_altered (h : Indifferent setup form g k) :
    executed setup form (altered g k c) = altered g k (executed setup form c) :=
  h (wordAt c.bus c.pc) (started c)

theorem stepped_altered (h : Indifferent setup form g k) :
    stepped setup form (altered g k c) = altered g k (stepped setup form c) := by
  unfold stepped
  rw [executed_altered h]
  rfl

theorem recorded_altered (h : Indifferent setup form g k) :
    recorded setup form (altered g k c) =
      { recorded setup form c with registers := g (recorded setup form c).registers } := by
  unfold recorded
  rw [executed_altered h]
  rfl

end Cycles

/-! ## Advances -/

structure Executes (size : Int) (m : Machine) (form : Form) : Prop where
  free : ∀ f, ¬Fails m.setup size m.core f
  inside : m.core.pc + 1 < size
  found : Form.ofOpcode? (wordAt m.core.bus m.core.pc) = some form

section Advances

variable {m : Machine} {size : Int} {g : Registers → Registers} {k : Hardware → Hardware}

theorem Executes.advance_eq {form : Form} (hform : Executes size m form)
    (h : Wide m.setup size m.core) :
    m.advance =
      ({ m with core := stepped m.setup form m.core }, .ok (recorded m.setup form m.core)) :=
  advance_eq_of_free h hform.free hform.found

theorem exists_executes (h : Wide m.setup size m.core) {after : Machine}
    {s : Snapshot Registers} (heq : m.advance = (after, .ok s)) :
    ∃ form, Executes size m form ∧ after = { m with core := stepped m.setup form m.core } ∧
      s = recorded m.setup form m.core := by
  rcases advance_cases h with ⟨f, log, -, hfailed⟩ | ⟨form, hfree, hin, hform, hdone⟩
  · rw [hfailed] at heq
    cases heq
  · rw [hdone] at heq
    cases heq
    exact ⟨form, ⟨hfree, hin, hform⟩, rfl, rfl⟩

/-- A machine advances in the same way when parts are altered that its instruction does not look
at. -/
theorem advance_altered (h : Wide m.setup size m.core)
    (h' : Wide m.setup size (altered g k m.core)) (hg : SparesFaults g)
    (hform : ∀ form, Executes size m form → Indifferent m.setup form g k) :
    (alteredMachine g k m).advance =
      (alteredMachine g k m.advance.1,
        m.advance.2.map fun s => { s with registers := g s.registers }) := by
  rcases advance_cases h with ⟨f, log, hf, -⟩ | ⟨form, hfree, hin, hfound, heq⟩
  · have hother := advance_eq_of_fails (m := alteredMachine g k m) h' ((fails_altered_iff hg).2 hf)
    rw [advance_eq_of_fails h hf]
    exact hother
  · have hindifferent := hform form ⟨hfree, hin, hfound⟩
    have hother := advance_eq_of_free (m := alteredMachine g k m) h'
      (fun f hf => hfree f ((fails_altered_iff hg).1 hf)) hfound
    have hstepped : stepped m.setup form (altered g k m.core) = _ := stepped_altered hindifferent
    have hrecorded : recorded m.setup form (altered g k m.core) = _ :=
      recorded_altered hindifferent
    rw [hother, heq]
    exact Prod.ext (congrArg (fun core => { m with core }) hstepped)
      (congrArg Except.ok hrecorded)

/-- What an alteration leaves as it is, an indifferent instruction leaves as it is, too. -/
theorem advance_of_unaltered (h : Wide m.setup size m.core) (hg : SparesFaults g)
    (hform : ∀ form, Executes size m form → Indifferent m.setup form g k)
    (hsame : alteredMachine g k m = m) :
    m.advance =
      (alteredMachine g k m.advance.1,
        m.advance.2.map fun s => { s with registers := g s.registers }) := by
  have hcore : altered g k m.core = m.core := congrArg Machine.core hsame
  have hadvance := advance_altered h (hcore.symm ▸ h) hg hform
  rw [hsame] at hadvance
  exact hadvance

theorem advance_altered_hardware (h : Wide m.setup size m.core)
    (h' : Wide m.setup size (altered id k m.core))
    (hform : ∀ form, Executes size m form → Indifferent m.setup form id k) :
    (alteredMachine id k m).advance = (alteredMachine id k m.advance.1, m.advance.2) := by
  rw [advance_altered h h' (fun r => ⟨rfl, rfl⟩) hform]
  cases m.advance.2 <;> rfl

end Advances

/-! ## The timers -/

def timerForms : List Form := [.readDelay, .setDelay, .setSound]

def withTimers (delay sound : Int) (r : Registers) : Registers :=
  { r with delay, sound }

section Timers

variable {setup : Setup} {form : Form} {delay sound : Int}

theorem loadedFrom_withTimers (b : Bus) (names : List (Fin 16)) (r : Registers) (address : Int) :
    loadedFrom b (withTimers delay sound r) address names =
      withTimers delay sound (loadedFrom b r address names) := by
  induction names generalizing r address with
  | nil => rfl
  | cons n rest ih => exact ih (r.set n (byteAt b address)) (address + 1)

theorem combine_withTimers (f : Int → Int → Int) (clears : Bool) (x y : Fin 16) (r : Registers) :
    (withTimers delay sound r).combine f clears x y =
      withTimers delay sound (r.combine f clears x y) := by
  cases clears <;> rfl

theorem registersAfter_withTimers (hform : form ∉ timerForms) (opcode : Int) (c : MachineCore) :
    registersAfter setup form opcode (altered (withTimers delay sound) id c) =
      withTimers delay sound (registersAfter setup form opcode c) := by
  cases form with
  | readDelay | setDelay | setSound => exact absurd (by decide) hform
  | or | and | xor => exact combine_withTimers _ _ _ _ _
  | waitKey =>
      simp only [registersAfter, altered, id]
      cases c.hardware.keypad.first? <;> rfl
  | loadRegisters =>
      exact congrArg (passed setup.dialect (Opcode.x opcode)) (loadedFrom_withTimers _ _ _ _)
  -- The other forms set registers one by one and carry the timers along.
  | _ => rfl

theorem indifferent_timers (hform : form ∉ timerForms) :
    Indifferent setup form (withTimers delay sound) id := by
  intro opcode c
  have hpc : pcAfter form opcode (altered (withTimers delay sound) id c) =
      pcAfter form opcode c := by cases form <;> rfl
  have hbus : busAfter form opcode (altered (withTimers delay sound) id c) =
      busAfter form opcode c := by cases form <;> rfl
  have hhardware : hardwareAfter form opcode (altered (withTimers delay sound) id c) =
      hardwareAfter form opcode c := by cases form <;> rfl
  unfold after
  rw [hpc, hbus, hhardware, registersAfter_withTimers hform]
  rfl

end Timers

/-! ## The keys -/

def keyForms : List Form := [.skipPressed, .skipReleased, .waitKey]

def withKeypad (keypad : Keypad) (hardware : Hardware) : Hardware :=
  { hardware with keypad }

theorem indifferent_keypad {setup : Setup} {form : Form} (hform : form ∉ keyForms)
    (keypad : Keypad) : Indifferent setup form id (withKeypad keypad) := by
  intro opcode c
  cases form with
  | skipPressed | skipReleased | waitKey => exact absurd (by decide) hform
  | _ => rfl

end Chip8.Proofs.Machine.Indifference
