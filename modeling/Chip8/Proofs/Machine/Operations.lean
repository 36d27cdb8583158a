import Chip8.Proofs.Machine.Representation

/-!
# The operations of a machine

What a host can ask of a machine, each with its possible outcomes: advancing, loading a program,
pressing keys, resetting and counting the timers down.  An operation that fails leaves the machine
as it was, but for the log of the bus.
-/

namespace Chip8.Proofs.Machine.Operations

open Chip8.Memory
open Chip8.Proofs.Memory.Layout Chip8.Proofs.Memory.Transfer
open Chip8.Proofs.Instruction.Action (Housed)
open Chip8.Proofs.Instruction.Effect (riskyForms not_blocked)
open Chip8.Proofs.Instruction.Cycle Chip8.Proofs.Machine.Representation

def relogged (m : Machine) (log : List Access) : Machine :=
  { m with core := withLog m.core log }

variable {m : Machine} {size : Int}

/-! ## Program images -/

theorem isByte_of_mapM {values : List Value} {data : List Int}
    (h : values.mapM Image.byte = .ok data) : ∀ v ∈ data, IsByte v := by
  induction values generalizing data with
  | nil =>
      cases h
      simp
  | cons value rest ih =>
      simp only [List.mapM_cons, bind, Except.bind, pure, Except.pure] at h
      cases hvalue : Image.byte value with
      | error e => simp [hvalue] at h
      | ok first =>
          cases hrest : rest.mapM Image.byte with
          | error e => simp [hvalue, hrest] at h
          | ok others =>
              rw [hvalue, hrest] at h
              cases h
              intro v hv
              rcases List.mem_cons.1 hv with rfl | hmem
              · unfold Image.byte at hvalue
                split at hvalue
                · split at hvalue <;> cases hvalue
                  assumption
                · cases hvalue
              · exact ih hrest v hmem

theorem isByte_of_ofCount {count : Int} {image : Image} (h : Image.ofCount count = .ok image) :
    ∀ v ∈ image.toList, IsByte v := by
  unfold Image.ofCount at h
  split at h
  · cases h
  · split at h
    · cases h
    · split at h
      · cases h
      · split at h <;> cases h
        simp only [Image.toList, List.mem_replicate]
        omega

theorem map_bytes_ok {r : Except Image.Error (List Int)} {image : Image}
    (h : r.map Image.bytes = .ok image) : ∃ data, r = .ok data ∧ image = .bytes data := by
  cases r with
  | error e => cases h
  | ok data =>
      cases h
      exact ⟨data, rfl, rfl⟩

theorem isByte_of_ofValue {value : Value} {image : Image}
    (h : Image.ofValue value = .ok image) : ∀ v ∈ image.toList, IsByte v := by
  have hlist : ∀ {values : List Value}, (values.mapM Image.byte).map Image.bytes = .ok image →
      ∀ v ∈ image.toList, IsByte v := by
    intro values hmap
    obtain ⟨data, hdata, rfl⟩ := map_bytes_ok hmap
    exact isByte_of_mapM hdata
  cases value with
  | list items | tuple items | set items => exact hlist h
  | map entries => exact hlist h
  | bytes data =>
      cases h
      simp only [Image.toList, List.mem_map]
      rintro v ⟨b, -, rfl⟩
      have := b.toNat_lt
      omega
  | bool b => exact isByte_of_ofCount h
  | int z => exact isByte_of_ofCount h
  | _ => cases h

/-! ## Outcomes -/

theorem advance_eq_of_fails (h : Wide m.setup size m.core) {f : Fault}
    (hf : Fails m.setup size m.core f) :
    m.advance = (relogged m (fetchLog size m.core), .error (.fault f)) := by
  unfold Machine.advance Machine.run
  rw [step_of_fails h.housed h.pc.1 hf]
  rfl

theorem advance_of_fails (h : Wide m.setup size m.core) {f : Fault}
    (hf : Fails m.setup size m.core f) :
    ∃ log, m.advance = (relogged m log, .error (.fault f)) :=
  ⟨_, advance_eq_of_fails h hf⟩

theorem advance_eq_of_free {form : Form} (h : Wide m.setup size m.core)
    (hfree : ∀ f, ¬Fails m.setup size m.core f)
    (hform : Form.ofOpcode? (wordAt m.core.bus m.core.pc) = some form) :
    m.advance =
      ({ m with core := stepped m.setup form m.core }, .ok (recorded m.setup form m.core)) := by
  obtain ⟨found, hfound, hstep⟩ := step_of_not_fails h.housed h.pc.1 h.registers.bytes hfree
  have hsame : form = found := Option.some.inj (hform.symm.trans hfound)
  subst hsame
  unfold Machine.advance Machine.run
  rw [hstep]

theorem advance_of_safe {form : Form} (h : Wide m.setup size m.core)
    (hin : m.core.pc + 1 < size)
    (hform : Form.ofOpcode? (wordAt m.core.bus m.core.pc) = some form)
    (hsafe : form ∉ riskyForms) :
    m.advance =
      ({ m with core := stepped m.setup form m.core }, .ok (recorded m.setup form m.core)) :=
  advance_eq_of_free h (not_fails_of_free hin hform (not_blocked hsafe m.core.registers)) hform

theorem executeWord_of_ok {form : Form} {word : Int} {core : MachineCore}
    (hform : Form.ofOpcode? word = some form)
    (happly : Instruction.ofForm m.setup form word m.core = .ok () core) :
    m.executeWord word = ({ m with core }, .ok ()) := by
  unfold Machine.executeWord Operation.decode
  rw [hform]
  dsimp only
  unfold Machine.run
  rw [execute_ofForm, happly]

theorem advance_relogged (m : Machine) (log : List Access) :
    (relogged m log).advance = m.advance := rfl

/-- What an advance can do. -/
theorem advance_cases (h : Wide m.setup size m.core) :
    (∃ f log, Fails m.setup size m.core f ∧
      m.advance = (relogged m log, .error (.fault f))) ∨
    (∃ form, (∀ f, ¬Fails m.setup size m.core f) ∧ m.core.pc + 1 < size ∧
      Form.ofOpcode? (wordAt m.core.bus m.core.pc) = some form ∧
      m.advance =
        ({ m with core := stepped m.setup form m.core },
          .ok (recorded m.setup form m.core))) := by
  unfold Machine.advance Machine.run
  rcases step_cases h with ⟨f, log, hf, hstep⟩ | ⟨form, hfree, hin, hform, hstep⟩
  · exact .inl ⟨f, log, hf, by rw [hstep]; rfl⟩
  · exact .inr ⟨form, hfree, hin, hform, by rw [hstep]⟩

/-- A program of bytes is refused whole if it does not fit, and loaded whole otherwise. -/
theorem load_cases (h : Housed size m.core) (haddress : 0 ≤ m.setup.loadAddress)
    {image : Image} (hbytes : ∀ v ∈ image.toList, IsByte v) :
    (size < m.setup.loadAddress + image.size ∧
      m.load image =
        (m, .error (.fault (.outOfMemory image.size m.setup.loadAddress size)))) ∨
    (m.setup.loadAddress + image.size ≤ size ∧
      m.load image =
        ({ m with core := { m.core with
          bus := loadedAll m.core.bus m.setup.loadAddress image.toList } }, .ok ())) := by
  unfold Machine.load
  rw [h.memorySize]
  by_cases hfit : size < m.setup.loadAddress + image.size
  · exact .inl ⟨hfit, if_pos hfit⟩
  · have hlength : m.setup.loadAddress + image.toList.length ≤ size := by
      rw [Image.length_toList]
      omega
    refine .inr ⟨by omega, ?_⟩
    dsimp only
    rw [if_neg hfit, loadAll_eq image.toList h.bus haddress hlength hbytes]

theorem setKey_cases (m : Machine) (index : Value) (down : Bool) :
    (m.setKey index down = (m, .error (.fault (.invalidKey index)))) ∨
    (∃ keypad, m.setKey index down =
      ({ m with core :=
        { m.core with hardware := { m.core.hardware with keypad } } }, .ok ())) := by
  unfold Machine.setKey Keypad.set
  cases index.int?.bind Keypad.key? with
  | none => exact .inl rfl
  | some key => exact .inr ⟨_, rfl⟩

theorem reset_eq (h : Mapped size m.core.bus) :
    m.reset =
      ({ m with
        core :=
          { pc := m.setup.loadAddress
            registers := {}
            bus := renewed m.core.bus
            hardware := { m.core.hardware with
              display := m.core.hardware.display.clear
              keypad := m.core.hardware.keypad.releaseAll }
            cycles := 0 }
        tone := m.tone.reset }, .ok ()) := by
  simp only [Machine.reset, Machine.resetCore, loadFont_eq (quiet_clearWritable h).mapped]
  rfl

/-! ## What is fixed -/

section Setup

variable (m : Machine)

theorem setup_load (image : Image) : (m.load image).1.setup = m.setup := by
  unfold Machine.load
  dsimp only
  split
  · rfl
  · split <;> rfl

theorem setup_tick (script : Text → List ToneAction) :
    (m.tick script).1.setup = m.setup := rfl

theorem setup_setKey (index : Value) (down : Bool) :
    (m.setKey index down).1.setup = m.setup := by
  unfold Machine.setKey
  split <;> rfl

theorem setup_reset : m.reset.1.setup = m.setup := by
  unfold Machine.reset
  split <;> rfl

end Setup

/-! ## The representation -/

theorem fit_stepped {form : Form} (h : Wide m.setup size m.core)
    (hfree : ∀ f, ¬Fails m.setup size m.core f) (hin : m.core.pc + 1 < size)
    (hform : Form.ofOpcode? (wordAt m.core.bus m.core.pc) = some form) :
    Fit m.setup size (stepped m.setup form m.core) := by
  have hexecuted := h.executed hfree hin hform
  exact { hexecuted with bus := hexecuted.bus.congr rfl rfl }

theorem wide_advance (h : Wide m.setup size m.core) :
    Wide m.setup size m.advance.1.core := by
  rcases advance_cases h with ⟨f, log, -, heq⟩ | ⟨form, hfree, hin, hform, heq⟩
  · rw [heq]
    exact h.withLog log
  · rw [heq]
    exact (fit_stepped h hfree hin hform).wide

theorem wide_load (h : Wide m.setup size m.core) (haddress : 0 ≤ m.setup.loadAddress)
    {image : Image} (hbytes : ∀ v ∈ image.toList, IsByte v) :
    Wide m.setup size (m.load image).1.core := by
  rcases load_cases h.housed haddress hbytes with ⟨-, heq⟩ | ⟨hfit, heq⟩
  · rw [heq]
    exact h
  · rw [heq]
    rw [← Image.length_toList] at hfit
    exact { h with bus := (quiet_loadedAll image.toList h.bus haddress hfit).mapped }

theorem wide_setKey (h : Wide m.setup size m.core) (index : Value) (down : Bool) :
    Wide m.setup size (m.setKey index down).1.core := by
  rcases setKey_cases m index down with heq | ⟨keypad, heq⟩
  · rw [heq]
    exact h
  · rw [heq]
    exact { h with }

theorem wide_reset (h : Wide m.setup size m.core) (haddress : 0 ≤ m.setup.loadAddress)
    (hlimit : ∀ n, m.setup.stackLimit = some n → 0 ≤ n) :
    Wide m.setup size m.reset.1.core := by
  rw [reset_eq h.bus]
  exact ⟨⟨haddress, .inr rfl⟩, registersFit_new hlimit, mapped_renewed h.bus, h.display.clear,
    h.memorySize⟩

theorem tick_eq (m : Machine) (script : Text → List ToneAction) :
    m.tick script =
      ({ m with
        core := { m.core with registers := m.core.registers.countDown }
        tone := (tickTimers script m.core.registers m.tone).2.1 },
        (tickTimers script m.core.registers m.tone).2.2) := by
  unfold Machine.tick tickTimers
  dsimp only
  split <;> rfl

theorem core_tick (m : Machine) (script : Text → List ToneAction) :
    (m.tick script).1.core = { m.core with registers := m.core.registers.countDown } := by
  rw [tick_eq]

theorem wide_tick (h : Wide m.setup size m.core) (script : Text → List ToneAction) :
    Wide m.setup size (m.tick script).1.core := by
  rw [core_tick]
  exact { h with registers := h.registers.countDown }

end Chip8.Proofs.Machine.Operations
