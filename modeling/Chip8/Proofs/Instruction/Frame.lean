import Chip8.Proofs.Instruction.Effect
import Chip8.Proofs.Memory.Contents

/-!
# What instructions leave alone

Each part of the machine is changed by few forms of instruction, which are listed here.  All others
leave it as it is: the call stack, the timers and the index register, memory, the display, the keys
and the random stream.
-/

namespace Chip8.Proofs.Instruction.Frame

open Chip8.Memory Chip8.Instruction
open Chip8.Proofs.Memory.Layout Chip8.Proofs.Memory.Transfer Chip8.Proofs.Memory.Contents
open Chip8.Proofs.Instruction.Action Chip8.Proofs.Instruction.Effect

def stackForms : List Form := [.ret, .call]

def indexForms (dialect : Dialect) : List Form :=
  [.loadIndex, .addIndex, .pointGlyph] ++
    if dialect.movesIndex then [.storeRegisters, .loadRegisters] else []

def storeForms : List Form := [.storeDecimal, .storeRegisters]

def displayForms : List Form := [.clearDisplay, .draw]

/-! ## Registers -/

def GeneralOnly (r r' : Registers) : Prop := r' = { r with v := r'.v }

/-- What instructions of a form leave alone of the registers that are not general. -/
structure Spared (dialect : Dialect) (form : Form) (r r' : Registers) : Prop where
  stack : form ∉ stackForms → r'.stack = r.stack ∧ r'.depth = r.depth
  delay : form ≠ .setDelay → r'.delay = r.delay
  sound : form ≠ .setSound → r'.sound = r.sound
  index : form ∉ indexForms dialect → r'.index = r.index

section Registers

variable {setup : Setup} {dialect : Dialect} {form : Form} {opcode : Int} {c : MachineCore}
  {r r' r'' : Registers}

theorem GeneralOnly.trans (h : GeneralOnly r r') (h' : GeneralOnly r' r'') :
    GeneralOnly r r'' := by
  unfold GeneralOnly at h h' ⊢
  rw [h', h]

theorem generalOnly_set (r : Registers) (n : Fin 16) (value : Int) :
    GeneralOnly r (r.set n value) := rfl

theorem generalOnly_combine (f : Int → Int → Int) (clears : Bool) (x y : Fin 16)
    (r : Registers) : GeneralOnly r (r.combine f clears x y) := by
  cases clears <;> rfl

theorem generalOnly_loadedFrom (b : Bus) (names : List (Fin 16)) (r : Registers)
    (address : Int) : GeneralOnly r (loadedFrom b r address names) := by
  induction names generalizing r address with
  | nil => rfl
  | cons n rest ih => exact (generalOnly_set r n _).trans (ih _ _)

theorem GeneralOnly.spared (h : GeneralOnly r r') : Spared dialect form r r' := by
  unfold GeneralOnly at h
  rw [h]
  exact ⟨fun _ => ⟨rfl, rfl⟩, fun _ => rfl, fun _ => rfl, fun _ => rfl⟩

theorem Spared.trans (h : Spared dialect form r r') (h' : Spared dialect form r' r'') :
    Spared dialect form r r'' where
  stack hform := ⟨(h'.stack hform).1.trans (h.stack hform).1,
    (h'.stack hform).2.trans (h.stack hform).2⟩
  delay hform := (h'.delay hform).trans (h.delay hform)
  sound hform := (h'.sound hform).trans (h.sound hform)
  index hform := (h'.index hform).trans (h.index hform)

theorem spared_passed (hform : form = .storeRegisters ∨ form = .loadRegisters) (x : Fin 16) :
    Spared dialect form r (passed dialect x r) := by
  refine ⟨fun _ => ⟨rfl, rfl⟩, fun _ => rfl, fun _ => rfl, fun hindex => if_neg ?_⟩
  intro hmoves
  apply hindex
  rcases hform with rfl | rfl <;> simp [indexForms, hmoves]

theorem spared_registersAfter (setup : Setup) (form : Form) (opcode : Int) (c : MachineCore) :
    Spared setup.dialect form c.registers (registersAfter setup form opcode c) := by
  cases form with
  | ret | call =>
      exact ⟨fun h => absurd (by decide) h, fun _ => rfl, fun _ => rfl, fun _ => rfl⟩
  | setDelay => exact ⟨fun _ => ⟨rfl, rfl⟩, fun h => absurd rfl h, fun _ => rfl, fun _ => rfl⟩
  | setSound => exact ⟨fun _ => ⟨rfl, rfl⟩, fun _ => rfl, fun h => absurd rfl h, fun _ => rfl⟩
  | loadIndex | addIndex | pointGlyph =>
      exact ⟨fun _ => ⟨rfl, rfl⟩, fun _ => rfl, fun _ => rfl,
        fun h => absurd (by simp [indexForms]) h⟩
  | storeRegisters => exact spared_passed (.inl rfl) _
  | loadRegisters =>
      exact (generalOnly_loadedFrom _ _ _ _).spared.trans (spared_passed (.inr rfl) _)
  | or | and | xor => exact (generalOnly_combine _ _ _ _ _).spared
  | waitKey =>
      apply GeneralOnly.spared
      simp only [registersAfter]
      cases c.hardware.keypad.first? <;> rfl
  -- The other forms set general registers one by one, or none.
  | _ => exact GeneralOnly.spared rfl

end Registers

/-! ## Memory and hardware -/

section Memory

variable {setup : Setup} {size : Int} {form : Form} {opcode : Int} {c : MachineCore}

theorem busAfter_of_not_store (hform : form ∉ storeForms) (opcode : Int) (c : MachineCore) :
    ∃ log, busAfter form opcode c = { c.bus with log } := by
  cases form with
  | storeDecimal | storeRegisters => exact absurd (by decide) hform
  | _ => exact ⟨_, rfl⟩

/-- An instruction that writes changes no more bytes than it needs, and none of the font. -/
theorem peek_busAfter_outside (h : Mapped size c.bus) (hr : ∀ n, IsByte (c.registers.get n))
    (hfree : ∀ f, ¬Blocked setup size form opcode c.registers f) {count : Int}
    (hform : form ∈ storeForms) (hspan : span? form opcode = some count) {a : Int}
    (ha : a < fontEnd ∨ a < c.registers.index ∨ c.registers.index + count ≤ a) :
    (busAfter form opcode c).peek a = c.bus.peek a := by
  have hin := in_range_of_free hfree count hspan
  have hcases : form = .storeDecimal ∨ form = .storeRegisters := by simpa [storeForms] using hform
  rcases hcases with rfl | rfl
  · cases hspan
    have hlength := length_decimalDigits (c.registers.get (Opcode.x opcode))
    exact peek_writtenAll_outside _ h (by omega) (by omega) (isByte_decimalDigits (hr _)) (by omega)
  · cases hspan
    have hlength := length_map_upTo c.registers.get (Opcode.x opcode)
    exact peek_writtenAll_outside _ h (by omega) (by omega) (isByte_of_mem_map_get hr) (by omega)

theorem display_hardwareAfter (hform : form ∉ displayForms) :
    (hardwareAfter form opcode c).display = c.hardware.display := by
  cases form with
  | clearDisplay | draw => exact absurd (by decide) hform
  | _ => rfl

theorem random_hardwareAfter (hform : form ≠ .random) :
    (hardwareAfter form opcode c).random = c.hardware.random := by
  cases form with
  | random => exact absurd rfl hform
  | _ => rfl

end Memory

end Chip8.Proofs.Instruction.Frame
