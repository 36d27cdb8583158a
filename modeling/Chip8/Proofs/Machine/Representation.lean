import Chip8.Machine
import Chip8.Proofs.Instruction.Cycle

/-!
# The representation of a machine

Every register keeps its width, the depth counts the call stack, the display keeps its size and
memory its layout.  The bounds hang together: an index or a timer is copied from registers, and a
program counter is taken from the stack.  Each operation of a machine keeps all of them.
-/

namespace Chip8.Proofs.Machine.Representation

open Chip8.Memory Chip8.Instruction
open Chip8.Proofs.Memory.Layout Chip8.Proofs.Memory.Transfer
open Chip8.Proofs.Instruction.Action Chip8.Proofs.Instruction.Effect
open Chip8.Proofs.Instruction.Cycle

structure RegistersFit (limit : Option Int) (r : Registers) : Prop where
  bytes : ∀ n, IsByte (r.get n)
  index : IsWord r.index
  depth : r.depth = r.stack.length
  limited : ∀ n, limit = some n → (r.stack.length : Int) ≤ n
  stack : ∀ a ∈ r.stack, IsWord a
  delay : IsByte r.delay
  sound : IsByte r.sound

structure Shaped (width height : Nat) (d : Display) : Prop where
  width_eq : d.width = width
  height_eq : d.height = height
  size_eq : d.pixels.size = width * height

/-- The part of a machine that instructions change, with all its values in their widths. -/
structure Fit (setup : Setup) (size : Int) (c : MachineCore) : Prop where
  pc : IsWord c.pc
  registers : RegistersFit setup.stackLimit c.registers
  bus : Mapped size c.bus
  display : Shaped 64 32 c.hardware.display
  memorySize : c.hardware.memorySize = size

/-- As `Fit`, but the program counter may also stand at a load address beyond sixteen bits, where
it is until the first instruction was carried out. -/
structure Wide (setup : Setup) (size : Int) (c : MachineCore) : Prop where
  pc : 0 ≤ c.pc ∧ (c.pc ≤ 0xFFFF ∨ c.pc = setup.loadAddress)
  registers : RegistersFit setup.stackLimit c.registers
  bus : Mapped size c.bus
  display : Shaped 64 32 c.hardware.display
  memorySize : c.hardware.memorySize = size

theorem Wide.housed {setup : Setup} {size : Int} {c : MachineCore} (h : Wide setup size c) :
    Housed size c :=
  ⟨h.bus, h.memorySize⟩

theorem Fit.wide {setup : Setup} {size : Int} {c : MachineCore} (h : Fit setup size c) :
    Wide setup size c :=
  { h with pc := ⟨h.pc.1, .inl h.pc.2⟩ }

theorem Wide.fit {setup : Setup} {size : Int} {c : MachineCore} (h : Wide setup size c)
    (hload : setup.loadAddress ≤ 0xFFFF) : Fit setup size c :=
  have hpc : IsWord c.pc := by
    have := h.pc
    omega
  { h with pc := hpc }

/-! ## Registers -/

section Registers

variable {limit : Option Int} {r : Registers}

theorem get_set (r : Registers) (n : Fin 16) (value : Int) (m : Fin 16) :
    (r.set n value).get m = if m = n then value % 256 else r.get m := by
  simp only [Registers.get, Registers.set, Fin.getElem_fin, Vector.getElem_set, Fin.ext_iff,
    eq_comm]

theorem RegistersFit.set (h : RegistersFit limit r) (n : Fin 16) (value : Int) :
    RegistersFit limit (r.set n value) := by
  refine { h with bytes := fun m => ?_ }
  rw [get_set]
  split
  · omega
  · exact h.bytes m

theorem RegistersFit.setFlag (h : RegistersFit limit r) (value : Int) :
    RegistersFit limit (r.setFlag value) :=
  h.set _ value

theorem RegistersFit.withIndex (h : RegistersFit limit r) {index : Int} (hi : IsWord index) :
    RegistersFit limit { r with index } :=
  { h with index := hi }

theorem RegistersFit.passed (h : RegistersFit limit r) (dialect : Dialect) (x : Fin 16) :
    RegistersFit limit (passed dialect x r) := by
  apply h.withIndex
  split
  · omega
  · exact h.index

theorem RegistersFit.combine (h : RegistersFit limit r) (f : Int → Int → Int) (clears : Bool)
    (x y : Fin 16) : RegistersFit limit (r.combine f clears x y) := by
  unfold Registers.combine
  dsimp only
  split
  · exact (h.set _ _).setFlag _
  · exact h.set _ _

theorem RegistersFit.grow (h : RegistersFit limit r) (address : Int) (hfree : ¬Full limit r) :
    RegistersFit limit (Registers.push.grow r address) := by
  refine { h with depth := by simp [Registers.push.grow], limited := ?_, stack := ?_ }
  · intro n hn
    have hlt : ¬n ≤ r.stack.length := fun hle => hfree ⟨n, hn, hle⟩
    simp only [Registers.push.grow, List.length_cons]
    omega
  · intro a ha
    rcases List.mem_cons.1 ha with rfl | hmem
    · omega
    · exact h.stack a hmem

theorem RegistersFit.shrink (h : RegistersFit limit r) :
    RegistersFit limit { r with stack := r.stack.tail, depth := r.stack.tail.length } := by
  refine { h with depth := rfl, limited := ?_, stack := ?_ }
  · intro n hn
    have := h.limited n hn
    simp only [List.length_tail]
    omega
  · exact fun a ha => h.stack a (List.mem_of_mem_tail ha)

theorem RegistersFit.loadedFrom (b : Bus) (names : List (Fin 16)) {r : Registers}
    (h : RegistersFit limit r) (address : Int) :
    RegistersFit limit (loadedFrom b r address names) := by
  induction names generalizing r address with
  | nil => exact h
  | cons n rest ih => exact ih (h.set _ _) _

theorem isByte_countDown {n : Int} (h : IsByte n) : IsByte (countDown n) := by
  unfold countDown
  split <;> omega

theorem RegistersFit.countDown (h : RegistersFit limit r) : RegistersFit limit r.countDown :=
  { h with delay := isByte_countDown h.delay, sound := isByte_countDown h.sound }

theorem registersFit_new (hlimit : ∀ n, limit = some n → 0 ≤ n) :
    RegistersFit limit {} := by
  refine ⟨?_, by decide, rfl, hlimit, by simp, by decide, by decide⟩
  intro n
  have hzero : Registers.get {} n = 0 := by simp [Registers.get]
  omega

end Registers

/-! ## The display -/

section Display

variable {width height : Nat} {d : Display}

theorem shaped_blank : Shaped width height (.blank width height) :=
  ⟨rfl, rfl, by simp [Display.blank]⟩

theorem Shaped.clear (h : Shaped width height d) : Shaped width height d.clear := by
  unfold Display.clear
  rw [h.width_eq, h.height_eq]
  exact shaped_blank

theorem Shaped.plot {hit : Bool} (h : Shaped width height d) (x y : Int) :
    Shaped width height (Display.plot x y (d, hit)).1 :=
  ⟨h.width_eq, h.height_eq, by simpa [Display.plot, Display.flip] using h.size_eq⟩

theorem Shaped.drawLine {state : Display × Bool} (h : Shaped width height state.1)
    (x y line : Int) : Shaped width height (Display.drawLine x y line state).1 := by
  unfold Display.drawLine
  induction List.range 8 generalizing state with
  | nil => exact h
  | cons column rest ih =>
      rw [List.foldl_cons]
      apply ih
      split
      · exact h.plot _ _
      · exact h

theorem Shaped.drawLines (sprite : List Int) {state : Display × Bool}
    (h : Shaped width height state.1) (x y : Int) :
    Shaped width height (Display.drawLines x y sprite state).1 := by
  induction sprite generalizing state y with
  | nil => exact h
  | cons line rest ih => exact ih (h.drawLine x y line) _

theorem Shaped.draw (h : Shaped width height d) (x y : Int) (sprite : List Int) :
    Shaped width height (d.draw x y sprite).1 := by
  unfold Display.draw
  apply Shaped.drawLines
  exact h

end Display

/-! ## Instructions -/

section Instructions

variable {setup : Setup} {size : Int} {form : Form} {opcode : Int} {c : MachineCore}

theorem isWord_nnn (opcode : Int) : IsWord (Opcode.nnn opcode) := by
  unfold Opcode.nnn
  omega

theorem isWord_pcAfter (h : Fit setup size c) : IsWord (pcAfter form opcode c) := by
  have hpc := h.pc
  have hskip : IsWord (if skips form opcode c then (c.pc + 2) % 65536 else c.pc) := by
    split <;> omega
  cases form with
  -- A return address was a word when it was pushed.
  | ret =>
      unfold pcAfter
      cases hstack : c.registers.stack with
      | nil => exact hpc
      | cons a rest => exact h.registers.stack a (hstack ▸ List.mem_cons_self)
  | jump | call => exact isWord_nnn opcode
  | jumpOffset =>
      unfold pcAfter
      dsimp only
      omega
  | waitKey =>
      unfold pcAfter
      dsimp only
      split <;> omega
  | _ => exact hskip

theorem registersFit_after (h : Fit setup size c)
    (hfree : ∀ f, ¬Blocked setup size form opcode c.registers f) :
    RegistersFit setup.stackLimit (registersAfter setup form opcode c) := by
  have hr := h.registers
  have hword : ∀ z : Int, IsWord (z % 65536) := fun z => by omega
  cases form with
  | ret => exact hr.shrink
  | call =>
      apply hr.grow
      rintro ⟨n, hlimit, hle⟩
      exact hfree _ (.overflow rfl hlimit hle)
  | loadByte | addByte | copy | random | readDelay => exact hr.set _ _
  | or | and | xor => exact hr.combine _ _ _ _
  | add | sub | subFrom | shiftRight | shiftLeft => exact (hr.set _ _).setFlag _
  | draw => exact hr.setFlag _
  | loadIndex => exact hr.withIndex (isWord_nnn opcode)
  | addIndex | pointGlyph => exact hr.withIndex (hword _)
  | setDelay => exact { hr with delay := hr.bytes _ }
  | setSound => exact { hr with sound := hr.bytes _ }
  | storeRegisters => exact hr.passed _ _
  | loadRegisters => exact (hr.loadedFrom c.bus _ _).passed _ _
  | waitKey =>
      unfold registersAfter
      cases c.hardware.keypad.first? with
      | none => exact hr
      | some key => exact hr.set _ _
  | _ => exact hr

theorem mapped_after (h : Fit setup size c)
    (hfree : ∀ f, ¬Blocked setup size form opcode c.registers f) :
    Mapped size (busAfter form opcode c) := by
  have hspan := in_range_of_free hfree
  cases form with
  | draw | loadRegisters => exact mapped_logged h.bus _
  | storeDecimal =>
      have hin := hspan _ rfl
      have hlength := length_decimalDigits (c.registers.get (Opcode.x opcode))
      exact mapped_writtenAll (decimalDigits _) h.bus (by omega) (by omega)
  | storeRegisters =>
      have hin := hspan _ rfl
      have hlength := length_map_upTo c.registers.get (Opcode.x opcode)
      exact mapped_writtenAll _ h.bus (by omega) (by omega)
  | _ => exact h.bus

theorem shaped_after (h : Fit setup size c) :
    Shaped 64 32 (hardwareAfter form opcode c).display := by
  cases form with
  | clearDisplay => exact h.display.clear
  | draw => exact h.display.draw _ _ _
  | _ => exact h.display

theorem Fit.after (h : Fit setup size c)
    (hfree : ∀ f, ¬Blocked setup size form opcode c.registers f) :
    Fit setup size (after setup form opcode c) :=
  ⟨isWord_pcAfter h, registersFit_after h hfree, mapped_after h hfree, shaped_after h,
    (memorySize_hardwareAfter form opcode c).trans h.memorySize⟩

theorem Wide.withLog (h : Wide setup size c) (log : List Access) :
    Wide setup size (withLog c log) :=
  { h with bus := h.bus.congr rfl rfl }

theorem Wide.started (h : Wide setup size c) : Fit setup size (started c) := by
  have hpc : IsWord ((c.pc + 2) % 65536) := by omega
  exact { h.withLog _ with pc := hpc }

/-- What one cycle of a machine can do whose values are in their widths. -/
theorem step_cases (h : Wide setup size c) :
    (∃ f log, Fails setup size c f ∧
      (instructionSet setup).step c = .error (.fault f) (withLog c log)) ∨
    (∃ form, (∀ f, ¬Fails setup size c f) ∧ c.pc + 1 < size ∧
      Form.ofOpcode? (wordAt c.bus c.pc) = some form ∧
      (instructionSet setup).step c = .ok (recorded setup form c) (stepped setup form c)) := by
  by_cases hfails : ∃ f, Fails setup size c f
  · obtain ⟨f, hf⟩ := hfails
    exact .inl ⟨f, _, hf, step_of_fails h.housed h.pc.1 hf⟩
  · have hfree : ∀ f, ¬Fails setup size c f := fun f hf => hfails ⟨f, hf⟩
    obtain ⟨form, hform, hstep⟩ := step_of_not_fails h.housed h.pc.1 h.registers.bytes hfree
    exact .inr ⟨form, hfree, Int.not_le.1 fun hout => hfree _ (.fetch hout), hform, hstep⟩

/-- The instruction at the program counter, once fetched, is not blocked if nothing makes the
cycle fail. -/
theorem not_blocked_started (hfree : ∀ f, ¬Fails setup size c f) (hin : c.pc + 1 < size)
    (hform : Form.ofOpcode? (wordAt c.bus c.pc) = some form) (f : Fault) :
    ¬Blocked setup size form (wordAt c.bus c.pc) (started c).registers f :=
  fun hblocked => hfree f (.execute hin hform hblocked)

theorem Wide.executed (h : Wide setup size c) (hfree : ∀ f, ¬Fails setup size c f)
    (hin : c.pc + 1 < size) (hform : Form.ofOpcode? (wordAt c.bus c.pc) = some form) :
    Fit setup size (executed setup form c) :=
  h.started.after (not_blocked_started hfree hin hform)

end Instructions

end Chip8.Proofs.Machine.Representation
