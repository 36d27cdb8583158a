import Chip8.Proofs.Instruction.Action

/-!
# The effect of an instruction

An instruction either raises a fault and changes nothing, or it is carried out whole.  The fault is
a matter of the registers and the size of memory.  The effect is given part by part: the program
counter, the registers, the bus and the hardware, with one table for each that lists the forms
which change this part.
-/

namespace Chip8.Proofs.Instruction.Effect

open Chip8.Memory Chip8.Action Chip8.Instruction
open Chip8.Proofs.Memory.Layout Chip8.Proofs.Memory.Transfer Chip8.Proofs.Instruction.Action

/-! ## Faults -/

/-- The number of bytes from the index register on that an instruction needs. -/
def span? (form : Form) (opcode : Int) : Option Int :=
  match form with
  | .draw => some (Opcode.n opcode)
  | .storeDecimal => some 3
  | .storeRegisters | .loadRegisters => some ((Opcode.x opcode).val + 1)
  | _ => none

/-- What keeps an instruction from being carried out. -/
inductive Blocked (setup : Setup) (size : Int) (form : Form) (opcode : Int) (r : Registers) :
    Fault → Prop
  | underflow (hform : form = .ret) (hstack : r.stack = []) :
      Blocked setup size form opcode r .stackUnderflow
  | overflow {n : Int} (hform : form = .call) (hlimit : setup.stackLimit = some n)
      (hstack : n ≤ r.stack.length) :
      Blocked setup size form opcode r (.stackOverflow n)
  | outside {count : Int} (hspan : span? form opcode = some count)
      (hout : OutOfRange size r count) :
      Blocked setup size form opcode r (.addressOutOfRange r.index count)

def riskyForms : List Form :=
  [.ret, .call, .draw, .storeDecimal, .storeRegisters, .loadRegisters]

/-! ## Effects -/

def skips (form : Form) (opcode : Int) (c : MachineCore) : Bool :=
  let vx := c.registers.get (Opcode.x opcode)
  let vy := c.registers.get (Opcode.y opcode)
  let pressed := c.hardware.keypad.pressed (Keypad.ofLowDigit vx)
  match form with
  | .skipEqByte => vx == Opcode.nn opcode
  | .skipNeByte => vx != Opcode.nn opcode
  | .skipEq => vx == vy
  | .skipNe => vx != vy
  | .skipPressed => pressed
  | .skipReleased => !pressed
  | _ => false

def pcAfter (form : Form) (opcode : Int) (c : MachineCore) : Int :=
  match form with
  | .ret => c.registers.stack.headD c.pc
  | .jump | .call => Opcode.nnn opcode
  | .jumpOffset => (c.registers.get Registers.offsetNumber + Opcode.nnn opcode) % 65536
  | .waitKey => if c.hardware.keypad.first?.isSome then c.pc else (c.pc - 2) % 65536
  | form => if skips form opcode c then (c.pc + 2) % 65536 else c.pc

def drawn (opcode : Int) (c : MachineCore) : Display × Bool :=
  c.hardware.display.draw (c.registers.get (Opcode.x opcode))
    (c.registers.get (Opcode.y opcode))
    (bytesFrom c.bus c.registers.index (Opcode.n opcode).toNat)

def passed (dialect : Dialect) (x : Fin 16) (r : Registers) : Registers :=
  { r with index := if dialect.movesIndex then (r.index + (x.val + 1)) % 65536 else r.index }

def registersAfter (setup : Setup) (form : Form) (opcode : Int) (c : MachineCore) : Registers :=
  let r := c.registers
  let x := Opcode.x opcode
  let y := Opcode.y opcode
  let nn := Opcode.nn opcode
  let clears := setup.dialect.logicClearsFlag
  let source := if setup.dialect.shiftsSecond then y else x
  match form with
  | .ret => { r with stack := r.stack.tail, depth := r.stack.tail.length }
  | .call => Registers.push.grow r c.pc
  | .loadByte => r.set x nn
  | .addByte => r.addByte x nn
  | .copy => r.set x (r.get y)
  | .or => r.combine Registers.byteOr clears x y
  | .and => r.combine Registers.byteAnd clears x y
  | .xor => r.combine Registers.byteXor clears x y
  | .add => r.add x y
  | .sub => r.sub x y
  | .subFrom => r.subFrom x y
  | .shiftRight => r.shiftRight x source
  | .shiftLeft => r.shiftLeft x source
  | .loadIndex => { r with index := Opcode.nnn opcode }
  | .random => r.set x (Registers.byteAnd c.hardware.random.draw.1 nn)
  | .draw => r.setFlag (if (drawn opcode c).2 then 1 else 0)
  | .readDelay => r.set x r.delay
  | .waitKey => c.hardware.keypad.first?.elim r fun key => r.set x key.val
  | .setDelay => { r with delay := r.get x }
  | .setSound => { r with sound := r.get x }
  | .addIndex => { r with index := (r.index + r.get x) % 65536 }
  | .pointGlyph => { r with index := r.get x * glyphSize % 65536 }
  | .storeRegisters => passed setup.dialect x r
  | .loadRegisters => passed setup.dialect x (loadedFrom c.bus r r.index (upTo x))
  | _ => r

def decimalDigits (value : Int) : List Int := [value / 100, value / 10 % 10, value % 10]

def busAfter (form : Form) (opcode : Int) (c : MachineCore) : Bus :=
  let r := c.registers
  let x := Opcode.x opcode
  match form with
  | .draw => logged c.bus (readLog c.bus r.index (Opcode.n opcode).toNat)
  | .storeDecimal => writtenAll c.bus r.index (decimalDigits (r.get x))
  | .storeRegisters => writtenAll c.bus r.index ((upTo x).map r.get)
  | .loadRegisters => logged c.bus (readLog c.bus r.index (x.val + 1))
  | _ => c.bus

def hardwareAfter (form : Form) (opcode : Int) (c : MachineCore) : Hardware :=
  match form with
  | .clearDisplay => { c.hardware with display := c.hardware.display.clear }
  | .draw => { c.hardware with display := (drawn opcode c).1 }
  | .random => { c.hardware with random := c.hardware.random.draw.2 }
  | _ => c.hardware

/-- No instruction presses or releases a key, or changes the size of memory. -/
theorem hardwareAfter_eq (form : Form) (opcode : Int) (c : MachineCore) :
    hardwareAfter form opcode c = { c.hardware with
      display := (hardwareAfter form opcode c).display
      random := (hardwareAfter form opcode c).random } := by
  cases form <;> rfl

theorem keypad_hardwareAfter (form : Form) (opcode : Int) (c : MachineCore) :
    (hardwareAfter form opcode c).keypad = c.hardware.keypad := by
  rw [hardwareAfter_eq]

theorem memorySize_hardwareAfter (form : Form) (opcode : Int) (c : MachineCore) :
    (hardwareAfter form opcode c).memorySize = c.hardware.memorySize := by
  rw [hardwareAfter_eq]

def after (setup : Setup) (form : Form) (opcode : Int) (c : MachineCore) : MachineCore :=
  { c with
    pc := pcAfter form opcode c
    registers := registersAfter setup form opcode c
    bus := busAfter form opcode c
    hardware := hardwareAfter form opcode c }

/-! ## Transfers -/

section Transfers

variable {size : Int} {c : MachineCore}

theorem length_upTo (x : Fin 16) : (upTo x).length = x.val + 1 := by
  simp only [upTo, List.length_take, List.length_finRange]
  omega

theorem length_map_upTo {α : Type} (f : Fin 16 → α) (x : Fin 16) :
    ((upTo x).map f).length = x.val + 1 := by
  rw [List.length_map, length_upTo]

theorem isByte_of_mem_map_get {r : Registers} (hr : ∀ n, IsByte (r.get n))
    {names : List (Fin 16)} : ∀ v ∈ names.map r.get, IsByte v := by
  intro v hv
  obtain ⟨n, -, rfl⟩ := List.mem_map.1 hv
  exact hr n

theorem n_nonneg (opcode : Int) : 0 ≤ Opcode.n opcode := by
  unfold Opcode.n
  omega

theorem length_decimalDigits (value : Int) : (decimalDigits value).length = 3 := rfl

theorem isByte_decimalDigits {value : Int} (h : IsByte value) :
    ∀ v ∈ decimalDigits value, IsByte v := by
  simp only [decimalDigits, List.mem_cons, List.not_mem_nil, or_false, forall_eq_or_imp,
    forall_eq]
  omega

theorem draw_apply (h : Housed size c) (opcode : Int)
    (hin : ¬OutOfRange size c.registers (Opcode.n opcode)) :
    draw (Opcode.x opcode) (Opcode.y opcode) (Opcode.n opcode) c = .ok () { c with
      registers := c.registers.setFlag (if (drawn opcode c).2 then 1 else 0)
      bus := logged c.bus (readLog c.bus c.registers.index (Opcode.n opcode).toNat)
      hardware := { c.hardware with display := (drawn opcode c).1 } } := by
  have hn := n_nonneg opcode
  unfold draw
  rw [bind_ok (registers_apply c), bind_ok (checkRange_ok h hin),
    bind_ok (readBytes_apply _ h.bus (by omega) (by omega)), modify_apply]
  rfl

theorem storeDecimal_apply (h : Housed size c) {x : Fin 16}
    (hx : IsByte (c.registers.get x)) (hin : ¬OutOfRange size c.registers 3) :
    storeDecimal x c = .ok () { c with
      bus := writtenAll c.bus c.registers.index (decimalDigits (c.registers.get x)) } := by
  have hlength := length_decimalDigits (c.registers.get x)
  unfold storeDecimal
  rw [bind_ok (registers_apply c), bind_ok (checkRange_ok h hin)]
  exact writeBytes_apply (decimalDigits (c.registers.get x)) h.bus (by omega) (by omega)
    (isByte_decimalDigits hx)

theorem storeRegisters_apply (h : Housed size c) (dialect : Dialect) {x : Fin 16}
    (hr : ∀ n, IsByte (c.registers.get n)) (hin : ¬OutOfRange size c.registers (x.val + 1)) :
    storeRegisters dialect x c = .ok () { c with
      registers := passed dialect x c.registers
      bus := writtenAll c.bus c.registers.index ((upTo x).map c.registers.get) } := by
  have hlength := length_map_upTo c.registers.get x
  unfold storeRegisters
  rw [bind_ok (registers_apply c), bind_ok (checkRange_ok h hin),
    bind_ok (writeBytes_apply _ h.bus (by omega) (by omega) (isByte_of_mem_map_get hr)),
    passIndex_apply]
  rfl

theorem loadRegisters_apply (h : Housed size c) (dialect : Dialect) {x : Fin 16}
    (hin : ¬OutOfRange size c.registers (x.val + 1)) :
    loadRegisters dialect x c = .ok () { c with
      registers :=
        passed dialect x (loadedFrom c.bus c.registers c.registers.index (upTo x))
      bus := logged c.bus (readLog c.bus c.registers.index (x.val + 1)) } := by
  have hlength := length_upTo x
  unfold loadRegisters
  rw [bind_ok (registers_apply c), bind_ok (checkRange_ok h hin),
    bind_ok (loadEach_apply _ h.bus (by omega) (by omega)), passIndex_apply, hlength]
  rfl

/-- An instruction that needs bytes out of range is refused before it changes anything. -/
theorem ofForm_outside (setup : Setup) (h : Housed size c) {form : Form} {opcode count : Int}
    (hspan : span? form opcode = some count) (hout : OutOfRange size c.registers count) :
    ofForm setup form opcode c =
      .error (.fault (.addressOutOfRange c.registers.index count)) c := by
  have hcheck := checkRange_error h hout
  cases form <;> cases hspan
  all_goals
    unfold ofForm
    dsimp only
    first | unfold draw | unfold storeDecimal | unfold storeRegisters | unfold loadRegisters
    rw [bind_ok (registers_apply c), bind_error hcheck]

end Transfers

/-! ## Outcomes -/

section Outcomes

variable {setup : Setup} {size : Int} {form : Form} {opcode : Int} {c : MachineCore}

theorem ofForm_blocked (h : Housed size c) {f : Fault}
    (hf : Blocked setup size form opcode c.registers f) :
    ofForm setup form opcode c = .error (.fault f) c := by
  cases hf with
  | underflow hform hstack =>
      subst hform
      exact ret_nil c hstack
  | overflow hform hlimit hstack =>
      subst hform
      simp only [ofForm, hlimit]
      exact call_full c hstack _
  | outside hspan hout => exact ofForm_outside setup h hspan hout

theorem not_blocked (hform : form ∉ riskyForms) (r : Registers) (f : Fault) :
    ¬Blocked setup size form opcode r f := by
  rintro (⟨rfl, -⟩ | ⟨rfl, -, -⟩ | ⟨hspan, -⟩)
  · exact hform (by decide)
  · exact hform (by decide)
  · cases form <;> first | exact hform (by decide) | cases hspan

theorem in_range_of_free {r : Registers} (hfree : ∀ f, ¬Blocked setup size form opcode r f)
    (count : Int) (hspan : span? form opcode = some count) : ¬OutOfRange size r count :=
  fun hout => hfree _ (.outside hspan hout)

/-- An instruction that nothing blocks is carried out. -/
theorem ofForm_eq_after (h : Housed size c) (hr : ∀ n, IsByte (c.registers.get n))
    (hfree : ∀ f, ¬Blocked setup size form opcode c.registers f) :
    ofForm setup form opcode c = .ok () (after setup form opcode c) := by
  have hspan := in_range_of_free hfree
  cases form with
  | ret =>
      cases hstack : c.registers.stack with
      | nil => exact absurd (.underflow rfl hstack) (hfree _)
      | cons address rest =>
          simp only [ofForm, after, pcAfter, registersAfter, hstack]
          exact ret_cons c hstack
  | call =>
      have hfull : ¬Full setup.stackLimit c.registers := by
        rintro ⟨n, hlimit, hle⟩
        exact hfree _ (.overflow rfl hlimit hle)
      exact call_apply c hfull _
  | draw => exact draw_apply h opcode (hspan _ rfl)
  | storeDecimal => exact storeDecimal_apply h (hr _) (hspan _ rfl)
  | storeRegisters => exact storeRegisters_apply h _ hr (hspan _ rfl)
  | loadRegisters => exact loadRegisters_apply h _ (hspan _ rfl)
  | skipEqByte | skipNeByte | skipEq | skipNe => exact skipIf_apply c _
  | skipPressed => exact skipIfKey_apply c true _
  | skipReleased =>
      simp only [ofForm, skipIfKey_apply]
      simp [after, pcAfter, skips, registersAfter, busAfter, hardwareAfter]
  | waitKey => exact waitKey_apply c _
  -- The other actions are single changes, and the tables name the same ones.
  | _ => rfl

end Outcomes

end Chip8.Proofs.Instruction.Effect
