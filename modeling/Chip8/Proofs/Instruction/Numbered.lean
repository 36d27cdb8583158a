import Chip8.Proofs.Instruction.Effect

/-!
# Instructions by number

A word names registers by number, and a register names a key.  Here every number is looked up when
it is used.  No number is ever missing, so what an instruction may raise is about the call stack or
the end of memory alone, and these are the instructions of the machine.
-/

namespace Chip8.Proofs.Instruction.Numbered

open Chip8.Action Chip8.Instruction Chip8.Proofs.Instruction.Action
open Chip8.Proofs.Instruction.Effect

/-! ## Look-ups -/

/-- What is found in the machine, unless looking for it is a fault. -/
def find {α : Type} (look : MachineCore → Except Fault α) : Instruction α := fun c =>
  match look c with
  | .ok a => .ok a c
  | .error f => .error (.fault f) c

def readV (n : Int) : Instruction Int := find fun c => c.registers.read n

def writeV (n value : Int) : Instruction Unit := do
  let registers ← find fun c => c.registers.write n value
  onRegisters fun _ => registers

def setFlag (value : Int) : Instruction Unit := onRegisters fun r => r.setFlag value

def keyDown (n : Int) : Instruction Bool := find fun c => c.hardware.keypad.isPressed n

def skipWhen (b : Bool) : Instruction Unit := if b then moveBy 2 else pure ()

def numbersTo (x : Int) : List Int := (List.range (x.toNat + 1)).map fun n : Nat => (n : Int)

def readEach : List Int → Instruction (List Int)
  | [] => pure []
  | n :: rest => do
    let value ← readV n
    let values ← readEach rest
    pure (value :: values)

def fillEach (address : Int) : List Int → Instruction Unit
  | [] => pure ()
  | n :: rest => do
    writeV n (← readByte address)
    fillEach (address + 1) rest

/-! ## Instructions -/

section Instructions

variable (setup : Setup)

def passIndex (x : Int) : Instruction Unit := do
  if setup.dialect.movesIndex then setIndex ((← registers).index + (x + 1))

def combine (f : Int → Int → Int) (x y : Int) : Instruction Unit := do
  writeV x (f (← readV x) (← readV y))
  if setup.dialect.logicClearsFlag then setFlag 0

def draw (x y rows : Int) : Instruction Unit := do
  let left ← readV x
  let top ← readV y
  let r ← registers
  checkRange r.index rows
  let sprite ← readBytes r.index rows.toNat
  modify fun c =>
    let (display, hit) := c.hardware.display.draw left top sprite
    { c with
      registers := c.registers.setFlag (if hit then 1 else 0)
      hardware := { c.hardware with display } }

def storeDecimal (x : Int) : Instruction Unit := do
  let value ← readV x
  let r ← registers
  checkRange r.index 3
  writeBytes r.index (decimalDigits value)

def storeRegisters (x : Int) : Instruction Unit := do
  let r ← registers
  checkRange r.index (x + 1)
  writeBytes r.index (← readEach (numbersTo x))
  passIndex setup x

def loadRegisters (x : Int) : Instruction Unit := do
  let r ← registers
  checkRange r.index (x + 1)
  fillEach r.index (numbersTo x)
  passIndex setup x

/-- What a form does with the fields of a word, looking up every number. -/
def byNumber (form : Form) (opcode : Int) : Instruction Unit :=
  let x := Opcode.nibble 2 opcode
  let y := Opcode.nibble 1 opcode
  let nn := Opcode.nn opcode
  let nnn := Opcode.nnn opcode
  let source := if setup.dialect.shiftsSecond then y else x
  match form with
  | .nop | .sys => pure ()
  | .clearDisplay => clearDisplay
  | .ret => ret
  | .jump => setPc nnn
  | .call => call setup.stackLimit nnn
  | .skipEqByte => do skipWhen ((← readV x) == nn)
  | .skipNeByte => do skipWhen ((← readV x) != nn)
  | .skipEq => do skipWhen ((← readV x) == (← readV y))
  | .skipNe => do skipWhen ((← readV x) != (← readV y))
  | .loadByte => writeV x nn
  | .addByte => do writeV x ((← readV x) + nn)
  | .copy => do writeV x (← readV y)
  | .or => combine setup Registers.byteOr x y
  | .and => combine setup Registers.byteAnd x y
  | .xor => combine setup Registers.byteXor x y
  | .add => do
    let a ← readV x
    let b ← readV y
    writeV x (a + b)
    setFlag (Registers.flagValue (255 < a + b))
  | .sub => do
    let a ← readV x
    let b ← readV y
    writeV x (a - b)
    setFlag (Registers.flagValue (b ≤ a))
  | .subFrom => do
    let a ← readV x
    let b ← readV y
    writeV x (b - a)
    setFlag (Registers.flagValue (a ≤ b))
  | .shiftRight => do
    let a ← readV source
    writeV x (a / 2)
    setFlag (a % 2)
  | .shiftLeft => do
    let a ← readV source
    writeV x (a * 2)
    setFlag (a / 128 % 2)
  | .loadIndex => onRegisters fun r => { r with index := nnn }
  | .jumpOffset => do setPc (((← readV 0) + nnn) % 65536)
  | .random => do writeV x (Registers.byteAnd (← drawByte) nn)
  | .draw => draw x y (Opcode.n opcode)
  | .skipPressed => do skipWhen (← keyDown ((← readV x) % 16))
  | .skipReleased => do skipWhen (!(← keyDown ((← readV x) % 16)))
  | .readDelay => do writeV x (← registers).delay
  | .waitKey => do
    match (← get).hardware.keypad.first? with
    | some key => writeV x key.val
    | none => moveBy (-2)
  | .setDelay => do
    let value ← readV x
    onRegisters fun r => { r with delay := value }
  | .setSound => do
    let value ← readV x
    onRegisters fun r => { r with sound := value }
  | .addIndex => do setIndex ((← registers).index + (← readV x))
  | .pointGlyph => do setIndex ((← readV x) * Memory.glyphSize)
  | .storeDecimal => storeDecimal x
  | .storeRegisters => storeRegisters setup x
  | .loadRegisters => loadRegisters setup x

def executeByNumber (op : Operation) : Instruction Unit :=
  match Form.ofPattern? op.pattern with
  | some form => byNumber setup form op.opcode
  | none => raise (.unknownOpcode op.opcode (Opcode.nibbles op.opcode) none)

end Instructions

/-! ## Numbers that are there -/

section Numbers

variable (c : MachineCore)

theorem below?_val {count : Nat} (n : Fin count) : below? count n.val = some n := by
  have h : (0 : Int) ≤ n.val ∧ (n.val : Int) < count := by omega
  simp [below?, h]

theorem nibble_x (opcode : Int) : Opcode.nibble 2 opcode = (Opcode.x opcode).val := by
  change opcode / 256 % 16 = ((opcode / 256 % 16).toNat : Int)
  omega

theorem nibble_y (opcode : Int) : Opcode.nibble 1 opcode = (Opcode.y opcode).val := by
  change opcode / 16 % 16 = ((opcode / 16 % 16).toNat : Int)
  omega

theorem numbersTo_val : ∀ x : Fin 16, numbersTo x.val = (upTo x).map fun n => (n.val : Int) := by
  decide

theorem readV_val (n : Fin 16) : readV n.val c = .ok (c.registers.get n) c := by
  simp only [readV, find, Registers.read, Registers.number?, below?_val n]

theorem writeV_val (n : Fin 16) (value : Int) : writeV n.val value c = setV n value c := by
  simp only [writeV, bind_apply, find, Registers.write, Registers.number?, below?_val n]
  rfl

theorem keyDown_digit (value : Int) : keyDown (value % 16) c = keyPressed value c := by
  have hdigit : value % 16 = (Keypad.ofLowDigit value).val := by
    change value % 16 = ((value % 16).toNat : Int)
    omega
  simp only [keyDown, find, Keypad.isPressed, Keypad.key?]
  rw [hdigit, below?_val]
  rfl

theorem readEach_val (names : List (Fin 16)) :
    readEach (names.map fun n => (n.val : Int)) c = .ok (names.map c.registers.get) c := by
  induction names with
  | nil => rfl
  | cons n rest ih =>
      rw [List.map_cons, readEach, bind_ok (readV_val c n), bind_ok ih, pure_apply, List.map_cons]

theorem fillEach_val (address : Int) (names : List (Fin 16)) :
    fillEach address (names.map fun n => (n.val : Int)) = loadEach address names := by
  induction names generalizing address with
  | nil => rfl
  | cons n rest ih =>
      rw [List.map_cons, fillEach, loadEach, ih]
      simp only [funext fun value => funext fun c => writeV_val c n value]

end Numbers

/-! ## The same instructions -/

section Same

variable (setup : Setup) (c : MachineCore)

theorem skipWhen_apply (condition : Registers → Bool) :
    skipWhen (condition c.registers) c = skipIf condition c := by
  rw [skipIf_apply]
  unfold skipWhen
  split <;> rfl

theorem combine_val (f : Int → Int → Int) (x y : Fin 16) :
    combine setup f x.val y.val c =
      onRegisters (Registers.combine f setup.dialect.logicClearsFlag x y) c := by
  unfold combine
  rw [bind_ok (readV_val c x), bind_ok (readV_val c y)]
  simp only [bind_apply, writeV_val, setV_apply]
  cases setup.dialect.logicClearsFlag <;> rfl

theorem draw_val (x y : Fin 16) (rows : Int) :
    draw x.val y.val rows c = Instruction.draw x y rows c := by
  unfold draw Instruction.draw
  rw [bind_ok (readV_val c x), bind_ok (readV_val c y), bind_ok (registers_apply c),
    bind_ok (registers_apply c)]

theorem storeDecimal_val (x : Fin 16) :
    storeDecimal x.val c = Instruction.storeDecimal x c := by
  unfold storeDecimal Instruction.storeDecimal
  rw [bind_ok (readV_val c x), bind_ok (registers_apply c), bind_ok (registers_apply c)]
  rfl

theorem storeRegisters_val (x : Fin 16) :
    storeRegisters setup x.val c = Instruction.storeRegisters setup.dialect x c := by
  unfold storeRegisters Instruction.storeRegisters
  rw [bind_ok (registers_apply c), bind_ok (registers_apply c), numbersTo_val, bind_apply,
    bind_apply]
  unfold checkRange
  by_cases hout : c.registers.index < 0 ∨
      c.hardware.memorySize < c.registers.index + (x.val + 1)
  · simp only [if_pos hout]
  · simp only [if_neg hout]
    rw [bind_ok (readEach_val c _)]
    rfl

theorem loadRegisters_val (x : Fin 16) :
    loadRegisters setup x.val c = Instruction.loadRegisters setup.dialect x c := by
  unfold loadRegisters Instruction.loadRegisters
  rw [bind_ok (registers_apply c), bind_ok (registers_apply c), numbersTo_val, fillEach_val]
  rfl

theorem byNumber_eq (form : Form) (opcode : Int) :
    byNumber setup form opcode c = ofForm setup form opcode c := by
  unfold byNumber ofForm
  simp only [nibble_x, nibble_y]
  cases form with
  | nop | sys | clearDisplay | ret | jump | call | loadIndex => rfl
  | skipEqByte =>
    simp only [bind_apply, readV_val]
    exact skipWhen_apply c fun r => r.get (Opcode.x opcode) == Opcode.nn opcode
  | skipNeByte =>
    simp only [bind_apply, readV_val]
    exact skipWhen_apply c fun r => r.get (Opcode.x opcode) != Opcode.nn opcode
  | skipEq =>
    simp only [bind_apply, readV_val]
    exact skipWhen_apply c fun r => r.get (Opcode.x opcode) == r.get (Opcode.y opcode)
  | skipNe =>
    simp only [bind_apply, readV_val]
    exact skipWhen_apply c fun r => r.get (Opcode.x opcode) != r.get (Opcode.y opcode)
  | loadByte => exact writeV_val c _ _
  | or | and | xor => exact combine_val setup c _ _ _
  | addByte | copy | add | sub | subFrom | setDelay | setSound | readDelay =>
    simp only [bind_apply, readV_val, registers_apply, writeV_val, setV_apply]
    rfl
  | addIndex | pointGlyph | random =>
    simp only [bind_apply, readV_val, registers_apply, writeV_val, setV_apply]
  | shiftRight | shiftLeft =>
    cases setup.dialect.shiftsSecond
    all_goals
      simp only [bind_apply, Bool.false_eq_true, if_false, if_true, readV_val, writeV_val,
        setV_apply]
      rfl
  | jumpOffset => rfl
  | draw => exact draw_val c _ _ _
  | skipPressed =>
    simp only [bind_apply, readV_val, keyDown_digit, keyPressed_apply, skipIfKey_apply, skipWhen]
    split <;> rfl
  | skipReleased =>
    simp only [bind_apply, readV_val, keyDown_digit, keyPressed_apply, skipIfKey_apply, skipWhen]
    cases hpressed : c.hardware.keypad.pressed
      (Keypad.ofLowDigit (c.registers.get (Opcode.x opcode))) <;> rfl
  | waitKey =>
    simp only [bind_apply, get_apply, waitKey_apply]
    cases c.hardware.keypad.first? with
    | none => rfl
    | some key => exact writeV_val c _ _
  | storeDecimal => exact storeDecimal_val c _
  | storeRegisters => exact storeRegisters_val setup c _
  | loadRegisters => exact loadRegisters_val setup c _

/-- Looking up every number changes nothing. -/
theorem executeByNumber_eq (op : Operation) :
    executeByNumber setup op c = Instruction.execute setup op c := by
  unfold executeByNumber Instruction.execute
  cases Form.ofPattern? op.pattern with
  | none => rfl
  | some form => exact byNumber_eq setup c form op.opcode

theorem executeByNumber_ofForm (form : Form) (opcode : Int) :
    executeByNumber setup (.ofForm form opcode) = byNumber setup form opcode := by
  cases form <;> rfl

end Same

/-! ## Faults -/

section Faults

variable {α β : Type} {kinds : List FaultKind} {x : Instruction α} {n : Int}

/-- Whether all faults that an action may raise are of some kinds. -/
def OnlyRaises (kinds : List FaultKind) (x : Instruction α) : Prop :=
  ∀ c f d, x c = .error (.fault f) d → f.kind ∈ kinds

theorem OnlyRaises.bind {f : α → Instruction β} (hx : OnlyRaises kinds x)
    (hf : ∀ a, OnlyRaises kinds (f a)) : OnlyRaises kinds (x >>= f) := by
  intro c fault d h
  rw [bind_apply] at h
  split at h
  · exact hf _ _ _ _ h
  · rename_i heq
    cases h
    exact hx _ _ _ heq

theorem onlyRaises_of_ok (h : ∀ c, ∃ a d, x c = .ok a d) : OnlyRaises kinds x := by
  intro c f d hfault
  obtain ⟨a, e, hok⟩ := h c
  rw [hok] at hfault
  cases hfault

theorem onlyRaises_pure (a : α) : OnlyRaises kinds (pure a : Instruction α) :=
  onlyRaises_of_ok fun c => ⟨a, c, rfl⟩

theorem onlyRaises_modify (f : MachineCore → MachineCore) :
    OnlyRaises kinds (modify f : Instruction Unit) :=
  onlyRaises_of_ok fun _ => ⟨(), _, rfl⟩

theorem onlyRaises_registers : OnlyRaises kinds registers :=
  onlyRaises_of_ok fun c => ⟨c.registers, c, rfl⟩

theorem onlyRaises_readByte (address : Int) :
    OnlyRaises kinds (readByte address : Instruction Int) := by
  intro c f d h
  unfold readByte at h
  split at h <;> cases h

theorem onlyRaises_writeByte (address value : Int) :
    OnlyRaises kinds (writeByte address value : Instruction Unit) := by
  intro c f d h
  unfold writeByte at h
  split at h <;> cases h

theorem onlyRaises_readBytes (address : Int) (count : Nat) :
    OnlyRaises kinds (readBytes address count : Instruction (List Int)) := by
  induction count generalizing address with
  | zero => exact onlyRaises_pure []
  | succ count ih =>
      exact (onlyRaises_readByte address).bind fun value =>
        (ih (address + 1)).bind fun rest => onlyRaises_pure (value :: rest)

theorem onlyRaises_writeBytes (address : Int) (values : List Int) :
    OnlyRaises kinds (writeBytes address values : Instruction Unit) := by
  induction values generalizing address with
  | nil => exact onlyRaises_pure ()
  | cons value rest ih =>
      exact (onlyRaises_writeByte address value).bind fun _ => ih (address + 1)

def IsDigit (n : Int) : Prop := 0 ≤ n ∧ n < 16

theorem isDigit_nibble (place : Nat) (opcode : Int) : IsDigit (Opcode.nibble place opcode) := by
  unfold IsDigit Opcode.nibble
  omega

theorem exists_val (h : IsDigit n) : ∃ x : Fin 16, n = x.val := by
  obtain ⟨k, rfl⟩ := Int.eq_ofNat_of_zero_le h.1
  exact ⟨⟨k, Int.ofNat_lt.1 h.2⟩, rfl⟩

theorem onlyRaises_readV (h : IsDigit n) : OnlyRaises kinds (readV n) := by
  obtain ⟨x, rfl⟩ := exists_val h
  exact onlyRaises_of_ok fun c => ⟨_, _, readV_val c x⟩

theorem onlyRaises_writeV (h : IsDigit n) (value : Int) : OnlyRaises kinds (writeV n value) := by
  obtain ⟨x, rfl⟩ := exists_val h
  exact onlyRaises_of_ok fun c => ⟨_, _, writeV_val c x value⟩

theorem onlyRaises_keyDown (value : Int) : OnlyRaises kinds (keyDown (value % 16)) :=
  onlyRaises_of_ok fun c => ⟨_, _, keyDown_digit c value⟩

theorem isDigit_of_mem_numbersTo (h : IsDigit n) : ∀ k ∈ numbersTo n, IsDigit k := by
  intro k hk
  obtain ⟨i, hi, rfl⟩ := List.mem_map.1 hk
  have hlt := List.mem_range.1 hi
  unfold IsDigit at h ⊢
  omega

theorem onlyRaises_readEach {names : List Int} (h : ∀ k ∈ names, IsDigit k) :
    OnlyRaises kinds (readEach names) := by
  induction names with
  | nil => exact onlyRaises_pure []
  | cons k rest ih =>
      obtain ⟨hk, hrest⟩ := List.forall_mem_cons.1 h
      exact (onlyRaises_readV hk).bind fun value =>
        (ih hrest).bind fun values => onlyRaises_pure (value :: values)

theorem onlyRaises_fillEach {names : List Int} (address : Int) (h : ∀ k ∈ names, IsDigit k) :
    OnlyRaises kinds (fillEach address names) := by
  induction names generalizing address with
  | nil => exact onlyRaises_pure ()
  | cons k rest ih =>
      obtain ⟨hk, hrest⟩ := List.forall_mem_cons.1 h
      exact (onlyRaises_readByte address).bind fun value =>
        (onlyRaises_writeV hk value).bind fun _ => ih (address + 1) hrest

/-! The kinds of fault that an instruction may raise: the call stack has nothing to return to or is
full, or memory ends. -/

def instructionFaults : List FaultKind := [.stackUnderflow, .stackOverflow, .addressOutOfRange]

theorem onlyRaises_checkRange (start count : Int) :
    OnlyRaises instructionFaults (checkRange start count) := by
  intro c f d h
  unfold checkRange at h
  split at h <;> cases h
  simp [instructionFaults, Fault.kind]

theorem onlyRaises_ret : OnlyRaises instructionFaults ret := by
  intro c f d h
  unfold ret Registers.pop at h
  split at h <;> cases h
  rename_i heq
  split at heq <;> cases heq
  decide

theorem onlyRaises_call (limit : Option Int) (target : Int) :
    OnlyRaises instructionFaults (call limit target) := by
  intro c f d h
  by_cases hfull : Full limit c.registers
  · obtain ⟨n, rfl, hn⟩ := hfull
    rw [call_full c hn] at h
    cases h
    simp [instructionFaults, Fault.kind]
  · rw [call_apply c hfull] at h
    cases h

theorem onlyRaises_skipWhen (b : Bool) : OnlyRaises kinds (skipWhen b) := by
  cases b
  · exact onlyRaises_pure ()
  · exact onlyRaises_modify _

theorem onlyRaises_passIndex (setup : Setup) (n : Int) : OnlyRaises kinds (passIndex setup n) := by
  unfold passIndex
  split
  · exact onlyRaises_registers.bind fun _ => onlyRaises_modify _
  · exact onlyRaises_pure ()

end Faults

section Instructions

variable {x y : Int} (setup : Setup)

theorem onlyRaises_combine {kinds : List FaultKind} (hx : IsDigit x) (hy : IsDigit y)
    (f : Int → Int → Int) : OnlyRaises kinds (combine setup f x y) := by
  refine (onlyRaises_readV hx).bind fun a => (onlyRaises_readV hy).bind fun b =>
    (onlyRaises_writeV hx _).bind fun _ => ?_
  split
  · exact onlyRaises_modify _
  · exact onlyRaises_pure ()

theorem onlyRaises_draw (hx : IsDigit x) (hy : IsDigit y) (rows : Int) :
    OnlyRaises instructionFaults (draw x y rows) :=
  (onlyRaises_readV hx).bind fun _ => (onlyRaises_readV hy).bind fun _ =>
    onlyRaises_registers.bind fun r => (onlyRaises_checkRange r.index rows).bind fun _ =>
      (onlyRaises_readBytes r.index rows.toNat).bind fun _ => onlyRaises_modify _

theorem onlyRaises_storeDecimal (hx : IsDigit x) :
    OnlyRaises instructionFaults (storeDecimal x) :=
  (onlyRaises_readV hx).bind fun _ => onlyRaises_registers.bind fun r =>
    (onlyRaises_checkRange r.index 3).bind fun _ => onlyRaises_writeBytes r.index _

theorem onlyRaises_storeRegisters (hx : IsDigit x) :
    OnlyRaises instructionFaults (storeRegisters setup x) :=
  onlyRaises_registers.bind fun r => (onlyRaises_checkRange r.index (x + 1)).bind fun _ =>
    (onlyRaises_readEach (isDigit_of_mem_numbersTo hx)).bind fun values =>
      (onlyRaises_writeBytes r.index values).bind fun _ => onlyRaises_passIndex setup x

theorem onlyRaises_loadRegisters (hx : IsDigit x) :
    OnlyRaises instructionFaults (loadRegisters setup x) :=
  onlyRaises_registers.bind fun r => (onlyRaises_checkRange r.index (x + 1)).bind fun _ =>
    (onlyRaises_fillEach r.index (isDigit_of_mem_numbersTo hx)).bind fun _ =>
      onlyRaises_passIndex setup x

/-- No instruction raises anything but what is about the call stack or the end of memory. -/
theorem onlyRaises_byNumber (form : Form) (opcode : Int) :
    OnlyRaises instructionFaults (byNumber setup form opcode) := by
  have hx := isDigit_nibble 2 opcode
  have hy := isDigit_nibble 1 opcode
  have hsource : IsDigit (if setup.dialect.shiftsSecond then Opcode.nibble 1 opcode
      else Opcode.nibble 2 opcode) := by
    split
    · exact hy
    · exact hx
  cases form with
  | nop | sys => exact onlyRaises_pure ()
  | clearDisplay | jump | loadIndex => exact onlyRaises_modify _
  | ret => exact onlyRaises_ret
  | call => exact onlyRaises_call _ _
  | skipEqByte | skipNeByte => exact (onlyRaises_readV hx).bind fun _ => onlyRaises_skipWhen _
  | skipEq | skipNe =>
    exact (onlyRaises_readV hx).bind fun _ => (onlyRaises_readV hy).bind fun _ =>
      onlyRaises_skipWhen _
  | loadByte => exact onlyRaises_writeV hx _
  | addByte => exact (onlyRaises_readV hx).bind fun _ => onlyRaises_writeV hx _
  | copy => exact (onlyRaises_readV hy).bind fun _ => onlyRaises_writeV hx _
  | or | and | xor => exact onlyRaises_combine setup hx hy _
  | add | sub | subFrom =>
    exact (onlyRaises_readV hx).bind fun _ => (onlyRaises_readV hy).bind fun _ =>
      (onlyRaises_writeV hx _).bind fun _ => onlyRaises_modify _
  | shiftRight | shiftLeft =>
    exact (onlyRaises_readV hsource).bind fun _ => (onlyRaises_writeV hx _).bind fun _ =>
      onlyRaises_modify _
  | jumpOffset =>
    exact (onlyRaises_readV ⟨by decide, by decide⟩).bind fun _ => onlyRaises_modify _
  | random =>
    exact (onlyRaises_of_ok fun _ => ⟨_, _, rfl⟩).bind fun _ => onlyRaises_writeV hx _
  | draw => exact onlyRaises_draw hx hy _
  | skipPressed | skipReleased =>
    exact (onlyRaises_readV hx).bind fun value => (onlyRaises_keyDown value).bind fun _ =>
      onlyRaises_skipWhen _
  | readDelay => exact onlyRaises_registers.bind fun _ => onlyRaises_writeV hx _
  | waitKey =>
    refine (onlyRaises_of_ok fun c => ⟨c, c, rfl⟩).bind fun c => ?_
    cases c.hardware.keypad.first? with
    | none => exact onlyRaises_modify _
    | some key => exact onlyRaises_writeV hx _
  | setDelay | setSound => exact (onlyRaises_readV hx).bind fun _ => onlyRaises_modify _
  | addIndex =>
    exact onlyRaises_registers.bind fun _ => (onlyRaises_readV hx).bind fun _ =>
      onlyRaises_modify _
  | pointGlyph => exact (onlyRaises_readV hx).bind fun _ => onlyRaises_modify _
  | storeDecimal => exact onlyRaises_storeDecimal hx
  | storeRegisters => exact onlyRaises_storeRegisters setup hx
  | loadRegisters => exact onlyRaises_loadRegisters setup hx

end Instructions

end Chip8.Proofs.Instruction.Numbered
