import Chip8.Proofs.Host.Invariant
import Chip8.Proofs.Instruction.Frame
import Chip8.Proofs.Instruction.Word
import Chip8.Proofs.Machine.Indifference

/-!
# The footprint of an instruction

What an instruction may change can be told from its word: the registers, the bytes of memory and
the display that a word does not name stay as they are when it is carried out, and no instruction
touches the keys, the listeners or the latch of the tone.
-/

namespace Chip8.Proofs.Host.Footprint

open Chip8.Memory Chip8.Instruction
open Chip8.Proofs.Memory.Layout Chip8.Proofs.Instruction.Action
open Chip8.Proofs.Instruction.Effect Chip8.Proofs.Instruction.Frame
open Chip8.Proofs.Instruction.Word Chip8.Proofs.Instruction.Cycle
open Chip8.Proofs.Machine.Representation Chip8.Proofs.Machine.Operations
open Chip8.Proofs.Machine.Indifference (Executes exists_executes)
open Chip8.Proofs.Host.Invariant

/-! ## Words -/

/-- The words that write bytes from the index register on, with how many they write. -/
inductive Writes (word : Int) : Int → Prop
  | decimal (hhigh : word / 0x1000 = 0xF) (hlow : word % 0x100 = 0x33) : Writes word 3
  | registers (hhigh : word / 0x1000 = 0xF) (hlow : word % 0x100 = 0x55) :
      Writes word (word / 0x100 % 0x10 + 1)

inductive Points (dialect : Dialect) (word : Int) : Prop
  | load (hhigh : word / 0x1000 = 0xA)
  | add (hhigh : word / 0x1000 = 0xF) (hlow : word % 0x100 = 0x1E)
  | glyph (hhigh : word / 0x1000 = 0xF) (hlow : word % 0x100 = 0x29)
  | transfer (hmoves : dialect.movesIndex = true) (hhigh : word / 0x1000 = 0xF)
      (hlow : word % 0x100 = 0x55 ∨ word % 0x100 = 0x65)

/-- The words that set a general register, with the register. -/
inductive Sets (dialect : Dialect) (word : Int) : Fin 16 → Prop
  | byte (hhigh : word / 0x1000 = 0x6 ∨ word / 0x1000 = 0x7 ∨ word / 0x1000 = 0xC) :
      Sets dialect word (Opcode.x word)
  | result (hhigh : word / 0x1000 = 0x8) (hlow : word % 0x10 ≤ 0x7 ∨ word % 0x10 = 0xE) :
      Sets dialect word (Opcode.x word)
  | input (hhigh : word / 0x1000 = 0xF) (hlow : word % 0x100 = 0x07 ∨ word % 0x100 = 0x0A) :
      Sets dialect word (Opcode.x word)
  | flag (hhigh : word / 0x1000 = 0x8)
      (hlow : (0x4 ≤ word % 0x10 ∧ word % 0x10 ≤ 0x7) ∨ word % 0x10 = 0xE) :
      Sets dialect word Registers.flagNumber
  | cleared (hclears : dialect.logicClearsFlag = true) (hhigh : word / 0x1000 = 0x8)
      (hlow : 0x1 ≤ word % 0x10 ∧ word % 0x10 ≤ 0x3) : Sets dialect word Registers.flagNumber
  | collision (hhigh : word / 0x1000 = 0xD) : Sets dialect word Registers.flagNumber
  | loaded {n : Fin 16} (hhigh : word / 0x1000 = 0xF) (hlow : word % 0x100 = 0x65)
      (hle : (n.val : Int) ≤ word / 0x100 % 0x10) : Sets dialect word n

/-- What an advance from `m` to `after` changed beside the program counter and the number of
cycles, told by the word of its snapshot. -/
structure Confined (m after : Machine) (s : Snapshot Registers) : Prop where
  setup : after.setup = m.setup
  keypad : after.core.hardware.keypad = m.core.hardware.keypad
  memorySize : after.core.hardware.memorySize = m.core.hardware.memorySize
  tone : after.tone = m.tone
  shown : s.displayChanged = true ↔ s.operation.opcode = 0x00E0 ∨ s.operation.opcode / 0x1000 = 0xD
  display : after.core.hardware.display ≠ m.core.hardware.display → s.displayChanged = true
  memory : ∀ a, after.core.bus.peek a ≠ m.core.bus.peek a →
    fontEnd ≤ a ∧ ∃ count, Writes s.operation.opcode count ∧
      m.core.registers.index ≤ a ∧ a < m.core.registers.index + count
  stack : after.core.registers.stack ≠ m.core.registers.stack ∨
      after.core.registers.depth ≠ m.core.registers.depth →
    s.operation.opcode / 0x1000 = 0x2 ∨ s.operation.opcode = 0x00EE
  delay : after.core.registers.delay ≠ m.core.registers.delay →
    s.operation.opcode / 0x1000 = 0xF ∧ s.operation.opcode % 0x100 = 0x15
  sound : after.core.registers.sound ≠ m.core.registers.sound →
    s.operation.opcode / 0x1000 = 0xF ∧ s.operation.opcode % 0x100 = 0x18
  index : after.core.registers.index ≠ m.core.registers.index →
    Points m.setup.dialect s.operation.opcode
  random : after.core.hardware.random ≠ m.core.hardware.random →
    s.operation.opcode / 0x1000 = 0xC
  general : ∀ n, after.core.registers.get n ≠ m.core.registers.get n →
    Sets m.setup.dialect s.operation.opcode n

/-! ## General registers -/

section General

variable {r : Registers} {n x y : Fin 16} {value other : Int}

theorem eq_of_get_set_ne (hne : (r.set x value).get n ≠ r.get n) : n = x := by
  rw [get_set] at hne
  by_cases hsame : n = x
  · exact hsame
  · exact absurd (if_neg hsame) hne

theorem eq_of_get_setFlag_ne (hne : ((r.set x value).setFlag other).get n ≠ r.get n) :
    n = x ∨ n = Registers.flagNumber := by
  by_cases hflag : n = Registers.flagNumber
  · exact .inr hflag
  · rw [Registers.setFlag, get_set, if_neg hflag] at hne
    exact .inl (eq_of_get_set_ne hne)

theorem eq_of_get_combine_ne {f : Int → Int → Int} {clears : Bool}
    (hne : (r.combine f clears x y).get n ≠ r.get n) :
    n = x ∨ clears = true ∧ n = Registers.flagNumber := by
  cases clears with
  | false => exact .inl (eq_of_get_set_ne hne)
  | true => exact (eq_of_get_setFlag_ne hne).imp_right fun hflag => ⟨rfl, hflag⟩

theorem mem_of_get_loadedFrom_ne {b : Bus} {names : List (Fin 16)} {address : Int}
    (hne : (loadedFrom b r address names).get n ≠ r.get n) : n ∈ names := by
  induction names generalizing r address with
  | nil => exact absurd rfl hne
  | cons m rest ih =>
      by_cases hlater : (loadedFrom b (r.set m (byteAt b address)) (address + 1) rest).get n ≠
          (r.set m (byteAt b address)).get n
      · exact List.mem_cons_of_mem _ (ih hlater)
      · have hset : (loadedFrom b r address (m :: rest)).get n =
          (r.set m (byteAt b address)).get n := Classical.not_not.1 hlater
        rw [hset] at hne
        exact eq_of_get_set_ne hne ▸ List.mem_cons_self

theorem eq_of_get_waitKey_ne {keypad : Keypad}
    (hne : (keypad.first?.elim r fun key => r.set x key.val).get n ≠ r.get n) : n = x := by
  cases hkey : keypad.first? with
  | none => exact absurd (by rw [hkey]; rfl) hne
  | some key =>
      rw [hkey] at hne
      exact eq_of_get_set_ne hne

theorem le_of_mem_upTo (hmem : n ∈ upTo x) : n ≤ x := by
  obtain ⟨i, hi, heq⟩ := List.mem_take_iff_getElem.1 hmem
  rw [List.getElem_finRange] at heq
  have hval := congrArg Fin.val heq
  simp only [Fin.val_cast] at hval
  rw [Fin.le_def]
  omega

end General

section Forms

variable {setup : Setup} {size word : Int} {form : Form} {c : MachineCore}

theorem x_eq (word : Int) : ((Opcode.x word).val : Int) = word / 0x100 % 0x10 := by
  simp only [Opcode.x]
  omega

theorem sets_of_get_ne (hword : IsWord word) (hform : Form.ofOpcode? word = some form) {n : Fin 16}
    (hne : (registersAfter setup form word c).get n ≠ c.registers.get n) :
    Sets setup.dialect word n := by
  obtain ⟨hthird, -, -, hlast⟩ := digits_of_ofOpcode? hform hword
  cases form <;> simp only [Form.shape] at hthird
  case loadByte | addByte | random =>
    obtain rfl := eq_of_get_set_ne hne
    exact .byte (by omega)
  case copy =>
    obtain rfl := eq_of_get_set_ne hne
    have := hlast _ rfl
    exact .result (by omega) (by omega)
  case or | and | xor =>
    have := hlast _ rfl
    obtain rfl | ⟨hclears, rfl⟩ := eq_of_get_combine_ne hne
    · exact .result (by omega) (by omega)
    · exact .cleared hclears (by omega) (by omega)
  case add | sub | subFrom | shiftRight | shiftLeft =>
    have := hlast _ rfl
    obtain rfl | rfl := eq_of_get_setFlag_ne hne
    · exact .result (by omega) (by omega)
    · exact .flag (by omega) (by omega)
  case readDelay =>
    obtain rfl := eq_of_get_set_ne hne
    have hlow := lowByte_of_ofOpcode? hform hword rfl rfl
    exact .input (by omega) (by omega)
  case waitKey =>
    obtain rfl := eq_of_get_waitKey_ne hne
    have hlow := lowByte_of_ofOpcode? hform hword rfl rfl
    exact .input (by omega) (by omega)
  case draw =>
    obtain rfl := eq_of_get_set_ne hne
    exact .collision (by omega)
  case loadRegisters =>
    have hle := le_of_mem_upTo (mem_of_get_loadedFrom_ne hne)
    have hx := x_eq word
    have hlow := lowByte_of_ofOpcode? hform hword rfl rfl
    exact .loaded (by omega) (by omega) (by omega)
  all_goals exact absurd rfl hne

theorem shows_iff (hword : IsWord word) (hform : Form.ofOpcode? word = some form) :
    form ∈ displayForms ↔ word = 0x00E0 ∨ word / 0x1000 = 0xD := by
  have hclear := ofOpcode?_fixed .clearDisplay (by decide) rfl (by decide) (by decide) (by decide)
    hword
  have hdraw := ofOpcode?_leading .draw (by decide) rfl hword
  rw [hform] at hclear hdraw
  simp only [displayForms, List.mem_cons, List.not_mem_nil, or_false]
  exact or_congr ((Option.some_inj).symm.trans hclear) ((Option.some_inj).symm.trans hdraw)

theorem points_of_mem (hword : IsWord word) (hform : Form.ofOpcode? word = some form)
    {dialect : Dialect} (hmem : form ∈ indexForms dialect) : Points dialect word := by
  obtain ⟨hthird, -⟩ := digits_of_ofOpcode? hform hword
  rcases List.mem_append.1 hmem with hsets | hmoves
  · simp only [List.mem_cons, List.not_mem_nil, or_false] at hsets
    rcases hsets with rfl | rfl | rfl <;> simp only [Form.shape] at hthird
    · exact .load (by omega)
    · have hlow := lowByte_of_ofOpcode? hform hword rfl rfl
      exact .add (by omega) (by omega)
    · have hlow := lowByte_of_ofOpcode? hform hword rfl rfl
      exact .glyph (by omega) (by omega)
  · split at hmoves
    case isTrue hdialect =>
      simp only [List.mem_cons, List.not_mem_nil, or_false] at hmoves
      rcases hmoves with rfl | rfl <;> simp only [Form.shape] at hthird
      all_goals
        have hlow := lowByte_of_ofOpcode? hform hword rfl rfl
        exact .transfer hdialect (by omega) (by omega)
    case isFalse => cases hmoves

theorem writes_of_mem (hword : IsWord word) (hform : Form.ofOpcode? word = some form)
    (hmem : form ∈ storeForms) : ∃ count, span? form word = some count ∧ Writes word count := by
  obtain ⟨hthird, -⟩ := digits_of_ofOpcode? hform hword
  simp only [storeForms, List.mem_cons, List.not_mem_nil, or_false] at hmem
  rcases hmem with rfl | rfl <;> simp only [Form.shape] at hthird
  all_goals
    have hlow := lowByte_of_ofOpcode? hform hword rfl rfl
    refine ⟨_, rfl, ?_⟩
  · exact .decimal (by omega) (by omega)
  · rw [x_eq]
    exact .registers (by omega) (by omega)

theorem stack_word (hword : IsWord word) (hform : Form.ofOpcode? word = some form)
    (hmem : form ∈ stackForms) : word / 0x1000 = 0x2 ∨ word = 0x00EE := by
  simp only [stackForms, List.mem_cons, List.not_mem_nil, or_false] at hmem
  rcases hmem with rfl | rfl
  · exact .inr ((ofOpcode?_fixed .ret (by decide) rfl (by decide) (by decide) (by decide)
      hword).1 hform)
  · exact .inl ((ofOpcode?_leading .call (by decide) rfl hword).1 hform)

end Forms

/-! ## Advances -/

section Advances

variable {m : Machine} {size : Int} {form : Form}

theorem displayChanged_recorded (setup : Setup) (form : Form) (c : MachineCore) :
    (recorded setup form c).displayChanged = true ↔ form ∈ displayForms := by
  change (form.pattern == Form.clearDisplay.pattern || form.pattern == Form.draw.pattern) = true ↔ _
  cases form <;> decide

theorem peek_stepped_ne (h : Wide m.setup size m.core) (hexecutes : Executes size m form) {a : Int}
    (hne : (stepped m.setup form m.core).bus.peek a ≠ m.core.bus.peek a) :
    fontEnd ≤ a ∧ ∃ count, Writes (wordAt m.core.bus m.core.pc) count ∧
      m.core.registers.index ≤ a ∧ a < m.core.registers.index + count := by
  have hword := isWord_wordAt h.bus m.core.pc
  have hblocked := not_blocked_started hexecutes.free hexecutes.inside hexecutes.found
  by_cases hmem : form ∈ storeForms
  · obtain ⟨count, hspan, hwrites⟩ := writes_of_mem hword hexecutes.found hmem
    have hsame : ∀ ha, (stepped m.setup form m.core).bus.peek a = m.core.bus.peek a :=
      fun ha => peek_busAfter_outside h.started.bus h.started.registers.bytes hblocked hmem hspan ha
    have hinside : ¬(a < fontEnd ∨ a < m.core.registers.index ∨
        m.core.registers.index + count ≤ a) := fun ha => hne (hsame ha)
    exact ⟨by omega, count, hwrites, by omega, by omega⟩
  · obtain ⟨log, hlog⟩ := busAfter_of_not_store hmem (wordAt m.core.bus m.core.pc) (started m.core)
    have hbus : (executed m.setup form m.core).bus = { (started m.core).bus with log } := hlog
    exact absurd (congrArg (fun b => b.peek a) hbus) hne

theorem confined_stepped (h : Wide m.setup size m.core) (hexecutes : Executes size m form) :
    Confined m { m with core := stepped m.setup form m.core } (recorded m.setup form m.core) := by
  have hform := hexecutes.found
  have hword := isWord_wordAt h.bus m.core.pc
  have hspared := spared_registersAfter m.setup form (wordAt m.core.bus m.core.pc) (started m.core)
  have hshows := displayChanged_recorded m.setup form m.core
  exact {
    setup := rfl
    keypad := keypad_hardwareAfter form _ _
    memorySize := memorySize_hardwareAfter form _ _
    tone := rfl
    shown := hshows.trans (shows_iff hword hform)
    display := fun hne => by
      by_cases hmem : form ∈ displayForms
      · exact hshows.2 hmem
      · exact absurd (display_hardwareAfter hmem) hne
    memory := fun a hne => peek_stepped_ne h hexecutes hne
    stack := fun hne => by
      by_cases hmem : form ∈ stackForms
      · exact stack_word hword hform hmem
      · exact absurd (hspared.stack hmem) (Classical.not_and_iff_not_or_not.2 hne)
    delay := fun hne => by
      by_cases hset : form = .setDelay
      · exact (ofOpcode?_outer .setDelay (by decide) rfl (by decide) hword).1 (hset ▸ hform)
      · exact absurd (hspared.delay hset) hne
    sound := fun hne => by
      by_cases hset : form = .setSound
      · exact (ofOpcode?_outer .setSound (by decide) rfl (by decide) hword).1 (hset ▸ hform)
      · exact absurd (hspared.sound hset) hne
    index := fun hne => by
      by_cases hmem : form ∈ indexForms m.setup.dialect
      · exact points_of_mem hword hform hmem
      · exact absurd (hspared.index hmem) hne
    random := fun hne => by
      by_cases hdraws : form = .random
      · exact (ofOpcode?_leading .random (by decide) rfl hword).1 (hdraws ▸ hform)
      · exact absurd (random_hardwareAfter hdraws) hne
    general := fun n hne => sets_of_get_ne hword hform hne }

end Advances

/-- An advance that succeeds changes nothing that the word of its snapshot does not name. -/
theorem confined_of_advance {s : Settings} {h : Host} (hh : Reachable s h) {after : Machine}
    {snapshot : Snapshot Registers} (heq : h.machine.advance = (after, .ok snapshot)) :
    Confined h.machine after snapshot := by
  obtain ⟨form, hexecutes, rfl, rfl⟩ := exists_executes hh.held.fits heq
  exact confined_stepped hh.held.fits hexecutes

theorem confined_of_storing :
    Reachable { memorySize := 0x60, loadAddress := 0x50 } storing ∧
    ∃ after snapshot, storing.machine.advance = (after, .ok snapshot) ∧
      snapshot.operation.opcode = 0xF155 ∧ Confined storing.machine after snapshot ∧
      (after.core.bus.peek 0x4F).toOption = (storing.machine.core.bus.peek 0x4F).toOption ∧
      (after.core.bus.peek 0x50).toOption = some 7 := by
  obtain ⟨after, snapshot, heq, hoperation, -⟩ := advance_storing
  have hfont : (storing.machine.advance.1.core.bus.peek 0x4F).toOption =
      (storing.machine.core.bus.peek 0x4F).toOption := by decide +kernel
  have hstored : (storing.machine.advance.1.core.bus.peek 0x50).toOption = some 7 := by
    decide +kernel
  rw [heq] at hfont hstored
  exact ⟨reachable_storing, after, snapshot, heq, congrArg Operation.opcode hoperation,
    confined_of_advance reachable_storing heq, hfont, hstored⟩

end Chip8.Proofs.Host.Footprint
