import Chip8.Proofs.Host.Calls
import Chip8.Proofs.Host.Failure
import Chip8.Proofs.Machine.Indifference

/-!
# Where instructions lead

The program counter after each instruction, told from the word at the program counter, the
registers and the keys.  The counter is moved past an instruction before it is carried out, so that
a skip moves it a second time and waiting for a key moves it back; each of these moves wraps around
at sixteen bits on its own.
-/

namespace Chip8.Proofs.Host.Flow

open Chip8.Proofs.Memory.Layout Chip8.Proofs.Instruction.Effect
open Chip8.Proofs.Instruction.Word Chip8.Proofs.Instruction.Cycle
open Chip8.Proofs.Machine.Representation
open Chip8.Proofs.Machine.Indifference (Executes exists_executes)
open Chip8.Proofs.Host.Invariant Chip8.Proofs.Host.Failure
open Chip8.Proofs.Host.Calls (stack_registersAfter stack_stepped_call stack_stepped_ret)

/-! ## Words -/

/-- The words that skip the next instruction. -/
inductive Skips (m : Machine) (word : Int) : Prop
  | eqByte (hhigh : word / 0x1000 = 0x3)
      (heq : m.core.registers.get (Opcode.x word) = word % 0x100)
  | neByte (hhigh : word / 0x1000 = 0x4)
      (hne : m.core.registers.get (Opcode.x word) ≠ word % 0x100)
  | eq (hhigh : word / 0x1000 = 0x5) (hlow : word % 0x10 = 0x0)
      (heq : m.core.registers.get (Opcode.x word) = m.core.registers.get (Opcode.y word))
  | ne (hhigh : word / 0x1000 = 0x9) (hlow : word % 0x10 = 0x0)
      (hne : m.core.registers.get (Opcode.x word) ≠ m.core.registers.get (Opcode.y word))
  | pressed (hhigh : word / 0x1000 = 0xE) (hlow : word % 0x100 = 0x9E)
      (hkey : m.core.hardware.keypad.isPressed
        (m.core.registers.get (Opcode.x word) % 16) = .ok true)
  | released (hhigh : word / 0x1000 = 0xE) (hlow : word % 0x100 = 0xA1)
      (hkey : m.core.hardware.keypad.isPressed
        (m.core.registers.get (Opcode.x word) % 16) = .ok false)

/-- The words that do not lead on to the next instruction, with the address to which they lead. -/
inductive Diverts (m : Machine) (word : Int) : Int → Prop
  | jump (hhigh : word / 0x1000 = 0x1) : Diverts m word (word % 0x1000)
  | call (hhigh : word / 0x1000 = 0x2) : Diverts m word (word % 0x1000)
  | ret {address : Int} (hword : word = 0x00EE)
      (htop : m.core.registers.stack.head? = some address) : Diverts m word address
  | offset (hhigh : word / 0x1000 = 0xB) :
      Diverts m word (m.core.registers.get 0 + word % 0x1000)
  | wait (hhigh : word / 0x1000 = 0xF) (hlow : word % 0x100 = 0x0A)
      (hnone : ∀ key, m.core.hardware.keypad.pressed key = false) : Diverts m word m.core.pc
  | skip (hskips : Skips m word) : Diverts m word ((m.core.pc + 4) % 0x10000)

/-- Where an advance from `m` to `after` leads that carries out a word, and what calls and returns
do to the call stack, the most recent return address first. -/
structure Flows (m after : Machine) (word : Int) : Prop where
  diverted : ∀ target, Diverts m word target → after.core.pc = target
  onward : (∀ target, ¬Diverts m word target) → after.core.pc = (m.core.pc + 2) % 0x10000
  called : word / 0x1000 = 0x2 →
    after.core.registers.stack = (m.core.pc + 2) % 0x10000 :: m.core.registers.stack
  returned : word = 0x00EE →
    m.core.registers.stack = after.core.pc :: after.core.registers.stack
  kept : word / 0x1000 ≠ 0x2 → word ≠ 0x00EE →
    after.core.registers.stack = m.core.registers.stack

/-! ## Keys -/

section Keys

variable (keypad : Keypad)

theorem isPressed_lowDigit (value : Int) :
    keypad.isPressed (value % 16) = .ok (keypad.pressed (Keypad.ofLowDigit value)) := by
  have hdigit : 0 ≤ value % 16 ∧ value % 16 < (16 : Nat) := by omega
  simp only [Keypad.isPressed, Keypad.key?, below?, dif_pos hdigit, Keypad.ofLowDigit]

theorem first?_eq_none_iff : keypad.first? = none ↔ ∀ key, keypad.pressed key = false := by
  simp [Keypad.first?]

end Keys

/-! ## Instructions -/

section Instructions

variable {m : Machine} {size word target : Int} {form : Form}

theorem skips_iff (hword : IsWord word) (hform : Form.ofOpcode? word = some form) :
    skips form word (started m.core) = true ↔ Skips m word := by
  have hfound : ∀ {other : Form}, Form.ofOpcode? word = some other → form = other :=
    fun hother => Option.some.inj (hform.symm.trans hother)
  have hdigits := digits_of_ofOpcode? hform hword
  constructor
  · intro hskips
    cases form with
    | skipEqByte => exact .eqByte hdigits.1 (beq_iff_eq.1 hskips)
    | skipNeByte => exact .neByte hdigits.1 (bne_iff_ne.1 hskips)
    | skipEq => exact .eq hdigits.1 (hdigits.2.2.2 _ rfl) (beq_iff_eq.1 hskips)
    | skipNe => exact .ne hdigits.1 (hdigits.2.2.2 _ rfl) (bne_iff_ne.1 hskips)
    | skipPressed =>
        refine .pressed hdigits.1 (lowByte_of_ofOpcode? hform hword rfl rfl) ?_
        rw [isPressed_lowDigit]
        exact congrArg Except.ok hskips
    | skipReleased =>
        refine .released hdigits.1 (lowByte_of_ofOpcode? hform hword rfl rfl) ?_
        rw [isPressed_lowDigit]
        exact congrArg Except.ok ((Bool.not_eq_true' _).mp hskips)
    | _ => cases hskips
  · intro hskips
    cases hskips with
    | eqByte hhigh heq =>
        obtain rfl := hfound ((ofOpcode?_leading .skipEqByte (by decide) rfl hword).2 hhigh)
        exact beq_iff_eq.2 heq
    | neByte hhigh hne =>
        obtain rfl := hfound ((ofOpcode?_leading .skipNeByte (by decide) rfl hword).2 hhigh)
        exact bne_iff_ne.2 hne
    | eq hhigh hlow heq =>
        obtain rfl := hfound ((ofOpcode?_ends .skipEq (by decide) rfl hword).2 ⟨hhigh, hlow⟩)
        exact beq_iff_eq.2 heq
    | ne hhigh hlow hne =>
        obtain rfl := hfound ((ofOpcode?_ends .skipNe (by decide) rfl hword).2 ⟨hhigh, hlow⟩)
        exact bne_iff_ne.2 hne
    | pressed hhigh hlow hkey =>
        obtain rfl := hfound
          ((ofOpcode?_outer .skipPressed (by decide) rfl (by decide) hword).2 ⟨hhigh, hlow⟩)
        rw [isPressed_lowDigit] at hkey
        exact Except.ok.inj hkey
    | released hhigh hlow hkey =>
        obtain rfl := hfound
          ((ofOpcode?_outer .skipReleased (by decide) rfl (by decide) hword).2 ⟨hhigh, hlow⟩)
        rw [isPressed_lowDigit] at hkey
        exact congrArg not (Except.ok.inj hkey)

def placingForms : List Form := [.ret, .jump, .call, .jumpOffset, .waitKey]

theorem pcAfter_eq (hform : form ∉ placingForms) (opcode : Int) (c : MachineCore) :
    pcAfter form opcode c = if skips form opcode c then (c.pc + 2) % 65536 else c.pc := by
  cases form <;> first | rfl | exact absurd (by decide) hform

theorem pc_of_diverts (h : Wide m.setup size m.core) (hpc : IsWord m.core.pc)
    (hword : IsWord word) (hform : Form.ofOpcode? word = some form)
    (hdiverts : Diverts m word target) : pcAfter form word (started m.core) = target := by
  have hfound : ∀ {other : Form}, Form.ofOpcode? word = some other → form = other :=
    fun hother => Option.some.inj (hform.symm.trans hother)
  have hnext : (started m.core).pc = (m.core.pc + 2) % 65536 := rfl
  cases hdiverts with
  | jump hhigh =>
      obtain rfl := hfound ((ofOpcode?_leading .jump (by decide) rfl hword).2 hhigh)
      rfl
  | call hhigh =>
      obtain rfl := hfound ((ofOpcode?_leading .call (by decide) rfl hword).2 hhigh)
      rfl
  | ret hret htop =>
      obtain rfl := hfound ((ofOpcode?_fixed .ret (by decide) rfl (by decide) (by decide)
        (by decide) hword).2 hret)
      have hstack : (started m.core).registers.stack.head? = some target := htop
      rw [pcAfter, List.headD_eq_head?_getD, hstack]
      rfl
  | offset hhigh =>
      obtain rfl := hfound ((ofOpcode?_leading .jumpOffset (by decide) rfl hword).2 hhigh)
      -- The sum of a byte and an address of twelve bits does not reach sixteen bits.
      have hbyte := h.registers.bytes 0
      exact Int.emod_eq_of_lt (a := m.core.registers.get 0 + word % 0x1000)
        (by omega) (by omega)
  | wait hhigh hlow hnone =>
      obtain rfl := hfound
        ((ofOpcode?_outer .waitKey (by decide) rfl (by decide) hword).2 ⟨hhigh, hlow⟩)
      have hfirst : (started m.core).hardware.keypad.first? = none :=
        (first?_eq_none_iff _).2 hnone
      rw [pcAfter, hfirst, hnext]
      simp only [Option.isSome_none, Bool.false_eq_true, if_false]
      omega
  | skip hskips =>
      have hskip := (skips_iff hword hform).2 hskips
      have hplain : form ∉ placingForms := by
        intro hmem
        cases form <;> first | cases hskip | exact absurd hmem (by decide)
      rw [pcAfter_eq hplain, if_pos hskip, hnext]
      omega

theorem pc_of_onward (hword : IsWord word) (hform : Form.ofOpcode? word = some form)
    (hstack : form = .ret → m.core.registers.stack ≠ [])
    (honward : ∀ target, ¬Diverts m word target) :
    pcAfter form word (started m.core) = (m.core.pc + 2) % 0x10000 := by
  have hdigits := digits_of_ofOpcode? hform hword
  have hnext : (started m.core).pc = (m.core.pc + 2) % 65536 := rfl
  have hskip : ¬skips form word (started m.core) = true :=
    fun hskip => honward _ (.skip ((skips_iff hword hform).1 hskip))
  by_cases hplaces : form ∈ placingForms
  · cases form with
    | ret =>
        have hret := (ofOpcode?_fixed .ret (by decide) rfl (by decide) (by decide)
          (by decide) hword).1 hform
        obtain ⟨address, rest, hcells⟩ := List.exists_cons_of_ne_nil (hstack rfl)
        exact absurd (.ret hret (by rw [hcells]; rfl)) (honward address)
    | jump => exact absurd (.jump hdigits.1) (honward _)
    | call => exact absurd (.call hdigits.1) (honward _)
    | jumpOffset => exact absurd (.offset hdigits.1) (honward _)
    | waitKey =>
        have hlow := lowByte_of_ofOpcode? hform hword rfl rfl
        have hsome : (started m.core).hardware.keypad.first?.isSome = true := by
          rw [← Option.ne_none_iff_isSome]
          intro hfirst
          exact honward _ (.wait hdigits.1 hlow ((first?_eq_none_iff _).1 hfirst))
        rw [pcAfter, if_pos hsome, hnext]
    | _ => exact absurd hplaces (by decide)
  · rw [pcAfter_eq hplaces, if_neg hskip, hnext]

theorem flows_of_executes (h : Wide m.setup size m.core) (hpc : IsWord m.core.pc)
    (hexecutes : Executes size m form) :
    Flows m { m with core := stepped m.setup form m.core } (wordAt m.core.bus m.core.pc) := by
  have hword := isWord_wordAt h.bus m.core.pc
  have hform := hexecutes.found
  have hcallForm := ofOpcode?_leading .call (by decide) rfl hword
  have hretForm :=
    ofOpcode?_fixed .ret (by decide) rfl (by decide) (by decide) (by decide) hword
  have hstack : form = .ret → m.core.registers.stack ≠ [] := fun heq hnil =>
    hexecutes.free _ (.execute hexecutes.inside hform (.underflow heq hnil))
  constructor
  case diverted => exact fun target => pc_of_diverts h hpc hword hform
  case onward => exact pc_of_onward hword hform hstack
  case called =>
    intro hcall
    obtain rfl : .call = form := Option.some.inj ((hcallForm.2 hcall).symm.trans hform)
    exact stack_stepped_call m.setup m.core
  case returned =>
    intro hret
    obtain rfl : .ret = form := Option.some.inj ((hretForm.2 hret).symm.trans hform)
    exact stack_stepped_ret m.setup (hstack rfl)
  case kept =>
    intro hcall hret
    have hnotRet : form ≠ .ret := fun heq => hret (hretForm.1 (heq ▸ hform))
    have hnotCall : form ≠ .call := fun heq => hcall (hcallForm.1 (heq ▸ hform))
    exact stack_registersAfter (c := started m.core) hnotRet hnotCall

end Instructions

/-- After an advance that succeeds the program counter is where the word leads that was there
before. -/
theorem control_flow_exact {s : Settings} {h : Host} (hh : Reachable s h)
    (hword : s.loadAddress ≤ 0xFFFF) {after : Machine} {snapshot : Snapshot Registers}
    (heq : h.machine.advance = (after, .ok snapshot)) :
    AtPc h.machine snapshot.operation.opcode ∧
      Flows h.machine after snapshot.operation.opcode := by
  have hfits := hh.held.fits
  have hpc := (hh.steady hword).fit.pc
  obtain ⟨form, hexecutes, rfl, rfl⟩ := exists_executes hfits heq
  exact ⟨(atPc_iff hfits).2 ⟨hexecutes.inside, rfl⟩, flows_of_executes hfits hpc hexecutes⟩

def skippingOnKey : Host :=
  Host.handleAll { machine := newMachine { memorySize := 0x60, loadAddress := 0x50 } }
    [.load (.list [.int 0x60, .int 0x05, .int 0xE0, .int 0x9E]), .setKey (.int 5) true, .advance]

theorem control_flow_on_key :
    Reachable { memorySize := 0x60, loadAddress := 0x50 } skippingOnKey ∧
    AtPc skippingOnKey.machine 0xE09E ∧
    ∃ after snapshot, skippingOnKey.machine.advance = (after, .ok snapshot) ∧
      after.core.pc = 0x56 ∧ after.core.registers.stack = [] := by
  have hreachable : Reachable { memorySize := 0x60, loadAddress := 0x50 } skippingOnKey :=
    reachable_small (by simp [IsOperation])
  have hfits := hreachable.held.fits
  have hat : AtPc skippingOnKey.machine 0xE09E := (atPc_iff hfits).2 (by decide +kernel)
  have hpc : skippingOnKey.machine.core.pc = 0x52 := by decide +kernel
  have hstack : skippingOnKey.machine.core.registers.stack = [] := by decide +kernel
  have hkey : skippingOnKey.machine.core.hardware.keypad.pressed (Keypad.ofLowDigit
      (skippingOnKey.machine.core.registers.get (Opcode.x 0xE09E))) = true := by decide +kernel
  have hskips : Skips skippingOnKey.machine 0xE09E := .pressed (by decide) (by decide)
    ((isPressed_lowDigit _ _).trans (congrArg Except.ok hkey))
  have hform : Form.ofOpcode? 0xE09E = some .skipPressed := by decide
  have hadvance := advance_of_atPc hfits hat hform (not_blocked (by decide) _)
  have hflows := (control_flow_exact hreachable (by decide) hadvance).2
  have hopcode : (recorded skippingOnKey.machine.setup .skipPressed
      skippingOnKey.machine.core).operation.opcode = 0xE09E := ((atPc_iff hfits).1 hat).2.symm
  rw [hopcode] at hflows
  have hplace := hflows.diverted _ (.skip hskips)
  rw [hpc] at hplace
  exact ⟨hreachable, hat, _, _, hadvance, hplace,
    (hflows.kept (by decide) (by decide)).trans hstack⟩

end Chip8.Proofs.Host.Flow
