import Chip8.Proofs.Host.Failure
import Mathlib.Data.Int.Bitwise

/-!
# Register arithmetic

What the instructions compute that work on the general registers, whichever registers they name.
An instruction may name the flag register as an operand, and it may name it as the register for its
result: operands are read before anything is written, and the flag is written last.
-/

namespace Chip8.Proofs.Host.Arithmetic

open Chip8.Proofs.Memory.Layout Chip8.Proofs.Instruction.Effect
open Chip8.Proofs.Instruction.Word Chip8.Proofs.Instruction.Cycle
open Chip8.Proofs.Machine.Representation Chip8.Proofs.Host.Invariant Chip8.Proofs.Host.Failure

/-! ## Results and flags -/

def shifted (dialect : Dialect) (a b : Int) : Int :=
  if dialect.shiftsSecond then b else a

def clearedFlag (dialect : Dialect) : Option Int :=
  if dialect.logicClearsFlag then some 0 else none

/-- What a word computes from the values `a` and `b` of its two registers: the new value of the
first one, and what goes to the flag register after it, if anything does. -/
inductive Computes (dialect : Dialect) (a b word : Int) : Int → Option Int → Prop
  | addByte (hhigh : word / 0x1000 = 0x7) :
      Computes dialect a b word ((a + word % 0x100) % 0x100) none
  | or (hhigh : word / 0x1000 = 0x8) (hlow : word % 0x10 = 0x1) :
      Computes dialect a b word (a.lor b) (clearedFlag dialect)
  | and (hhigh : word / 0x1000 = 0x8) (hlow : word % 0x10 = 0x2) :
      Computes dialect a b word (a.land b) (clearedFlag dialect)
  | xor (hhigh : word / 0x1000 = 0x8) (hlow : word % 0x10 = 0x3) :
      Computes dialect a b word (a.xor b) (clearedFlag dialect)
  | add (hhigh : word / 0x1000 = 0x8) (hlow : word % 0x10 = 0x4) :
      Computes dialect a b word ((a + b) % 0x100) (some (if 0x100 ≤ a + b then 1 else 0))
  | sub (hhigh : word / 0x1000 = 0x8) (hlow : word % 0x10 = 0x5) :
      Computes dialect a b word ((a - b) % 0x100) (some (if b ≤ a then 1 else 0))
  | shiftRight (hhigh : word / 0x1000 = 0x8) (hlow : word % 0x10 = 0x6) :
      Computes dialect a b word (shifted dialect a b / 2) (some (shifted dialect a b % 2))
  | subFrom (hhigh : word / 0x1000 = 0x8) (hlow : word % 0x10 = 0x7) :
      Computes dialect a b word ((b - a) % 0x100) (some (if a ≤ b then 1 else 0))
  | shiftLeft (hhigh : word / 0x1000 = 0x8) (hlow : word % 0x10 = 0xE) :
      Computes dialect a b word (2 * shifted dialect a b % 0x100)
        (some (shifted dialect a b / 0x80))

/-- Registers in which a result has been put and then a flag, if there is one.  In the flag register
the flag wins. -/
structure Settles (before after : Registers) (x : Fin 16) (result : Int) (flag : Option Int) :
    Prop where
  inFlag : ∀ f, flag = some f → after.get Registers.flagNumber = f
  inFirst : (x = Registers.flagNumber → flag = none) → after.get x = result
  others : ∀ n, n ≠ x → (n = Registers.flagNumber → flag = none) → after.get n = before.get n

section Registers

variable {r : Registers} {x y : Fin 16} {value carry result flag a b : Int}

theorem settles_set (hvalue : value % 256 = result) : Settles r (r.set x value) x result none := by
  refine ⟨fun f => nofun, fun _ => ?_, fun n hne _ => ?_⟩
  · rw [get_set, if_pos rfl, hvalue]
  · rw [get_set, if_neg hne]

theorem settles_setFlag (hvalue : value % 256 = result) (hcarry : carry % 256 = flag) :
    Settles r ((r.set x value).setFlag carry) x result (some flag) := by
  have hlast : ∀ n, ((r.set x value).setFlag carry).get n =
      if n = Registers.flagNumber then carry % 256 else (r.set x value).get n :=
    get_set (r.set x value) Registers.flagNumber carry
  refine ⟨?_, fun hfree => ?_, fun n hne hfree => ?_⟩
  · rintro f ⟨⟩
    rw [hlast, if_pos rfl, hcarry]
  · have hx : x ≠ Registers.flagNumber := fun heq => nomatch hfree heq
    rw [hlast, if_neg hx, get_set, if_pos rfl, hvalue]
  · have hn : n ≠ Registers.flagNumber := fun heq => nomatch hfree heq
    rw [hlast, if_neg hn, get_set, if_neg hne]

theorem settles_combine {f : Int → Int → Int} (dialect : Dialect)
    (hvalue : f (r.get x) (r.get y) % 256 = result) :
    Settles r (r.combine f dialect.logicClearsFlag x y) x result (clearedFlag dialect) := by
  unfold Registers.combine clearedFlag
  cases dialect.logicClearsFlag with
  | false => exact settles_set hvalue
  | true => exact settles_setFlag hvalue rfl

theorem bitwise_mod {f : Nat → Nat → Nat} {g : Int → Int → Int} (hg : ∀ m n : Nat, g m n = f m n)
    (ha : IsByte a) (hb : IsByte b) (hlt : f a.toNat b.toNat < 2 ^ 8) :
    ((f (a % 256).toNat (b % 256).toNat : Nat) : Int) % 256 = g a b := by
  obtain ⟨m, rfl⟩ := Int.eq_ofNat_of_zero_le ha.1
  obtain ⟨n, rfl⟩ := Int.eq_ofNat_of_zero_le hb.1
  have hm : (m : Int) % 256 = m := by omega
  have hn : (n : Int) % 256 = n := by omega
  rw [Int.toNat_natCast, Int.toNat_natCast] at hlt
  rw [hm, hn, Int.toNat_natCast, Int.toNat_natCast, hg]
  omega

theorem flagValue_mod (p : Prop) [Decidable p] :
    Registers.flagValue (decide p) % 256 = if p then 1 else 0 := by
  unfold Registers.flagValue
  by_cases hp : p <;> simp [hp]

theorem get_source (dialect : Dialect) (r : Registers) (x y : Fin 16) :
    r.get (if dialect.shiftsSecond then y else x) = shifted dialect (r.get x) (r.get y) := by
  unfold shifted
  split <;> rfl

theorem isByte_shifted (dialect : Dialect) (ha : IsByte a) (hb : IsByte b) :
    IsByte (shifted dialect a b) := by
  unfold shifted
  split <;> assumption

theorem settles_shiftRight (dialect : Dialect) (hx : IsByte (r.get x)) (hy : IsByte (r.get y)) :
    Settles r (r.shiftRight x (if dialect.shiftsSecond then y else x)) x
      (shifted dialect (r.get x) (r.get y) / 2)
      (some (shifted dialect (r.get x) (r.get y) % 2)) := by
  have hbyte := isByte_shifted dialect hx hy
  unfold Registers.shiftRight
  rw [get_source]
  exact settles_setFlag (by omega) (by omega)

theorem settles_shiftLeft (dialect : Dialect) (hx : IsByte (r.get x)) (hy : IsByte (r.get y)) :
    Settles r (r.shiftLeft x (if dialect.shiftsSecond then y else x)) x
      (2 * shifted dialect (r.get x) (r.get y) % 0x100)
      (some (shifted dialect (r.get x) (r.get y) / 0x80)) := by
  have hbyte := isByte_shifted dialect hx hy
  unfold Registers.shiftLeft
  rw [get_source]
  exact settles_setFlag (by omega) (by omega)

end Registers

/-! ## Instructions -/

section Instructions

variable {m : Machine} {size word result : Int} {flag : Option Int} {form : Form}

theorem advance_settles (h : Wide m.setup size m.core) (hat : AtPc m word)
    (hform : Form.ofOpcode? word = some form) (hsafe : form ∉ riskyForms)
    (hsettles : Settles m.core.registers
      (registersAfter m.setup form word (started m.core)) (Opcode.x word) result flag) :
    ∃ after snapshot, m.advance = (after, .ok snapshot) ∧
      Settles m.core.registers after.core.registers (Opcode.x word) result flag := by
  have hadvance := advance_of_atPc h hat hform (not_blocked hsafe m.core.registers)
  obtain ⟨-, rfl⟩ := (atPc_iff h).1 hat
  exact ⟨_, _, hadvance, hsettles⟩

theorem advance_computes (h : Wide m.setup size m.core) (hat : AtPc m word)
    (hcomputes : Computes m.setup.dialect (m.core.registers.get (Opcode.x word))
      (m.core.registers.get (Opcode.y word)) word result flag) :
    ∃ after snapshot, m.advance = (after, .ok snapshot) ∧
      Settles m.core.registers after.core.registers (Opcode.x word) result flag := by
  have hword : IsWord word := by
    obtain ⟨-, rfl⟩ := (atPc_iff h).1 hat
    exact isWord_wordAt h.bus m.core.pc
  have hx := h.registers.bytes (Opcode.x word)
  have hy := h.registers.bytes (Opcode.y word)
  cases hcomputes with
  | addByte hhigh =>
      have hform := (ofOpcode?_leading .addByte (by decide) rfl hword).2 hhigh
      exact advance_settles h hat hform (by decide) (settles_set rfl)
  | or hhigh hlow =>
      have hform := (ofOpcode?_ends .or (by decide) rfl hword).2 ⟨hhigh, hlow⟩
      exact advance_settles h hat hform (by decide) (settles_combine m.setup.dialect
        (bitwise_mod (fun _ _ => rfl) hx hy (Nat.or_lt_two_pow (by omega) (by omega))))
  | and hhigh hlow =>
      have hform := (ofOpcode?_ends .and (by decide) rfl hword).2 ⟨hhigh, hlow⟩
      exact advance_settles h hat hform (by decide) (settles_combine m.setup.dialect
        (bitwise_mod (fun _ _ => rfl) hx hy (Nat.and_lt_two_pow _ (by omega))))
  | xor hhigh hlow =>
      have hform := (ofOpcode?_ends .xor (by decide) rfl hword).2 ⟨hhigh, hlow⟩
      exact advance_settles h hat hform (by decide) (settles_combine m.setup.dialect
        (bitwise_mod (fun _ _ => rfl) hx hy (Nat.xor_lt_two_pow (by omega) (by omega))))
  | add hhigh hlow =>
      have hform := (ofOpcode?_ends .add (by decide) rfl hword).2 ⟨hhigh, hlow⟩
      exact advance_settles h hat hform (by decide) (settles_setFlag rfl (flagValue_mod _))
  | sub hhigh hlow =>
      have hform := (ofOpcode?_ends .sub (by decide) rfl hword).2 ⟨hhigh, hlow⟩
      exact advance_settles h hat hform (by decide) (settles_setFlag rfl (flagValue_mod _))
  | shiftRight hhigh hlow =>
      have hform := (ofOpcode?_ends .shiftRight (by decide) rfl hword).2 ⟨hhigh, hlow⟩
      exact advance_settles h hat hform (by decide) (settles_shiftRight m.setup.dialect hx hy)
  | subFrom hhigh hlow =>
      have hform := (ofOpcode?_ends .subFrom (by decide) rfl hword).2 ⟨hhigh, hlow⟩
      exact advance_settles h hat hform (by decide) (settles_setFlag rfl (flagValue_mod _))
  | shiftLeft hhigh hlow =>
      have hform := (ofOpcode?_ends .shiftLeft (by decide) rfl hword).2 ⟨hhigh, hlow⟩
      exact advance_settles h hat hform (by decide) (settles_shiftLeft m.setup.dialect hx hy)

end Instructions

/-- Instructions compute what the word says from the values that their registers have before, also
where one of these is the flag register, and change no other general register. -/
theorem arithmetic_exact {s : Settings} {h : Host} (hh : Reachable s h) {word result : Int}
    {flag : Option Int} (hat : AtPc h.machine word)
    (hcomputes : Computes h.machine.setup.dialect
      (h.machine.core.registers.get (Opcode.x word))
      (h.machine.core.registers.get (Opcode.y word)) word result flag) :
    ∃ after snapshot, h.machine.advance = (after, .ok snapshot) ∧
      Settles h.machine.core.registers after.core.registers (Opcode.x word) result flag :=
  advance_computes hh.held.fits hat hcomputes

def addingToFlag : Host :=
  Host.handleAll { machine := newMachine { memorySize := 0x60, loadAddress := 0x50 } }
    [.load (.list [.int 0x6F, .int 0xFF, .int 0x60, .int 0x02, .int 0x8F, .int 0x04]),
      .advance, .advance]

/-- The sum is lost: the flag is written over it. -/
theorem arithmetic_exact_in_flag :
    Reachable { memorySize := 0x60, loadAddress := 0x50 } addingToFlag ∧
    AtPc addingToFlag.machine 0x8F04 ∧
    ∃ after snapshot, addingToFlag.machine.advance = (after, .ok snapshot) ∧
      after.core.registers.get Registers.flagNumber = 1 ∧ after.core.registers.get 0 = 2 := by
  have hreachable : Reachable { memorySize := 0x60, loadAddress := 0x50 } addingToFlag :=
    reachable_small (by simp [IsOperation])
  have hat : AtPc addingToFlag.machine 0x8F04 :=
    (atPc_iff hreachable.held.fits).2 (by decide +kernel)
  have hflag : addingToFlag.machine.core.registers.get (Opcode.x 0x8F04) = 0xFF := by
    decide +kernel
  have hfirst : addingToFlag.machine.core.registers.get (Opcode.y 0x8F04) = 2 := by
    decide +kernel
  obtain ⟨after, snapshot, heq, hsettles⟩ :=
    arithmetic_exact hreachable hat (.add (by decide) (by decide))
  rw [hflag, hfirst] at hsettles
  have hkept := hsettles.others (Opcode.y 0x8F04) (by decide) fun heq => absurd heq (by decide)
  exact ⟨hreachable, hat, after, snapshot, heq, hsettles.inFlag _ rfl, hkept.trans hfirst⟩

end Chip8.Proofs.Host.Arithmetic
