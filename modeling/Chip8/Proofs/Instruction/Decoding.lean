import Chip8.Proofs.Instruction.Numbered
import Chip8.Proofs.Instruction.Word
import Mathlib.Data.Int.Bitwise

/-!
# Decoding any integer

A word is any integer, and only its low sixteen bits count.  They decide whether the table has an
entry for it, and integers with the same low bits are decoded to the same operation but for the word
itself.  At most one entry takes a word, except that the words fixed throughout are also words of
the widest entry.  Whatever was decoded has an action, and the numbers in it name registers and
keys.
-/

namespace Chip8.Proofs.Instruction.Decoding

open Chip8.Proofs.Instruction.Word Chip8.Proofs.Instruction.Numbered

def low (opcode : Int) : Int := opcode % 65536

/-- Whether a form takes an integer: what its mask leaves of the integer is its pattern.  A negative
integer has the bits of its two's complement. -/
def Takes (form : Form) (opcode : Int) : Prop := opcode.land form.shape.mask = form.pattern

/-- The words that are fixed throughout, but begin like those of the widest form. -/
def fixedWords : List Int := [0x0000, 0x00E0, 0x00EE]

structure Alike (op other : Operation) : Prop where
  mnemonic : op.mnemonic = other.mnemonic
  operands : op.operands = other.operands
  pattern : op.pattern = other.pattern
  x : Opcode.x op.opcode = Opcode.x other.opcode
  y : Opcode.y op.opcode = Opcode.y other.opcode
  n : Opcode.n op.opcode = Opcode.n other.opcode
  nn : Opcode.nn op.opcode = Opcode.nn other.opcode
  nnn : Opcode.nnn op.opcode = Opcode.nnn other.opcode
  nibbles : Opcode.nibbles op.opcode = Opcode.nibbles other.opcode
  cycleCount : op.cycleCount = other.cycleCount
  length : op.length = other.length

/-- What an instruction can raise only if something is missing that its word names. -/
def mismatchFaults : List FaultKind := [.unknownOpcode, .registerOutOfRange, .invalidKey]

/-! ## Bits -/

section Bits

variable {opcode : Int} {mask : Nat}

theorem testBit_low (opcode : Int) (i : Nat) :
    (low opcode).toNat.testBit i = (decide (i < 16) && opcode.testBit i) := by
  cases opcode with
  | ofNat n =>
      have hlow : (low (Int.ofNat n)).toNat = n % 2 ^ 16 := by
        rw [low, Int.ofNat_eq_natCast]
        omega
      rw [hlow, Nat.testBit_mod_two_pow]
      rfl
  | negSucc m =>
      have hlow : (low (Int.negSucc m)).toNat = 2 ^ 16 - (m % 2 ^ 16 + 1) := by
        unfold low
        omega
      rw [hlow, Nat.testBit_two_pow_sub_succ (by omega), Nat.testBit_mod_two_pow]
      cases decide (i < 16) <;> rfl

theorem testBit_mask (h : mask < 2 ^ 16) (i : Nat) :
    mask.testBit i = (decide (i < 16) && mask.testBit i) := by
  by_cases hi : i < 16
  · simp [hi]
  · have hlt : mask < 2 ^ i := Nat.lt_of_lt_of_le h (Nat.pow_le_pow_right (by decide) (by omega))
    rw [Nat.testBit_lt_two_pow hlt, Bool.and_false]

/-- A mask of sixteen bits leaves the same of an integer as of its low bits. -/
theorem land_mask (opcode : Int) (h : mask < 2 ^ 16) :
    opcode.land mask = ((low opcode).toNat &&& mask : Nat) := by
  cases opcode with
  | ofNat n =>
      refine congrArg Nat.cast (Nat.eq_of_testBit_eq fun i => ?_)
      rw [Nat.testBit_and, Nat.testBit_and, testBit_low, testBit_mask h]
      cases decide (i < 16)
      · rw [Bool.false_and, Bool.and_false, Bool.false_and, Bool.false_and]
      · rfl
  | negSucc m =>
      refine congrArg Nat.cast (Nat.eq_of_testBit_eq fun i => ?_)
      rw [Nat.testBit_ldiff, Nat.testBit_and, testBit_low, testBit_mask h]
      cases decide (i < 16) <;> simp [Int.testBit, Bool.and_comm]

theorem mask_toNat (form : Form) :
    form.shape.mask.toNat < 2 ^ 16 ∧ (form.shape.mask.toNat : Int) = form.shape.mask ∧
      (form.pattern.toNat : Int) = form.pattern := by
  cases form <;> decide

theorem takes_iff_matches (form : Form) (opcode : Int) :
    Takes form opcode ↔ Matches form (low opcode).toNat := by
  obtain ⟨hlt, hmask, hpattern⟩ := mask_toNat form
  have hland := land_mask opcode hlt
  rw [hmask] at hland
  unfold Takes Matches
  rw [hland, ← hpattern, Int.natCast_inj, Int.toNat_natCast]

end Bits

/-! ## Low bits -/

section Low

variable (opcode : Int)

theorem nibble_low {place : Nat} (h : place < 4) :
    Opcode.nibble place (low opcode) = Opcode.nibble place opcode := by
  unfold low
  have hplace : place = 0 ∨ place = 1 ∨ place = 2 ∨ place = 3 := by omega
  rcases hplace with rfl | rfl | rfl | rfl
  · rw [nibble_zero, nibble_zero]
    omega
  · rw [nibble_one, nibble_one]
    omega
  · rw [nibble_two, nibble_two]
    omega
  · rw [nibble_three, nibble_three]
    omega

theorem accepts_low (s : Shape) : s.accepts (low opcode) = s.accepts opcode := by
  simp only [Shape.accepts, nibble_low opcode (show 0 < 4 by decide),
    nibble_low opcode (show 1 < 4 by decide), nibble_low opcode (show 2 < 4 by decide),
    nibble_low opcode (show 3 < 4 by decide)]

theorem ofOpcode?_low : Form.ofOpcode? (low opcode) = Form.ofOpcode? opcode := by
  simp only [Form.ofOpcode?, accepts_low]

theorem low_range : 0 ≤ low opcode ∧ low opcode ≤ 0xFFFF := by
  unfold low
  omega

theorem takes_iff_accepts (form : Form) :
    Takes form opcode ↔ form.shape.accepts opcode = true := by
  have hrange := low_range opcode
  have hcast : ((low opcode).toNat : Int) = low opcode := Int.toNat_of_nonneg hrange.1
  rw [takes_iff_matches, ← accepts_iff_matches form (by omega), hcast, accepts_low]

theorem fields_low :
    Opcode.x (low opcode) = Opcode.x opcode ∧ Opcode.y (low opcode) = Opcode.y opcode ∧
      Opcode.n (low opcode) = Opcode.n opcode ∧ Opcode.nn (low opcode) = Opcode.nn opcode ∧
      Opcode.nnn (low opcode) = Opcode.nnn opcode ∧
      Opcode.nibbles (low opcode) = Opcode.nibbles opcode := by
  unfold low
  refine ⟨Fin.ext ?_, Fin.ext ?_, ?_, ?_, ?_, ?_⟩
  · simp only [Opcode.x]
    omega
  · simp only [Opcode.y]
    omega
  · simp only [Opcode.n]
    omega
  · simp only [Opcode.nn]
    omega
  · simp only [Opcode.nnn]
    omega
  · simp only [Opcode.nibbles]
    rw [← low, nibble_low opcode (by decide), nibble_low opcode (by decide),
      nibble_low opcode (by decide), nibble_low opcode (by decide)]

theorem operands_low (form : Form) : form.operands (low opcode) = form.operands opcode := by
  obtain ⟨hx, hy, hn, hnn, hnnn, -⟩ := fields_low opcode
  simp only [Form.operands, Form.byteText, Form.addressText, hx, hy, hn, hnn, hnnn]

theorem alike_low (form : Form) :
    Alike (.ofForm form opcode) (.ofForm form (low opcode)) := by
  obtain ⟨hx, hy, hn, hnn, hnnn, hnibbles⟩ := fields_low opcode
  constructor
  case operands => exact congrArg (List.map Text.ofString) (operands_low opcode form).symm
  case x => exact hx.symm
  case y => exact hy.symm
  case n => exact hn.symm
  case nn => exact hnn.symm
  case nnn => exact hnnn.symm
  case nibbles => exact hnibbles.symm
  all_goals rfl

end Low

/-! ## The table -/

section Table

variable {opcode : Int} {form : Form} {address : Option Int} {op : Operation}

theorem accepts_sys_iff : Form.sys.shape.accepts opcode = true ↔ low opcode < 0x1000 := by
  simp only [Shape.accepts, Form.shape, Shape.fits, nibble_three, Bool.and_true, beq_iff_eq, low]
  omega

theorem mem_of_not_apart_sys (hne : form ≠ .sys) (h : apart form.shape Form.sys.shape = false) :
    form ∈ [Form.nop, .clearDisplay, .ret] := by
  cases form <;> first | exact absurd rfl hne | decide | exact absurd h (by decide)

theorem low_mem_fixedWords (hform : form ∈ [Form.nop, .clearDisplay, .ret])
    (h : form.shape.accepts opcode = true) : low opcode ∈ fixedWords := by
  simp only [List.mem_cons, List.not_mem_nil, or_false] at hform
  unfold low fixedWords
  rcases hform with rfl | rfl | rfl
  all_goals
    simp only [Shape.accepts, Form.shape, Shape.fits, nibble_three, nibble_two, nibble_one,
      nibble_zero, Bool.and_eq_true, beq_iff_eq] at h
    simp only [List.mem_cons, List.not_mem_nil, or_false]
    omega

theorem exists_of_fixedWord (h : low opcode ∈ fixedWords) :
    ∃ form, form ≠ .sys ∧ Form.ofOpcode? opcode = some form := by
  rw [← ofOpcode?_low]
  simp only [fixedWords, List.mem_cons, List.not_mem_nil, or_false] at h
  rcases h with h | h | h <;> rw [h]
  · exact ⟨.nop, by decide, by decide⟩
  · exact ⟨.clearDisplay, by decide, by decide⟩
  · exact ⟨.ret, by decide, by decide⟩

/-- The entry that is chosen is the only one that takes a word, unless the word is fixed
throughout: then the widest entry takes it too, and is not chosen. -/
theorem takes_iff_of_ofOpcode? (h : Form.ofOpcode? opcode = some form) (other : Form) :
    Takes other opcode ↔ other = form ∨ (other = .sys ∧ low opcode ∈ fixedWords) := by
  have haccepts := accepts_of_ofOpcode? h
  rw [takes_iff_accepts]
  constructor
  · intro hother
    by_cases hsys : other = .sys
    · subst hsys
      by_cases hform : form = .sys
      · exact .inl hform.symm
      · have hnot : apart form.shape Form.sys.shape = false := by
          by_contra happart
          exact not_accepts_of_apart (by simpa using happart) hother haccepts
        exact .inr ⟨rfl, low_mem_fixedWords (mem_of_not_apart_sys hform hnot) haccepts⟩
    · rw [← ofOpcode?_eq_some_iff hsys, h] at hother
      exact .inl (Option.some.inj hother).symm
  · rintro (rfl | ⟨rfl, hfixed⟩)
    · exact haccepts
    · rw [accepts_sys_iff]
      simp only [fixedWords, List.mem_cons, List.not_mem_nil, or_false] at hfixed
      omega

theorem ne_sys_of_fixedWord (h : Form.ofOpcode? opcode = some form)
    (hfixed : low opcode ∈ fixedWords) : form ≠ .sys := by
  obtain ⟨own, hown, heq⟩ := exists_of_fixedWord hfixed
  rw [h] at heq
  cases heq
  exact hown

theorem exists_takes_iff :
    (∃ form, Takes form opcode) ↔ ∃ form, Form.ofOpcode? opcode = some form := by
  constructor
  · rintro ⟨form, htakes⟩
    rw [takes_iff_accepts] at htakes
    exact Option.isSome_iff_exists.1 (List.find?_isSome.2 ⟨form, mem_all form, htakes⟩)
  · rintro ⟨form, hform⟩
    exact ⟨form, (takes_iff_accepts _ _).2 (accepts_of_ofOpcode? hform)⟩

theorem decode_ok_iff :
    Operation.decode opcode address = .ok op ↔
      ∃ form, Form.ofOpcode? opcode = some form ∧ op = .ofForm form opcode := by
  unfold Operation.decode
  cases Form.ofOpcode? opcode with
  | none => simp
  | some form => simp [eq_comm]

theorem exists_decode_iff :
    (∃ op, Operation.decode opcode address = .ok op) ↔
      ∃ form, Form.ofOpcode? opcode = some form := by
  constructor
  · rintro ⟨op, hop⟩
    obtain ⟨form, hform, -⟩ := decode_ok_iff.1 hop
    exact ⟨form, hform⟩
  · rintro ⟨form, hform⟩
    exact ⟨_, decode_ok_iff.2 ⟨form, hform, rfl⟩⟩

end Table

theorem execute_ofForm_matches (setup : Setup) (form : Form) {opcode : Int}
    {c c' : MachineCore} {f : Fault}
    (h : executeByNumber setup (.ofForm form opcode) c = .error (.fault f) c') :
    f.kind ∉ mismatchFaults := by
  rw [executeByNumber_ofForm] at h
  have hkind := onlyRaises_byNumber setup form opcode c f c' h
  simp only [instructionFaults, List.mem_cons, List.not_mem_nil, or_false] at hkind
  rcases hkind with hkind | hkind | hkind <;> rw [hkind] <;> decide

/-- Any integer is decoded by its low sixteen bits: if the table has an entry for them, to an
operation with the same fields.  The entry is the only one that takes the integer, unless the low
bits are a word fixed throughout, which the widest entry takes too without being chosen.  In every
state of the machine there are an action for what was decoded and the registers and keys that it
names. -/
theorem decoded_by_low_bits (opcode : Int) (address address' : Option Int) :
    ((∃ op, Operation.decode opcode address = .ok op) ↔ ∃ form, Takes form opcode) ∧
    ((∃ op, Operation.decode opcode address = .ok op) ↔
      ∃ op, Operation.decode (opcode % 65536) address' = .ok op) ∧
    ∀ op, Operation.decode opcode address = .ok op →
      (∀ other, Operation.decode (opcode % 65536) address' = .ok other → Alike op other) ∧
      (∃ form, op = .ofForm form opcode ∧
        (∀ other, Takes other opcode ↔
          other = form ∨ (other = .sys ∧ opcode % 65536 ∈ fixedWords)) ∧
        (opcode % 65536 ∈ fixedWords → form ≠ .sys)) ∧
      ∀ (setup : Setup) (c : MachineCore),
        (∀ f c', Instruction.execute setup op c = .error (.fault f) c' →
          f.kind ∉ mismatchFaults) ∧
        Instruction.execute setup op c = executeByNumber setup op c := by
  have hlow : Form.ofOpcode? (opcode % 65536) = Form.ofOpcode? opcode := ofOpcode?_low opcode
  refine ⟨?_, ?_, fun op hop => ?_⟩
  · rw [exists_decode_iff, exists_takes_iff]
  · rw [exists_decode_iff, exists_decode_iff, hlow]
  · obtain ⟨form, hform, rfl⟩ := decode_ok_iff.1 hop
    refine ⟨fun other hother => ?_, ⟨form, rfl, takes_iff_of_ofOpcode? hform,
      ne_sys_of_fixedWord hform⟩, fun setup c => ?_⟩
    · obtain ⟨form', hform', rfl⟩ := decode_ok_iff.1 hother
      rw [hlow, hform] at hform'
      cases hform'
      exact alike_low opcode form
    · have hsame := executeByNumber_eq setup c (.ofForm form opcode)
      exact ⟨fun f c' hfault => execute_ofForm_matches setup form (hsame.trans hfault),
        hsame.symm⟩

/-- A negative integer whose low bits are the word `00E0`, which the widest entry takes too. -/
theorem decoded_by_low_bits_of_negative :
    Operation.decode (-0xFF20) none = .ok (.ofForm .clearDisplay (-0xFF20)) ∧
      ∀ other, Takes other (-0xFF20) ↔ other = .clearDisplay ∨ other = .sys := by
  have hop : Operation.decode (-0xFF20) none = .ok (.ofForm .clearDisplay (-0xFF20)) := rfl
  have hclear : Takes .clearDisplay (-0xFF20) := by unfold Takes; decide +kernel
  obtain ⟨-, -, hdecoded⟩ := decoded_by_low_bits (-0xFF20) none none
  obtain ⟨-, ⟨form, -, htakes, -⟩, -⟩ := hdecoded _ hop
  have hform : form = .clearDisplay :=
    (((htakes .clearDisplay).1 hclear).resolve_right fun h => nomatch h.1).symm
  subst hform
  exact ⟨hop, fun other => (htakes other).trans (or_congr_right (and_iff_left (by decide)))⟩

end Chip8.Proofs.Instruction.Decoding
