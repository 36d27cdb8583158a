import Chip8.Listing
import Chip8.Proofs.Host.Failure

/-!
# Listings and execution

A listing of the word at the program counter foretells the next advance.  The word is shown as
data if and only if the machine does not know it.  Otherwise the line has the text of the
operation that is carried out.
-/

namespace Chip8.Proofs.Host.Listing

open Chip8.Memory Chip8.Listing
open Chip8.Proofs.Memory.Layout Chip8.Proofs.Instruction.Word
open Chip8.Proofs.Instruction.Effect Chip8.Proofs.Instruction.Cycle
open Chip8.Proofs.Machine.Representation Chip8.Proofs.Machine.Operations
open Chip8.Proofs.Host.Invariant Chip8.Proofs.Host.Failure

/-! ## Words as text -/

def wordDigits (word : Int) : String :=
  String.ofList ((Opcode.nibbles word).map fun digit => digit.toNat.digitChar.toUpper)

def lastDigits : Nat → Nat → List Char
  | 0, _ => []
  | count + 1, n => lastDigits count (n / 16) ++ [(n % 16).digitChar]

def digitAt (word : Int) (place : Nat) : Char := (Opcode.nibble place word).toNat.digitChar.toUpper

section Digits

open Text

theorem lastDigits_zero (count : Nat) : lastDigits count 0 = List.replicate count '0' := by
  induction count with
  | zero => rfl
  | succ count ih =>
      have hlast : lastDigits (count + 1) 0 = lastDigits count 0 ++ ['0'] := rfl
      rw [hlast, ih, List.replicate_succ']

theorem padZeros_concat (width : Nat) (digits : List Char) (c : Char) :
    padZeros (width + 1) (digits ++ [c]) = padZeros width digits ++ [c] := by
  unfold padZeros
  rw [List.length_append, List.length_singleton, Nat.add_sub_add_right, List.append_assoc]

theorem padZeros_map {f : Char → Char} (hf : f '0' = '0') (width : Nat) (digits : List Char) :
    padZeros width (digits.map f) = (padZeros width digits).map f := by
  unfold padZeros
  rw [List.length_map, List.map_append, List.map_replicate, hf]

theorem padZeros_toDigits {count n : Nat} (h : n < Nat.pow 16 (count + 1)) :
    padZeros (count + 1) (Nat.toDigits 16 n) = lastDigits (count + 1) n := by
  induction count generalizing n with
  | zero =>
      have hlt : n < 16 := h
      rw [Nat.toDigits_of_lt_base hlt, lastDigits, Nat.mod_eq_of_lt hlt]
      rfl
  | succ count ih =>
      by_cases hlt : n < 16
      · have hdiv : n / 16 = 0 := Nat.div_eq_of_lt hlt
        rw [Nat.toDigits_of_lt_base hlt, lastDigits, hdiv, lastDigits_zero, Nat.mod_eq_of_lt hlt]
        rfl
      · have hpow : Nat.pow 16 (count + 1 + 1) = Nat.pow 16 (count + 1) * 16 := rfl
        have hquotient : n / 16 < Nat.pow 16 (count + 1) := by
          rw [hpow] at h
          omega
        rw [Nat.toDigits_of_base_le (by decide) (Nat.not_lt.1 hlt), padZeros_concat, ih hquotient]
        rfl

theorem lastDigits_eq (count n : Nat) :
    (lastDigits count n).map Char.toUpper = (List.range count).reverse.map (digitAt n) := by
  induction count generalizing n with
  | zero => rfl
  | succ count ih =>
      have hlast : (n % 16).digitChar.toUpper = digitAt n 0 := by
        have hnibble : (Opcode.nibble 0 n).toNat = n % 16 := by
          rw [nibble_zero]
          omega
        rw [digitAt, hnibble]
      have hshift : digitAt (n / 16 : Nat) = digitAt n ∘ Nat.succ := by
        funext place
        have hpow : Nat.pow 16 (place + 1) = 16 * Nat.pow 16 place := Nat.pow_succ'
        have hnibble : Opcode.nibble place (n / 16 : Nat) = Opcode.nibble (place + 1) n := by
          unfold Opcode.nibble
          rw [hpow]
          norm_cast
          rw [Nat.div_div_eq_div_mul]
        rw [digitAt, hnibble]
        rfl
      rw [lastDigits, List.map_append, ih, List.map_singleton, hlast, hshift,
        List.range_succ_eq_map, List.reverse_cons, List.map_append, ← List.map_reverse,
        List.map_map]
      rfl

theorem hexUpper_eq {count n : Nat} (h : n < Nat.pow 16 (count + 1)) :
    hexUpper (count + 1) n = String.ofList ((List.range (count + 1)).reverse.map (digitAt n)) := by
  have hsign : signChars (n : Int) = [] := if_neg (by omega)
  unfold hexUpper
  simp only [hsign, List.nil_append, List.length_nil, Int.natAbs_natCast]
  rw [padZeros_map rfl, Nat.sub_zero, padZeros_toDigits h, lastDigits_eq]

theorem text_eq_wordDigits {word : Int} (h : IsWord word) : Opcode.text word = wordDigits word := by
  obtain ⟨n, rfl⟩ := Int.eq_ofNat_of_zero_le h.1
  have hlt : n < Nat.pow 16 (3 + 1) := by
    change n < 65536
    omega
  exact hexUpper_eq hlt

end Digits

/-! ## Lines -/

def line (address word : Int) : Line := ⟨address, Opcode.text word, wordText word⟩

section Lines

variable {size address word : Int} {b : Bus}

theorem linesTo_end {stop : Int} (h : stop ≤ address + 1) : linesTo b stop address = .ok [] := by
  rw [linesTo, if_neg (by omega)]

theorem peekWord_eq (hhigh : b.peek address = .ok (byteAt b address))
    (hlow : b.peek (address + 1) = .ok (byteAt b (address + 1))) :
    peekWord b address = .ok (wordAt b address) := by
  unfold peekWord
  rw [hhigh, hlow]
  rfl

theorem listing_word (h : Mapped size b) (ha : 0 ≤ address) (hin : address + 1 < size) :
    listing b address 2 = .ok [line address (wordAt b address)] := by
  have hstop : min (address + 2) b.size = address + 2 := by
    rw [size_eq h]
    omega
  have hend : linesTo b (address + 2) (address + 2) = .ok [] := linesTo_end (by omega)
  have hword : peekWord b address = .ok (wordAt b address) :=
    peekWord_eq (peek_eq h (by omega)) (peek_eq h (by omega))
  unfold listing
  rw [hstop, linesTo, if_pos (by omega), hword, hend]
  rfl

theorem wordText_some {form : Form} (h : Form.ofOpcode? word = some form) :
    wordText word = (Operation.ofForm form word).text := by
  unfold wordText Operation.decode
  rw [h]

theorem wordText_none (h : Form.ofOpcode? word = none) :
    wordText word = "DW #" ++ Opcode.text word := by
  unfold wordText Operation.decode
  rw [h]

theorem take_text (form : Form) (word : Int) :
    (Operation.ofForm form word).text.letters.take 2 =
      (Text.ofString form.mnemonic).letters.take 2 := by
  have hlength : 2 ≤ (Text.ofString form.mnemonic).letters.length := by
    cases form <;> decide
  unfold Operation.text
  split
  · rfl
  · have hmnemonic : (Operation.ofForm form word).mnemonic = Text.ofString form.mnemonic := rfl
    rw [hmnemonic, Text.letters_append, Text.letters_append, List.append_assoc,
      List.take_append_of_le_length hlength]

/-- No mnemonic begins like the marker of data. -/
theorem text_ne_data (form : Form) (word : Int) (digits : Text) :
    (Operation.ofForm form word).text ≠ "DW #" ++ digits := by
  intro heq
  have hmarker : (Text.ofString form.mnemonic).letters.take 2 =
      [Letter.char 'D', Letter.char 'W'] := by
    rw [← take_text form word, heq]
    rfl
  revert hmarker
  cases form <;> decide

theorem wordText_eq_data_iff :
    wordText word = "DW #" ++ Opcode.text word ↔ Form.ofOpcode? word = none := by
  constructor
  · intro htext
    cases hform : Form.ofOpcode? word with
    | none => rfl
    | some form =>
        rw [wordText_some hform] at htext
        exact absurd htext (text_ne_data form word _)
  · exact wordText_none

end Lines

/-! ## Advances -/

/-- The failures that report a word the machine does not know. -/
def UnknownWord (failure : Failure) : Prop :=
  ∃ word digits address, failure = .fault (.unknownOpcode word digits address)

section Advances

variable {size : Int} {m : Machine}

theorem unknown_iff (h : Wide m.setup size m.core) (hin : m.core.pc + 1 < size) :
    (∃ failure, m.advance.2 = .error failure ∧ UnknownWord failure) ↔
      Form.ofOpcode? (wordAt m.core.bus m.core.pc) = none := by
  rcases advance_cases h with ⟨f, log, hf, heq⟩ | ⟨form, -, -, hform, heq⟩
  · rw [heq]
    cases hf with
    | fetch hout => omega
    | decode _ hnone => exact ⟨fun _ => hnone, fun _ => ⟨_, rfl, _, _, _, rfl⟩⟩
    | execute _ hform hblocked =>
        constructor
        · rintro ⟨failure, hfailure, word, digits, address, rfl⟩
          cases hblocked <;> cases hfailure
        · intro hnone
          rw [hform] at hnone
          cases hnone
  · rw [heq, hform]
    constructor
    · rintro ⟨failure, hfailure, -⟩
      cases hfailure
    · intro hnone
      cases hnone

theorem text_of_advance (h : Wide m.setup size m.core) {snapshot : Snapshot Registers}
    (hsnapshot : m.advance.2 = .ok snapshot) :
    snapshot.operation.opcode = wordAt m.core.bus m.core.pc ∧
      snapshot.operation.text = wordText (wordAt m.core.bus m.core.pc) ∧
      snapshot.address = m.core.pc := by
  rcases advance_cases h with ⟨f, log, -, heq⟩ | ⟨form, -, -, hform, heq⟩
  · rw [heq] at hsnapshot
    cases hsnapshot
  · rw [heq] at hsnapshot
    cases hsnapshot
    rw [wordText_some hform]
    exact ⟨rfl, rfl, rfl⟩

end Advances

/-- A listing of the word at the program counter is read off the bus, so that the machine and its
log stay as they are.  It shows what an advance does with that word: whether it is known, and with
which text it is carried out. -/
theorem listing_foretells_advance {s : Settings} {h : Host} (hh : Reachable s h)
    (hin : h.machine.core.pc + 1 < s.memorySize) :
    ∃ (word : Int) (text : Text), AtPc h.machine word ∧
      listing h.machine.core.bus h.machine.core.pc 2 =
        .ok [⟨h.machine.core.pc, wordDigits word, text⟩] ∧
      ((∃ failure, h.machine.advance.2 = .error failure ∧ UnknownWord failure) ↔
        text = "DW #" ++ wordDigits word) ∧
      ∀ snapshot, h.machine.advance.2 = .ok snapshot →
        Opcode.text snapshot.operation.opcode = wordDigits word ∧
        snapshot.operation.text = text ∧ snapshot.address = h.machine.core.pc ∧
        snapshot.info = (Text.hex 6 h.machine.core.pc ++ ": ") ++ text := by
  have hwide := hh.held.fits
  have hdigits := text_eq_wordDigits (isWord_wordAt hwide.bus h.machine.core.pc)
  let word := wordAt h.machine.core.bus h.machine.core.pc
  refine ⟨word, wordText word, ?_, ?_, ?_, ?_⟩
  · exact (atPc_iff hwide).2 ⟨hin, rfl⟩
  · have hlisting := listing_word hwide.bus hwide.pc.1 hin
    rw [line, hdigits] at hlisting
    exact hlisting
  · rw [← hdigits]
    exact (unknown_iff hwide hin).trans wordText_eq_data_iff.symm
  · intro snapshot hsnapshot
    obtain ⟨hopcode, htext, haddress⟩ := text_of_advance hwide hsnapshot
    refine ⟨?_, htext, haddress, ?_⟩
    · rw [hopcode, hdigits]
    · rw [Snapshot.info, haddress, htext]

theorem listing_of_store :
    Reachable { memorySize := 0x60, loadAddress := 0x50 } storing ∧
    storing.machine.core.pc + 1 < 0x60 ∧
    ∃ after snapshot, storing.machine.advance = (after, .ok snapshot) ∧
      listing storing.machine.core.bus storing.machine.core.pc 2 =
        .ok [⟨0x54, "F155", "LD [I], V1"⟩] ∧
      snapshot.operation.text = "LD [I], V1" ∧ snapshot.info = "0x0054: LD [I], V1" := by
  obtain ⟨after, snapshot, heq, hoperation, -⟩ := advance_storing
  have hpc : storing.machine.core.pc = 0x54 := by decide +kernel
  have hin : storing.machine.core.pc + 1 < 0x60 := by
    rw [hpc]
    decide
  obtain ⟨word, text, -, hlisting, -, hsnapshot⟩ :=
    listing_foretells_advance reachable_storing hin
  obtain ⟨hdigits, htext, -, hinfo⟩ := hsnapshot snapshot (congrArg Prod.snd heq)
  have hword : wordDigits word = "F155" := by
    rw [← hdigits, hoperation]
    decide
  have hshown : snapshot.operation.text = "LD [I], V1" := by
    rw [hoperation]
    decide +kernel
  have hline : snapshot.info = "0x0054: LD [I], V1" := by
    rw [hinfo, ← htext, hshown, hpc]
    decide +kernel
  rw [← htext, hshown, hword] at hlisting
  refine ⟨reachable_storing, hin, after, snapshot, heq, ?_, hshown, hline⟩
  rw [hpc] at hlisting ⊢
  exact hlisting

end Chip8.Proofs.Host.Listing
