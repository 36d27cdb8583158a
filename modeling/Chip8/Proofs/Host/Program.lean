import Chip8.Proofs.Debug.Run
import Chip8.Proofs.Host.Font
import Chip8.Proofs.Instruction.Word

/-!
# Programs in memory

A program that was loaded is carried out word by word from the load address on, as far as its
instructions go straight on and the program counter reaches them.  The counter has sixteen bits,
so that a program which goes on beyond them continues at the start of memory.
-/

namespace Chip8.Proofs.Host.Program

open Chip8.Memory
open Chip8.Proofs.Memory.Layout Chip8.Proofs.Memory.Transfer Chip8.Proofs.Memory.Contents
open Chip8.Proofs.Instruction.Effect Chip8.Proofs.Instruction.Cycle
open Chip8.Proofs.Instruction.Word
open Chip8.Proofs.Machine.Representation Chip8.Proofs.Machine.Operations
open Chip8.Proofs.Host.Invariant Chip8.Proofs.Host.Font Chip8.Proofs.Debug.Run

/-! ## Words in memory -/

def bytesOf (words : List Int) : List Int :=
  words.flatMap fun word => [word / 256, word % 256]

section Words

variable {words : List Int} {word size a : Int} {b : Bus} {i : Nat}

theorem bytesOf_cons (word : Int) (words : List Int) :
    bytesOf (word :: words) = word / 256 :: word % 256 :: bytesOf words := rfl

theorem length_bytesOf (words : List Int) : (bytesOf words).length = 2 * words.length := by
  induction words with
  | nil => rfl
  | cons word words ih =>
      rw [bytesOf_cons]
      simp only [List.length_cons, ih]
      omega

theorem getElem?_bytesOf (h : words[i]? = some word) :
    (bytesOf words)[2 * i]? = some (word / 256) ∧
      (bytesOf words)[2 * i + 1]? = some (word % 256) := by
  induction words generalizing i with
  | nil => cases h
  | cons first words ih =>
      rw [bytesOf_cons]
      cases i with
      | zero =>
          cases h
          exact ⟨rfl, rfl⟩
      | succ i => exact ih h

theorem isByte_bytesOf (h : ∀ word ∈ words, IsWord word) : ∀ v ∈ bytesOf words, IsByte v := by
  intro v hv
  obtain ⟨word, hmem, hv⟩ := List.mem_flatMap.1 hv
  have hword := h word hmem
  simp only [List.mem_cons, List.not_mem_nil, or_false] at hv
  omega

theorem wordAt_of_peek {high low : Int} (hhigh : b.peek a = .ok high)
    (hlow : b.peek (a + 1) = .ok low) : wordAt b a = high * 256 + low := by
  simp only [wordAt, byteAt, hhigh, hlow]
  rfl

theorem wordAt_loadedAll (h : Mapped size b) (ha : 0 ≤ a) (hwords : ∀ word ∈ words, IsWord word)
    (hfit : a + (bytesOf words).length ≤ size) (hi : words[i]? = some word) :
    wordAt (loadedAll b a (bytesOf words)) (a + 2 * i) = word := by
  have hall := peekAll_loadedAll (bytesOf words) h ha hfit (isByte_bytesOf hwords)
  obtain ⟨hhigh, hlow⟩ := getElem?_bytesOf hi
  have hfirst := peek_of_peekAll hall hhigh
  have hsecond := peek_of_peekAll hall hlow
  push_cast at hfirst hsecond
  rw [← Int.add_assoc] at hsecond
  rw [wordAt_of_peek hfirst hsecond]
  omega

end Words

/-! ## Loading a byte into a register -/

abbrev LoadsByte (word : Int) : Prop := 0x6000 ≤ word ∧ word ≤ 0x6FFF

theorem ofOpcode?_loadByte {word : Int} (h : LoadsByte word) :
    Form.ofOpcode? word = some .loadByte := by
  have hword : IsWord word := by omega
  apply (ofOpcode?_leading (a := 6) .loadByte nofun rfl hword).2
  omega

/-! ## Carrying programs out -/

/-- A machine that is about to carry out the word of a program at a place, counted from zero. -/
structure Underway (address size : Int) (words : List Int) (m : Machine) (i : Nat) : Prop where
  wide : Wide m.setup size m.core
  pc : m.core.pc = address + 2 * i
  fits : address + 2 * words.length ≤ size
  program : ∀ (j : Nat) (word : Int), words[j]? = some word →
    wordAt m.core.bus (address + 2 * j) = word

section Run

variable {address size word : Int} {words : List Int} {m : Machine} {i : Nat}

theorem Underway.advance (h : Underway address size words m i) (hi : words[i]? = some word)
    (hword : LoadsByte word) :
    wordAt m.core.bus m.core.pc = word ∧
    m.advance =
      ({ m with core := stepped m.setup .loadByte m.core },
        .ok (recorded m.setup .loadByte m.core)) := by
  obtain ⟨hlt, -⟩ := List.getElem?_eq_some_iff.1 hi
  have hfits := h.fits
  have hat : wordAt m.core.bus m.core.pc = word := by
    rw [h.pc]
    exact h.program i word hi
  have hin : m.core.pc + 1 < size := by
    rw [h.pc]
    omega
  refine ⟨hat, advance_of_safe h.wide hin ?_ (by decide)⟩
  rw [hat]
  exact ofOpcode?_loadByte hword

theorem Underway.next (h : Underway address size words m i) (hi : words[i]? = some word)
    (hword : LoadsByte word) (hreached : address + 2 * (i + 1) ≤ 0xFFFF) :
    Underway address size words m.advance.1 (i + 1) := by
  have hwide := wide_advance h.wide
  have hpc := h.pc
  have hnonneg := h.wide.pc.1
  obtain ⟨-, heq⟩ := h.advance hi hword
  rw [heq] at hwide ⊢
  refine ⟨hwide, ?_, h.fits, h.program⟩
  -- The counter wraps at sixteen bits, which `hreached` rules out.
  change (m.core.pc + 2) % 65536 = address + 2 * ((i + 1 : Nat) : Int)
  omega

theorem Underway.advanced (h : Underway address size words m 0)
    (hwords : ∀ word ∈ words, LoadsByte word)
    (hreached : ∀ i : Nat, 0 < i → i < words.length → address + 2 * i ≤ 0xFFFF)
    (hi : i < words.length) : Underway address size words (advanced m i) i := by
  induction i with
  | zero => exact h
  | succ i ih =>
      have hbefore := ih (by omega)
      have hget : words[i]? = some words[i] := List.getElem?_eq_getElem (by omega)
      exact hbefore.next hget (hwords _ (List.getElem_mem _)) (by
        have := hreached (i + 1) (by omega) hi
        omega)

end Run

section Loading

variable {s : Settings} {m loaded : Machine} {image : Image}

theorem isWord_of_loadsByte {words : List Int} (hwords : ∀ word ∈ words, LoadsByte word) :
    ∀ word ∈ words, IsWord word := by
  intro word hmem
  have := hwords word hmem
  omega

theorem load_built (hm : Built s m) (hbytes : ∀ v ∈ image.toList, IsByte v) :
    (s.memorySize < s.loadAddress + image.size ∧ ∃ e, m.load image = (m, .error e)) ∨
    (s.loadAddress + image.size ≤ s.memorySize ∧
      m.load image =
        ({ m with core := { m.core with
          bus := loadedAll m.core.bus s.loadAddress image.toList } }, .ok ())) := by
  have haddress : m.setup.loadAddress = s.loadAddress := congrArg Setup.loadAddress hm.setup_eq
  have hcases := load_cases hm.wide.housed (haddress ▸ hm.loadAddress) hbytes
  rw [haddress] at hcases
  exact hcases.imp_left fun ⟨hout, heq⟩ => ⟨hout, _, heq⟩

theorem underway_load (hm : Built s m) (words : List Int) (hwords : ∀ word ∈ words, IsWord word)
    (himage : image.toList = bytesOf words) (hload : m.load image = (loaded, .ok ())) :
    Underway s.loadAddress s.memorySize words loaded 0 := by
  have hwide := hm.wide
  have hbytes : ∀ v ∈ image.toList, IsByte v := himage ▸ isByte_bytesOf hwords
  rcases load_built hm hbytes with ⟨-, e, heq⟩ | ⟨hfit, heq⟩
  · rw [heq] at hload
    cases hload
  · rw [← Image.length_toList, himage] at hfit
    rw [himage, hload] at heq
    cases heq
    have hmapped := (quiet_loadedAll (bytesOf words) hwide.bus hm.loadAddress hfit).mapped
    refine ⟨{ hwide with bus := hmapped }, ?_, ?_, ?_⟩
    · exact hm.pc_eq.trans (Int.add_zero _).symm
    · rw [length_bytesOf] at hfit
      omega
    · intro j word hj
      exact wordAt_loadedAll hwide.bus hm.loadAddress hwords hfit hj

end Loading

theorem advance_in_font {m : Machine} {size : Int} (h : Wide m.setup size m.core)
    (hfont : ShowsFont m.core.bus) (hpc : m.core.pc = 0) :
    m.advance.2 = .error (.fault (.unknownOpcode 0xF090 [0xF, 0x0, 0x9, 0x0] (some 0))) := by
  have hgt := h.bus.size_gt
  rw [fontEnd_eq] at hgt
  have hhigh : m.core.bus.peek 0 = .ok 0xF0 := peek_of_peekAll hfont (i := 0) rfl
  have hlow : m.core.bus.peek (0 + 1) = .ok 0x90 := peek_of_peekAll hfont (i := 1) rfl
  have hword : wordAt m.core.bus m.core.pc = 0xF090 := by
    rw [hpc, wordAt_of_peek hhigh hlow]
    rfl
  have hnone : Form.ofOpcode? (wordAt m.core.bus m.core.pc) = none := by
    rw [hword]
    decide
  have hfails : Fails m.setup size m.core _ := .decode (by omega) hnone
  rw [advance_eq_of_fails h hfails, hword, hpc]
  rfl

/-- Of a loaded program that loads bytes into registers every word is carried out in its turn, if
the program counter reaches all words after the first. -/
theorem program_carried_out {s : Settings} {m loaded : Machine} (hm : Built s m)
    (words : List Int) (hwords : ∀ word ∈ words, LoadsByte word) {image : Image}
    (himage : image.toList = bytesOf words) (hload : m.load image = (loaded, .ok ()))
    (hreached : ∀ i : Nat, 0 < i → i < words.length → s.loadAddress + 2 * i ≤ 0xFFFF) :
    ∀ (i : Nat) (word : Int), words[i]? = some word →
      ∃ snapshot, (advanced loaded i).advance = (advanced loaded (i + 1), .ok snapshot) ∧
        snapshot.address = s.loadAddress + 2 * i ∧ snapshot.operation.opcode = word ∧
        snapshot.registers =
          (advanced loaded i).core.registers.set (Opcode.x word) (Opcode.nn word) := by
  intro i word hi
  obtain ⟨hlt, hget⟩ := List.getElem?_eq_some_iff.1 hi
  have hword : LoadsByte word := hwords word (hget ▸ List.getElem_mem hlt)
  have hstart := underway_load hm words (isWord_of_loadsByte hwords) himage hload
  have hunderway := hstart.advanced hwords hreached hlt
  obtain ⟨hat, heq⟩ := hunderway.advance hi hword
  refine ⟨recorded (advanced loaded i).setup .loadByte (advanced loaded i).core, ?_,
    hunderway.pc, hat, ?_⟩
  · rw [advanced, heq]
  · rw [← hat]
    rfl

theorem load_of_fits {s : Settings} {m : Machine} (hm : Built s m) (image : Image)
    (hbytes : ∀ v ∈ image.toList, IsByte v) (hfit : s.loadAddress + image.size ≤ s.memorySize) :
    ∃ loaded, m.load image = (loaded, .ok ()) := by
  rcases load_built hm hbytes with ⟨hout, -⟩ | ⟨-, heq⟩
  · omega
  · exact ⟨_, heq⟩

theorem program_carried_out_at_end : ∃ m loaded,
    Built { memorySize := 0x10000, loadAddress := 0xFFFC } m ∧
    m.load (.bytes [0x60, 0x01, 0x61, 0x02]) = (loaded, .ok ()) ∧
    ∃ snapshot, (advanced loaded 1).advance = (advanced loaded 2, .ok snapshot) ∧
      snapshot.address = 0xFFFE ∧ snapshot.operation.opcode = 0x6102 := by
  obtain ⟨m, hm⟩ := exists_built_with 0x10000 0xFFFC (by decide) (by decide) (by decide)
  obtain ⟨loaded, hload⟩ := load_of_fits hm (.bytes [0x60, 0x01, 0x61, 0x02])
    (by decide) (by decide)
  have hreached : ∀ i : Nat, 0 < i → i < 2 → (0xFFFC : Int) + 2 * i ≤ 0xFFFF := by omega
  obtain ⟨snapshot, heq, haddress, hopcode, -⟩ :=
    program_carried_out hm [0x6001, 0x6102] (by decide) rfl hload hreached 1 0x6102 rfl
  exact ⟨m, loaded, hm, hload, snapshot, heq, haddress, hopcode⟩

/-- The counter comes round to the start of memory, where the font is no program. -/
theorem program_beyond_counter : ∃ m loaded,
    Built { memorySize := 0x10002, loadAddress := 0xFFFE } m ∧
    m.load (.bytes [0x60, 0x01, 0x61, 0x02]) = (loaded, .ok ()) ∧
    (advanced loaded 1).advance.2 =
      .error (.fault (.unknownOpcode 0xF090 [0xF, 0x0, 0x9, 0x0] (some 0))) := by
  obtain ⟨m, hm⟩ := exists_built_with 0x10002 0xFFFE (by decide) (by decide) (by decide)
  obtain ⟨loaded, hload⟩ := load_of_fits hm (.bytes [0x60, 0x01, 0x61, 0x02])
    (by decide) (by decide)
  have hstart := underway_load hm [0x6001, 0x6102] (by decide) rfl hload
  have hfirst : ([0x6001, 0x6102] : List Int)[0]? = some 0x6001 := rfl
  obtain ⟨-, heq⟩ := hstart.advance hfirst (by decide)
  have hwide := wide_advance hstart.wide
  have hfont : ShowsFont (m.load (.bytes [0x60, 0x01, 0x61, 0x02])).1.core.bus :=
    showsFont_load (hm.held fun _ => []) (by decide) (showsFont_built hm) (by decide)
  rw [hload] at hfont
  refine ⟨m, loaded, hm, hload, ?_⟩
  rw [heq] at hwide
  rw [advanced, advanced, heq]
  refine advance_in_font hwide (hfont.congr fun x _ => rfl) ?_
  change (loaded.core.pc + 2) % 65536 = 0
  rw [hstart.pc]
  rfl

end Chip8.Proofs.Host.Program
