import Chip8.Proofs.Host.Failure

/-!
# Accesses that memory refuses

An advance that is refused for an address would have reached a byte which memory does not have.
The one exception is a sprite without rows: it takes no byte at all, but is refused all the same
when the index register stands behind the end of memory.
-/

namespace Chip8.Proofs.Host.Access

open Chip8.Proofs.Memory.Layout
open Chip8.Proofs.Instruction.Cycle Chip8.Proofs.Instruction.Word
open Chip8.Proofs.Machine.Representation Chip8.Proofs.Machine.Operations
open Chip8.Proofs.Host.Invariant Chip8.Proofs.Host.Failure

/-! ## Accesses -/

def Leaves (size address count : Int) : Prop :=
  ∃ a, address ≤ a ∧ a < address + count ∧ ¬InMemory size a

/-- The word at the program counter draws a sprite without rows. -/
def DrawsNoRows (m : Machine) : Prop :=
  ∃ word, AtPc m word ∧ word / 0x1000 = 0xD ∧ word % 0x10 = 0

section Accesses

variable {s : Settings} {m : Machine} {f : Fault} {size address count word : Int}

theorem leaves_iff :
    Leaves size address count ↔ 0 < count ∧ (address < 0 ∨ size < address + count) := by
  constructor
  · rintro ⟨a, hfirst, hlast, hout⟩
    omega
  · rintro ⟨hcount, hbelow | habove⟩
    · exact ⟨address, by omega, by omega, by omega⟩
    · exact ⟨address + count - 1, by omega, by omega, by omega⟩

/-- Of the words that move bytes only one that draws may move none. -/
theorem count_pos_iff (h : Moves word count) :
    0 < count ↔ ¬(word / 0x1000 = 0xD ∧ word % 0x10 = 0) := by
  cases h <;> omega

theorem count_nonneg (h : Moves word count) : 0 ≤ count := by
  cases h <;> omega

theorem drawsNoRows_iff (h : Wide m.setup size m.core) (hat : AtPc m word) :
    DrawsNoRows m ↔ word / 0x1000 = 0xD ∧ word % 0x10 = 0 := by
  constructor
  · rintro ⟨other, hother, hdraw⟩
    rw [((atPc_iff h).1 hat).2, ← ((atPc_iff h).1 hother).2]
    exact hdraw
  · exact fun hdraw => ⟨word, hat, hdraw⟩

theorem not_drawsNoRows (h : Wide m.setup size m.core) (hout : size ≤ m.core.pc + 1) :
    ¬DrawsNoRows m := by
  rintro ⟨word, hat, -⟩
  have hin := ((atPc_iff h).1 hat).1
  omega

theorem raises_of_advance (hsetup : m.setup = s.setup) (h : Wide m.setup s.memorySize m.core)
    (hfail : m.advance.2 = .error (.fault f)) : Raises s m f := by
  rcases advance_cases h with ⟨raised, log, hfails, heq⟩ | ⟨form, -, -, -, heq⟩
  · rw [heq] at hfail
    cases hfail
    exact (raises_iff_fails hsetup h).2 hfails
  · rw [heq] at hfail
    cases hfail

theorem advance_of_raises (hsetup : m.setup = s.setup) (h : Wide m.setup s.memorySize m.core)
    (hraises : Raises s m f) : m.advance.2 = .error (.fault f) := by
  obtain ⟨log, heq⟩ := advance_of_fails h ((raises_iff_fails hsetup h).1 hraises)
  rw [heq]

end Accesses

/-- An access that an advance is refused reaches outside memory, unless a sprite without rows was
to be drawn.  That one needs no byte, and is refused where the index register stands behind the
end of memory. -/
theorem refused_access_leaves_iff {s : Settings} {h : Host} (hh : Reachable s h)
    {address count : Int}
    (hfail : h.machine.advance.2 = .error (.fault (.addressOutOfRange address count))) :
    (Leaves s.memorySize address count ↔ ¬DrawsNoRows h.machine) ∧
      (DrawsNoRows h.machine →
        address = h.machine.core.registers.index ∧ count = 0 ∧ s.memorySize < address) := by
  have hfits := hh.held.fits
  rw [leaves_iff]
  cases raises_of_advance hh.held.setup_eq hfits hfail with
  | fetch hout =>
      have hnone := not_drawsNoRows hfits hout
      have hbehind : s.memorySize < h.machine.core.pc + 2 := by omega
      exact ⟨iff_of_true ⟨by decide, .inr hbehind⟩ hnone, fun hdraws => absurd hdraws hnone⟩
  | outside hat hmoves hout =>
      have hpos := count_pos_iff hmoves
      have hnonneg := count_nonneg hmoves
      rw [drawsNoRows_iff hfits hat, ← hpos]
      exact ⟨and_iff_left (.inr hout), fun hdraws => ⟨rfl, by omega, by omega⟩⟩

def storingAtEnd : Host :=
  Host.handleAll { machine := newMachine { memorySize := 0x60, loadAddress := 0x50 } }
    [.load (.list [.int 0xA0, .int 0x5F, .int 0xF1, .int 0x55]), .advance]

theorem refused_at_end :
    Reachable { memorySize := 0x60, loadAddress := 0x50 } storingAtEnd ∧
      storingAtEnd.machine.advance.2 = .error (.fault (.addressOutOfRange 0x5F 2)) ∧
      Leaves 0x60 0x5F 2 := by
  have hreachable : Reachable { memorySize := 0x60, loadAddress := 0x50 } storingAtEnd :=
    reachable_small (by simp [IsOperation])
  have hheld := hreachable.held
  have hat : AtPc storingAtEnd.machine 0xF155 := (atPc_iff hheld.fits).2 (by decide +kernel)
  have hindex : storingAtEnd.machine.core.registers.index = 0x5F := by decide +kernel
  have hraises : Raises { memorySize := 0x60, loadAddress := 0x50 } storingAtEnd.machine
      (.addressOutOfRange storingAtEnd.machine.core.registers.index 2) :=
    .outside hat (.store (by decide) (by decide)) (by rw [hindex]; decide)
  have hfail := advance_of_raises hheld.setup_eq hheld.fits hraises
  rw [hindex] at hfail
  have hdraws : ¬DrawsNoRows storingAtEnd.machine := by
    rw [drawsNoRows_iff hheld.fits hat]
    decide
  exact ⟨hreachable, hfail,
    (refused_access_leaves_iff hreachable hfail).1.2 hdraws⟩

def drawingBehindEnd : Host :=
  Host.handleAll { machine := newMachine { memorySize := 0x60, loadAddress := 0x50 } }
    [.load (.list [.int 0xA1, .int 0x00, .int 0xD0, .int 0x00]), .advance]

/-- None of no bytes lies outside, and yet the access is refused. -/
theorem refused_without_rows :
    Reachable { memorySize := 0x60, loadAddress := 0x50 } drawingBehindEnd ∧
      drawingBehindEnd.machine.advance.2 = .error (.fault (.addressOutOfRange 0x100 0)) ∧
      ¬Leaves 0x60 0x100 0 := by
  have hreachable : Reachable { memorySize := 0x60, loadAddress := 0x50 } drawingBehindEnd :=
    reachable_small (by simp [IsOperation])
  have hheld := hreachable.held
  have hat : AtPc drawingBehindEnd.machine 0xD000 := (atPc_iff hheld.fits).2 (by decide +kernel)
  have hindex : drawingBehindEnd.machine.core.registers.index = 0x100 := by decide +kernel
  have hraises : Raises { memorySize := 0x60, loadAddress := 0x50 } drawingBehindEnd.machine
      (.addressOutOfRange drawingBehindEnd.machine.core.registers.index 0) :=
    .outside hat (.draw (by decide)) (by rw [hindex]; decide)
  have hfail := advance_of_raises hheld.setup_eq hheld.fits hraises
  rw [hindex] at hfail
  refine ⟨hreachable, hfail, ?_⟩
  rw [leaves_iff]
  decide

end Chip8.Proofs.Host.Access
