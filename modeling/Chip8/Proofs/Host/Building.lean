import Chip8.Proofs.Host.Font

/-!
# Building a machine

Settings are checked when they are read, and the size of memory once more when the memory is built:
it must reach beyond the font, and there must be room for the cells above it.  Whatever else was
accepted is built, and the machine has what the settings say.
-/

namespace Chip8.Proofs.Host.Building

open Chip8.Memory
open Chip8.Proofs.Memory.Layout Chip8.Proofs.Memory.Transfer
open Chip8.Proofs.Host.Invariant Chip8.Proofs.Host.Font

structure Realizes (s : Settings) (m : Machine) : Prop where
  size : m.core.bus.size = s.memorySize
  memorySize : m.core.hardware.memorySize = s.memorySize
  mapped : ∀ address, 0 ≤ address → address < s.memorySize →
    ∃ byte, m.core.bus.peek address = .ok byte ∧ 0 ≤ byte ∧ byte ≤ 255
  pc : m.core.pc = s.loadAddress
  placed : 0 ≤ m.core.pc ∧ m.core.pc < m.core.bus.size
  font : m.core.bus.peekAll 0 0x50 = .ok font
  stackLimit : m.setup.stackLimit = s.stackLimit
  dialect : m.setup.dialect = s.dialect

section Built

variable {s : Settings} {m : Machine} {b : Bus} {d : Document} {notices : List Settings.Notice}

theorem build_error {e : Error} (h : Bus.standard s.memorySize = .error e) :
    s.build = .error e := by
  unfold Settings.build
  rw [h]
  rfl

theorem build_ok (hgt : fontEnd < s.memorySize)
    (hroom : checkCapacity (s.memorySize - fontEnd).toNat = .ok ()) :
    s.build = .ok (Machine.create s.setup (withFont (blank s.memorySize))) :=
  build_eq (standard_ok hgt hroom)

theorem built_of_build (hread : Settings.ofDocument d = (notices, .ok s))
    (hbuild : s.build = .ok (Machine.create s.setup b)) :
    Built s (Machine.create s.setup b) :=
  ⟨⟨d, notices, hread⟩, _, s.setup.stream, hbuild, fun _ => rfl, rfl⟩

theorem realizes_of_built (hm : Built s m) : Realizes s m := by
  have hbus := hm.wide.bus
  have hin : InMemory s.memorySize s.loadAddress := hm.valid.loadAddress
  refine
    { size := size_eq hbus, memorySize := hm.wide.memorySize, mapped := ?_, pc := hm.pc_eq,
      placed := ?_, font := showsFont_built hm, stackLimit := ?_, dialect := ?_ }
  · intro address hlow hhigh
    exact ⟨_, peek_eq hbus ⟨hlow, hhigh⟩, isByte_byteAt hbus address⟩
  · rw [hm.pc_eq, size_eq hbus]
    exact hin
  · rw [hm.setup_eq]
    rfl
  · rw [hm.setup_eq]
    rfl

end Built

/-- Accepted settings are refused when building if memory ends with the font or cannot be had;
all others are built, into a machine that has what they say. -/
theorem build_outcome {s : Settings} {d : Document} {notices : List Settings.Notice}
    (hread : Settings.ofDocument d = (notices, .ok s)) :
    (s.memorySize ≤ fontEnd → s.build = .error (.noRoom s.memorySize)) ∧
    (∀ e, fontEnd < s.memorySize → checkCapacity (s.memorySize - fontEnd).toNat = .error e →
      s.build = .error (.tooLarge e)) ∧
    (fontEnd < s.memorySize → checkCapacity (s.memorySize - fontEnd).toNat = .ok () →
      ∃ m, s.build = .ok m ∧ Realizes s m) := by
  refine ⟨?small, ?large, ?built⟩
  case small => exact fun hsmall => build_error (standard_small hsmall)
  case large => exact fun e hgt hfull => build_error (standard_error hgt hfull)
  case built =>
    intro hgt hroom
    have hbuild := build_ok hgt hroom
    exact ⟨_, hbuild, realizes_of_built (built_of_build hread hbuild)⟩

theorem build_outcome_smallest : fontEnd < 0x51 ∧
    ∃ m, Settings.build { memorySize := 0x51, loadAddress := 0x50 } = .ok m ∧
      Realizes { memorySize := 0x51, loadAddress := 0x50 } m := by
  have hread : Settings.ofDocument (.ofValue (.map
      [(.text "memory_size", .int 0x51), (.text "load_address", .int 0x50)])) =
      ([], .ok { memorySize := 0x51, loadAddress := 0x50 }) := by
    rfl
  have hgt : fontEnd < 0x51 := by decide
  exact ⟨hgt, (build_outcome hread).2.2 hgt rfl⟩

/-- A memory that ends with the font and one that no index reaches the end of are accepted, but no
machine is built over them. -/
theorem accepted_not_built :
    (Settings.ofDocument (.ofValue (.map
      [(.text "memory_size", .int 0x50), (.text "load_address", .int 0)])) =
      ([], .ok { memorySize := 0x50, loadAddress := 0 }) ∧
    Settings.build { memorySize := 0x50, loadAddress := 0 } = .error (.noRoom 0x50)) ∧
    Settings.ofDocument (.ofValue (.map [(.text "memory_size", .int 0x8000000000000050)])) =
      ([], .ok { memorySize := 0x8000000000000050 }) ∧
    Settings.build { memorySize := 0x8000000000000050 } = .error (.tooLarge .uncountable) :=
  ⟨⟨rfl, build_error (standard_small (by decide))⟩, rfl,
    build_error (standard_error (by decide) rfl)⟩

end Chip8.Proofs.Host.Building
