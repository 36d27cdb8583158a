import Chip8.Proofs.Host.Trace

/-!
# The font

Instructions cannot write to the addresses of the font, and a reset puts the font back.  Where
programs are loaded above it, it therefore stays in place for good.
-/

namespace Chip8.Proofs.Host.Font

open Chip8.Memory
open Chip8.Proofs.Memory.Layout Chip8.Proofs.Memory.Transfer Chip8.Proofs.Memory.Contents
open Chip8.Proofs.Instruction.Action Chip8.Proofs.Instruction.Effect
open Chip8.Proofs.Instruction.Cycle Chip8.Proofs.Machine.Representation
open Chip8.Proofs.Machine.Operations Chip8.Proofs.Host.Invariant Chip8.Proofs.Host.Trace

def ShowsFont (b : Bus) : Prop := b.peekAll 0 0x50 = .ok font

section Buses

variable {size : Int} {b other : Bus}

theorem ShowsFont.congr (h : ShowsFont b) (hpeek : ∀ x < fontEnd, other.peek x = b.peek x) :
    ShowsFont other := by
  have hall : other.peekAll 0 0x50 = b.peekAll 0 0x50 :=
    peekAll_congr fun x _ hhigh => hpeek x hhigh
  exact hall.trans h

theorem ShowsFont.replayed {accesses : List Access} (h : ShowsFont b)
    (hpeek : other.peek = replayed b.peek accesses) : ShowsFont other := by
  apply h.congr
  intro x hx
  rw [hpeek]
  exact replayed_below hx

theorem ShowsFont.loadedAll {address : Int} {values : List Int} (h : ShowsFont b)
    (hb : Mapped size b) (haddress : fontEnd ≤ address) (hfit : address + values.length ≤ size)
    (hv : ∀ v ∈ values, IsByte v) : ShowsFont (loadedAll b address values) := by
  have hnonneg : 0 ≤ address := Int.le_trans (by decide) haddress
  apply h.congr
  intro x hx
  exact peek_loadedAll_outside values hb hnonneg hfit hv (.inl (by omega))

end Buses

section Hosts

variable {s : Settings} {h : Host} {m : Machine}

theorem showsFont_built (hm : Built s m) : ShowsFont m.core.bus := by
  obtain ⟨b, random, hb, rfl⟩ := hm.exists_bus
  obtain ⟨hgt, rfl⟩ := standard_eq hb
  exact peekAll_withFont (mapped_blank hgt)

theorem showsFont_load (hh : Held s h) (hload : fontEnd ≤ s.loadAddress)
    (hfont : ShowsFont h.machine.core.bus) {image : Image} (hbytes : ∀ v ∈ image.toList, IsByte v) :
    ShowsFont (h.machine.load image).1.core.bus := by
  have habove : fontEnd ≤ h.machine.setup.loadAddress := hh.loadAddress_eq.symm ▸ hload
  have hnonneg : 0 ≤ h.machine.setup.loadAddress := Int.le_trans (by decide) habove
  rcases load_cases hh.fits.housed hnonneg hbytes with ⟨-, heq⟩ | ⟨hfit, heq⟩
  · rw [heq]
    exact hfont
  · rw [heq]
    rw [← Image.length_toList] at hfit
    exact hfont.loadedAll hh.fits.bus habove hfit hbytes

theorem showsFont_handle (hh : Held s h) (hload : fontEnd ≤ s.loadAddress)
    (hfont : ShowsFont h.machine.core.bus) {r : Request} (hr : IsOperation r) :
    ShowsFont (h.handle r).1.machine.core.bus := by
  cases r with
  | load value =>
      cases himage : Image.ofValue value with
      | error e =>
          simp only [Host.handle, perform_load_error himage]
          exact hfont.congr fun x _ => rfl
      | ok image =>
          have hloaded := showsFont_load hh hload hfont (isByte_of_ofValue himage)
          simp only [Host.handle, perform_load_ok himage]
          exact hloaded.congr fun x _ => rfl
  | advance | tick | setKey => exact hfont.replayed (peek_handle hh trivial)
  | reset =>
      have hreset : ShowsFont (renewed h.machine.core.bus) := peekAll_renewed hh.fits.bus
      simp only [Host.handle, Host.perform, reset_eq hh.fits.bus]
      exact hreset.congr fun x _ => rfl
  | restore number =>
      cases hitem : itemAt h.snapshots number with
      | error e =>
          simp only [Host.handle, perform_restore_error hitem]
          exact hfont.congr fun x _ => rfl
      | ok snapshot =>
          simp only [Host.handle, perform_restore_ok hitem]
          exact hfont.congr fun x _ => rfl
  | consumeTone | addListener | removeListener => exact hfont.congr fun x _ => rfl
  | _ => exact hr.elim

theorem showsFont_reachable (hh : Reachable s h) (hload : fontEnd ≤ s.loadAddress) :
    ShowsFont h.machine.core.bus := by
  induction hh with
  | built hm script => exact showsFont_built hm
  | request hh hr ih => exact showsFont_handle hh.held hload ih hr

end Hosts

/-! ## Instructions -/

def pointed (m : Machine) (index : Int) : Machine :=
  { m with core := { m.core with registers := { m.core.registers with index } } }

section Instructions

variable {size opcode a : Int} {m : Machine}

/-- An instruction leaves the bytes of the font as they are, whether it is carried out or not. -/
theorem peek_executeWord (h : Housed size m.core) (hr : ∀ n, IsByte (m.core.registers.get n))
    (ha : a < fontEnd) : (m.executeWord opcode).1.core.bus.peek a = m.core.bus.peek a := by
  unfold Machine.executeWord Operation.decode Machine.run
  cases Form.ofOpcode? opcode with
  | none => rfl
  | some form =>
      dsimp only
      rw [execute_ofForm]
      by_cases hblocked : ∃ f, Blocked m.setup size form opcode m.core.registers f
      · obtain ⟨f, hf⟩ := hblocked
        rw [ofForm_blocked h hf]
      · have hfree : ∀ f, ¬Blocked m.setup size form opcode m.core.registers f :=
          fun f hf => hblocked ⟨f, hf⟩
        obtain ⟨accesses, htraced⟩ := traced_after h.bus hr hfree
        rw [ofForm_eq_after h hr hfree]
        change (busAfter form opcode m.core).peek a = m.core.bus.peek a
        rw [htraced.memory]
        exact replayed_below ha

end Instructions

/-- Where programs are loaded above the font, it stays in place whatever operations do, and no
instruction changes it, wherever the index register points. -/
theorem font_protected {s : Settings} {h : Host} (hh : Reachable s h)
    (hload : fontEnd ≤ s.loadAddress) :
    h.machine.core.bus.peekAll 0 0x50 = .ok font ∧
    ∀ index opcode a, a < fontEnd →
      ((pointed h.machine index).executeWord opcode).1.core.bus.peek a =
        h.machine.core.bus.peek a := by
  have hwide := hh.held.fits
  have hfont := showsFont_reachable hh hload
  refine ⟨hfont, ?_⟩
  intro index opcode a ha
  exact peek_executeWord (m := pointed h.machine index) ⟨hwide.bus, hwide.memorySize⟩
    hwide.registers.bytes ha

/-- Three digits are written to 0x4E and the two addresses after it. -/
theorem font_protected_across_end : ∃ m, Built {} m ∧ fontEnd ≤ programStart ∧
    m.core.bus.peekAll 0 0x50 = .ok font ∧
    ((pointed m 0x4E).executeWord 0xF033).1.core.bus.peek 0x4E = m.core.bus.peek 0x4E := by
  obtain ⟨m, hm⟩ := exists_standard
  have habove : fontEnd ≤ programStart := by decide
  obtain ⟨hfont, hkept⟩ := font_protected (.built hm fun _ => []) habove
  exact ⟨m, hm, habove, hfont, hkept 0x4E 0xF033 0x4E (by decide)⟩

end Chip8.Proofs.Host.Font
