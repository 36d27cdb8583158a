import Chip8.Proofs.Host.Footprint
import Chip8.Proofs.Memory.Contents

/-!
# Transfers between registers and memory

What the instructions leave behind that store registers, load them and store the digits of one,
wherever the index register points, as long as all the bytes lie in memory.  Bytes that would go
into the font are not written, and the host is told so.
-/

namespace Chip8.Proofs.Host.Transfers

open Chip8.Memory Chip8.Instruction
open Chip8.Proofs.Memory.Layout Chip8.Proofs.Memory.Transfer Chip8.Proofs.Memory.Contents
open Chip8.Proofs.Instruction.Action Chip8.Proofs.Instruction.Effect
open Chip8.Proofs.Machine.Representation Chip8.Proofs.Machine.Operations
open Chip8.Proofs.Host.Invariant
open Chip8.Proofs.Instruction.Frame (generalOnly_loadedFrom)
open Chip8.Proofs.Host.Footprint (le_of_mem_upTo mem_of_get_loadedFrom_ne)

/-! ## Words -/

def storeWord (x : Fin 16) : Int := 0xF055 + 0x100 * x.val

def loadWord (x : Fin 16) : Int := 0xF065 + 0x100 * x.val

def digitsWord (x : Fin 16) : Int := 0xF033 + 0x100 * x.val

theorem ofOpcode?_storeWord (x : Fin 16) :
    Form.ofOpcode? (storeWord x) = some .storeRegisters ∧ Opcode.x (storeWord x) = x := by
  revert x
  decide

theorem ofOpcode?_loadWord (x : Fin 16) :
    Form.ofOpcode? (loadWord x) = some .loadRegisters ∧ Opcode.x (loadWord x) = x := by
  revert x
  decide

theorem ofOpcode?_digitsWord (x : Fin 16) :
    Form.ofOpcode? (digitsWord x) = some .storeDecimal ∧ Opcode.x (digitsWord x) = x := by
  revert x
  decide

/-! ## What is left behind -/

def indexAfter (dialect : Dialect) (x : Fin 16) (index : Int) : Int :=
  if dialect.movesIndex then (index + x.val + 1) % 0x10000 else index

/-- Memory in which values have been written from an address on.  Those that belong above the font
are there, each of the others has a notice, and no other byte has changed. -/
structure Written (before after : Bus) (address : Int) (values : List Int) : Prop where
  there : ∀ (i : Nat) (value : Int), values[i]? = some value → fontEnd ≤ address + i →
    after.peek (address + i) = .ok value
  font : ∀ a < fontEnd, after.peek a = before.peek a
  others : ∀ a, a < address ∨ address + values.length ≤ a → after.peek a = before.peek a
  ignored : after.ignored = before.ignored ++ ignoredFrom address values

structure Stores (before after : Machine) (x : Fin 16) : Prop where
  memory : Written before.core.bus after.core.bus before.core.registers.index
    ((upTo x).map before.core.registers.get)
  registers : ∀ n, after.core.registers.get n = before.core.registers.get n
  index : after.core.registers.index =
    indexAfter before.setup.dialect x before.core.registers.index

structure Loads (before after : Machine) (x : Fin 16) : Prop where
  loaded : ∀ k ≤ x,
    before.core.bus.peek (before.core.registers.index + k.val) = .ok (after.core.registers.get k)
  kept : ∀ k, x < k → after.core.registers.get k = before.core.registers.get k
  memory : after.core.bus.peek = before.core.bus.peek
  index : after.core.registers.index =
    indexAfter before.setup.dialect x before.core.registers.index

def StoresDigits (before after : Machine) (x : Fin 16) : Prop :=
  ∃ hundreds tens units : Int,
    (0 ≤ hundreds ∧ hundreds ≤ 9) ∧ (0 ≤ tens ∧ tens ≤ 9) ∧ (0 ≤ units ∧ units ≤ 9) ∧
    100 * hundreds + 10 * tens + units = before.core.registers.get x ∧
    Written before.core.bus after.core.bus before.core.registers.index [hundreds, tens, units]

/-- Machines with one memory, whatever was logged and noticed since. -/
structure SameMemory (m other : Machine) : Prop where
  regions : other.core.bus.regions = m.core.bus.regions
  devices : other.core.bus.devices = m.core.bus.devices
  memorySize : other.core.hardware.memorySize = m.core.hardware.memorySize

/-! ## Registers -/

section Registers

variable {size address : Int} {b : Bus} {r : Registers} {n x k : Fin 16}

theorem getElem?_upTo (hle : k ≤ x) : (upTo x)[k.val]? = some k := by
  have hlt : k.val < x.val + 1 := by omega
  rw [upTo, List.getElem?_take_of_lt hlt, List.getElem?_eq_getElem (by simp),
    List.getElem_finRange]
  rfl

theorem nodup_upTo (x : Fin 16) : (upTo x).Nodup :=
  (List.nodup_finRange 16).sublist (List.take_sublist _ _)

theorem get_loadedFrom_of_not_mem {names : List (Fin 16)} (hnot : n ∉ names) :
    (loadedFrom b r address names).get n = r.get n :=
  Classical.not_not.1 fun hne => hnot (mem_of_get_loadedFrom_ne hne)

theorem get_loadedFrom (hb : Mapped size b) {names : List (Fin 16)} (hnodup : names.Nodup)
    {i : Nat} (hi : names[i]? = some n) :
    (loadedFrom b r address names).get n = byteAt b (address + i) := by
  induction names generalizing r address i with
  | nil => cases hi
  | cons m rest ih =>
      obtain ⟨hfirst, hrest⟩ := List.nodup_cons.1 hnodup
      cases i with
      | zero =>
          cases hi
          have hbyte := isByte_byteAt hb address
          rw [loadedFrom, get_loadedFrom_of_not_mem hfirst, get_set, if_pos rfl]
          simp only [Int.natCast_zero, Int.add_zero]
          omega
      | succ i =>
          have hshift : address + ((i + 1 : Nat) : Int) = address + 1 + i := by omega
          rw [hshift]
          exact ih hrest hi

end Registers

/-! ## Memory -/

section Memory

variable {size address : Int} {b : Bus}

theorem SameMemory.peek_eq {m other : Machine} (h : SameMemory m other) :
    other.core.bus.peek = m.core.bus.peek := by
  funext a
  simp only [Bus.peek, Bus.region?, Bus.device, h.regions, h.devices]

theorem written_writtenAll (h : Mapped size b) (haddress : 0 ≤ address) {values : List Int}
    (hfit : address + values.length ≤ size) (hv : ∀ v ∈ values, IsByte v) :
    Written b (writtenAll b address values) address values where
  there _ _ hi habove := peek_writtenAll values h haddress hfit hv hi habove
  font _ hlow := peek_writtenAll_outside values h haddress hfit hv (.inl hlow)
  others _ hout := peek_writtenAll_outside values h haddress hfit hv (.inr hout)
  ignored := ignored_writtenAll values h haddress hfit

end Memory

/-! ## Instructions -/

section Instructions

variable {m between : Machine} {size : Int} {x : Fin 16}

theorem index_passed (dialect : Dialect) (x : Fin 16) (r : Registers) :
    (passed dialect x r).index = indexAfter dialect x r.index := by
  unfold passed indexAfter
  rw [Int.add_assoc]

theorem executeWord_store (h : Housed size m.core)
    (hr : ∀ n, IsByte (m.core.registers.get n)) (hindex : 0 ≤ m.core.registers.index)
    (hfit : m.core.registers.index + x.val + 1 ≤ size) :
    ∃ after, m.executeWord (storeWord x) = (after, .ok ()) ∧ Housed size after.core ∧
      Stores m after x := by
  obtain ⟨hform, hx⟩ := ofOpcode?_storeWord x
  have hlength := length_map_upTo m.core.registers.get x
  have happly := storeRegisters_apply h m.setup.dialect hr (x := x) (by omega)
  rw [← hx] at happly
  have hmapped := mapped_writtenAll ((upTo x).map m.core.registers.get) h.bus hindex (by omega)
  refine ⟨_, executeWord_of_ok hform happly, ⟨?_, h.memorySize⟩, ?_⟩
  · rw [hx]
    exact hmapped
  rw [hx]
  exact {
    memory := written_writtenAll h.bus hindex (by omega) (isByte_of_mem_map_get hr)
    registers := fun _ => rfl
    index := index_passed m.setup.dialect x m.core.registers }

theorem executeWord_load (h : Housed size m.core) (hindex : 0 ≤ m.core.registers.index)
    (hfit : m.core.registers.index + x.val + 1 ≤ size) :
    ∃ after, m.executeWord (loadWord x) = (after, .ok ()) ∧ Loads m after x := by
  obtain ⟨hform, hx⟩ := ofOpcode?_loadWord x
  have happly := loadRegisters_apply h m.setup.dialect (x := x) (by omega)
  rw [← hx] at happly
  refine ⟨_, executeWord_of_ok hform happly, ?_⟩
  rw [hx]
  constructor
  case loaded =>
    intro k hle
    have hget : (loadedFrom m.core.bus m.core.registers m.core.registers.index (upTo x)).get k =
        byteAt m.core.bus (m.core.registers.index + k.val) :=
      get_loadedFrom h.bus (nodup_upTo x) (getElem?_upTo hle)
    rw [peek_eq h.bus (by omega), ← hget]
    rfl
  case kept =>
    intro k hlt
    exact get_loadedFrom_of_not_mem fun hmem => absurd (le_of_mem_upTo hmem) (Fin.not_le.2 hlt)
  case memory => rfl
  case index =>
    have hgeneral := generalOnly_loadedFrom m.core.bus (upTo x) m.core.registers
      m.core.registers.index
    refine (index_passed _ _ _).trans ?_
    rw [hgeneral]

theorem executeWord_digits (h : Housed size m.core)
    (hr : ∀ n, IsByte (m.core.registers.get n)) (hindex : 0 ≤ m.core.registers.index)
    (hfit : m.core.registers.index + 3 ≤ size) :
    ∃ after, m.executeWord (digitsWord x) = (after, .ok ()) ∧ StoresDigits m after x := by
  obtain ⟨hform, hx⟩ := ofOpcode?_digitsWord x
  have hbyte := hr x
  have hlength := length_decimalDigits (m.core.registers.get x)
  have happly := storeDecimal_apply h hbyte (by omega)
  rw [← hx] at happly
  refine ⟨_, executeWord_of_ok hform happly, ?_⟩
  rw [hx]
  refine ⟨m.core.registers.get x / 100, m.core.registers.get x / 10 % 10,
    m.core.registers.get x % 10, by omega, by omega, by omega, by omega, ?_⟩
  exact written_writtenAll h.bus hindex (by omega) (isByte_decimalDigits hbyte)

/-- Registers that were stored above the font come back. -/
theorem executeWord_load_store {stored : Machine} (h : Housed size stored.core)
    (hstored : Stores m stored x) (habove : fontEnd ≤ m.core.registers.index)
    (hfit : m.core.registers.index + x.val + 1 ≤ size)
    (hmemory : SameMemory stored between)
    (hindex : between.core.registers.index = m.core.registers.index) :
    ∃ after, between.executeWord (loadWord x) = (after, .ok ()) ∧
      ∀ k ≤ x, after.core.registers.get k = m.core.registers.get k := by
  have hfont := fontEnd_eq
  have hhoused : Housed size between.core :=
    ⟨h.bus.congr hmemory.regions hmemory.devices, hmemory.memorySize.trans h.memorySize⟩
  obtain ⟨after, heq, hloads⟩ :=
    executeWord_load (m := between) (x := x) hhoused (by omega) (by omega)
  refine ⟨after, heq, fun k hle => ?_⟩
  have hloaded := hloads.loaded k hle
  have hthere := hstored.memory.there k (m.core.registers.get k)
    (by rw [List.getElem?_map, getElem?_upTo hle]; rfl) (by omega)
  rw [hmemory.peek_eq, hindex, hthere] at hloaded
  exact (Except.ok.inj hloaded).symm

end Instructions

/-- Registers are stored and loaded as the words say, and so are the digits of one, if all the bytes
lie in memory.  Registers that were stored above the font come back when they are loaded from the
same address, whatever they held in between. -/
theorem transfers_exact {s : Settings} {h : Host} (hh : Reachable s h) (x : Fin 16) :
    (h.machine.core.registers.index + x.val + 1 ≤ s.memorySize →
      (∃ stored, h.machine.executeWord (storeWord x) = (stored, .ok ()) ∧
        Stores h.machine stored x ∧
        (fontEnd ≤ h.machine.core.registers.index → ∀ between : Machine,
          SameMemory stored between →
          between.core.registers.index = h.machine.core.registers.index →
          ∃ after, between.executeWord (loadWord x) = (after, .ok ()) ∧
            ∀ k ≤ x, after.core.registers.get k = h.machine.core.registers.get k)) ∧
      ∃ after, h.machine.executeWord (loadWord x) = (after, .ok ()) ∧
        Loads h.machine after x) ∧
    (h.machine.core.registers.index + 3 ≤ s.memorySize →
      ∃ after, h.machine.executeWord (digitsWord x) = (after, .ok ()) ∧
        StoresDigits h.machine after x) := by
  have hfits := hh.held.fits
  have hbytes := hfits.registers.bytes
  have hindex := hfits.registers.index.1
  refine ⟨fun hfit => ⟨?_, executeWord_load hfits.housed hindex hfit⟩,
    executeWord_digits hfits.housed hbytes hindex⟩
  obtain ⟨stored, heq, hhoused, hstored⟩ :=
    executeWord_store (x := x) hfits.housed hbytes hindex hfit
  refine ⟨stored, heq, hstored, fun habove between hmemory hsame => ?_⟩
  exact executeWord_load_store hhoused hstored habove hfit hmemory hsame

def pointingAtFont : Host :=
  Host.handleAll { machine := newMachine { memorySize := 0x60, loadAddress := 0x50 } }
    [.load (.list [.int 0x61, .int 0x07, .int 0x62, .int 0x09, .int 0xA0, .int 0x4E]),
      .advance, .advance, .advance]

/-- Two of three registers do not get into memory. -/
theorem transfers_exact_across_font :
    Reachable { memorySize := 0x60, loadAddress := 0x50 } pointingAtFont ∧
    ∃ stored, pointingAtFont.machine.executeWord (storeWord 2) = (stored, .ok ()) ∧
      stored.core.bus.ignored = [⟨0, 0x4E⟩, ⟨7, 0x4F⟩] ∧ stored.core.bus.peek 0x50 = .ok 9 := by
  have hreachable : Reachable { memorySize := 0x60, loadAddress := 0x50 } pointingAtFont :=
    reachable_small (by simp [IsOperation])
  have hindex : pointingAtFont.machine.core.registers.index = 0x4E := by decide +kernel
  have hvalues : (upTo 2).map pointingAtFont.machine.core.registers.get = [0, 7, 9] := by
    decide +kernel
  have hfits : pointingAtFont.machine.core.registers.index + ((2 : Fin 16).val : Int) + 1 ≤
      (0x60 : Int) := by
    rw [hindex]
    decide
  obtain ⟨stored, heq, hstored, -⟩ := ((transfers_exact hreachable 2).1 hfits).1
  have hmemory := hstored.memory
  rw [hindex, hvalues] at hmemory
  have hignored := hmemory.ignored
  rw [hreachable.taken] at hignored
  exact ⟨hreachable, stored, heq, hignored, hmemory.there 2 9 rfl (by decide)⟩

end Chip8.Proofs.Host.Transfers
