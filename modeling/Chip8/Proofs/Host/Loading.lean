import Chip8.Proofs.Host.Failure
import Chip8.Proofs.Memory.Contents

/-!
# Loading a program

A host loads a program of numbers at the load address, which may lie in the font or above it.  The
program is loaded byte for byte if all its numbers are bytes and memory has room for them, up to its
last byte, and is refused as a whole otherwise.
-/

namespace Chip8.Proofs.Host.Loading

open Chip8.Memory
open Chip8.Proofs.Memory.Layout Chip8.Proofs.Memory.Transfer Chip8.Proofs.Memory.Contents
open Chip8.Proofs.Machine.Operations
open Chip8.Proofs.Host.Invariant Chip8.Proofs.Host.Failure

def loadNumbers (data : List Int) : Request := .load (.list (data.map .int))

def withBus (h : Host) (bus : Bus) : Host :=
  { h with machine := { h.machine with core := { h.machine.core with bus } } }

/-- Memory in which a program has been loaded from an address on, unseen by the log. -/
structure Loaded (before after : Bus) (address : Int) (data : List Int) : Prop where
  there : ∀ (k : Nat) (byte : Int), data[k]? = some byte → after.peek (address + k) = .ok byte
  others : ∀ a, a < address ∨ address + data.length ≤ a → after.peek a = before.peek a
  log : after.log = before.log

/-! ## Images -/

section Images

variable {data : List Int} {n : Int}

theorem byte_int (hn : IsByte n) : Image.byte (.int n) = .ok n := if_pos hn

theorem byte_int_error (hn : ¬IsByte n) : Image.byte (.int n) = .error .notAByte := if_neg hn

theorem ofValue_numbers (hdata : ∀ n ∈ data, IsByte n) :
    Image.ofValue (.list (data.map .int)) = .ok (.bytes data) := by
  have hall : (data.map Value.int).mapM Image.byte = .ok data := by
    induction data with
    | nil => rfl
    | cons n rest ih =>
        obtain ⟨hfirst, hrest⟩ := List.forall_mem_cons.1 hdata
        rw [List.map_cons, List.mapM_cons, byte_int hfirst, ih hrest]
        rfl
  simp only [Image.ofValue, hall, Except.map]

theorem ofValue_numbers_error (hdata : ∃ n ∈ data, ¬IsByte n) :
    Image.ofValue (.list (data.map .int)) = .error .notAByte := by
  have hbad : (data.map Value.int).mapM Image.byte = .error .notAByte := by
    induction data with
    | nil => simp at hdata
    | cons n rest ih =>
        rw [List.map_cons, List.mapM_cons]
        by_cases hn : IsByte n
        · obtain ⟨bad, hmem, hbad⟩ := hdata
          have hlater : bad ∈ rest :=
            (List.mem_cons.1 hmem).resolve_left fun heq => hbad (heq ▸ hn)
          rw [byte_int hn, ih ⟨bad, hlater, hbad⟩]
          rfl
        · rw [byte_int_error hn]
          rfl
  simp only [Image.ofValue, hbad, Except.map]

end Images

/-! ## Outcomes -/

section Outcomes

variable {s : Settings} {h : Host} {data : List Int}

theorem loaded_loadedAll {size address : Int} {b : Bus} (hb : Mapped size b) (ha : 0 ≤ address)
    (hfit : address + data.length ≤ size) (hdata : ∀ n ∈ data, IsByte n) :
    Loaded b (loadedAll b address data) address data where
  there _ _ hk := peek_of_peekAll (peekAll_loadedAll data hb ha hfit hdata) hk
  others _ hout := peek_loadedAll_outside data hb ha hfit hdata hout
  log := (quiet_loadedAll data hb ha hfit).log

theorem loadAddress_nonneg (hh : Reachable s h) : 0 ≤ s.loadAddress := by
  obtain ⟨m, hm⟩ := hh.exists_built
  exact hm.loadAddress

theorem handle_load_error (hh : Reachable s h) (hdata : ∃ n ∈ data, ¬IsByte n) :
    h.handle (loadNumbers data) = (h, { result := .error (.image .notAByte) }) :=
  handle_eq (perform_load_error (ofValue_numbers_error hdata)) hh.taken

theorem load_numbers_cases (hh : Reachable s h) (hdata : ∀ n ∈ data, IsByte n) :
    (s.memorySize < s.loadAddress + data.length ∧
      h.machine.load (.bytes data) = (h.machine,
        .error (.fault (.outOfMemory data.length s.loadAddress s.memorySize)))) ∨
    (s.loadAddress + data.length ≤ s.memorySize ∧
      h.machine.load (.bytes data) =
        ((withBus h (loadedAll h.machine.core.bus s.loadAddress data)).machine, .ok ())) := by
  have haddress := hh.held.loadAddress_eq
  have hnonneg := loadAddress_nonneg hh
  have hbytes : ∀ v ∈ (Image.bytes data).toList, IsByte v := hdata
  rw [← haddress] at hnonneg ⊢
  exact load_cases hh.held.fits.housed hnonneg hbytes

theorem handle_load_long (hh : Reachable s h) (hdata : ∀ n ∈ data, IsByte n)
    (hlong : s.memorySize < s.loadAddress + data.length) :
    h.handle (loadNumbers data) = (h, { result := .error (.failure
      (.fault (.outOfMemory data.length s.loadAddress s.memorySize))) }) := by
  have hperform := perform_load_ok (h := h) (ofValue_numbers hdata)
  rcases load_numbers_cases hh hdata with ⟨-, heq⟩ | ⟨hfit, -⟩
  · rw [heq] at hperform
    exact handle_eq hperform hh.taken
  · omega

theorem handle_load_fitting (hh : Reachable s h) (hdata : ∀ n ∈ data, IsByte n)
    (hfit : s.loadAddress + data.length ≤ s.memorySize) :
    h.handle (loadNumbers data) =
      (withBus h (loadedAll h.machine.core.bus s.loadAddress data), { result := .ok .done }) := by
  have hperform := perform_load_ok (h := h) (ofValue_numbers hdata)
  have hquiet := quiet_loadedAll data hh.held.fits.bus (loadAddress_nonneg hh) hfit
  rcases load_numbers_cases hh hdata with ⟨hlong, -⟩ | ⟨-, heq⟩
  · omega
  · rw [heq] at hperform
    exact handle_eq hperform (hquiet.ignored.trans hh.taken)

end Outcomes

/-- A program is loaded if its numbers are bytes and memory has room for them from the load address
on, and then only these bytes of the host have changed.  Any other program changes nothing. -/
theorem load_exact {s : Settings} {h : Host} (hh : Reachable s h) (data : List Int) :
    let next := (h.handle (loadNumbers data)).1
    let result := (h.handle (loadNumbers data)).2.result
    (result = .ok .done ↔
      (∀ n ∈ data, IsByte n) ∧ s.loadAddress + data.length ≤ s.memorySize) ∧
    (result = .ok .done →
      ∃ bus, next = withBus h bus ∧ Loaded h.machine.core.bus bus s.loadAddress data) ∧
    ((∃ n ∈ data, ¬IsByte n) → result = .error (.image .notAByte) ∧ next = h) ∧
    ((∀ n ∈ data, IsByte n) → s.memorySize < s.loadAddress + data.length →
      result = .error (.failure
        (.fault (.outOfMemory data.length s.loadAddress s.memorySize))) ∧ next = h) := by
  by_cases hbad : ∃ n ∈ data, ¬IsByte n
  case pos =>
    have hnot : ¬∀ n ∈ data, IsByte n := fun hdata =>
      let ⟨n, hmem, hn⟩ := hbad
      hn (hdata n hmem)
    rw [handle_load_error hh hbad]
    exact ⟨⟨nofun, fun hgood => absurd hgood.1 hnot⟩, nofun, fun _ => ⟨rfl, rfl⟩,
      fun hdata => absurd hdata hnot⟩
  case neg =>
    have hdata : ∀ n ∈ data, IsByte n := fun n hmem =>
      Decidable.not_not.1 fun hn => hbad ⟨n, hmem, hn⟩
    by_cases hfit : s.loadAddress + data.length ≤ s.memorySize
    · have hloaded := loaded_loadedAll hh.held.fits.bus (loadAddress_nonneg hh) hfit hdata
      rw [handle_load_fitting hh hdata hfit]
      exact ⟨⟨fun _ => ⟨hdata, hfit⟩, fun _ => rfl⟩, fun _ => ⟨_, rfl, hloaded⟩,
        fun h => absurd h hbad, fun _ hlong => by omega⟩
    · rw [handle_load_long hh hdata (by omega)]
      exact ⟨⟨nofun, fun hgood => absurd hgood.2 hfit⟩, nofun, fun h => absurd h hbad,
        fun _ _ => ⟨rfl, rfl⟩⟩

def loadingAcrossFont : Host :=
  { machine := newMachine { memorySize := 0x60, loadAddress := 0x4E } }

def filling : List Int := List.replicate 17 7 ++ [9]

theorem load_exact_across_font :
    Reachable { memorySize := 0x60, loadAddress := 0x4E } loadingAcrossFont ∧
    (∃ bus, (loadingAcrossFont.handle (loadNumbers filling)).1 = withBus loadingAcrossFont bus ∧
      bus.peek 0x4E = .ok 7 ∧ bus.peek 0x5F = .ok 9 ∧
      bus.peek 0x4D = loadingAcrossFont.machine.core.bus.peek 0x4D) ∧
    (loadingAcrossFont.handle (loadNumbers (filling ++ [7]))).2.result =
      .error (.failure (.fault (.outOfMemory 19 0x4E 0x60))) ∧
    (loadingAcrossFont.handle (loadNumbers [7, 256])).2.result = .error (.image .notAByte) := by
  have hreachable : Reachable { memorySize := 0x60, loadAddress := 0x4E } loadingAcrossFont :=
    .built (built_with 0x60 0x4E (by decide) (by decide) (by decide)) _
  obtain ⟨hiff, hdone, -, -⟩ := load_exact hreachable filling
  obtain ⟨bus, hnext, hloaded⟩ := hdone (hiff.2 (by decide))
  have hlong := ((load_exact hreachable (filling ++ [7])).2.2.2 (by decide) (by decide)).1
  have hbad := ((load_exact hreachable [7, 256]).2.2.1 (by decide)).1
  exact ⟨hreachable, ⟨bus, hnext, hloaded.there 0 7 rfl, hloaded.there 17 9 rfl,
    hloaded.others 0x4D (by decide)⟩, hlong, hbad⟩

end Chip8.Proofs.Host.Loading
