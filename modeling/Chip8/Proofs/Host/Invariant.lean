import Chip8.Host
import Chip8.Proofs.Config.Reading
import Chip8.Proofs.Machine.Operations
import Chip8.Proofs.Memory.Contents

/-!
# The machines that a host meets

A machine built from accepted settings, and what requests make of it.  No request can break the
representation of the machine, whether it is carried out or refused, and the snapshots that the
host keeps hold registers that it may put back.
-/

namespace Chip8.Proofs.Host.Invariant

open Chip8.Memory
open Chip8.Proofs.Config.Reading (Valid valid_of_ofDocument)
open Chip8.Proofs.Memory.Layout Chip8.Proofs.Memory.Transfer Chip8.Proofs.Memory.Contents
open Chip8.Proofs.Instruction.Action (Housed)
open Chip8.Proofs.Instruction.Effect Chip8.Proofs.Instruction.Cycle
open Chip8.Proofs.Machine.Representation Chip8.Proofs.Machine.Operations

/-! ## Requests -/

section Perform

variable {h : Host} {m : Machine}

theorem perform_advance_error {failure : Failure} (heq : h.machine.advance = (m, .error failure)) :
    h.perform .advance = ({ h with machine := m }, { result := .error (.failure failure) }) := by
  simp only [Host.perform, heq]
  rfl

theorem perform_advance_ok {snapshot : Snapshot Registers}
    (heq : h.machine.advance = (m, .ok snapshot)) :
    h.perform .advance =
      ({ h with machine := m, snapshots := h.snapshots.push snapshot },
        { result := .ok (.snapshot snapshot) }) := by
  simp only [Host.perform, heq]
  rfl

theorem perform_load_error {value : Value} {e : Image.Error}
    (himage : Image.ofValue value = .error e) :
    h.perform (.load value) = (h, { result := .error (.image e) }) := by
  simp only [Host.perform, himage]

theorem perform_load_ok {value : Value} {image : Image}
    (himage : Image.ofValue value = .ok image) :
    h.perform (.load value) = h.withMachine (fun _ => .done) (h.machine.load image) := by
  simp only [Host.perform, himage]

theorem perform_restore_error {number : Int} {e : PlaceError}
    (hitem : itemAt h.snapshots number = .error e) :
    h.perform (.restore number) = (h, { result := .error (.noSnapshot e) }) := by
  simp only [Host.perform, hitem]

theorem perform_restore_ok {number : Int} {snapshot : Snapshot Registers}
    (hitem : itemAt h.snapshots number = .ok snapshot) :
    h.perform (.restore number) =
      ({ h with machine := h.machine.restore snapshot.pc snapshot.registers },
        { result := .ok .done }) := by
  simp only [Host.perform, hitem]

end Perform

/-! ## Operations of a host -/

def withStream (m : Machine) (random : Random.Stream) : Machine :=
  { m with core := { m.core with hardware := { m.core.hardware with random } } }

/-- A machine that is built from settings which some document gives.  Without a seed it may start
with any random stream.  Building refuses a memory that does not reach beyond the font. -/
structure Built (s : Settings) (m : Machine) : Prop where
  accepted : ∃ d notices, Settings.ofDocument d = (notices, .ok s)
  built : ∃ fresh random, s.build = .ok fresh ∧ (s.seed ≠ none → random = s.setup.stream) ∧
    m = withStream fresh random

/-- The requests that work the machine as a whole; the others reach into its parts. -/
def IsOperation : Request → Prop
  | .load _ | .advance | .tick | .setKey _ _ | .reset | .restore _ | .consumeTone
  | .addListener _ | .removeListener _ => True
  | _ => False

/-- A host that operations lead to from a newly built machine, whether they were carried out or
refused. -/
inductive Reachable (s : Settings) : Host → Prop
  | built {m : Machine} (h : Built s m) (script : Text → List ToneAction) :
      Reachable s { machine := m, script }
  | request {h : Host} {r : Request} (hh : Reachable s h) (hr : IsOperation r) :
      Reachable s (h.handle r).1

def replies (h : Host) : List Request → List Reply
  | [] => []
  | r :: rest => (h.handle r).2 :: replies (h.handle r).1 rest

theorem handleAll_append (h : Host) (first later : List Request) :
    h.handleAll (first ++ later) = (h.handleAll first).handleAll later := by
  induction first generalizing h with
  | nil => rfl
  | cons r rest ih => exact ih (h.handle r).1

theorem handleAll_take_succ {h : Host} {r : Request} {requests : List Request} {n : Nat}
    (hr : requests[n]? = some r) :
    h.handleAll (requests.take (n + 1)) = ((h.handleAll (requests.take n)).handle r).1 := by
  rw [List.take_add_one, hr, Option.toList_some, handleAll_append]
  rfl

/-- A machine of some settings with all values in their widths, under a host that keeps only
snapshots of such machines. -/
structure Kept (s : Settings) (h : Host) : Prop where
  setup_eq : h.machine.setup = s.setup
  fit : Fit s.setup s.memorySize h.machine.core
  snapshots : ∀ snapshot ∈ h.snapshots,
    IsWord snapshot.pc ∧ RegistersFit s.stackLimit snapshot.registers

structure Steady (s : Settings) (h : Host) : Prop extends Kept s h where
  taken : h.machine.core.bus.ignored = []

/-- What holds wherever programs go: as `Kept`, but the program counter may stand beyond sixteen
bits, and the cells of memory are those that the machine was built with. -/
structure Held (s : Settings) (h : Host) : Prop where
  setup_eq : h.machine.setup = s.setup
  fits : Wide h.machine.setup s.memorySize h.machine.core
  cells : SameCells (blank s.memorySize) h.machine.core.bus
  snapshots : ∀ snapshot ∈ h.snapshots,
    IsWord snapshot.pc ∧ RegistersFit s.stackLimit snapshot.registers

/-! ### Cells -/

section Cells

variable {m : Machine} {size : Int}

theorem sameCells_busAfter (form : Form) (opcode : Int) (c : MachineCore) :
    SameCells c.bus (busAfter form opcode c) := by
  cases form with
  | storeDecimal | storeRegisters => exact sameCells_writtenAll _ _ _
  | _ => exact ⟨rfl, rfl⟩

theorem sameCells_advance (h : Wide m.setup size m.core) :
    SameCells m.core.bus m.advance.1.core.bus := by
  rcases advance_cases h with ⟨f, log, -, heq⟩ | ⟨form, -, -, -, heq⟩
  · rw [heq]
    exact ⟨rfl, rfl⟩
  · rw [heq]
    have hafter := sameCells_busAfter form (wordAt m.core.bus m.core.pc) (started m.core)
    exact ⟨hafter.regions, hafter.devices⟩

theorem sameCells_load (h : Housed size m.core) (haddress : 0 ≤ m.setup.loadAddress)
    {image : Image} (hbytes : ∀ v ∈ image.toList, IsByte v) :
    SameCells m.core.bus (m.load image).1.core.bus := by
  rcases load_cases h haddress hbytes with ⟨-, heq⟩ | ⟨-, heq⟩
  · rw [heq]
    exact .refl _
  · rw [heq]
    exact sameCells_loadedAll _ _ _

theorem sameCells_setKey (m : Machine) (index : Value) (down : Bool) :
    SameCells m.core.bus (m.setKey index down).1.core.bus := by
  rcases setKey_cases m index down with heq | ⟨keypad, heq⟩
  · rw [heq]
    exact .refl _
  · rw [heq]
    exact .refl _

theorem sameCells_reset (h : Mapped size m.core.bus) :
    SameCells m.core.bus m.reset.1.core.bus := by
  rw [reset_eq h]
  exact sameCells_renewed h

end Cells

/-! ### Between requests -/

section Steady

variable {s : Settings} {h : Host} {m : Machine}

theorem wide_create {setup : Setup} {size : Int} {b : Bus} (hb : Mapped size b)
    (haddress : 0 ≤ setup.loadAddress) (hlimit : ∀ n, setup.stackLimit = some n → 0 ≤ n) :
    Wide setup size (Machine.create setup b).core :=
  ⟨⟨haddress, .inr rfl⟩, registersFit_new hlimit, hb, shaped_blank, size_eq hb⟩

theorem wide_withStream {setup : Setup} {size : Int} (hm : Wide setup size m.core)
    (random : Random.Stream) : Wide setup size (withStream m random).core :=
  { hm with }

theorem Built.valid (hm : Built s m) : Valid s := by
  obtain ⟨d, notices, hread⟩ := hm.accepted
  exact valid_of_ofDocument hread

theorem Built.loadAddress (hm : Built s m) : 0 ≤ s.loadAddress :=
  hm.valid.loadAddress.1

theorem Built.stackLimit (hm : Built s m) : ∀ n, s.stackLimit = some n → 0 ≤ n :=
  fun n hn => Int.le_of_lt (hm.valid.stackLimit n hn)

theorem Built.exists_bus (hm : Built s m) :
    ∃ b random, Bus.standard s.memorySize = .ok b ∧
      m = withStream (Machine.create s.setup b) random := by
  obtain ⟨fresh, random, hbuild, -, rfl⟩ := hm.built
  unfold Settings.build at hbuild
  cases hb : Bus.standard s.memorySize with
  | error e =>
      rw [hb] at hbuild
      cases hbuild
  | ok b =>
      rw [hb] at hbuild
      cases hbuild
      exact ⟨b, random, rfl, rfl⟩

theorem Built.held (hm : Built s m) (script : Text → List ToneAction) :
    Held s { machine := m, script } := by
  obtain ⟨b, random, hb, rfl⟩ := hm.exists_bus
  have hquiet := quiet_standard hb
  have hcells : SameCells (blank s.memorySize) b := by
    obtain ⟨-, rfl⟩ := standard_eq hb
    exact sameCells_withFont _
  have hwide : Wide s.setup s.memorySize (Machine.create s.setup b).core :=
    wide_create hquiet.mapped hm.loadAddress hm.stackLimit
  exact ⟨rfl, wide_withStream hwide random, hcells, by simp⟩

theorem Built.wide (hm : Built s m) : Wide m.setup s.memorySize m.core :=
  (hm.held fun _ => []).fits

theorem Built.setup_eq (hm : Built s m) : m.setup = s.setup :=
  (hm.held fun _ => []).setup_eq

theorem Built.taken (hm : Built s m) : m.core.bus.ignored = [] := by
  obtain ⟨b, random, hb, rfl⟩ := hm.exists_bus
  exact (quiet_standard hb).ignored

theorem Built.pc_eq (hm : Built s m) : m.core.pc = s.loadAddress := by
  obtain ⟨b, random, -, rfl⟩ := hm.exists_bus
  rfl

theorem build_eq {b : Bus} (hb : Bus.standard s.memorySize = .ok b) :
    s.build = .ok (Machine.create s.setup b) := by
  unfold Settings.build
  rw [hb]
  rfl

def newMachine (s : Settings) : Machine :=
  Machine.create s.setup (withFont (blank s.memorySize))

theorem built_newMachine {d : Document} {notices : List Settings.Notice}
    (hread : Settings.ofDocument d = (notices, .ok s)) (hgt : fontEnd < s.memorySize)
    (hroom : s.memorySize ≤ capacity) : Built s (newMachine s) := by
  have hfont := fontEnd_eq
  have hb := standard_ok hgt (checkCapacity_ok (by omega))
  exact ⟨⟨d, notices, hread⟩, _, s.setup.stream, build_eq hb, fun _ => rfl, rfl⟩

theorem built_with (size address : Int) (hgt : fontEnd < size) (hroom : size ≤ capacity)
    (h : InMemory size address) :
    Built { memorySize := size, loadAddress := address }
      (newMachine { memorySize := size, loadAddress := address }) := by
  have hread : Settings.ofDocument (.ofValue (.map
      [(.text "memory_size", .int size), (.text "load_address", .int address)])) =
      ([], Settings.check { memorySize := size, loadAddress := address }) := rfl
  have hcheck : Settings.check { memorySize := size, loadAddress := address } =
      .ok { memorySize := size, loadAddress := address } := by
    unfold Settings.check
    rw [if_neg (not_not_intro h)]
    rfl
  rw [hcheck] at hread
  exact built_newMachine hread hgt hroom

theorem exists_built_with (size address : Int) (hgt : fontEnd < size) (hroom : size ≤ capacity)
    (h : InMemory size address) :
    ∃ m, Built { memorySize := size, loadAddress := address } m :=
  ⟨_, built_with size address hgt hroom h⟩

theorem exists_built_at (address : Int) (h : InMemory standardSize address) :
    ∃ m, Built { loadAddress := address } m :=
  exists_built_with standardSize address (by decide) (by decide) h

theorem exists_standard : ∃ m, Built {} m :=
  exists_built_at programStart (by decide)

theorem Built.peek_above (hm : Built s m) {a : Int} (ha : InMemory s.memorySize a)
    (hfont : fontEnd ≤ a) : m.core.bus.peek a = .ok 0 := by
  obtain ⟨b, random, hb, rfl⟩ := hm.exists_bus
  obtain ⟨hgt, rfl⟩ := standard_eq hb
  have hfirst := peek_withFont_above (mapped_blank hgt) hfont
  exact hfirst.trans (peek_blank hgt ha hfont)

theorem Built.advance_first (hm : Built {} m) :
    ∃ after snapshot, m.advance = (after, .ok snapshot) ∧ snapshot.operation.opcode = 0 := by
  have hwide : Wide m.setup standardSize m.core := hm.wide
  have hpc : m.core.pc = programStart := hm.pc_eq
  have hzero : ∀ a, fontEnd ≤ a → a < standardSize → byteAt m.core.bus a = 0 := by
    intro a hfont hin
    have hmem : InMemory standardSize a := ⟨Int.le_trans (by decide) hfont, hin⟩
    have hpeek := hm.peek_above hmem hfont
    rw [peek_eq hwide.bus hmem] at hpeek
    exact Except.ok.inj hpeek
  have hword : wordAt m.core.bus m.core.pc = 0 := by
    rw [hpc, wordAt, hzero programStart (by decide) (by decide),
      hzero (programStart + 1) (by decide) (by decide)]
    rfl
  have hnop : Form.ofOpcode? (wordAt m.core.bus m.core.pc) = some .nop := by
    rw [hword]
    rfl
  have hin : m.core.pc + 1 < standardSize := by
    rw [hpc]
    decide
  exact ⟨_, _, advance_of_safe hwide hin hnop (by decide), hword⟩

theorem Kept.fits (hh : Kept s h) : Wide h.machine.setup s.memorySize h.machine.core :=
  hh.setup_eq ▸ hh.fit.wide

theorem Held.kept (hh : Held s h) (hword : s.loadAddress ≤ 0xFFFF) : Kept s h := by
  have hfit := hh.fits
  rw [hh.setup_eq] at hfit
  exact ⟨hh.setup_eq, hfit.fit hword, hh.snapshots⟩

theorem Held.loadAddress_eq (hh : Held s h) : h.machine.setup.loadAddress = s.loadAddress := by
  rw [hh.setup_eq]
  rfl

theorem Held.withMachine (hh : Held s h) (hsetup : m.setup = h.machine.setup)
    (hfit : Wide h.machine.setup s.memorySize m.core)
    (hcells : SameCells h.machine.core.bus m.core.bus) : Held s { h with machine := m } :=
  ⟨hsetup.trans hh.setup_eq, hsetup ▸ hfit, hh.cells.trans hcells, hh.snapshots⟩

theorem Held.advance (hh : Held s h) : Held s (h.perform .advance).1 := by
  have hwide := wide_advance hh.fits
  have hcells := sameCells_advance hh.fits
  rcases advance_cases hh.fits with ⟨f, log, -, heq⟩ | ⟨form, hfree, hin, hform, heq⟩
  · rw [heq] at hwide hcells
    rw [perform_advance_error heq]
    exact hh.withMachine rfl hwide hcells
  · rw [heq] at hwide hcells
    rw [perform_advance_ok heq]
    have hstepped := fit_stepped hh.fits hfree hin hform
    rw [hh.setup_eq] at hstepped
    have hheld : Held s { h with
        machine := { h.machine with core := stepped h.machine.setup form h.machine.core } } :=
      hh.withMachine rfl hwide hcells
    refine ⟨hheld.setup_eq, hheld.fits, hheld.cells, ?_⟩
    intro snapshot hmem
    rcases Array.mem_push.1 hmem with hold | rfl
    · exact hh.snapshots snapshot hold
    · rw [hh.setup_eq]
      exact ⟨hstepped.pc, hstepped.registers⟩

theorem mem_of_itemAt {α : Type} {items : Array α} {n : Int} {item : α}
    (h : itemAt items n = .ok item) : item ∈ items := by
  unfold itemAt at h
  cases hplace : place items.size n with
  | error e =>
      rw [hplace] at h
      cases h
  | ok i =>
      rw [hplace] at h
      cases h
      exact Array.getElem_mem _

/-- An operation keeps the representation, whether it is carried out or refused. -/
theorem Held.perform (hh : Held s h) (haddress : 0 ≤ s.loadAddress)
    (hlimit : ∀ n, s.stackLimit = some n → 0 ≤ n) {r : Request} (hr : IsOperation r) :
    Held s (h.perform r).1 := by
  have hfits := hh.fits
  have hload : 0 ≤ h.machine.setup.loadAddress := by
    rw [hh.loadAddress_eq]
    exact haddress
  cases r with
  | load value =>
      cases himage : Image.ofValue value with
      | error e =>
          rw [perform_load_error himage]
          exact hh
      | ok image =>
          rw [perform_load_ok himage]
          have hbytes := isByte_of_ofValue himage
          exact hh.withMachine (setup_load _ _) (wide_load hfits hload hbytes)
            (sameCells_load hfits.housed hload hbytes)
  | advance => exact hh.advance
  | tick =>
      have hwide := wide_tick hfits h.script
      exact hh.withMachine (setup_tick _ _) hwide (core_tick _ _ ▸ .refl _)
  | setKey index down =>
      exact hh.withMachine (setup_setKey _ _ _) (wide_setKey hfits index down)
        (sameCells_setKey _ index down)
  | reset =>
      have hlimit' : ∀ n, h.machine.setup.stackLimit = some n → 0 ≤ n := by
        rw [hh.setup_eq]
        exact hlimit
      exact hh.withMachine (setup_reset _) (wide_reset hfits hload hlimit')
        (sameCells_reset hfits.bus)
  | restore number =>
      cases hitem : itemAt h.snapshots number with
      | error e =>
          rw [perform_restore_error hitem]
          exact hh
      | ok snapshot =>
          rw [perform_restore_ok hitem]
          obtain ⟨hpc, hregisters⟩ := hh.snapshots snapshot (mem_of_itemAt hitem)
          have hregisters' : RegistersFit h.machine.setup.stackLimit snapshot.registers := by
            rw [hh.setup_eq]
            exact hregisters
          exact hh.withMachine rfl
            { hfits with pc := ⟨hpc.1, .inl hpc.2⟩, registers := hregisters' } (.refl _)
  | consumeTone => exact hh.withMachine rfl hfits (.refl _)
  | addListener name | removeListener name => exact hh.withMachine rfl hfits (.refl _)
  | _ => exact hr.elim

theorem Held.taken (hh : Held s h) :
    Held s { h with machine := h.machine.takeIgnored.1 } :=
  hh.withMachine rfl { hh.fits with bus := hh.fits.bus.congr rfl rfl } ⟨rfl, rfl⟩

theorem Held.handle (hh : Held s h) (haddress : 0 ≤ s.loadAddress)
    (hlimit : ∀ n, s.stackLimit = some n → 0 ≤ n) {r : Request} (hr : IsOperation r) :
    Held s (h.handle r).1 :=
  (hh.perform haddress hlimit hr).taken

theorem Reachable.exists_built (hh : Reachable s h) : ∃ m, Built s m := by
  induction hh with
  | built hm script => exact ⟨_, hm⟩
  | request hh hr ih => exact ih

theorem Reachable.handleAll (hh : Reachable s h) {requests : List Request}
    (hr : ∀ r ∈ requests, IsOperation r) : Reachable s (h.handleAll requests) := by
  induction requests generalizing h with
  | nil => exact hh
  | cons r rest ih =>
      obtain ⟨hfirst, hlater⟩ := List.forall_mem_cons.1 hr
      exact ih (hh.request hfirst) hlater

theorem reachable_small {requests : List Request} (hr : ∀ r ∈ requests, IsOperation r) :
    Reachable { memorySize := 0x60, loadAddress := 0x50 }
      (Host.handleAll { machine := newMachine { memorySize := 0x60, loadAddress := 0x50 } }
        requests) :=
  (Reachable.built (built_with 0x60 0x50 (by decide) (by decide) (by decide)) _).handleAll hr

/-- A machine in front of `F155`, with the index register at the last byte of the font. -/
def storing : Host :=
  Host.handleAll { machine := newMachine { memorySize := 0x60, loadAddress := 0x50 } }
    [.load (.list [.int 0x61, .int 0x07, .int 0xA0, .int 0x4F, .int 0xF1, .int 0x55]),
      .advance, .advance]

theorem reachable_storing : Reachable { memorySize := 0x60, loadAddress := 0x50 } storing :=
  reachable_small (by simp [IsOperation])

theorem advance_storing :
    ∃ after snapshot, storing.machine.advance = (after, .ok snapshot) ∧
      snapshot.operation = .ofForm .storeRegisters 0xF155 ∧
      snapshot.accesses = [⟨0x54, 0xF1, .read⟩, ⟨0x55, 0x55, .read⟩, ⟨0x4F, 0, .write⟩,
        ⟨0x50, 7, .write⟩] := by
  have hoperation : storing.machine.advance.2.toOption.map (fun s => s.operation) =
      some (.ofForm .storeRegisters 0xF155) := by decide +kernel
  have haccesses : storing.machine.advance.2.toOption.map (fun s => s.accesses) =
      some [⟨0x54, 0xF1, .read⟩, ⟨0x55, 0x55, .read⟩, ⟨0x4F, 0, .write⟩, ⟨0x50, 7, .write⟩] := by
    decide +kernel
  cases heq : storing.machine.advance with
  | mk after result =>
      rw [heq] at hoperation haccesses
      cases result with
      | error e => cases hoperation
      | ok snapshot =>
          exact ⟨after, snapshot, rfl, Option.some.inj hoperation, Option.some.inj haccesses⟩

theorem Reachable.held (hh : Reachable s h) : Held s h := by
  obtain ⟨m, hm⟩ := hh.exists_built
  induction hh with
  | built hm script => exact hm.held script
  | request hh hr ih => exact ih.handle hm.loadAddress hm.stackLimit hr

theorem Reachable.taken (hh : Reachable s h) : h.machine.core.bus.ignored = [] := by
  cases hh with
  | built hm script => exact hm.taken
  | request hh hr => rfl

theorem Reachable.steady (hh : Reachable s h) (hword : s.loadAddress ≤ 0xFFFF) :
    Steady s h :=
  ⟨hh.held.kept hword, hh.taken⟩

theorem Built.steady (hm : Built s m) (hword : s.loadAddress ≤ 0xFFFF)
    (script : Text → List ToneAction) :
    Steady s { machine := m, script } :=
  (Reachable.built hm script).steady hword

end Steady

/-! ## The representation -/

/-- The representation of a machine, as a host can look at it: so many values of every kind, each
within its width. -/
structure Represents (s : Settings) (m : Machine) : Prop where
  setup_eq : m.setup = s.setup
  registerCount : m.core.registers.v.toList.length = 16
  registers : ∀ value ∈ m.core.registers.v.toList, 0 ≤ value ∧ value ≤ 255
  index : 0 ≤ m.core.registers.index ∧ m.core.registers.index ≤ 0xFFFF
  pc : 0 ≤ m.core.pc ∧ m.core.pc ≤ 0xFFFF
  depth : m.core.registers.depth = m.core.registers.stack.length
  stackLimit : ∀ n, s.stackLimit = some n → (m.core.registers.stack.length : Int) ≤ n
  stack : ∀ address ∈ m.core.registers.stack, 0 ≤ address ∧ address ≤ 0xFFFF
  delay : 0 ≤ m.core.registers.delay ∧ m.core.registers.delay ≤ 255
  sound : 0 ≤ m.core.registers.sound ∧ m.core.registers.sound ≤ 255
  width : m.core.hardware.display.width = 64
  height : m.core.hardware.display.height = 32
  pixels : m.core.hardware.display.pixels.size = 64 * 32
  keys : m.core.hardware.keypad.keys.toList.length = 16
  size : m.core.bus.size = s.memorySize
  memorySize : m.core.hardware.memorySize = s.memorySize
  memory : ∀ address, 0 ≤ address → address < s.memorySize →
    ∃ byte, m.core.bus.peek address = .ok byte ∧ 0 ≤ byte ∧ byte ≤ 255

theorem represents_of_fit {s : Settings} {m : Machine} (hsetup : m.setup = s.setup)
    (hm : Fit s.setup s.memorySize m.core) : Represents s m where
  setup_eq := hsetup
  registerCount := Vector.length_toList
  registers := by
    intro value hmem
    obtain ⟨n, hn, rfl⟩ := List.mem_iff_getElem.1 hmem
    exact hm.registers.bytes ⟨n, by simpa using hn⟩
  index := hm.registers.index
  pc := hm.pc
  depth := hm.registers.depth
  stackLimit := hm.registers.limited
  stack := hm.registers.stack
  delay := hm.registers.delay
  sound := hm.registers.sound
  width := hm.display.width_eq
  height := hm.display.height_eq
  pixels := hm.display.size_eq
  keys := Vector.length_toList
  size := size_eq hm.bus
  memorySize := hm.memorySize
  memory := fun address hlow hhigh =>
    ⟨_, peek_eq hm.bus ⟨hlow, hhigh⟩, isByte_byteAt hm.bus address⟩

/-- No sequence of operations can break the representation of a machine. -/
theorem reachable_represents {s : Settings} {h : Host} (hh : Reachable s h)
    (hword : s.loadAddress ≤ 0xFFFF) : Represents s h.machine := by
  have hkept := (hh.steady hword).toKept
  exact represents_of_fit hkept.setup_eq hkept.fit

/-- The bounds after two registers were stored, one of them over the font, where it is not
written. -/
theorem represents_after_store :
    Reachable { memorySize := 0x60, loadAddress := 0x50 } (storing.handle .advance).1 ∧
    (0x50 : Int) ≤ 0xFFFF ∧
    Represents { memorySize := 0x60, loadAddress := 0x50 } (storing.handle .advance).1.machine ∧
    ((storing.handle .advance).1.machine.core.bus.peek 0x4F).toOption = some 0x80 ∧
    ((storing.handle .advance).1.machine.core.bus.peek 0x50).toOption = some 7 := by
  have hreachable := reachable_storing.request (r := .advance) trivial
  exact ⟨hreachable, by decide, reachable_represents hreachable (by decide), by decide +kernel,
    by decide +kernel⟩

end Chip8.Proofs.Host.Invariant
