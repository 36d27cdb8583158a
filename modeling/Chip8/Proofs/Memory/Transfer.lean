import Chip8.Proofs.Memory.Layout

/-!
# Consecutive bytes

Reading, writing, loading and clearing whole ranges of the standard memory.  From these it follows
that a new machine has the standard memory, and has it still after whatever happens to it.
-/

namespace Chip8.Proofs.Memory.Transfer

open Chip8.Memory Chip8.Proofs.Memory.Layout

/-! ## Reading and writing -/

def bytesFrom (b : Bus) (address : Int) : Nat → List Int
  | 0 => []
  | count + 1 => byteAt b address :: bytesFrom b (address + 1) count

def readLog (b : Bus) (address : Int) : Nat → List Access
  | 0 => []
  | count + 1 => ⟨address, byteAt b address, .read⟩ :: readLog b (address + 1) count

def logged (b : Bus) (accesses : List Access) : Bus :=
  { b with log := b.log ++ accesses }

def writtenAll (b : Bus) (address : Int) : List Int → Bus
  | [] => b
  | value :: rest => writtenAll (b.written address value) (address + 1) rest

theorem length_bytesFrom (b : Bus) (address : Int) (count : Nat) :
    (bytesFrom b address count).length = count := by
  induction count generalizing address with
  | zero => rfl
  | succ count ih => rw [bytesFrom, List.length_cons, ih]

theorem getD_bytesFrom (b : Bus) (address : Int) {count i : Nat} (hi : i < count) :
    (bytesFrom b address count).getD i 0 = byteAt b (address + i) := by
  induction count generalizing address i with
  | zero => omega
  | succ count ih =>
      cases i with
      | zero => rw [bytesFrom, List.getD_cons_zero, Int.natCast_zero, Int.add_zero]
      | succ i =>
          have hshift : address + ((i + 1 : Nat) : Int) = address + 1 + i := by omega
          rw [bytesFrom, List.getD_cons_succ, ih (address + 1) (by omega), hshift]

@[simp] theorem byteAt_logged (b : Bus) (accesses : List Access) :
    byteAt (logged b accesses) = byteAt b :=
  byteAt_congr rfl rfl

theorem mapped_logged {size : Int} {b : Bus} (h : Mapped size b) (accesses : List Access) :
    Mapped size (logged b accesses) :=
  h.congr rfl rfl

@[simp] theorem logged_nil (b : Bus) : logged b [] = b := by
  simp [logged]

@[simp] theorem logged_logged (b : Bus) (first second : List Access) :
    logged (logged b first) second = logged b (first ++ second) := by
  simp [logged]

@[simp] theorem bytesFrom_logged (b : Bus) (accesses : List Access) (address : Int)
    (count : Nat) : bytesFrom (logged b accesses) address count = bytesFrom b address count := by
  induction count generalizing address with
  | zero => rfl
  | succ count ih => simp [bytesFrom, ih]

@[simp] theorem readLog_logged (b : Bus) (accesses : List Access) (address : Int)
    (count : Nat) : readLog (logged b accesses) address count = readLog b address count := by
  induction count generalizing address with
  | zero => rfl
  | succ count ih => simp [readLog, ih]

theorem mapped_writtenAll {size : Int} (values : List Int) {b : Bus} {a : Int}
    (h : Mapped size b) (ha : 0 ≤ a) (hfit : a + values.length ≤ size) :
    Mapped size (writtenAll b a values) := by
  induction values generalizing b a with
  | nil => exact h
  | cons value rest ih =>
      rw [List.length_cons] at hfit
      exact ih (mapped_written h (by omega) value) (by omega) (by omega)

/-! ## Loading -/

/-- Another bus over the same memory, with the same accesses and notices waiting. -/
structure Quiet (size : Int) (before after : Bus) : Prop where
  mapped : Mapped size after
  log : after.log = before.log
  ignored : after.ignored = before.ignored

theorem Quiet.trans {size : Int} {a b c : Bus} (hab : Quiet size a b) (hbc : Quiet size b c) :
    Quiet size a c :=
  ⟨hbc.mapped, hbc.log.trans hab.log, hbc.ignored.trans hab.ignored⟩

theorem quiet_onDevice {size : Int} {b : Bus} (h : Mapped size b) (number : Nat)
    (hn : number < 2) {change : Device → Device}
    (hc : ∀ kind span d, HasCells kind span d → HasCells kind span (change d)) :
    Quiet size b (onDevice b number change) :=
  ⟨mapped_onDevice h hn hc, rfl, rfl⟩

theorem quiet_loaded {size : Int} {b : Bus} (h : Mapped size b) {a : Int}
    (ha : InMemory size a) (value : Int) : Quiet size b (b.loaded a value) := by
  rw [loaded_eq h ha]
  exact quiet_onDevice h _ (device_lt _ _) fun _ _ _ hd => hd.store _ _

def loadedAll (b : Bus) (address : Int) : List Int → Bus
  | [] => b
  | value :: rest => loadedAll (b.loaded address value) (address + 1) rest

theorem quiet_loadedAll {size : Int} (values : List Int) {b : Bus} {a : Int}
    (h : Mapped size b) (ha : 0 ≤ a) (hfit : a + values.length ≤ size) :
    Quiet size b (loadedAll b a values) := by
  induction values generalizing b a with
  | nil => exact ⟨h, rfl, rfl⟩
  | cons value rest ih =>
      rw [List.length_cons] at hfit
      have hone := quiet_loaded h (a := a) (by omega) value
      exact hone.trans (ih hone.mapped (by omega) (by omega))

theorem loadAll_eq {size : Int} (values : List Int) {b : Bus} {a : Int} (h : Mapped size b)
    (ha : 0 ≤ a) (hfit : a + values.length ≤ size) (hv : ∀ v ∈ values, IsByte v) :
    b.loadAll a values = (loadedAll b a values, none) := by
  induction values generalizing b a with
  | nil => rfl
  | cons value rest ih =>
      rw [List.length_cons] at hfit
      have hin : InMemory size a := by omega
      have hone := quiet_loaded h hin value
      simp only [Bus.loadAll, busLoadError?_eq_none h hin (hv value List.mem_cons_self)]
      exact ih hone.mapped (by omega) (by omega) fun v hmem => hv v (List.mem_cons_of_mem _ hmem)

theorem isByte_of_mem_font : ∀ v ∈ font, IsByte v := by
  decide

theorem length_font : font.length = 80 := rfl

@[irreducible] def withFont (b : Bus) : Bus := loadedAll b 0 font

section Font

variable {size : Int} {b : Bus}

theorem font_fits (h : Mapped size b) : 0 + (font.length : Int) ≤ size := by
  have hgt := h.size_gt
  rw [fontEnd_eq] at hgt
  rw [length_font]
  omega

theorem loadFont_eq (h : Mapped size b) : b.loadFont = (withFont b, none) := by
  unfold withFont
  exact loadAll_eq font h (Int.le_refl 0) (font_fits h) isByte_of_mem_font

theorem quiet_font (h : Mapped size b) : Quiet size b (withFont b) := by
  unfold withFont
  exact quiet_loadedAll font h (Int.le_refl 0) (font_fits h)

end Font

/-! ## New memory -/

def withCells (b : Bus) (kind : CellKind) (first last : Int) : Bus :=
  let span := last - first + 1
  { b with
    devices := b.devices.push (.cells kind (.int span) (Array.replicate span.toNat 0))
    regions := b.regions ++ [⟨first, last, b.devices.size⟩] }

theorem create_eq {kind : CellKind} {count : Int} {d : Device}
    (h : Device.create (.cells kind) (.int count) = .ok d) :
    d = .cells kind (.int count) (Array.replicate count.toNat 0) := by
  simp only [Device.create, Value.int?, Device.createCells] at h
  split at h
  · cases h
  · split at h <;> cases h
    rfl

theorem attach_new (b : Bus) (kind : CellKind) {first last : Int} (hfirst : 0 ≤ first)
    (hlast : first ≤ last) :
    let span := last - first + 1
    let added := b.addDevice (.cells kind (.int span) (Array.replicate span.toNat 0))
    added.1.attach first last (.device added.2) = .ok (withCells b kind first last) := by
  have hspan : (((last - first + 1).toNat : Nat) : Int) = last - first + 1 := by omega
  simp only [Bus.addDevice, Bus.attach, Bus.device, Array.getD_eq_getD_getElem?,
    Array.getElem?_push_size, Option.getD_some, Array.size_replicate, hspan, if_true]
  rw [if_pos ⟨hfirst, hlast⟩]
  rfl

/-- A range of cells is either refused or attached as new cells. -/
theorem ofRanges_cells (ranges : List (CellKind × Int × Int)) {b : Bus}
    (hr : ∀ r ∈ ranges, 0 ≤ r.2.1 ∧ r.2.1 ≤ r.2.2)
    (h : Bus.ofRanges (ranges.map fun r => (.cells r.1, r.2)) = .ok b) :
    b = ranges.foldl (fun b r => withCells b r.1 r.2.1 r.2.2) {} := by
  revert h
  unfold Bus.ofRanges
  generalize ({} : Bus) = start
  induction ranges generalizing start with
  | nil =>
      rintro ⟨⟩
      rfl
  | cons r rest ih =>
      intro h
      obtain ⟨hfirst, hlast⟩ := hr r List.mem_cons_self
      simp only [List.map_cons, List.foldlM_cons, bind, Except.bind] at h
      cases hd : Device.create (.cells r.1) (.int (r.2.2 - r.2.1 + 1)) with
      | error e => simp [hd] at h
      | ok d =>
          have hnew := attach_new start r.1 hfirst hlast
          rw [create_eq hd] at hd
          simp only [hd] at h
          rw [hnew] at h
          exact ih (fun s hs => hr s (List.mem_cons_of_mem _ hs)) _ h

/-- The standard memory before the font is loaded. -/
def blank (size : Int) : Bus :=
  withCells (withCells {} .rom 0 (fontEnd - 1)) .ram fontEnd (size - 1)

theorem mapped_blank {size : Int} (h : fontEnd < size) : Mapped size (blank size) := by
  refine ⟨h, rfl, rfl, ⟨_, _, rfl, by simp [fontEnd]⟩, ⟨_, _, rfl, ?_⟩⟩
  simp only [Array.size_replicate]
  omega

/-- A standard memory reaches beyond the font, which is all that was loaded into it. -/
theorem standard_eq {size : Int} {b : Bus} (h : Bus.standard size = .ok b) :
    fontEnd < size ∧ b = withFont (blank size) := by
  unfold Bus.standard at h
  split at h
  · cases h
  · rename_i hsize
    have hgt : fontEnd < size := by omega
    simp only [bind, Except.bind] at h
    split at h
    · cases h
    · rename_i start hstart
      have hblank : start = blank size :=
        ofRanges_cells [(.rom, 0, fontEnd - 1), (.ram, fontEnd, size - 1)]
          (by simp [fontEnd]; rw [fontEnd_eq] at hgt; omega) hstart
      rw [hblank, loadFont_eq (mapped_blank hgt)] at h
      cases h
      exact ⟨hgt, rfl⟩

theorem quiet_standard {size : Int} {b : Bus} (h : Bus.standard size = .ok b) :
    Quiet size (blank size) b := by
  obtain ⟨hgt, rfl⟩ := standard_eq h
  exact quiet_font (mapped_blank hgt)

theorem checkCapacity_ok {count : Nat} (h : count < capacity) : checkCapacity count = .ok () := by
  have hlimit : capacity < countLimit := by decide
  unfold checkCapacity
  rw [if_neg (by omega), if_neg (by omega)]

theorem create_ok (kind : CellKind) {count : Int} (hpos : 0 < count)
    (hroom : checkCapacity count.toNat = .ok ()) :
    Device.create (.cells kind) (.int count) =
      .ok (.cells kind (.int count) (Array.replicate count.toNat 0)) := by
  simp only [Device.create, Value.int?, Device.createCells]
  rw [if_neg (by omega), hroom]

theorem create_error (kind : CellKind) {count : Int} (hpos : 0 < count) {e : CapacityError}
    (hfull : checkCapacity count.toNat = .error e) :
    Device.create (.cells kind) (.int count) = .error (.tooLarge e) := by
  simp only [Device.create, Value.int?, Device.createCells]
  rw [if_neg (by omega), hfull]

section Standard

variable {size : Int}

/-- The font always gets its cells; what comes of the ranges hangs on the cells above it. -/
theorem ofRanges_standard (hgt : fontEnd < size) :
    Bus.ofRanges [(.cells .rom, 0, fontEnd - 1), (.cells .ram, fontEnd, size - 1)] =
      (Device.create (.cells .ram) (.int (size - fontEnd))).map fun _ => blank size := by
  have hfont := fontEnd_eq
  have hroom : (fontEnd - 1 - 0 + 1).toNat < capacity := by decide
  have hspan : size - 1 - fontEnd + 1 = size - fontEnd := by omega
  simp only [Bus.ofRanges, List.foldlM_cons, List.foldlM_nil, bind, Except.bind]
  rw [create_ok .rom (by omega) (checkCapacity_ok hroom)]
  dsimp only
  rw [attach_new _ _ (by omega) (by omega), hspan]
  cases hram : Device.create (.cells .ram) (.int (size - fontEnd)) with
  | error e => rfl
  | ok d =>
      have hlow : 0 ≤ fontEnd := by omega
      have hhigh : fontEnd ≤ size - 1 := by omega
      have hattach := attach_new (withCells {} .rom 0 (fontEnd - 1)) .ram hlow hhigh
      rw [hspan] at hattach
      rw [create_eq hram]
      dsimp only
      rw [hattach]
      rfl

theorem standard_small (h : size ≤ fontEnd) : Bus.standard size = .error (.noRoom size) := by
  unfold Bus.standard
  rw [if_pos h]

theorem standard_ok (hgt : fontEnd < size)
    (hroom : checkCapacity (size - fontEnd).toNat = .ok ()) :
    Bus.standard size = .ok (withFont (blank size)) := by
  have hload := loadFont_eq (mapped_blank hgt)
  unfold Bus.standard
  rw [if_neg (by omega), ofRanges_standard hgt, create_ok .ram (by omega) hroom]
  simp only [Except.map, bind, Except.bind, hload]

theorem standard_error (hgt : fontEnd < size) {e : CapacityError}
    (hfull : checkCapacity (size - fontEnd).toNat = .error e) :
    Bus.standard size = .error (.tooLarge e) := by
  unfold Bus.standard
  rw [if_neg (by omega), ofRanges_standard hgt, create_error .ram (by omega) hfull]
  rfl

end Standard

/-! ## Memory after a reset -/

theorem HasCells.clearWritable {kind : CellKind} {span : Int} {d : Device}
    (hd : HasCells kind span d) : HasCells kind span d.clearWritable := by
  obtain ⟨given, bytes, rfl, hsize⟩ := hd
  cases kind
  · exact ⟨given, _, rfl, by simpa using hsize⟩
  · exact ⟨given, bytes, rfl, hsize⟩

theorem clearWritable_eq {size : Int} {b : Bus} (h : Mapped size b) :
    b.clearWritable = onDevice (onDevice b 0 .clearWritable) 1 .clearWritable := by
  unfold Bus.clearWritable
  rw [h.regions]
  rfl

theorem quiet_clearWritable {size : Int} {b : Bus} (h : Mapped size b) :
    Quiet size b b.clearWritable := by
  have hone := quiet_onDevice h 0 (by omega) fun _ _ _ hd =>
    HasCells.clearWritable hd
  have htwo := quiet_onDevice hone.mapped 1 (by omega) fun _ _ _ hd =>
    HasCells.clearWritable hd
  rw [clearWritable_eq h]
  exact hone.trans htwo

def renewed (b : Bus) : Bus :=
  { withFont b.clearWritable with log := [] }

theorem mapped_renewed {size : Int} {b : Bus} (h : Mapped size b) : Mapped size (renewed b) :=
  (quiet_font (quiet_clearWritable h).mapped).mapped.congr rfl rfl

theorem ignored_renewed {size : Int} {b : Bus} (h : Mapped size b) :
    (renewed b).ignored = b.ignored := by
  have hclear := quiet_clearWritable h
  exact (hclear.trans (quiet_font hclear.mapped)).ignored

end Chip8.Proofs.Memory.Transfer
