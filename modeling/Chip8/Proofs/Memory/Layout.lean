import Chip8.Memory.Map

/-!
# The standard memory as a row of bytes

The bus of a machine maps two devices: the read-only font and the writable rest.  This module
gives that layout a pointwise view, the byte at an address, and says what reading, writing and
loading do to the view.  No address below the size is unmapped, so nothing here can fail.
-/

namespace Chip8.Proofs.Memory.Layout

open Chip8.Memory

abbrev IsByte (z : Int) : Prop := 0 ≤ z ∧ z ≤ 0xFF

abbrev IsWord (z : Int) : Prop := 0 ≤ z ∧ z ≤ 0xFFFF

abbrev InMemory (size address : Int) : Prop := 0 ≤ address ∧ address < size

/-- The byte at an address, or zero where there is none. -/
def byteAt (b : Bus) (address : Int) : Int :=
  (b.peek address).toOption.getD 0

/-- The region that serves an address of a memory of some size. -/
def home (size address : Int) : Region :=
  if address < fontEnd then ⟨0, fontEnd - 1, 0⟩ else ⟨fontEnd, size - 1, 1⟩

def HasCells (kind : CellKind) (span : Int) (d : Device) : Prop :=
  ∃ given bytes, d = .cells kind given bytes ∧ (bytes.size : Int) = span

/-- A bus with the font in read-only cells and writable cells above it. -/
structure Mapped (size : Int) (b : Bus) : Prop where
  size_gt : fontEnd < size
  regions : b.regions = [⟨0, fontEnd - 1, 0⟩, ⟨fontEnd, size - 1, 1⟩]
  count : b.devices.size = 2
  font : HasCells .rom fontEnd (b.device 0)
  rest : HasCells .ram (size - fontEnd) (b.device 1)

theorem fontEnd_eq : fontEnd = 80 := rfl

/-! ## Cells -/

section Cells

variable {kind : CellKind} {span : Int} {d : Device}

theorem HasCells.store (hd : HasCells kind span d) (offset value : Int) :
    HasCells kind span (d.store offset value) := by
  obtain ⟨given, bytes, rfl, hsize⟩ := hd
  exact ⟨given, _, rfl, by simpa using hsize⟩

theorem HasCells.written (hd : HasCells kind span d) (offset value : Int) :
    HasCells kind span (d.written offset value) := by
  unfold Device.written
  split
  · exact hd
  · exact hd.store offset value

theorem isReadOnly_iff (hd : HasCells kind span d) : d.isReadOnly = true ↔ kind = .rom := by
  obtain ⟨given, bytes, rfl, -⟩ := hd
  cases kind <;> simp [Device.isReadOnly]

theorem offsetError?_eq_none (hd : HasCells kind span d) {offset : Int}
    (ho : InMemory span offset) : d.offsetError? offset = none := by
  obtain ⟨given, bytes, rfl, hsize⟩ := hd
  simp only [Device.offsetError?]
  rw [if_pos (by omega)]

theorem loadError?_eq_none (hd : HasCells kind span d) {offset value : Int}
    (ho : InMemory span offset) (hv : IsByte value) : d.loadError? offset value = none := by
  unfold Device.loadError?
  rw [offsetError?_eq_none hd ho, Option.none_or]
  obtain ⟨given, bytes, rfl, -⟩ := hd
  simp only [Device.valueError?]
  rw [if_pos hv]

theorem writeError?_eq_none (hd : HasCells kind span d) {offset value : Int}
    (ho : InMemory span offset) (hv : IsByte value) : d.writeError? offset value = none := by
  unfold Device.writeError?
  split
  · exact offsetError?_eq_none hd ho
  · exact loadError?_eq_none hd ho hv

theorem isByte_cell (hd : HasCells kind span d) (offset : Int) : IsByte (d.byteAt offset) := by
  obtain ⟨given, bytes, rfl, -⟩ := hd
  have := (bytes.getD offset.toNat 0).toNat_lt
  simp only [Device.byteAt]
  omega

theorem cell_store (hd : HasCells kind span d) {offset other value : Int}
    (ho : InMemory span offset) (ho' : 0 ≤ other) (hv : IsByte value) :
    (d.store offset value).byteAt other = if other = offset then value else d.byteAt other := by
  obtain ⟨given, bytes, rfl, hsize⟩ := hd
  simp only [Device.store, Device.byteAt, Array.getD_eq_getD_getElem?,
    Array.getElem?_setIfInBounds]
  by_cases heq : other = offset
  · subst heq
    rw [if_pos rfl, if_pos rfl, if_pos (by omega)]
    simp only [Option.getD_some, UInt8.toNat_ofNat']
    omega
  · rw [if_neg (by omega), if_neg heq]

theorem cell_written (hd : HasCells kind span d) {offset other value : Int}
    (ho : InMemory span offset) (ho' : 0 ≤ other) (hv : IsByte value) :
    (d.written offset value).byteAt other =
      if other = offset ∧ kind ≠ .rom then value else d.byteAt other := by
  unfold Device.written
  by_cases hk : kind = .rom
  · rw [if_pos ((isReadOnly_iff hd).2 hk), if_neg (by simp [hk])]
  · rw [if_neg (by rwa [isReadOnly_iff hd]), cell_store hd ho ho' hv]
    simp [hk]

end Cells

/-! ## The region of an address -/

theorem size_eq {size : Int} {b : Bus} (h : Mapped size b) : b.size = size := by
  have hgt := h.size_gt
  rw [fontEnd_eq] at hgt
  simp only [Bus.size, h.regions, List.foldl_cons, List.foldl_nil, fontEnd_eq]
  omega

theorem region?_eq_home {size : Int} {b : Bus} (h : Mapped size b) {a : Int}
    (ha : InMemory size a) : b.region? a = some (home size a) := by
  have hf := fontEnd_eq
  simp only [Bus.region?, h.regions, home]
  by_cases hlt : a < fontEnd
  · rw [if_pos hlt]
    apply List.find?_cons_of_pos
    simp only [Region.contains, Bool.and_eq_true, decide_eq_true_eq]
    omega
  · rw [if_neg hlt, List.find?_cons_of_neg, List.find?_cons_of_pos]
    all_goals
      simp only [Region.contains, Bool.and_eq_true, decide_eq_true_eq]
      omega

theorem region?_eq_none {size : Int} {b : Bus} (h : Mapped size b) {a : Int}
    (ha : ¬InMemory size a) : b.region? a = none := by
  have hf := fontEnd_eq
  have hgt := h.size_gt
  simp only [Bus.region?, h.regions, List.find?_eq_none, List.mem_cons, List.not_mem_nil,
    or_false, forall_eq_or_imp, forall_eq, Region.contains, Bool.and_eq_true, decide_eq_true_eq]
  omega

/-- The device that serves an address has a cell for it, which is read-only below the end of the
font and nowhere else. -/
theorem exists_cells {size : Int} {b : Bus} (h : Mapped size b) {a : Int}
    (ha : InMemory size a) :
    ∃ kind span, HasCells kind span (b.device (home size a).device) ∧
      InMemory span (a - (home size a).first) ∧ (kind ≠ .rom ↔ fontEnd ≤ a) := by
  unfold home
  by_cases hlt : a < fontEnd
  · rw [if_pos hlt]
    exact ⟨.rom, _, h.font, by dsimp only; omega, by simp; omega⟩
  · rw [if_neg hlt]
    exact ⟨.ram, _, h.rest, by dsimp only; omega, by simp; omega⟩

theorem home_eq_of_device_eq {size a other : Int}
    (h : (home size other).device = (home size a).device) : home size other = home size a := by
  revert h
  unfold home
  split <;> split <;> simp

/-! ## The byte at an address -/

theorem byteAt_congr {b other : Bus} (hr : other.regions = b.regions)
    (hd : other.devices = b.devices) : byteAt other = byteAt b := by
  funext a
  simp only [byteAt, Bus.peek, Bus.region?, Bus.device, hr, hd]

theorem Mapped.congr {size : Int} {b other : Bus} (h : Mapped size b)
    (hr : other.regions = b.regions) (hd : other.devices = b.devices) : Mapped size other := by
  refine ⟨h.size_gt, hr.trans h.regions, hd ▸ h.count, ?_, ?_⟩
  · simpa only [Bus.device, hd] using h.font
  · simpa only [Bus.device, hd] using h.rest

theorem peek_eq_home {size : Int} {b : Bus} (h : Mapped size b) {a : Int}
    (ha : InMemory size a) :
    b.peek a =
      .ok ((b.device (home size a).device).byteAt (a - (home size a).first)) := by
  obtain ⟨kind, span, hd, ho, -⟩ := exists_cells h ha
  simp only [Bus.peek, region?_eq_home h ha, Device.read, offsetError?_eq_none hd ho]

theorem byteAt_eq_home {size : Int} {b : Bus} (h : Mapped size b) {a : Int}
    (ha : InMemory size a) :
    byteAt b a = (b.device (home size a).device).byteAt (a - (home size a).first) := by
  rw [byteAt, peek_eq_home h ha]
  rfl

theorem byteAt_outside {size : Int} {b : Bus} (h : Mapped size b) {a : Int}
    (ha : ¬InMemory size a) : byteAt b a = 0 := by
  simp [byteAt, Bus.peek, region?_eq_none h ha, Except.toOption]

theorem peek_eq {size : Int} {b : Bus} (h : Mapped size b) {a : Int} (ha : InMemory size a) :
    b.peek a = .ok (byteAt b a) := by
  rw [byteAt_eq_home h ha, peek_eq_home h ha]

theorem peek_outside {size : Int} {b : Bus} (h : Mapped size b) {a : Int}
    (ha : ¬InMemory size a) : b.peek a = .error (.unmapped a) := by
  simp [Bus.peek, region?_eq_none h ha]

theorem isByte_byteAt {size : Int} {b : Bus} (h : Mapped size b) (a : Int) :
    IsByte (byteAt b a) := by
  by_cases ha : InMemory size a
  · obtain ⟨kind, span, hd, -, -⟩ := exists_cells h ha
    rw [byteAt_eq_home h ha]
    exact isByte_cell hd _
  · rw [byteAt_outside h ha]
    omega

/-! ## Changing a device -/

def onDevice (b : Bus) (number : Nat) (change : Device → Device) : Bus :=
  { b with devices := b.devices.modify number change }

theorem device_onDevice (b : Bus) (number : Nat) (change : Device → Device)
    (hn : number < b.devices.size) (other : Nat) :
    (onDevice b number change).device other =
      if other = number then change (b.device other) else b.device other := by
  simp only [onDevice, Bus.device, Array.getD_eq_getD_getElem?, Array.getElem?_modify]
  by_cases heq : other = number
  · subst heq
    simp [Array.getElem?_eq_getElem hn]
  · rw [if_neg (Ne.symm heq), if_neg heq]

theorem mapped_onDevice {size : Int} {b : Bus} (h : Mapped size b) {number : Nat}
    (hn : number < 2) {change : Device → Device}
    (hc : ∀ kind span d, HasCells kind span d → HasCells kind span (change d)) :
    Mapped size (onDevice b number change) := by
  have hn' : number < b.devices.size := h.count.symm ▸ hn
  refine ⟨h.size_gt, h.regions, ?_, ?_, ?_⟩
  · simpa [onDevice] using h.count
  · rw [device_onDevice b number change hn']
    split
    · exact hc _ _ _ h.font
    · exact h.font
  · rw [device_onDevice b number change hn']
    split
    · exact hc _ _ _ h.rest
    · exact h.rest

theorem device_lt (size a : Int) : (home size a).device < 2 := by
  unfold home
  split <;> simp

/-- Changing one cell of the device that serves an address changes the byte at this address. -/
theorem byteAt_onDevice {size : Int} {b : Bus} (h : Mapped size b) {a : Int}
    (ha : InMemory size a) {change : Device → Device} {value : Int} {p : Prop} [Decidable p]
    (hc : ∀ kind span d, HasCells kind span d → HasCells kind span (change d))
    (hv : ∀ offset, 0 ≤ offset →
      (change (b.device (home size a).device)).byteAt offset =
        if offset = a - (home size a).first ∧ p then value
        else (b.device (home size a).device).byteAt offset) (other : Int) :
    byteAt (onDevice b (home size a).device change) other =
      if other = a ∧ p then value else byteAt b other := by
  have hm := mapped_onDevice h (device_lt size a) hc
  have hn : (home size a).device < b.devices.size := h.count.symm ▸ device_lt size a
  by_cases ho : InMemory size other
  · rw [byteAt_eq_home hm ho, byteAt_eq_home h ho, device_onDevice b _ change hn]
    -- Each device serves one region, so offsets within it tell addresses apart.
    by_cases hd : (home size other).device = (home size a).device
    · have hh := home_eq_of_device_eq hd
      obtain ⟨kind, span, -, hoff, -⟩ := exists_cells h ho
      rw [if_pos hd, hh, hv _ (hh ▸ hoff.1)]
      have hiff : other - (home size a).first = a - (home size a).first ↔ other = a := by omega
      simp only [hiff]
    · rw [if_neg hd, if_neg]
      rintro ⟨rfl, -⟩
      exact hd rfl
  · rw [byteAt_outside hm ho, byteAt_outside h ho, if_neg]
    rintro ⟨rfl, -⟩
    exact ho ha

/-! ## Writing and loading -/

theorem read_eq {size : Int} {b : Bus} (h : Mapped size b) {a : Int} (ha : InMemory size a) :
    b.read a = .ok (byteAt b a, { b with log := b.log ++ [⟨a, byteAt b a, .read⟩] }) := by
  simp only [Bus.read, peek_eq h ha]

theorem busWriteError?_eq_none {size : Int} {b : Bus} (h : Mapped size b) {a value : Int}
    (ha : InMemory size a) (hv : IsByte value) : b.writeError? a value = none := by
  obtain ⟨kind, span, hd, ho, -⟩ := exists_cells h ha
  simp only [Bus.writeError?, region?_eq_home h ha]
  exact writeError?_eq_none hd ho hv

theorem busLoadError?_eq_none {size : Int} {b : Bus} (h : Mapped size b) {a value : Int}
    (ha : InMemory size a) (hv : IsByte value) : b.loadError? a value = none := by
  obtain ⟨kind, span, hd, ho, -⟩ := exists_cells h ha
  simp only [Bus.loadError?, region?_eq_home h ha]
  exact loadError?_eq_none hd ho hv

theorem written_parts {size : Int} {b : Bus} (h : Mapped size b) {a : Int}
    (ha : InMemory size a) (value : Int) :
    let changed := onDevice b (home size a).device (.written (a - (home size a).first) value)
    (b.written a value).regions = changed.regions ∧
      (b.written a value).devices = changed.devices ∧
      (b.written a value).log = b.log ++ [⟨a, value, .write⟩] := by
  simp only [Bus.written, region?_eq_home h ha, Bus.deviceWritten, onDevice, and_self]

theorem loaded_eq {size : Int} {b : Bus} (h : Mapped size b) {a : Int} (ha : InMemory size a)
    (value : Int) :
    b.loaded a value =
      onDevice b (home size a).device (.store (a - (home size a).first) value) := by
  simp only [Bus.loaded, region?_eq_home h ha, Bus.deviceLoaded, onDevice]

theorem mapped_written {size : Int} {b : Bus} (h : Mapped size b) {a : Int}
    (ha : InMemory size a) (value : Int) : Mapped size (b.written a value) := by
  obtain ⟨hr, hd, -⟩ := written_parts h ha value
  exact (mapped_onDevice h (device_lt _ _) fun _ _ _ hd => hd.written _ _).congr hr hd

theorem byteAt_written {size : Int} {b : Bus} (h : Mapped size b) {a value : Int}
    (ha : InMemory size a) (hv : IsByte value) (other : Int) :
    byteAt (b.written a value) other =
      if other = a ∧ fontEnd ≤ a then value else byteAt b other := by
  obtain ⟨hregions, hdevices, -⟩ := written_parts h ha value
  obtain ⟨kind, span, hd, ho, hk⟩ := exists_cells h ha
  rw [byteAt_congr hregions hdevices]
  apply byteAt_onDevice h ha fun _ _ _ hd => hd.written _ _
  intro offset hoff
  simp only [cell_written hd ho hoff hv, hk]

theorem byteAt_loaded {size : Int} {b : Bus} (h : Mapped size b) {a value : Int}
    (ha : InMemory size a) (hv : IsByte value) (other : Int) :
    byteAt (b.loaded a value) other = if other = a then value else byteAt b other := by
  obtain ⟨kind, span, hd, ho, -⟩ := exists_cells h ha
  have hstore : byteAt (onDevice b (home size a).device
      (.store (a - (home size a).first) value)) other =
        if other = a ∧ True then value else byteAt b other := by
    apply byteAt_onDevice h ha fun _ _ _ hd => hd.store _ _
    intro offset hoff
    simp only [cell_store hd ho hoff hv, and_true]
  rw [loaded_eq h ha]
  simpa only [and_true] using hstore

end Chip8.Proofs.Memory.Layout
