import Chip8.Cycle
import Chip8.Proofs.Memory.Transfer
import Mathlib.Data.List.Nodup

/-!
# The bus as a partial map of bytes

Cells of any sizes may be attached to any ranges of addresses, which may overlap.  As long as no
device is attached twice, the bus is a partial map from addresses to bytes: an address has a byte
where some region contains it, the region attached first supplies it, and storing at one address
changes no other.
-/

namespace Chip8.Proofs.Memory.Regions

open Chip8.Memory Chip8.Proofs.Memory.Layout Chip8.Proofs.Memory.Transfer

/-! ## Buses that are put together and used -/

inductive Use : Bus → Bus → Prop
  | added (b : Bus) (d : Device) : Use b (b.addDevice d).1
  | read {b b' : Bus} {a value : Int} (h : b.read a = .ok (value, b')) : Use b b'
  | written {b b' : Bus} {a value : Int} (h : b.write a value = .ok b') : Use b b'
  | loaded {b b' : Bus} {a value : Int} (h : b.load a value = .ok b') : Use b b'
  | deviceWritten {b b' : Bus} {number : Nat} {offset value : Int}
      (h : b.writeDevice number offset value = .ok b') : Use b b'
  | deviceLoaded {b b' : Bus} {number : Nat} {offset value : Int}
      (h : b.loadDevice number offset value = .ok b') : Use b b'
  | deviceCleared (b : Bus) (number : Nat) : Use b (b.clearDevice number)
  | cleared (b : Bus) : Use b b.clearWritable
  | logTaken (b : Bus) : Use b b.takeLog.2
  | ignoredTaken (b : Bus) : Use b b.takeIgnored.2

/-- A bus that cells have been attached to, each at most once, and that may have been used before,
between and after. -/
inductive Assembled : Bus → Prop
  | empty : Assembled {}
  | used {b b' : Bus} (h : Assembled b) (hu : Use b b') : Assembled b'
  | attached {b b' : Bus} {kind : CellKind} {given : Value} {bytes : Array UInt8}
      (first last : Int) (number : Nat) (h : Assembled b)
      (hd : b.device number = .cells kind given bytes) (hn : number ∉ b.regions.map (·.device))
      (ha : b.attach first last (.device number) = .ok b') : Assembled b'

/-- The region that answers at an address: it contains the address, and none attached before
does. -/
structure Serves (b : Bus) (a : Int) (r : Region) : Prop where
  contains : r.contains a
  first : ∃ before after, b.regions = before ++ r :: after ∧ ∀ q ∈ before, ¬q.contains a

def Backs (b : Bus) (kind : CellKind) (r : Region) : Prop :=
  HasCells kind (r.last - r.first + 1) (b.device r.device)

/-- A bus as a partial map from addresses to bytes. -/
structure ByteMap (b : Bus) : Prop where
  /-- Wherever some region contains an address, one answers, with cells behind it. -/
  served : ∀ a, (∃ r ∈ b.regions, r.contains a) → ∃ r kind, Serves b a r ∧ Backs b kind r
  /-- Peeking and reading give the byte that the first region has for an address. -/
  mapped : ∀ a r, Serves b a r → ∃ value, IsByte value ∧
    (b.device r.device).byteAt (a - r.first) = value ∧ b.peek a = .ok value ∧
    b.read a = .ok (value, { b with log := b.log ++ [⟨a, value, .read⟩] })
  unmapped : ∀ a, (∀ r ∈ b.regions, ¬r.contains a) →
    b.peek a = .error (.unmapped a) ∧ b.read a = .error (.unmapped a) ∧
    ∀ d, b.write a d = .error (.unmapped a) ∧ b.load a d = .error (.unmapped a)
  /-- A further region hides no byte that was there before. -/
  attached : ∀ first last attachment b', b.attach first last attachment = .ok b' →
    ∀ a value, b.peek a = .ok value → b'.peek a = .ok value
  ram_written : ∀ a r d, Serves b a r → Backs b .ram r → IsByte d →
    ∃ b', b.write a d = .ok b' ∧ b'.peek a = .ok d ∧ ∀ other ≠ a, b'.peek other = b.peek other
  rom_written : ∀ a r d, Serves b a r → Backs b .rom r →
    ∃ b', b.write a d = .ok b' ∧ ∀ other, b'.peek other = b.peek other
  loaded : ∀ a r d, Serves b a r → IsByte d →
    ∃ b', b.load a d = .ok b' ∧ b'.peek a = .ok d ∧ ∀ other ≠ a, b'.peek other = b.peek other
  /-- A refused write leaves a processor as it was. -/
  write_refused : ∀ a r d, Serves b a r → Backs b .ram r → ¬IsByte d →
    b.write a d = .error (.notAByte d) ∧
    ∀ {ρ δ : Type} (c : Core ρ δ), c.bus = b →
      Action.writeByte a d c = .error (.memory (.notAByte d)) c
  load_refused : ∀ a r d, Serves b a r → ¬IsByte d →
    b.load a d = .error (.notAByte d) ∧
    ∀ {ρ δ : Type} (c : Core ρ δ), c.bus = b →
      Action.loadByte a d c = .error (.memory (.notAByte d)) c

/-! ## Regions with cells behind them -/

/-- Every region has cells of its own behind it, one for each of its addresses. -/
structure Regular (b : Bus) : Prop where
  backed : ∀ r ∈ b.regions, ∃ kind, Backs b kind r
  apart : (b.regions.map (·.device)).Nodup

section Regular

variable {b b' : Bus} {r q : Region} {a : Int} {kind : CellKind} {span : Int} {number : Nat}

theorem region?_eq_some_iff : b.region? a = some r ↔ Serves b a r := by
  unfold Bus.region?
  rw [List.find?_eq_some_iff_append]
  constructor
  · rintro ⟨hcontains, before, after, hregions, hbefore⟩
    exact ⟨hcontains, before, after, hregions, fun q hq => by simpa using hbefore q hq⟩
  · rintro ⟨hcontains, before, after, hregions, hbefore⟩
    exact ⟨hcontains, before, after, hregions, fun q hq => by simpa using hbefore q hq⟩

theorem region?_eq_none_iff : b.region? a = none ↔ ∀ r ∈ b.regions, ¬r.contains a := by
  simp only [Bus.region?, List.find?_eq_none]

theorem Serves.mem (hs : Serves b a r) : r ∈ b.regions := by
  obtain ⟨-, before, after, hregions, -⟩ := hs
  simp [hregions]

theorem exists_serves (h : ∃ r ∈ b.regions, r.contains a) : ∃ r, Serves b a r := by
  obtain ⟨r, hr, hcontains⟩ := h
  cases hregion : b.region? a with
  | some q => exact ⟨q, region?_eq_some_iff.1 hregion⟩
  | none => exact absurd hcontains (region?_eq_none_iff.1 hregion r hr)

theorem lt_size_of_hasCells (h : HasCells kind span (b.device number)) :
    number < b.devices.size := by
  rcases Nat.lt_or_ge number b.devices.size with hlt | hge
  · exact hlt
  exfalso
  obtain ⟨given, bytes, hd, hsize⟩ := h
  have hdefault : b.device number = default := by
    simp [Bus.device, Array.getD_eq_getD_getElem?, Array.getElem?_eq_none hge]
  rw [hdefault] at hd
  cases hd

theorem Serves.inMemory (hs : Serves b a r) :
    InMemory (r.last - r.first + 1) (a - r.first) := by
  have hcontains := hs.contains
  simp only [Region.contains, Bool.and_eq_true, decide_eq_true_eq] at hcontains
  omega

theorem Regular.eq_of_device_eq (h : Regular b) (hq : q ∈ b.regions) (hr : r ∈ b.regions)
    (heq : q.device = r.device) : q = r :=
  List.inj_on_of_nodup_map h.apart hq hr heq

theorem Regular.lt_size (h : Regular b) (hr : r ∈ b.regions) : r.device < b.devices.size := by
  obtain ⟨kind, hcells⟩ := h.backed r hr
  exact lt_size_of_hasCells hcells

structure Keeps (b b' : Bus) : Prop where
  regions : b'.regions = b.regions
  cells : ∀ number kind span,
    HasCells kind span (b.device number) → HasCells kind span (b'.device number)

theorem Keeps.trans {b'' : Bus} (h : Keeps b b') (h' : Keeps b' b'') : Keeps b b'' :=
  ⟨h'.regions.trans h.regions, fun number kind span hcells =>
    h'.cells number kind span (h.cells number kind span hcells)⟩

theorem keeps_of_eq (hr : b'.regions = b.regions) (hd : b'.devices = b.devices) : Keeps b b' := by
  refine ⟨hr, fun number kind span hcells => ?_⟩
  simpa only [Bus.device, hd] using hcells

theorem keeps_onDevice {change : Device → Device}
    (hc : ∀ kind span d, HasCells kind span d → HasCells kind span (change d)) :
    Keeps b (onDevice b number change) := by
  refine ⟨rfl, fun other kind span hcells => ?_⟩
  by_cases hn : number < b.devices.size
  · rw [device_onDevice b number change hn]
    split
    · exact hc _ _ _ hcells
    · exact hcells
  · have hsame : onDevice b number change = b := by
      simp [onDevice, Array.modify, Array.modifyM, hn]
    rwa [hsame]

theorem Regular.keeps (h : Regular b) (hk : Keeps b b') : Regular b' := by
  refine ⟨fun r hr => ?_, hk.regions ▸ h.apart⟩
  rw [hk.regions] at hr
  obtain ⟨kind, hcells⟩ := h.backed r hr
  exact ⟨kind, hk.cells _ _ _ hcells⟩

end Regular

/-! ## Every assembled bus is regular -/

section Assembling

variable {b b' : Bus} {a first last : Int}

theorem hasCells_clear {kind : CellKind} {span : Int} {d : Device} (h : HasCells kind span d) :
    HasCells kind span d.clear := by
  obtain ⟨given, bytes, rfl, hsize⟩ := h
  exact ⟨given, _, rfl, by simpa using hsize⟩

theorem keeps_addDevice (b : Bus) (d : Device) : Keeps b (b.addDevice d).1 := by
  refine ⟨rfl, fun number kind span hcells => ?_⟩
  have hlt := lt_size_of_hasCells hcells
  obtain ⟨given, bytes, hd, hsize⟩ := hcells
  refine ⟨given, bytes, ?_, hsize⟩
  rw [← hd]
  simp [Bus.addDevice, Bus.device, Array.getD_eq_getD_getElem?, Array.getElem?_push,
    Nat.ne_of_lt hlt]

theorem keeps_deviceWritten (b : Bus) (number : Nat) (offset value : Int) :
    Keeps b (b.deviceWritten number offset value) :=
  (keeps_onDevice fun _ _ _ hd => hd.written offset value).trans (keeps_of_eq rfl rfl)

theorem keeps_deviceLoaded (b : Bus) (number : Nat) (offset value : Int) :
    Keeps b (b.deviceLoaded number offset value) :=
  keeps_onDevice fun _ _ _ hd => hd.store offset value

theorem keeps_clearWritable (b : Bus) : Keeps b b.clearWritable := by
  unfold Bus.clearWritable
  generalize b.regions = regions
  induction regions generalizing b with
  | nil => exact keeps_of_eq rfl rfl
  | cons r rest ih =>
      have hfirst : Keeps b (onDevice b r.device Device.clearWritable) :=
        keeps_onDevice fun _ _ _ => HasCells.clearWritable
      exact hfirst.trans (ih _)

theorem keeps_of_use (h : Use b b') : Keeps b b' := by
  cases h with
  | added d => exact keeps_addDevice b d
  | read h =>
      unfold Bus.read at h
      split at h <;> cases h
      exact keeps_of_eq rfl rfl
  | written h =>
      unfold Bus.write at h
      split at h <;> cases h
      unfold Bus.written
      split
      · exact (keeps_deviceWritten _ _ _ _).trans (keeps_of_eq rfl rfl)
      · exact keeps_of_eq rfl rfl
  | loaded h =>
      unfold Bus.load at h
      split at h <;> cases h
      unfold Bus.loaded
      split
      · exact keeps_deviceLoaded _ _ _ _
      · exact keeps_of_eq rfl rfl
  | deviceWritten h =>
      unfold Bus.writeDevice at h
      split at h <;> cases h
      exact keeps_deviceWritten _ _ _ _
  | deviceLoaded h =>
      unfold Bus.loadDevice at h
      split at h <;> cases h
      exact keeps_deviceLoaded _ _ _ _
  | deviceCleared number => exact keeps_onDevice fun _ _ _ => hasCells_clear
  | cleared => exact keeps_clearWritable b
  | logTaken => exact keeps_of_eq rfl rfl
  | ignoredTaken => exact keeps_of_eq rfl rfl

theorem attach_ok {attachment : Attachment} (h : b.attach first last attachment = .ok b') :
    ∃ number, attachment = .device number ∧
      b' = { b with regions := b.regions ++ [⟨first, last, number⟩] } ∧
      ∀ kind given bytes, b.device number = .cells kind given bytes →
        (bytes.size : Int) = last - first + 1 := by
  cases attachment with
  | foreign name =>
      simp only [Bus.attach] at h
      split at h <;> cases h
  | device number =>
      simp only [Bus.attach] at h
      split at h
      · refine ⟨number, rfl, ?_⟩
        cases hd : b.device number with
        | recorder writes =>
            rw [hd] at h
            cases h
            exact ⟨rfl, fun _ _ _ hcells => by cases hcells⟩
        | cells kind given bytes =>
            simp only [hd] at h
            split at h
            · rename_i hsize
              cases h
              refine ⟨rfl, fun _ _ _ hcells => ?_⟩
              cases hcells
              exact hsize
            · cases h
      · cases h

theorem Regular.attach {number : Nat} {kind : CellKind} {given : Value} {bytes : Array UInt8}
    (h : Regular b) (hd : b.device number = .cells kind given bytes)
    (hn : number ∉ b.regions.map (·.device))
    (ha : b.attach first last (.device number) = .ok b') : Regular b' := by
  obtain ⟨_, heq, rfl, hsize⟩ := attach_ok ha
  cases heq
  refine ⟨fun r hr => ?_, ?_⟩
  · rcases List.mem_append.1 hr with hr | hr
    · exact h.backed r hr
    · cases List.mem_singleton.1 hr
      exact ⟨kind, given, bytes, hd, hsize _ _ _ hd⟩
  · rw [List.map_append, List.nodup_append]
    refine ⟨h.apart, List.nodup_singleton _, ?_⟩
    rintro x hx y hy rfl
    obtain rfl : x = number := List.mem_singleton.1 hy
    exact hn hx

theorem regular_of_assembled (h : Assembled b) : Regular b := by
  induction h with
  | empty => exact ⟨by simp, by simp⟩
  | used h hu ih => exact ih.keeps (keeps_of_use hu)
  | attached first last number h hd hn ha ih => exact ih.attach hd hn ha

end Assembling

/-! ## Bytes -/

section Bytes

variable {b b' : Bus} {r : Region} {a d : Int} {kind : CellKind}

theorem Regular.backs (h : Regular b) (hs : Serves b a r) : ∃ kind, Backs b kind r :=
  h.backed r hs.mem

theorem peek_of_serves (hs : Serves b a r) (hk : Backs b kind r) :
    b.peek a = .ok ((b.device r.device).byteAt (a - r.first)) := by
  simp only [Bus.peek, region?_eq_some_iff.2 hs, Device.read,
    offsetError?_eq_none hk hs.inMemory]

theorem peek_eq_first (h : Regular b) (hs : Serves b a r) :
    b.peek a = .ok ((b.device r.device).byteAt (a - r.first)) := by
  obtain ⟨kind, hk⟩ := h.backs hs
  exact peek_of_serves hs hk

theorem peek_unmapped (h : ∀ r ∈ b.regions, ¬r.contains a) : b.peek a = .error (.unmapped a) := by
  simp only [Bus.peek, region?_eq_none_iff.2 h]

theorem peek_congr (hr : b'.regions = b.regions) (hd : b'.devices = b.devices) :
    b'.peek = b.peek := by
  funext a
  simp only [Bus.peek, Bus.region?, Bus.device, hr, hd]

/-- A change of one cell behind a region shows at the address of the cell and at no other, also
where a region attached before hides some of the cells. -/
theorem peek_onDevice (h : Regular b) (hs : Serves b a r) {change : Device → Device}
    {p : Prop} [Decidable p]
    (hc : ∀ kind span d, HasCells kind span d → HasCells kind span (change d))
    (hv : ∀ offset, 0 ≤ offset → (change (b.device r.device)).byteAt offset =
      if offset = a - r.first ∧ p then d else (b.device r.device).byteAt offset) (other : Int) :
    (onDevice b r.device change).peek other = if other = a ∧ p then .ok d else b.peek other := by
  have hregular : Regular (onDevice b r.device change) := h.keeps (keeps_onDevice hc)
  by_cases hmapped : ∃ q ∈ b.regions, q.contains other
  · obtain ⟨q, hq⟩ := exists_serves hmapped
    have hq' : Serves (onDevice b r.device change) other q := ⟨hq.contains, hq.first⟩
    rw [peek_eq_first hregular hq', peek_eq_first h hq,
      device_onDevice b r.device change (h.lt_size hs.mem)]
    by_cases hdevice : q.device = r.device
    · -- Each device has one region, so two addresses have different offsets in it.
      obtain rfl := h.eq_of_device_eq hq.mem hs.mem hdevice
      rw [if_pos rfl, hv _ hq.inMemory.1]
      have hiff : other - q.first = a - q.first ↔ other = a := by omega
      simp only [hiff]
      split <;> rfl
    · have hne : other ≠ a := by
        rintro rfl
        have := (region?_eq_some_iff.2 hq).symm.trans (region?_eq_some_iff.2 hs)
        cases this
        exact hdevice rfl
      rw [if_neg hdevice, if_neg fun hand => hne hand.1]
  · have hmapped' : ∀ q ∈ b.regions, ¬q.contains other := fun q hq hcontains =>
      hmapped ⟨q, hq, hcontains⟩
    rw [peek_unmapped hmapped', peek_unmapped (b := onDevice b r.device change) hmapped', if_neg]
    rintro ⟨rfl, -⟩
    exact hmapped ⟨r, hs.mem, hs.contains⟩

/-- A write shows at its address unless the first region there is read-only, and nowhere else. -/
theorem peek_written (h : Regular b) (hs : Serves b a r) (hk : Backs b kind r)
    (hd : IsByte d ∨ kind = .rom) (other : Int) :
    (b.written a d).peek other = if other = a ∧ kind ≠ .rom then .ok d else b.peek other := by
  have hparts : (b.written a d).peek = (onDevice b r.device (.written (a - r.first) d)).peek := by
    simp only [Bus.written, region?_eq_some_iff.2 hs]
    exact peek_congr rfl rfl
  rw [hparts]
  apply peek_onDevice h hs fun _ _ _ hd => hd.written _ _
  intro offset hoff
  rcases hd with hd | rfl
  · exact cell_written hk hs.inMemory hoff hd
  · simp [Device.written, isReadOnly_iff hk]

theorem peek_loaded (h : Regular b) (hs : Serves b a r) (hd : IsByte d) (other : Int) :
    (b.loaded a d).peek other = if other = a then .ok d else b.peek other := by
  obtain ⟨kind, hk⟩ := h.backs hs
  have hparts : b.loaded a d = onDevice b r.device (.store (a - r.first) d) := by
    simp only [Bus.loaded, region?_eq_some_iff.2 hs, Bus.deviceLoaded, onDevice]
  have hstore : (onDevice b r.device (.store (a - r.first) d)).peek other =
      if other = a ∧ True then .ok d else b.peek other := by
    apply peek_onDevice h hs fun _ _ _ hd => hd.store _ _
    intro offset hoff
    simp only [cell_store hk hs.inMemory hoff hd, and_true]
  rw [hparts, hstore]
  simp only [and_true]

theorem loadError?_eq_some {span offset : Int} {v : Device} (hv : HasCells kind span v)
    (ho : InMemory span offset) (hd : ¬IsByte d) : v.loadError? offset d = some (.notAByte d) := by
  unfold Device.loadError?
  rw [offsetError?_eq_none hv ho, Option.none_or]
  obtain ⟨given, bytes, rfl, -⟩ := hv
  simp only [Device.valueError?]
  rw [if_neg hd]

theorem busLoadError?_eq (hs : Serves b a r) (hk : Backs b kind r) :
    b.loadError? a d = if IsByte d then none else some (.notAByte d) := by
  simp only [Bus.loadError?, region?_eq_some_iff.2 hs]
  split
  · exact loadError?_eq_none hk hs.inMemory ‹_›
  · exact loadError?_eq_some hk hs.inMemory ‹_›

theorem busWriteError?_eq (hs : Serves b a r) (hk : Backs b kind r) :
    b.writeError? a d = if IsByte d ∨ kind = .rom then none else some (.notAByte d) := by
  simp only [Bus.writeError?, region?_eq_some_iff.2 hs, Device.writeError?, isReadOnly_iff hk]
  by_cases hrom : kind = .rom
  · rw [if_pos hrom, if_pos (.inr hrom)]
    exact offsetError?_eq_none hk hs.inMemory
  · rw [if_neg hrom]
    by_cases hd : IsByte d
    · rw [if_pos (.inl hd)]
      exact loadError?_eq_none hk hs.inMemory hd
    · rw [if_neg fun hor => hor.elim hd hrom]
      exact loadError?_eq_some hk hs.inMemory hd

theorem peek_attached {first last : Int} {attachment : Attachment} {value : Int}
    (ha : b.attach first last attachment = .ok b') (hp : b.peek a = .ok value) :
    b'.peek a = .ok value := by
  obtain ⟨number, -, rfl, -⟩ := attach_ok ha
  rw [← hp]
  cases hregion : b.region? a with
  | none =>
      rw [Bus.peek, hregion] at hp
      cases hp
  | some r =>
      have happend : Bus.region? { b with regions := b.regions ++ [⟨first, last, number⟩] } a =
          some r := by
        unfold Bus.region? at hregion ⊢
        rw [List.find?_append, hregion, Option.some_or]
      simp only [Bus.peek, happend, hregion]
      rfl

end Bytes

theorem byteMap_of_regular {b : Bus} (hregular : Regular b) : ByteMap b := by
  constructor
  case served =>
    intro a hmapped
    obtain ⟨r, hs⟩ := exists_serves hmapped
    obtain ⟨kind, hk⟩ := hregular.backs hs
    exact ⟨r, kind, hs, hk⟩
  case mapped =>
    intro a r hs
    obtain ⟨kind, hk⟩ := hregular.backs hs
    have hpeek := peek_eq_first hregular hs
    exact ⟨_, isByte_cell hk _, rfl, hpeek, by simp only [Bus.read, hpeek]⟩
  case unmapped =>
    intro a hunmapped
    have hpeek := peek_unmapped hunmapped
    have hregion := region?_eq_none_iff.2 hunmapped
    refine ⟨hpeek, by simp only [Bus.read, hpeek], fun d => ⟨?_, ?_⟩⟩
    · simp only [Bus.write, Bus.writeError?, hregion]
    · simp only [Bus.load, Bus.loadError?, hregion]
  case attached => exact fun first last attachment b' ha a value hp => peek_attached ha hp
  case ram_written =>
    intro a r d hs hk hd
    have herror : b.writeError? a d = none := by rw [busWriteError?_eq hs hk, if_pos (.inl hd)]
    refine ⟨b.written a d, by simp only [Bus.write, herror], ?_, fun other hother => ?_⟩
    · rw [peek_written hregular hs hk (.inl hd), if_pos ⟨rfl, by decide⟩]
    · rw [peek_written hregular hs hk (.inl hd), if_neg fun hand => hother hand.1]
  case rom_written =>
    intro a r d hs hk
    have herror : b.writeError? a d = none := by rw [busWriteError?_eq hs hk, if_pos (.inr rfl)]
    refine ⟨b.written a d, by simp only [Bus.write, herror], fun other => ?_⟩
    rw [peek_written hregular hs hk (.inr rfl), if_neg fun hand => hand.2 rfl]
  case loaded =>
    intro a r d hs hd
    obtain ⟨kind, hk⟩ := hregular.backs hs
    have herror : b.loadError? a d = none := by rw [busLoadError?_eq hs hk, if_pos hd]
    refine ⟨b.loaded a d, by simp only [Bus.load, herror], ?_, fun other hother => ?_⟩
    · rw [peek_loaded hregular hs hd, if_pos rfl]
    · rw [peek_loaded hregular hs hd, if_neg hother]
  case write_refused =>
    intro a r d hs hk hd
    have herror : b.writeError? a d = some (.notAByte d) := by
      rw [busWriteError?_eq hs hk, if_neg fun hor => hor.elim hd (by decide)]
    refine ⟨by simp only [Bus.write, herror], ?_⟩
    rintro ρ δ c rfl
    simp only [Action.writeByte, herror]
  case load_refused =>
    intro a r d hs hd
    obtain ⟨kind, hk⟩ := hregular.backs hs
    have herror : b.loadError? a d = some (.notAByte d) := by
      rw [busLoadError?_eq hs hk, if_neg hd]
    refine ⟨by simp only [Bus.load, herror], ?_⟩
    rintro ρ δ c rfl
    simp only [Action.loadByte, herror]

theorem byteMap_of_mapped {size : Int} {b : Bus} (h : Mapped size b) : ByteMap b := by
  apply byteMap_of_regular
  have hfont : Backs b .rom ⟨0, fontEnd - 1, 0⟩ := h.font
  have hrest : Backs b .ram ⟨fontEnd, size - 1, 1⟩ := by
    have hspan : size - 1 - fontEnd + 1 = size - fontEnd := by omega
    simpa only [Backs, hspan] using h.rest
  refine ⟨?_, ?_⟩ <;> rw [h.regions]
  · simp only [List.mem_cons, List.not_mem_nil, or_false, forall_eq_or_imp, forall_eq]
    exact ⟨⟨_, hfont⟩, _, hrest⟩
  · simp

/-- Every bus that cells have been attached to, each at most once, is a partial map of bytes in
which the region attached first wins, whatever has been done with the bus. -/
theorem byteMap_of_assembled {b : Bus} (h : Assembled b) : ByteMap b :=
  byteMap_of_regular (regular_of_assembled h)

def overlapping : Bus where
  devices := #[.cells .rom (.int 2) #[7, 8], .cells .ram (.int 4) #[1, 2, 3, 4]]
  regions := [⟨0, 1, 0⟩, ⟨1, 4, 1⟩]

theorem assembled_overlapping : Assembled overlapping := by
  have hdevices : Assembled { overlapping with regions := [] } :=
    .used (.used .empty (.added _ (.cells .rom (.int 2) #[7, 8]))) (.added _ _)
  have hfirst : Assembled { overlapping with regions := [⟨0, 1, 0⟩] } :=
    .attached 0 1 0 hdevices rfl (by decide) rfl
  exact .attached 1 4 1 hfirst rfl (by decide) rfl

theorem byteMap_of_overlapping :
    overlapping.peek 1 = .ok 8 ∧ overlapping.peek 2 = .ok 2 ∧
    overlapping.peek 5 = .error (.unmapped 5) ∧
    (∃ b', overlapping.write 1 9 = .ok b' ∧ b'.peek 1 = .ok 8) ∧
    (∃ b', overlapping.load 1 9 = .ok b' ∧ b'.peek 1 = .ok 9 ∧ b'.peek 2 = .ok 2) ∧
    overlapping.write 2 256 = .error (.notAByte 256) := by
  have hmap := byteMap_of_assembled assembled_overlapping
  have hrom : Serves overlapping 1 ⟨0, 1, 0⟩ := ⟨by decide, [], _, rfl, by simp⟩
  have hram : Serves overlapping 2 ⟨1, 4, 1⟩ := ⟨by decide, [⟨0, 1, 0⟩], [], rfl, by decide⟩
  refine ⟨rfl, rfl, (hmap.unmapped 5 (by decide)).1, ?_, ?_, ?_⟩
  · obtain ⟨b', hwrite, hsame⟩ := hmap.rom_written 1 _ 9 hrom ⟨_, _, rfl, rfl⟩
    exact ⟨b', hwrite, hsame 1⟩
  · obtain ⟨b', hload, hbyte, hother⟩ := hmap.loaded 1 _ 9 hrom (by decide)
    exact ⟨b', hload, hbyte, hother 2 (by decide)⟩
  · exact (hmap.write_refused 2 _ 256 hram ⟨_, _, rfl, rfl⟩ (by decide)).1

end Chip8.Proofs.Memory.Regions
