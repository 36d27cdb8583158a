import Chip8.Proofs.Memory.Transfer

/-!
# The contents of memory

What a bus shows at every address after bytes were loaded, after it was cleared and after a reset.
Nothing ever changes how many cells there are or how they are wired, so that two buses over the
same cells differ in their bytes only.
-/

namespace Chip8.Proofs.Memory.Contents

open Chip8.Memory Chip8.Proofs.Memory.Layout Chip8.Proofs.Memory.Transfer

/-! ## Consecutive addresses -/

section Consecutive

variable {size a : Int} {b other : Bus}

theorem peek_eq_of_byteAt (h : Mapped size b) (h' : Mapped size other)
    (heq : byteAt other a = byteAt b a) : other.peek a = b.peek a := by
  by_cases ha : InMemory size a
  · rw [peek_eq h ha, peek_eq h' ha, heq]
  · rw [peek_outside h ha, peek_outside h' ha]

theorem peekAll_congr {count : Nat}
    (h : ∀ x, a ≤ x → x < a + count → other.peek x = b.peek x) :
    other.peekAll a count = b.peekAll a count := by
  induction count generalizing a with
  | zero => rfl
  | succ count ih =>
      have hfirst : other.peek a = b.peek a := h a (Int.le_refl a) (by omega)
      have hrest : other.peekAll (a + 1) count = b.peekAll (a + 1) count :=
        ih fun x hlow hhigh => h x (by omega) (by omega)
      simp only [Bus.peekAll, hfirst, hrest]

theorem peekAll_succ {count : Nat} {values : List Int}
    (h : b.peekAll a (count + 1) = .ok values) :
    ∃ value rest, values = value :: rest ∧ b.peek a = .ok value ∧
      b.peekAll (a + 1) count = .ok rest := by
  unfold Bus.peekAll at h
  cases hfirst : b.peek a with
  | error e => simp [hfirst] at h
  | ok value =>
      cases hrest : b.peekAll (a + 1) count with
      | error e => simp [hfirst, hrest] at h
      | ok rest =>
          rw [hfirst, hrest] at h
          cases h
          exact ⟨value, rest, rfl, rfl, rfl⟩

theorem peek_of_peekAll {count : Nat} {values : List Int} (h : b.peekAll a count = .ok values)
    {i : Nat} {value : Int} (hi : values[i]? = some value) : b.peek (a + i) = .ok value := by
  induction count generalizing a values i with
  | zero =>
      cases h
      cases hi
  | succ count ih =>
      obtain ⟨first, rest, rfl, hfirst, hrest⟩ := peekAll_succ h
      cases i with
      | zero =>
          cases hi
          simpa using hfirst
      | succ i =>
          have hshift : a + ((i + 1 : Nat) : Int) = a + 1 + i := by omega
          rw [hshift]
          exact ih hrest hi

theorem peek_eq_of_peekAll {count : Nat} {values : List Int}
    (h : b.peekAll a count = .ok values) (h' : other.peekAll a count = .ok values) {x : Int}
    (hlow : a ≤ x) (hhigh : x < a + count) : other.peek x = b.peek x := by
  induction count generalizing a values with
  | zero => omega
  | succ count ih =>
      obtain ⟨value, rest, rfl, hfirst, hrest⟩ := peekAll_succ h
      obtain ⟨value', rest', heq, hfirst', hrest'⟩ := peekAll_succ h'
      cases heq
      by_cases hx : x = a
      · rw [hx, hfirst, hfirst']
      · exact ih hrest hrest' (by omega) (by omega)

end Consecutive

/-! ## One byte -/

section One

variable {size a value : Int} {b other : Bus}

theorem peek_of_byteAt {p : Prop} [Decidable p] (h : Mapped size b) (h' : Mapped size other)
    (ha : InMemory size a)
    (hbyte : ∀ x, byteAt other x = if x = a ∧ p then value else byteAt b x) (x : Int) :
    other.peek x = if x = a ∧ p then .ok value else b.peek x := by
  have hx := hbyte x
  by_cases hp : x = a ∧ p
  · rw [if_pos hp] at hx ⊢
    rw [peek_eq h' (hp.1 ▸ ha), hx]
  · rw [if_neg hp] at hx ⊢
    exact peek_eq_of_byteAt h h' hx

theorem peek_written (h : Mapped size b) (ha : InMemory size a) (hv : IsByte value) (x : Int) :
    (b.written a value).peek x = if x = a ∧ fontEnd ≤ a then .ok value else b.peek x :=
  peek_of_byteAt h (mapped_written h ha value) ha (byteAt_written h ha hv) x

theorem peek_loaded (h : Mapped size b) (ha : InMemory size a) (hv : IsByte value) (x : Int) :
    (b.loaded a value).peek x = if x = a then .ok value else b.peek x := by
  have hbyte : ∀ x, byteAt (b.loaded a value) x = if x = a ∧ True then value else byteAt b x := by
    simpa only [and_true] using byteAt_loaded h ha hv
  simpa only [and_true] using peek_of_byteAt h (quiet_loaded h ha value).mapped ha hbyte x

end One

/-! ## Written bytes -/

/-- The notices of writes at consecutive addresses: one for each that falls into the font. -/
def ignoredFrom (address : Int) : List Int → List IgnoredWrite
  | [] => []
  | value :: rest =>
    (if address < fontEnd then [⟨value, address⟩] else []) ++ ignoredFrom (address + 1) rest

section Written

variable {size a : Int} {b : Bus}

theorem peek_writtenAll_outside (values : List Int) (h : Mapped size b)
    (ha : 0 ≤ a) (hfit : a + values.length ≤ size) (hv : ∀ v ∈ values, IsByte v) {x : Int}
    (hx : x < fontEnd ∨ x < a ∨ a + values.length ≤ x) :
    (writtenAll b a values).peek x = b.peek x := by
  induction values generalizing b a with
  | nil => rfl
  | cons value rest ih =>
      rw [List.length_cons] at hfit hx
      have hin : InMemory size a := by omega
      obtain ⟨hvalue, hvrest⟩ := List.forall_mem_cons.1 hv
      have hrest := ih (mapped_written h hin value) (a := a + 1) (by omega) (by omega) hvrest
        (by omega)
      rw [writtenAll, hrest, peek_written h hin hvalue, if_neg (by omega)]

/-- What was written above the font is there. -/
theorem peek_writtenAll (values : List Int) (h : Mapped size b) (ha : 0 ≤ a)
    (hfit : a + values.length ≤ size) (hv : ∀ v ∈ values, IsByte v) {i : Nat} {value : Int}
    (hi : values[i]? = some value) (habove : fontEnd ≤ a + i) :
    (writtenAll b a values).peek (a + i) = .ok value := by
  induction values generalizing b a i with
  | nil => cases hi
  | cons first rest ih =>
      rw [List.length_cons] at hfit
      have hin : InMemory size a := by omega
      obtain ⟨hfirst, hvrest⟩ := List.forall_mem_cons.1 hv
      have hmapped := mapped_written h hin first
      cases i with
      -- The later bytes go behind this one, which stays.
      | zero =>
          cases hi
          rw [writtenAll, peek_writtenAll_outside rest hmapped (by omega) (by omega) hvrest
            (by omega), peek_written h hin hfirst, if_pos (by omega)]
      | succ i =>
          have hshift : a + ((i + 1 : Nat) : Int) = a + 1 + i := by omega
          rw [hshift] at habove ⊢
          exact ih hmapped (by omega) (by omega) hvrest hi habove

theorem ignored_written (h : Mapped size b) (ha : InMemory size a) (value : Int) :
    (b.written a value).ignored = b.ignored ++ ignoredFrom a [value] := by
  obtain ⟨kind, span, hd, -, hk⟩ := exists_cells h ha
  simp only [Bus.written, region?_eq_home h ha, Bus.deviceWritten, Device.notice?]
  by_cases hlow : a < fontEnd
  · have hrom : kind = .rom := Classical.not_not.1 fun hram => Int.not_le.2 hlow (hk.1 hram)
    have hfirst : (home size a).first = 0 := by rw [home, if_pos hlow]
    rw [if_pos ((isReadOnly_iff hd).2 hrom), hfirst, Int.sub_zero]
    simp [ignoredFrom, hlow]
  · have hram : kind ≠ .rom := hk.2 (Int.not_lt.1 hlow)
    rw [if_neg (mt (isReadOnly_iff hd).1 hram)]
    simp [ignoredFrom, hlow]

theorem ignored_writtenAll (values : List Int) (h : Mapped size b) (ha : 0 ≤ a)
    (hfit : a + values.length ≤ size) :
    (writtenAll b a values).ignored = b.ignored ++ ignoredFrom a values := by
  induction values generalizing b a with
  | nil => exact (List.append_nil b.ignored).symm
  | cons value rest ih =>
      rw [List.length_cons] at hfit
      have hin : InMemory size a := by omega
      rw [writtenAll, ih (mapped_written h hin value) (by omega) (by omega),
        ignored_written h hin]
      simp only [ignoredFrom, List.append_nil, List.append_assoc]

end Written

/-! ## Loaded bytes -/

section Loaded

variable {size a : Int} {b : Bus}

theorem peek_loadedAll_outside (values : List Int) (h : Mapped size b) (ha : 0 ≤ a)
    (hfit : a + values.length ≤ size) (hv : ∀ v ∈ values, IsByte v) {x : Int}
    (hx : x < a ∨ a + values.length ≤ x) : (loadedAll b a values).peek x = b.peek x := by
  induction values generalizing b a with
  | nil => rfl
  | cons value rest ih =>
      rw [List.length_cons] at hfit hx
      have hin : InMemory size a := by omega
      obtain ⟨hvalue, hvrest⟩ := List.forall_mem_cons.1 hv
      have hrest := ih (quiet_loaded h hin value).mapped (a := a + 1) (by omega) (by omega)
        hvrest (by omega)
      rw [loadedAll, hrest, peek_loaded h hin hvalue, if_neg (by omega)]

theorem peekAll_loadedAll (values : List Int) (h : Mapped size b) (ha : 0 ≤ a)
    (hfit : a + values.length ≤ size) (hv : ∀ v ∈ values, IsByte v) :
    (loadedAll b a values).peekAll a values.length = .ok values := by
  induction values generalizing b a with
  | nil => rfl
  | cons value rest ih =>
      rw [List.length_cons] at hfit
      have hin : InMemory size a := by omega
      obtain ⟨hvalue, hvrest⟩ := List.forall_mem_cons.1 hv
      have hmapped := (quiet_loaded h hin value).mapped
      -- The later bytes go behind this one, which stays.
      have hfirst : (loadedAll (b.loaded a value) (a + 1) rest).peek a = .ok value := by
        rw [peek_loadedAll_outside rest hmapped (by omega) (by omega) hvrest (.inl (by omega)),
          peek_loaded h hin hvalue, if_pos rfl]
      have hrest := ih hmapped (a := a + 1) (by omega) (by omega) hvrest
      simp only [loadedAll, List.length_cons, Bus.peekAll, hfirst, hrest]

theorem peekAll_withFont (h : Mapped size b) : (withFont b).peekAll 0 80 = .ok font := by
  have hall := peekAll_loadedAll font h (Int.le_refl 0) (font_fits h) isByte_of_mem_font
  rw [length_font] at hall
  unfold withFont
  exact hall

theorem peek_withFont_above (h : Mapped size b) (ha : fontEnd ≤ a) :
    (withFont b).peek a = b.peek a := by
  unfold withFont
  apply peek_loadedAll_outside font h (Int.le_refl 0) (font_fits h) isByte_of_mem_font
  rw [fontEnd_eq] at ha
  rw [length_font]
  omega

end Loaded

/-! ## Cleared memory -/

section Cleared

variable {size a : Int} {b : Bus}

theorem device_clearWritable (h : Mapped size b) {number : Nat} (hn : number < 2) :
    b.clearWritable.device number = (b.device number).clearWritable := by
  have hcount := h.count
  have hone := device_onDevice b 0 .clearWritable (by omega)
  have hcount' : (onDevice b 0 .clearWritable).devices.size = 2 := by
    simpa [onDevice] using hcount
  rw [clearWritable_eq h, device_onDevice _ 1 .clearWritable (by omega), hone]
  have hcases : number = 0 ∨ number = 1 := by omega
  rcases hcases with rfl | rfl <;> rfl

theorem cell_clearWritable {span : Int} {d : Device} (hd : HasCells .ram span d) (offset : Int) :
    d.clearWritable.byteAt offset = 0 := by
  obtain ⟨given, bytes, rfl, -⟩ := hd
  simp [Device.clearWritable, Device.clear, Device.byteAt, Array.getD_eq_getD_getElem?,
    Array.getElem?_replicate]
  split <;> rfl

theorem peek_clearWritable_above (h : Mapped size b) (ha : InMemory size a)
    (hfont : fontEnd ≤ a) : b.clearWritable.peek a = .ok 0 := by
  have hmapped := (quiet_clearWritable h).mapped
  have hhome : home size a = ⟨fontEnd, size - 1, 1⟩ := if_neg (by omega)
  rw [peek_eq hmapped ha, byteAt_eq_home hmapped ha, hhome, device_clearWritable h Nat.one_lt_two,
    cell_clearWritable h.rest]

theorem peekAll_renewed (h : Mapped size b) : (renewed b).peekAll 0 80 = .ok font := by
  have hall := peekAll_withFont (quiet_clearWritable h).mapped
  rw [← hall]
  exact peekAll_congr fun x _ _ => rfl

theorem peek_renewed_above (h : Mapped size b) (ha : InMemory size a) (hfont : fontEnd ≤ a) :
    (renewed b).peek a = .ok 0 := by
  have habove := peek_withFont_above (quiet_clearWritable h).mapped hfont
  rw [← peek_clearWritable_above h ha hfont, ← habove]
  rfl

end Cleared

/-! ## The cells of a bus -/

def emptied : Device → Device
  | .cells kind given bytes => .cells kind given (Array.replicate bytes.size 0)
  | .recorder _ => .recorder []

/-- Another bus with the same regions over the same cells. -/
structure SameCells (before after : Bus) : Prop where
  regions : after.regions = before.regions
  devices : after.devices.map emptied = before.devices.map emptied

section Cells

variable {b c d : Bus}

theorem SameCells.refl (b : Bus) : SameCells b b := ⟨rfl, rfl⟩

theorem SameCells.trans (hbc : SameCells b c) (hcd : SameCells c d) : SameCells b d :=
  ⟨hcd.regions.trans hbc.regions, hcd.devices.trans hbc.devices⟩

theorem emptied_store (offset value : Int) (d : Device) :
    emptied (d.store offset value) = emptied d := by
  cases d <;> simp [Device.store, emptied]

theorem emptied_written (offset value : Int) (d : Device) :
    emptied (d.written offset value) = emptied d := by
  unfold Device.written
  split
  · rfl
  · exact emptied_store offset value d

theorem emptied_clearWritable (d : Device) : emptied d.clearWritable = emptied d := by
  unfold Device.clearWritable
  split <;> simp [Device.clear, emptied]

theorem sameCells_onDevice (b : Bus) (number : Nat) {change : Device → Device}
    (hc : ∀ d, emptied (change d) = emptied d) : SameCells b (onDevice b number change) := by
  refine ⟨rfl, ?_⟩
  apply Array.ext
  · simp [onDevice]
  · intro i _ _
    simp only [onDevice, Array.getElem_map, Array.getElem_modify]
    split
    · exact hc _
    · rfl

theorem sameCells_written (b : Bus) (a value : Int) : SameCells b (b.written a value) := by
  unfold Bus.written
  split
  · rename_i r _
    have h := sameCells_onDevice b r.device (emptied_written (a - r.first) value)
    exact ⟨h.regions, h.devices⟩
  · exact .refl b

theorem sameCells_loaded (b : Bus) (a value : Int) : SameCells b (b.loaded a value) := by
  unfold Bus.loaded
  split
  · exact sameCells_onDevice b _ (emptied_store _ value)
  · exact .refl b

theorem sameCells_writtenAll (values : List Int) (b : Bus) (a : Int) :
    SameCells b (writtenAll b a values) := by
  induction values generalizing b a with
  | nil => exact .refl b
  | cons value rest ih => exact (sameCells_written b a value).trans (ih _ _)

theorem sameCells_loadedAll (values : List Int) (b : Bus) (a : Int) :
    SameCells b (loadedAll b a values) := by
  induction values generalizing b a with
  | nil => exact .refl b
  | cons value rest ih => exact (sameCells_loaded b a value).trans (ih _ _)

theorem sameCells_withFont (b : Bus) : SameCells b (withFont b) := by
  unfold withFont
  exact sameCells_loadedAll font b 0

theorem sameCells_renewed {size : Int} (h : Mapped size b) : SameCells b (renewed b) := by
  have hone := sameCells_onDevice b 0 emptied_clearWritable
  have htwo := sameCells_onDevice (onDevice b 0 .clearWritable) 1 emptied_clearWritable
  have hclear : SameCells b b.clearWritable := by
    rw [clearWritable_eq h]
    exact hone.trans htwo
  have hall := hclear.trans (sameCells_withFont _)
  exact ⟨hall.regions, hall.devices⟩

end Cells

/-! ## Equal memories -/

section Equal

variable {size : Int} {b other : Bus}

theorem cells_ext {kind : CellKind} {span : Int} {d d' : Device} (hd : HasCells kind span d)
    (hd' : HasCells kind span d') (hempty : emptied d' = emptied d)
    (hbytes : ∀ offset, InMemory span offset → d'.byteAt offset = d.byteAt offset) : d' = d := by
  obtain ⟨given, bytes, rfl, hsize⟩ := hd
  obtain ⟨given', bytes', rfl, hsize'⟩ := hd'
  simp only [emptied, Device.cells.injEq, true_and] at hempty
  obtain ⟨rfl, -⟩ := hempty
  have hbytes' : bytes' = bytes := by
    apply Array.ext
    · omega
    · intro i hi hi'
      have hi'' := hbytes i (by omega)
      simp only [Device.byteAt, Int.toNat_natCast, Array.getD_eq_getD_getElem?,
        Array.getElem?_eq_getElem hi, Array.getElem?_eq_getElem hi', Option.getD_some] at hi''
      exact UInt8.toNat_inj.1 (by omega)
  rw [hbytes']

theorem device_eq {number : Nat} (hb : number < b.devices.size) :
    b.devices[number] = b.device number := by
  simp [Bus.device, Array.getD_eq_getD_getElem?, Array.getElem?_eq_getElem hb]

/-- Two buses over the same cells that show the same memory have the same devices. -/
theorem devices_eq (h : Mapped size b) (h' : Mapped size other) (hcells : SameCells b other)
    (hpeek : ∀ a, InMemory size a → other.peek a = b.peek a) : other.devices = b.devices := by
  have hgt := h.size_gt
  have hfont := fontEnd_eq
  have hempty : ∀ number < 2, emptied (other.device number) = emptied (b.device number) := by
    intro number hn
    have hmap := congrArg (·[number]?) hcells.devices
    have hb : number < b.devices.size := h.count.symm ▸ hn
    have hb' : number < other.devices.size := h'.count.symm ▸ hn
    simpa [hb, hb', device_eq] using hmap
  have hbyte : ∀ a, InMemory size a →
      (other.device (home size a).device).byteAt (a - (home size a).first) =
        (b.device (home size a).device).byteAt (a - (home size a).first) := by
    intro a ha
    rw [← byteAt_eq_home h ha, ← byteAt_eq_home h' ha, byteAt, byteAt, hpeek a ha]
  have hzero : other.device 0 = b.device 0 := by
    apply cells_ext h.font h'.font (hempty 0 (by omega))
    intro offset ho
    have hhome : home size offset = ⟨0, fontEnd - 1, 0⟩ := if_pos (by omega)
    have heq := hbyte offset (by omega)
    simpa only [hhome, Int.sub_zero] using heq
  have hone : other.device 1 = b.device 1 := by
    apply cells_ext h.rest h'.rest (hempty 1 (by omega))
    intro offset ho
    have hhome : home size (fontEnd + offset) = ⟨fontEnd, size - 1, 1⟩ := if_neg (by omega)
    have heq := hbyte (fontEnd + offset) (by omega)
    have hback : fontEnd + offset - fontEnd = offset := by omega
    simpa only [hhome, hback] using heq
  apply Array.ext
  · rw [h.count, h'.count]
  · intro i hi hi'
    rw [device_eq hi, device_eq hi']
    have hcases : i = 0 ∨ i = 1 := by
      have := h.count
      omega
    rcases hcases with rfl | rfl
    · exact hzero
    · exact hone

theorem bus_eq (hdevices : b.devices = other.devices) (hregions : b.regions = other.regions)
    (hlog : b.log = other.log) (hignored : b.ignored = other.ignored) : b = other := by
  cases b
  cases other
  cases hdevices
  cases hregions
  cases hlog
  cases hignored
  rfl

theorem peek_blank (hgt : fontEnd < size) {a : Int} (ha : InMemory size a)
    (hfont : fontEnd ≤ a) : (blank size).peek a = .ok 0 := by
  have hmapped := mapped_blank hgt
  have hhome : home size a = ⟨fontEnd, size - 1, 1⟩ := if_neg (by omega)
  rw [peek_eq hmapped ha, byteAt_eq_home hmapped ha, hhome]
  simp [blank, withCells, Bus.device, Device.byteAt, Array.getD_eq_getD_getElem?,
    Array.getElem?_replicate]
  split <;> rfl

/-- After a reset the bus of a machine is what it was built with. -/
theorem renewed_eq_standard {fresh : Bus} (h : Mapped size b)
    (hcells : SameCells (blank size) b) (hignored : b.ignored = [])
    (hfresh : Bus.standard size = .ok fresh) : renewed b = fresh := by
  obtain ⟨hgt, rfl⟩ := standard_eq hfresh
  have hblank := mapped_blank hgt
  have hquiet := quiet_font hblank
  have hmapped := mapped_renewed h
  have hsame : SameCells (withFont (blank size)) (renewed b) := by
    have hrenewed := hcells.trans (sameCells_renewed h)
    have hfont := sameCells_withFont (blank size)
    exact ⟨hrenewed.regions.trans hfont.regions.symm, hrenewed.devices.trans hfont.devices.symm⟩
  have hpeek : ∀ a, InMemory size a → (renewed b).peek a = (withFont (blank size)).peek a := by
    intro a ha
    by_cases hfont : fontEnd ≤ a
    · rw [peek_renewed_above h ha hfont, peek_withFont_above hblank hfont,
        peek_blank hgt ha hfont]
    · have hend := fontEnd_eq
      exact peek_eq_of_peekAll (peekAll_withFont hblank) (peekAll_renewed h) ha.1 (by omega)
  have hdevices := devices_eq hquiet.mapped hmapped hsame hpeek
  have hregions := hsame.regions
  have hlog : (renewed b).log = (withFont (blank size)).log := hquiet.log.symm
  have hignored' : (renewed b).ignored = (withFont (blank size)).ignored := by
    rw [ignored_renewed h, hignored, hquiet.ignored]
    rfl
  exact bus_eq hdevices hregions hlog hignored'

end Equal

end Chip8.Proofs.Memory.Contents
