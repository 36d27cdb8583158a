import Chip8.Memory.Error

/-!
# Memory devices

A device answers reads and writes at offsets from its start.  Cells hold bytes; read-only cells
ignore writes with a notice, and are filled by loading.  A recorder keeps every write instead of
storing it and can be attached where no memory is.
-/

namespace Chip8.Memory

structure IgnoredWrite where
  value : Int
  offset : Int
  deriving DecidableEq, Repr

def IgnoredWrite.text (w : IgnoredWrite) : String :=
  s!"Ignored write of {Text.hex 4 w.value} to read-only offset {Text.hex 5 w.offset}."

inductive DeviceKind where
  | cells (kind : CellKind)
  | recorder
  deriving DecidableEq, Repr

inductive Device where
  /-- Cells, with their number as it was given. -/
  | cells (kind : CellKind) (size : Value) (bytes : Array UInt8)
  /-- The writes so far as offset and value, oldest first. -/
  | recorder (writes : List (Int × Int))
  deriving Inhabited

namespace Device

def createCells (kind : CellKind) (size : Value) (count : Int) : Except Error Device :=
  if count ≤ 0 then .error (.badSize kind size)
  else match checkCapacity count.toNat with
    | .ok () => .ok (.cells kind size (Array.replicate count.toNat 0))
    | .error e => .error (.tooLarge e)

def create (kind : DeviceKind) (size : Value) : Except Error Device :=
  match kind, size.int? with
  | .recorder, _ => .ok (.recorder [])
  | .cells kind, some count => createCells kind size count
  | .cells kind, none => .error (.badSize kind size)

def size? : Device → Option Value
  | .cells _ size _ => some size
  | .recorder _ => none

/-- What a recorder answers at an offset: seven times the offset plus the number of writes,
within a byte. -/
def recorderByte (offset : Int) (writes : List (Int × Int)) : Int :=
  (7 * offset + writes.length) % 256

def byteAt (d : Device) (offset : Int) : Int :=
  match d with
  | .cells _ _ bytes => (bytes.getD offset.toNat 0).toNat
  | .recorder writes => recorderByte offset writes

def store (offset value : Int) : Device → Device
  | .cells kind size bytes =>
    .cells kind size (bytes.setIfInBounds offset.toNat (UInt8.ofNat value.toNat))
  | .recorder writes => .recorder (writes ++ [(offset, value)])

def isReadOnly : Device → Bool
  | .cells .rom _ _ => true
  | _ => false

/-! ## What is refused -/

def offsetError? (d : Device) (offset : Int) : Option Error :=
  match d with
  | .cells kind size bytes =>
    if 0 ≤ offset ∧ offset < bytes.size then none else some (.offsetOutside offset kind size)
  | .recorder _ => none

/-- What is wrong with a value: cells hold bytes, recorders keep anything. -/
def valueError? (d : Device) (value : Int) : Option Error :=
  match d with
  | .cells _ _ _ => if 0 ≤ value ∧ value ≤ 255 then none else some (.notAByte value)
  | .recorder _ => none

def loadError? (d : Device) (offset value : Int) : Option Error :=
  (d.offsetError? offset).or (d.valueError? value)

/-- What is wrong with a write: where writes are ignored any value will do. -/
def writeError? (d : Device) (offset value : Int) : Option Error :=
  if d.isReadOnly then d.offsetError? offset else d.loadError? offset value

/-! ## Access -/

def read (d : Device) (offset : Int) : Except Error Int :=
  match d.offsetError? offset with
  | some e => .error e
  | none => .ok (d.byteAt offset)

def written (offset value : Int) (d : Device) : Device :=
  if d.isReadOnly then d else d.store offset value

def notice? (d : Device) (offset value : Int) : Option IgnoredWrite :=
  if d.isReadOnly then some ⟨value, offset⟩ else none

/-- Sets all cells to zero; a recorder keeps its writes. -/
def clear : Device → Device
  | .cells kind size bytes => .cells kind size (Array.replicate bytes.size 0)
  | .recorder writes => .recorder writes

/-- Sets the cells to zero unless they are read-only. -/
def clearWritable : Device → Device
  | .cells .ram size bytes => (Device.cells .ram size bytes).clear
  | d => d

end Device

end Chip8.Memory
