import Chip8.Memory.Device

/-!
# The bus

The bus maps ranges of addresses to devices; where ranges overlap, the one attached first
answers.  Reads and writes are logged, so that a trace can show what an instruction touched.
Peeking and loading go past the log: they serve listings, inspection and loading programs.
-/

namespace Chip8.Memory

inductive AccessKind where
  | read
  | write
  deriving DecidableEq, Repr

structure Access where
  address : Int
  value : Int
  kind : AccessKind
  deriving DecidableEq, Repr

structure Region where
  first : Int
  last : Int
  device : Nat
  deriving DecidableEq, Repr

def Region.contains (r : Region) (address : Int) : Bool :=
  r.first ≤ address && address ≤ r.last

/-- Devices, the ranges they are attached to in order of attachment, the accesses logged since
the log was last taken and the writes ignored since the host was last told. -/
structure Bus where
  devices : Array Device := #[]
  regions : List Region := []
  log : List Access := []
  ignored : List IgnoredWrite := []
  deriving Inhabited

inductive Attachment where
  | device (number : Nat)
  | foreign (name : String)

namespace Bus

def addDevice (b : Bus) (d : Device) : Bus × Nat :=
  ({ b with devices := b.devices.push d }, b.devices.size)

def device (b : Bus) (number : Nat) : Device :=
  b.devices.getD number default

def attach (b : Bus) (first last : Int) : Attachment → Except Error Bus
  | .device number =>
    if 0 ≤ first ∧ first ≤ last then
      let attached : Bus := { b with regions := b.regions ++ [⟨first, last, number⟩] }
      let span := last - first + 1
      match b.device number with
      | .cells kind size bytes =>
        if (bytes.size : Int) = span then .ok attached
        else .error (.sizeMismatch kind size span)
      | .recorder _ => .ok attached
    else .error (.badRange first last)
  | .foreign name =>
    if 0 ≤ first ∧ first ≤ last then .error (.notADevice name)
    else .error (.badRange first last)

/-- One more than the last address of any region. -/
def size (b : Bus) : Int :=
  b.regions.foldl (fun top r => max top (r.last + 1)) 0

/-- The region that serves an address: of all that contain it, the one attached first. -/
def region? (b : Bus) (address : Int) : Option Region :=
  b.regions.find? (·.contains address)

def peek (b : Bus) (address : Int) : Except Error Int :=
  match b.region? address with
  | some r => (b.device r.device).read (address - r.first)
  | none => .error (.unmapped address)

def read (b : Bus) (address : Int) : Except Error (Int × Bus) :=
  match b.peek address with
  | .ok value => .ok (value, { b with log := b.log ++ [⟨address, value, .read⟩] })
  | .error e => .error e

/-! ## Writing

Whether a write is refused is told apart from what it does, so that nothing is changed by a write
that is refused. -/

/-- The bus after a write to a device by its number that is not refused; a write that the device
ignores leaves a notice. -/
def deviceWritten (b : Bus) (number : Nat) (offset value : Int) : Bus :=
  let notice := (b.device number).notice? offset value
  { b with
    devices := b.devices.modify number (Device.written offset value)
    ignored := b.ignored ++ notice.toList }

def writeDevice (b : Bus) (number : Nat) (offset value : Int) : Except Error Bus :=
  match (b.device number).writeError? offset value with
  | some e => .error e
  | none => .ok (b.deviceWritten number offset value)

def deviceLoaded (b : Bus) (number : Nat) (offset value : Int) : Bus :=
  { b with devices := b.devices.modify number (Device.store offset value) }

def loadDevice (b : Bus) (number : Nat) (offset value : Int) : Except Error Bus :=
  match (b.device number).loadError? offset value with
  | some e => .error e
  | none => .ok (b.deviceLoaded number offset value)

def writeError? (b : Bus) (address value : Int) : Option Error :=
  match b.region? address with
  | some r => (b.device r.device).writeError? (address - r.first) value
  | none => some (.unmapped address)

def written (b : Bus) (address value : Int) : Bus :=
  match b.region? address with
  | some r =>
    let b := b.deviceWritten r.device (address - r.first) value
    { b with log := b.log ++ [⟨address, value, .write⟩] }
  | none => b

/-- A write by an instruction, with a log entry also when the device ignored it. -/
def write (b : Bus) (address value : Int) : Except Error Bus :=
  match b.writeError? address value with
  | some e => .error e
  | none => .ok (b.written address value)

def loadError? (b : Bus) (address value : Int) : Option Error :=
  match b.region? address with
  | some r => (b.device r.device).loadError? (address - r.first) value
  | none => some (.unmapped address)

def loaded (b : Bus) (address value : Int) : Bus :=
  match b.region? address with
  | some r => b.deviceLoaded r.device (address - r.first) value
  | none => b

/-- Stores a value past the log and past write protection. -/
def load (b : Bus) (address value : Int) : Except Error Bus :=
  match b.loadError? address value with
  | some e => .error e
  | none => .ok (b.loaded address value)

/-- Loads values at consecutive addresses until one is refused; the bus keeps what was loaded
before. -/
def loadAll (b : Bus) (address : Int) : List Int → Bus × Option Error
  | [] => (b, none)
  | value :: rest =>
    match b.loadError? address value with
    | none => (b.loaded address value).loadAll (address + 1) rest
    | some e => (b, some e)

def takeLog (b : Bus) : List Access × Bus :=
  (b.log, { b with log := [] })

def takeIgnored (b : Bus) : List IgnoredWrite × Bus :=
  (b.ignored, { b with ignored := [] })

def clearDevice (b : Bus) (number : Nat) : Bus :=
  { b with devices := b.devices.modify number Device.clear }

/-- Sets all attached cells to zero that are not read-only. -/
def clearWritable (b : Bus) : Bus :=
  b.regions.foldl (fun b r =>
    { b with devices := b.devices.modify r.device Device.clearWritable }) b

def peekAll (b : Bus) (address : Int) : Nat → Except Error (List Int)
  | 0 => .ok []
  | count + 1 =>
    match b.peek address with
    | .ok value =>
      match b.peekAll (address + 1) count with
      | .ok rest => .ok (value :: rest)
      | .error e => .error e
    | .error e => .error e

end Bus

end Chip8.Memory
