import Chip8.Config.Settings

/-!
# Reading settings

Settings are read from the mapping that a document holds.  Integers may be given as such or
spelled out, in decimal or, behind `0x`, in hexadecimal; what is not given has its default.  Keys
that settings do not have are ignored with a notice.  Of several mistakes the first in a fixed
order of fields is told.
-/

namespace Chip8

def Value.isText (name : String) : Value → Bool
  | .text t => t == name
  | _ => false

def Value.lookup? (entries : List (Value × Value)) (name : String) : Option Value :=
  (entries.find? fun entry => entry.1.isText name).map Prod.snd

namespace Settings

def knownKeys : List String :=
  ["memory_size", "load_address", "stack_limit", "cycles_per_frame", "timer_hz", "seed", "quirks"]

def knownSwitches : List String :=
  ["shift_uses_vy", "memory_increments_index", "reset_vf_on_logic"]

def isKnown (names : List String) (key : Value) : Bool :=
  names.any fun name => key.isText name

/-- Whether a text spells a hexadecimal number: whether it starts with `0x`. -/
def isHexadecimal (text : Text) : Bool :=
  match text.letters with
  | .char '0' :: .char c :: _ => c == 'x' || c == 'X'
  | _ => false

/-! ## Fields -/

/-- An integer, given as such or spelled out; a truth value is none. -/
def readInt (d : Document) : Value → Except Error Int
  | .int z => .ok z
  | .text t => (Text.readInt (if isHexadecimal t then 16 else 10) t).mapError .badNumeral
  | value =>
    match d.plain value with
    | .ok text => .error (.notAnInteger text)
    | .error e => .error (.unshown e)

def readOptionalInt (d : Document) : Value → Except Error (Option Int)
  | .null => .ok none
  | value => (readInt d value).map some

def field {α : Type} (entries : List (Value × Value)) (name : String)
    (read : Value → Except Error α) (standard : α) : Except Error α :=
  match Value.lookup? entries name with
  | some value => read value
  | none => .ok standard

def readNumbers (d : Document) (entries : List (Value × Value)) : Except Error Settings := do
  let standard : Settings := {}
  let memorySize ← field entries "memory_size" (readInt d) standard.memorySize
  let loadAddress ← field entries "load_address" (readInt d) standard.loadAddress
  let stackLimit ← field entries "stack_limit" (readOptionalInt d) standard.stackLimit
  let cyclesPerFrame ← field entries "cycles_per_frame" (readInt d) standard.cyclesPerFrame
  let timerRate ← field entries "timer_hz" (readInt d) standard.timerRate
  let seed ← field entries "seed" (readOptionalInt d) standard.seed
  pure { memorySize, loadAddress, stackLimit, cyclesPerFrame, timerRate, seed }

/-! ## Keys -/

/-- Whether a value can be looked for among names: what can be a key can, and so can a set, which
is compared by its items. -/
def canBeSought (d : Document) (value : Value) : Bool :=
  match d.resolve value with
  | .set _ => true
  | _ => value.canBeKey

/-- The notices about keys that are none of some names, up to the first key that cannot be looked
for or shown, which is an error. -/
def unknownNames (d : Document) (names : List String) (notice : Text → Notice) :
    List Value → List Notice × Except Error Unit
  | [] => ([], .ok ())
  | key :: rest =>
    if !canBeSought d key then ([], .error .dialectBadKey)
    else if isKnown names key then unknownNames d names notice rest
    else match d.plain key with
      | .error e => ([], .error (.unshown e))
      | .ok text =>
        let (notices, outcome) := unknownNames d names notice rest
        (notice text :: notices, outcome)

/-! ## The dialect -/

def elements? : Value → Option (List Value)
  | .list items | .tuple items | .set items => some items
  | .map entries => some (entries.map Prod.fst)
  | .text t => some (t.letters.map fun l => .text ⟨[l]⟩)
  | .bytes data => some (data.map fun b => .int b.toNat)
  | _ => none

def isOn (d : Document) (entries : List (Value × Value)) (name : String) : Bool :=
  ((Value.lookup? entries name).map d.isTrue).getD false

def dialectOf (d : Document) (entries : List (Value × Value)) : Dialect where
  shiftsSecond := isOn d entries "shift_uses_vy"
  movesIndex := isOn d entries "memory_increments_index"
  logicClearsFlag := isOn d entries "reset_vf_on_logic"

/-- Reads the dialect; a value that counts as false gives the standard one. -/
def readDialect (d : Document) (value : Value) : List Notice × Except Error Dialect :=
  let value := d.resolve value
  if !value.isTrue then ([], .ok {})
  else match elements? value with
    | none => ([], .error .dialectWithoutKeys)
    | some keys =>
      match unknownNames d knownSwitches .unknownSwitch keys, value with
      | (notices, .error e), _ => (notices, .error e)
      | (notices, .ok ()), .map entries => (notices, .ok (dialectOf d entries))
      | (notices, .ok ()), _ => (notices, .error .dialectWithoutValues)

/-! ## Settings -/

def readFields (d : Document) (entries : List (Value × Value)) :
    List Notice × Except Error Settings :=
  match readNumbers d entries with
  | .error e => ([], .error e)
  | .ok numbers =>
    let (notices, dialect) := readDialect d ((Value.lookup? entries "quirks").getD .null)
    (notices, dialect.bind fun dialect => check { numbers with dialect })

def readEntries (d : Document) (entries : List (Value × Value)) :
    List Notice × Except Error Settings :=
  match unknownNames d knownKeys .unknownKey (entries.map Prod.fst) with
  | (notices, .error e) => (notices, .error e)
  | (notices, .ok ()) =>
    let (more, settings) := readFields d entries
    (notices ++ more, settings)

def ofDocument (d : Document) : List Notice × Except Error Settings :=
  match d.resolve d.root with
  | .map entries => readEntries d entries
  | value => ([], .error (.notAMapping value.kindName))

def ofValue (value : Value) : List Notice × Except Error Settings :=
  ofDocument (.ofValue value)

end Settings

end Chip8
