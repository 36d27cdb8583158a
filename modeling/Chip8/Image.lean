import Chip8.Capacity
import Chip8.Value

/-!
# Program images

A program image is what a host loads into memory: bytes one by one, or a number of zero bytes.
-/

namespace Chip8

inductive Image where
  | bytes (data : List Int)
  | zeros (count : Nat)
  deriving DecidableEq, Repr

namespace Image

inductive Error where
  | notAByte
  | negativeCount
  | notBytes
  | tooLarge (e : CapacityError)
  deriving DecidableEq, Repr

def Error.message? : Error → Option String
  | .notAByte => some "bytes must be in range(0, 256)"
  | .negativeCount => some "negative count"
  | .notBytes | .tooLarge _ => none

def byte (value : Value) : Except Error Int :=
  match value.int? with
  | some n => if 0 ≤ n ∧ n ≤ 255 then .ok n else .error .notAByte
  | none => .error .notBytes

/-- The number of bytes that the computer keeps an image in, beside its contents. -/
def overhead : Nat := 33

def ofCount (count : Int) : Except Error Image :=
  if count < -countLimit then .error (.tooLarge .uncountable)
  else if count < 0 then .error .negativeCount
  else if countLimit ≤ count + overhead then .error (.tooLarge .uncountable)
  else match checkCapacity count.toNat with
    | .ok () => .ok (.zeros count.toNat)
    | .error e => .error (.tooLarge e)

/-- The image that a value stands for: of several bad elements the first counts. -/
def ofValue (value : Value) : Except Error Image :=
  match value with
  | .list items | .tuple items | .set items => (items.mapM byte).map .bytes
  | .map entries => ((entries.map Prod.fst).mapM byte).map .bytes
  | .bytes data => .ok (.bytes (data.map fun b => b.toNat))
  | value =>
    match value.int? with
    | some count => ofCount count
    | none => .error .notBytes

def size : Image → Nat
  | .bytes data => data.length
  | .zeros count => count

def toList : Image → List Int
  | .bytes data => data
  | .zeros count => List.replicate count 0

@[simp] theorem length_toList (image : Image) : image.toList.length = image.size := by
  cases image <;> simp [toList, size]

end Image

end Chip8
