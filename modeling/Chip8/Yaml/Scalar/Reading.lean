import Chip8.Decimal.Reading
import Chip8.Text.Base64
import Chip8.Text.Case
import Chip8.Value
import Chip8.Yaml.Error
import Chip8.Yaml.Tag

/-!
# Values of scalars

The value that the text of a scalar spells under its tag.
-/

namespace Chip8.Yaml.Scalar

def takeSign : List Letter → Bool × List Letter
  | .char '-' :: rest => (true, rest)
  | .char '+' :: rest => (false, rest)
  | letters => (false, letters)

def ungrouped (text : Text) : Text :=
  ⟨text.letters.filter (· != .char '_')⟩

def signed (text : Text) : Except Error (Bool × List Letter) :=
  if text.isEmpty then .error .emptyNumber else .ok (takeSign text.letters)

def hasPlaces (letters : List Letter) : Bool :=
  letters.contains (.char ':')

def places (letters : List Letter) : List Text :=
  (letters.splitOn (.char ':')).map Text.mk

/-! ## Integers -/

def integer (base : Nat) (text : Text) : Except Error Int :=
  (Text.readInt base text).mapError .badInteger

def sixties (digits : List Int) : Int :=
  digits.foldl (fun n digit => n * 60 + digit) 0

def unsignedInt : List Letter → Except Error Int
  | [] => .error .emptyNumber
  | [.char '0'] => .ok 0
  | .char '0' :: .char 'b' :: digits => integer 2 ⟨digits⟩
  | .char '0' :: .char 'x' :: digits => integer 16 ⟨digits⟩
  | .char '0' :: digits => integer 8 ⟨.char '0' :: digits⟩
  | letters =>
    if hasPlaces letters then ((places letters).mapM (integer 10)).map sixties
    else integer 10 ⟨letters⟩

def int (text : Text) : Except Error Int := do
  let (negative, letters) ← signed (ungrouped text)
  let n ← unsignedInt letters
  pure (if negative then -n else n)

/-! ## Floats -/

def decimal (text : Text) : Except Error Float :=
  match Decimal.readFloat? text with
  | some x => .ok x
  | none => .error (.badFloat text)

/-- Adds up the digits of a number in base sixty, least significant first, behind a sum; `weight`
is what the next digit counts. -/
def floatSixties (sum : Float) (weight : Nat) : List Float → Except Error Float
  | [] => .ok sum
  | digit :: rest =>
    match Decimal.intFloat? weight with
    | none => .error .tooManyPlaces
    | some unit => floatSixties (sum + digit * unit) (weight * 60) rest

def isNotANumber (letters : List Letter) : Bool :=
  (⟨letters⟩ : Text) == ".nan"

def unsignedFloat (letters : List Letter) : Except Error Float :=
  if (⟨letters⟩ : Text) == ".inf" then .ok (1.0 / 0.0)
  else if isNotANumber letters then .ok (0.0 / 0.0)
  else if hasPlaces letters then do
    let digits ← (places letters).mapM decimal
    floatSixties 0.0 1 digits.reverse
  else decimal ⟨letters⟩

def float (text : Text) : Except Error Float := do
  let (negative, letters) ← signed (ungrouped text).lower
  let x ← unsignedFloat letters
  pure (if negative then -x else x)

def spellsNotANumber (text : Text) : Bool :=
  isNotANumber (takeSign (ungrouped text).lower.letters).2

/-! ## Other scalars -/

def bool (text : Text) : Except Error Bool :=
  let isWord (word : String) : Bool := text.lower == word
  if Tag.trueWords.any isWord then .ok true
  else if Tag.falseWords.any isWord then .ok false
  else .error .notABool

def timestamp (text : Text) : Except Error Value :=
  match text.toString?.bind Timestamp.ofText? with
  | none => .error .notATimestamp
  | some t =>
    match t.clock with
    | none => (t.date.map Value.date).mapError .badDate
    | some clock => ((t.moment clock).map Value.moment).mapError .badDate

def binary (text : Text) : Except Error Value :=
  match text.chars?.filter fun cs => cs.all (·.toNat < 128) with
  | none => .error (.malformed "bytes in base 64 are spelled in ASCII")
  | some cs =>
    match Text.Base64.decode? cs with
    | some data => .ok (.bytes data)
    | none => .error (.malformed "bytes in base 64 that end too early")

def value (tag : Tag) (text : Text) : Except Error Value :=
  match tag with
  | .null => .ok .null
  | .bool => (bool text).map .bool
  | .int => (int text).map .int
  | .float => (float text).map .float
  | .binary => binary text
  | .timestamp => timestamp text
  | .str => .ok (.text text)
  | _ => .error (.malformed "a tag that no scalar has")

end Chip8.Yaml.Scalar
