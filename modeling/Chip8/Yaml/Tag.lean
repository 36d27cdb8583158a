import Chip8.Text.Digit
import Chip8.Yaml.Timestamp

/-!
# Tags

The tag of a node says what kind of value it is.  A plain scalar without a tag is given one by
its look.
-/

namespace Chip8.Yaml

inductive Tag where
  | null
  | bool
  | int
  | float
  | binary
  | timestamp
  | omap
  | pairs
  | set
  | str
  | seq
  | map
  | merge
  /-- The key of the value that stands for its mapping. -/
  | value
  | other (address : String)
  deriving DecidableEq, Repr

namespace Tag

def root : String := "tag:yaml.org,2002:"

def known : List (String × Tag) :=
  [("null", .null), ("bool", .bool), ("int", .int), ("float", .float), ("binary", .binary),
    ("timestamp", .timestamp), ("omap", .omap), ("pairs", .pairs), ("set", .set), ("str", .str),
    ("seq", .seq), ("map", .map), ("merge", .merge), ("value", .value)]

def ofAddress (address : String) : Tag :=
  ((known.find? fun entry => root ++ entry.1 == address).map Prod.snd).getD (.other address)

def isCollection : Tag → Bool
  | .seq | .map | .set | .omap | .pairs => true
  | _ => false

/-! ## The look of plain scalars -/

def trueWords : List String :=
  ["yes", "Yes", "YES", "true", "True", "TRUE", "on", "On", "ON"]

def falseWords : List String :=
  ["no", "No", "NO", "false", "False", "FALSE", "off", "Off", "OFF"]

def dropSign : List Char → List Char
  | '+' :: rest => rest
  | '-' :: rest => rest
  | cs => cs

def isDigitOrGap (base : Nat) (c : Char) : Bool :=
  Text.isDigitOf base c || c == '_'

def digitRun? (cs : List Char) : Option (List Char × List Char) :=
  match cs with
  | c :: _ =>
    if Text.isDigitOf 10 c then
      some (cs.takeWhile (isDigitOrGap 10), cs.dropWhile (isDigitOrGap 10))
    else none
  | [] => none

def dropSixties : List Char → Bool × List Char
  | ':' :: a :: b :: rest =>
    if Text.isDigitOf 6 a && Text.isDigitOf 10 b then (true, (dropSixties rest).2)
    else if Text.isDigitOf 10 a then (true, (dropSixties (b :: rest)).2)
    else (false, ':' :: a :: b :: rest)
  | [':', a] => if Text.isDigitOf 10 a then (true, []) else (false, [':', a])
  | cs => (false, cs)

def isExponent : List Char → Bool
  | [] => true
  | letter :: sign :: digits =>
    (letter == 'e' || letter == 'E') && (sign == '+' || sign == '-') &&
      !digits.isEmpty && digits.all (Text.isDigitOf 10)
  | [_] => false

def looksFloat (cs : List Char) : Bool :=
  let body := dropSign cs
  [".inf", ".Inf", ".INF"].contains (String.ofList body) ||
    [".nan", ".NaN", ".NAN"].contains (String.ofList cs) ||
    (match cs with
      | '.' :: rest => (digitRun? rest).any fun (_, rest) => isExponent rest
      | _ => false) ||
    (match digitRun? body with
      | some (_, '.' :: rest) => isExponent (rest.dropWhile (isDigitOrGap 10))
      | some (_, rest) =>
        match dropSixties rest with
        | (true, '.' :: rest) => rest.all (isDigitOrGap 10)
        | _ => false
      | none => false)

def looksInt (cs : List Char) : Bool :=
  match dropSign cs with
  | ['0'] => true
  | '0' :: 'b' :: digits => !digits.isEmpty && digits.all (isDigitOrGap 2)
  | '0' :: 'x' :: digits => !digits.isEmpty && digits.all (isDigitOrGap 16)
  | '0' :: digits => digits.all (isDigitOrGap 8)
  | body =>
    match digitRun? body with
    | some (_, []) => true
    | some (_, rest) => dropSixties rest == (true, [])
    | none => false

/-- The tag that a scalar without a tag has by its look; a line feed at its end does not
count. -/
def ofLook (text : String) : Tag :=
  if text.isEmpty then .null
  else
    let cs := Timestamp.dropLineFeed text.toList
    let look := String.ofList cs
    if trueWords.contains look || falseWords.contains look then .bool
    else if looksFloat cs then .float
    else if looksInt cs then .int
    else if look == "<<" then .merge
    else if ["~", "null", "Null", "NULL"].contains look then .null
    else if Timestamp.isPlainTimestamp cs then .timestamp
    else if look == "=" then .value
    else if ["!", "&", "*"].contains look then .other (root ++ "yaml")
    else .str

def ofText (text : Text) : Tag :=
  (text.toString?.map ofLook).getD .str

end Tag

end Chip8.Yaml
