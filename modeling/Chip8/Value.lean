import Chip8.Calendar
import Chip8.Decimal.FloatText
import Chip8.Text.Quoted

/-!
# Values

The values that a host or a configuration document can give, with the two ways to write one: the
plain text, in which a text stands for itself, and the quoted text, in which it stands between
quotes.
-/

namespace Chip8

inductive Value where
  | null
  | bool (b : Bool)
  | int (z : Int)
  | float (x : Float)
  | text (t : Text)
  | bytes (data : List UInt8)
  | date (d : Date)
  | moment (m : Moment)
  | list (items : List Value)
  | tuple (items : List Value)
  | set (items : List Value)
  | map (entries : List (Value × Value))
  /-- A collection that a document holds elsewhere, by its number; the flag tells mappings from
  other collections. -/
  | shared (number : Nat) (isMap : Bool)
  deriving Inhabited

namespace Value

def kindName : Value → String
  | .null => "NoneType"
  | .bool _ => "bool"
  | .int _ => "int"
  | .float _ => "float"
  | .text _ => "str"
  | .bytes _ => "bytes"
  | .date _ => "date"
  | .moment _ => "datetime"
  | .list _ => "list"
  | .tuple _ => "tuple"
  | .set _ => "set"
  | .map _ => "dict"
  | .shared _ isMap => if isMap then "dict" else "list"

/-- Whether a value counts as true: all do except nothing, false, zero and what is empty. -/
def isTrue : Value → Bool
  | .null => false
  | .bool b => b
  | .int z => z != 0
  | .float x => x != 0.0
  | .text t => !t.isEmpty
  | .bytes data => !data.isEmpty
  | .list items | .tuple items | .set items => !items.isEmpty
  | .map entries => !entries.isEmpty
  | .date _ | .moment _ | .shared _ _ => true

/-- The integer that a value counts as; truth values count as zero and one. -/
def int? : Value → Option Int
  | .int z => some z
  | .bool b => some (if b then 1 else 0)
  | _ => none

/-! ## Keys -/

mutual

/-- Whether a value can be a key: collections that can change cannot. -/
def canBeKey : Value → Bool
  | .list _ | .set _ | .map _ | .shared _ _ => false
  | .tuple items => allCanBeKeys items
  | _ => true

def allCanBeKeys : List Value → Bool
  | [] => true
  | item :: rest => canBeKey item && allCanBeKeys rest

end

/-- Whether a value can be looked for among keys: a set can, though it is none, as it is compared by
its items. -/
def canBeSought : Value → Bool
  | .set _ => true
  | v => canBeKey v

/-! ## Text -/

mutual

def quoted : Value → String
  | .null => "None"
  | .bool b => if b then "True" else "False"
  | .int z => toString z
  | .float x => Decimal.floatText x
  | .text t => t.quoted
  | .bytes data => Text.quotedBytes data
  | .date d => d.quoted
  | .moment m => m.quoted
  | .list items => "[" ++ ", ".intercalate (quotedItems items) ++ "]"
  | .tuple [item] => "(" ++ quoted item ++ ",)"
  | .tuple items => "(" ++ ", ".intercalate (quotedItems items) ++ ")"
  | .set [] => "set()"
  | .set items => "\x7b" ++ ", ".intercalate (quotedItems items) ++ "\x7d"
  | .map entries => "\x7b" ++ ", ".intercalate (quotedEntries entries) ++ "\x7d"
  | .shared _ isMap => if isMap then "\x7b...\x7d" else "[...]"

def quotedItems : List Value → List String
  | [] => []
  | item :: rest => quoted item :: quotedItems rest

def quotedEntries : List (Value × Value) → List String
  | [] => []
  | (key, value) :: rest => (quoted key ++ ": " ++ quoted value) :: quotedEntries rest

end

def plain : Value → Text
  | .text t => t
  | .date d => d.text
  | .moment m => m.text
  | value => value.quoted

/-! ## Sameness

Numbers are the same when they are equal, whether they are floats, integers or truth values, and
moments are the same in all zones. -/

def integer? : Value → Option Int
  | .float x => (Decimal.Parts.ofBits x.toBits.toNat).integer?
  | v => v.int?

def sameNumber (a b : Value) : Bool :=
  match integer? a, integer? b, a, b with
  | some m, some n, _, _ => m == n
  | none, none, .float x, .float y => x == y
  | _, _, _, _ => false

mutual

def same : Value → Value → Bool
  | .null, .null => true
  | .text s, .text t => s == t
  | .bytes s, .bytes t => s == t
  | .date d, .date e => d == e
  | .moment m, .moment n => m.offset.isSome == n.offset.isSome && m.instant == n.instant
  | .list items, .list others | .tuple items, .tuple others => sameItems items others
  | .map entries, .map others => entries.length == others.length && sameEntries entries others
  | a, b => sameNumber a b

def sameItems : List Value → List Value → Bool
  | [], [] => true
  | item :: rest, other :: others => same item other && sameItems rest others
  | _, _ => false

def sameEntries : List (Value × Value) → List (Value × Value) → Bool
  | [], _ => true
  | (key, value) :: rest, others =>
    others.any (fun other => same key other.1 && same value other.2) && sameEntries rest others

end

end Value

end Chip8
