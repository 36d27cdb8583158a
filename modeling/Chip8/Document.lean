import Chip8.Capacity
import Chip8.Text.Numeral
import Chip8.Value

/-!
# Documents

A document is a value whose collections can be mentioned again, also inside themselves.  To be
shown it is unfolded into a value that says everything in full, except that a collection inside
itself is only hinted at.
-/

namespace Chip8

/-- How many levels of values inside one another can be shown, one call each; eight calls are
under way where a value is. -/
def shownLevels : Nat := callDepth - 8

/-- A value together with the collections that it mentions by number. -/
structure Document where
  root : Value
  collections : Array Value := #[]
  levels : Nat := shownLevels

inductive ShowError where
  | tooManyDigits
  | tooDeep
  deriving DecidableEq, Repr

def ShowError.message? : ShowError → Option String
  | .tooManyDigits => some s!"{Text.NumeralError.limitText}; {Text.NumeralError.limitAdvice}"
  | .tooDeep => none

def hasTooManyDigits (z : Int) : Bool :=
  Nat.pow 10 Text.NumeralError.digitLimit ≤ z.natAbs

namespace Document

def ofValue (value : Value) : Document := { root := value }

def resolve (d : Document) : Value → Value
  | .shared number _ => d.collections.getD number .null
  | value => value

/-- Unfolds a value; `around` are the numbers of the collections around it. -/
def unfold (d : Document) : Nat → List Nat → Value → Except ShowError Value
  | 0, _, _ => .error .tooDeep
  | depth + 1, around, .shared number isMap =>
    if around.contains number then .ok (.shared number isMap)
    else contents (unfold d depth (number :: around)) (d.resolve (.shared number isMap))
  | depth + 1, around, value => contents (unfold d depth around) value
where
  contents (each : Value → Except ShowError Value) : Value → Except ShowError Value
    | .int z => if hasTooManyDigits z then .error .tooManyDigits else .ok (.int z)
    | .list items => (items.mapM each).map .list
    | .tuple items => (items.mapM each).map .tuple
    | .set items => (items.mapM each).map .set
    | .map entries =>
      (entries.mapM fun (key, value) => return (← each key, ← each value)).map .map
    | value => .ok value

def plain (d : Document) (value : Value) : Except ShowError Text :=
  (d.unfold d.levels [] value).map Value.plain

def isTrue (d : Document) (value : Value) : Bool :=
  (d.resolve value).isTrue

end Document

def Value.plain? (value : Value) : Except ShowError Text :=
  (Document.ofValue value).plain value

end Chip8
