import Chip8.Capacity

/-!
# Places

An item of an array is named by a number that counts from the front, or by a negative number that
counts from the end.  A number that no index can hold is refused before the array is looked at.
-/

namespace Chip8

inductive PlaceError where
  | uncountable
  | outside
  deriving DecidableEq, Repr

def PlaceError.message (list : String) : PlaceError → String
  | .uncountable => "cannot fit 'int' into an index-sized integer"
  | .outside => list ++ " index out of range"

/-- The place of the item that a number names among `count` items. -/
def place (count : Nat) (n : Int) : Except PlaceError (Fin count) :=
  if n < -countLimit ∨ countLimit ≤ n then .error .uncountable
  else
    let i := if n < 0 then n + count else n
    if h : 0 ≤ i ∧ i < count then .ok ⟨i.toNat, by omega⟩ else .error .outside

def below? (count : Nat) (n : Int) : Option (Fin count) :=
  if h : 0 ≤ n ∧ n < count then some ⟨n.toNat, by omega⟩ else none

def itemAt {α : Type} (items : Array α) (n : Int) : Except PlaceError α :=
  (place items.size n).map fun i => items[i]

end Chip8
