import Chip8.Fault
import Chip8.Place

/-!
# The keypad

Sixteen keys, numbered 0 to F.  Only the host presses and releases keys; instructions look.
-/

namespace Chip8

structure Keypad where
  keys : Vector Bool 16 := Vector.replicate 16 false
  deriving DecidableEq, Repr

namespace Keypad

def key? (index : Int) : Option (Fin 16) := below? 16 index

def ofLowDigit (value : Int) : Fin 16 := ⟨(value % 16).toNat, by omega⟩

def pressed (k : Keypad) (key : Fin 16) : Bool := k.keys.get key

def put (k : Keypad) (key : Fin 16) (down : Bool) : Keypad :=
  ⟨k.keys.setIfInBounds key down⟩

/-- Presses or releases the key that a value names: integers from 0 to 15 do. -/
def set (k : Keypad) (index : Value) (down : Bool) : Except Fault Keypad :=
  match index.int?.bind key? with
  | some key => .ok (k.put key down)
  | none => .error (.invalidKey index)

def isPressed (k : Keypad) (index : Int) : Except Fault Bool :=
  match key? index with
  | some key => .ok (k.pressed key)
  | none => .error (.invalidKey (.int index))

inductive LookError where
  | fault (f : Fault)
  | betweenKeys

/-- Whether the key that a value names is pressed: integers from 0 to 15 name keys. -/
def look (k : Keypad) (index : Value) : Except LookError Bool :=
  match index, index.int? with
  | _, some n => (k.isPressed n).mapError .fault
  | .float x, none =>
    if 0.0 ≤ x ∧ x < 16.0 then .error .betweenKeys else .error (.fault (.invalidKey index))
  | _, none => .error .betweenKeys

def pressedKeys (k : Keypad) : List (Fin 16) :=
  (List.finRange 16).filter k.pressed

/-- The lowest pressed key. -/
def first? (k : Keypad) : Option (Fin 16) :=
  (List.finRange 16).find? k.pressed

def releaseAll (_ : Keypad) : Keypad := {}

end Keypad

end Chip8
