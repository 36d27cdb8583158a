import Chip8.Fault
import Chip8.Place

/-!
# Registers

The registers of the machine apart from the program counter: sixteen general registers V0 to VF,
of which the last also takes flags, the index register I, the call stack with its depth, and the
two timers.  Every value is an integer; instructions keep it in its width, a host may put in
anything.
-/

namespace Chip8

structure Registers where
  v : Vector Int 16 := Vector.replicate 16 0
  index : Int := 0
  depth : Int := 0
  /-- Return addresses, the most recent first. -/
  stack : List Int := []
  delay : Int := 0
  sound : Int := 0
  deriving DecidableEq, Repr

namespace Registers

def flagNumber : Fin 16 := 15

def offsetNumber : Fin 16 := 0

def get (r : Registers) (n : Fin 16) : Int := r.v[n]

/-- Sets a general register to the low byte of a value. -/
def set (r : Registers) (n : Fin 16) (value : Int) : Registers :=
  { r with v := r.v.set n (value % 256) }

/-- Sets a general register to a value as it is. -/
def putRaw (r : Registers) (n : Fin 16) (value : Int) : Registers :=
  { r with v := r.v.set n value }

/-- Sets the general register at a place of their list to a value as it is. -/
def putAt (r : Registers) (n value : Int) : Except PlaceError Registers :=
  (place 16 n).map fun i => r.putRaw i value

def flag (r : Registers) : Int := r.get flagNumber

def setFlag (r : Registers) (value : Int) : Registers := r.set flagNumber value

def number? (n : Int) : Option (Fin 16) := below? 16 n

def read (r : Registers) (n : Int) : Except Fault Int :=
  match number? n with
  | some i => .ok (r.get i)
  | none => .error (.registerOutOfRange n)

def write (r : Registers) (n value : Int) : Except Fault Registers :=
  match number? n with
  | some i => .ok (r.set i value)
  | none => .error (.registerOutOfRange n)

/-- Pushes the low sixteen bits of a return address, unless the stack is full. -/
def push (r : Registers) (limit : Option Int) (address : Int) : Except Fault Registers :=
  match limit with
  | some n =>
    if n ≤ r.stack.length then .error (.stackOverflow n) else .ok (grow r address)
  | none => .ok (grow r address)
where
  grow (r : Registers) (address : Int) : Registers :=
    { r with stack := address % 65536 :: r.stack, depth := r.stack.length + 1 }

def pop (r : Registers) : Except Fault (Int × Registers) :=
  match r.stack with
  | [] => .error .stackUnderflow
  | address :: rest => .ok (address, { r with stack := rest, depth := rest.length })

end Registers

def registerName (n : Fin 16) : String :=
  "V" ++ Text.hexUpper 0 (n.val : Int)

end Chip8
