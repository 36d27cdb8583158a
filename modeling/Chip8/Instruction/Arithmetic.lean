import Chip8.Registers

/-!
# Register arithmetic

The instructions that work on the general registers alone.  Results are kept to a byte.  A flag
is computed from the old values and written last, so it wins over the result when both go to VF.
-/

namespace Chip8.Registers

def flagValue (b : Bool) : Int := if b then 1 else 0

def byteOr (a b : Int) : Int := ((a % 256).toNat ||| (b % 256).toNat : Nat)

def byteAnd (a b : Int) : Int := ((a % 256).toNat &&& (b % 256).toNat : Nat)

def byteXor (a b : Int) : Int := ((a % 256).toNat ^^^ (b % 256).toNat : Nat)

def combine (f : Int → Int → Int) (clearsFlag : Bool) (x y : Fin 16) (r : Registers) :
    Registers :=
  let r := r.set x (f (r.get x) (r.get y))
  if clearsFlag then r.setFlag 0 else r

def addByte (x : Fin 16) (value : Int) (r : Registers) : Registers :=
  r.set x (r.get x + value)

def add (x y : Fin 16) (r : Registers) : Registers :=
  let sum := r.get x + r.get y
  (r.set x sum).setFlag (flagValue (255 < sum))

/-- Subtracts; the flag says that nothing was borrowed. -/
def sub (x y : Fin 16) (r : Registers) : Registers :=
  let a := r.get x
  let b := r.get y
  (r.set x (a - b)).setFlag (flagValue (b ≤ a))

def subFrom (x y : Fin 16) (r : Registers) : Registers :=
  let a := r.get x
  let b := r.get y
  (r.set x (b - a)).setFlag (flagValue (a ≤ b))

def shiftRight (x source : Fin 16) (r : Registers) : Registers :=
  let a := r.get source
  (r.set x (a / 2)).setFlag (a % 2)

def shiftLeft (x source : Fin 16) (r : Registers) : Registers :=
  let a := r.get source
  (r.set x (a * 2)).setFlag (a / 128 % 2)

end Chip8.Registers
