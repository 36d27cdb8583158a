/-!
# Shortest decimals

The decimal with the fewest digits that lies among the reals rounding to a given binary
floating-point number; of several the nearest, and of two equally near ones the even one.
A finite number is taken as an integer significand times a power of two, so that everything is
exact arithmetic on natural numbers.
-/

namespace Chip8

/-- A positive decimal `digits * 10 ^ exponent`. -/
structure Decimal where
  digits : Nat
  exponent : Int
  deriving DecidableEq, Repr

namespace Decimal

/-- A positive binary number `significand * 2 ^ exponent`; `atPowerOfTwo` says that the next
smaller number is only half as far away as the next larger one. -/
structure Binary where
  significand : Nat
  exponent : Int
  atPowerOfTwo : Bool
  deriving DecidableEq, Repr

structure Fraction where
  numerator : Nat
  denominator : Nat
  deriving DecidableEq, Repr

namespace Binary

def scaled (quarters : Nat) (exponent : Int) : Fraction :=
  ⟨quarters * Nat.pow 2 (exponent - 2).toNat, Nat.pow 2 (2 - exponent).toNat⟩

def value (b : Binary) : Fraction :=
  scaled (4 * b.significand) b.exponent

def lower (b : Binary) : Fraction :=
  scaled (4 * b.significand - if b.atPowerOfTwo then 1 else 2) b.exponent

def upper (b : Binary) : Fraction :=
  scaled (4 * b.significand + 2) b.exponent

/-- Whether the two halfway points round to the number as well. -/
def closed (b : Binary) : Bool :=
  b.significand % 2 = 0

end Binary

def Fraction.below (strict : Bool) (x y : Fraction) : Bool :=
  let left := x.numerator * y.denominator
  let right := y.numerator * x.denominator
  if strict then left < right else left ≤ right

def value (d : Decimal) : Fraction :=
  ⟨d.digits * Nat.pow 10 d.exponent.toNat, Nat.pow 10 (-d.exponent).toNat⟩

def reads (d : Decimal) (b : Binary) : Bool :=
  b.lower.below (!b.closed) d.value && d.value.below (!b.closed) b.upper

def floorAt (b : Binary) (exponent : Int) : Decimal :=
  let x := b.value
  ⟨x.numerator * Nat.pow 10 (-exponent).toNat / (x.denominator * Nat.pow 10 exponent.toNat),
    exponent⟩

/-- Of the two multiples of `10 ^ exponent` around the number, the one that rounds to it; if
both do, the nearer one, and the even one of two equally near. -/
def candidate? (b : Binary) (exponent : Int) : Option Decimal :=
  let low := floorAt b exponent
  let high : Decimal := ⟨low.digits + 1, exponent⟩
  match low.reads b, high.reads b with
  | false, false => none
  | true, false => some low
  | false, true => some high
  | true, true =>
    let x := b.value
    let scale := x.denominator * Nat.pow 10 exponent.toNat
    let twice := 2 * (x.numerator * Nat.pow 10 (-exponent).toNat - low.digits * scale)
    if twice < scale then some low
    else if scale < twice then some high
    else if low.digits % 2 = 0 then some low else some high

def leadingZeros (x : Fraction) : Nat → Nat → Nat
  | 0, j => j
  | fuel + 1, j =>
    if x.denominator ≤ x.numerator * Nat.pow 10 j then j else leadingZeros x fuel (j + 1)

/-- The `k` with `10 ^ (k - 1) ≤ x < 10 ^ k`. -/
def magnitude (b : Binary) : Int :=
  let x := b.value
  if x.denominator ≤ x.numerator then (Nat.toDigits 10 (x.numerator / x.denominator)).length
  else 1 - (leadingZeros x 400 0 : Int)

/-- The shortest decimal that reads back as the number: grids of one to seventeen digits are
tried in turn, and the seventeenth always holds one. -/
def shortest (b : Binary) : Decimal :=
  let k := magnitude b
  ((List.range 17).findSome? fun n : Nat => candidate? b (k - (n + 1))).getD (floorAt b (k - 17))

end Decimal

end Chip8
