import Chip8.Decimal.Shortest

/-!
# Text of floating-point numbers

A number is written with the fewest digits that read back.  The notation is positional from
0.0001 up to below ten to the sixteenth and keeps one place after the point; outside that range
one digit stands before the point and a signed exponent of at least two digits follows.
-/

namespace Chip8.Decimal

inductive Parts where
  | zero (negative : Bool)
  | finite (negative : Bool) (magnitude : Binary)
  | infinite (negative : Bool)
  | nan
  deriving DecidableEq, Repr

def Parts.ofBits (bits : Nat) : Parts :=
  let negative := bits / Nat.pow 2 63 % 2 == 1
  let biased : Nat := bits / Nat.pow 2 52 % Nat.pow 2 11
  let fraction : Nat := bits % Nat.pow 2 52
  if biased = 2047 then if fraction = 0 then .infinite negative else .nan
  else if biased = 0 then
    if fraction = 0 then .zero negative else .finite negative ⟨fraction, -1074, false⟩
  else .finite negative ⟨Nat.pow 2 52 + fraction, (biased : Int) - 1075, fraction = 0 ∧ 1 < biased⟩

def Parts.integer? : Parts → Option Int
  | .zero _ => some 0
  | .finite negative b =>
    let divisor := Nat.pow 2 (-b.exponent).toNat
    if b.significand % divisor = 0 then
      let size : Int := (b.significand / divisor * Nat.pow 2 b.exponent.toNat : Nat)
      some (if negative then -size else size)
    else none
  | .infinite _ | .nan => none

/-- The digits of `d` as characters, without zeros at their end, and the place of the point: the
number is `0.digits * 10 ^ point`. -/
def layout (d : Decimal) : List Char × Int :=
  let digits := Nat.toDigits 10 d.digits
  ((digits.reverse.dropWhile (· = '0')).reverse, digits.length + d.exponent)

def exponentText (e : Int) : List Char :=
  let digits := Nat.toDigits 10 e.natAbs
  ['e', if e < 0 then '-' else '+'] ++ List.replicate (2 - digits.length) '0' ++ digits

def text (d : Decimal) : List Char :=
  let (digits, point) := d.layout
  if point ≤ -4 ∨ 16 < point then
    let fraction := digits.drop 1
    digits.take 1 ++ (if fraction.isEmpty then [] else '.' :: fraction) ++ exponentText (point - 1)
  else if point ≤ 0 then ['0', '.'] ++ List.replicate (-point).toNat '0' ++ digits
  else
    let places := point.toNat
    let whole := digits.take places ++ List.replicate (places - digits.length) '0'
    let fraction := digits.drop places
    whole ++ '.' :: (if fraction.isEmpty then ['0'] else fraction)

def Parts.text : Parts → String
  | .nan => "nan"
  | .infinite negative => if negative then "-inf" else "inf"
  | .zero negative => if negative then "-0.0" else "0.0"
  | .finite negative b =>
    String.ofList ((if negative then ['-'] else []) ++ (shortest b).text)

def floatText (x : Float) : String :=
  (Parts.ofBits x.toBits.toNat).text

end Chip8.Decimal
