import Chip8.Decimal.Shortest
import Chip8.Text.Numeral

/-!
# Reading decimals

A decimal number as text: digits with at most one point and an optional exponent, with single
underscores between digits, blanks around it and a sign; or one of the words for infinity and
for what is no number.
-/

namespace Chip8.Decimal

def toFloat (d : Decimal) : Float :=
  let places : Int := (Nat.toDigits 10 d.digits).length + d.exponent
  if d.digits = 0 ∨ places < -400 then 0.0
  else if 400 < places then 1.0 / 0.0
  else Float.ofScientific d.digits (d.exponent < 0) d.exponent.natAbs

def intFloat? (z : Int) : Option Float :=
  if Nat.pow 2 1024 - Nat.pow 2 970 ≤ z.natAbs then none
  else
    let x := (Decimal.mk z.natAbs 0).toFloat
    some (if z < 0 then -x else x)

/-- Digits with single underscores between them; none at all is allowed too. -/
def digitRun? (cs : List Char) : Option (List Char) :=
  if cs.isEmpty then some []
  else (Text.ungrouped? cs).filter fun digits => digits.all (Text.isDigitOf 10)

def exponent? (cs : List Char) : Option Int :=
  let (negative, body) := Text.takeSign cs
  (digitRun? body).bind fun digits =>
    if digits.isEmpty then none
    else
      let n : Int := Text.ofDigits 10 digits
      some (if negative then -n else n)

def unsigned? (cs : List Char) : Option Decimal :=
  let isExponentLetter (c : Char) : Bool := c = 'e' || c = 'E'
  let significand := cs.takeWhile (!isExponentLetter ·)
  let power := match cs.dropWhile (!isExponentLetter ·) with
    | [] => some 0
    | _ :: rest => exponent? rest
  let whole := significand.takeWhile (· ≠ '.')
  let fraction := (significand.dropWhile (· ≠ '.')).drop 1
  match digitRun? whole, digitRun? fraction, power with
  | some whole, some fraction, some power =>
    if whole.isEmpty && fraction.isEmpty then none
    else some ⟨Text.ofDigits 10 (whole ++ fraction), power - fraction.length⟩
  | _, _, _ => none

def readFloat? (text : Text) : Option Float :=
  let cs := (text.letters.map Text.toPlain).dropWhile Text.isPlainBlank
  let cs := (cs.reverse.dropWhile Text.isPlainBlank).reverse
  let (negative, body) := Text.takeSign cs
  let magnitude? : Option Float :=
    match String.ofList (body.map Char.toLower) with
    | "inf" | "infinity" => some (1.0 / 0.0)
    | "nan" => some (0.0 / 0.0)
    | _ => (unsigned? body).map Decimal.toFloat
  magnitude?.map fun x => if negative then -x else x

end Chip8.Decimal
