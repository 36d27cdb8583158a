/-!
# Hexadecimal text

Addresses and values are shown in lower case behind `0x`, instruction words in upper case
without a marker.  A minimum width counts every character, sign and marker included, and is
reached by zeros in front of the digits.
-/

namespace Chip8.Text

def padZeros (width : Nat) (digits : List Char) : List Char :=
  List.replicate (width - digits.length) '0' ++ digits

def signChars (z : Int) : List Char :=
  if z < 0 then ['-'] else []

/-- `z` in lower case behind `0x`, at least `width` characters long. -/
def hex (width : Nat) (z : Int) : String :=
  let sign := signChars z
  String.ofList (sign ++ ['0', 'x'] ++
    padZeros (width - sign.length - 2) (Nat.toDigits 16 z.natAbs))

def hexUpper (width : Nat) (z : Int) : String :=
  let sign := signChars z
  String.ofList (sign ++
    padZeros (width - sign.length) ((Nat.toDigits 16 z.natAbs).map Char.toUpper))

def hexByte (b : UInt8) : List Char :=
  [(b.toNat / 16).digitChar, (b.toNat % 16).digitChar]

def hexDump (bytes : List UInt8) : String :=
  String.ofList (bytes.flatMap hexByte)

end Chip8.Text
