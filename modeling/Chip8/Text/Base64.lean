/-!
# Base 64

Bytes written with six bits for each character.  Other characters are skipped, and padding ends
the text.
-/

namespace Chip8.Text.Base64

def sextet? (c : Char) : Option Nat :=
  if 'A' ≤ c ∧ c ≤ 'Z' then some (c.toNat - 'A'.toNat)
  else if 'a' ≤ c ∧ c ≤ 'z' then some (c.toNat - 'a'.toNat + 26)
  else if '0' ≤ c ∧ c ≤ '9' then some (c.toNat - '0'.toNat + 52)
  else if c = '+' then some 62
  else if c = '/' then some 63
  else none

/-- Collects sextets up to the padding: after two or three sextets of a group of four, as many
padding characters in a row as fill the group.  The flag says whether padding was found. -/
def sextets : List Char → (padding : Nat) → List Nat → List Nat × Bool
  | [], _, found => (found.reverse, false)
  | c :: rest, padding, found =>
    if c = '=' then
      let place := found.length % 4
      if 2 ≤ place then
        if 4 ≤ place + (padding + 1) then (found.reverse, true)
        else sextets rest (padding + 1) found
      else sextets rest padding found
    else match sextet? c with
      | some n => sextets rest 0 (n :: found)
      | none => sextets rest padding found

/-- The bytes of sextets; bits that fill no byte are dropped. -/
def bytes : List Nat → List UInt8
  | a :: b :: c :: d :: rest =>
    .ofNat (a * 4 + b / 16) :: .ofNat (b * 16 + c / 4) :: .ofNat (c * 64 + d) :: bytes rest
  | [a, b, c] => [.ofNat (a * 4 + b / 16), .ofNat (b * 16 + c / 4)]
  | [a, b] => [.ofNat (a * 4 + b / 16)]
  | _ => []

def decode? (cs : List Char) : Option (List UInt8) :=
  let (found, padded) := sextets cs 0 []
  if padded || found.length % 4 = 0 then some (bytes found) else none

end Chip8.Text.Base64
