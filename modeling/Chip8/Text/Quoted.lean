import Chip8.Text.Basic
import Chip8.Text.Hex
import Chip8.Text.Printable

/-!
# Quoted text

Text between single quotes, or between double quotes when it holds a single quote and no double
one.  The quote in use and the backslash are escaped by a backslash; tab, line feed and carriage
return have letters of their own; what is not printable is written by its code point.
-/

namespace Chip8.Text

def codeEscape (code : Nat) : List Char :=
  let (letter, width) :=
    if code < 0x100 then ('x', 2) else if code < 0x10000 then ('u', 4) else ('U', 8)
  '\\' :: letter :: padZeros width (Nat.toDigits 16 code)

def quotedChar (quote c : Char) : List Char :=
  if c = quote ∨ c = '\\' then ['\\', c]
  else if c = '\t' then ['\\', 't']
  else if c = '\n' then ['\\', 'n']
  else if c = '\r' then ['\\', 'r']
  else if isPrintable c then [c]
  else codeEscape c.toNat

def quotedLetter (quote : Char) : Letter → List Char
  | .char c => quotedChar quote c
  | .half n => codeEscape (Letter.half n).code

/-- The quote that needs the fewest escapes, the single one if in doubt. -/
def quoteFor (letters : List Letter) : Char :=
  if letters.contains (.char '\'') && !letters.contains (.char '"') then '"' else '\''

def quotedChars (t : Text) : List Char :=
  let quote := quoteFor t.letters
  quote :: t.letters.flatMap (quotedLetter quote) ++ [quote]

def quoted (t : Text) : String :=
  String.ofList t.quotedChars

def quotedBytes (bytes : List UInt8) : String :=
  let cs := bytes.map fun b => Char.ofNat b.toNat
  let quote := quoteFor (cs.map .char)
  let byteChar (c : Char) : List Char :=
    if c.toNat < 0x80 then quotedChar quote c else codeEscape c.toNat
  String.ofList ('b' :: quote :: cs.flatMap byteChar ++ [quote])

end Chip8.Text
