import Chip8.Text.Blank
import Chip8.Text.Digit
import Chip8.Text.Quoted

/-!
# Spelled integers

A spelled integer may have blanks around it, a sign, and single underscores between its digits;
its digits may come from any script.  In bases two, eight and sixteen the marker of the base
(`0b`, `0o`, `0x`, with one underscore after it) may stand in front of the digits.
-/

namespace Chip8.Text

inductive NumeralError where
  | malformed (base : Nat) (text : Text)
  | tooLong (digits : Nat)
  deriving DecidableEq, Repr

namespace NumeralError

/-- The most decimal digits that are read or written where nobody sets another limit. -/
def digitLimit : Nat := 4300

def limitText : String :=
  s!"Exceeds the limit ({digitLimit} digits) for integer string conversion"

def limitAdvice : String :=
  "use sys.set_int_max_str_digits() to increase the limit"

def message : NumeralError → String
  | malformed base text =>
    s!"invalid literal for int() with base {base}: " ++
      String.ofList (text.quotedChars.take 200)
  | tooLong digits => s!"{limitText}: value has {digits} digits; {limitAdvice}"

end NumeralError

def isPlainBlank (c : Char) : Bool :=
  c = ' ' || (0x09 ≤ c.toNat && c.toNat ≤ 0x0D)

/-- Brings blanks and digits of all scripts to ASCII; any other letter above ASCII becomes a
question mark, which no numeral holds. -/
def toPlain : Letter → Char
  | .half _ => '?'
  | .char c =>
    if c.toNat < 127 then c
    else if isBlank c then ' '
    else match decimalDigit? c with
      | some d => Nat.digitChar d
      | none => '?'

def takeSign : List Char → Bool × List Char
  | '-' :: rest => (true, rest)
  | '+' :: rest => (false, rest)
  | cs => (false, cs)

def markerLetter? (base : Nat) : Option Char :=
  if base = 2 then some 'b' else if base = 8 then some 'o' else if base = 16 then some 'x'
  else none

def dropMarker (base : Nat) (cs : List Char) : List Char :=
  match cs, markerLetter? base with
  | '0' :: letter :: rest, some marker =>
    if letter = marker ∨ letter = marker.toUpper then
      match rest with
      | '_' :: rest => rest
      | rest => rest
    else cs
  | _, _ => cs

def ofDigits (base : Nat) (digits : List Char) : Nat :=
  digits.foldl (fun n c => n * base + (digit? base c).getD 0) 0

/-- Digits with single underscores between them, without the underscores. -/
def ungrouped? (body : List Char) : Option (List Char) :=
  let groups := body.splitOn '_'
  if groups.any List.isEmpty then none else some groups.flatten

/-- Reads a spelled integer.  The digits are counted before what follows them is judged. -/
def readInt (base : Nat) (text : Text) : Except NumeralError Int :=
  let cs := (text.letters.map toPlain).dropWhile isPlainBlank
  let (negative, cs) := takeSign cs
  let cs := dropMarker base cs
  let inBody (c : Char) : Bool := isDigitOf base c || c = '_'
  match ungrouped? (cs.takeWhile inBody) with
  | none => .error (.malformed base text)
  | some digits =>
    if base = 10 ∧ NumeralError.digitLimit < digits.length then .error (.tooLong digits.length)
    else if (cs.dropWhile inBody).all isPlainBlank then
      let n : Int := ofDigits base digits
      .ok (if negative then -n else n)
    else .error (.malformed base text)

end Chip8.Text
