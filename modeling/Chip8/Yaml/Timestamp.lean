import Chip8.Calendar
import Chip8.Text.Numeral

/-!
# Dates and moments as they are written

A date is written as year, month and day with hyphens between them.  Behind it may stand a time
of day with a fraction of a second and a distance from universal time.
-/

namespace Chip8.Yaml

structure ClockDigits where
  hour : List Char
  minute : List Char
  second : List Char
  fraction : List Char
  /-- Minutes east of universal time, if the distance is written. -/
  offset : Option Int

structure Timestamp where
  year : List Char
  month : List Char
  day : List Char
  clock : Option ClockDigits

namespace Timestamp

def digits? (atLeast atMost : Nat) (cs : List Char) : Option (List Char × List Char) :=
  let found := (cs.take atMost).takeWhile (Text.isDigitOf 10)
  if found.length < atLeast then none else some (found, cs.drop found.length)

def char? (c : Char) : List Char → Option (List Char)
  | [] => none
  | d :: rest => if d = c then some rest else none

def dropBlanks (cs : List Char) : List Char :=
  cs.dropWhile fun c => c == ' ' || c == '\t'

def separator? : List Char → Option (List Char)
  | 'T' :: rest => some rest
  | 't' :: rest => some rest
  | ' ' :: rest => some (dropBlanks rest)
  | '\t' :: rest => some (dropBlanks rest)
  | _ => none

def numberOf (digits : List Char) : Nat := Text.ofDigits 10 digits

def offset? (cs : List Char) : Option (Option Int × List Char) :=
  match dropBlanks cs with
  | 'Z' :: rest => some (some 0, rest)
  | sign :: rest =>
    if sign = '+' ∨ sign = '-' then do
      let (hours, rest) ← digits? 1 2 rest
      let (minutes, rest) := (((char? ':' rest).bind (digits? 2 2))).getD ([], rest)
      let size : Int := numberOf hours * 60 + numberOf minutes
      pure (some (if sign = '-' then -size else size), rest)
    else some (none, cs)
  | [] => some (none, cs)

def clock? (cs : List Char) : Option (ClockDigits × List Char) := do
  let rest ← separator? cs
  let (hour, rest) ← digits? 1 2 rest
  let (minute, rest) ← (char? ':' rest).bind (digits? 2 2)
  let (second, rest) ← (char? ':' rest).bind (digits? 2 2)
  let (fraction, rest) := match char? '.' rest with
    | some rest => (rest.takeWhile (Text.isDigitOf 10), rest.dropWhile (Text.isDigitOf 10))
    | none => ([], rest)
  let (offset, rest) ← offset? rest
  pure (⟨hour, minute, second, fraction, offset⟩, rest)

def ofChars? (cs : List Char) : Option Timestamp := do
  let (year, rest) ← digits? 4 4 cs
  let (month, rest) ← (char? '-' rest).bind (digits? 1 2)
  let (day, rest) ← (char? '-' rest).bind (digits? 1 2)
  let (clock, rest) := match clock? rest with
    | some (clock, rest) => (some clock, rest)
    | none => (none, rest)
  if rest.isEmpty then pure ⟨year, month, day, clock⟩ else none

def dropLineFeed (cs : List Char) : List Char :=
  if cs.getLast? == some '\n' then cs.dropLast else cs

def ofText? (text : String) : Option Timestamp :=
  ofChars? (dropLineFeed text.toList)

/-- Whether characters without a tag are read as a date or moment: a date alone needs two digits
for month and day. -/
def isPlainTimestamp (cs : List Char) : Bool :=
  match ofChars? cs with
  | none => false
  | some t => t.clock.isSome || (t.month.length == 2 && t.day.length == 2)

def microseconds (fraction : List Char) : Nat :=
  let digits := fraction.take 6
  numberOf digits * Nat.pow 10 (6 - digits.length)

def checkOffset (minutes : Int) : Except Calendar.Error Int :=
  if minutes.natAbs < 24 * 60 then .ok minutes else .error (.offset minutes)

def date (t : Timestamp) : Except Calendar.Error Date :=
  Date.make (numberOf t.year) (numberOf t.month) (numberOf t.day)

def moment (t : Timestamp) (clock : ClockDigits) : Except Calendar.Error Moment := do
  let offset ← match clock.offset with
    | some minutes => (checkOffset minutes).map some
    | none => .ok none
  let date ← t.date
  let time ← TimeOfDay.make (numberOf clock.hour) (numberOf clock.minute) (numberOf clock.second)
    (microseconds clock.fraction)
  pure ⟨date, time, offset⟩

end Timestamp

end Chip8.Yaml
