import Chip8.Text.Hex

/-!
# Dates and moments

Days of the proleptic Gregorian calendar from year 1 to year 9999, and moments on such days,
with or without a distance from universal time.
-/

namespace Chip8

structure Date where
  year : Nat
  month : Nat
  day : Nat
  deriving DecidableEq, Repr

structure TimeOfDay where
  hour : Nat
  minute : Nat
  second : Nat
  microsecond : Nat
  deriving DecidableEq, Repr

/-- A time on a day; the offset from universal time counts minutes eastward. -/
structure Moment where
  date : Date
  time : TimeOfDay
  offset : Option Int
  deriving DecidableEq, Repr

namespace Calendar

inductive Error where
  | year (year : Nat)
  | month
  | day
  | hour
  | minute
  | second
  /-- The offset is a day or more; it counts minutes. -/
  | offset (minutes : Int)
  deriving DecidableEq, Repr

def spanText (minutes : Int) : String :=
  let seconds := minutes * 60
  let days := seconds / 86400
  let rest := seconds % 86400
  let dayPart := if days = 0 then [] else [s!"days={days}"]
  let restPart := if rest = 0 then [] else [s!"seconds={rest}"]
  let parts := dayPart ++ restPart
  "datetime.timedelta(" ++ (if parts.isEmpty then "0" else ", ".intercalate parts) ++ ")"

def Error.message : Error → String
  | .year n => s!"year {n} is out of range"
  | .month => "month must be in 1..12"
  | .day => "day is out of range for month"
  | .hour => "hour must be in 0..23"
  | .minute => "minute must be in 0..59"
  | .second => "second must be in 0..59"
  | .offset minutes =>
    "offset must be a timedelta strictly between -timedelta(hours=24) and timedelta(hours=24), " ++
      s!"not {spanText minutes}."

def isLeap (year : Nat) : Bool :=
  year % 4 = 0 && (year % 100 ≠ 0 || year % 400 = 0)

def daysIn (year month : Nat) : Nat :=
  if month = 2 then if isLeap year then 29 else 28
  else if month = 4 ∨ month = 6 ∨ month = 9 ∨ month = 11 then 30
  else 31

end Calendar

open Calendar

def Date.make (year month day : Nat) : Except Calendar.Error Date :=
  if year = 0 ∨ 9999 < year then .error (.year year)
  else if month = 0 ∨ 12 < month then .error .month
  else if day = 0 ∨ daysIn year month < day then .error .day
  else .ok ⟨year, month, day⟩

def TimeOfDay.make (hour minute second microsecond : Nat) : Except Calendar.Error TimeOfDay :=
  if 23 < hour then .error .hour
  else if 59 < minute then .error .minute
  else if 59 < second then .error .second
  else .ok ⟨hour, minute, second, microsecond⟩

def Date.dayNumber (d : Date) : Int :=
  let years := d.year - 1
  let months := ((List.range' 1 (d.month - 1)).map (daysIn d.year)).foldl (· + ·) 0
  (years * 365 + years / 4 + years / 400 + months + (d.day - 1) : Nat) - (years / 100 : Nat)

/-- The number of microseconds from the start of the calendar, in universal time if the offset
is known. -/
def Moment.instant (m : Moment) : Int :=
  let t := m.time
  let minutes := m.date.dayNumber * 1440 + (t.hour * 60 + t.minute : Nat) - m.offset.getD 0
  (minutes * 60 + t.second) * 1000000 + t.microsecond

def Calendar.padded (width n : Nat) : String :=
  String.ofList (Text.padZeros width (Nat.toDigits 10 n))

def Date.text (d : Date) : String :=
  s!"{padded 4 d.year}-{padded 2 d.month}-{padded 2 d.day}"

def Calendar.offsetText (minutes : Int) : String :=
  let size := minutes.natAbs
  (if minutes < 0 then "-" else "+") ++ padded 2 (size / 60) ++ ":" ++ padded 2 (size % 60)

/-- A moment as day, time and offset; microseconds only if there are any. -/
def Moment.text (m : Moment) : String :=
  let t := m.time
  let clock := s!"{padded 2 t.hour}:{padded 2 t.minute}:{padded 2 t.second}"
  let micro := if t.microsecond = 0 then "" else "." ++ padded 6 t.microsecond
  m.date.text ++ " " ++ clock ++ micro ++ (m.offset.map offsetText).getD ""

def Date.quoted (d : Date) : String :=
  s!"datetime.date({d.year}, {d.month}, {d.day})"

/-- A moment as a call of its constructor; seconds and microseconds only if needed. -/
def Moment.quoted (m : Moment) : String :=
  let t := m.time
  let small :=
    if t.microsecond ≠ 0 then [t.second, t.microsecond] else if t.second ≠ 0 then [t.second] else []
  let numbers := [m.date.year, m.date.month, m.date.day, t.hour, t.minute] ++ small
  let zone := match m.offset with
    | none => []
    | some minutes =>
      if minutes = 0 then ["tzinfo=datetime.timezone.utc"]
      else [s!"tzinfo=datetime.timezone({spanText minutes})"]
  "datetime.datetime(" ++ ", ".intercalate (numbers.map toString ++ zone) ++ ")"

end Chip8
