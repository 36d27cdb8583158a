import Chip8.Document
import Chip8.Machine

/-!
# Settings

The settings of a machine and its host, as a configuration document gives them, and what is told
about a document that gives none.
-/

namespace Chip8

structure Settings where
  memorySize : Int := Memory.standardSize
  loadAddress : Int := Memory.programStart
  stackLimit : Option Int := some standardStackLimit
  /-- Instructions for each tick of the timers. -/
  cyclesPerFrame : Int := 10
  /-- Ticks of the timers for each second. -/
  timerRate : Int := 60
  seed : Option Int := none
  dialect : Dialect := {}
  deriving DecidableEq, Repr

namespace Settings

inductive Error where
  | notAMapping (kind : String)
  | badNumeral (e : Text.NumeralError)
  /-- A value that is neither an integer nor a text, by its plain text. -/
  | notAnInteger (text : Text)
  | unshown (e : ShowError)
  | loadAddressOutside (loadAddress memorySize : Int)
  | stackLimitNotPositive
  | rateNotPositive
  /-- What should give the dialect has no keys. -/
  | dialectWithoutKeys
  /-- What should give the dialect holds a key that no mapping can have. -/
  | dialectBadKey
  /-- What should give the dialect has keys but no values. -/
  | dialectWithoutValues
  deriving DecidableEq, Repr

def Error.message? : Error → Option Text
  | .notAMapping kind => some s!"Machine config must be a mapping, got {kind}"
  | .badNumeral e => some e.message
  | .notAnInteger text => some ("Invalid integer format: " ++ text)
  | .unshown e => e.message?.map Text.ofString
  | .loadAddressOutside loadAddress memorySize =>
    some s!"load_address {Text.hex 0 loadAddress} outside memory of {memorySize} bytes"
  | .stackLimitNotPositive => some "stack_limit must be positive or null"
  | .rateNotPositive => some "cycles_per_frame and timer_hz must be positive"
  | .dialectWithoutKeys | .dialectBadKey | .dialectWithoutValues => none

inductive Notice where
  | unknownKey (key : Text)
  | unknownSwitch (key : Text)
  deriving DecidableEq, Repr

def Notice.text : Notice → Text
  | .unknownKey key => "Unknown machine config key '" ++ key ++ "' ignored."
  | .unknownSwitch key => "Unknown quirk '" ++ key ++ "' ignored."

def check (s : Settings) : Except Error Settings :=
  if ¬(0 ≤ s.loadAddress ∧ s.loadAddress < s.memorySize) then
    if hasTooManyDigits s.memorySize then .error (.unshown .tooManyDigits)
    else .error (.loadAddressOutside s.loadAddress s.memorySize)
  else if s.stackLimit.any (· ≤ 0) then .error .stackLimitNotPositive
  else if s.cyclesPerFrame ≤ 0 ∨ s.timerRate ≤ 0 then .error .rateNotPositive
  else .ok s

def setup (s : Settings) : Setup where
  dialect := s.dialect
  stackLimit := s.stackLimit
  loadAddress := s.loadAddress
  seed := s.seed

def build (s : Settings) : Except Memory.Error Machine :=
  (Memory.Bus.standard s.memorySize).map (Machine.create s.setup)

end Settings

end Chip8
