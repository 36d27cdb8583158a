import Chip8.Memory.Bus

/-!
# The memory map

The glyphs of the sixteen hexadecimal digits fill the first eighty bytes, five rows each, as
read-only memory.  All addresses above them are writable; programs conventionally start at 0x200.
-/

namespace Chip8.Memory

def standardSize : Int := 0x1000

def programStart : Int := 0x200

def glyphSize : Int := 5

def fontEnd : Int := 0x50

/-- The glyphs of the digits 0 to F; the four high bits of a row are its pixels. -/
def font : List Int :=
  [0xF0, 0x90, 0x90, 0x90, 0xF0,
    0x20, 0x60, 0x20, 0x20, 0x70,
    0xF0, 0x10, 0xF0, 0x80, 0xF0,
    0xF0, 0x10, 0xF0, 0x10, 0xF0,
    0x90, 0x90, 0xF0, 0x10, 0x10,
    0xF0, 0x80, 0xF0, 0x10, 0xF0,
    0xF0, 0x80, 0xF0, 0x90, 0xF0,
    0xF0, 0x10, 0x20, 0x40, 0x40,
    0xF0, 0x90, 0xF0, 0x90, 0xF0,
    0xF0, 0x90, 0xF0, 0x10, 0xF0,
    0xF0, 0x90, 0xF0, 0x90, 0x90,
    0xE0, 0x90, 0xE0, 0x90, 0xE0,
    0xF0, 0x80, 0x80, 0x80, 0xF0,
    0xE0, 0x90, 0x90, 0x90, 0xE0,
    0xF0, 0x80, 0xF0, 0x80, 0xF0,
    0xF0, 0x80, 0xF0, 0x80, 0x80]

def Bus.loadFont (b : Bus) : Bus × Option Error :=
  b.loadAll 0 font

/-- A bus with one new device for each range given, in that order. -/
def Bus.ofRanges (ranges : List (DeviceKind × Int × Int)) : Except Error Bus :=
  ranges.foldlM (fun b (kind, first, last) => do
    let (b, number) := b.addDevice (← Device.create kind (.int (last - first + 1)))
    b.attach first last (.device number)) {}

/-- The standard map over a memory of some size: read-only font, writable rest. -/
def Bus.standard (size : Int) : Except Error Bus :=
  if size ≤ fontEnd then .error (.noRoom size)
  else do
    let b ← Bus.ofRanges [(.cells .rom, 0, fontEnd - 1), (.cells .ram, fontEnd, size - 1)]
    match b.loadFont with
    | (b, none) => .ok b
    | (_, some e) => .error e

end Chip8.Memory
