import Chip8.Capacity
import Chip8.Text.Basic

/-!
# The display

A monochrome display of any size.  Sprites are drawn by flipping pixels, eight columns to a row
of the sprite, and wrap around at the edges; drawing reports whether a lit pixel was hit.
-/

namespace Chip8

/-- A display; the pixel in column `x` of row `y` has the index `y * width + x`. -/
structure Display where
  width : Nat
  height : Nat
  pixels : Array Bool
  deriving DecidableEq, Repr

namespace Display

inductive Error where
  | badDimensions
  | pixelOutside (x y : Int) (width height : Nat)
  | tooLarge (e : CapacityError)
  deriving DecidableEq, Repr

def Error.message? : Error → Option String
  | .badDimensions => some "Framebuffer dimensions must be positive."
  | .pixelOutside x y width height =>
    some s!"Pixel ({x}, {y}) outside {width}x{height} display."
  | .tooLarge _ => none

def blank (width height : Nat) : Display :=
  ⟨width, height, Array.replicate (width * height) false⟩

def standard : Display := blank 64 32

def create (width height : Int) : Except Error Display :=
  if width ≤ 0 ∨ height ≤ 0 then .error .badDimensions
  else match checkCapacity (width.toNat * height.toNat) with
    | .ok () => .ok (blank width.toNat height.toNat)
    | .error e => .error (.tooLarge e)

def clear (d : Display) : Display := blank d.width d.height

def lit (d : Display) (index : Nat) : Bool := d.pixels.getD index false

/-- The index of the pixel at a place; places wrap around at the edges. -/
def index (d : Display) (x y : Int) : Nat :=
  (y % d.height).toNat * d.width + (x % d.width).toNat

def flip (d : Display) (index : Nat) : Display :=
  { d with pixels := d.pixels.modify index not }

def plot (x y : Int) : Display × Bool → Display × Bool
  | (d, hit) =>
    let i := d.index x y
    (d.flip i, hit || d.lit i)

/-- Whether a row of a sprite has a pixel in a column; the highest of eight bits is column 0. -/
def spriteBit (line : Int) (column : Nat) : Bool :=
  line / (Nat.pow 2 (7 - column) : Nat) % 2 = 1

def drawLine (x y line : Int) (state : Display × Bool) : Display × Bool :=
  (List.range 8).foldl
    (fun state column => if spriteBit line column then plot (x + column) y state else state) state

def drawLines (x y : Int) : List Int → Display × Bool → Display × Bool
  | [], state => state
  | line :: rest, state => drawLines x (y + 1) rest (drawLine x y line state)

/-- Draws a sprite with its corner at a place; the flag says whether a lit pixel was hit. -/
def draw (d : Display) (x y : Int) (sprite : List Int) : Display × Bool :=
  drawLines x y sprite (d, false)

/-- Whether the pixel at a place is lit; places off the display are refused. -/
def pixel (d : Display) (x y : Int) : Except Error Bool :=
  if 0 ≤ x ∧ x < d.width ∧ 0 ≤ y ∧ y < d.height then .ok (d.lit (d.index x y))
  else .error (.pixelOutside x y d.width d.height)

def litCount (d : Display) : Nat := d.pixels.count true

def litIndices (d : Display) : List Nat :=
  (List.range d.pixels.size).filter d.lit

def row (d : Display) (y : Nat) : List Bool :=
  (List.range d.width).map fun x => d.lit (y * d.width + x)

def rows (d : Display) : List (List Bool) :=
  (List.range d.height).map d.row

def litColumns (pixels : List Bool) : List Nat :=
  (List.range pixels.length).filter fun x => pixels.getD x false

def rowText (on off : Text) (pixels : List Bool) : Text :=
  ⟨pixels.flatMap fun p => (if p then on else off).letters⟩

def text (d : Display) (on off : Text) : Text :=
  Text.join "\n" (d.rows.map (rowText on off))

end Display

end Chip8
