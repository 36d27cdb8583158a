import Chip8.Instruction.Form
import Chip8.Memory.Bus

/-!
# Listings

A listing shows a range of memory word by word as assembly.  Words that match no instruction
are shown as data.  Memory is peeked at, so that a listing leaves no trace in the log.
-/

namespace Chip8

namespace Listing

structure Line where
  address : Int
  word : String
  text : Text
  deriving DecidableEq, Repr

def wordText (word : Int) : Text :=
  match Operation.decode word none with
  | .ok op => op.text
  | .error _ => "DW #" ++ Opcode.text word

def peekWord (b : Memory.Bus) (address : Int) : Except Memory.Error Int := do
  let high ← b.peek address
  let low ← b.peek (address + 1)
  pure (high * 256 + low)

/-- The lines of the whole words from `address` up to and without `stop`. -/
def linesTo (b : Memory.Bus) (stop address : Int) : Except Memory.Error (List Line) :=
  if address + 1 < stop then
    match peekWord b address with
    | .error e => .error e
    | .ok word =>
      match linesTo b stop (address + 2) with
      | .error e => .error e
      | .ok rest => .ok (⟨address, Opcode.text word, wordText word⟩ :: rest)
  else .ok []
termination_by (stop - address).toNat

end Listing

/-- The listing of `length` bytes from `start` on, as far as memory goes. -/
def listing (b : Memory.Bus) (start length : Int) :
    Except Memory.Error (List Listing.Line) :=
  Listing.linesTo b (min (start + length) b.size) start

end Chip8
