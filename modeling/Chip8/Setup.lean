import Chip8.Memory.Map
import Chip8.Random.Stream

/-!
# Machine setup

What is fixed when a machine is built: the dialect of the few instructions that machines
disagree about, the limit of the call stack, the address where programs go, and the seed of the
random stream.
-/

namespace Chip8

/-- Which of two readings the instructions take that machines disagree about. -/
structure Dialect where
  /-- Shifts take their operand from the second register. -/
  shiftsSecond : Bool := false
  /-- Storing and loading registers moves the index register past them. -/
  movesIndex : Bool := false
  /-- The bitwise instructions clear the flag. -/
  logicClearsFlag : Bool := false
  deriving DecidableEq, Repr

def standardStackLimit : Int := 16

structure Setup where
  dialect : Dialect := {}
  stackLimit : Option Int := some standardStackLimit
  loadAddress : Int := Memory.programStart
  seed : Option Int := none
  deriving DecidableEq, Repr

/-- The random stream that a machine starts with; without a seed any stream would do. -/
def Setup.stream (s : Setup) : Random.Stream :=
  .ofSeed (s.seed.getD 0)

end Chip8
