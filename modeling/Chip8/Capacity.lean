/-!
# Capacity

What the computer bounds that all of this runs on: how many items can be kept at once, and how
deep calls may be nested.

Larger numbers of items are refused, those that no index reaches as such, smaller ones because
there is no room for that many.  What is nested deeper than calls may be is refused where it is
followed.
-/

namespace Chip8

inductive CapacityError where
  | uncountable
  | exhausted
  deriving DecidableEq, Repr

/-- The first number of items that cannot be counted by a signed word of 64 bits. -/
def countLimit : Nat := Nat.pow 2 63

/-- The first number of items that there is no room for.  It depends on the computer; this one has
256 GiB of addresses.  What is proved needs only that a font has room and that all that has room
can be counted. -/
def capacity : Nat := Nat.pow 2 38

/-- How deep calls may be nested: the limit that is set where nobody sets another. -/
def callDepth : Nat := 1000

def checkCapacity (count : Nat) : Except CapacityError Unit :=
  if countLimit ≤ count then .error .uncountable
  else if capacity ≤ count then .error .exhausted
  else .ok ()

end Chip8
