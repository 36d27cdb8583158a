import Chip8.Random.Twister

/-!
# The stream of random bytes

The machine draws its random numbers from a stream of bytes.  The stream of a seed is made by a
Mersenne twister whose key is the size of the seed; a byte is the top nine bits of a word, and
words whose nine bits exceed a byte are passed over.
-/

namespace Chip8.Random

structure Stream where
  twister : Twister

namespace Stream

/-- The 32-bit words of a number, the least significant first; zero has one word. -/
def keyWords (n : Nat) : List UInt32 :=
  if n < 0x100000000 then [UInt32.ofNat n]
  else UInt32.ofNat (n % 0x100000000) :: keyWords (n / 0x100000000)

def ofSeed (seed : Int) : Stream :=
  ⟨Twister.ofKey (keyWords seed.natAbs).toArray⟩

/-- The first of the next `fuel` words whose top nine bits fit in a byte. -/
def drawWithin : Nat → Twister → Nat × Twister
  | 0, t => (0, t)
  | fuel + 1, t =>
    let (word, t) := t.next
    let n := word.toNat / Nat.pow 2 23
    if n < 256 then (n, t) else drawWithin fuel t

/-- The next byte.  The top bit of the words obeys a linear recurrence of order 19937 that the
constant one does not satisfy, so that 19937 words in a row may not fit, but not one more. -/
def draw (s : Stream) : Int × Stream :=
  let (n, t) := drawWithin 19938 s.twister
  (n, ⟨t⟩)

def after (s : Stream) : Nat → Stream
  | 0 => s
  | n + 1 => (s.after n).draw.2

def byteAt (s : Stream) (n : Nat) : Int := (s.after n).draw.1

theorem drawWithin_lt (fuel : Nat) (t : Twister) : (drawWithin fuel t).1 < 256 := by
  induction fuel generalizing t with
  | zero => simp [drawWithin]
  | succ fuel ih =>
    simp only [drawWithin]
    split
    · assumption
    · exact ih _

theorem draw_nonneg (s : Stream) : 0 ≤ s.draw.1 := by
  simp [draw]

theorem draw_lt (s : Stream) : s.draw.1 < 256 := by
  have := drawWithin_lt 19938 s.twister
  simp only [draw]
  omega

end Stream

end Chip8.Random
