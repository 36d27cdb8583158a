/-!
# The Mersenne twister

A generator of 32-bit words with a state of 624 words, seeded from a list of words.  A whole
new state is made when all words of the present one have been given out.
-/

namespace Chip8.Random

/-- The words of the state and the number of those given out. -/
structure Twister where
  words : Vector UInt32 624
  used : Nat

namespace Twister

def wordAt (words : Vector UInt32 624) (i : Nat) : UInt32 :=
  words.get ⟨i % 624, Nat.mod_lt i (by decide)⟩

def putAt (words : Vector UInt32 624) (i : Nat) (word : UInt32) : Vector UInt32 624 :=
  words.set (i % 624) word (Nat.mod_lt i (by decide))

def ofWord (seed : UInt32) : Vector UInt32 624 :=
  let step (words : Vector UInt32 624) (i : Nat) : Vector UInt32 624 :=
    let previous := wordAt words (i + 623)
    putAt words i ((previous ^^^ (previous >>> 30)) * 1812433253 + UInt32.ofNat i)
  (List.range' 1 623).foldl step ((Vector.replicate 624 0).set 0 seed)

/-- One round of mixing: the word at `i` takes in its predecessor and something new. -/
def mixAt (factor : UInt32) (combine : UInt32 → UInt32) (words : Vector UInt32 624) (i : Nat) :
    Vector UInt32 624 :=
  let previous := wordAt words (i + 623)
  let word := wordAt words i
  putAt words i (combine (word ^^^ ((previous ^^^ (previous >>> 30)) * factor)))

/-- The positions that a round visits: 1 to 623 again and again. -/
def position (step : Nat) : Nat := step % 623 + 1

def wrap (words : Vector UInt32 624) (i : Nat) : Vector UInt32 624 :=
  if i = 623 then words.set 0 words[623] else words

def ofKey (key : Array UInt32) : Twister :=
  let rounds := max 624 key.size
  let takeIn (words : Vector UInt32 624) (step : Nat) : Vector UInt32 624 :=
    let j := step % key.size
    let i := position step
    wrap (mixAt 1664525 (fun w => w + key.getD j 0 + UInt32.ofNat j) words i) i
  let spread (words : Vector UInt32 624) (step : Nat) : Vector UInt32 624 :=
    let i := position (rounds + step)
    wrap (mixAt 1566083941 (fun w => w - UInt32.ofNat i) words i) i
  let words := (List.range rounds).foldl takeIn (ofWord 19650218)
  let words := (List.range 623).foldl spread words
  ⟨words.set 0 0x80000000, 624⟩

def refreshAt (words : Vector UInt32 624) (i : Nat) : Vector UInt32 624 :=
  let high := wordAt words i &&& 0x80000000
  let low := wordAt words (i + 1) &&& 0x7FFFFFFF
  let y := high ||| low
  let far := wordAt words (i + 397)
  let twist : UInt32 := if y &&& 1 = 1 then 0x9908B0DF else 0
  putAt words i (far ^^^ (y >>> 1) ^^^ twist)

def refresh (words : Vector UInt32 624) : Vector UInt32 624 :=
  (List.range 624).foldl refreshAt words

def temper (y : UInt32) : UInt32 :=
  let y := y ^^^ (y >>> 11)
  let y := y ^^^ ((y <<< 7) &&& 0x9D2C5680)
  let y := y ^^^ ((y <<< 15) &&& 0xEFC60000)
  y ^^^ (y >>> 18)

def next (t : Twister) : UInt32 × Twister :=
  let t := if t.used < 624 then t else ⟨refresh t.words, 0⟩
  (temper (wordAt t.words t.used), { t with used := t.used + 1 })

end Twister

end Chip8.Random
