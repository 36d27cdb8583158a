import Chip8.Proofs.Host.Listing
import Chip8.Proofs.Memory.Regions

/-!
# Listings of ranges

On a bus without holes every range can be listed, wherever it starts and whatever its length is.
The listing shows the whole words that lie in the range and on the bus, one to a line and none of
them twice.  Ranges of whole words that follow one another are listed one after the other.
-/

namespace Chip8.Proofs.Listing.Range

open Chip8.Memory Chip8.Listing
open Chip8.Proofs.Memory.Layout Chip8.Proofs.Memory.Regions
open Chip8.Proofs.Instruction.Word Chip8.Proofs.Instruction.Effect
open Chip8.Proofs.Instruction.Cycle
open Chip8.Proofs.Host.Listing

/-- A bus without holes: at every address below its size cells answer. -/
def Unbroken (b : Bus) : Prop :=
  ∀ a, InMemory b.size a → ∃ r kind, Serves b a r ∧ Backs b kind r

def wordCount (b : Bus) (start length : Int) : Nat :=
  ((min (start + length) b.size - start) / 2).toNat

def bytesFrom (b : Bus) (address : Int) (count : Nat) : List Int :=
  (List.range count).map fun k : Nat => byteAt b (address + k)

def linesFrom (b : Bus) (address : Int) (count : Nat) : List Line :=
  (List.range count).map fun k : Nat => line (address + 2 * k) (wordAt b (address + 2 * k))

/-- A listing of exactly the whole words of a range, whose bytes are `bytes`. -/
structure Covers (b : Bus) (start length : Int) (lines : List Line) (bytes : List Int) : Prop where
  count : (lines.length : Int) = max 0 ((min (start + length) b.size - start) / 2)
  peeked : b.peekAll start (2 * lines.length) = .ok bytes
  shown : ∀ (k : Nat) (l : Line), lines[k]? = some l → l.address = start + 2 * k ∧
    ∃ high low, bytes[2 * k]? = some high ∧ bytes[2 * k + 1]? = some low ∧
      l.word = wordDigits (256 * high + low)
  dump : String.join (lines.map Line.word) = String.join (bytes.map (Text.hexUpper 2))

/-! ## Buses without holes -/

section Unbroken

variable {b : Bus} {a : Int}

theorem unbroken_of_assembled (h : Assembled b)
    (hcover : ∀ a, InMemory b.size a → ∃ r ∈ b.regions, r.contains a) : Unbroken b :=
  fun a ha => (byteMap_of_assembled h).served a (hcover a ha)

theorem Unbroken.peek (h : Unbroken b) (ha : InMemory b.size a) :
    b.peek a = .ok (byteAt b a) := by
  obtain ⟨r, kind, hs, hk⟩ := h a ha
  have hpeek := peek_of_serves hs hk
  unfold byteAt
  rw [hpeek]
  rfl

theorem Unbroken.isByte (h : Unbroken b) (ha : InMemory b.size a) : IsByte (byteAt b a) := by
  obtain ⟨r, kind, hs, hk⟩ := h a ha
  unfold byteAt
  rw [peek_of_serves hs hk]
  exact isByte_cell hk _

theorem Unbroken.isWord (h : Unbroken b) (ha : 0 ≤ a) (hin : a + 1 < b.size) :
    IsWord (wordAt b a) := by
  have hhigh : IsByte (byteAt b a) := h.isByte (by omega)
  have hlow : IsByte (byteAt b (a + 1)) := h.isByte (by omega)
  unfold wordAt
  omega

end Unbroken

/-! ## Bytes and lines -/

section Shown

variable {b : Bus} {a stop : Int} {count k : Nat}

theorem length_linesFrom : (linesFrom b a count).length = count := by
  simp [linesFrom]

theorem getElem?_bytesFrom (h : k < count) :
    (bytesFrom b a count)[k]? = some (byteAt b (a + k)) := by
  simp [bytesFrom, h]

theorem getElem?_linesFrom {l : Line} (h : (linesFrom b a count)[k]? = some l) :
    k < count ∧ l = line (a + 2 * k) (wordAt b (a + 2 * k)) := by
  obtain ⟨hlt, rfl⟩ := List.getElem?_eq_some_iff.1 h
  rw [length_linesFrom] at hlt
  exact ⟨hlt, by simp [linesFrom]⟩

theorem bytesFrom_succ : bytesFrom b a (count + 1) = byteAt b a :: bytesFrom b (a + 1) count := by
  have hshift : ∀ k : Nat, a + (k + 1 : Nat) = a + 1 + k := fun k => by omega
  simp only [bytesFrom, List.range_succ_eq_map, List.map_cons, List.map_map, Function.comp_def,
    Nat.succ_eq_add_one, hshift, Int.natCast_zero, Int.add_zero]

theorem linesFrom_succ :
    linesFrom b a (count + 1) = line a (wordAt b a) :: linesFrom b (a + 2) count := by
  have hshift : ∀ k : Nat, a + 2 * (k + 1 : Nat) = a + 2 + 2 * k := fun k => by omega
  simp only [linesFrom, List.range_succ_eq_map, List.map_cons, List.map_map, Function.comp_def,
    Nat.succ_eq_add_one, hshift, Int.natCast_zero, Int.mul_zero, Int.add_zero]

theorem linesFrom_add (m n : Nat) :
    linesFrom b a (m + n) = linesFrom b a m ++ linesFrom b (a + 2 * m) n := by
  have hshift : ∀ k : Nat, a + 2 * (m + k : Nat) = a + 2 * m + 2 * k := fun k => by omega
  simp only [linesFrom, List.range_add, List.map_append, List.map_map, Function.comp_def, hshift]

theorem peekAll_eq (h : Unbroken b) (ha : 0 ≤ a) (hroom : 0 < count → a + count ≤ b.size) :
    b.peekAll a count = .ok (bytesFrom b a count) := by
  induction count generalizing a with
  | zero => rfl
  | succ count ih =>
      have hfirst : b.peek a = .ok (byteAt b a) := h.peek (by omega)
      have hrest : b.peekAll (a + 1) count = .ok (bytesFrom b (a + 1) count) :=
        ih (by omega) (by omega)
      simp only [Bus.peekAll, hfirst, hrest, bytesFrom_succ]

/-- The words are listed one by one until less than a word is left. -/
theorem linesTo_eq (h : Unbroken b) (ha : 0 ≤ a) (hstop : stop ≤ b.size)
    (hroom : 0 < count → a + 2 * count ≤ stop) (hend : stop ≤ a + 2 * count + 1) :
    linesTo b stop a = .ok (linesFrom b a count) := by
  induction count generalizing a with
  | zero => exact linesTo_end (by omega)
  | succ count ih =>
      have hhigh : b.peek a = .ok (byteAt b a) := h.peek (by omega)
      have hlow : b.peek (a + 1) = .ok (byteAt b (a + 1)) := h.peek (by omega)
      have hrest : linesTo b stop (a + 2) = .ok (linesFrom b (a + 2) count) :=
        ih (by omega) (by omega) (by omega)
      rw [linesTo, if_pos (by omega), peekWord_eq hhigh hlow, hrest, linesFrom_succ]
      rfl

theorem listing_eq (h : Unbroken b) (ha : 0 ≤ a) (length : Int) :
    listing b a length = .ok (linesFrom b a (wordCount b a length)) := by
  unfold listing wordCount
  apply linesTo_eq h ha <;> omega

end Shown

/-! ## Hexadecimal dumps -/

section Dump

open Text

variable {b : Bus} {a : Int} {count : Nat}

theorem text_word {high low : Int} (hhigh : IsByte high) (hlow : IsByte low) :
    Opcode.text (high * 256 + low) = hexUpper 2 high ++ hexUpper 2 low := by
  obtain ⟨m, rfl⟩ := Int.eq_ofNat_of_zero_le hhigh.1
  obtain ⟨n, rfl⟩ := Int.eq_ofNat_of_zero_le hlow.1
  have hm : m < Nat.pow 16 (1 + 1) := by
    change m < 256
    omega
  have hn : n < Nat.pow 16 (1 + 1) := by
    change n < 256
    omega
  have hword : m * 256 + n < Nat.pow 16 (3 + 1) := by
    change m * 256 + n < 65536
    omega
  have hcast : (m : Int) * 256 + n = (m * 256 + n : Nat) := by omega
  have hdigits : (List.range 4).reverse.map (digitAt (m * 256 + n : Nat)) =
      (List.range 2).reverse.map (digitAt m) ++ (List.range 2).reverse.map (digitAt n) := by
    have h3 : Opcode.nibble 3 (m * 256 + n : Nat) = Opcode.nibble 1 m := by
      rw [nibble_three, nibble_one]
      omega
    have h2 : Opcode.nibble 2 (m * 256 + n : Nat) = Opcode.nibble 0 m := by
      rw [nibble_two, nibble_zero]
      omega
    have h1 : Opcode.nibble 1 (m * 256 + n : Nat) = Opcode.nibble 1 n := by
      rw [nibble_one, nibble_one]
      omega
    have h0 : Opcode.nibble 0 (m * 256 + n : Nat) = Opcode.nibble 0 n := by
      rw [nibble_zero, nibble_zero]
      omega
    change [digitAt _ 3, digitAt _ 2, digitAt _ 1, digitAt _ 0] = [_, _, _, _]
    simp only [digitAt, h3, h2, h1, h0]
  calc
    Opcode.text (m * 256 + n) = hexUpper 4 (m * 256 + n : Nat) := by rw [← hcast]; rfl
    _ = String.ofList ((List.range 4).reverse.map (digitAt (m * 256 + n : Nat))) :=
      hexUpper_eq hword
    _ = String.ofList ((List.range 2).reverse.map (digitAt m)) ++
          String.ofList ((List.range 2).reverse.map (digitAt n)) := by
      rw [hdigits, String.ofList_append]
    _ = hexUpper 2 m ++ hexUpper 2 n := by rw [hexUpper_eq hm, hexUpper_eq hn]

theorem join_words (h : Unbroken b) (ha : 0 ≤ a) (hroom : 0 < count → a + 2 * count ≤ b.size) :
    String.join ((linesFrom b a count).map Line.word) =
      String.join ((bytesFrom b a (2 * count)).map (hexUpper 2)) := by
  induction count generalizing a with
  | zero => rfl
  | succ count ih =>
      have hhigh : IsByte (byteAt b a) := h.isByte (by omega)
      have hlow : IsByte (byteAt b (a + 1)) := h.isByte (by omega)
      have hrest := ih (a := a + 2) (by omega) (by omega)
      have hdouble : 2 * (count + 1) = 2 * count + 1 + 1 := by omega
      have hshift : a + 1 + 1 = a + 2 := by omega
      rw [hdouble, linesFrom_succ, bytesFrom_succ, bytesFrom_succ, hshift]
      simp only [List.map_cons, String.join_cons, hrest]
      rw [← String.append_assoc, ← text_word hhigh hlow]
      rfl

end Dump

/-! ## Ranges -/

section Ranges

variable {b : Bus} {start length first second : Int}

theorem wordCount_room (hpos : 0 < wordCount b start length) :
    start + 2 * wordCount b start length ≤ b.size := by
  unfold wordCount at hpos ⊢
  omega

theorem word_line (hword : IsWord (wordAt b start)) : (line start (wordAt b start)).word =
    wordDigits (256 * byteAt b start + byteAt b (start + 1)) := by
  have hparts : 256 * byteAt b start + byteAt b (start + 1) = wordAt b start := by
    unfold wordAt
    omega
  rw [hparts]
  exact text_eq_wordDigits hword

theorem covers_linesFrom (h : Unbroken b) (hstart : 0 ≤ start) :
    Covers b start length (linesFrom b start (wordCount b start length))
      (bytesFrom b start (2 * wordCount b start length)) where
  count := by
    rw [length_linesFrom, wordCount]
    omega
  peeked := by
    have hroom : 0 < wordCount b start length →
        start + 2 * wordCount b start length ≤ b.size := wordCount_room
    rw [length_linesFrom]
    exact peekAll_eq h hstart (by omega)
  shown k l hl := by
    have hroom : 0 < wordCount b start length →
        start + 2 * wordCount b start length ≤ b.size := wordCount_room
    obtain ⟨hk, rfl⟩ := getElem?_linesFrom hl
    refine ⟨rfl, byteAt b (start + 2 * k), byteAt b (start + 2 * k + 1), ?_, ?_, ?_⟩
    · exact getElem?_bytesFrom (by omega)
    · rw [getElem?_bytesFrom (by omega)]
      congr 2
      omega
    · exact word_line (h.isWord (by omega) (by omega))
  dump := join_words h hstart wordCount_room

theorem wordCount_add (hfirst : 0 ≤ first) (heven : first % 2 = 0) (hsecond : 0 ≤ second) :
    wordCount b start (first + second) =
      wordCount b start first + wordCount b (start + first) second := by
  unfold wordCount
  rcases Int.le_total (start + first) b.size with hin | hout <;> omega

theorem listing_append (h : Unbroken b) (hstart : 0 ≤ start) (hfirst : 0 ≤ first)
    (heven : first % 2 = 0) (hsecond : 0 ≤ second) :
    ∃ lines later, listing b start first = .ok lines ∧
      listing b (start + first) second = .ok later ∧
      listing b start (first + second) = .ok (lines ++ later) := by
  refine ⟨_, _, listing_eq h hstart first, listing_eq h (by omega) second, ?_⟩
  rw [listing_eq h hstart, wordCount_add hfirst heven hsecond, linesFrom_add]
  -- A range that ends behind the bus leaves no words for the next one.
  have hnext : wordCount b (start + first) second = 0 ∨
      start + 2 * wordCount b start first = start + first := by
    unfold wordCount
    omega
  rcases hnext with hnone | hnext
  · rw [hnone]
    rfl
  · rw [hnext]

end Ranges

/-- Every range of a bus without holes is listed, and ranges that follow one another are listed one
after the other if the first is of even length.  A listing is read off the bus and returns none, so
that memory and its log stay as they are. -/
theorem listing_covers {b : Bus} (h : Unbroken b) {start : Int} (hstart : 0 ≤ start)
    (length : Int) :
    (∃ lines bytes, listing b start length = .ok lines ∧ Covers b start length lines bytes) ∧
    ∀ first second : Int, 0 ≤ first → first % 2 = 0 → 0 ≤ second →
      ∃ lines later, listing b start first = .ok lines ∧
        listing b (start + first) second = .ok later ∧
        listing b start (first + second) = .ok (lines ++ later) :=
  ⟨⟨_, _, listing_eq h hstart length, covers_linesFrom h hstart⟩,
    fun _ _ hfirst heven hsecond => listing_append h hstart hfirst heven hsecond⟩

theorem unbroken_overlapping : Unbroken overlapping := by
  apply unbroken_of_assembled assembled_overlapping
  intro a ha
  have hsize : overlapping.size = 5 := rfl
  rw [hsize] at ha
  rcases Int.lt_or_le a 2 with hlt | hge
  · refine ⟨⟨0, 1, 0⟩, by simp [overlapping], ?_⟩
    simp only [Region.contains, Bool.and_eq_true, decide_eq_true_eq]
    omega
  · refine ⟨⟨1, 4, 1⟩, by simp [overlapping], ?_⟩
    simp only [Region.contains, Bool.and_eq_true, decide_eq_true_eq]
    omega

theorem listing_covers_overlapping : ∃ lines, listing overlapping 1 9 = .ok lines ∧
    lines.length = 2 ∧ String.join (lines.map Line.word) = "08020304" := by
  have hstart : (0 : Int) ≤ 1 := by decide
  obtain ⟨⟨lines, bytes, hlines, hcovers⟩, -⟩ := listing_covers unbroken_overlapping hstart 9
  have hsize : overlapping.size = 5 := rfl
  have hlength : lines.length = 2 := by
    have hcount := hcovers.count
    rw [hsize] at hcount
    omega
  have hbytes : bytes = [8, 2, 3, 4] := by
    have hpeeked := hcovers.peeked
    rw [hlength] at hpeeked
    exact (Except.ok.inj hpeeked).symm
  refine ⟨lines, hlines, hlength, ?_⟩
  rw [hcovers.dump, hbytes]
  decide

end Chip8.Proofs.Listing.Range
