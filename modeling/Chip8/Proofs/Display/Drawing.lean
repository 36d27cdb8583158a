import Chip8.Proofs.Machine.Representation
import Mathlib.Algebra.BigOperators.Group.Finset.Piecewise
import Mathlib.Algebra.BigOperators.Group.Finset.Sigma
import Mathlib.Algebra.Ring.Parity
import Mathlib.Data.Int.Bitwise
import Mathlib.Data.Int.ModEq
import Mathlib.Data.Nat.Count

/-!
# Drawing on the display

A sprite is drawn pixel by pixel in place, so that on a small display a pixel may be flipped several
times.  In the end it only counts how many pixels of the sprite fall on a place: the place changes
if their number is odd, and a lit pixel was hit if the place was lit before the first of them came,
or if a second one came.
-/

namespace Chip8.Proofs.Display.Drawing

open Chip8.Display
open Chip8.Proofs.Machine.Representation

/-- How many pixels of a sprite, by row and column, fall on a place of a display when the sprite is
drawn with its corner at `(x, y)`. -/
def hits (width height : Nat) (x y : Int) (sprite : List Int) (px py : Int) : Nat :=
  ((Finset.range sprite.length ×ˢ Finset.range 8).filter fun (row, column) =>
    (sprite.getD row 0).testBit (7 - column) = true ∧
      (x + column) % width = px ∧ (y + row) % height = py).card

/-! ## Flipping pixels one after the other -/

/-- Flips the pixels with some indices; the flag turns true if one of them is lit at its turn. -/
def flipAll : Display × Bool → List Nat → Display × Bool
  | state, [] => state
  | (d, hit), i :: rest => flipAll (d.flip i, hit || d.lit i) rest

section Flips

variable {d : Display} {state : Display × Bool} {indices : List Nat} {i : Nat}

theorem flipAll_append (first second : List Nat) :
    flipAll state (first ++ second) = flipAll (flipAll state first) second := by
  induction first generalizing state with
  | nil => rfl
  | cons i rest ih => exact ih

theorem index_flipAll (state : Display × Bool) (indices : List Nat) :
    (flipAll state indices).1.index = state.1.index := by
  induction indices generalizing state with
  | nil => rfl
  | cons i rest ih => exact ih _

theorem lit_flip (hi : i < d.pixels.size) (j : Nat) :
    (d.flip i).lit j = (d.lit j ^^ decide (j = i)) := by
  simp only [lit, Display.flip, Array.getD_eq_getD_getElem?, Array.getElem?_modify]
  by_cases heq : j = i
  · subst heq
    simp [Array.getElem?_eq_getElem hi]
  · simp [heq, Ne.symm heq]

theorem lit_flipAll (hin : ∀ i ∈ indices, i < state.1.pixels.size) (j : Nat) :
    (flipAll state indices).1.lit j = (state.1.lit j ^^ decide (Odd (indices.count j))) := by
  induction indices generalizing state with
  | nil => simp [flipAll]
  | cons i rest ih =>
      obtain ⟨hi, hlater⟩ := List.forall_mem_cons.1 hin
      have hflipped : ∀ k ∈ rest, k < (state.1.flip i).pixels.size := by
        simpa [Display.flip] using hlater
      have hrest : (flipAll state (i :: rest)).1.lit j =
          ((state.1.flip i).lit j ^^ decide (Odd (rest.count j))) := ih hflipped
      rw [hrest, lit_flip hi, List.count_cons]
      by_cases heq : j = i
      · subst heq
        simp only [decide_true, beq_self_eq_true, if_true, Nat.odd_add_one, decide_not,
          Bool.xor_true, Bool.not_xor, Bool.xor_not]
      · simp [heq, Ne.symm heq]

/-- Whether a pixel is lit at one of its turns: at the first, or at a second. -/
def Struck (d : Display) (indices : List Nat) (j : Nat) : Prop :=
  (d.lit j = true ∧ 1 ≤ indices.count j) ∨ 2 ≤ indices.count j

theorem struck_cons (hi : i < d.pixels.size) (j : Nat) :
    Struck d (i :: indices) j ↔ (j = i ∧ d.lit i = true) ∨ Struck (d.flip i) indices j := by
  unfold Struck
  rw [lit_flip hi, List.count_cons]
  by_cases heq : j = i
  · subst heq
    cases d.lit j
    all_goals
      simp only [beq_self_eq_true, if_true, decide_true, Bool.xor_true, Bool.not_true,
        Bool.not_false, true_and, false_and, and_false, false_or, true_or, iff_true,
        Bool.false_eq_true]
      omega
  · simp [heq, Ne.symm heq]

theorem hit_flipAll (hin : ∀ i ∈ indices, i < state.1.pixels.size) :
    (flipAll state indices).2 = true ↔ state.2 = true ∨ ∃ j, Struck state.1 indices j := by
  induction indices generalizing state with
  | nil => simp [flipAll, Struck]
  | cons i rest ih =>
      obtain ⟨hi, hlater⟩ := List.forall_mem_cons.1 hin
      have hflipped : ∀ k ∈ rest, k < (state.1.flip i).pixels.size := by
        simpa [Display.flip] using hlater
      have hrest : (flipAll state (i :: rest)).2 = true ↔
          (state.2 || state.1.lit i) = true ∨ ∃ j, Struck (state.1.flip i) rest j := ih hflipped
      rw [hrest]
      simp only [struck_cons hi, exists_or, exists_eq_left, Bool.or_eq_true, or_assoc]

end Flips

/-! ## The pixels of a sprite -/

def lineSpots (index : Int → Int → Nat) (x y line : Int) : List Nat :=
  ((List.range 8).filter (spriteBit line)).map fun column : Nat => index (x + column) y

def spots (index : Int → Int → Nat) (x y : Int) : List Int → List Nat
  | [] => []
  | line :: rest => lineSpots index x y line ++ spots index x (y + 1) rest

section Spots

variable {index : Int → Int → Nat} {x y : Int}

theorem drawLine_eq (x y line : Int) (state : Display × Bool) :
    drawLine x y line state = flipAll state (lineSpots state.1.index x y line) := by
  unfold drawLine lineSpots
  induction List.range 8 generalizing state with
  | nil => rfl
  | cons column rest ih =>
      rw [List.foldl_cons, ih]
      cases hbit : spriteBit line column with
      | false => simp [hbit]
      | true => simp [hbit, flipAll, plot, Display.flip, Display.index]

theorem drawLines_eq (x y : Int) (sprite : List Int) (state : Display × Bool) :
    drawLines x y sprite state = flipAll state (spots state.1.index x y sprite) := by
  induction sprite generalizing state y with
  | nil => rfl
  | cons line rest ih =>
      rw [drawLines, ih, drawLine_eq, index_flipAll, spots, flipAll_append]

theorem mem_spots {sprite : List Int} {i : Nat} (h : i ∈ spots index x y sprite) :
    ∃ px py, i = index px py := by
  induction sprite generalizing y with
  | nil => cases h
  | cons line rest ih =>
      rcases List.mem_append.1 h with hline | hrest
      · obtain ⟨column, -, rfl⟩ := List.mem_map.1 hline
        exact ⟨_, _, rfl⟩
      · exact ih hrest

theorem spriteBit_eq_testBit (line : Int) (column : Nat) :
    spriteBit line column = line.testBit (7 - column) := by
  unfold spriteBit
  generalize 7 - column = k
  have hpos : 0 < Nat.pow 2 k := Nat.pow_pos (by decide)
  cases line with
  | ofNat n =>
      have hdiv : Int.ofNat n / (Nat.pow 2 k : Nat) = (n / 2 ^ k : Nat) := rfl
      rw [Int.testBit, Nat.testBit_eq_decide_div_mod_eq, hdiv, decide_eq_decide]
      omega
  | negSucc n =>
      have hdiv : Int.negSucc n / (Nat.pow 2 k : Nat) = -((n / 2 ^ k : Nat) + 1) :=
        Int.negSucc_ediv n (by omega)
      rw [Int.testBit, Nat.testBit_eq_decide_div_mod_eq, hdiv, ← decide_not, decide_eq_decide]
      omega

theorem count_lineSpots (x y line : Int) (i : Nat) :
    (lineSpots index x y line).count i =
      ∑ column ∈ Finset.range 8,
        if line.testBit (7 - column) = true ∧ index (x + column) y = i then 1 else 0 := by
  rw [← Finset.card_filter, ← Nat.count_eq_card_filter_range]
  simp only [lineSpots, List.count, List.countP_map, List.countP_filter, Nat.count]
  apply List.countP_congr
  intro column _
  simp [spriteBit_eq_testBit, and_comm]

theorem count_spots (x y : Int) (sprite : List Int) (i : Nat) :
    (spots index x y sprite).count i =
      ∑ row ∈ Finset.range sprite.length, ∑ column ∈ Finset.range 8,
        if (sprite.getD row 0).testBit (7 - column) = true ∧
            index (x + column) (y + row) = i then 1 else 0 := by
  induction sprite generalizing y with
  | nil => rfl
  | cons line rest ih =>
      have hshift : ∀ row : Nat, y + ((row + 1 : Nat) : Int) = y + 1 + row := fun row => by omega
      rw [spots, List.count_append, count_lineSpots, ih, List.length_cons,
        Finset.sum_range_succ' _ rest.length, Nat.add_comm]
      simp only [hshift, List.getD_cons_succ, List.getD_cons_zero, Nat.cast_zero, Int.add_zero]

end Spots

/-! ## Places -/

section Places

variable {d : Display} {width height : Nat} {x y px py : Int}

theorem index_eq (h : Shaped width height d) (x y : Int) :
    d.index x y = (y % height).toNat * width + (x % width).toNat := by
  rw [Display.index, h.width_eq, h.height_eq]

theorem emod_inside {n : Nat} (hn : 0 < n) (z : Int) : 0 ≤ z % n ∧ z % n < n :=
  ⟨Int.emod_nonneg z (by omega), Int.emod_lt_of_pos z (by omega)⟩

theorem toNat_emod_lt {n : Nat} (hn : 0 < n) (z : Int) : (z % n).toNat < n := by
  have := emod_inside hn z
  omega

theorem index_lt (h : Shaped width height d) (hwidth : 0 < width) (hheight : 0 < height)
    (x y : Int) : d.index x y < d.pixels.size := by
  have hcolumn := toNat_emod_lt hwidth x
  have hrow := toNat_emod_lt hheight y
  rw [index_eq h, h.size_eq]
  calc (y % height).toNat * width + (x % width).toNat
      < (y % height).toNat * width + width := by omega
    _ = ((y % height).toNat + 1) * width := by rw [Nat.add_mul, Nat.one_mul]
    _ ≤ height * width := Nat.mul_le_mul_right width hrow
    _ = width * height := Nat.mul_comm height width

theorem index_eq_iff (h : Shaped width height d) (hwidth : 0 < width) (hheight : 0 < height)
    (x y px py : Int) :
    d.index x y = d.index px py ↔ x % width = px % width ∧ y % height = py % height := by
  have hrow : ∀ z t : Int, ((t % height).toNat * width + (z % width).toNat) / width =
      (t % height).toNat := by
    intro z t
    rw [Nat.add_comm, Nat.add_mul_div_right _ _ hwidth,
      Nat.div_eq_of_lt (toNat_emod_lt hwidth z), Nat.zero_add]
  rw [index_eq h, index_eq h]
  constructor
  · intro heq
    have hrows := congrArg (· / width) heq
    simp only [hrow] at hrows
    rw [hrows] at heq
    have := emod_inside hwidth x
    have := emod_inside hwidth px
    have := emod_inside hheight y
    have := emod_inside hheight py
    omega
  · rintro ⟨hcolumns, hrows⟩
    rw [hcolumns, hrows]

theorem hits_eq_count (h : Shaped width height d) (hwidth : 0 < width) (hheight : 0 < height)
    (sprite : List Int) (hx : 0 ≤ px ∧ px < width) (hy : 0 ≤ py ∧ py < height) :
    hits width height x y sprite px py = (spots d.index x y sprite).count (d.index px py) := by
  have hpx : px % width = px := Int.emod_eq_of_lt hx.1 hx.2
  have hpy : py % height = py := Int.emod_eq_of_lt hy.1 hy.2
  simp only [hits, Finset.card_filter, Finset.sum_product, count_spots,
    index_eq_iff h hwidth hheight, hpx, hpy]

theorem inside_of_hits {sprite : List Int} (hwidth : 0 < width) (hheight : 0 < height)
    (hhits : 1 ≤ hits width height x y sprite px py) :
    (0 ≤ px ∧ px < width) ∧ 0 ≤ py ∧ py < height := by
  obtain ⟨⟨row, column⟩, hmem⟩ := Finset.card_pos.1 hhits
  obtain ⟨-, -, rfl, rfl⟩ := Finset.mem_filter.1 hmem
  exact ⟨emod_inside hwidth _, emod_inside hheight _⟩

theorem eq_of_emod_eq {n a b : Nat} {z : Int} (ha : a < n) (hb : b < n)
    (heq : (z + a) % n = (z + b) % n) : a = b := by
  have hmod : (a : Int) ≡ b [ZMOD n] := Int.ModEq.add_left_cancel' z heq
  exact (Int.natCast_modEq_iff.1 hmod).eq_of_lt_of_lt ha hb

/-- A sprite no larger than the display meets no place twice. -/
theorem hits_le_one (hwidth : 8 ≤ width) {sprite : List Int} (hlength : sprite.length ≤ height) :
    hits width height x y sprite px py ≤ 1 := by
  apply Finset.card_le_one.2
  rintro ⟨row, column⟩ hfirst ⟨row', column'⟩ hsecond
  simp only [Finset.mem_filter, Finset.mem_product, Finset.mem_range] at hfirst hsecond
  obtain ⟨⟨hrow, hcolumn⟩, -, hx, hy⟩ := hfirst
  obtain ⟨⟨hrow', hcolumn'⟩, -, hx', hy'⟩ := hsecond
  have hcolumns : column = column' :=
    eq_of_emod_eq (by omega) (by omega) (hx.trans hx'.symm)
  have hrows : row = row' := eq_of_emod_eq (by omega) (by omega) (hy.trans hy'.symm)
  rw [hcolumns, hrows]

theorem emod_add_eq_iff {n : Nat} {z k p : Int} (hk : 0 ≤ k ∧ k < n) (hp : 0 ≤ p ∧ p < n) :
    (z + k) % n = p ↔ k = (p - z) % n := by
  constructor
  · rintro rfl
    rw [Int.emod_sub_emod, add_sub_cancel_left, Int.emod_eq_of_lt hk.1 hk.2]
  · rintro rfl
    rw [Int.add_emod_emod, add_sub_cancel, Int.emod_eq_of_lt hp.1 hp.2]

theorem hits_pos_iff (hwidth : 8 ≤ width) {sprite : List Int} (hlength : sprite.length ≤ height)
    (hx : 0 ≤ px ∧ px < width) (hy : 0 ≤ py ∧ py < height) :
    1 ≤ hits width height x y sprite px py ↔
      (px - x) % width < 8 ∧ (py - y) % height < sprite.length ∧
        (sprite.getD ((py - y) % height).toNat 0).testBit (7 - ((px - x) % width).toNat) =
          true := by
  have hcolumn := emod_inside (n := width) (by omega) (px - x)
  have hrow := emod_inside (n := height) (by omega) (py - y)
  unfold hits
  rw [Nat.succ_le_iff, Finset.card_pos]
  constructor
  · rintro ⟨⟨row, column⟩, hmem⟩
    simp only [Finset.mem_filter, Finset.mem_product, Finset.mem_range] at hmem
    obtain ⟨⟨hlow, hleft⟩, hbit, hpx, hpy⟩ := hmem
    rw [emod_add_eq_iff (by omega) hx] at hpx
    rw [emod_add_eq_iff (by omega) hy] at hpy
    rw [← hpx, ← hpy]
    exact ⟨by omega, by omega, hbit⟩
  · rintro ⟨hleft, hlow, hbit⟩
    refine ⟨(((py - y) % height).toNat, ((px - x) % width).toNat), ?_⟩
    simp only [Finset.mem_filter, Finset.mem_product, Finset.mem_range]
    refine ⟨⟨by omega, by omega⟩, hbit, ?_, ?_⟩
    · rw [emod_add_eq_iff (by omega) hx, Int.toNat_of_nonneg hcolumn.1]
    · rw [emod_add_eq_iff (by omega) hy, Int.toNat_of_nonneg hrow.1]

theorem pixel_inside (h : Shaped width height d) (hx : 0 ≤ px ∧ px < width)
    (hy : 0 ≤ py ∧ py < height) : d.pixel px py = .ok (d.lit (d.index px py)) := by
  unfold pixel
  rw [h.width_eq, h.height_eq, if_pos ⟨hx.1, hx.2, hy.1, hy.2⟩]

theorem pixel_outside (h : Shaped width height d)
    (hout : ¬((0 ≤ px ∧ px < width) ∧ 0 ≤ py ∧ py < height)) :
    d.pixel px py = .error (.pixelOutside px py width height) := by
  unfold pixel
  rw [h.width_eq, h.height_eq, if_neg]
  rintro ⟨hleft, hright, htop, hbottom⟩
  exact hout ⟨⟨hleft, hright⟩, htop, hbottom⟩

end Places

/-! ## Drawing -/

section Draw

variable {d : Display} {width height : Nat} {x y : Int} {sprite : List Int}

theorem draw_eq (d : Display) (x y : Int) (sprite : List Int) :
    d.draw x y sprite = flipAll (d, false) (spots d.index x y sprite) :=
  drawLines_eq x y sprite (d, false)

theorem spots_inside (h : Shaped width height d) (hwidth : 0 < width) (hheight : 0 < height) :
    ∀ i ∈ spots d.index x y sprite, i < d.pixels.size := by
  intro i hi
  obtain ⟨px, py, rfl⟩ := mem_spots hi
  exact index_lt h hwidth hheight px py

theorem pixel_draw (h : Shaped width height d) (hwidth : 0 < width) (hheight : 0 < height)
    (px py : Int) :
    (d.draw x y sprite).1.pixel px py =
      (d.pixel px py).map (· ^^ decide (Odd (hits width height x y sprite px py))) := by
  have hdrawn := h.draw x y sprite
  by_cases hin : (0 ≤ px ∧ px < width) ∧ 0 ≤ py ∧ py < height
  · rw [pixel_inside h hin.1 hin.2, pixel_inside hdrawn hin.1 hin.2,
      hits_eq_count h hwidth hheight sprite hin.1 hin.2, draw_eq, index_flipAll,
      lit_flipAll (spots_inside h hwidth hheight)]
    rfl
  · rw [pixel_outside h hin, pixel_outside hdrawn hin]
    rfl

/-- The pixel of a place is struck if the place was lit and is met, or is met twice. -/
theorem struck_iff (h : Shaped width height d) (hwidth : 0 < width) (hheight : 0 < height)
    {px py : Int} (hx : 0 ≤ px ∧ px < width) (hy : 0 ≤ py ∧ py < height) :
    Struck d (spots d.index x y sprite) (d.index px py) ↔
      (d.pixel px py = .ok true ∧ 1 ≤ hits width height x y sprite px py) ∨
        2 ≤ hits width height x y sprite px py := by
  rw [pixel_inside h hx hy, hits_eq_count h hwidth hheight sprite hx hy]
  simp [Struck]

theorem hit_draw (h : Shaped width height d) (hwidth : 0 < width) (hheight : 0 < height) :
    (d.draw x y sprite).2 = true ↔ ∃ px py,
      (d.pixel px py = .ok true ∧ 1 ≤ hits width height x y sprite px py) ∨
        2 ≤ hits width height x y sprite px py := by
  rw [draw_eq, hit_flipAll (spots_inside h hwidth hheight)]
  simp only [Bool.false_eq_true, false_or]
  constructor
  · rintro ⟨i, hstruck⟩
    have hmem : i ∈ spots d.index x y sprite := List.count_pos_iff.1 (by
      rcases hstruck with ⟨-, hone⟩ | htwo <;> omega)
    obtain ⟨a, b, rfl⟩ := mem_spots hmem
    -- The same index belongs to a place on the display.
    have hplace : d.index a b = d.index (a % width) (b % height) := by
      rw [index_eq_iff h hwidth hheight, Int.emod_emod, Int.emod_emod]
      exact ⟨rfl, rfl⟩
    rw [hplace] at hstruck
    exact ⟨_, _, (struck_iff h hwidth hheight (emod_inside hwidth a)
      (emod_inside hheight b)).1 hstruck⟩
  · rintro ⟨px, py, hmet⟩
    have hhits : 1 ≤ hits width height x y sprite px py := by
      rcases hmet with ⟨-, hone⟩ | htwo <;> omega
    obtain ⟨hx, hy⟩ := inside_of_hits hwidth hheight hhits
    exact ⟨_, (struck_iff h hwidth hheight hx hy).2 hmet⟩

theorem hit_draw_of_fits (h : Shaped width height d) (hwidth : 8 ≤ width) (hheight : 0 < height)
    (hlength : sprite.length ≤ height) :
    (d.draw x y sprite).2 = true ↔ ∃ px py,
      d.pixel px py = .ok true ∧ (d.draw x y sprite).1.pixel px py = .ok false := by
  have hpos : 0 < width := by omega
  rw [hit_draw h hpos hheight]
  constructor
  · rintro ⟨px, py, hmet⟩
    have hle : hits width height x y sprite px py ≤ 1 := hits_le_one hwidth hlength
    obtain ⟨hlit, hone⟩ := hmet.resolve_right (by omega)
    have hexact : hits width height x y sprite px py = 1 := by omega
    refine ⟨px, py, hlit, ?_⟩
    rw [pixel_draw h hpos hheight, hlit, hexact]
    rfl
  · rintro ⟨px, py, hlit, hdark⟩
    rw [pixel_draw h hpos hheight, hlit] at hdark
    refine ⟨px, py, .inl ⟨hlit, Nat.pos_of_ne_zero fun hnone => ?_⟩⟩
    rw [hnone] at hdark
    cases hdark

end Draw

/-- Drawing changes each pixel that an odd number of pixels of the sprite falls on and no other, at
any position and with any sprite.  It reports whether a lit pixel was met or some pixel twice; where
the sprite is no larger than the display, this is whether a lit pixel went dark. -/
theorem draw_exact {width height : Nat} {d : Display} (h : Shaped width height d)
    (hwidth : 0 < width) (hheight : 0 < height) (x y : Int) (sprite : List Int) :
    Shaped width height (d.draw x y sprite).1 ∧
    (∀ px py, (d.draw x y sprite).1.pixel px py =
      (d.pixel px py).map (· ^^ decide (Odd (hits width height x y sprite px py)))) ∧
    ((d.draw x y sprite).2 = true ↔ ∃ px py,
      (d.pixel px py = .ok true ∧ 1 ≤ hits width height x y sprite px py) ∨
        2 ≤ hits width height x y sprite px py) ∧
    (8 ≤ width → sprite.length ≤ height →
      ((d.draw x y sprite).2 = true ↔ ∃ px py,
        d.pixel px py = .ok true ∧ (d.draw x y sprite).1.pixel px py = .ok false)) :=
  ⟨h.draw x y sprite, pixel_draw h hwidth hheight, hit_draw h hwidth hheight,
    fun hwide hlength => hit_draw_of_fits h hwide hheight hlength⟩

/-- A row of eight lit pixels runs around a display of four columns twice. -/
theorem draw_around_twice :
    Shaped 4 1 (blank 4 1) ∧ (0 : Nat) < 4 ∧ (0 : Nat) < 1 ∧
      ((blank 4 1).draw (-1) 5 [0xFF]).2 = true ∧
      ((blank 4 1).draw (-1) 5 [0xFF]).1.pixel 2 0 = .ok false := by
  have hshaped : Shaped 4 1 (blank 4 1) := shaped_blank
  have htwice : hits 4 1 (-1) 5 [0xFF] 2 0 = 2 := by decide
  have hdark : (blank 4 1).pixel 2 0 = .ok false := by decide
  obtain ⟨-, hpixel, hhit, -⟩ := draw_exact hshaped (by decide) (by decide) (-1) 5 [0xFF]
  have hafter := hpixel 2 0
  rw [htwice, hdark] at hafter
  exact ⟨hshaped, by decide, by decide, hhit.2 ⟨2, 0, .inr (by rw [htwice])⟩, hafter⟩

end Chip8.Proofs.Display.Drawing
