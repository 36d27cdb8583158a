import Chip8.Proofs.Display.Drawing
import Chip8.Proofs.Host.Failure

/-!
# Sprites

What the instruction leaves on the display that draws a sprite, at every position and over whatever
is there, and what it leaves in the flag register, which may be one of its operands.  Drawn a second
time the sprite is gone.
-/

namespace Chip8.Proofs.Host.Sprites

open Chip8.Proofs.Memory.Layout Chip8.Proofs.Memory.Transfer
open Chip8.Proofs.Instruction.Effect Chip8.Proofs.Instruction.Word Chip8.Proofs.Instruction.Cycle
open Chip8.Proofs.Machine.Representation Chip8.Proofs.Machine.Operations
open Chip8.Proofs.Display.Drawing Chip8.Proofs.Host.Invariant Chip8.Proofs.Host.Failure

/-! ## Pixels -/

def pixelAt (m : Machine) (px py : Int) : Except Display.Error Bool :=
  m.core.hardware.display.pixel px py

/-- Whether the sprite that a word draws has a pixel at a place: the bit in the column and the row
by which the place is off the position that two registers give, in the bytes from the index
register on. -/
def covers (m : Machine) (word px py : Int) : Bool :=
  let column := (px - m.core.registers.get (Opcode.x word)) % 64
  let row := (py - m.core.registers.get (Opcode.y word)) % 32
  column < 8 && row < word % 0x10 &&
    (byteAt m.core.bus (m.core.registers.index + row)).testBit (7 - column.toNat)

def Erases (before after : Machine) : Prop :=
  ∃ px py, pixelAt before px py = .ok true ∧ pixelAt after px py = .ok false

def Lights (before after : Machine) : Prop :=
  ∃ px py, pixelAt before px py = .ok false ∧ pixelAt after px py = .ok true

/-- A machine on whose display the sprite of a word has been drawn. -/
structure Draws (before after : Machine) (word : Int) : Prop where
  pixels : ∀ px py, (0 ≤ px ∧ px < 64) → (0 ≤ py ∧ py < 32) →
    ∃ lit, pixelAt before px py = .ok lit ∧
      pixelAt after px py = .ok (lit ^^ covers before word px py)
  hit : Erases before after → after.core.registers.get Registers.flagNumber = 1
  missed : ¬Erases before after → after.core.registers.get Registers.flagNumber = 0

def placed (m : Machine) (pc : Int) : Machine := { m with core := { m.core with pc } }

/-! ## Bytes of a sprite -/

structure SpriteOf (m : Machine) (word : Int) (sprite : List Int) : Prop where
  length : sprite.length = (word % 0x10).toNat
  bytes : ∀ row < (word % 0x10).toNat,
    sprite.getD row 0 = byteAt m.core.bus (m.core.registers.index + row)

section Sprite

variable {m : Machine} {word px py : Int} {sprite : List Int}

theorem SpriteOf.length_le (h : SpriteOf m word sprite) : sprite.length ≤ 32 := by
  have hlength := h.length
  omega

theorem SpriteOf.hits_eq (h : SpriteOf m word sprite) (hx : 0 ≤ px ∧ px < (64 : Nat))
    (hy : 0 ≤ py ∧ py < (32 : Nat)) :
    hits 64 32 (m.core.registers.get (Opcode.x word)) (m.core.registers.get (Opcode.y word))
      sprite px py = (covers m word px py).toNat := by
  have hlength := h.length
  have hrow := emod_inside (n := 32) (by decide) (py - m.core.registers.get (Opcode.y word))
  have hle : hits 64 32 (m.core.registers.get (Opcode.x word))
      (m.core.registers.get (Opcode.y word)) sprite px py ≤ 1 :=
    hits_le_one (by decide) h.length_le
  have hcovers : covers m word px py = true ↔
      1 ≤ hits 64 32 (m.core.registers.get (Opcode.x word))
        (m.core.registers.get (Opcode.y word)) sprite px py := by
    rw [hits_pos_iff (by decide) h.length_le hx hy]
    simp only [covers, Bool.and_eq_true, decide_eq_true_eq]
    constructor
    · rintro ⟨⟨hleft, hlow⟩, hbit⟩
      refine ⟨hleft, by omega, ?_⟩
      rw [h.bytes _ (by omega), Int.toNat_of_nonneg hrow.1]
      exact hbit
    · rintro ⟨hleft, hlow, hbit⟩
      rw [h.bytes _ (by omega), Int.toNat_of_nonneg hrow.1] at hbit
      exact ⟨⟨hleft, by omega⟩, hbit⟩
  cases hbit : covers m word px py with
  | true => exact Nat.le_antisymm hle (hcovers.1 hbit)
  | false =>
      refine Nat.lt_one_iff.1 (Nat.not_le.1 fun hone => ?_)
      rw [hcovers.2 hone] at hbit
      cases hbit

theorem decide_odd_toNat (b : Bool) : decide (Odd b.toNat) = b := by
  cases b <;> decide

end Sprite

/-! ## One instruction -/

section One

variable {m after : Machine} {size word : Int}

structure Spares (before after : Machine) : Prop where
  setup : after.setup = before.setup
  bytes : byteAt after.core.bus = byteAt before.core.bus
  index : after.core.registers.index = before.core.registers.index
  registers : ∀ n, n ≠ Registers.flagNumber →
    after.core.registers.get n = before.core.registers.get n

theorem drawn_started (m : Machine) (word : Int) :
    ∃ sprite, SpriteOf m word sprite ∧
      drawn word (started m.core) = m.core.hardware.display.draw
        (m.core.registers.get (Opcode.x word)) (m.core.registers.get (Opcode.y word)) sprite := by
  have hbus : byteAt (started m.core).bus = byteAt m.core.bus := byteAt_congr rfl rfl
  refine ⟨_, ⟨length_bytesFrom _ _ _, fun row hrow => ?_⟩, rfl⟩
  rw [← hbus]
  exact getD_bytesFrom _ _ hrow

theorem draws_of_draw {sprite : List Int} (h : Shaped 64 32 m.core.hardware.display)
    (hsprite : SpriteOf m word sprite)
    (hdisplay : after.core.hardware.display = (m.core.hardware.display.draw
      (m.core.registers.get (Opcode.x word)) (m.core.registers.get (Opcode.y word)) sprite).1)
    (hflag : after.core.registers.get Registers.flagNumber = if (m.core.hardware.display.draw
      (m.core.registers.get (Opcode.x word)) (m.core.registers.get (Opcode.y word)) sprite).2
        then 1 else 0) : Draws m after word := by
  have herases := hit_draw_of_fits (x := m.core.registers.get (Opcode.x word))
    (y := m.core.registers.get (Opcode.y word)) h (by decide) (by decide) hsprite.length_le
  rw [← hdisplay] at herases
  constructor
  case pixels =>
    intro px py hx hy
    refine ⟨_, pixel_inside h hx hy, ?_⟩
    unfold pixelAt
    rw [hdisplay, pixel_draw h (by decide) (by decide), hsprite.hits_eq hx hy,
      decide_odd_toNat, pixel_inside h hx hy]
    rfl
  case hit =>
    intro hdark
    rw [hflag, if_pos (herases.2 hdark)]
  case missed =>
    intro hkept
    rw [hflag, if_neg (mt herases.1 hkept)]

theorem spares_stepped (m : Machine) :
    Spares m { m with core := stepped m.setup .draw m.core } where
  setup := rfl
  bytes := byteAt_congr rfl rfl
  index := rfl
  registers n hne := (get_set _ _ _ n).trans (if_neg hne)

theorem flag_stepped (m : Machine) :
    (stepped m.setup .draw m.core).registers.get Registers.flagNumber =
      if (drawn (wordAt m.core.bus m.core.pc) (started m.core)).2 then 1 else 0 := by
  refine (get_set _ _ _ _).trans ?_
  rw [if_pos rfl]
  split <;> rfl

theorem draws_of_atPc (h : Wide m.setup size m.core) (hat : AtPc m word)
    (hhigh : word / 0x1000 = 0xD) (hfit : m.core.registers.index + word % 0x10 ≤ size) :
    ∃ after snapshot, m.advance = (after, .ok snapshot) ∧ Draws m after word ∧
      Spares m after ∧ Wide m.setup size after.core := by
  obtain ⟨hin, rfl⟩ := (atPc_iff h).1 hat
  have hindex := h.registers.index
  have hform := (ofOpcode?_leading .draw (by decide) rfl
    (isWord_wordAt h.bus m.core.pc)).2 hhigh
  have hfree : ∀ f, ¬Blocked m.setup size .draw (wordAt m.core.bus m.core.pc)
      m.core.registers f := by
    rintro f (⟨hret, -⟩ | ⟨hcall, -, -⟩ | ⟨hspan, hout⟩)
    · cases hret
    · cases hcall
    · cases hspan
      have hn : Opcode.n (wordAt m.core.bus m.core.pc) =
        wordAt m.core.bus m.core.pc % 0x10 := rfl
      omega
  have hadvance := advance_of_atPc h hat hform hfree
  have hwide := wide_advance h
  rw [hadvance] at hwide
  obtain ⟨sprite, hsprite, hdrawn⟩ := drawn_started m (wordAt m.core.bus m.core.pc)
  have hflag := flag_stepped m
  rw [hdrawn] at hflag
  exact ⟨_, _, hadvance,
    draws_of_draw h.display hsprite (congrArg Prod.fst hdrawn) hflag, spares_stepped m, hwide⟩

end One

/-! ## The same instruction a second time -/

section Twice

variable {m after : Machine} {size word : Int}

theorem wide_placed (h : Wide m.setup size m.core) (hafter : Wide m.setup size after.core)
    (hspares : Spares m after) :
    Wide (placed after m.core.pc).setup size (placed after m.core.pc).core := by
  have hsetup : (placed after m.core.pc).setup = m.setup := hspares.setup
  rw [hsetup]
  exact { hafter with pc := h.pc }

theorem atPc_placed (h : Wide m.setup size m.core) (hat : AtPc m word)
    (hafter : Wide m.setup size after.core) (hspares : Spares m after) :
    AtPc (placed after m.core.pc) word := by
  obtain ⟨hin, rfl⟩ := (atPc_iff h).1 hat
  refine (atPc_iff (wide_placed h hafter hspares)).2 ⟨hin, ?_⟩
  have hbytes : byteAt (placed after m.core.pc).core.bus = byteAt m.core.bus := hspares.bytes
  unfold wordAt
  rw [hbytes]
  rfl

/-- The sprite is the same unless an operand was lost to the flag. -/
theorem covers_placed (hspares : Spares m after) (hx : Opcode.x word ≠ Registers.flagNumber)
    (hy : Opcode.y word ≠ Registers.flagNumber) (pc : Int) :
    covers (placed after pc) word = covers m word := by
  funext px py
  simp only [covers, placed, hspares.registers _ hx, hspares.registers _ hy, hspares.bytes,
    hspares.index]

theorem pixelAt_twice {last : Machine} {pc : Int} (h : Wide m.setup size m.core)
    (hlast : Wide m.setup size last.core) (hdraws : Draws m after word)
    (hagain : Draws (placed after pc) last word)
    (hcovers : covers (placed after pc) word = covers m word) (px py : Int) :
    pixelAt last px py = pixelAt m px py := by
  by_cases hin : (0 ≤ px ∧ px < (64 : Nat)) ∧ 0 ≤ py ∧ py < (32 : Nat)
  · obtain ⟨lit, hbefore, hafter⟩ := hdraws.pixels px py hin.1 hin.2
    obtain ⟨lit', hbefore', hafter'⟩ := hagain.pixels px py hin.1 hin.2
    have hlit : lit' = (lit ^^ covers m word px py) :=
      Except.ok.inj (hbefore'.symm.trans hafter)
    rw [hafter', hbefore, hlit, hcovers, Bool.xor_assoc, Bool.xor_self, Bool.xor_false]
  · exact (pixel_outside hlast.display hin).trans (pixel_outside h.display hin).symm

/-- The same instruction again takes the sprite away. -/
theorem undrawn (h : Wide m.setup size m.core) (hat : AtPc m word) (hhigh : word / 0x1000 = 0xD)
    (hfit : m.core.registers.index + word % 0x10 ≤ size) (hdraws : Draws m after word)
    (hspares : Spares m after) (hafter : Wide m.setup size after.core)
    (hx : Opcode.x word ≠ Registers.flagNumber) (hy : Opcode.y word ≠ Registers.flagNumber) :
    ∃ last snapshot, (placed after m.core.pc).advance = (last, .ok snapshot) ∧
      (∀ px py, pixelAt last px py = pixelAt m px py) ∧
      (Lights m after → last.core.registers.get Registers.flagNumber = 1) ∧
      (¬Lights m after → last.core.registers.get Registers.flagNumber = 0) := by
  have hplaced := wide_placed h hafter hspares
  have hsetup : (placed after m.core.pc).setup = m.setup := hspares.setup
  have hindex : (placed after m.core.pc).core.registers.index = m.core.registers.index :=
    hspares.index
  obtain ⟨last, snapshot, hadvance, hagain, -, hlast⟩ := draws_of_atPc hplaced
    (atPc_placed h hat hafter hspares) hhigh (by rw [hindex]; exact hfit)
  rw [hsetup] at hlast
  have hrestored := pixelAt_twice h hlast hdraws hagain
    (covers_placed hspares hx hy m.core.pc)
  -- What the second drawing erases is what the first one lit.
  have herases : Erases (placed after m.core.pc) last ↔ Lights m after := by
    simp only [Erases, Lights, hrestored]
    exact exists_congr fun px => exists_congr fun py => and_comm
  exact ⟨last, snapshot, hadvance, hrestored, fun hlit => hagain.hit (herases.2 hlit),
    fun hnone => hagain.missed (mt herases.1 hnone)⟩

end Twice

/-- A sprite is drawn over the pixels that it covers, which are told from the registers and the
memory before, and the flag tells whether a lit pixel went dark.  If neither operand is the flag
register, the same instruction again takes the sprite away. -/
theorem sprite_exact {s : Settings} {h : Host} (hh : Reachable s h) {word : Int}
    (hat : AtPc h.machine word) (hhigh : word / 0x1000 = 0xD)
    (hfit : h.machine.core.registers.index + word % 0x10 ≤ s.memorySize) :
    ∃ after snapshot, h.machine.advance = (after, .ok snapshot) ∧ Draws h.machine after word ∧
      (Opcode.x word ≠ Registers.flagNumber → Opcode.y word ≠ Registers.flagNumber →
        ∃ last snapshot', (placed after h.machine.core.pc).advance = (last, .ok snapshot') ∧
          (∀ px py, pixelAt last px py = pixelAt h.machine px py) ∧
          (Lights h.machine after → last.core.registers.get Registers.flagNumber = 1) ∧
          (¬Lights h.machine after → last.core.registers.get Registers.flagNumber = 0)) := by
  have hwide := hh.held.fits
  obtain ⟨after, snapshot, hadvance, hdraws, hspares, hafter⟩ :=
    draws_of_atPc hwide hat hhigh hfit
  exact ⟨after, snapshot, hadvance, hdraws, undrawn hwide hat hhigh hfit hdraws hspares hafter⟩

def drawingInCorner : Host :=
  Host.handleAll { machine := newMachine { memorySize := 0x60, loadAddress := 0x50 } }
    [.load (.list [.int 0x60, .int 0x3E, .int 0x61, .int 0x1F, .int 0xD0, .int 0x12]),
      .advance, .advance]

/-- The sprite goes around both edges.  Drawn again it is gone, and the flag is set. -/
theorem sprite_exact_in_corner :
    Reachable { memorySize := 0x60, loadAddress := 0x50 } drawingInCorner ∧
    AtPc drawingInCorner.machine 0xD012 ∧
    ∃ after snapshot, drawingInCorner.machine.advance = (after, .ok snapshot) ∧
      pixelAt after 1 0 = .ok true ∧
      ∃ last snapshot', (placed after 0x54).advance = (last, .ok snapshot') ∧
        pixelAt last 1 0 = .ok false ∧
        last.core.registers.get Registers.flagNumber = 1 := by
  have hreachable : Reachable { memorySize := 0x60, loadAddress := 0x50 } drawingInCorner :=
    reachable_small (by simp [IsOperation])
  have hat : AtPc drawingInCorner.machine 0xD012 :=
    (atPc_iff hreachable.held.fits).2 (by decide +kernel)
  have hfit : drawingInCorner.machine.core.registers.index + 0xD012 % 0x10 ≤ (0x60 : Int) := by
    decide +kernel
  have hpc : drawingInCorner.machine.core.pc = 0x54 := by decide +kernel
  have hdark : pixelAt drawingInCorner.machine 1 0 = .ok false := by decide +kernel
  have hcovers : covers drawingInCorner.machine 0xD012 1 0 = true := by decide +kernel
  obtain ⟨after, snapshot, hadvance, hdraws, htwice⟩ :=
    sprite_exact hreachable hat (by decide) hfit
  obtain ⟨lit, hbefore, hafter⟩ := hdraws.pixels 1 0 (by decide) (by decide)
  rw [hdark] at hbefore
  rw [← Except.ok.inj hbefore, hcovers] at hafter
  obtain ⟨last, snapshot', hagain, hrestored, hflag, -⟩ := htwice (by decide) (by decide)
  rw [hpc] at hagain
  exact ⟨hreachable, hat, after, snapshot, hadvance, hafter, last, snapshot', hagain,
    (hrestored 1 0).trans hdark, hflag ⟨1, 0, hdark, hafter⟩⟩

end Chip8.Proofs.Host.Sprites
