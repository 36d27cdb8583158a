import Chip8.Proofs.Listing.Range

/-!
# What the assembly tells

Words that are listed with the same assembly are the same.  Each form of instruction, and data, has
a layout of its own: letters that stand there in every line, and digits of the word.  No two layouts
can be filled alike, and the digits that a layout does not show are fixed by its form.
-/

namespace Chip8.Proofs.Listing.Assembly

open Chip8.Memory Chip8.Listing
open Chip8.Proofs.Memory.Layout Chip8.Proofs.Memory.Regions
open Chip8.Proofs.Instruction.Word Chip8.Proofs.Instruction.Effect
open Chip8.Proofs.Instruction.Cycle
open Chip8.Proofs.Host.Listing Chip8.Proofs.Listing.Range

/-- The assembly of a form, or of data, with `w`, `x`, `y` and `z` for the digits of the word. -/
def layout : Option Form → String
  | none => "DW #wxyz"
  | some .nop => "NOP"
  | some .clearDisplay => "CLS"
  | some .ret => "RET"
  | some .sys => "SYS #xyz"
  | some .jump => "JP #xyz"
  | some .call => "CALL #xyz"
  | some .skipEqByte => "SE Vx, #yz"
  | some .skipNeByte => "SNE Vx, #yz"
  | some .skipEq => "SE Vx, Vy"
  | some .loadByte => "LD Vx, #yz"
  | some .addByte => "ADD Vx, #yz"
  | some .copy => "LD Vx, Vy"
  | some .or => "OR Vx, Vy"
  | some .and => "AND Vx, Vy"
  | some .xor => "XOR Vx, Vy"
  | some .add => "ADD Vx, Vy"
  | some .sub => "SUB Vx, Vy"
  | some .shiftRight => "SHR Vx, Vy"
  | some .subFrom => "SUBN Vx, Vy"
  | some .shiftLeft => "SHL Vx, Vy"
  | some .skipNe => "SNE Vx, Vy"
  | some .loadIndex => "LD I, #xyz"
  | some .jumpOffset => "JP V0, #xyz"
  | some .random => "RND Vx, #yz"
  | some .draw => "DRW Vx, Vy, z"
  | some .skipPressed => "SKP Vx"
  | some .skipReleased => "SKNP Vx"
  | some .readDelay => "LD Vx, DT"
  | some .waitKey => "LD Vx, K"
  | some .setDelay => "LD DT, Vx"
  | some .setSound => "LD ST, Vx"
  | some .addIndex => "ADD I, Vx"
  | some .pointGlyph => "LD F, Vx"
  | some .storeDecimal => "LD B, Vx"
  | some .storeRegisters => "LD [I], Vx"
  | some .loadRegisters => "LD Vx, [I]"

/-- The place of the digit that a letter of a layout stands for, if it stands for one. -/
def place? : Char → Option Nat
  | 'w' => some 3
  | 'x' => some 2
  | 'y' => some 1
  | 'z' => some 0
  | _ => none

def fill (word : Int) (letter : Char) : Char :=
  match place? letter with
  | some place => digitAt word place
  | none => letter

def filled (kind : Option Form) (word : Int) : List Char := (layout kind).toList.map (fill word)

/-! ## Texts -/

section Texts

open Text

variable {word : Int} {count : Nat}

theorem nibble_emod {place : Nat} (h : place ≤ count) :
    Opcode.nibble place (word % (Nat.pow 16 (count + 1) : Nat)) = Opcode.nibble place word := by
  obtain ⟨k, rfl⟩ := Nat.exists_eq_add_of_le h
  have hpow : Nat.pow 16 (place + k + 1) = Nat.pow 16 place * (16 * Nat.pow 16 k) := by
    change 16 ^ (place + k + 1) = 16 ^ place * (16 * 16 ^ k)
    rw [Nat.pow_succ, Nat.pow_add, Nat.mul_assoc, Nat.mul_comm (16 ^ k)]
  have hpos : ((Nat.pow 16 place : Nat) : Int) ≠ 0 := by
    have hlt : 0 < Nat.pow 16 place := Nat.pow_pos (by decide)
    omega
  unfold Opcode.nibble
  rw [hpow, Int.emod_def word, Int.natCast_mul, Int.mul_assoc, Int.sub_mul_ediv_left _ _ hpos,
    Int.natCast_mul, Int.mul_assoc]
  exact Int.sub_mul_emod_self_left _ _ _

theorem hexUpper_low (word : Int) (count : Nat) :
    hexUpper (count + 1) (word % (Nat.pow 16 (count + 1) : Nat)) =
      String.ofList ((List.range (count + 1)).reverse.map (digitAt word)) := by
  have hpos : 0 < Nat.pow 16 (count + 1) := Nat.pow_pos (by decide)
  have hlow : 0 ≤ word % (Nat.pow 16 (count + 1) : Nat) := Int.emod_nonneg _ (by omega)
  have hlt : word % (Nat.pow 16 (count + 1) : Nat) < (Nat.pow 16 (count + 1) : Nat) :=
    Int.emod_lt_of_pos _ (by omega)
  obtain ⟨n, hn⟩ := Int.eq_ofNat_of_zero_le hlow
  rw [hn] at hlt ⊢
  rw [hexUpper_eq (Int.ofNat_lt.1 hlt), ← hn]
  congr 1
  apply List.map_congr_left
  intro place hplace
  have hle : place < count + 1 := by simpa using hplace
  rw [digitAt, digitAt, nibble_emod (by omega)]

theorem hexUpper_digit (digit : Fin 16) :
    hexUpper 0 (digit.val : Int) = String.ofList [digit.val.digitChar.toUpper] := by
  revert digit
  decide

theorem ofString_append_ofList (s : String) (l : List Char) :
    ofString (s ++ String.ofList l) = ofChars (s.toList ++ l) := by
  rw [ofString, String.toList_append, String.toList_ofList]

theorem registerText {digit : Fin 16} {place : Nat}
    (h : Opcode.nibble place word = (digit.val : Int)) :
    ofString (registerName digit) = ofChars ['V', digitAt word place] := by
  have hdigit : digitAt word place = digit.val.digitChar.toUpper := by
    rw [digitAt, h, Int.toNat_natCast]
  rw [registerName, hexUpper_digit, ofString_append_ofList, hdigit]
  rfl

theorem registerText_x (word : Int) :
    ofString (registerName (Opcode.x word)) = ofChars ['V', digitAt word 2] := by
  apply registerText
  change word / 256 % 16 = ((word / 256 % 16).toNat : Int)
  omega

theorem registerText_y (word : Int) :
    ofString (registerName (Opcode.y word)) = ofChars ['V', digitAt word 1] := by
  apply registerText
  change word / 16 % 16 = ((word / 16 % 16).toNat : Int)
  omega

theorem digitText (word : Int) :
    ofString (hexUpper 0 (Opcode.n word)) = ofChars [digitAt word 0] := by
  have hdigit : Opcode.n word = ((⟨(word % 16).toNat, by omega⟩ : Fin 16).val : Int) := by
    change word % 16 = ((word % 16).toNat : Int)
    omega
  rw [hdigit, hexUpper_digit, ofString, String.toList_ofList, digitAt, nibble_zero]

theorem byteText_eq (word : Int) :
    ofString (Form.byteText word) = ofChars ['#', digitAt word 1, digitAt word 0] := by
  have hdigits : hexUpper 2 (Opcode.nn word) = _ := hexUpper_low word 1
  rw [Form.byteText, hdigits, ofString_append_ofList]
  rfl

theorem addressText_eq (word : Int) :
    ofString (Form.addressText word) =
      ofChars ['#', digitAt word 2, digitAt word 1, digitAt word 0] := by
  have hdigits : hexUpper 3 (Opcode.nnn word) = _ := hexUpper_low word 2
  rw [Form.addressText, hdigits, ofString_append_ofList]
  rfl

theorem text_filled (form : Form) (word : Int) :
    (Operation.ofForm form word).text = ofChars (filled (some form) word) := by
  have hx := registerText_x word
  have hy := registerText_y word
  have hdigit := digitText word
  have hbyte := byteText_eq word
  have haddress := addressText_eq word
  cases form
  all_goals
    simp only [Operation.text, Operation.ofForm, Form.operands, List.map_cons, List.map_nil,
      List.isEmpty_cons, Bool.false_eq_true, if_false, Text.join, hx, hy, hdigit, hbyte, haddress]
    rfl

theorem wordText_filled (h : IsWord word) :
    wordText word = ofChars (filled (Form.ofOpcode? word) word) := by
  cases hform : Form.ofOpcode? word with
  | some form => rw [wordText_some hform, text_filled]
  | none =>
      have hword : word % (Nat.pow 16 4 : Nat) = word := by
        change word % 65536 = word
        omega
      have hdigits := hexUpper_low word 3
      rw [hword] at hdigits
      have hdata : ofString (Opcode.text word) =
          ofChars ((List.range 4).reverse.map (digitAt word)) := by
        rw [Opcode.text, hdigits, ofString, String.toList_ofList]
      rw [wordText_none hform, hdata]
      rfl

end Texts

/-! ## Layouts -/

def digits : List Char := "0123456789ABCDEF".toList

/-- Whether two letters are never shown alike, whatever the words are. -/
def clash (letter other : Char) : Bool :=
  match place? letter, place? other with
  | some _, some _ => false
  | some _, none => !digits.contains other
  | none, some _ => !digits.contains letter
  | none, none => letter != other

def clashes : List Char → List Char → Bool
  | [], [] => false
  | letter :: letters, other :: others => clash letter other || clashes letters others
  | _, _ => true

def fixed? (s : Shape) : Nat → Option Nat
  | 3 => some s.third
  | 2 => s.second
  | 1 => s.first
  | 0 => s.last
  | _ => none

def kinds : List (Option Form) := none :: Form.all.map some

section Layouts

variable {word other : Int} {kind : Option Form} {place : Nat}

theorem mem_kinds (kind : Option Form) : kind ∈ kinds := by
  cases kind with
  | none => exact List.mem_cons_self
  | some form => exact List.mem_cons_of_mem _ (List.mem_map_of_mem (mem_all form))

/-- No two layouts can be filled alike. -/
theorem clashes_of_ne : ∀ kind ∈ kinds, ∀ kind' ∈ kinds, kind ≠ kind' →
    clashes (layout kind).toList (layout kind').toList = true := by
  decide +kernel

theorem nibble_range (place : Nat) (word : Int) :
    0 ≤ Opcode.nibble place word ∧ Opcode.nibble place word < 16 := by
  unfold Opcode.nibble
  omega

theorem digitAt_mem (word : Int) (place : Nat) : digitAt word place ∈ digits := by
  have hall : ∀ n < 16, n.digitChar.toUpper ∈ digits := by decide
  have hrange := nibble_range place word
  exact hall _ (by omega)

theorem digitAt_inj (h : digitAt word place = digitAt other place) :
    Opcode.nibble place word = Opcode.nibble place other := by
  have hall : ∀ m < 16, ∀ n < 16, m.digitChar.toUpper = n.digitChar.toUpper → m = n := by decide
  have hword := nibble_range place word
  have hother := nibble_range place other
  have heq := hall _ (by omega) _ (by omega) h
  omega

theorem fill_ne_of_clash {letter letter' : Char} (h : clash letter letter' = true) :
    fill word letter ≠ fill other letter' := by
  unfold clash at h
  unfold fill
  cases hplace : place? letter <;> cases hplace' : place? letter' <;>
    simp only [hplace, hplace'] at h ⊢
  case none.none => simpa using h
  case none.some place =>
    rintro rfl
    simp [digitAt_mem] at h
  case some.none place =>
    intro heq
    rw [← heq] at h
    simp [digitAt_mem] at h
  case some.some => cases h

theorem map_fill_ne_of_clashes {letters letters' : List Char}
    (h : clashes letters letters' = true) :
    letters.map (fill word) ≠ letters'.map (fill other) := by
  fun_induction clashes letters letters' with
  | case1 => cases h
  | case2 letter letters letter' letters' ih =>
      intro heq
      obtain ⟨hfirst, hrest⟩ := List.cons.inj heq
      rcases Bool.or_eq_true_iff.1 h with hclash | hlater
      · exact fill_ne_of_clash hclash hfirst
      · exact ih hlater hrest
  | case3 letters letters' hnil hcons =>
      intro heq
      cases letters with
      | nil =>
          cases letters' with
          | nil => exact hnil rfl rfl
          | cons letter' letters' => cases heq
      | cons letter letters =>
          cases letters' with
          | nil => cases heq
          | cons letter' letters' => exact hcons _ _ _ _ rfl rfl

/-- A layout shows every digit of a word that its form does not fix. -/
theorem shown_or_fixed : ∀ kind ∈ kinds, ∀ place ∈ [0, 1, 2, 3],
    ((layout kind).toList.any fun letter => place? letter == some place) = true ∨
      (kind.bind fun form => fixed? form.shape place).isSome = true := by
  decide +kernel

theorem nibble_of_fixed {form : Form} {digit : Nat} (hform : Form.ofOpcode? word = some form)
    (hplace : place ∈ [0, 1, 2, 3]) (hfixed : fixed? form.shape place = some digit) :
    Opcode.nibble place word = digit := by
  have haccepts := accepts_of_ofOpcode? hform
  have hfits : ∀ {fixed : Option Nat} {nibble : Int}, Shape.fits fixed nibble = true →
      fixed = some digit → nibble = digit := by
    rintro fixed nibble hfit rfl
    simpa [Shape.fits] using hfit
  simp only [Shape.accepts, Bool.and_eq_true] at haccepts
  obtain ⟨⟨⟨h3, h2⟩, h1⟩, h0⟩ := haccepts
  have hplaces : place = 0 ∨ place = 1 ∨ place = 2 ∨ place = 3 := by simpa using hplace
  rcases hplaces with rfl | rfl | rfl | rfl
  · exact hfits h0 hfixed
  · exact hfits h1 hfixed
  · exact hfits h2 hfixed
  · exact hfits h3 hfixed

theorem nibble_eq_of_filled (hword : Form.ofOpcode? word = kind)
    (hother : Form.ofOpcode? other = kind) (h : filled kind word = filled kind other)
    (hplace : place ∈ [0, 1, 2, 3]) : Opcode.nibble place word = Opcode.nibble place other := by
  rcases shown_or_fixed kind (mem_kinds kind) place hplace with hshown | hfixed
  · obtain ⟨letter, hmem, hletter⟩ := List.any_eq_true.1 hshown
    have hfill : fill word letter = fill other letter := List.map_inj_left.1 h letter hmem
    simp only [fill, eq_of_beq hletter] at hfill
    exact digitAt_inj hfill
  · cases kind with
    | none => cases hfixed
    | some form =>
        obtain ⟨digit, hdigit⟩ := Option.isSome_iff_exists.1 hfixed
        rw [nibble_of_fixed hword hplace hdigit, nibble_of_fixed hother hplace hdigit]

theorem ofChars_injective {cs cs' : List Char} (h : Text.ofChars cs = Text.ofChars cs') :
    cs = cs' := by
  have hchars := congrArg Text.chars? h
  simpa using hchars

theorem wordText_injective (h : IsWord word) (h' : IsWord other)
    (heq : wordText word = wordText other) : word = other := by
  rw [wordText_filled h, wordText_filled h'] at heq
  have hfilled := ofChars_injective heq
  -- The words have one layout, and then the same digits, place by place.
  have hkind : Form.ofOpcode? word = Form.ofOpcode? other :=
    Decidable.byContradiction fun hne =>
      map_fill_ne_of_clashes (clashes_of_ne _ (mem_kinds _) _ (mem_kinds _) hne) hfilled
  rw [← hkind] at hfilled
  have hdigits : ∀ place ∈ [0, 1, 2, 3], Opcode.nibble place word = Opcode.nibble place other :=
    fun place hplace => nibble_eq_of_filled rfl hkind.symm hfilled hplace
  have h3 := hdigits 3 (by decide)
  have h2 := hdigits 2 (by decide)
  have h1 := hdigits 1 (by decide)
  have h0 := hdigits 0 (by decide)
  rw [nibble_three, nibble_three] at h3
  rw [nibble_two, nibble_two] at h2
  rw [nibble_one, nibble_one] at h1
  rw [nibble_zero, nibble_zero] at h0
  omega

end Layouts

/-! ## Listings -/

section Listings

variable {b other : Bus} {start k : Int}

theorem wordCount_inside (h : start + 2 * k ≤ b.size) : wordCount b start (2 * k) = k.toNat := by
  unfold wordCount
  omega

theorem text_linesFrom (b : Bus) (a : Int) (count : Nat) :
    (linesFrom b a count).map Line.text =
      (List.range count).map fun i : Nat => wordText (wordAt b (a + 2 * i)) := by
  rw [linesFrom, List.map_map]
  rfl

/-- Words are listed with the same assembly if and only if their bytes are the same. -/
theorem texts_eq_iff {a : Int} {count : Nat} (h : Unbroken b) (h' : Unbroken other) (ha : 0 ≤ a)
    (hin : 0 < count → a + 2 * count ≤ b.size) (hin' : 0 < count → a + 2 * count ≤ other.size) :
    (linesFrom b a count).map Line.text = (linesFrom other a count).map Line.text ↔
      ∀ x, a ≤ x → x < a + 2 * count → byteAt b x = byteAt other x := by
  rw [text_linesFrom, text_linesFrom, List.map_inj_left]
  constructor
  · intro htexts x hlow hhigh
    obtain ⟨i, hi⟩ := Int.eq_ofNat_of_zero_le (a := (x - a) / 2) (by omega)
    have hcount : i < count := by omega
    have hword : wordAt b (a + 2 * i) = wordAt other (a + 2 * i) :=
      wordText_injective (h.isWord (by omega) (by omega)) (h'.isWord (by omega) (by omega))
        (htexts i (List.mem_range.2 hcount))
    have hsecond : IsByte (byteAt b (a + 2 * i + 1)) := h.isByte (by omega)
    have hsecond' : IsByte (byteAt other (a + 2 * i + 1)) := h'.isByte (by omega)
    unfold wordAt at hword
    have hplace : x = a + 2 * i ∨ x = a + 2 * i + 1 := by omega
    rcases hplace with rfl | rfl <;> omega
  · intro hbytes i hi
    have hcount : i < count := List.mem_range.1 hi
    unfold wordAt
    rw [hbytes (a + 2 * i) (by omega) (by omega), hbytes (a + 2 * i + 1) (by omega) (by omega)]

end Listings

/-- Whole words of two buses without holes are listed with the same assembly if and only if the
buses hold the same bytes there. -/
theorem assembly_tells_bytes {b other : Bus} (h : Unbroken b) (h' : Unbroken other) {start k : Int}
    (hstart : 0 ≤ start) (hin : start + 2 * k ≤ b.size) (hin' : start + 2 * k ≤ other.size) :
    ∃ lines lines', listing b start (2 * k) = .ok lines ∧
      listing other start (2 * k) = .ok lines' ∧
      (lines.map Line.text = lines'.map Line.text ↔
        ∀ a, start ≤ a → a < start + 2 * k →
          ∃ byte, b.peek a = .ok byte ∧ other.peek a = .ok byte) := by
  have hlines := listing_eq h hstart (2 * k)
  have hlines' := listing_eq h' hstart (2 * k)
  rw [wordCount_inside hin] at hlines
  rw [wordCount_inside hin'] at hlines'
  refine ⟨_, _, hlines, hlines', ?_⟩
  rw [texts_eq_iff h h' hstart (by omega) (by omega)]
  apply forall_congr'
  intro a
  constructor
  · intro hbytes hlow hhigh
    have hpeek : b.peek a = .ok (byteAt b a) := h.peek (by omega)
    have hpeek' : other.peek a = .ok (byteAt other a) := h'.peek (by omega)
    rw [← hbytes hlow (by omega)] at hpeek'
    exact ⟨_, hpeek, hpeek'⟩
  · intro hpeeks hlow hhigh
    obtain ⟨byte, hpeek, hpeek'⟩ := hpeeks hlow (by omega)
    rw [byteAt, byteAt, hpeek, hpeek']

def plain : Bus where
  devices := #[.cells .ram (.int 5) #[7, 8, 2, 3, 9]]
  regions := [⟨0, 4, 0⟩]

theorem unbroken_plain : Unbroken plain := by
  have hdevice : Assembled { plain with regions := [] } :=
    .used .empty (.added _ (.cells .ram (.int 5) #[7, 8, 2, 3, 9]))
  have hplain : Assembled plain := .attached 0 4 0 hdevice rfl (by decide) rfl
  apply unbroken_of_assembled hplain
  intro a ha
  have hsize : plain.size = 5 := rfl
  rw [hsize] at ha
  refine ⟨⟨0, 4, 0⟩, List.mem_cons_self, ?_⟩
  simp only [Region.contains, Bool.and_eq_true, decide_eq_true_eq]
  omega

theorem assembly_tells_bytes_of_plain :
    (∃ lines lines', listing overlapping 0 4 = .ok lines ∧ listing plain 0 4 = .ok lines' ∧
      lines.map Line.text = lines'.map Line.text) ∧
    ∃ lines lines', listing overlapping 1 4 = .ok lines ∧ listing plain 1 4 = .ok lines' ∧
      lines.map Line.text ≠ lines'.map Line.text := by
  constructor
  · obtain ⟨lines, lines', hlines, hlines', hiff⟩ :=
      assembly_tells_bytes unbroken_overlapping unbroken_plain (k := 2)
        (show (0 : Int) ≤ 0 by decide) (by decide) (by decide)
    refine ⟨lines, lines', hlines, hlines', hiff.2 fun a hlow hhigh => ?_⟩
    obtain rfl | rfl | rfl | rfl : a = 0 ∨ a = 1 ∨ a = 2 ∨ a = 3 := by omega
    all_goals exact ⟨_, rfl, rfl⟩
  · obtain ⟨lines, lines', hlines, hlines', hiff⟩ :=
      assembly_tells_bytes unbroken_overlapping unbroken_plain (k := 2)
        (show (0 : Int) ≤ 1 by decide) (by decide) (by decide)
    refine ⟨lines, lines', hlines, hlines', fun htexts => ?_⟩
    obtain ⟨byte, hpeek, hpeek'⟩ := hiff.1 htexts 4 (by decide) (by decide)
    cases hpeek
    cases hpeek'

end Chip8.Proofs.Listing.Assembly
