import Chip8.Instruction.Form

/-!
# Words and forms

The table of forms compares a word digit by digit.  On words of sixteen bits this is the comparison
of the masked word with a pattern, and every form but the widest is found by its digits alone,
since no two of the others have a word in common.
-/

namespace Chip8.Proofs.Instruction.Word

/-- The mask and the pattern of a form, as numbers. -/
def Matches (form : Form) (opcode : Nat) : Prop :=
  opcode &&& form.shape.mask.toNat = form.pattern.toNat

/-- Whether two shapes differ in a digit that both fix. -/
def apart (s t : Shape) : Bool :=
  let differ (digit digit' : Option Nat) : Bool :=
    match digit, digit' with
    | some d, some d' => d != d'
    | _, _ => false
  s.third != t.third || differ s.second t.second || differ s.first t.first ||
    differ s.last t.last

def join (a b c d : Nat) : Nat := ((a * 16 + b) * 16 + c) * 16 + d

/-! ## Digits -/

@[simp] theorem nibble_three (opcode : Int) : Opcode.nibble 3 opcode = opcode / 4096 % 16 := rfl

@[simp] theorem nibble_two (opcode : Int) : Opcode.nibble 2 opcode = opcode / 256 % 16 := rfl

@[simp] theorem nibble_one (opcode : Int) : Opcode.nibble 1 opcode = opcode / 16 % 16 := rfl

@[simp] theorem nibble_zero (opcode : Int) : Opcode.nibble 0 opcode = opcode % 16 := by
  simp [Opcode.nibble]

/-! ## Masks -/

section Masks

variable {a b c d : Nat}

theorem exists_join {opcode : Nat} (h : opcode < 65536) :
    ∃ a b c d, a < 16 ∧ b < 16 ∧ c < 16 ∧ d < 16 ∧ opcode = join a b c d := by
  refine ⟨opcode / 4096, opcode / 256 % 16, opcode / 16 % 16, opcode % 16, ?_⟩
  unfold join
  omega

theorem join_inj {a' b' c' d' : Nat} (hb : b < 16) (hc : c < 16) (hd : d < 16) (hb' : b' < 16)
    (hc' : c' < 16) (hd' : d' < 16) :
    join a b c d = join a' b' c' d' ↔ a = a' ∧ b = b' ∧ c = c' ∧ d = d' := by
  unfold join
  omega

theorem land_digit {m n : Nat} (hb : b < 16) (hn : n < 16) :
    (a * 16 + b) &&& (m * 16 + n) = (a &&& m) * 16 + (b &&& n) := by
  have hdiv := Nat.and_div_two_pow (a := a * 16 + b) (b := m * 16 + n) (n := 4)
  have hmod := Nat.and_mod_two_pow (a := a * 16 + b) (b := m * 16 + n) (n := 4)
  have ha : (a * 16 + b) / 2 ^ 4 = a := by omega
  have hm : (m * 16 + n) / 2 ^ 4 = m := by omega
  have hb' : (a * 16 + b) % 2 ^ 4 = b := by omega
  have hn' : (m * 16 + n) % 2 ^ 4 = n := by omega
  rw [ha, hm] at hdiv
  rw [hb', hn'] at hmod
  omega

theorem land_join {m n k l : Nat} (hb : b < 16) (hc : c < 16) (hd : d < 16) (hn : n < 16)
    (hk : k < 16) (hl : l < 16) :
    join a b c d &&& join m n k l = join (a &&& m) (b &&& n) (c &&& k) (d &&& l) := by
  unfold join
  rw [land_digit hd hl, land_digit hc hk, land_digit hb hn]

theorem land_lt {n : Nat} (ha : a < 16) : a &&& n < 16 :=
  Nat.lt_of_le_of_lt Nat.and_le_left ha

theorem weigh_toNat (a b c d : Nat) : (Shape.weigh a b c d).toNat = join a b c d := by
  unfold Shape.weigh join
  omega

def full (digit : Option Nat) : Nat := if digit.isSome then 15 else 0

theorem full_lt (digit : Option Nat) : full digit < 16 := by
  unfold full
  split <;> omega

theorem fits_iff {digit : Option Nat} (ha : a < 16) :
    Shape.fits digit a = true ↔ a &&& full digit = digit.getD 0 := by
  cases digit with
  | none => simp [Shape.fits, full]
  | some d =>
      have hmask : a &&& 15 = a := Nat.and_two_pow_sub_one_of_lt_two_pow (n := 4) ha
      simp only [Shape.fits, full, Option.isSome_some, if_true, hmask, Option.getD_some,
        beq_iff_eq]
      omega

theorem accepts_join (s : Shape) (ha : a < 16) (hb : b < 16) (hc : c < 16) (hd : d < 16) :
    s.accepts (join a b c d) = true ↔
      Shape.fits (some s.third) a = true ∧ Shape.fits s.second b = true ∧
        Shape.fits s.first c = true ∧ Shape.fits s.last d = true := by
  have h3 : Opcode.nibble 3 (join a b c d) = a := by
    simp only [nibble_three, join]
    omega
  have h2 : Opcode.nibble 2 (join a b c d) = b := by
    simp only [nibble_two, join]
    omega
  have h1 : Opcode.nibble 1 (join a b c d) = c := by
    simp only [nibble_one, join]
    omega
  have h0 : Opcode.nibble 0 (join a b c d) = d := by
    simp only [nibble_zero, join]
    omega
  simp only [Shape.accepts, h3, h2, h1, h0, Bool.and_eq_true, and_assoc]

theorem getD_lt {digit : Option Nat} (h : ∀ d ∈ digit, d < 16) : digit.getD 0 < 16 := by
  cases digit with
  | none => decide
  | some d => exact h d rfl

theorem digits_lt (form : Form) :
    (∀ d ∈ form.shape.second, d < 16) ∧ (∀ d ∈ form.shape.first, d < 16) ∧
      ∀ d ∈ form.shape.last, d < 16 := by
  cases form <;> decide

/-- A form accepts a word if and only if the masked word is its pattern. -/
theorem accepts_iff_matches (form : Form) {opcode : Nat} (h : opcode < 65536) :
    form.shape.accepts opcode = true ↔ Matches form opcode := by
  obtain ⟨hsecond, hfirst, hlast⟩ := digits_lt form
  obtain ⟨a, b, c, d, ha, hb, hc, hd, rfl⟩ := exists_join h
  have hmask : form.shape.mask.toNat =
      join 15 (full form.shape.second) (full form.shape.first) (full form.shape.last) :=
    weigh_toNat _ _ _ _
  have hpattern : form.pattern.toNat = join form.shape.third (form.shape.second.getD 0)
      (form.shape.first.getD 0) (form.shape.last.getD 0) :=
    weigh_toNat _ _ _ _
  unfold Matches
  rw [hmask, hpattern, land_join hb hc hd (full_lt _) (full_lt _) (full_lt _),
    join_inj (land_lt hb) (land_lt hc) (land_lt hd) (getD_lt hsecond) (getD_lt hfirst)
      (getD_lt hlast),
    accepts_join _ ha hb hc hd, fits_iff ha, fits_iff hb, fits_iff hc, fits_iff hd]
  rfl

end Masks

/-! ## The table -/

section Table

variable {form : Form} {opcode : Int}

theorem mem_all (form : Form) : form ∈ Form.all := by
  cases form <;> decide

theorem ofOpcode?_eq_none_iff (h : 0 ≤ opcode ∧ opcode ≤ 0xFFFF) :
    Form.ofOpcode? opcode = none ↔ ∀ form, ¬Matches form opcode.toNat := by
  obtain ⟨n, rfl⟩ := Int.eq_ofNat_of_zero_le h.1
  have hn : n < 65536 := by omega
  simp only [Form.ofOpcode?, List.find?_eq_none, Int.toNat_natCast]
  constructor
  · intro hnone form hmatch
    exact hnone form (mem_all form) ((accepts_iff_matches form hn).2 hmatch)
  · intro hnone form _ haccepts
    exact hnone form ((accepts_iff_matches form hn).1 haccepts)

theorem accepts_of_ofOpcode? (h : Form.ofOpcode? opcode = some form) :
    form.shape.accepts opcode = true := by
  have hfound := List.find?_some h
  exact hfound

theorem not_accepts_of_apart {s t : Shape} (happart : apart s t = true)
    (ht : t.accepts opcode = true) : ¬s.accepts opcode = true := by
  intro hs
  have hfits : ∀ {digit digit' : Option Nat} {nibble : Int},
      Shape.fits digit nibble = true → Shape.fits digit' nibble = true →
      (match digit, digit' with
        | some d, some d' => d != d'
        | _, _ => false) = false := by
    intro digit digit' nibble hd hd'
    cases digit <;> cases digit' <;> simp [Shape.fits] at hd hd' ⊢
    omega
  simp only [Shape.accepts, Bool.and_eq_true] at hs ht
  obtain ⟨⟨⟨hs3, hs2⟩, hs1⟩, hs0⟩ := hs
  obtain ⟨⟨⟨ht3, ht2⟩, ht1⟩, ht0⟩ := ht
  have h3 := hfits hs3 ht3
  have h2 := hfits hs2 ht2
  have h1 := hfits hs1 ht1
  have h0 := hfits hs0 ht0
  unfold apart at happart
  simp [h3, h2, h1, h0] at happart

theorem find?_of_first {α : Type} [BEq α] [LawfulBEq α] {p : α → Bool} {l : List α} {x : α}
    (hmem : x ∈ l) (hx : p x = true) (hfirst : ∀ y ∈ l.takeWhile (· != x), ¬p y = true) :
    l.find? p = some x := by
  induction l with
  | nil => cases hmem
  | cons y rest ih =>
      by_cases heq : y = x
      · subst heq
        exact List.find?_cons_of_pos hx
      · have hne : (y != x) = true := by simpa using heq
        rw [List.takeWhile_cons_of_pos (p := (· != x)) hne] at hfirst
        rw [List.find?_cons_of_neg (hfirst y List.mem_cons_self)]
        refine ih ?_ fun z hz => hfirst z (List.mem_cons_of_mem _ hz)
        exact (List.mem_cons.1 hmem).resolve_left (Ne.symm heq)

/-- A form other than the widest shares no word with those before it. -/
theorem apart_of_before (hne : form ≠ .sys) :
    ∀ before ∈ Form.all.takeWhile (· != form), apart before.shape form.shape = true := by
  cases form <;> first | exact absurd rfl hne | decide

theorem ofOpcode?_eq_some_iff (hne : form ≠ .sys) :
    Form.ofOpcode? opcode = some form ↔ form.shape.accepts opcode = true := by
  constructor
  · exact accepts_of_ofOpcode?
  · intro haccepts
    exact find?_of_first (mem_all form) haccepts fun before hbefore =>
      not_accepts_of_apart (apart_of_before hne before hbefore) haccepts

/-! ## Words by their digits -/

theorem digits_of_ofOpcode? (hform : Form.ofOpcode? opcode = some form)
    (h : 0 ≤ opcode ∧ opcode ≤ 0xFFFF) :
    opcode / 0x1000 = form.shape.third ∧
      (∀ b ∈ form.shape.second, opcode / 0x100 % 0x10 = (b : Nat)) ∧
      (∀ c ∈ form.shape.first, opcode / 0x10 % 0x10 = (c : Nat)) ∧
      ∀ d ∈ form.shape.last, opcode % 0x10 = (d : Nat) := by
  have haccepts := accepts_of_ofOpcode? hform
  have hfits : ∀ {digit : Option Nat} {nibble : Int}, Shape.fits digit nibble = true →
      ∀ n ∈ digit, nibble = (n : Nat) := by
    rintro digit nibble hfit n rfl
    simpa [Shape.fits] using hfit
  simp only [Shape.accepts, Bool.and_eq_true, nibble_three, nibble_two, nibble_one,
    nibble_zero] at haccepts
  obtain ⟨⟨⟨h3, h2⟩, h1⟩, h0⟩ := haccepts
  have hleading := hfits h3 _ rfl
  exact ⟨by omega, hfits h2, hfits h1, hfits h0⟩

variable {a b c d : Nat}

theorem lowByte_of_ofOpcode? (hform : Form.ofOpcode? opcode = some form)
    (h : 0 ≤ opcode ∧ opcode ≤ 0xFFFF) (hc : c ∈ form.shape.first) (hd : d ∈ form.shape.last) :
    opcode % 0x100 = c * 16 + d := by
  obtain ⟨-, -, hfirst, hlast⟩ := digits_of_ofOpcode? hform h
  have hhigh := hfirst c hc
  have hlow := hlast d hd
  omega

theorem ofOpcode?_leading (form : Form) (hne : form ≠ .sys)
    (hshape : form.shape = ⟨a, none, none, none⟩) (h : 0 ≤ opcode ∧ opcode ≤ 0xFFFF) :
    Form.ofOpcode? opcode = some form ↔ opcode / 0x1000 = a := by
  rw [ofOpcode?_eq_some_iff hne, hshape]
  simp only [Shape.accepts, Shape.fits, nibble_three, Bool.and_true, beq_iff_eq]
  omega

theorem ofOpcode?_ends (form : Form) (hne : form ≠ .sys)
    (hshape : form.shape = ⟨a, none, none, some d⟩) (h : 0 ≤ opcode ∧ opcode ≤ 0xFFFF) :
    Form.ofOpcode? opcode = some form ↔ opcode / 0x1000 = a ∧ opcode % 0x10 = d := by
  rw [ofOpcode?_eq_some_iff hne, hshape]
  simp only [Shape.accepts, Shape.fits, nibble_three, nibble_zero, Bool.and_true,
    Bool.and_eq_true, beq_iff_eq]
  omega

theorem ofOpcode?_outer (form : Form) (hne : form ≠ .sys)
    (hshape : form.shape = ⟨a, none, some c, some d⟩) (hd : d < 16)
    (h : 0 ≤ opcode ∧ opcode ≤ 0xFFFF) :
    Form.ofOpcode? opcode = some form ↔
      opcode / 0x1000 = a ∧ opcode % 0x100 = c * 16 + d := by
  rw [ofOpcode?_eq_some_iff hne, hshape]
  simp only [Shape.accepts, Shape.fits, nibble_three, nibble_one, nibble_zero, Bool.and_true,
    Bool.and_eq_true, beq_iff_eq]
  omega

theorem ofOpcode?_fixed (form : Form) (hne : form ≠ .sys)
    (hshape : form.shape = ⟨a, some b, some c, some d⟩) (hb : b < 16) (hc : c < 16)
    (hd : d < 16) (h : 0 ≤ opcode ∧ opcode ≤ 0xFFFF) :
    Form.ofOpcode? opcode = some form ↔ opcode = join a b c d := by
  rw [ofOpcode?_eq_some_iff hne, hshape]
  simp only [Shape.accepts, Shape.fits, nibble_three, nibble_two, nibble_one, nibble_zero,
    Bool.and_eq_true, beq_iff_eq, join]
  omega

end Table

end Chip8.Proofs.Instruction.Word
