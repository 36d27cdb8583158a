import Chip8.Document
import Mathlib.Data.List.TakeWhile

/-!
# Spelled integers are read back

An integer in decimal, and a number from zero on in hexadecimal behind the marker, is read as what
it is, as long as there are not more decimal digits than are read.  The digits of a hexadecimal
number may be in either case, and zeros may stand before them.
-/

namespace Chip8.Proofs.Config.Numeral

open Chip8.Text

/-! ## Digits -/

section Digits

variable {base n : Nat} {c : Char} {digits : List Char}

theorem alphanumeric_of_isDigitOf (h : isDigitOf base c) :
    48 ≤ c.toNat ∧ c.toNat ≤ 57 ∨ 65 ≤ c.toNat ∧ c.toNat ≤ 90 ∨
      97 ≤ c.toNat ∧ c.toNat ≤ 122 := by
  obtain ⟨d, hd⟩ := Option.isSome_iff_exists.1 h
  have hsome := (Option.filter_eq_some_iff.1 hd).1
  unfold alphanumericDigit? at hsome
  simp only [Char.le_def, UInt32.le_iff_toNat_le] at hsome
  split at hsome
  · next hrange => exact .inl hrange
  · split at hsome
    · next hrange => exact .inr (.inr hrange)
    · split at hsome
      · next hrange => exact .inr (.inl hrange)
      · cases hsome

theorem digit?_digitChar (hbase : base ≤ 16) (h : n < base) :
    digit? base n.digitChar = some n := by
  have hvalue : ∀ m < 16, alphanumericDigit? (Nat.digitChar m) = some m := by decide
  rw [digit?, hvalue n (by omega), Option.filter_some, if_pos (by simpa using h)]

theorem toLower_eq (h : ¬(65 ≤ c.toNat ∧ c.toNat ≤ 90)) : c.toLower = c := dif_neg h

theorem digit?_toLower (base : Nat) (c : Char) : digit? base c.toLower = digit? base c := by
  by_cases hrange : 65 ≤ c.toNat ∧ c.toNat ≤ 90
  · -- The range is small enough to be checked letter by letter.
    have hvalues : ∀ k < 26, alphanumericDigit? (Char.ofNat (65 + k)).toLower =
        alphanumericDigit? (Char.ofNat (65 + k)) := by decide
    have hvalue := hvalues (c.toNat - 65) (by omega)
    rw [Nat.add_sub_cancel' hrange.1, Char.ofNat_toNat] at hvalue
    rw [digit?, digit?, hvalue]
  · rw [toLower_eq hrange]

theorem ofDigits_map_toLower (base : Nat) (digits : List Char) :
    ofDigits base (digits.map Char.toLower) = ofDigits base digits := by
  simp only [ofDigits, List.foldl_map, digit?_toLower]

theorem ofDigits_concat (base : Nat) (digits : List Char) (c : Char) :
    ofDigits base (digits ++ [c]) = ofDigits base digits * base + (digit? base c).getD 0 := by
  rw [ofDigits, List.foldl_append]
  rfl

theorem ofDigits_zeros (base zeros : Nat) (digits : List Char) :
    ofDigits base (List.replicate zeros '0' ++ digits) = ofDigits base digits := by
  have hzero : (digit? base '0').getD 0 = 0 := by
    unfold digit?
    have hvalue : alphanumericDigit? '0' = some 0 := by decide
    rw [hvalue, Option.filter_some]
    split <;> rfl
  induction zeros with
  | zero => rfl
  | succ zeros ih =>
      rw [← ih, List.replicate_succ, List.cons_append]
      simp only [ofDigits, List.foldl_cons, hzero, Nat.zero_mul, Nat.add_zero]

theorem ofDigits_toDigits (hlow : 1 < base) (hbase : base ≤ 16) (n : Nat) :
    ofDigits base (Nat.toDigits base n) = n := by
  induction n using Nat.strongRecOn with
  | ind n ih =>
      by_cases hlt : n < base
      · rw [Nat.toDigits_of_lt_base hlt]
        change 0 * base + (digit? base n.digitChar).getD 0 = n
        rw [digit?_digitChar hbase hlt, Option.getD_some, Nat.zero_mul, Nat.zero_add]
      · have hle := Nat.not_lt.1 hlt
        have hquotient := ih (n / base) (Nat.div_lt_self (by omega) hlow)
        rw [Nat.toDigits_of_base_le hlow hle, ofDigits_concat, hquotient,
          digit?_digitChar hbase (Nat.mod_lt n (by omega)), Option.getD_some,
          Nat.div_add_mod']

theorem isDigitOf_of_mem_toDigits (hlow : 1 < base) (hbase : base ≤ 16)
    (h : c ∈ Nat.toDigits base n) : isDigitOf base c := by
  induction n using Nat.strongRecOn with
  | ind n ih =>
      have hdigit : ∀ m < base, isDigitOf base m.digitChar := fun m hm => by
        rw [isDigitOf, digit?_digitChar hbase hm]
        rfl
      by_cases hlt : n < base
      · rw [Nat.toDigits_of_lt_base hlt] at h
        rw [List.mem_singleton.1 h]
        exact hdigit n hlt
      · rw [Nat.toDigits_of_base_le hlow (Nat.not_lt.1 hlt)] at h
        rcases List.mem_append.1 h with hmem | hlast
        · exact ih (n / base) (Nat.div_lt_self (by omega) hlow) hmem
        · rw [List.mem_singleton.1 hlast]
          exact hdigit _ (Nat.mod_lt n (by omega))

end Digits

/-- The digits of a number in a base, in either case, with zeros before them or not. -/
def Denotes (base : Nat) (digits : List Char) (n : Nat) : Prop :=
  ∃ zeros, digits.map Char.toLower = List.replicate zeros '0' ++ Nat.toDigits base n

namespace Denotes

variable {base n : Nat} {digits : List Char}

theorem ofDigits_eq (h : Denotes base digits n) (hlow : 1 < base) (hbase : base ≤ 16) :
    ofDigits base digits = n := by
  obtain ⟨zeros, heq⟩ := h
  rw [← ofDigits_map_toLower, heq, ofDigits_zeros, ofDigits_toDigits hlow hbase]

theorem ne_nil (h : Denotes base digits n) : digits ≠ [] := by
  obtain ⟨zeros, heq⟩ := h
  rintro rfl
  have hnil := List.append_eq_nil_iff.1 heq.symm
  exact Nat.toDigits_ne_nil hnil.2

theorem isDigitOf (h : Denotes base digits n) (hlow : 1 < base) (hbase : base ≤ 16) :
    ∀ c ∈ digits, isDigitOf base c := by
  obtain ⟨zeros, heq⟩ := h
  intro c hc
  have hlower : Text.isDigitOf base c.toLower := by
    have hmem : c.toLower ∈ List.replicate zeros '0' ++ Nat.toDigits base n :=
      heq ▸ List.mem_map_of_mem hc
    rcases List.mem_append.1 hmem with hzero | hdigit
    · rw [List.eq_of_mem_replicate hzero]
      have hvalue := digit?_digitChar hbase (Nat.zero_lt_of_lt hlow)
      change (digit? base (Nat.digitChar 0)).isSome
      rw [hvalue]
      rfl
    · exact isDigitOf_of_mem_toDigits hlow hbase hdigit
  rwa [Text.isDigitOf, digit?_toLower] at hlower

end Denotes

/-! ## Reading -/

section Reading

variable {base : Nat} {digits lead rest : List Char} {negative : Bool} {text : Text} {c : Char}

theorem map_toPlain (h : ∀ c ∈ lead, c.toNat < 127) :
    (Text.ofChars lead).letters.map toPlain = lead := by
  rw [Text.ofChars, List.map_map]
  refine (List.map_congr_left fun c hc => ?_).trans (List.map_id lead)
  exact if_pos (h c hc)

theorem toNat_lt_of_isDigitOf (h : isDigitOf base c) : c.toNat < 127 := by
  have := alphanumeric_of_isDigitOf h
  omega

theorem isPlainBlank_digit (h : isDigitOf base c) : isPlainBlank c = false := by
  have hrange := alphanumeric_of_isDigitOf h
  have hspace : c ≠ ' ' := by
    rintro rfl
    revert hrange
    decide
  simp only [isPlainBlank, decide_eq_false hspace, Bool.false_or]
  have : ¬c.toNat ≤ 0x0D := by omega
  simp [this]

theorem ne_underscore (h : isDigitOf base c) : c ≠ '_' := by
  rintro rfl
  have hrange := alphanumeric_of_isDigitOf h
  revert hrange
  decide

theorem ungrouped?_digits (hne : digits ≠ []) (h : ∀ c ∈ digits, isDigitOf base c) :
    ungrouped? digits = some digits := by
  have hnone : '_' ∉ digits := fun hmem => ne_underscore (h _ hmem) rfl
  rw [ungrouped?, List.splitOn_eq_singleton hnone]
  cases digits with
  | nil => exact absurd rfl hne
  | cons c rest => simp

theorem readInt_of_parts (hlead : (text.letters.map toPlain).dropWhile isPlainBlank = lead)
    (hsign : takeSign lead = (negative, rest)) (hmarker : dropMarker base rest = digits)
    (hne : digits ≠ []) (h : ∀ c ∈ digits, isDigitOf base c) :
    readInt base text =
      if base = 10 ∧ NumeralError.digitLimit < digits.length then
        .error (.tooLong digits.length)
      else .ok (if negative then -(ofDigits base digits : Int) else ofDigits base digits) := by
  have hbody : ∀ c ∈ digits, (isDigitOf base c || decide (c = '_')) = true := fun c hc => by
    rw [h c hc]
    rfl
  have htake : digits.takeWhile (fun c => isDigitOf base c || decide (c = '_')) = digits :=
    List.takeWhile_eq_self_iff.2 hbody
  have hdrop : digits.dropWhile (fun c => isDigitOf base c || decide (c = '_')) = [] :=
    List.dropWhile_eq_nil_iff.2 hbody
  simp only [readInt, hlead, hsign, hmarker, htake, hdrop, ungrouped?_digits hne h,
    List.all_nil, if_true]

end Reading

/-! ## Decimal numbers -/

section Decimal

theorem toList_toString (z : Int) :
    (toString z).toList = signChars z ++ Nat.toDigits 10 z.natAbs := by
  cases z with
  | ofNat n =>
      change (toString n).toList = _
      rw [Nat.toString_eq_ofList_toDigits, String.toList_ofList]
      rfl
  | negSucc n =>
      change ("-" ++ toString (n + 1)).toList = _
      rw [Nat.toString_eq_ofList_toDigits, String.toList_append, String.toList_ofList,
        String.toList_ofList, signChars, if_pos (Int.negSucc_lt_zero n)]
      rfl

theorem denotes_toDigits (n : Nat) : Denotes 10 (Nat.toDigits 10 n) n := by
  refine ⟨0, (List.map_congr_left fun c hc => ?_).trans (List.map_id _)⟩
  have hdigit := Nat.isDigit_of_mem_toDigits (by decide) (by decide) hc
  rw [Char.isDigit_iff_toNat] at hdigit
  have hnine : '9'.toNat = 57 := rfl
  exact toLower_eq (by omega)

theorem dropWhile_decimal (z : Int) :
    (signChars z ++ Nat.toDigits 10 z.natAbs).dropWhile isPlainBlank =
      signChars z ++ Nat.toDigits 10 z.natAbs := by
  unfold signChars
  split
  · rfl
  · have hdigits := (denotes_toDigits z.natAbs).isDigitOf (by decide) (by decide)
    obtain ⟨first, rest, heq⟩ := List.exists_cons_of_ne_nil (denotes_toDigits z.natAbs).ne_nil
    rw [heq] at hdigits ⊢
    have hfirst := isPlainBlank_digit (hdigits first List.mem_cons_self)
    exact List.dropWhile_cons_of_neg (by simp [hfirst])

theorem takeSign_decimal (z : Int) :
    takeSign (signChars z ++ Nat.toDigits 10 z.natAbs) =
      (decide (z < 0), Nat.toDigits 10 z.natAbs) := by
  have hdigits := (denotes_toDigits z.natAbs).isDigitOf (by decide) (by decide)
  unfold signChars
  split
  · next hneg =>
      rw [decide_eq_true hneg]
      rfl
  · next hneg =>
      rw [decide_eq_false hneg, List.nil_append]
      unfold takeSign
      split
      · next heq =>
          rw [heq] at hdigits
          exact absurd (hdigits _ List.mem_cons_self) (by decide)
      · next heq =>
          rw [heq] at hdigits
          exact absurd (hdigits _ List.mem_cons_self) (by decide)
      · rfl

theorem mem_toString {z : Int} (h : c ∈ (toString z).toList) : c = '-' ∨ isDigitOf 10 c := by
  rw [toList_toString] at h
  rcases List.mem_append.1 h with hsign | hdigit
  · unfold signChars at hsign
    split at hsign
    · exact .inl (List.mem_singleton.1 hsign)
    · cases hsign
  · exact .inr (isDigitOf_of_mem_toDigits (by decide) (by decide) hdigit)

theorem plain_decimal (z : Int) :
    (Text.ofString (toString z)).letters.map toPlain = signChars z ++ Nat.toDigits 10 z.natAbs := by
  rw [Text.ofString, map_toPlain, toList_toString]
  intro c hc
  rcases mem_toString hc with rfl | hdigit
  · decide
  · exact toNat_lt_of_isDigitOf hdigit

theorem dropMarker_decimal (digits : List Char) : dropMarker 10 digits = digits := by
  have hmarker : markerLetter? 10 = none := rfl
  unfold dropMarker
  rw [hmarker]
  split
  · next heq => cases heq
  · rfl

theorem digitLimit_lt_iff (z : Int) :
    NumeralError.digitLimit < (Nat.toDigits 10 z.natAbs).length ↔ hasTooManyDigits z = true := by
  have hlimit : 0 < NumeralError.digitLimit := by decide
  have hlength := Nat.length_toDigits_le_iff (n := z.natAbs) (by decide : 1 < 10) hlimit
  rw [hasTooManyDigits, Nat.pow_eq, decide_eq_true_iff, ← Nat.not_le, hlength, Nat.not_lt]

/-- An integer in decimal is read if it could be written, whatever its size and sign. -/
theorem readInt_decimal (z : Int) :
    readInt 10 (Text.ofString (toString z)) =
      if hasTooManyDigits z then .error (.tooLong (Nat.toDigits 10 z.natAbs).length)
      else .ok z := by
  have hdenotes := denotes_toDigits z.natAbs
  have hdigits := hdenotes.isDigitOf (by decide) (by decide)
  have hlead := (congrArg (List.dropWhile isPlainBlank) (plain_decimal z)).trans
    (dropWhile_decimal z)
  have hvalue : (if decide (z < 0) = true then -(z.natAbs : Int) else z.natAbs) = z := by
    simp only [decide_eq_true_iff]
    split <;> omega
  have hlong : (10 = 10 ∧ NumeralError.digitLimit < (Nat.toDigits 10 z.natAbs).length) ↔
      hasTooManyDigits z = true :=
    (and_iff_right rfl).trans (digitLimit_lt_iff z)
  rw [readInt_of_parts hlead (takeSign_decimal z) (dropMarker_decimal _) hdenotes.ne_nil hdigits,
    hdenotes.ofDigits_eq (by decide) (by decide), hvalue, if_congr hlong rfl rfl]

end Decimal

/-! ## Hexadecimal numbers -/

section Hexadecimal

variable {x : Char} {digits : List Char} {n : Nat}

theorem dropMarker_hexadecimal (hx : x = 'x' ∨ x = 'X')
    (h : ∀ c ∈ digits, isDigitOf 16 c) : dropMarker 16 ('0' :: x :: digits) = digits := by
  have hmarker : markerLetter? 16 = some 'x' := rfl
  have hletter : x = 'x' ∨ x = 'x'.toUpper := hx
  unfold dropMarker
  simp only [hmarker, hletter, if_true]
  split
  · exact absurd rfl (ne_underscore (h _ List.mem_cons_self))
  · rfl

/-- A number in hexadecimal is read, however many digits it has. -/
theorem readInt_hexadecimal (hx : x = 'x' ∨ x = 'X') (h : Denotes 16 digits n) :
    readInt 16 (Text.ofChars ('0' :: x :: digits)) = .ok (n : Int) := by
  have hdigits := h.isDigitOf (by decide) (by decide)
  have hascii : ∀ c ∈ '0' :: x :: digits, c.toNat < 127 := by
    intro c hc
    rcases List.mem_cons.1 hc with rfl | hc
    · decide
    · rcases List.mem_cons.1 hc with rfl | hc
      · rcases hx with rfl | rfl <;> decide
      · exact toNat_lt_of_isDigitOf (hdigits c hc)
  have hlead : ((Text.ofChars ('0' :: x :: digits)).letters.map toPlain).dropWhile isPlainBlank =
      '0' :: x :: digits := by
    rw [map_toPlain hascii]
    rfl
  rw [readInt_of_parts hlead rfl (dropMarker_hexadecimal hx hdigits) h.ne_nil hdigits,
    if_neg (fun hten => absurd hten.1 (by decide)), h.ofDigits_eq (by decide) (by decide)]
  rfl

end Hexadecimal

end Chip8.Proofs.Config.Numeral
