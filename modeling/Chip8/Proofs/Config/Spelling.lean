import Chip8.Proofs.Config.Reading
import Chip8.Proofs.Config.Numeral
import Mathlib.Data.List.Nodup

/-!
# All spellings of settings

Settings that fit together are read from every mapping that gives them: every integer as such, in
decimal or in hexadecimal, and every field or switch only if it differs from its default.
-/

namespace Chip8.Proofs.Config.Spelling

open Chip8.Proofs.Config.Reading Chip8.Proofs.Config.Numeral

/-! ## Spellings -/

/-- How an integer may be given. -/
inductive Spells (z : Int) : Value → Prop
  | number : Spells z (.int z)
  /-- More decimal digits than the limit are no numeral, as `readInt_decimal` tells. -/
  | decimal (hfew : hasTooManyDigits z = false) : Spells z (.text (Text.ofString (toString z)))
  | hexadecimal {x : Char} {digits : List Char} (hx : x = 'x' ∨ x = 'X') (hz : 0 ≤ z)
      (hdigits : Denotes 16 digits z.toNat) :
      Spells z (.text (Text.ofChars ('0' :: x :: digits)))

inductive SpellsOptional : Option Int → Value → Prop
  | none : SpellsOptional none .null
  | some {z : Int} {v : Value} (h : Spells z v) : SpellsOptional (some z) v

inductive SpellsSwitch (b : Bool) : Value → Prop
  | bool : SpellsSwitch b (.bool b)

/-- A mapping gives a value under a name, or leaves it out where it is the default. -/
structure Gives {α : Type} (entries : List (Value × Value)) (name : String)
    (spells : α → Value → Prop) (value default : α) : Prop where
  given : ∀ v, (.text name, v) ∈ entries → spells value v
  omitted : (∀ v, (.text name, v) ∉ entries) → value = default

/-- A mapping has no keys but some names. -/
def KeysAmong (names : List String) (entries : List (Value × Value)) : Prop :=
  ∀ entry ∈ entries, ∃ name ∈ names, entry.1 = .text name

structure SpellsSwitches (dialect : Dialect) (switches : List (Value × Value)) : Prop where
  keys : KeysAmong ["shift_uses_vy", "memory_increments_index", "reset_vf_on_logic"] switches
  shiftsSecond : Gives switches "shift_uses_vy" SpellsSwitch dialect.shiftsSecond false
  movesIndex : Gives switches "memory_increments_index" SpellsSwitch dialect.movesIndex false
  logicClearsFlag : Gives switches "reset_vf_on_logic" SpellsSwitch dialect.logicClearsFlag false

inductive SpellsDialect (dialect : Dialect) : Value → Prop
  | map {switches : List (Value × Value)} (h : SpellsSwitches dialect switches) :
      SpellsDialect dialect (.map switches)

structure SpellsSettings (s : Settings) (entries : List (Value × Value)) : Prop where
  keys : KeysAmong ["memory_size", "load_address", "stack_limit", "cycles_per_frame", "timer_hz",
    "seed", "quirks"] entries
  memorySize : Gives entries "memory_size" Spells s.memorySize 4096
  loadAddress : Gives entries "load_address" Spells s.loadAddress 512
  stackLimit : Gives entries "stack_limit" SpellsOptional s.stackLimit (some 16)
  cyclesPerFrame : Gives entries "cycles_per_frame" Spells s.cyclesPerFrame 10
  timerRate : Gives entries "timer_hz" Spells s.timerRate 60
  seed : Gives entries "seed" SpellsOptional s.seed none
  dialect : Gives entries "quirks" SpellsDialect s.dialect {}

/-! ## Integers -/

section Integers

variable {d : Document} {z : Int} {limit : Option Int} {v : Value}

theorem isHexadecimal_decimal (z : Int) :
    Settings.isHexadecimal (Text.ofString (toString z)) = false := by
  rw [Bool.eq_false_iff]
  intro h
  unfold Settings.isHexadecimal at h
  split at h
  · next c rest heq =>
      have hmem : Letter.char c ∈ (toString z).toList.map Letter.char := by
        change Letter.char c ∈ (Text.ofString (toString z)).letters
        rw [heq]
        simp
      obtain ⟨_, hc, hsame⟩ := List.mem_map.1 hmem
      cases hsame
      rw [Bool.or_eq_true, beq_iff_eq, beq_iff_eq] at h
      rcases mem_toString hc with rfl | hdigit
      · exact absurd h (by decide)
      · rcases h with rfl | rfl <;> exact absurd hdigit (by decide)
  · cases h

theorem readInt_of_spells (h : Spells z v) : Settings.readInt d v = .ok z := by
  cases h with
  | number => rfl
  | decimal hfew =>
      rw [Settings.readInt, isHexadecimal_decimal, if_neg Bool.false_ne_true, readInt_decimal,
        hfew]
      rfl
  | hexadecimal hx hz hdigits =>
      have hmarked : ∀ {x : Char} {digits : List Char}, x = 'x' ∨ x = 'X' →
          Settings.isHexadecimal (Text.ofChars ('0' :: x :: digits)) = true := by
        rintro x digits (rfl | rfl) <;> rfl
      rw [Settings.readInt, hmarked hx, if_pos rfl, readInt_hexadecimal hx hdigits,
        Int.toNat_of_nonneg hz]
      rfl

theorem readOptionalInt_of_spells (h : SpellsOptional limit v) :
    Settings.readOptionalInt d v = .ok limit := by
  cases h with
  | none => rfl
  | some hz =>
      have hread := readInt_of_spells (d := d) hz
      unfold Settings.readOptionalInt
      split
      · cases hz
      · rw [hread]
        rfl

end Integers

/-! ## Fields -/

section Fields

variable {α : Type} {entries : List (Value × Value)} {name : String}
  {spells : α → Value → Prop} {value default : α} {v : Value}

theorem mem_of_lookup? (h : Value.lookup? entries name = some v) :
    (.text name, v) ∈ entries := by
  obtain ⟨⟨key, value⟩, hfind, rfl⟩ := Option.map_eq_some_iff.1 h
  have hfound : key.isText name = true :=
    List.find?_some (p := fun entry : Value × Value => entry.1.isText name) hfind
  obtain rfl := isText_iff.1 hfound
  exact List.mem_of_find?_eq_some hfind

theorem lookup?_eq_none (h : Value.lookup? entries name = none) :
    ∀ v, (.text name, v) ∉ entries := by
  intro v hmem
  have hnone := List.find?_eq_none.1 (Option.map_eq_none_iff.1 h) _ hmem
  exact hnone (isText_iff.2 rfl)

theorem Gives.of_mem (hkeys : (entries.map Prod.fst).Nodup) (hmem : (.text name, v) ∈ entries)
    (h : spells value v) : Gives entries name spells value default where
  given w hw := by
    have hsame := List.inj_on_of_nodup_map hkeys hw hmem rfl
    cases hsame
    exact h
  omitted hnone := absurd hmem (hnone v)

theorem Gives.lookup? (h : Gives entries name spells value default) :
    (∃ v, Value.lookup? entries name = some v ∧ spells value v) ∨
      Value.lookup? entries name = none ∧ value = default := by
  cases hlookup : Value.lookup? entries name with
  | none => exact .inr ⟨rfl, h.omitted (lookup?_eq_none hlookup)⟩
  | some v => exact .inl ⟨v, rfl, h.given v (mem_of_lookup? hlookup)⟩

theorem Gives.field {read : Value → Except Settings.Error α}
    (h : Gives entries name spells value default)
    (hread : ∀ {v}, spells value v → read v = .ok value) :
    Settings.field entries name read default = .ok value := by
  unfold Settings.field
  rcases h.lookup? with ⟨v, hlookup, hv⟩ | ⟨hlookup, rfl⟩
  · rw [hlookup]
    exact hread hv
  · rw [hlookup]

theorem Gives.isOn {b : Bool} {d : Document} (h : Gives entries name SpellsSwitch b false) :
    Settings.isOn d entries name = b := by
  unfold Settings.isOn
  rcases h.lookup? with ⟨v, hlookup, ⟨⟩⟩ | ⟨hlookup, rfl⟩
  · rw [hlookup]
    rfl
  · rw [hlookup]
    rfl

theorem unknownNames_known {d : Document} {names : List String}
    {notice : Text → Settings.Notice} (h : KeysAmong names entries) :
    Settings.unknownNames d names notice (entries.map Prod.fst) = ([], .ok ()) := by
  induction entries with
  | nil => rfl
  | cons entry rest ih =>
      obtain ⟨⟨name, hname, hkey⟩, hrest⟩ := List.forall_mem_cons.1 h
      have hknown : Settings.isKnown names (.text name) = true :=
        isKnown_iff.2 ⟨name, hname, rfl⟩
      have hsought : Settings.canBeSought d (.text name) = true := rfl
      rw [List.map_cons, hkey, Settings.unknownNames, hsought, if_neg (by simp), if_pos hknown]
      exact ih hrest

end Fields

/-! ## Settings -/

section Settings

variable {d : Document} {s : Settings} {entries : List (Value × Value)}

theorem readNumbers_of_spells (h : SpellsSettings s entries) :
    Settings.readNumbers d entries = .ok { s with dialect := {} } := by
  have hmemory := h.memorySize.field (readInt_of_spells (d := d))
  have hload := h.loadAddress.field (readInt_of_spells (d := d))
  have hlimit := h.stackLimit.field (readOptionalInt_of_spells (d := d))
  have hcycles := h.cyclesPerFrame.field (readInt_of_spells (d := d))
  have hrate := h.timerRate.field (readInt_of_spells (d := d))
  have hseed := h.seed.field (readOptionalInt_of_spells (d := d))
  unfold Settings.readNumbers
  dsimp only [Memory.standardSize, Memory.programStart, standardStackLimit]
  rw [hmemory, hload, hlimit, hcycles, hrate, hseed]
  rfl

theorem readDialect_of_spells {dialect : Dialect} {v : Value} (h : SpellsDialect dialect v) :
    Settings.readDialect d v = ([], .ok dialect) := by
  obtain ⟨h⟩ := h
  rename_i switches
  have hdialect : Settings.dialectOf d switches = dialect := by
    rw [Settings.dialectOf, h.shiftsSecond.isOn, h.movesIndex.isOn, h.logicClearsFlag.isOn]
  have hknown : Settings.unknownNames d Settings.knownSwitches .unknownSwitch
      (switches.map Prod.fst) = ([], .ok ()) := unknownNames_known h.keys
  have hresolve : d.resolve (.map switches) = .map switches := rfl
  simp only [Settings.readDialect, hresolve, Settings.elements?, hknown, hdialect]
  split
  · next hempty =>
      have hnil : switches = [] := by simpa [Value.isTrue] using hempty
      rw [← hdialect, hnil]
      rfl
  · rfl

theorem check_of_valid (h : Valid s) : s.check = .ok s := by
  have hlimit : s.stackLimit.any (· ≤ 0) = false := by
    cases hstack : s.stackLimit with
    | none => rfl
    | some n => exact decide_eq_false (Int.not_le.2 (h.stackLimit n hstack))
  have hcycles := h.cyclesPerFrame
  have hrate := h.timerRate
  rw [Settings.check, if_neg (not_not_intro h.loadAddress), hlimit, if_neg Bool.false_ne_true,
    if_neg (by omega)]

/-- Settings that fit together are read from every mapping that gives them, without a notice. -/
theorem ofValue_of_spells (hvalid : Valid s) (h : SpellsSettings s entries) :
    Settings.ofValue (.map entries) = ([], .ok s) := by
  change Settings.readEntries (.ofValue (.map entries)) entries = _
  generalize Document.ofValue (.map entries) = d
  have hknown : Settings.unknownNames d Settings.knownKeys .unknownKey
      (entries.map Prod.fst) = ([], .ok ()) := unknownNames_known h.keys
  have hdialect : Settings.readDialect d ((Value.lookup? entries "quirks").getD .null) =
      ([], .ok s.dialect) := by
    rcases h.dialect.lookup? with ⟨v, hlookup, hv⟩ | ⟨hlookup, hdefault⟩
    · rw [hlookup]
      exact readDialect_of_spells hv
    · rw [hlookup, hdefault]
      rfl
  have hfields : Settings.readFields d entries = ([], .ok s) := by
    rw [Settings.readFields, readNumbers_of_spells h]
    dsimp only
    rw [hdialect]
    exact congrArg (Prod.mk []) (check_of_valid hvalid)
  rw [Settings.readEntries, hknown]
  dsimp only
  rw [hfields]
  rfl

def mixedSettings : Settings where
  memorySize := 0x8AB0
  loadAddress := 768
  stackLimit := none
  cyclesPerFrame := 7
  seed := some (-42)
  dialect := { movesIndex := true }

def mixedEntries : List (Value × Value) :=
  [(.text "seed", .text "-42"), (.text "memory_size", .text "0X08aB0"),
    (.text "load_address", .text "768"), (.text "stack_limit", .null),
    (.text "cycles_per_frame", .int 7),
    (.text "quirks", .map [(.text "memory_increments_index", .bool true),
      (.text "shift_uses_vy", .bool false)])]

theorem ofValue_of_mixedEntries :
    Valid mixedSettings ∧ SpellsSettings mixedSettings mixedEntries ∧
      Settings.ofValue (.map mixedEntries) = ([], .ok mixedSettings) := by
  have hvalid : Valid mixedSettings := by
    refine ⟨by decide, ?_, by decide, by decide⟩
    intro n hn
    cases hn
  have hdecimal : Spells 768 (.text "768") :=
    .decimal (Bool.eq_false_iff.2 (mt (digitLimit_lt_iff 768).2 (by decide)))
  have hnegative : Spells (-42) (.text "-42") :=
    .decimal (Bool.eq_false_iff.2 (mt (digitLimit_lt_iff (-42)).2 (by decide)))
  have hhexadecimal : Spells 0x8AB0 (.text "0X08aB0") :=
    .hexadecimal (.inr rfl) (by decide) ⟨1, by decide⟩
  have hname : ∀ name other : String, Text.ofString name = Text.ofString other ↔ name = other :=
    fun _ _ => ⟨Text.ofString_injective, congrArg _⟩
  have hswitches : SpellsSwitches mixedSettings.dialect
      [(.text "memory_increments_index", .bool true), (.text "shift_uses_vy", .bool false)] :=
    { keys := by simp [KeysAmong]
      shiftsSecond := .of_mem (by simp [hname]) (by simp [mixedSettings]) .bool
      movesIndex := .of_mem (by simp [hname]) (by simp [mixedSettings]) .bool
      logicClearsFlag := ⟨by simp [hname], fun _ => rfl⟩ }
  have hkeys : (mixedEntries.map Prod.fst).Nodup := by simp [mixedEntries, hname]
  have hspells : SpellsSettings mixedSettings mixedEntries :=
    { keys := by simp [mixedEntries, KeysAmong]
      memorySize := .of_mem hkeys (by simp [mixedEntries]) hhexadecimal
      loadAddress := .of_mem hkeys (by simp [mixedEntries]) hdecimal
      stackLimit := .of_mem hkeys (by simp [mixedEntries]) .none
      cyclesPerFrame := .of_mem hkeys (by simp [mixedEntries, mixedSettings]) .number
      timerRate := ⟨by simp [mixedEntries, hname], fun _ => rfl⟩
      seed := .of_mem hkeys (by simp [mixedEntries]) (.some hnegative)
      dialect := .of_mem hkeys (by simp [mixedEntries]) (.map hswitches) }
  exact ⟨hvalid, hspells, ofValue_of_spells hvalid hspells⟩

end Settings

end Chip8.Proofs.Config.Spelling
