import Chip8.Proofs.Config.Reading

/-!
# What matters in a mapping

Two mappings that give the same numbers and turn the same switches on or off are read alike, in
whatever order they mention their keys and whatever else they hold: both give the same settings, or
both the same error.  What they hold besides is ignored, with one notice for each key.
-/

namespace Chip8.Proofs.Config.Relevance

open Chip8.Proofs.Config.Reading

/-! ## Mappings -/

def rooted (d : Document) (entries : List (Value × Value)) : Document :=
  { d with root := .map entries }

/-- Keys that can be told about.  All texts are, as `tellable_text` says; an integer with too many
digits is not. -/
def Tellable (d : Document) (key : Value) : Prop :=
  key.canBeKey = true ∧ ∃ text, d.plain key = .ok text

/-- The switches of a mapping whose dialect is left out, nothing, or a mapping itself. -/
inductive Switches (d : Document) (entries : List (Value × Value)) : List (Value × Value) → Prop
  | omitted (hlookup : Value.lookup? entries "quirks" = none) : Switches d entries []
  | null {value : Value} (hlookup : Value.lookup? entries "quirks" = some value)
      (hnull : d.resolve value = .null) : Switches d entries []
  | map {value : Value} {switches : List (Value × Value)}
      (hlookup : Value.lookup? entries "quirks" = some value)
      (hmap : d.resolve value = .map switches) : Switches d entries switches

/-- A mapping with keys that can be told about, and the switches that it gives. -/
structure Legible (d : Document) (entries switches : List (Value × Value)) : Prop where
  keys : ∀ entry ∈ entries, Tellable d entry.1
  gives : Switches d entries switches
  switchKeys : ∀ entry ∈ switches, Tellable d entry.1

def settingKeys : List String := numberKeys ++ ["quirks"]

def switchKeys : List String := ["shift_uses_vy", "memory_increments_index", "reset_vf_on_logic"]

/-- Two mappings give the same values for the same numbers, and turn the same switches on or off. -/
structure Agree (d : Document) (first switches second others : List (Value × Value)) : Prop where
  numbers : ∀ name ∈ numberKeys, Value.lookup? first name = Value.lookup? second name
  turned : ∀ name ∈ switchKeys,
    (Value.lookup? switches name).map d.isTrue = (Value.lookup? others name).map d.isTrue

/-! ## Notices -/

/-- The notices about the keys that are none of some names: one for each, in their order. -/
inductive Ignores (d : Document) (names : List String) (notice : Text → Settings.Notice) :
    List Value → List Settings.Notice → Prop
  | nil : Ignores d names notice [] []
  | known {key : Value} {rest : List Value} {notices : List Settings.Notice}
      (hknown : ∃ name ∈ names, key = .text name) (h : Ignores d names notice rest notices) :
      Ignores d names notice (key :: rest) notices
  | unknown {key : Value} {rest : List Value} {text : Text} {notices : List Settings.Notice}
      (hunknown : ∀ name ∈ names, key ≠ .text name) (htext : d.plain key = .ok text)
      (h : Ignores d names notice rest notices) :
      Ignores d names notice (key :: rest) (notice text :: notices)

/-- The notices about a mapping and then about its switches. -/
inductive Reports (d : Document) (entries switches : List (Value × Value)) :
    List Settings.Notice → Prop
  | both {first later : List Settings.Notice}
      (hkeys : Ignores d settingKeys .unknownKey (entries.map Prod.fst) first)
      (hswitches : Ignores d switchKeys .unknownSwitch (switches.map Prod.fst) later) :
      Reports d entries switches (first ++ later)

section Keys

variable {d : Document} {key : Value} {keys : List Value}

theorem tellable_text (hd : 0 < d.levels) (t : Text) : Tellable d (.text t) :=
  ⟨rfl, t, plain_text hd t⟩

theorem legible_of_texts {entries switches : List (Value × Value)} (hd : 0 < d.levels)
    (hkeys : ∀ entry ∈ entries, ∃ t, entry.1 = .text t) (hgives : Switches d entries switches)
    (hswitchKeys : ∀ entry ∈ switches, ∃ t, entry.1 = .text t) : Legible d entries switches := by
  have htellable : ∀ {key : Value}, (∃ t, key = .text t) → Tellable d key := by
    rintro _ ⟨t, rfl⟩
    exact tellable_text hd t
  exact ⟨fun entry hmem => htellable (hkeys entry hmem), hgives,
    fun entry hmem => htellable (hswitchKeys entry hmem)⟩

theorem canBeSought_of_canBeKey (h : key.canBeKey = true) : Settings.canBeSought d key = true := by
  cases key with
  | list | set | map | shared => cases h
  | _ => exact h

/-- Looking at keys that can be told about never fails. -/
theorem unknownNames_tellable (names : List String) (notice : Text → Settings.Notice)
    (hkeys : ∀ key ∈ keys, Tellable d key) :
    ∃ notices, Settings.unknownNames d names notice keys = (notices, .ok ()) ∧
      Ignores d names notice keys notices := by
  induction keys with
  | nil => exact ⟨[], rfl, .nil⟩
  | cons key rest ih =>
      obtain ⟨⟨hkey, text, htext⟩, hrest⟩ := List.forall_mem_cons.1 hkeys
      obtain ⟨notices, hnotices, hignores⟩ := ih hrest
      rw [Settings.unknownNames, canBeSought_of_canBeKey hkey, if_neg (by simp)]
      by_cases hknown : Settings.isKnown names key = true
      · rw [if_pos hknown]
        exact ⟨notices, hnotices, .known (isKnown_iff.1 hknown) hignores⟩
      · have hunknown : ∀ name ∈ names, key ≠ .text name := fun name hmem heq =>
          hknown (isKnown_iff.2 ⟨name, hmem, heq⟩)
        rw [if_neg hknown, htext]
        dsimp only
        rw [hnotices]
        exact ⟨notice text :: notices, rfl, .unknown hunknown htext hignores⟩

end Keys

/-! ## Reading a mapping -/

def outcome (d : Document) (entries switches : List (Value × Value)) :
    Except Settings.Error Settings := do
  let numbers ← Settings.readNumbers d entries
  Settings.check { numbers with dialect := Settings.dialectOf d switches }

def HoldsTooDeep (d : Document) (entries : List (Value × Value)) : Prop :=
  ∃ name ∈ numberKeys, ∃ value,
    Value.lookup? entries name = some value ∧ d.plain value = .error .tooDeep

section Mappings

variable {d : Document} {entries switches first second others : List (Value × Value)}
  {e : Settings.Error}

theorem readDialect_switches (hgives : Switches d entries switches)
    (hkeys : ∀ entry ∈ switches, Tellable d entry.1) :
    ∃ notices, Settings.readDialect d ((Value.lookup? entries "quirks").getD .null) =
        (notices, .ok (Settings.dialectOf d switches)) ∧
      Ignores d switchKeys .unknownSwitch (switches.map Prod.fst) notices := by
  cases hgives with
  | omitted hlookup =>
      rw [hlookup]
      exact ⟨[], rfl, .nil⟩
  | null hlookup hnull =>
      rw [hlookup, Option.getD_some, Settings.readDialect, hnull]
      exact ⟨[], rfl, .nil⟩
  | map hlookup hmap =>
      rw [hlookup, Option.getD_some, Settings.readDialect, hmap]
      cases switches with
      | nil => exact ⟨[], rfl, .nil⟩
      | cons entry rest =>
          obtain ⟨notices, hnotices, hignores⟩ :=
            unknownNames_tellable Settings.knownSwitches .unknownSwitch
              (List.forall_mem_map.2 hkeys)
          refine ⟨notices, ?_, hignores⟩
          simp only [Value.isTrue, List.isEmpty_cons, Bool.not_false, Bool.not_true,
            Bool.false_eq_true, if_false, Settings.elements?, hnotices]

theorem readEntries_legible (h : Legible d entries switches) :
    ∃ notices, Settings.readEntries d entries = (notices, outcome d entries switches) ∧
      ∀ s, outcome d entries switches = .ok s → Reports d entries switches notices := by
  obtain ⟨first, hfirst, hkeys⟩ :=
    unknownNames_tellable Settings.knownKeys .unknownKey (List.forall_mem_map.2 h.keys)
  obtain ⟨later, hlater, hswitches⟩ := readDialect_switches h.gives h.switchKeys
  rw [Settings.readEntries, hfirst, outcome]
  dsimp only
  rw [Settings.readFields]
  cases Settings.readNumbers d entries with
  | error e => exact ⟨first ++ [], rfl, nofun⟩
  | ok numbers =>
      dsimp only
      rw [hlater]
      exact ⟨first ++ later, rfl, fun _ _ => .both hkeys hswitches⟩

theorem outcome_error (h : outcome d entries switches = .error e) :
    Told e ∨ e = .unshown .tooDeep ∧ HoldsTooDeep d entries := by
  rcases bind_eq_error h with hnumbers | ⟨numbers, -, hcheck⟩
  · obtain ⟨name, hname, value, hlookup, hread⟩ := readNumbers_error hnumbers
    exact (readInt_told hread).imp_right fun ⟨heq, hplain⟩ =>
      ⟨heq, name, hname, value, hlookup, hplain⟩
  · exact .inl (told_of_check hcheck)

theorem readNumbers_congr
    (h : ∀ name ∈ numberKeys, Value.lookup? first name = Value.lookup? second name) :
    Settings.readNumbers d first = Settings.readNumbers d second := by
  have hfield : ∀ name ∈ numberKeys, ∀ {α : Type} (read : Value → Except Settings.Error α)
      (standard : α), Settings.field first name read standard =
        Settings.field second name read standard := by
    intro name hname α read standard
    unfold Settings.field
    rw [h name hname]
  unfold Settings.readNumbers
  dsimp only
  rw [hfield "memory_size" (by decide), hfield "load_address" (by decide),
    hfield "stack_limit" (by decide), hfield "cycles_per_frame" (by decide),
    hfield "timer_hz" (by decide), hfield "seed" (by decide)]

theorem dialectOf_congr (h : ∀ name ∈ switchKeys,
      (Value.lookup? switches name).map d.isTrue = (Value.lookup? others name).map d.isTrue) :
    Settings.dialectOf d switches = Settings.dialectOf d others := by
  have hon : ∀ name ∈ switchKeys,
      Settings.isOn d switches name = Settings.isOn d others name := by
    intro name hname
    unfold Settings.isOn
    rw [h name hname]
  unfold Settings.dialectOf
  rw [hon "shift_uses_vy" (by decide), hon "memory_increments_index" (by decide),
    hon "reset_vf_on_logic" (by decide)]

theorem outcome_congr (h : Agree d first switches second others) :
    outcome d first switches = outcome d second others := by
  unfold outcome
  rw [readNumbers_congr h.numbers, dialectOf_congr h.turned]

end Mappings

/-! ## Documents

What a document has for its root plays no part in how the entries of a mapping are read. -/

section Roots

variable (d : Document) (entries : List (Value × Value))

theorem unfold_rooted : (rooted d entries).unfold = d.unfold := by
  funext levels
  induction levels with
  | zero => rfl
  | succ levels ih =>
      funext around value
      cases value with
      | shared number isMap =>
          simp only [Document.unfold, ih]
          rfl
      | _ => simp only [Document.unfold, ih]

theorem plain_rooted : (rooted d entries).plain = d.plain := by
  funext value
  unfold Document.plain
  rw [unfold_rooted]
  rfl

theorem resolve_rooted : (rooted d entries).resolve = d.resolve := by
  funext value
  cases value <;> rfl

theorem readNumbers_rooted : Settings.readNumbers (rooted d entries) = Settings.readNumbers d := by
  have hint : Settings.readInt (rooted d entries) = Settings.readInt d := by
    funext value
    unfold Settings.readInt
    rw [plain_rooted]
  have hoptional : Settings.readOptionalInt (rooted d entries) = Settings.readOptionalInt d := by
    funext value
    unfold Settings.readOptionalInt
    rw [hint]
  funext others
  unfold Settings.readNumbers
  rw [hint, hoptional]

theorem unknownNames_rooted :
    Settings.unknownNames (rooted d entries) = Settings.unknownNames d := by
  have hsought : Settings.canBeSought (rooted d entries) = Settings.canBeSought d := by
    funext value
    unfold Settings.canBeSought
    rw [resolve_rooted]
  funext names notice keys
  induction keys with
  | nil => rfl
  | cons key rest ih => rw [Settings.unknownNames, Settings.unknownNames, hsought, plain_rooted, ih]

theorem readDialect_rooted : Settings.readDialect (rooted d entries) = Settings.readDialect d := by
  have hdialect : Settings.dialectOf (rooted d entries) = Settings.dialectOf d := by
    funext switches
    unfold Settings.dialectOf Settings.isOn Document.isTrue
    rw [resolve_rooted]
  funext value
  unfold Settings.readDialect
  rw [resolve_rooted, unknownNames_rooted, hdialect]

theorem ofDocument_rooted :
    Settings.ofDocument (rooted d entries) = Settings.readEntries d entries := by
  change Settings.readEntries (rooted d entries) entries = _
  unfold Settings.readEntries Settings.readFields
  rw [unknownNames_rooted, readNumbers_rooted, readDialect_rooted]

end Roots

/-! ## Lists inside one another -/

section Nested

variable {d : Document} {n : Nat}

def nested : Nat → Value
  | 0 => .list []
  | n + 1 => .list [nested n]

theorem unfold_nested {levels : Nat} {around : List Nat} (h : levels ≤ n) :
    d.unfold levels around (nested n) = .error .tooDeep := by
  induction levels generalizing n with
  | zero => rfl
  | succ levels ih =>
      obtain ⟨m, rfl⟩ := Nat.exists_eq_add_one_of_ne_zero (Nat.ne_of_gt (Nat.zero_lt_of_lt h))
      simp only [nested, Document.unfold, Document.unfold.contents, List.mapM_cons,
        ih (Nat.le_of_succ_le_succ h)]
      rfl

theorem readInt_nested (h : d.levels ≤ n) :
    Settings.readInt d (nested n) = .error (.unshown .tooDeep) := by
  have hplain : d.plain (nested n) = .error .tooDeep := by
    rw [Document.plain, unfold_nested h]
    rfl
  obtain ⟨items, hitems⟩ : ∃ items, nested n = .list items := by
    cases n <;> exact ⟨_, rfl⟩
  rw [hitems] at hplain ⊢
  simp only [Settings.readInt, hplain]

end Nested

/-! ## Pairs of mappings -/

section Pairs

variable {d : Document} {first switches second others : List (Value × Value)}

/-- Mappings that agree on what is known give the same settings or the same error, and where they
give settings, what is unknown is told about and nothing else. -/
theorem ofDocument_of_agree (hfirst : Legible d first switches) (hsecond : Legible d second others)
    (hagree : Agree d first switches second others) :
    ∃ notices more result,
      Settings.ofDocument (rooted d first) = (notices, result) ∧
      Settings.ofDocument (rooted d second) = (more, result) ∧
      (∀ e, result = .error e → Told e ∨ e = .unshown .tooDeep ∧ HoldsTooDeep d first) ∧
      ∀ s, result = .ok s → Reports d first switches notices ∧ Reports d second others more := by
  obtain ⟨notices, hread, hreports⟩ := readEntries_legible hfirst
  obtain ⟨more, hother, hmore⟩ := readEntries_legible hsecond
  have hsame := outcome_congr hagree
  rw [← hsame] at hother hmore
  refine ⟨notices, more, outcome d first switches, (ofDocument_rooted d first).trans hread,
    (ofDocument_rooted d second).trans hother, fun e he => outcome_error he, ?_⟩
  exact fun s hs => ⟨hreports s hs, hmore s hs⟩

def crowded : List (Value × Value) :=
  [(.text "speed", .int 3), (.text "memory_size", .text "0x800"),
    (.text "quirks", .map [(.text "vblank", .null), (.text "shift_uses_vy", .bool true)])]

def sparse : List (Value × Value) :=
  [(.text "quirks", .map [(.text "shift_uses_vy", .int 1)]), (.text "memory_size", .text "0x800")]

theorem ofDocument_of_crowded :
    ∃ switches others, Legible (.ofValue .null) crowded switches ∧
      Legible (.ofValue .null) sparse others ∧
      Agree (.ofValue .null) crowded switches sparse others ∧
      (Settings.ofValue (.map crowded)).1 = [.unknownKey "speed", .unknownSwitch "vblank"] ∧
      (Settings.ofValue (.map crowded)).2 = (Settings.ofValue (.map sparse)).2 ∧
      (Settings.ofValue (.map sparse)).2.toOption =
        some { memorySize := 0x800, dialect := { shiftsSecond := true } } := by
  have hcrowded : Legible (.ofValue .null) crowded
      [(.text "vblank", .null), (.text "shift_uses_vy", .bool true)] :=
    legible_of_texts (by decide) (by simp [crowded]) (.map rfl rfl) (by simp)
  have hsparse : Legible (.ofValue .null) sparse [(.text "shift_uses_vy", .int 1)] :=
    legible_of_texts (by decide) (by simp [sparse]) (.map rfl rfl) (by simp)
  have hagree : Agree (.ofValue .null) crowded
      [(.text "vblank", .null), (.text "shift_uses_vy", .bool true)] sparse
      [(.text "shift_uses_vy", .int 1)] := by
    constructor
    · simp only [numberKeys, List.forall_mem_cons]
      exact ⟨rfl, rfl, rfl, rfl, rfl, rfl, nofun⟩
    · decide
  obtain ⟨notices, more, result, hread, hother, -⟩ := ofDocument_of_agree hcrowded hsparse hagree
  have hsame := (congrArg Prod.snd hread).trans (congrArg Prod.snd hother).symm
  exact ⟨_, _, hcrowded, hsparse, hagree, by decide +kernel, hsame, by decide +kernel⟩

/-- Lists of 1200 levels in a number's place are not told about, since they cannot be shown. -/
theorem nested_not_told :
    Legible (.ofValue .null) [(.text "memory_size", nested 1199)] [] ∧
      Agree (.ofValue .null) [(.text "memory_size", nested 1199)] []
        [(.text "memory_size", nested 1199)] [] ∧
      (Settings.ofValue (.map [(.text "memory_size", nested 1199)])).2 =
        .error (.unshown .tooDeep) ∧
      ¬Told (.unshown .tooDeep) := by
  have hread : Settings.readInt (.ofValue .null) (nested 1199) = .error (.unshown .tooDeep) :=
    readInt_nested (by decide)
  generalize nested 1199 = value at hread ⊢
  have hlegible : Legible (.ofValue .null) [(.text "memory_size", value)] [] :=
    legible_of_texts (by decide) (by simp) (.omitted rfl) (by simp)
  have hfield : Settings.field [(.text "memory_size", value)] "memory_size"
      (Settings.readInt (.ofValue .null)) 4096 = .error (.unshown .tooDeep) := hread
  have hresult : outcome (.ofValue .null) [(.text "memory_size", value)] [] =
      .error (.unshown .tooDeep) := by
    unfold outcome Settings.readNumbers
    dsimp only [Memory.standardSize]
    rw [hfield]
    rfl
  obtain ⟨notices, hentries, -⟩ := readEntries_legible hlegible
  have hroot := ofDocument_rooted (.ofValue .null) [(.text "memory_size", value)]
  exact ⟨hlegible, ⟨fun _ _ => rfl, fun _ _ => rfl⟩,
    (congrArg Prod.snd (hroot.trans hentries)).trans hresult, nofun⟩

end Pairs

end Chip8.Proofs.Config.Relevance
