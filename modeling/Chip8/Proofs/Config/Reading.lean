import Chip8.Config.Read

/-!
# What reading settings comes to

Settings that a document gives have passed the check, so they fit together.  A JSON document gives
such settings or an error about one of its values.  Two kinds of document escape this: one whose
dialect is neither a mapping nor false, and one that gives for a number collections which are
nested too deep to be told about.
-/

namespace Chip8.Proofs.Config.Reading

/-! ## Accepted settings -/

/-- Settings that fit together. -/
structure Valid (s : Settings) : Prop where
  loadAddress : 0 ≤ s.loadAddress ∧ s.loadAddress < s.memorySize
  stackLimit : ∀ n, s.stackLimit = some n → 0 < n
  cyclesPerFrame : 0 < s.cyclesPerFrame
  timerRate : 0 < s.timerRate

section Accepted

variable {s accepted : Settings} {d : Document} {notices : List Settings.Notice}

theorem valid_of_check (h : s.check = .ok accepted) : Valid accepted := by
  unfold Settings.check at h
  split at h
  · split at h <;> cases h
  · rename_i hload
    split at h
    · cases h
    · rename_i hlimit
      split at h <;> cases h
      rename_i hrates
      refine ⟨Decidable.not_not.1 hload, ?_, by omega, by omega⟩
      intro n hn
      simpa [hn] using hlimit

theorem valid_of_readFields {entries : List (Value × Value)}
    (h : Settings.readFields d entries = (notices, .ok s)) : Valid s := by
  unfold Settings.readFields at h
  split at h
  · cases h
  · simp only [Prod.mk.injEq] at h
    cases hdialect : (Settings.readDialect d
        ((Value.lookup? entries "quirks").getD .null)).2 with
    | error e => simp [hdialect, Except.bind] at h
    | ok dialect =>
        simp only [hdialect, Except.bind] at h
        exact valid_of_check h.2

theorem valid_of_ofDocument (h : Settings.ofDocument d = (notices, .ok s)) : Valid s := by
  unfold Settings.ofDocument at h
  split at h
  · unfold Settings.readEntries at h
    split at h
    · cases h
    · simp only [Prod.mk.injEq] at h
      exact valid_of_readFields (Prod.ext rfl h.2)
  · cases h

end Accepted

/-! ## JSON values -/

/-- What a JSON document can hold: collections are lists, and mappings with texts as keys. -/
inductive IsJson : Value → Prop
  | null : IsJson .null
  | bool (b : Bool) : IsJson (.bool b)
  | int (z : Int) : IsJson (.int z)
  | float (x : Float) : IsJson (.float x)
  | text (t : Text) : IsJson (.text t)
  | list {items : List Value} (hitems : ∀ item ∈ items, IsJson item) : IsJson (.list items)
  | map {entries : List (Value × Value)} (hkeys : ∀ entry ∈ entries, ∃ t, entry.1 = .text t)
      (hvalues : ∀ entry ∈ entries, IsJson entry.2) : IsJson (.map entries)

mutual

def height : Value → Nat
  | .list items | .tuple items | .set items => heightOfItems items + 1
  | .map entries => heightOfEntries entries + 1
  | _ => 1

def heightOfItems : List Value → Nat
  | [] => 0
  | item :: rest => max (height item) (heightOfItems rest)

def heightOfEntries : List (Value × Value) → Nat
  | [] => 0
  | (key, value) :: rest => max (max (height key) (height value)) (heightOfEntries rest)

end

section Heights

variable {items : List Value} {entries : List (Value × Value)} {item : Value}
  {entry : Value × Value}

theorem height_pos (v : Value) : 0 < height v := by
  cases v <;> simp [height]

theorem height_le_of_mem (h : item ∈ items) : height item ≤ heightOfItems items := by
  induction items with
  | nil => cases h
  | cons first rest ih =>
      rw [heightOfItems]
      rcases List.mem_cons.1 h with rfl | hmem
      · exact Nat.le_max_left _ _
      · exact Nat.le_trans (ih hmem) (Nat.le_max_right _ _)

theorem height_le_of_mem_entries (h : entry ∈ entries) :
    height entry.1 ≤ heightOfEntries entries ∧ height entry.2 ≤ heightOfEntries entries := by
  induction entries with
  | nil => cases h
  | cons first rest ih =>
      obtain ⟨key, value⟩ := first
      rw [heightOfEntries]
      rcases List.mem_cons.1 h with rfl | hmem
      · dsimp only
        omega
      · have := ih hmem
        omega

end Heights

/-! ## Showing values -/

section Showing

variable {α β ε : Type} {d : Document} {value : Value} {e : ε}

theorem bind_eq_error {x : Except ε α} {f : α → Except ε β} (h : x >>= f = .error e) :
    x = .error e ∨ ∃ a, x = .ok a ∧ f a = .error e := by
  cases x with
  | error problem =>
      cases h
      exact .inl rfl
  | ok a => exact .inr ⟨a, rfl, h⟩

theorem map_eq_error {x : Except ε α} {f : α → β} (h : x.map f = .error e) : x = .error e := by
  cases x with
  | error problem =>
      cases h
      rfl
  | ok a => cases h

theorem exists_of_mapM_error {f : α → Except ε β} {l : List α} (h : l.mapM f = .error e) :
    ∃ x ∈ l, f x = .error e := by
  induction l with
  | nil => cases h
  | cons x rest ih =>
      rw [List.mapM_cons] at h
      rcases bind_eq_error h with hx | ⟨y, -, hlater⟩
      · exact ⟨x, List.mem_cons_self, hx⟩
      · rcases bind_eq_error hlater with hrest | ⟨others, -, hdone⟩
        · obtain ⟨z, hmem, hz⟩ := ih hrest
          exact ⟨z, List.mem_cons_of_mem _ hmem, hz⟩
        · cases hdone

theorem lt_height_of_tooDeep {levels : Nat} {around : List Nat} (hv : IsJson value)
    (h : d.unfold levels around value = .error .tooDeep) : levels < height value := by
  -- Each level that is followed takes one off the height of what is left.
  induction levels generalizing value around with
  | zero => exact height_pos value
  | succ levels ih =>
      cases hv with
      | null | bool | float | text => cases h
      | int z =>
          simp only [Document.unfold, Document.unfold.contents] at h
          split at h <;> cases h
      | list hitems =>
          simp only [Document.unfold, Document.unfold.contents] at h
          obtain ⟨item, hmem, hitem⟩ := exists_of_mapM_error (map_eq_error h)
          have hlt := ih (hitems item hmem) hitem
          have hle := height_le_of_mem hmem
          rw [height]
          omega
      | map hkeys hvalues =>
          simp only [Document.unfold, Document.unfold.contents] at h
          obtain ⟨entry, hmem, hentry⟩ := exists_of_mapM_error (map_eq_error h)
          have hle := height_le_of_mem_entries hmem
          rw [height]
          rcases bind_eq_error hentry with hkey | ⟨_, -, hrest⟩
          · obtain ⟨t, ht⟩ := hkeys entry hmem
            have hlt := ih (ht ▸ .text t) hkey
            omega
          · rcases bind_eq_error hrest with hitem | ⟨_, -, hdone⟩
            · have hlt := ih (hvalues entry hmem) hitem
              omega
            · cases hdone

end Showing

/-! ## Errors -/

/-- Errors that there is something to tell about. -/
def Told (e : Settings.Error) : Prop := e.message?.isSome = true

def numberKeys : List String :=
  ["memory_size", "load_address", "stack_limit", "cycles_per_frame", "timer_hz", "seed"]

/-- Documents that give something for a dialect which is neither a mapping nor false. -/
def DialectAstray (v : Value) : Prop :=
  ∃ entries value, v = .map entries ∧ Value.lookup? entries "quirks" = some value ∧
    value.isTrue = true ∧ ∀ switches, value ≠ .map switches

/-- Documents that give for a number collections nested deeper than can be shown. -/
def TooDeep (v : Value) : Prop :=
  ∃ entries value, v = .map entries ∧
    (∃ name ∈ numberKeys, Value.lookup? entries name = some value) ∧ shownLevels < height value

def dialectErrors : List Settings.Error :=
  [.dialectWithoutKeys, .dialectBadKey, .dialectWithoutValues]

def ToBlame (d : Document) (entries : List (Value × Value)) (e : Settings.Error) : Prop :=
  ∃ name ∈ numberKeys, ∃ value, Value.lookup? entries name = some value ∧
    Settings.readInt d value = .error e

/-- What reading a document may come to. -/
inductive Accounts (v : Value) : Except Settings.Error Settings → Prop
  | settings {s : Settings} (hvalid : Valid s) (hdialect : ¬DialectAstray v) : Accounts v (.ok s)
  | told {e : Settings.Error} (htold : Told e) : Accounts v (.error e)
  | astray {e : Settings.Error} (hdialect : DialectAstray v) (herror : e ∈ dialectErrors) :
      Accounts v (.error e)
  | tooDeep (hdeep : TooDeep v) : Accounts v (.error (.unshown .tooDeep))

section Errors

variable {d : Document} {value : Value} {entries : List (Value × Value)} {s : Settings}
  {e : Settings.Error}

theorem told_of_check (h : s.check = .error e) : Told e := by
  unfold Settings.check at h
  split at h
  · split at h <;> cases h <;> rfl
  · split at h
    · cases h
      rfl
    · split at h <;> cases h
      rfl

theorem told_or_tooDeep (e : ShowError) : Told (.unshown e) ∨ e = .tooDeep := by
  cases e with
  | tooManyDigits => exact .inl rfl
  | tooDeep => exact .inr rfl

/-- What is no integer is told about, unless it is too deep to be shown. -/
theorem readInt_told (h : Settings.readInt d value = .error e) :
    Told e ∨ e = .unshown .tooDeep ∧ d.plain value = .error .tooDeep := by
  unfold Settings.readInt at h
  split at h
  · cases h
  · rename_i t
    cases hnumeral : Text.readInt (if Settings.isHexadecimal t then 16 else 10) t with
    | ok z =>
        rw [hnumeral] at h
        cases h
    | error problem =>
        rw [hnumeral] at h
        cases h
        exact .inl rfl
  · split at h
    · cases h
      exact .inl rfl
    · rename_i problem hplain
      cases h
      rcases told_or_tooDeep problem with htold | rfl
      · exact .inl htold
      · exact .inr ⟨rfl, hplain⟩

theorem readInt_error (hv : IsJson value) (h : Settings.readInt d value = .error e) :
    Told e ∨ e = .unshown .tooDeep ∧ d.levels < height value :=
  (readInt_told h).imp_right fun ⟨heq, hplain⟩ =>
    ⟨heq, lt_height_of_tooDeep hv (map_eq_error hplain)⟩

theorem readInt_of_readOptionalInt (h : Settings.readOptionalInt d value = .error e) :
    Settings.readInt d value = .error e := by
  unfold Settings.readOptionalInt at h
  split at h
  · cases h
  · exact map_eq_error h

theorem toBlame_of_field {α : Type} {name : String} {read : Value → Except Settings.Error α}
    {standard : α} (hname : name ∈ numberKeys)
    (hread : ∀ value, read value = .error e → Settings.readInt d value = .error e)
    (h : Settings.field entries name read standard = .error e) : ToBlame d entries e := by
  unfold Settings.field at h
  split at h
  · rename_i value hlookup
    exact ⟨name, hname, value, hlookup, hread value h⟩
  · cases h

/-- If the numbers are not read, one of them is to blame. -/
theorem readNumbers_error (h : Settings.readNumbers d entries = .error e) :
    ToBlame d entries e := by
  unfold Settings.readNumbers at h
  rcases bind_eq_error h with hmemory | ⟨_, -, h⟩
  · exact toBlame_of_field (by decide) (fun _ => id) hmemory
  rcases bind_eq_error h with hload | ⟨_, -, h⟩
  · exact toBlame_of_field (by decide) (fun _ => id) hload
  rcases bind_eq_error h with hlimit | ⟨_, -, h⟩
  · exact toBlame_of_field (by decide) (fun _ => readInt_of_readOptionalInt) hlimit
  rcases bind_eq_error h with hcycles | ⟨_, -, h⟩
  · exact toBlame_of_field (by decide) (fun _ => id) hcycles
  rcases bind_eq_error h with hrate | ⟨_, -, h⟩
  · exact toBlame_of_field (by decide) (fun _ => id) hrate
  rcases bind_eq_error h with hseed | ⟨_, -, h⟩
  · exact toBlame_of_field (by decide) (fun _ => readInt_of_readOptionalInt) hseed
  cases h

end Errors

/-! ## Keys and the dialect -/

section Keys

variable {d : Document} {value : Value} {keys : List Value} {e : Settings.Error}
  {known : List String} {notice : Text → Settings.Notice}

theorem isText_iff {name : String} : value.isText name = true ↔ value = .text name := by
  cases value with
  | text t => simp [Value.isText]
  | _ => simp [Value.isText]

theorem isKnown_iff : Settings.isKnown known value = true ↔ ∃ name ∈ known, value = .text name := by
  simp only [Settings.isKnown, List.any_eq_true, isText_iff]

theorem resolve_eq (d : Document) (hv : IsJson value) : d.resolve value = value := by
  cases hv <;> rfl

/-- No JSON value is a set, so that only what can be a key can be looked for. -/
theorem canBeSought_eq (d : Document) (hv : IsJson value) :
    Settings.canBeSought d value = value.canBeKey := by
  cases hv <;> rfl

theorem height_eq_one (hv : IsJson value) (hkey : value.canBeKey = true) : height value = 1 := by
  cases hv with
  | list | map => cases hkey
  | _ => rfl

theorem plain_text (hd : 0 < d.levels) (t : Text) : d.plain (.text t) = .ok t := by
  obtain ⟨levels, hlevels⟩ := Nat.exists_eq_succ_of_ne_zero (Nat.ne_of_gt hd)
  unfold Document.plain
  rw [hlevels]
  rfl

theorem unknownNames_texts (hd : 0 < d.levels) (hkeys : ∀ key ∈ keys, ∃ t, key = .text t) :
    (Settings.unknownNames d known notice keys).2 = .ok () := by
  induction keys with
  | nil => rfl
  | cons key rest ih =>
      obtain ⟨⟨t, rfl⟩, hrest⟩ := List.forall_mem_cons.1 hkeys
      have hsought : Settings.canBeSought d (.text t) = true := rfl
      unfold Settings.unknownNames
      rw [if_neg (by simp [hsought])]
      split
      · exact ih hrest
      · rw [plain_text hd]
        exact ih hrest

theorem unknownNames_error (hd : 0 < d.levels) (hkeys : ∀ key ∈ keys, IsJson key)
    (h : (Settings.unknownNames d known notice keys).2 = .error e) :
    Told e ∨ e = .dialectBadKey := by
  induction keys with
  | nil => cases h
  | cons key rest ih =>
      obtain ⟨hkey, hrest⟩ := List.forall_mem_cons.1 hkeys
      unfold Settings.unknownNames at h
      split at h
      · cases h
        exact .inr rfl
      · rename_i hsought
        split at h
        · exact ih hrest h
        · split at h
          · rename_i problem hplain
            cases h
            rcases told_or_tooDeep problem with htold | rfl
            · exact .inl htold
            -- What can be looked for is no collection, so it is shown on the first level.
            · have hlt := lt_height_of_tooDeep hkey (map_eq_error hplain)
              rw [Bool.not_eq_true, Bool.not_eq_false', canBeSought_eq d hkey] at hsought
              have := height_eq_one hkey hsought
              omega
          · exact ih hrest h

theorem isJson_of_elements? (hv : IsJson value) (h : Settings.elements? value = some keys) :
    ∀ key ∈ keys, IsJson key := by
  intro key hmem
  cases hv with
  | null | bool | int | float => cases h
  | text t =>
      cases h
      obtain ⟨l, -, rfl⟩ := List.mem_map.1 hmem
      exact .text _
  | list hitems =>
      cases h
      exact hitems key hmem
  | map hkeys hvalues =>
      cases h
      obtain ⟨entry, hentry, rfl⟩ := List.mem_map.1 hmem
      obtain ⟨t, ht⟩ := hkeys entry hentry
      exact ht ▸ .text t

theorem readDialect_ok (hd : 0 < d.levels) (hv : IsJson value)
    (h : value.isTrue = false ∨ ∃ switches, value = .map switches) :
    ∃ dialect, (Settings.readDialect d value).2 = .ok dialect := by
  unfold Settings.readDialect
  rw [resolve_eq d hv]
  rcases Bool.eq_false_or_eq_true value.isTrue with htrue | hfalse
  · obtain ⟨switches, rfl⟩ := h.resolve_left (by simp [htrue])
    cases hv with
    | map hkeys hvalues =>
        have hknown : (Settings.unknownNames d Settings.knownSwitches .unknownSwitch
            (switches.map Prod.fst)).2 = .ok () :=
          unknownNames_texts hd (by simpa using hkeys)
        simp only [htrue, Bool.not_true, Bool.false_eq_true, if_false, Settings.elements?]
        split
        · rename_i hlooked
          rw [hlooked] at hknown
          cases hknown
        · exact ⟨_, rfl⟩
        · rename_i hnomap
          exact absurd rfl (hnomap _)
  · simp [hfalse]

theorem readDialect_error (hd : 0 < d.levels) (hv : IsJson value) (htrue : value.isTrue = true)
    (hmap : ∀ switches, value ≠ .map switches) :
    ∃ e, (Settings.readDialect d value).2 = .error e ∧ (Told e ∨ e ∈ dialectErrors) := by
  unfold Settings.readDialect
  rw [resolve_eq d hv]
  simp only [htrue, Bool.not_true, Bool.false_eq_true, if_false]
  split
  · exact ⟨_, rfl, .inr (by simp [dialectErrors])⟩
  · rename_i keys helements
    split
    · rename_i notices problem hlooked
      refine ⟨problem, rfl, ?_⟩
      rcases unknownNames_error hd (isJson_of_elements? hv helements)
        (congrArg Prod.snd hlooked) with htold | rfl
      · exact .inl htold
      · exact .inr (by simp [dialectErrors])
    · exact absurd rfl (hmap _)
    · exact ⟨_, rfl, .inr (by simp [dialectErrors])⟩

end Keys

/-! ## Documents -/

section Documents

variable {d : Document} {entries : List (Value × Value)} {s : Settings}

theorem isJson_of_lookup? {name : String} {value : Value}
    (hvalues : ∀ entry ∈ entries, IsJson entry.2)
    (h : Value.lookup? entries name = some value) : IsJson value := by
  unfold Value.lookup? at h
  obtain ⟨entry, hfind, rfl⟩ := Option.map_eq_some_iff.1 h
  exact hvalues entry (List.mem_of_find?_eq_some hfind)

theorem dialect_cases (entries : List (Value × Value)) :
    DialectAstray (.map entries) ∨
      (((Value.lookup? entries "quirks").getD .null).isTrue = false ∨
        ∃ switches, (Value.lookup? entries "quirks").getD .null = .map switches) := by
  cases hlookup : Value.lookup? entries "quirks" with
  | none => exact .inr (.inl rfl)
  | some value =>
      by_cases hmap : ∃ switches, value = .map switches
      · exact .inr (.inr hmap)
      · rcases Bool.eq_false_or_eq_true value.isTrue with htrue | hfalse
        · exact .inl ⟨entries, value, rfl, hlookup, htrue, not_exists.1 hmap⟩
        · exact .inr (.inl hfalse)

theorem shownLevels_pos : 0 < shownLevels := by decide

theorem readFields_accounts (hlevels : d.levels = shownLevels)
    (hvalues : ∀ entry ∈ entries, IsJson entry.2) :
    Accounts (.map entries) (Settings.readFields d entries).2 := by
  have hd : 0 < d.levels := hlevels ▸ shownLevels_pos
  unfold Settings.readFields
  cases hnumbers : Settings.readNumbers d entries with
  | error e =>
      obtain ⟨name, hname, value, hlookup, hread⟩ := readNumbers_error hnumbers
      rcases readInt_error (isJson_of_lookup? hvalues hlookup) hread with htold | ⟨rfl, hlt⟩
      · exact .told htold
      · exact .tooDeep ⟨entries, value, rfl, ⟨name, hname, hlookup⟩, hlevels ▸ hlt⟩
  | ok numbers =>
      dsimp only
      by_cases hastray : DialectAstray (.map entries)
      · obtain ⟨_, value, heq, hlookup, htrue, hmap⟩ := hastray
        cases heq
        obtain ⟨e, hdialect, herror⟩ :=
          readDialect_error hd (isJson_of_lookup? hvalues hlookup) htrue hmap
        rw [hlookup, Option.getD_some, hdialect]
        rcases herror with htold | hmem
        · exact .told htold
        · exact .astray ⟨entries, value, rfl, hlookup, htrue, hmap⟩ hmem
      · have hv : IsJson ((Value.lookup? entries "quirks").getD .null) := by
          cases hlookup : Value.lookup? entries "quirks" with
          | none => exact .null
          | some value => exact isJson_of_lookup? hvalues hlookup
        obtain ⟨dialect, hdialect⟩ :=
          readDialect_ok hd hv ((dialect_cases entries).resolve_left hastray)
        rw [hdialect]
        change Accounts _ (Settings.check { numbers with dialect })
        cases hcheck : Settings.check { numbers with dialect } with
        | error e => exact .told (told_of_check hcheck)
        | ok s => exact .settings (valid_of_check hcheck) hastray

theorem readEntries_accounts (hlevels : d.levels = shownLevels)
    (hkeys : ∀ entry ∈ entries, ∃ t, entry.1 = .text t)
    (hvalues : ∀ entry ∈ entries, IsJson entry.2) :
    Accounts (.map entries) (Settings.readEntries d entries).2 := by
  have hknown : (Settings.unknownNames d Settings.knownKeys .unknownKey
      (entries.map Prod.fst)).2 = .ok () :=
    unknownNames_texts (hlevels ▸ shownLevels_pos) (by simpa using hkeys)
  unfold Settings.readEntries
  split
  · rename_i hlooked
    rw [hlooked] at hknown
    cases hknown
  · exact readFields_accounts hlevels hvalues

/-- A JSON document gives settings that fit together or an error that its user is told about.
There are two exceptions: a dialect that has gone astray, and collections in a number's place
which are nested too deep to be shown. -/
theorem accounts_of_isJson {v : Value} (hv : IsJson v) : Accounts v (Settings.ofValue v).2 := by
  have hresolve : (Document.ofValue v).resolve (Document.ofValue v).root = v :=
    resolve_eq _ hv
  unfold Settings.ofValue Settings.ofDocument
  rw [hresolve]
  cases hv with
  | map hkeys hvalues => exact readEntries_accounts rfl hkeys hvalues
  | null | bool | int | float | text | list => exact .told rfl

def smallDocument : Value :=
  .map [(.text "memory_size", .text "0x800"), (.text "stack_limit", .null),
    (.text "quirks", .map [(.text "shift_uses_vy", .bool true)])]

theorem accounts_of_smallDocument :
    (Settings.ofValue smallDocument).2.toOption =
        some { memorySize := 0x800, stackLimit := none, dialect := { shiftsSecond := true } } ∧
      IsJson smallDocument ∧ Accounts smallDocument (Settings.ofValue smallDocument).2 := by
  have hjson : IsJson smallDocument := by
    refine .map (by simp) ?_
    simp only [List.forall_mem_cons, List.not_mem_nil, false_implies, implies_true, and_true]
    exact ⟨.text _, .null, .map (by simp) (by simpa using IsJson.bool true)⟩
  exact ⟨by decide +kernel, hjson, accounts_of_isJson hjson⟩

/-- A number or a list of switches in the dialect's place is not told about: the one has no keys
to be looked at, the other no values to be read. -/
theorem dialect_not_told :
    (IsJson (.map [(.text "quirks", .int 5)]) ∧
      (Settings.ofValue (.map [(.text "quirks", .int 5)])).2 = .error .dialectWithoutKeys ∧
      ¬Told .dialectWithoutKeys) ∧
    IsJson (.map [(.text "quirks", .list [.text "shift_uses_vy"])]) ∧
      (Settings.ofValue (.map [(.text "quirks", .list [.text "shift_uses_vy"])])).2 =
        .error .dialectWithoutValues ∧
      ¬Told .dialectWithoutValues := by
  have hjson : ∀ {value : Value}, IsJson value → IsJson (.map [(.text "quirks", value)]) :=
    fun hv => .map (by simp) (by simpa using hv)
  have hlist : IsJson (.list [.text "shift_uses_vy"]) := by
    refine .list fun item hmem => ?_
    rw [List.mem_singleton.1 hmem]
    exact .text _
  have hnone : ∀ {e : Settings.Error}, e.message? = none → ¬Told e := by
    intro e he
    simp [Told, he]
  exact ⟨⟨hjson (.int 5), rfl, hnone rfl⟩, hjson hlist, rfl, hnone rfl⟩

end Documents

end Chip8.Proofs.Config.Reading
