import Chip8.Debug.Breakpoint
import Chip8.Machine

/-!
# When breakpoints hold

A breakpoint holds on a cycle if something that it names happened there.  The debugger looks for
the first breakpoint that holds, kind by kind, and so finds out whether any does; a name stands for
one register at most.
-/

namespace Chip8.Proofs.Debug.Breakpoint

open Chip8.Memory

/-- Whether the condition of a breakpoint holds on a cycle, from its snapshot and the registers
before and after it. -/
def Holds {ρ : Type} (bp : Breakpoint) (s : Snapshot ρ) (before after : List (String × Int)) :
    Prop :=
  match bp.kind with
  | .pcMatch => False
  | .memoryRead =>
    ∃ a ∈ s.accesses, a.kind = .read ∧ bp.address.same (.int a.address) = true
  | .memoryWrite =>
    ∃ a ∈ s.accesses, a.kind = .write ∧ bp.address.same (.int a.address) = true
  | .registerValue =>
    ∃ (name : String) (now : Int), bp.register.same (.text name) = true ∧
      (name, now) ∈ after ∧ bp.value.same (.int now) = true
  | .registerChange =>
    ∃ (name : String) (old now : Int), bp.register.same (.text name) = true ∧
      (name, old) ∈ before ∧ (name, now) ∈ after ∧ now ≠ old
  | .opcodeMatch => bp.mnemonic.same (.text s.operation.mnemonic) = true

/-- Whether the address and the register name of a breakpoint can be looked for, as numbers, texts
and nothing at all can. -/
def CanBeJudged (bp : Breakpoint) : Prop :=
  bp.address.canBeSought = true ∧ bp.register.canBeKey = true

/-- Whether one of some breakpoints stops a run after a cycle. -/
def AnyHolds {ρ : Type} (bps : List Breakpoint) (s : Snapshot ρ)
    (before after : List (String × Int)) : Prop :=
  ∃ bp ∈ bps, bp.isActive = true ∧ Holds bp s before after

/-! ## Registers by name -/

section Names

variable {registers : List (String × Int)} {name : Value} {value : Int}

theorem same_text_iff {v : Value} {t : Text} : v.same (.text t) = true ↔ v = .text t := by
  cases v <;> simp [Value.same, Value.sameNumber, Value.integer?, Value.int?]

theorem eq_of_mem {n : String} {value other : Int} (h : (registers.map Prod.fst).Nodup)
    (hvalue : (n, value) ∈ registers) (hother : (n, other) ∈ registers) : value = other := by
  induction registers with
  | nil => cases hvalue
  | cons register rest ih =>
      rw [List.map_cons, List.nodup_cons] at h
      rcases List.mem_cons.1 hvalue with rfl | hvalue'
      · rcases List.mem_cons.1 hother with heq | hother'
        · exact (Prod.ext_iff.1 heq).2.symm
        · exact absurd (List.mem_map_of_mem hother') h.1
      · rcases List.mem_cons.1 hother with rfl | hother'
        · exact absurd (List.mem_map_of_mem hvalue') h.1
        · exact ih h.2 hvalue' hother'

theorem valueOf?_eq_some_iff (h : (registers.map Prod.fst).Nodup) :
    Breakpoint.valueOf? registers name = some value ↔
      ∃ n : String, name.same (.text n) = true ∧ (n, value) ∈ registers := by
  unfold Breakpoint.valueOf?
  simp only [Option.map_eq_some_iff]
  constructor
  · rintro ⟨⟨n, found⟩, hfind, rfl⟩
    have hname := List.find?_some hfind
    exact ⟨n, hname, List.mem_of_find?_eq_some hfind⟩
  · rintro ⟨n, hname, hmem⟩
    cases hfind : registers.find? fun register => name.same (.text register.1) with
    | none => exact absurd hname (List.find?_eq_none.1 hfind _ hmem)
    | some found =>
        have hfound := List.find?_some hfind
        have htext : Text.ofString n = Text.ofString found.1 := by
          simp only [same_text_iff] at hname hfound
          rw [hname] at hfound
          exact Value.text.inj hfound
        have hn := Text.ofString_injective htext
        have hmem' := List.mem_of_find?_eq_some hfind
        rw [hn] at hmem
        exact ⟨found, rfl, eq_of_mem h hmem' hmem⟩

theorem nodup_names (m : Machine) : (m.registerMap.map Prod.fst).Nodup := by
  have hnames : m.registerMap.map Prod.fst =
      (List.finRange 16).map registerName ++ ["I", "PC", "SP", "DT", "ST"] := by
    simp [Machine.registerMap, instructionSet, registerMap, Function.comp_def]
  rw [hnames]
  decide

end Names

/-! ## Judging -/

section Judging

variable {ρ : Type} {bp : Breakpoint} {bps : List Breakpoint} {s : Snapshot ρ}
  {before after : List (String × Int)}

theorem touched_iff {accesses : List Access} {kind : AccessKind} {address : Value} :
    Breakpoint.touched accesses kind address = true ↔
      ∃ a ∈ accesses, a.kind = kind ∧ address.same (.int a.address) = true := by
  simp [Breakpoint.touched]

theorem sought_ok {can : Value → Bool} {value : Value} (h : can value = true) :
    Breakpoint.sought can value = .ok value := by
  unfold Breakpoint.sought
  rw [if_pos h]

theorem valueMatches_iff (hafter : (after.map Prod.fst).Nodup) {name value : Value} :
    (match Breakpoint.valueOf? after name with
      | some now => value.same (.int now)
      | none => false) = true ↔
      ∃ (n : String) (now : Int), name.same (.text n) = true ∧ (n, now) ∈ after ∧
        value.same (.int now) = true := by
  constructor
  · intro hmatch
    split at hmatch
    · rename_i now hfind
      obtain ⟨n, hname, hnow⟩ := (valueOf?_eq_some_iff hafter).1 hfind
      exact ⟨n, now, hname, hnow, hmatch⟩
    · cases hmatch
  · rintro ⟨n, now, hname, hnow, hsame⟩
    rw [(valueOf?_eq_some_iff hafter).2 ⟨n, hname, hnow⟩]
    exact hsame

theorem valueChanged_iff (hbefore : (before.map Prod.fst).Nodup)
    (hafter : (after.map Prod.fst).Nodup) {name : Value} :
    (match Breakpoint.valueOf? before name, Breakpoint.valueOf? after name with
      | some old, some now => now != old
      | _, _ => false) = true ↔
      ∃ (n : String) (old now : Int), name.same (.text n) = true ∧ (n, old) ∈ before ∧
        (n, now) ∈ after ∧ now ≠ old := by
  constructor
  · intro hmatch
    split at hmatch
    · rename_i old now hold hnow
      obtain ⟨n, hname, hmem⟩ := (valueOf?_eq_some_iff hbefore).1 hold
      obtain ⟨n', hname', hmem'⟩ := (valueOf?_eq_some_iff hafter).1 hnow
      have hn : n' = n := by
        rw [same_text_iff] at hname hname'
        exact Text.ofString_injective (Value.text.inj (hname'.symm.trans hname))
      rw [hn] at hmem'
      exact ⟨n, old, now, hname, hmem, hmem', bne_iff_ne.1 hmatch⟩
    · cases hmatch
  · rintro ⟨n, old, now, hname, hold, hnow, hne⟩
    rw [(valueOf?_eq_some_iff hbefore).2 ⟨n, hname, hold⟩,
      (valueOf?_eq_some_iff hafter).2 ⟨n, hname, hnow⟩]
    exact bne_iff_ne.2 hne

theorem holdsAfter_eq (hbefore : (before.map Prod.fst).Nodup)
    (hafter : (after.map Prod.fst).Nodup) (hbp : CanBeJudged bp) :
    ∃ b, bp.holdsAfter s before after = .ok b ∧ (b = true ↔ Holds bp s before after) := by
  obtain ⟨haddress, hregister⟩ := hbp
  unfold Breakpoint.holdsAfter Holds
  cases bp.kind with
  | pcMatch => exact ⟨false, rfl, by simp⟩
  | memoryRead | memoryWrite =>
      rw [sought_ok haddress]
      exact ⟨_, rfl, touched_iff⟩
  | registerValue =>
      rw [sought_ok hregister]
      exact ⟨_, rfl, valueMatches_iff hafter⟩
  | registerChange =>
      rw [sought_ok hregister]
      exact ⟨_, rfl, valueChanged_iff hbefore hafter⟩
  | opcodeMatch => exact ⟨_, rfl, Iff.rfl⟩

theorem anyM_ok {α ε : Type} {p : α → Except ε Bool} {P : α → Prop} {l : List α}
    (h : ∀ x ∈ l, ∃ b, p x = .ok b ∧ (b = true ↔ P x)) :
    ∃ b, l.anyM p = .ok b ∧ (b = true ↔ ∃ x ∈ l, P x) := by
  induction l with
  | nil => exact ⟨false, rfl, by simp⟩
  | cons x rest ih =>
      obtain ⟨first, hfirst, hiff⟩ := h x List.mem_cons_self
      obtain ⟨later, hlater, hiff'⟩ := ih fun y hy => h y (List.mem_cons_of_mem _ hy)
      simp only [List.anyM, hfirst, bind, Except.bind]
      cases first with
      | true => exact ⟨true, rfl, by simp [← hiff]⟩
      | false => exact ⟨later, hlater, by simp [← hiff, hiff']⟩

/-- The order of the kinds does not matter to whether any breakpoint holds. -/
theorem mem_ordered_iff :
    bp ∈ BreakpointKind.all.flatMap (fun kind =>
      bps.filter fun bp => bp.isActive && bp.kind == kind) ↔
      bp ∈ bps ∧ bp.isActive = true := by
  have hkind : bp.kind ∈ BreakpointKind.all := by cases bp.kind <;> decide
  simp only [List.mem_flatMap, List.mem_filter, Bool.and_eq_true, beq_iff_eq]
  constructor
  · rintro ⟨kind, -, hmem, hactive, -⟩
    exact ⟨hmem, hactive⟩
  · rintro ⟨hmem, hactive⟩
    exact ⟨bp.kind, hkind, hmem, hactive, rfl⟩

/-- Judging some breakpoints finds out whether any active one holds. -/
theorem anyHitsAfter_eq (hbefore : (before.map Prod.fst).Nodup)
    (hafter : (after.map Prod.fst).Nodup) (hbps : ∀ bp ∈ bps, CanBeJudged bp) :
    ∃ b, Breakpoint.anyHitsAfter bps s before after = .ok b ∧
      (b = true ↔ AnyHolds bps s before after) := by
  unfold Breakpoint.anyHitsAfter AnyHolds
  obtain ⟨b, hany, hiff⟩ := anyM_ok (P := fun bp => Holds bp s before after) fun bp hbp =>
    holdsAfter_eq hbefore hafter (hbps bp (mem_ordered_iff.1 hbp).1)
  refine ⟨b, hany, ?_⟩
  simp only [hiff, mem_ordered_iff, and_assoc]

theorem hitsAt_iff {pc : Int} :
    bp.hitsAt pc = true ↔
      bp.isActive = true ∧ bp.kind = .pcMatch ∧ bp.value.same (.int pc) = true := by
  simp [Breakpoint.hitsAt, and_assoc]

end Judging

end Chip8.Proofs.Debug.Breakpoint
