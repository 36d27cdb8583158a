import Chip8.Proofs.Host.Invariant
import Chip8.Proofs.Instruction.Word

/-!
# Operations that fail

When an advance fails, and what a failed operation leaves behind.  The faults of an advance can be
read off the word at the program counter, the registers and the size of memory; memory itself never
refuses an access of a machine that operations led to.
-/

namespace Chip8.Proofs.Host.Failure

open Chip8.Memory
open Chip8.Proofs.Memory.Layout Chip8.Proofs.Memory.Transfer
open Chip8.Proofs.Instruction.Action Chip8.Proofs.Instruction.Effect
open Chip8.Proofs.Instruction.Cycle Chip8.Proofs.Instruction.Word
open Chip8.Proofs.Machine.Representation Chip8.Proofs.Machine.Operations
open Chip8.Proofs.Host.Invariant

/-! ## The faults of an advance -/

/-- The big-endian word of the two bytes at the program counter, if memory has them. -/
def AtPc (m : Machine) (word : Int) : Prop :=
  ∃ high low, m.core.bus.peek m.core.pc = .ok high ∧
    m.core.bus.peek (m.core.pc + 1) = .ok low ∧ word = 256 * high + low

/-- The words that move bytes from the index register on, with how many they move. -/
inductive Moves (word : Int) : Int → Prop
  | decimal (hhigh : word / 0x1000 = 0xF) (hlow : word % 0x100 = 0x33) : Moves word 3
  | store (hhigh : word / 0x1000 = 0xF) (hlow : word % 0x100 = 0x55) :
      Moves word (word / 0x100 % 0x10 + 1)
  | load (hhigh : word / 0x1000 = 0xF) (hlow : word % 0x100 = 0x65) :
      Moves word (word / 0x100 % 0x10 + 1)
  | draw (hhigh : word / 0x1000 = 0xD) : Moves word (word % 0x10)

/-- The faults that an advance raises. -/
inductive Raises (s : Settings) (m : Machine) : Fault → Prop
  | fetch (hout : s.memorySize ≤ m.core.pc + 1) : Raises s m (.addressOutOfRange m.core.pc 2)
  | unknown {word : Int} (hword : AtPc m word) (hform : ∀ form, ¬Matches form word.toNat) :
      Raises s m (.unknownOpcode word
        [word / 0x1000 % 0x10, word / 0x100 % 0x10, word / 0x10 % 0x10, word % 0x10]
        (some m.core.pc))
  | underflow (hword : AtPc m 0x00EE) (hstack : m.core.registers.stack = []) :
      Raises s m .stackUnderflow
  | overflow {word n : Int} (hword : AtPc m word) (hcall : word / 0x1000 = 0x2)
      (hlimit : s.stackLimit = some n) (hstack : (m.core.registers.stack.length : Int) = n) :
      Raises s m (.stackOverflow n)
  | outside {word count : Int} (hword : AtPc m word) (hmoves : Moves word count)
      (hout : s.memorySize < m.core.registers.index + count) :
      Raises s m (.addressOutOfRange m.core.registers.index count)

section Faults

variable {s : Settings} {m : Machine} {size word : Int}

theorem nibbles_eq (word : Int) :
    Opcode.nibbles word =
      [word / 0x1000 % 0x10, word / 0x100 % 0x10, word / 0x10 % 0x10, word % 0x10] := by
  simp [Opcode.nibbles]

theorem atPc_iff (h : Wide m.setup size m.core) :
    AtPc m word ↔ m.core.pc + 1 < size ∧ word = wordAt m.core.bus m.core.pc := by
  have hpc := h.pc
  constructor
  · rintro ⟨high, low, hhigh, hlow, rfl⟩
    have hin : InMemory size (m.core.pc + 1) := Decidable.byContradiction fun hout => by
      rw [peek_outside h.bus hout] at hlow
      cases hlow
    rw [peek_eq h.bus (by omega)] at hhigh
    rw [peek_eq h.bus hin] at hlow
    cases hhigh
    cases hlow
    unfold wordAt
    omega
  · rintro ⟨hin, rfl⟩
    refine ⟨_, _, peek_eq h.bus (by omega), peek_eq h.bus (by omega), ?_⟩
    unfold wordAt
    omega

theorem advance_of_atPc (h : Wide m.setup size m.core) (hat : AtPc m word) {form : Form}
    (hform : Form.ofOpcode? word = some form)
    (hfree : ∀ f, ¬Blocked m.setup size form word m.core.registers f) :
    m.advance =
      ({ m with core := stepped m.setup form m.core }, .ok (recorded m.setup form m.core)) := by
  obtain ⟨hin, rfl⟩ := (atPc_iff h).1 hat
  exact advance_eq_of_free h (not_fails_of_free hin hform hfree) hform

theorem moves_iff (hword : IsWord word) {count : Int} :
    Moves word count ↔
      ∃ form, Form.ofOpcode? word = some form ∧ span? form word = some count := by
  have hdecimal : Form.ofOpcode? word = some .storeDecimal ↔
      word / 0x1000 = 0xF ∧ word % 0x100 = 0x33 :=
    ofOpcode?_outer .storeDecimal (by decide) rfl (by decide) hword
  have hstore : Form.ofOpcode? word = some .storeRegisters ↔
      word / 0x1000 = 0xF ∧ word % 0x100 = 0x55 :=
    ofOpcode?_outer .storeRegisters (by decide) rfl (by decide) hword
  have hload : Form.ofOpcode? word = some .loadRegisters ↔
      word / 0x1000 = 0xF ∧ word % 0x100 = 0x65 :=
    ofOpcode?_outer .loadRegisters (by decide) rfl (by decide) hword
  have hdraw : Form.ofOpcode? word = some .draw ↔ word / 0x1000 = 0xD :=
    ofOpcode?_leading .draw (by decide) rfl hword
  have hx : ((Opcode.x word).val : Int) = word / 0x100 % 0x10 := by
    simp only [Opcode.x]
    omega
  constructor
  · intro hmoves
    cases hmoves with
    | decimal hhigh hlow => exact ⟨.storeDecimal, hdecimal.2 ⟨hhigh, hlow⟩, rfl⟩
    | store hhigh hlow => exact ⟨.storeRegisters, hstore.2 ⟨hhigh, hlow⟩, by rw [span?, hx]⟩
    | load hhigh hlow => exact ⟨.loadRegisters, hload.2 ⟨hhigh, hlow⟩, by rw [span?, hx]⟩
    | draw hhigh => exact ⟨.draw, hdraw.2 hhigh, rfl⟩
  · rintro ⟨form, hform, hspan⟩
    cases form with
    | draw =>
        cases hspan
        exact .draw (hdraw.1 hform)
    | storeDecimal =>
        cases hspan
        exact .decimal (hdecimal.1 hform).1 (hdecimal.1 hform).2
    | storeRegisters =>
        cases hspan
        rw [hx]
        exact .store (hstore.1 hform).1 (hstore.1 hform).2
    | loadRegisters =>
        cases hspan
        rw [hx]
        exact .load (hload.1 hform).1 (hload.1 hform).2
    | _ => cases hspan

theorem raises_iff_fails (hsetup : m.setup = s.setup)
    (h : Wide m.setup s.memorySize m.core) {f : Fault} :
    Raises s m f ↔ Fails m.setup s.memorySize m.core f := by
  have hword := isWord_wordAt h.bus m.core.pc
  have hlimit : m.setup.stackLimit = s.stackLimit := by
    rw [hsetup]
    rfl
  have hret : Form.ofOpcode? (wordAt m.core.bus m.core.pc) = some .ret ↔
      wordAt m.core.bus m.core.pc = 0x00EE :=
    ofOpcode?_fixed .ret (by decide) rfl (by decide) (by decide) (by decide) hword
  have hcall : Form.ofOpcode? (wordAt m.core.bus m.core.pc) = some .call ↔
      wordAt m.core.bus m.core.pc / 0x1000 = 0x2 :=
    ofOpcode?_leading .call (by decide) rfl hword
  constructor
  · intro hraises
    cases hraises with
    | fetch hout => exact .fetch hout
    | unknown hpc hform =>
        obtain ⟨hin, rfl⟩ := (atPc_iff h).1 hpc
        rw [← nibbles_eq]
        exact .decode hin ((ofOpcode?_eq_none_iff hword).2 hform)
    | underflow hpc hstack =>
        obtain ⟨hin, heq⟩ := (atPc_iff h).1 hpc
        exact .execute hin (hret.2 heq.symm) (.underflow rfl hstack)
    | overflow hpc hhigh hsome hstack =>
        obtain ⟨hin, rfl⟩ := (atPc_iff h).1 hpc
        exact .execute hin (hcall.2 hhigh) (.overflow rfl (hlimit.trans hsome) (by omega))
    | outside hpc hmoves hout =>
        obtain ⟨hin, rfl⟩ := (atPc_iff h).1 hpc
        obtain ⟨form, hform, hspan⟩ := (moves_iff hword).1 hmoves
        exact .execute hin hform (.outside hspan (.inr hout))
  · intro hfails
    cases hfails with
    | fetch hout => exact .fetch hout
    | decode hin hform =>
        have hpc := (atPc_iff h).2 ⟨hin, rfl⟩
        rw [nibbles_eq]
        exact .unknown hpc ((ofOpcode?_eq_none_iff hword).1 hform)
    | execute hin hform hblocked =>
        have hpc := (atPc_iff h).2 ⟨hin, rfl⟩
        cases hblocked with
        | underflow heq hstack =>
            subst heq
            rw [hret.1 hform] at hpc
            exact .underflow hpc hstack
        | overflow heq hsome hstack =>
            subst heq
            have hle := h.registers.limited _ hsome
            exact .overflow hpc (hcall.1 hform) (hlimit.symm.trans hsome) (by omega)
        | outside hspan hout =>
            have hmoves := (moves_iff hword).2 ⟨_, hform, hspan⟩
            have hindex := h.registers.index
            exact .outside hpc hmoves (by omega)

end Faults

theorem Raises.ne {s : Settings} {m : Machine} {f : Fault} (h : Raises s m f) :
    (∀ n, f ≠ .registerOutOfRange n) ∧ ∀ key, f ≠ .invalidKey key := by
  cases h <;> exact ⟨fun _ => nofun, fun _ => nofun⟩

/-- An advance raises exactly the faults that can be read off the machine, and nothing else;
otherwise it gives a snapshot. -/
theorem advance_raises_iff {s : Settings} {h : Host} (hh : Reachable s h)
    (hword : s.loadAddress ≤ 0xFFFF) :
    (∀ f, h.machine.advance.2 = .error (.fault f) ↔ Raises s h.machine f) ∧
    ((∃ snapshot, h.machine.advance.2 = .ok snapshot) ↔ ∀ f, ¬Raises s h.machine f) ∧
    (∀ n, h.machine.advance.2 ≠ .error (.fault (.registerOutOfRange n))) ∧
    (∀ key, h.machine.advance.2 ≠ .error (.fault (.invalidKey key))) ∧
    ∀ e, h.machine.advance.2 ≠ .error (.memory e) := by
  have hkept := (hh.steady hword).toKept
  have hiff : ∀ {f}, Raises s h.machine f ↔ Fails h.machine.setup s.memorySize h.machine.core f :=
    raises_iff_fails hkept.setup_eq hkept.fits
  have hraise : ∀ {f}, Raises s h.machine f → h.machine.advance.2 = .error (.fault f) := by
    intro f hf
    obtain ⟨log, heq⟩ := advance_of_fails hkept.fits (hiff.1 hf)
    rw [heq]
  rcases advance_cases hkept.fits with ⟨f, log, hf, heq⟩ | ⟨form, hfree, -, -, heq⟩
  · have hf := hiff.2 hf
    have hresult : h.machine.advance.2 = .error (.fault f) := hraise hf
    rw [hresult]
    refine ⟨fun g => ⟨?_, fun hg => ?_⟩, ⟨?_, fun hnone => absurd hf (hnone f)⟩, ?_, ?_,
      fun e => nofun⟩
    · rintro ⟨⟩
      exact hf
    · exact hresult.symm.trans (hraise hg)
    · rintro ⟨snapshot, ⟨⟩⟩
    · rintro n ⟨⟩
      exact hf.ne.1 n rfl
    · rintro key ⟨⟩
      exact hf.ne.2 key rfl
  · have hresult : h.machine.advance.2 = .ok (recorded h.machine.setup form h.machine.core) := by
      rw [heq]
    have hnone : ∀ f, ¬Raises s h.machine f := fun f hf => hfree f (hiff.1 hf)
    rw [hresult]
    refine ⟨fun f => ⟨nofun, fun hf => absurd hf (hnone f)⟩, ?_, fun n => nofun,
      fun key => nofun, fun e => nofun⟩
    exact ⟨fun _ => hnone, fun _ => ⟨_, rfl⟩⟩

theorem advance_raises_at_end : ∃ m, Built { loadAddress := 0xFFF } m ∧
    m.advance.2 = .error (.fault (.addressOutOfRange 0xFFF 2)) := by
  obtain ⟨m, hm⟩ := exists_built_at 0xFFF (by decide)
  have hpc : m.core.pc = 0xFFF := hm.pc_eq
  have hout : Raises { loadAddress := 0xFFF } m (.addressOutOfRange m.core.pc 2) :=
    .fetch (by rw [hpc]; decide)
  rw [hpc] at hout
  exact ⟨m, hm, ((advance_raises_iff (.built hm fun _ => []) (by decide)).1 _).2 hout⟩

/-! ## What a failure leaves behind -/

/-- The requests that can be refused for what they meet in the machine or in their operands. -/
def CanFail : Request → Prop
  | .load _ | .advance | .setKey _ _ => True
  | _ => False

section Atomic

variable {s : Settings} {h after : Host} {r : Request} {reply : Reply}

theorem handle_eq (hperform : h.perform r = (after, reply))
    (htaken : after.machine.core.bus.ignored = []) :
    h.handle r = (after, { reply with ignored := [] }) := by
  have hnotices : after.machine.takeIgnored = (after.machine, []) := by
    unfold Machine.takeIgnored Bus.takeIgnored
    rw [← htaken]
  unfold Host.handle
  rw [hperform]
  simp only [hnotices]

theorem load_fails (hh : Steady s h) (haddress : 0 ≤ s.loadAddress) (value : Value)
    {e : Refusal} (hfail : (h.handle (.load value)).2.result = .error e) :
    (h.handle (.load value)).1 = h := by
  cases himage : Image.ofValue value with
  | error problem => rw [handle_eq (perform_load_error himage) hh.taken]
  | ok image =>
      have hload : 0 ≤ h.machine.setup.loadAddress := by
        rw [hh.setup_eq]
        exact haddress
      have hperform := perform_load_ok (h := h) himage
      have hbytes := isByte_of_ofValue himage
      rcases load_cases hh.fits.housed hload hbytes with ⟨-, heq⟩ | ⟨hfit, heq⟩
      · rw [heq] at hperform
        rw [handle_eq hperform hh.taken]
      · rw [← Image.length_toList] at hfit
        have hquiet := quiet_loadedAll image.toList hh.fits.bus hload hfit
        rw [heq] at hperform
        rw [handle_eq hperform (hquiet.ignored.trans hh.taken)] at hfail
        cases hfail

theorem setKey_fails (hh : Steady s h) (index : Value) (down : Bool) {e : Refusal}
    (hfail : (h.handle (.setKey index down)).2.result = .error e) :
    (h.handle (.setKey index down)).1 = h := by
  have hperform : h.perform (.setKey index down) =
      h.withMachine (fun _ => .done) (h.machine.setKey index down) := rfl
  rcases setKey_cases h.machine index down with heq | ⟨keypad, heq⟩
  · rw [heq] at hperform
    rw [handle_eq hperform hh.taken]
  · rw [heq] at hperform
    rw [handle_eq hperform hh.taken] at hfail
    cases hfail

/-- A failed advance changes only the log, and the next one fails in the same way. -/
theorem advance_fails (hh : Steady s h) {e : Refusal}
    (hfail : (h.handle .advance).2.result = .error e) :
    ∃ log, (h.handle .advance).1 = { h with machine := relogged h.machine log } ∧
      ((h.handle .advance).1.handle .advance).2.result = .error e := by
  rcases advance_cases hh.fits with ⟨f, log, -, heq⟩ | ⟨form, hfree, hin, hform, heq⟩
  -- An advance begins by clearing the log, so the second one repeats the first.
  · have hfirst := handle_eq (perform_advance_error heq) hh.taken
    have hagain : (relogged h.machine log).advance = (relogged h.machine log, _) :=
      (advance_relogged h.machine log).trans heq
    have hsecond := handle_eq
      (perform_advance_error (h := { h with machine := relogged h.machine log }) hagain) hh.taken
    rw [hfirst] at hfail ⊢
    refine ⟨log, rfl, ?_⟩
    rw [hsecond]
    exact hfail
  · have hresult : (h.handle .advance).2.result = (h.perform .advance).2.result := rfl
    rw [hresult, perform_advance_ok heq] at hfail
    cases hfail

end Atomic

/-- A failed operation leaves everything as it was, but for the log of the bus after an advance.
Trying to advance again fails in the same way. -/
theorem failed_operation_atomic {s : Settings} {h : Host} (hh : Reachable s h)
    (hword : s.loadAddress ≤ 0xFFFF) {r : Request} (hr : CanFail r) {e : Refusal}
    (hfail : (h.handle r).2.result = .error e) :
    (∃ log, (h.handle r).1 = { h with machine := relogged h.machine log }) ∧
    (r ≠ .advance → (h.handle r).1 = h) ∧
    (r = .advance → ((h.handle r).1.handle .advance).2.result = .error e) := by
  have hsteady := hh.steady hword
  obtain ⟨m, hm⟩ := hh.exists_built
  cases r with
  | load value =>
      have heq := load_fails hsteady hm.loadAddress value hfail
      exact ⟨⟨h.machine.core.bus.log, heq⟩, fun _ => heq, nofun⟩
  | setKey index down =>
      have heq := setKey_fails hsteady index down hfail
      exact ⟨⟨h.machine.core.bus.log, heq⟩, fun _ => heq, nofun⟩
  | advance =>
      obtain ⟨log, heq, hagain⟩ := advance_fails hsteady hfail
      exact ⟨⟨log, heq⟩, fun hne => absurd rfl hne, fun _ => hagain⟩
  | _ => exact hr.elim

theorem failed_advance_at_end : ∃ m, Built { loadAddress := 0xFFF } m ∧
    (Host.handle { machine := m } .advance).2.result =
      .error (.failure (.fault (.addressOutOfRange 0xFFF 2))) ∧
    ((Host.handle { machine := m } .advance).1.handle .advance).2.result =
      .error (.failure (.fault (.addressOutOfRange 0xFFF 2))) := by
  obtain ⟨m, hm⟩ := exists_built_at 0xFFF (by decide)
  have hpc : m.core.pc = 0xFFF := hm.pc_eq
  have hfits := (hm.steady (by decide) fun _ => []).toKept.fits
  obtain ⟨log, heq⟩ := advance_of_fails hfits (.fetch (by rw [hpc]; decide))
  have hfail : (Host.handle { machine := m } .advance).2.result =
      .error (.failure (.fault (.addressOutOfRange 0xFFF 2))) := by
    rw [← hpc]
    exact congrArg (·.2.result) (perform_advance_error (h := { machine := m }) heq)
  exact ⟨m, hm, hfail,
    (failed_operation_atomic (.built hm _) (by decide) (r := .advance) trivial hfail).2.2 rfl⟩

end Chip8.Proofs.Host.Failure
