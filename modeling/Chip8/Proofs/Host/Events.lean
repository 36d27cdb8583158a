import Chip8.Proofs.Host.Failure
import Chip8.Proofs.Machine.Indifference

/-!
# Events between instructions

A host counts the timers down and passes on key presses whenever they are due, between any two
instructions.  It does not matter on which side of an instruction such an event comes, unless the
instruction looks at what the event changes: the same machine results, the same listeners are
called, and the advance gives the same snapshot or error, but for the timers in the snapshot.
-/

namespace Chip8.Proofs.Host.Events

open Chip8.Instruction
open Chip8.Proofs.Memory.Layout Chip8.Proofs.Instruction.Word Chip8.Proofs.Instruction.Cycle
open Chip8.Proofs.Machine.Representation Chip8.Proofs.Machine.Operations
open Chip8.Proofs.Machine.Indifference Chip8.Proofs.Host.Invariant Chip8.Proofs.Host.Failure

/-- The words that look at a timer or set one: Fx07, Fx15 and Fx18. -/
def UsesTimers (word : Int) : Prop :=
  word / 0x1000 = 0xF ∧
    (word % 0x100 = 0x07 ∨ word % 0x100 = 0x15 ∨ word % 0x100 = 0x18)

/-- The words that look at the keys: Ex9E, ExA1 and Fx0A. -/
def UsesKeys (word : Int) : Prop :=
  word / 0x1000 = 0xE ∧ (word % 0x100 = 0x9E ∨ word % 0x100 = 0xA1) ∨
    word / 0x1000 = 0xF ∧ word % 0x100 = 0x0A

def counted (m : Machine) : Machine :=
  { m with core := { m.core with registers := m.core.registers.countDown } }

def countedDown (s : Snapshot Registers) : Snapshot Registers :=
  { s with registers := s.registers.countDown }

section Words

variable {word : Int} {form : Form}

theorem not_mem_timerForms (hword : IsWord word) (hform : Form.ofOpcode? word = some form)
    (huses : ¬UsesTimers word) : form ∉ timerForms := by
  intro hmem
  have hcases : form = .readDelay ∨ form = .setDelay ∨ form = .setSound := by
    simpa [timerForms] using hmem
  rcases hcases with rfl | rfl | rfl
  · have hread := (ofOpcode?_outer .readDelay (by decide) rfl (by decide) hword).1 hform
    exact huses ⟨hread.1, .inl hread.2⟩
  · have hset := (ofOpcode?_outer .setDelay (by decide) rfl (by decide) hword).1 hform
    exact huses ⟨hset.1, .inr (.inl hset.2)⟩
  · have hset := (ofOpcode?_outer .setSound (by decide) rfl (by decide) hword).1 hform
    exact huses ⟨hset.1, .inr (.inr hset.2)⟩

theorem not_mem_keyForms (hword : IsWord word) (hform : Form.ofOpcode? word = some form)
    (huses : ¬UsesKeys word) : form ∉ keyForms := by
  intro hmem
  have hcases : form = .skipPressed ∨ form = .skipReleased ∨ form = .waitKey := by
    simpa [keyForms] using hmem
  rcases hcases with rfl | rfl | rfl
  · have hskip := (ofOpcode?_outer .skipPressed (by decide) rfl (by decide) hword).1 hform
    exact huses (.inl ⟨hskip.1, .inl hskip.2⟩)
  · have hskip := (ofOpcode?_outer .skipReleased (by decide) rfl (by decide) hword).1 hform
    exact huses (.inl ⟨hskip.1, .inr hskip.2⟩)
  · have hwait := (ofOpcode?_outer .waitKey (by decide) rfl (by decide) hword).1 hform
    exact huses (.inr hwait)

end Words

/-! ## Ticks -/

section Ticks

variable {m : Machine} {size : Int}

theorem advance_withTone (m : Machine) (tone : Tone) :
    ({ m with tone } : Machine).advance = ({ m.advance.1 with tone }, m.advance.2) := by
  unfold Machine.advance Machine.run
  dsimp only
  cases (instructionSet m.setup).step m.core <;> rfl

theorem tone_advance (m : Machine) : m.advance.1.tone = m.tone :=
  congrArg (fun result => result.1.tone) (advance_withTone m m.tone)

theorem tickTimers_congr (script : Text → List ToneAction) {r r' : Registers}
    (hsound : r'.sound = r.sound) (t : Tone) :
    (tickTimers script r' t).2 = (tickTimers script r t).2 := by
  unfold tickTimers Registers.countDown
  dsimp only
  rw [hsound]
  split <;> rfl

variable (hform : ∀ form, Executes size m form → form ∉ timerForms)

include hform

theorem timers_advance (h : Wide m.setup size m.core) :
    m.advance.1.core.registers =
        withTimers m.core.registers.delay m.core.registers.sound m.advance.1.core.registers ∧
      ∀ s, m.advance.2 = .ok s →
        s.registers = withTimers m.core.registers.delay m.core.registers.sound s.registers := by
  have hself := advance_of_unaltered (k := id)
    (g := withTimers m.core.registers.delay m.core.registers.sound) h (fun r => ⟨rfl, rfl⟩)
    (fun form hexecutes => indifferent_timers (hform form hexecutes)) rfl
  refine ⟨congrArg (fun result => result.1.core.registers) hself, fun s hs => ?_⟩
  have hresult := congrArg Prod.snd hself
  rw [hs] at hresult
  exact congrArg Snapshot.registers (Except.ok.inj hresult)

/-- Counting the timers down does not show in such an instruction, nor it in them. -/
theorem advance_countDown (h : Wide m.setup size m.core) :
    (counted m).advance = (counted m.advance.1, m.advance.2.map countedDown) := by
  obtain ⟨hregisters, hsnapshot⟩ := timers_advance hform h
  have hcounted := advance_altered (k := id)
    (g := withTimers (countDown m.core.registers.delay) (countDown m.core.registers.sound)) h
    { h with registers := h.registers.countDown } (fun r => ⟨rfl, rfl⟩)
    (fun form hexecutes => indifferent_timers (hform form hexecutes))
  refine hcounted.trans (Prod.ext ?machine ?result)
  case machine =>
    dsimp only [alteredMachine, altered, counted]
    rw [hregisters]
    rfl
  case result =>
    cases hadvance : m.advance.2 with
    | error e => rfl
    | ok s =>
        have hs := hsnapshot s hadvance
        dsimp only [Except.map, countedDown]
        rw [hs]
        rfl

theorem tick_advance (h : Wide m.setup size m.core) (script : Text → List ToneAction) :
    m.advance.1.tick script = ((m.tick script).1.advance.1, (m.tick script).2) ∧
      (m.tick script).1.advance.2 = m.advance.2.map countedDown := by
  have hsound : m.advance.1.core.registers.sound = m.core.registers.sound := by
    rw [(timers_advance hform h).1]
    rfl
  have hevents : (tickTimers script m.advance.1.core.registers m.advance.1.tone).2 =
      (tickTimers script m.core.registers m.tone).2 := by
    rw [tone_advance]
    exact tickTimers_congr script hsound m.tone
  have hticked : m.tick script =
      ({ counted m with tone := (tickTimers script m.core.registers m.tone).2.1 },
        (tickTimers script m.core.registers m.tone).2.2) := tick_eq m script
  rw [tick_eq m.advance.1, hevents, hticked]
  dsimp only
  rw [advance_withTone (counted m), advance_countDown hform h]
  exact ⟨rfl, rfl⟩

end Ticks

/-! ## Keys -/

section Keys

variable {m : Machine} {size : Int}
variable (hform : ∀ form, Executes size m form → form ∉ keyForms)

include hform

theorem advance_withKeypad (h : Wide m.setup size m.core) (keypad : Keypad) :
    (alteredMachine id (withKeypad keypad) m).advance =
      (alteredMachine id (withKeypad keypad) m.advance.1, m.advance.2) :=
  advance_altered_hardware h { h with }
    fun form hexecutes => indifferent_keypad (hform form hexecutes) keypad

theorem setKey_advance (h : Wide m.setup size m.core) (index : Value) (down : Bool) :
    m.advance.1.setKey index down =
        ((m.setKey index down).1.advance.1, (m.setKey index down).2) ∧
      (m.setKey index down).1.advance.2 = m.advance.2 := by
  have hkeypad : m.advance.1.core.hardware.keypad = m.core.hardware.keypad :=
    congrArg (fun result => result.1.core.hardware.keypad)
      (advance_withKeypad hform h m.core.hardware.keypad)
  unfold Machine.setKey
  rw [hkeypad]
  cases m.core.hardware.keypad.set index down with
  | error f => exact ⟨rfl, rfl⟩
  | ok keypad =>
      have hadvance := advance_withKeypad hform h keypad
      have hmachine := congrArg Prod.fst hadvance
      have hresult := congrArg Prod.snd hadvance
      exact ⟨Prod.ext hmachine.symm rfl, hresult⟩

end Keys

/-! ## Reachable machines -/

/-- Counting the timers down, with whatever the listeners do, commutes with every instruction that
does not look at a timer, and pressing or releasing a key with every one that does not look at the
keys, whether the instruction is carried out or fails. -/
theorem events_commute {s : Settings} {h : Host} (hh : Reachable s h) :
    ((∀ word, AtPc h.machine word → ¬UsesTimers word) → ∀ script,
      h.machine.advance.1.tick script =
          ((h.machine.tick script).1.advance.1, (h.machine.tick script).2) ∧
        (h.machine.tick script).1.advance.2 = h.machine.advance.2.map countedDown) ∧
    ((∀ word, AtPc h.machine word → ¬UsesKeys word) → ∀ index down,
      h.machine.advance.1.setKey index down =
          ((h.machine.setKey index down).1.advance.1, (h.machine.setKey index down).2) ∧
        (h.machine.setKey index down).1.advance.2 = h.machine.advance.2) := by
  have hfits := hh.held.fits
  have hword := isWord_wordAt hfits.bus h.machine.core.pc
  refine ⟨fun huses script => ?ticks, fun huses index down => ?keys⟩
  case ticks =>
    refine tick_advance (fun form hexecutes => ?_) hfits script
    have hat := (atPc_iff hfits).2 ⟨hexecutes.inside, rfl⟩
    exact not_mem_timerForms hword hexecutes.found (huses _ hat)
  case keys =>
    refine setKey_advance (fun form hexecutes => ?_) hfits index down
    have hat := (atPc_iff hfits).2 ⟨hexecutes.inside, rfl⟩
    exact not_mem_keyForms hword hexecutes.found (huses _ hat)

def ringing : Host :=
  Host.handleAll { machine := newMachine { memorySize := 0x60, loadAddress := 0x50 } }
    [.addListener "bell", .load (.list [.int 0x60, .int 0x01, .int 0xF0, .int 0x18]),
      .advance, .advance]

theorem events_commute_ringing :
    Reachable { memorySize := 0x60, loadAddress := 0x50 } ringing ∧
    (∀ word, AtPc ringing.machine word → ¬UsesTimers word ∧ ¬UsesKeys word) ∧
    ringing.machine.advance.1.tick (fun _ => []) =
      ((ringing.machine.tick fun _ => []).1.advance.1, [.called "bell"]) ∧
    ringing.machine.advance.1.setKey (.int 5) true =
      ((ringing.machine.setKey (.int 5) true).1.advance.1, .ok ()) := by
  have hreachable : Reachable { memorySize := 0x60, loadAddress := 0x50 } ringing :=
    reachable_small (by simp [IsOperation])
  have hpeek : (ringing.machine.core.bus.peek ringing.machine.core.pc).toOption = some 0 ∧
      (ringing.machine.core.bus.peek (ringing.machine.core.pc + 1)).toOption = some 0 := by
    decide +kernel
  have hevents : (ringing.machine.tick fun _ => []).2 = [.called "bell"] := by decide +kernel
  have hword : ∀ word, AtPc ringing.machine word → ¬UsesTimers word ∧ ¬UsesKeys word := by
    rintro word ⟨high, low, hhigh, hlow, rfl⟩
    rw [hhigh, hlow] at hpeek
    cases hpeek.1
    cases hpeek.2
    exact ⟨by simp [UsesTimers], by simp [UsesKeys]⟩
  obtain ⟨hticks, hkeys⟩ := events_commute hreachable
  have htick := (hticks (fun word hat => (hword word hat).1) fun _ => []).1
  rw [hevents] at htick
  exact ⟨hreachable, hword, htick, (hkeys (fun word hat => (hword word hat).2) (.int 5) true).1⟩

end Chip8.Proofs.Host.Events
