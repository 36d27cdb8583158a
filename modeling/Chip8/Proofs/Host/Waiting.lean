import Chip8.Proofs.Host.Alterations
import Chip8.Proofs.Host.Flow
import Chip8.Proofs.Host.Timers
import Mathlib.Data.List.Induction

/-!
# Waiting for a key

A machine in front of an instruction that waits for a key stays there until an advance finds a key
pressed.  Meanwhile its timers count down with the ticks, its cycles are counted, and nothing else
changes but the keys.  Keys that are released before the next advance are missed; of the keys that
are down at an advance the lowest is taken.
-/

namespace Chip8.Proofs.Host.Waiting

open Chip8.Memory
open Chip8.Proofs.Memory.Layout Chip8.Proofs.Instruction.Effect
open Chip8.Proofs.Instruction.Word Chip8.Proofs.Instruction.Cycle
open Chip8.Proofs.Machine.Representation Chip8.Proofs.Machine.Operations
open Chip8.Proofs.Host.Invariant Chip8.Proofs.Host.Failure
open Chip8.Proofs.Host.Alterations (result_handle_advance)
open Chip8.Proofs.Host.Flow (first?_eq_none_iff)
open Chip8.Proofs.Host.Timers (delay sound registers_tick countDown_eq)

/-! ## Requests -/

/-- The requests that a waiting machine may get. -/
def Passes : Request → Prop
  | .advance | .tick | .setKey _ _ => True
  | _ => False

def isAdvance : Request → Bool
  | .advance => true
  | _ => false

def isTick : Request → Bool
  | .tick => true
  | _ => false

def Sets (key : Fin 16) (down : Bool) (r : Request) : Prop :=
  ∃ index : Value, r = .setKey index down ∧ index.int? = some (key.val : Int)

/-- Whether the last of the requests that set a key presses it. -/
def LeftDown (requests : List Request) (key : Fin 16) : Prop :=
  ∃ before r since, requests = before ++ r :: since ∧ Sets key true r ∧
    ∀ later ∈ since, ∀ down, ¬Sets key down later

def AtRest (h : Host) : Prop :=
  ∀ key, h.machine.core.hardware.keypad.pressed key = false

instance (h : Host) : Decidable (AtRest h) := inferInstanceAs (Decidable (∀ _, _))

/-- A host whose machine has waited since `h` while it got some requests. -/
structure Waited (h next : Host) (requests : List Request) : Prop where
  pc : next.machine.core.pc = h.machine.core.pc
  registers : next.machine.core.registers =
    { h.machine.core.registers with
      delay := max 0 (delay h - requests.countP isTick)
      sound := max 0 (sound h - requests.countP isTick) }
  memory : next.machine.core.bus.peek = h.machine.core.bus.peek
  display : next.machine.core.hardware.display = h.machine.core.hardware.display
  random : next.machine.core.hardware.random = h.machine.core.hardware.random
  cycles : next.machine.core.cycles = h.machine.core.cycles + requests.countP isAdvance
  keys : ∀ key, next.machine.core.hardware.keypad.pressed key = true ↔ LeftDown requests key

theorem Passes.isOperation {r : Request} (hr : Passes r) : IsOperation r := by
  cases r with
  | advance | tick | setKey => trivial
  | _ => exact hr.elim

/-! ## Keys -/

section Keys

variable {keypad : Keypad} {key : Fin 16} {down : Bool} {index : Value} {r : Request}
  {requests : List Request}

theorem first?_eq_some (hdown : keypad.pressed key = true)
    (hlowest : ∀ lower < key, keypad.pressed lower = false) : keypad.first? = some key := by
  unfold Keypad.first?
  rw [List.find?_eq_some_iff_getElem]
  refine ⟨hdown, key.val, by simp, by simp, fun i hi => ?_⟩
  have hlow : (⟨i, by omega⟩ : Fin 16) < key := hi
  simpa using hlowest _ hlow

theorem pressed_put (keypad : Keypad) (key other : Fin 16) (down : Bool) :
    (keypad.put key down).pressed other = if other = key then down else keypad.pressed other := by
  change (keypad.keys.setIfInBounds key.val down)[other.val] =
    if other = key then down else keypad.keys[other.val]
  simp only [Vector.getElem_setIfInBounds, Fin.ext_iff, eq_comm]

theorem key?_eq_some_iff {n : Int} : Keypad.key? n = some key ↔ n = key.val := by
  unfold Keypad.key? below?
  split
  · simp only [Option.some.injEq, Fin.ext_iff]
    omega
  · simp only [reduceCtorEq, false_iff]
    omega

theorem sets_setKey_iff {d : Bool} :
    Sets key d (.setKey index down) ↔ d = down ∧ index.int? = some (key.val : Int) := by
  constructor
  · rintro ⟨_, heq, hindex⟩
    cases heq
    exact ⟨rfl, hindex⟩
  · rintro ⟨rfl, hindex⟩
    exact ⟨index, rfl, hindex⟩

theorem pressed_setKey (m : Machine) :
    (m.setKey index down).1.core.hardware.keypad.pressed key = true ↔
      Sets key true (.setKey index down) ∨
        (m.core.hardware.keypad.pressed key = true ∧ ∀ d, ¬Sets key d (.setKey index down)) := by
  simp only [sets_setKey_iff]
  unfold Machine.setKey Keypad.set
  cases hnamed : index.int?.bind Keypad.key? with
  | none =>
      have hnot : index.int? ≠ some (key.val : Int) := by
        intro hindex
        rw [hindex, Option.bind_some, key?_eq_some_iff.2 rfl] at hnamed
        cases hnamed
      simp [hnot]
  | some named =>
      obtain ⟨n, hindex, hn⟩ := Option.bind_eq_some_iff.1 hnamed
      rw [key?_eq_some_iff] at hn
      have hiff : index.int? = some (key.val : Int) ↔ key = named := by
        rw [hindex, hn, Option.some.injEq, Fin.ext_iff]
        omega
      simp only [hiff, pressed_put]
      by_cases heq : key = named
      · subst heq
        cases down <;> simp
      · simp [heq]

theorem leftDown_concat :
    LeftDown (requests ++ [r]) key ↔
      Sets key true r ∨ (LeftDown requests key ∧ ∀ down, ¬Sets key down r) := by
  constructor
  · rintro ⟨before, q, since, heq, hdown, hkept⟩
    rcases List.eq_nil_or_concat since with rfl | ⟨middle, last, rfl⟩
    · obtain ⟨-, hlast⟩ := List.append_inj' heq rfl
      cases hlast
      exact .inl hdown
    · rw [List.concat_eq_append] at heq hkept
      have hsplit : requests ++ [r] = (before ++ q :: middle) ++ [last] := by simpa using heq
      obtain ⟨rfl, hlast⟩ := List.append_inj' hsplit rfl
      cases hlast
      obtain ⟨hmiddle, hr⟩ := List.forall_mem_append.1 hkept
      exact .inr ⟨⟨before, q, middle, rfl, hdown, hmiddle⟩, hr r List.mem_cons_self⟩
  · rintro (hdown | ⟨⟨before, q, since, rfl, hdown, hkept⟩, hr⟩)
    · exact ⟨requests, r, [], rfl, hdown, by simp⟩
    · refine ⟨before, q, since ++ [r], by simp, hdown, ?_⟩
      rw [List.forall_mem_append]
      exact ⟨hkept, by simpa using hr⟩

end Keys

/-! ## Steps -/

/-- What a request does to a machine that waits. -/
structure Rests (m after : Machine) (r : Request) : Prop where
  core : ∃ bus keypad, bus.peek = m.core.bus.peek ∧
    after.core =
      { m.core with
        registers := if isTick r then m.core.registers.countDown else m.core.registers
        bus := bus
        hardware := { m.core.hardware with keypad }
        cycles := if isAdvance r then m.core.cycles + 1 else m.core.cycles }
  keys : ∀ key, after.core.hardware.keypad.pressed key = true ↔
    Sets key true r ∨ (m.core.hardware.keypad.pressed key = true ∧ ∀ d, ¬Sets key d r)

section Steps

variable {m after : Machine} {size word : Int} {r : Request}

theorem Rests.taken (h : Rests m after r) : Rests m after.takeIgnored.1 r := by
  obtain ⟨⟨bus, keypad, hpeek, hcore⟩, hkeys⟩ := h
  refine ⟨⟨bus.takeIgnored.2, keypad, hpeek, ?_⟩, hkeys⟩
  unfold Machine.takeIgnored
  dsimp only
  rw [hcore]

theorem rests_keys (hkeypad : after.core.hardware.keypad = m.core.hardware.keypad)
    (hr : ∀ index down, r ≠ .setKey index down) (key : Fin 16) :
    after.core.hardware.keypad.pressed key = true ↔
      Sets key true r ∨ (m.core.hardware.keypad.pressed key = true ∧ ∀ d, ¬Sets key d r) := by
  have hnot : ∀ d, ¬Sets key d r := by
    rintro d ⟨index, heq, -⟩
    exact hr index d heq
  simp only [hkeypad, hnot, not_false_eq_true, implies_true, and_true, false_or]

theorem advance_waitKey (h : Wide m.setup size m.core) (hat : AtPc m word)
    (hform : Form.ofOpcode? word = some .waitKey) :
    m.advance = ({ m with core := stepped m.setup .waitKey m.core },
      .ok (recorded m.setup .waitKey m.core)) :=
  advance_of_atPc h hat hform (not_blocked (by decide) _)

theorem stepped_eq (setup : Setup) (c : MachineCore) :
    stepped setup .waitKey c =
      { c with
        pc := if c.hardware.keypad.first?.isSome then (c.pc + 2) % 65536
          else ((c.pc + 2) % 65536 - 2) % 65536
        registers := c.hardware.keypad.first?.elim c.registers
          fun key => c.registers.set (Opcode.x (wordAt c.bus c.pc)) key.val
        bus := c.bus.takeLog.2
        cycles := c.cycles + 1 } := rfl

theorem rests_advance (h : Wide m.setup size m.core) (hpc : IsWord m.core.pc)
    (hat : AtPc m word) (hform : Form.ofOpcode? word = some .waitKey)
    (hrest : ∀ key, m.core.hardware.keypad.pressed key = false) :
    Rests m m.advance.1 .advance := by
  have hnone : m.core.hardware.keypad.first? = none := (first?_eq_none_iff _).2 hrest
  have hback : ((m.core.pc + 2) % 65536 - 2) % 65536 = m.core.pc := by omega
  rw [advance_waitKey h hat hform]
  refine ⟨⟨m.core.bus.takeLog.2, m.core.hardware.keypad, rfl, ?_⟩, rests_keys rfl nofun⟩
  rw [stepped_eq, hnone]
  simp only [Option.isSome_none, Bool.false_eq_true, if_false, hback, Option.elim_none]
  rfl

theorem rests_tick (m : Machine) (script : Text → List ToneAction) :
    Rests m (m.tick script).1 .tick := by
  have hcore := core_tick m script
  refine ⟨⟨m.core.bus, m.core.hardware.keypad, rfl, hcore⟩, rests_keys ?_ nofun⟩
  rw [hcore]

theorem rests_setKey (m : Machine) (index : Value) (down : Bool) :
    Rests m (m.setKey index down).1 (.setKey index down) := by
  refine ⟨?_, fun key => pressed_setKey m⟩
  rcases setKey_cases m index down with heq | ⟨keypad, heq⟩
  · rw [heq]
    exact ⟨m.core.bus, m.core.hardware.keypad, rfl, rfl⟩
  · rw [heq]
    exact ⟨m.core.bus, keypad, rfl, rfl⟩

end Steps

/-! ## Runs -/

section Runs

variable {s : Settings} {h next after : Host} {requests : List Request} {r : Request} {word : Int}

theorem Waited.start (hd : 0 ≤ delay h) (hs : 0 ≤ sound h) (hrest : AtRest h) :
    Waited h h [] where
  pc := rfl
  registers := by
    rw [List.countP_nil, Int.natCast_zero, Int.sub_zero, Int.sub_zero, Int.max_eq_right hd,
      Int.max_eq_right hs]
    rfl
  memory := rfl
  display := rfl
  random := rfl
  cycles := (Int.add_zero _).symm
  keys key := by
    rw [hrest key]
    simp [LeftDown]

theorem Waited.step (hw : Waited h next requests) (hr : Rests next.machine after.machine r) :
    Waited h after (requests ++ [r]) := by
  obtain ⟨⟨bus, keypad, hpeek, hcore⟩, hkeys⟩ := hr
  constructor
  case pc => exact (congrArg Core.pc hcore).trans hw.pc
  case registers =>
    rw [hcore, hw.registers, List.countP_append, List.countP_singleton]
    cases isTick r with
    | false => rfl
    | true =>
        simp only [if_true, Registers.countDown, countDown_eq (Int.le_max_left _ _)]
        congr 1 <;> omega
  case memory => exact (congrArg (·.bus.peek) hcore).trans (hpeek.trans hw.memory)
  case display => exact (congrArg (·.hardware.display) hcore).trans hw.display
  case random => exact (congrArg (·.hardware.random) hcore).trans hw.random
  case cycles =>
    rw [hcore, hw.cycles, List.countP_append, List.countP_singleton]
    cases isAdvance r with
    | false => rfl
    | true =>
        simp only [if_true]
        omega
  case keys =>
    intro key
    rw [hkeys key, hw.keys key, leftDown_concat]

theorem Waited.atPc (hw : Waited h next requests) (hat : AtPc h.machine word) :
    AtPc next.machine word := by
  unfold AtPc
  rw [hw.pc, hw.memory]
  exact hat

theorem machine_handle_advance (h : Host) :
    (h.handle .advance).1.machine = h.machine.advance.1.takeIgnored.1 := by
  rcases heq : h.machine.advance with ⟨m, result⟩
  cases result with
  | error failure => simp only [Host.handle, perform_advance_error heq]
  | ok snapshot => simp only [Host.handle, perform_advance_ok heq]

theorem rests_handle (hh : Held s h) (hpc : IsWord h.machine.core.pc) (hat : AtPc h.machine word)
    (hform : Form.ofOpcode? word = some .waitKey) (hr : Passes r)
    (hrest : r = .advance → AtRest h) : Rests h.machine (h.handle r).1.machine r := by
  cases r with
  | advance =>
      rw [machine_handle_advance]
      exact (rests_advance hh.fits hpc hat hform (hrest rfl)).taken
  | tick => exact (rests_tick h.machine h.script).taken
  | setKey index down => exact (rests_setKey h.machine index down).taken
  | _ => exact hr.elim

theorem waited_handleAll (hh : Reachable s h) (hword : s.loadAddress ≤ 0xFFFF)
    (hat : AtPc h.machine word) (hform : Form.ofOpcode? word = some .waitKey) (hrest : AtRest h)
    (hr : ∀ r ∈ requests, Passes r)
    (hidle : ∀ before, before ++ [.advance] <+: requests → AtRest (h.handleAll before)) :
    Waited h (h.handleAll requests) requests := by
  -- What the last request finds is what the requests before it have led to.
  induction requests using List.reverseRecOn with
  | nil =>
      have hregisters := hh.held.fits.registers
      exact .start hregisters.delay.1 hregisters.sound.1 hrest
  | append_singleton earlier last ih =>
      obtain ⟨hearlier, hlast⟩ := List.forall_mem_append.1 hr
      have hw := ih hearlier fun before hbefore =>
        hidle before (hbefore.trans (List.prefix_append _ _))
      have hreached := hh.handleAll fun r hr => (hearlier r hr).isOperation
      have hpc : IsWord (h.handleAll earlier).machine.core.pc := (hreached.steady hword).fit.pc
      rw [handleAll_append]
      apply hw.step
      apply rests_handle hreached.held hpc (hw.atPc hat) hform (hlast last List.mem_cons_self)
      rintro rfl
      exact hidle earlier (List.prefix_refl _)

end Runs

/-- While no advance finds a key pressed, every advance carries the waiting instruction out again,
and the machine has waited.  The first advance that finds keys pressed takes the lowest of those
that the last request for them has pressed, and the machine goes on. -/
theorem wait_stable {s : Settings} {h : Host} (hh : Reachable s h) (hword : s.loadAddress ≤ 0xFFFF)
    {word : Int} (hat : AtPc h.machine word) (hhigh : word / 0x1000 = 0xF)
    (hlow : word % 0x100 = 0x0A) (hrest : AtRest h) {requests : List Request}
    (hr : ∀ r ∈ requests, Passes r)
    (hidle : ∀ before, before ++ [.advance] <+: requests → AtRest (h.handleAll before)) :
    let next := h.handleAll requests
    (∀ before, before ++ [.advance] <+: requests → ∃ snapshot,
      ((h.handleAll before).handle .advance).2.result = .ok (.snapshot snapshot) ∧
        snapshot.operation.opcode = word ∧ snapshot.displayChanged = false) ∧
    Waited h next requests ∧
    ∀ key, LeftDown requests key → (∀ lower < key, ¬LeftDown requests lower) →
      ∃ snapshot, (next.handle .advance).2.result = .ok (.snapshot snapshot) ∧
        (next.handle .advance).1.machine.core.pc = (h.machine.core.pc + 2) % 0x10000 ∧
        ∀ n, (next.handle .advance).1.machine.core.registers.get n =
          if n = Opcode.x word then (key.val : Int) else h.machine.core.registers.get n := by
  intro next
  have hform : Form.ofOpcode? word = some .waitKey := by
    have hisWord : IsWord word :=
      ((atPc_iff hh.held.fits).1 hat).2 ▸ isWord_wordAt hh.held.fits.bus h.machine.core.pc
    exact (ofOpcode?_outer .waitKey (by decide) rfl (by decide) hisWord).2 ⟨hhigh, hlow⟩
  have hreached : Reachable s next := hh.handleAll fun r hmem => (hr r hmem).isOperation
  have hw : Waited h next requests := waited_handleAll hh hword hat hform hrest hr hidle
  refine ⟨fun before hbefore => ?again, hw, fun key hdown hlowest => ?taken⟩
  case again =>
    have hpasses : ∀ r ∈ before, Passes r := fun r hmem =>
      hr r (hbefore.subset (List.mem_append_left _ hmem))
    have hbeforeIdle : ∀ first, first ++ [.advance] <+: before → AtRest (h.handleAll first) :=
      fun first hfirst => hidle first (hfirst.trans ((List.prefix_append _ _).trans hbefore))
    have hwBefore := waited_handleAll hh hword hat hform hrest hpasses hbeforeIdle
    have hheld := (hh.handleAll fun r hmem => (hpasses r hmem).isOperation).held
    have hatBefore := hwBefore.atPc hat
    have hopcode := ((atPc_iff hheld.fits).1 hatBefore).2
    have hadvance := advance_waitKey hheld.fits hatBefore hform
    exact ⟨_, result_handle_advance (congrArg Prod.snd hadvance), hopcode.symm, rfl⟩
  case taken =>
    have hatNext := hw.atPc hat
    have hopcode := ((atPc_iff hreached.held.fits).1 hatNext).2
    have hadvance := advance_waitKey hreached.held.fits hatNext hform
    have hfirst : next.machine.core.hardware.keypad.first? = some key :=
      first?_eq_some ((hw.keys key).2 hdown) fun lower hlt =>
        Bool.eq_false_iff.2 fun hpressed => hlowest lower hlt ((hw.keys lower).1 hpressed)
    have hmachine := machine_handle_advance next
    rw [hadvance, stepped_eq, hfirst, ← hopcode] at hmachine
    have hkept : next.machine.core.registers.get = h.machine.core.registers.get := by
      rw [hw.registers]
      rfl
    refine ⟨_, result_handle_advance (congrArg Prod.snd hadvance), ?_, fun n => ?_⟩
    · have hpc : (next.handle .advance).1.machine.core.pc = (next.machine.core.pc + 2) % 0x10000 :=
        congrArg (·.core.pc) hmachine
      rw [hpc, hw.pc]
    · have hset : (next.handle .advance).1.machine.core.registers =
          next.machine.core.registers.set (Opcode.x word) key.val :=
        congrArg (·.core.registers) hmachine
      have hbyte : (key.val : Int) % 256 = key.val := by omega
      rw [hset, get_set, hkept, hbyte]

def waitingForKey : Host :=
  Host.handleAll { machine := newMachine { memorySize := 0x60, loadAddress := 0x50 } }
    [.load (.list [.int 0xF3, .int 0x0A])]

def pressing : List Request :=
  [.advance, .tick, .setKey (.int 9) true, .setKey (.int 9) false, .advance,
    .setKey (.int 7) true, .setKey (.int 4) true]

theorem wait_stable_pressing :
    Reachable { memorySize := 0x60, loadAddress := 0x50 } waitingForKey ∧
    Waited waitingForKey (waitingForKey.handleAll pressing) pressing ∧
    let next := (waitingForKey.handleAll pressing).handle .advance
    ∃ snapshot, next.2.result = .ok (.snapshot snapshot) ∧ next.1.machine.core.pc = 0x52 ∧
      next.1.machine.core.registers.get 3 = 4 := by
  have hreachable : Reachable { memorySize := 0x60, loadAddress := 0x50 } waitingForKey :=
    reachable_small (by simp [IsOperation])
  have hat : AtPc waitingForKey.machine 0xF30A :=
    (atPc_iff hreachable.held.fits).2 (by decide +kernel)
  have hpc : waitingForKey.machine.core.pc = 0x50 := by decide +kernel
  have hpasses : ∀ r ∈ pressing, Passes r := by simp [pressing, Passes]
  have hidle : ∀ before, before ++ [.advance] <+: pressing →
      AtRest (waitingForKey.handleAll before) := by
    rintro before ⟨since, heq⟩
    have hatAdvances : ∀ n < pressing.length, pressing[n]?.any isAdvance = true →
        AtRest (waitingForKey.handleAll (pressing.take n)) := by decide +kernel
    have hbefore : before = pressing.take before.length := by simp [← heq]
    rw [hbefore]
    apply hatAdvances before.length
    · simp [← heq]
    · simp [← heq, isAdvance]
  have hdown : LeftDown pressing 4 :=
    ⟨pressing.take 6, .setKey (.int 4) true, [], rfl, ⟨.int 4, rfl, rfl⟩, by simp⟩
  have hlowest : ∀ lower < (4 : Fin 16), ¬LeftDown pressing lower := by
    rintro lower hlt ⟨before, r, since, heq, ⟨index, rfl, hindex⟩, -⟩
    have hmem : Request.setKey index true ∈ pressing := by simp [heq]
    have hpressed : index = .int 9 ∨ index = .int 7 ∨ index = .int 4 := by
      simpa [pressing] using hmem
    rcases hpressed with rfl | rfl | rfl
    all_goals
      have hvalue := Option.some.inj hindex
      omega
  obtain ⟨-, hwaited, htaken⟩ :=
    wait_stable hreachable (by decide) hat (by decide) (by decide) (by decide +kernel) hpasses hidle
  obtain ⟨snapshot, hresult, hnext, hregisters⟩ := htaken 4 hdown hlowest
  refine ⟨hreachable, hwaited, snapshot, hresult, ?_, ?_⟩
  · rw [hnext, hpc]
    decide
  · rw [hregisters 3]
    rfl

end Chip8.Proofs.Host.Waiting
