import Chip8.Proofs.Host.Events

/-!
# The timers and the end of a tone

The timers count down with the ticks of the host and stay at zero.  A tone ends with the tick that
moves the sound timer from one to zero.  The latch tells whether that has happened since the host
last asked for it or reset the machine, whatever instructions do to the timer in between.
-/

namespace Chip8.Proofs.Host.Timers

open Chip8.Proofs.Machine.Operations Chip8.Proofs.Host.Invariant Chip8.Proofs.Host.Events

def delay (h : Host) : Int := h.machine.core.registers.delay

def sound (h : Host) : Int := h.machine.core.registers.sound

def latched (h : Host) : Bool := h.machine.tone.ended

/-- Whether a tick would move the sound timer from one to zero. -/
def Expires (h : Host) : Prop := sound h = 1 ∧ sound (h.handle .tick).1 = 0

instance (h : Host) : Decidable (Expires h) := inferInstanceAs (Decidable (_ ∧ _))

def Clears : Request → Prop
  | .reset | .consumeTone => True
  | _ => False

/-- Listeners that leave the latch to the host. -/
def LeaveLatch (script : Text → List ToneAction) : Prop := ∀ name, .consume ∉ script name

def ticked (h : Host) (n : Nat) : Host := h.handleAll (List.replicate n .tick)

/-- How many of so many ticks move the sound timer from one to zero. -/
def expiries (h : Host) : Nat → Nat
  | 0 => 0
  | n + 1 => (if Expires h then 1 else 0) + expiries (h.handle .tick).1 n

/-! ## Listeners -/

section Listeners

variable {t : Tone} {value : Int} {script : Text → List ToneAction}

theorem ended_performAll {actions : List ToneAction} (h : .consume ∉ actions) :
    (Tone.performAll value t actions).1.ended = t.ended := by
  induction actions generalizing t with
  | nil => rfl
  | cons action rest ih =>
      have hfirst : .consume ≠ action := List.ne_of_not_mem_cons h
      have hlater : .consume ∉ rest := List.not_mem_of_not_mem_cons h
      have hstep : (t.perform value action).1.ended = t.ended := by
        cases action with
        | add name =>
            simp only [Tone.perform, Tone.add]
            split <;> rfl
        | remove name => rfl
        | consume => exact absurd rfl hfirst
        | observe => rfl
      exact (ih hlater).trans hstep

theorem ended_call (hscript : LeaveLatch script) (names : List Text) :
    (Tone.call script value t names).1.ended = t.ended := by
  induction names generalizing t with
  | nil => rfl
  | cons name rest ih => exact ih.trans (ended_performAll (hscript name))

end Listeners

/-! ## Ticks -/

section Ticks

variable {h : Host} {n : Nat}

theorem registers_tick (h : Host) :
    (h.handle .tick).1.machine.core.registers = h.machine.core.registers.countDown :=
  congrArg Core.registers (core_tick h.machine h.script)

theorem countDown_eq {z : Int} (hz : 0 ≤ z) : countDown z = max 0 (z - 1) := by
  unfold countDown
  split <;> omega

theorem delay_tick (hd : 0 ≤ delay h) : delay (h.handle .tick).1 = max 0 (delay h - 1) := by
  have hregisters := congrArg Registers.delay (registers_tick h)
  exact hregisters.trans (countDown_eq hd)

theorem sound_tick (hs : 0 ≤ sound h) : sound (h.handle .tick).1 = max 0 (sound h - 1) := by
  have hregisters := congrArg Registers.sound (registers_tick h)
  exact hregisters.trans (countDown_eq hs)

theorem expires_iff (hs : 0 ≤ sound h) : Expires h ↔ sound h = 1 := by
  unfold Expires
  rw [sound_tick hs]
  omega

/-- A tick tells the listeners of the end of a tone, and changes the tone in no other case. -/
theorem tone_tick (hs : 0 ≤ sound h) :
    ((h.handle .tick).1.machine.tone, (h.handle .tick).2.events) =
      if Expires h then h.machine.tone.expire h.script 0 else (h.machine.tone, []) := by
  have hboth : ((h.handle .tick).1.machine.tone, (h.handle .tick).2.events) =
      (tickTimers h.script h.machine.core.registers h.machine.tone).2 := by
    simp only [Host.handle, Host.perform, tick_eq]
    rfl
  have hsound : h.machine.core.registers.countDown.sound = max 0 (sound h - 1) := countDown_eq hs
  rw [hboth]
  unfold tickTimers
  dsimp only
  by_cases hend : Expires h
  · have hone := (expires_iff hs).1 hend
    have hzero : h.machine.core.registers.countDown.sound = 0 := by omega
    have hpos : 0 < h.machine.core.registers.sound := by
      change 0 < sound h
      omega
    rw [if_pos hend, if_pos ⟨hpos, hzero⟩, hzero]
  · have hne : sound h ≠ 1 := fun hone => hend ((expires_iff hs).2 hone)
    rw [if_neg hend, if_neg]
    rintro ⟨hpos, hzero⟩
    change 0 < sound h at hpos
    omega

theorem timers_ticked (hd : 0 ≤ delay h) (hs : 0 ≤ sound h) :
    delay (ticked h n) = max 0 (delay h - n) ∧ sound (ticked h n) = max 0 (sound h - n) := by
  induction n generalizing h with
  | zero =>
      change delay h = _ ∧ sound h = _
      omega
  | succ n ih =>
      have hdelay := delay_tick hd
      have hsound := sound_tick hs
      have hrest := ih (h := (h.handle .tick).1) (by omega) (by omega)
      change delay (ticked (h.handle .tick).1 n) = _ ∧ sound (ticked (h.handle .tick).1 n) = _
      omega

theorem expiries_eq (hs : 0 ≤ sound h) :
    expiries h n = if 1 ≤ sound h ∧ sound h ≤ n then 1 else 0 := by
  induction n generalizing h with
  | zero =>
      rw [if_neg (by omega)]
      rfl
  | succ n ih =>
      have hsound := sound_tick hs
      have hrest := ih (h := (h.handle .tick).1) (by omega)
      simp only [expiries, hrest, expires_iff hs]
      split <;> split <;> split <;> omega

theorem events_ticked (hs : 0 ≤ sound h) :
    (replies h (List.replicate n .tick)).flatMap Reply.events =
      if 1 ≤ sound h ∧ sound h ≤ n then (h.machine.tone.expire h.script 0).2 else [] := by
  induction n generalizing h with
  | zero =>
      rw [if_neg (by omega)]
      rfl
  | succ n ih =>
      have hsound := sound_tick hs
      have htone := tone_tick hs
      have hrest := ih (h := (h.handle .tick).1) (by omega)
      have hscript : (h.handle .tick).1.script = h.script := rfl
      rw [hscript] at hrest
      rw [List.replicate_succ, replies, List.flatMap_cons, hrest]
      by_cases hend : Expires h
      · have hone := (expires_iff hs).1 hend
        rw [if_pos hend] at htone
        have hevents : (h.handle .tick).2.events = _ := congrArg Prod.snd htone
        rw [hevents, if_neg (by omega), if_pos (by omega), List.append_nil]
      · have hne : sound h ≠ 1 := fun hone => hend ((expires_iff hs).2 hone)
        rw [if_neg hend] at htone
        obtain ⟨hsame, hsilent⟩ := Prod.mk.inj htone
        rw [hsilent, hsame, List.nil_append]
        have hiff : (1 ≤ sound (h.handle .tick).1 ∧ sound (h.handle .tick).1 ≤ n) ↔
            (1 ≤ sound h ∧ sound h ≤ (n + 1 : Nat)) := by omega
        simp only [hiff]

end Ticks

/-! ## The latch -/

section Latch

variable {s : Settings} {h : Host} {r : Request}

theorem tone_load (m : Machine) (image : Image) : (m.load image).1.tone = m.tone := by
  unfold Machine.load
  dsimp only
  split
  · rfl
  · split <;> rfl

theorem tone_setKey (m : Machine) (index : Value) (down : Bool) :
    (m.setKey index down).1.tone = m.tone := by
  rcases setKey_cases m index down with heq | ⟨keypad, heq⟩
  all_goals rw [heq]

theorem script_handle (hr : IsOperation r) : (h.handle r).1.script = h.script := by
  cases r with
  | load value =>
      cases himage : Image.ofValue value with
      | error e => simp only [Host.handle, perform_load_error himage]
      | ok image => simp only [Host.handle, perform_load_ok himage, Host.withMachine]
  | advance =>
      rcases heq : h.machine.advance with ⟨m, result⟩
      cases result with
      | error failure => simp only [Host.handle, perform_advance_error heq]
      | ok snapshot => simp only [Host.handle, perform_advance_ok heq]
  | restore number =>
      cases hitem : itemAt h.snapshots number with
      | error e => simp only [Host.handle, perform_restore_error hitem]
      | ok snapshot => simp only [Host.handle, perform_restore_ok hitem]
  | tick | setKey | reset | consumeTone | addListener | removeListener => rfl
  | _ => exact hr.elim

theorem latched_handle (hr : IsOperation r) (htick : r ≠ .tick) (hclears : ¬Clears r) :
    latched (h.handle r).1 = latched h := by
  cases r with
  | load value =>
      cases himage : Image.ofValue value with
      | error e => simp only [latched, Host.handle, perform_load_error himage, Machine.takeIgnored]
      | ok image =>
          simp only [latched, Host.handle, perform_load_ok himage, Machine.takeIgnored]
          exact congrArg Tone.ended (tone_load h.machine image)
  | advance =>
      have htone := tone_advance h.machine
      rcases heq : h.machine.advance with ⟨m, result⟩
      rw [heq] at htone
      cases result with
      | error failure =>
          simp only [latched, Host.handle, perform_advance_error heq]
          exact congrArg Tone.ended htone
      | ok snapshot =>
          simp only [latched, Host.handle, perform_advance_ok heq]
          exact congrArg Tone.ended htone
  | tick => exact absurd rfl htick
  | setKey index down => exact congrArg Tone.ended (tone_setKey h.machine index down)
  | reset | consumeTone => exact absurd trivial hclears
  | restore number =>
      cases hitem : itemAt h.snapshots number with
      | error e =>
          simp only [latched, Host.handle, perform_restore_error hitem, Machine.takeIgnored]
      | ok snapshot =>
          simp only [latched, Host.handle, perform_restore_ok hitem]
          rfl
  | addListener name =>
      change (h.machine.tone.add name).ended = h.machine.tone.ended
      unfold Tone.add
      split <;> rfl
  | removeListener name => rfl
  | _ => exact hr.elim

theorem latched_clears (hh : Held s h) (hclears : Clears r) : latched (h.handle r).1 = false := by
  cases r with
  | reset =>
      change h.machine.reset.1.tone.ended = false
      rw [reset_eq hh.fits.bus]
      rfl
  | consumeTone => rfl
  | _ => exact hclears.elim

theorem latched_tick (hscript : LeaveLatch h.script) (hs : 0 ≤ sound h) :
    latched (h.handle .tick).1 = true ↔ Expires h ∨ latched h = true := by
  have htone := congrArg (fun both => both.1.ended) (tone_tick hs)
  change latched (h.handle .tick).1 = _ at htone
  rw [htone]
  by_cases hend : Expires h
  · rw [if_pos hend]
    simp only [Tone.expire, ended_call hscript, hend, true_or]
  · rw [if_neg hend]
    simp only [hend, false_or]
    rfl

theorem latched_step (hh : Held s h) (hscript : LeaveLatch h.script) (hr : IsOperation r) :
    latched (h.handle r).1 = true ↔
      (r = .tick ∧ Expires h) ∨ (latched h = true ∧ ¬Clears r) := by
  by_cases htick : r = .tick
  · subst htick
    rw [latched_tick hscript hh.fits.registers.sound.1]
    simp [Clears]
  · by_cases hclears : Clears r
    · rw [latched_clears hh hclears]
      simp [htick, hclears]
    · rw [latched_handle hr htick hclears]
      simp [htick, hclears]

/-- The latch after a run: a tone ended and the latch was not cleared later, or it was set before
and never cleared. -/
theorem latched_handleAll (hh : Reachable s h) (hscript : LeaveLatch h.script)
    {requests : List Request} (hr : ∀ r ∈ requests, IsOperation r) :
    latched (h.handleAll requests) = true ↔
      (∃ before since, requests = before ++ .tick :: since ∧ Expires (h.handleAll before) ∧
        ∀ r ∈ since, ¬Clears r) ∨
      (latched h = true ∧ ∀ r ∈ requests, ¬Clears r) := by
  induction requests generalizing h with
  | nil => simp [Host.handleAll]
  | cons r rest ih =>
      obtain ⟨hfirst, hlater⟩ := List.forall_mem_cons.1 hr
      have hscript' : LeaveLatch (h.handle r).1.script := by
        rw [script_handle hfirst]
        exact hscript
      have hrest := ih (hh.request hfirst) hscript' hlater
      rw [Host.handleAll, hrest, latched_step hh.held hscript hfirst]
      constructor
      · rintro (⟨before, since, rfl, hend, hkept⟩ | ⟨⟨rfl, hend⟩ | ⟨hset, hkeeps⟩, hkept⟩)
        · exact .inl ⟨r :: before, since, rfl, hend, hkept⟩
        · exact .inl ⟨[], rest, rfl, hend, hkept⟩
        · exact .inr ⟨hset, List.forall_mem_cons.2 ⟨hkeeps, hkept⟩⟩
      · rintro (⟨before, since, heq, hend, hkept⟩ | ⟨hset, hkeeps⟩)
        · cases before with
          | nil =>
              obtain ⟨rfl, rfl⟩ := List.cons.inj heq
              exact .inr ⟨.inl ⟨rfl, hend⟩, hkept⟩
          | cons first before =>
              obtain ⟨rfl, rfl⟩ := List.cons.inj heq
              exact .inl ⟨before, since, rfl, hend, hkept⟩
        · obtain ⟨hkeepsFirst, hkeepsLater⟩ := List.forall_mem_cons.1 hkeeps
          exact .inr ⟨.inr ⟨hset, hkeepsFirst⟩, hkeepsLater⟩

theorem not_latched_built {m : Machine} (hm : Built s m) (script : Text → List ToneAction) :
    latched { machine := m, script } = false := by
  obtain ⟨b, random, -, rfl⟩ := hm.exists_bus
  rfl

end Latch

/-- After any operations the host is told that a tone ended if and only if some tick moved the sound
timer from one to zero since the machine was built, last reset and last asked.  No instruction
changes the latch or the listeners.  Ticks count the timers down to zero, and the tone ends once
among them if it sounds no longer than they last. -/
theorem tone_told {s : Settings} {m : Machine} (hm : Built s m) {script : Text → List ToneAction}
    (hscript : LeaveLatch script) {requests : List Request}
    (hr : ∀ r ∈ requests, IsOperation r) :
    let start : Host := { machine := m, script }
    let h := start.handleAll requests
    (∃ told, (h.handle .consumeTone).2.result = .ok (.flag told) ∧
      (told = true ↔ ∃ before since, requests = before ++ .tick :: since ∧
        Expires (start.handleAll before) ∧ ∀ r ∈ since, ¬Clears r)) ∧
    h.machine.advance.1.tone = h.machine.tone ∧
    ∀ n, delay (ticked h n) = max 0 (delay h - n) ∧ sound (ticked h n) = max 0 (sound h - n) ∧
      expiries h n = (if 1 ≤ sound h ∧ sound h ≤ n then 1 else 0) ∧
      (replies h (List.replicate n .tick)).flatMap Reply.events =
        if 1 ≤ sound h ∧ sound h ≤ n then (h.machine.tone.expire h.script 0).2 else [] := by
  intro start h
  have hstart : Reachable s start := .built hm script
  have hregisters := (hstart.handleAll hr).held.fits.registers
  have hlatch := latched_handleAll hstart hscript hr
  rw [not_latched_built hm script] at hlatch
  refine ⟨⟨latched h, rfl, by simpa using hlatch⟩, tone_advance h.machine, fun n => ?_⟩
  obtain ⟨hdelay, hsound⟩ :=
    timers_ticked (n := n) hregisters.delay.1 hregisters.sound.1
  exact ⟨hdelay, hsound, expiries_eq hregisters.sound.1, events_ticked hregisters.sound.1⟩

def tune : List Request :=
  [.load (.list [.int 0x60, .int 0x01, .int 0xF0, .int 0x18, .int 0xF1, .int 0x18]), .advance,
    .advance, .tick, .advance]

theorem tone_told_of_tune :
    Built { memorySize := 0x60, loadAddress := 0x50 }
      (newMachine { memorySize := 0x60, loadAddress := 0x50 }) ∧
    (LeaveLatch fun _ => [.observe]) ∧ (∀ r ∈ tune, IsOperation r) ∧
    ((Host.handleAll
      { machine := newMachine { memorySize := 0x60, loadAddress := 0x50 }
        script := fun _ => [.observe] } tune).handle .consumeTone).2.result = .ok (.flag true) := by
  have hbuilt := built_with 0x60 0x50 (by decide) (by decide) (by decide)
  have hscript : LeaveLatch fun _ => [.observe] := fun _ => by simp
  have hr : ∀ r ∈ tune, IsOperation r := by simp [tune, IsOperation]
  obtain ⟨⟨told, hresult, htold⟩, -⟩ := tone_told hbuilt hscript hr
  have htrue : told = true :=
    htold.2 ⟨tune.take 3, [.advance], rfl, by decide +kernel, by simp [Clears]⟩
  rw [htrue] at hresult
  exact ⟨hbuilt, hscript, hr, hresult⟩

end Chip8.Proofs.Host.Timers
