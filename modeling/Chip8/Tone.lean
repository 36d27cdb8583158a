import Chip8.Registers

/-!
# Timers and the tone

The delay and sound timers count down with the host's ticks, not with instructions.  When the
sound timer reaches zero the tone ends: an event is latched until the host takes it, and the
listeners are called in the order in which they were added.  A listener may itself add and
remove listeners and take the event; such changes do not affect the calls of this expiry.
-/

namespace Chip8

inductive ToneAction where
  | add (name : Text)
  | remove (name : Text)
  | consume
  | observe
  deriving DecidableEq, Repr

inductive ToneEvent where
  | called (name : Text)
  | consumed (latched : Bool)
  | observed (sounding : Bool)
  deriving DecidableEq, Repr

/-- The latch of the tone's end, and the names of the listeners in the order of their adding. -/
structure Tone where
  ended : Bool := false
  listeners : List Text := []
  deriving DecidableEq, Repr

namespace Tone

def add (t : Tone) (name : Text) : Tone :=
  if name ∈ t.listeners then t else { t with listeners := t.listeners ++ [name] }

def remove (t : Tone) (name : Text) : Tone :=
  { t with listeners := t.listeners.erase name }

def consume (t : Tone) : Bool × Tone :=
  (t.ended, { t with ended := false })

def reset (t : Tone) : Tone :=
  { t with ended := false }

def perform (sound : Int) (t : Tone) : ToneAction → Tone × List ToneEvent
  | .add name => (t.add name, [])
  | .remove name => (t.remove name, [])
  | .consume => (t.consume.2, [.consumed t.consume.1])
  | .observe => (t, [.observed (decide (0 < sound))])

def performAll (sound : Int) : Tone → List ToneAction → Tone × List ToneEvent
  | t, [] => (t, [])
  | t, action :: rest =>
    let (t, events) := t.perform sound action
    let (t, later) := performAll sound t rest
    (t, events ++ later)

/-- Calls listeners one after the other; `script` says what each of them does. -/
def call (script : Text → List ToneAction) (sound : Int) :
    Tone → List Text → Tone × List ToneEvent
  | t, [] => (t, [])
  | t, name :: rest =>
    let (t, events) := performAll sound t (script name)
    let (t, later) := call script sound t rest
    (t, .called name :: events ++ later)

/-- The tone ends: latches the event and calls all listeners registered at this instant. -/
def expire (script : Text → List ToneAction) (sound : Int) (t : Tone) :
    Tone × List ToneEvent :=
  call script sound { t with ended := true } t.listeners

end Tone

def countDown (n : Int) : Int :=
  if 0 < n then n - 1 else n

def Registers.countDown (r : Registers) : Registers :=
  { r with delay := Chip8.countDown r.delay, sound := Chip8.countDown r.sound }

/-- One tick of both timers; when it stops the sound timer, the tone ends. -/
def tickTimers (script : Text → List ToneAction) (r : Registers) (t : Tone) :
    Registers × Tone × List ToneEvent :=
  let after := r.countDown
  if 0 < r.sound ∧ after.sound = 0 then
    let (t, events) := t.expire script after.sound
    (after, t, events)
  else (after, t, [])

end Chip8
