import Chip8.Proofs.Memory.Regions
import Chip8.Proofs.Processor.Contract

/-!
# The log of a bus

The logs that were taken from a bus, and the one that is left, are together the reads and writes
that succeeded, each once and in the order in which they were made.
-/

namespace Chip8.Proofs.Memory.Log

open Chip8.Memory Chip8.Proofs.Memory.Regions Chip8.Proofs.Processor.Contract

/-! ## Calls -/

inductive BusCall where
  | create (d : Device)
  | attach (first last : Int) (attachment : Attachment)
  | read (address : Int)
  | write (address value : Int)
  | peek (address : Int)
  | load (address value : Int)
  | takeLog

inductive BusReply where
  | done
  | byte (value : Int)
  | log (entries : List Access)
  | refused (e : Error)

/-- A call that gives a bus, or is refused and leaves the bus as it was. -/
def changed (b : Bus) : Except Error Bus → Bus × BusReply
  | .ok b' => (b', .done)
  | .error e => (b, .refused e)

def perform (b : Bus) : BusCall → Bus × BusReply
  | .create d => ((b.addDevice d).1, .done)
  | .attach first last attachment => changed b (b.attach first last attachment)
  | .read address =>
    match b.read address with
    | .ok (value, b') => (b', .byte value)
    | .error e => (b, .refused e)
  | .write address value => changed b (b.write address value)
  | .peek address =>
    match b.peek address with
    | .ok value => (b, .byte value)
    | .error e => (b, .refused e)
  | .load address value => changed b (b.load address value)
  | .takeLog => (b.takeLog.2, .log b.takeLog.1)

def after : Bus → List BusCall → Bus
  | b, [] => b
  | b, call :: rest => after (perform b call).1 rest

def transcript : Bus → List BusCall → List (BusCall × BusReply)
  | _, [] => []
  | b, call :: rest => (call, (perform b call).2) :: transcript (perform b call).1 rest

/-! ## What calls say -/

def handedOut : BusReply → List Access
  | .log entries => entries
  | _ => []

/-- What a call with its answer says was read or written. -/
def accessed : BusCall × BusReply → List Access
  | (.read address, .byte value) => [⟨address, value, .read⟩]
  | (.write address value, .done) => [⟨address, value, .write⟩]
  | _ => []

def drained (b : Bus) (calls : List BusCall) : List Access :=
  (transcript b calls).flatMap fun entry => handedOut entry.2

def accesses (b : Bus) (calls : List BusCall) : List Access :=
  (transcript b calls).flatMap accessed

/-- The device that answers at an address has it, and ignores writes. -/
def Ignores (b : Bus) (address : Int) : Prop :=
  ∃ r, Serves b address r ∧ (b.device r.device).isReadOnly ∧
    (b.device r.device).offsetError? (address - r.first) = none

/-! ## One call -/

section Call

variable {b b' : Bus} {a value : Int}

theorem log_read (h : b.read a = .ok (value, b')) :
    b'.log = b.log ++ [⟨a, value, .read⟩] := by
  unfold Bus.read at h
  split at h <;> cases h
  rfl

theorem log_write (h : b.write a value = .ok b') :
    b'.log = b.log ++ [⟨a, value, .write⟩] := by
  unfold Bus.write at h
  cases herror : b.writeError? a value with
  | some e =>
      rw [herror] at h
      cases h
  | none =>
      rw [herror] at h
      cases h
      exact log_written herror

theorem log_load (h : b.load a value = .ok b') : b'.log = b.log := by
  unfold Bus.load at h
  split at h <;> cases h
  unfold Bus.loaded
  split <;> rfl

/-- A call hands entries out or adds what was accessed, and loses none. -/
theorem log_perform (b : Bus) (call : BusCall) :
    handedOut (perform b call).2 ++ (perform b call).1.log =
      b.log ++ accessed (call, (perform b call).2) := by
  cases call with
  | create d => simp [perform, Bus.addDevice, handedOut, accessed]
  | attach first last attachment =>
      cases h : b.attach first last attachment with
      | ok b' =>
          obtain ⟨number, -, rfl, -⟩ := attach_ok h
          simp [perform, h, changed, handedOut, accessed]
      | error e => simp [perform, h, changed, handedOut, accessed]
  | read address =>
      cases h : b.read address with
      | ok found => simp [perform, h, handedOut, accessed, log_read h]
      | error e => simp [perform, h, handedOut, accessed]
  | write address value =>
      cases h : b.write address value with
      | ok b' => simp [perform, h, changed, handedOut, accessed, log_write h]
      | error e => simp [perform, h, changed, handedOut, accessed]
  | peek address =>
      cases h : b.peek address <;> simp [perform, h, handedOut, accessed]
  | load address value =>
      cases h : b.load address value with
      | ok b' => simp [perform, h, changed, handedOut, accessed, log_load h]
      | error e => simp [perform, h, changed, handedOut, accessed]
  | takeLog => simp [perform, Bus.takeLog, handedOut, accessed]

theorem perform_write_ignored (h : Ignores b a) (value : Int) :
    (perform b (.write a value)).2 = .done ∧
      ∀ number, (perform b (.write a value)).1.device number = b.device number := by
  obtain ⟨r, hserves, hreadOnly, hoffset⟩ := h
  have hregion := region?_eq_some_iff.2 hserves
  have herror : b.writeError? a value = none := by
    simp only [Bus.writeError?, hregion, Device.writeError?, hreadOnly, hoffset, if_true]
  have hwrite : b.write a value = .ok (b.written a value) := by
    rw [Bus.write, herror]
  have hsame : Device.written (a - r.first) value (b.device r.device) = b.device r.device := by
    rw [Device.written, if_pos hreadOnly]
  rw [perform, hwrite]
  refine ⟨rfl, fun number => ?_⟩
  simp only [changed, Bus.written, hregion, Bus.deviceWritten, Bus.device,
    Array.getD_eq_getD_getElem?, Array.getElem?_modify] at hsame ⊢
  split
  · next heq =>
      subst heq
      cases hd : b.devices[r.device]? with
      | none => rfl
      | some d =>
          rw [hd] at hsame
          exact hsame
  · rfl

end Call

/-! ## Runs -/

/-- However calls are mixed, and whichever of them are refused, the entries handed out and those
left are the reads and writes that were told to succeed, after what was there at first.  A write
that a read-only device ignores is told to succeed. -/
theorem log_exact (b : Bus) (calls : List BusCall) :
    drained b calls ++ (after b calls).log = b.log ++ accesses b calls ∧
      ∀ a value, Ignores (after b calls) a →
        (perform (after b calls) (.write a value)).2 = .done ∧
          ∀ number, (perform (after b calls) (.write a value)).1.device number =
            (after b calls).device number := by
  refine ⟨?_, fun a value h => perform_write_ignored h value⟩
  induction calls generalizing b with
  | nil => exact (List.append_nil _).symm
  | cons call rest ih =>
      calc drained b (call :: rest) ++ (after b (call :: rest)).log
          = handedOut (perform b call).2 ++
              (drained (perform b call).1 rest ++ (after (perform b call).1 rest).log) :=
            List.append_assoc ..
        _ = handedOut (perform b call).2 ++
              ((perform b call).1.log ++ accesses (perform b call).1 rest) := by rw [ih]
        _ = b.log ++ accessed (call, (perform b call).2) ++ accesses (perform b call).1 rest := by
            rw [← List.append_assoc, log_perform]
        _ = b.log ++ accesses b (call :: rest) := List.append_assoc ..

def twoCells : Bus where
  devices := #[.cells .rom (.int 1) #[0x12], .cells .ram (.int 1) #[0]]
  regions := [⟨0, 0, 0⟩, ⟨1, 1, 1⟩]

def mixedCalls : List BusCall := [.write 0 5, .read 0, .takeLog, .write 2 1, .peek 1, .write 1 7]

theorem log_exact_over_read_only :
    Ignores (after twoCells mixedCalls) 0 ∧
    drained twoCells mixedCalls ++ (after twoCells mixedCalls).log =
      [⟨0, 5, .write⟩, ⟨0, 0x12, .read⟩, ⟨1, 7, .write⟩] ∧
    (perform (after twoCells mixedCalls) (.write 0 9)).2 = .done ∧
    (perform (after twoCells mixedCalls) (.write 0 9)).1.device 0 =
      .cells .rom (.int 1) #[0x12] := by
  obtain ⟨hlog, hwrite⟩ := log_exact twoCells mixedCalls
  have hignores : Ignores (after twoCells mixedCalls) 0 :=
    ⟨⟨0, 0, 0⟩, region?_eq_some_iff.1 rfl, rfl, rfl⟩
  obtain ⟨hdone, hsame⟩ := hwrite 0 9 hignores
  exact ⟨hignores, hlog.trans rfl, hdone, (hsame 0).trans rfl⟩

end Chip8.Proofs.Memory.Log
