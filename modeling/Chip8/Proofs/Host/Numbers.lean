import Chip8.Proofs.Host.Stream

/-!
# Random numbers in a run

The machine draws its random numbers from one stream, a byte for each Cxnn that is carried out.  No
other operation, no failure and no reset moves the stream on, so that under a seed the numbers of a
run are the bytes of the stream one after the other.
-/

namespace Chip8.Proofs.Host.Numbers

open Chip8.Instruction
open Chip8.Proofs.Memory.Layout Chip8.Proofs.Instruction.Effect Chip8.Proofs.Instruction.Word
open Chip8.Proofs.Instruction.Cycle Chip8.Proofs.Machine.Operations
open Chip8.Proofs.Host.Invariant Chip8.Proofs.Host.Stream

def stream (h : Host) : Random.Stream := h.machine.core.hardware.random

instance (reply : Reply) : Decidable (Draws reply) :=
  match hresult : reply.result with
  | .ok (.snapshot s) =>
    decidable_of_iff (s.operation.opcode / 0x1000 = 0xC) <| by
      simp only [Draws, hresult, Except.ok.injEq, Answer.snapshot.injEq, exists_eq_left']
  | .ok .done | .ok (.value _) | .ok (.flag _) | .ok (.latest _) | .error _ =>
    isFalse <| by simp [Draws, hresult]

def drawCount (replies : List Reply) : Nat := replies.countP fun reply => decide (Draws reply)

/-! ## Bytes -/

section Bytes

theorem after_draw (r : Random.Stream) (n : Nat) : r.draw.2.after n = r.after (n + 1) := by
  induction n with
  | zero => rfl
  | succ n ih => exact congrArg (fun r : Random.Stream => r.draw.2) ih

theorem set_byteAnd {a b : Int} (ha : IsByte a) (hb : IsByte b) (r : Registers) (x : Fin 16) :
    r.set x (Registers.byteAnd a b) = r.putRaw x ((a.toNat &&& b.toNat : Nat) : Int) := by
  have hle : a.toNat &&& b.toNat ≤ a.toNat := Nat.and_le_left
  have ha' : a % 256 = a := by omega
  have hb' : b % 256 = b := by omega
  have hbyte : ((a.toNat &&& b.toNat : Nat) : Int) % 256 = (a.toNat &&& b.toNat : Nat) := by omega
  simp only [Registers.set, Registers.putRaw, Registers.byteAnd, ha', hb', hbyte]

theorem isByte_draw (r : Random.Stream) : IsByte r.draw.1 := by
  have hnonneg := r.draw_nonneg
  have hlt := r.draw_lt
  omega

theorem isByte_nn (opcode : Int) : IsByte (Opcode.nn opcode) := by
  unfold Opcode.nn
  omega

end Bytes

/-! ## Operations -/

section Operations

variable {s : Settings} {h : Host} {r : Request}

theorem stream_handle (hh : Held s h) (hr : IsOperation r) (hdraw : ¬Draws (h.handle r).2) :
    stream (h.handle r).1 = stream h := by
  have hsame : (redrawn h (stream h)).handle r = _ := handle_redrawn hh hr (stream h) hdraw
  exact congrArg (fun result => stream result.1) hsame

theorem eq_advance_of_draws (hr : IsOperation r) (hdraw : Draws (h.handle r).2) : r = .advance := by
  obtain ⟨snapshot, hresult, -⟩ := hdraw
  cases r with
  | advance => rfl
  | load value =>
      cases himage : Image.ofValue value with
      | error e =>
          simp only [Host.handle, perform_load_error himage] at hresult
          cases hresult
      | ok image =>
          simp only [Host.handle, perform_load_ok himage, Host.withMachine] at hresult
          cases hload : (h.machine.load image).2 <;> rw [hload] at hresult <;> cases hresult
  | setKey index down =>
      simp only [Host.handle, Host.perform, Host.withMachine] at hresult
      cases hset : (h.machine.setKey index down).2 <;> rw [hset] at hresult <;> cases hresult
  | reset =>
      simp only [Host.handle, Host.perform, Host.withMachine] at hresult
      cases hreset : h.machine.reset.2 <;> rw [hreset] at hresult <;> cases hresult
  | restore number =>
      cases hitem : itemAt h.snapshots number with
      | error e =>
          simp only [Host.handle, perform_restore_error hitem] at hresult
          cases hresult
      | ok kept =>
          simp only [Host.handle, perform_restore_ok hitem] at hresult
          cases hresult
  | tick | consumeTone | addListener | removeListener => cases hresult
  | _ => exact hr.elim

/-- What an advance leaves that draws: the next byte, as far as the mask lets it through, is in the
register, and nothing else has changed but the program counter. -/
theorem advance_draws (hh : Held s h) {snapshot : Snapshot Registers}
    (hresult : (h.handle .advance).2.result = .ok (.snapshot snapshot))
    (hopcode : snapshot.operation.opcode / 0x1000 = 0xC) :
    let next := (h.handle .advance).1
    let word := snapshot.operation.opcode
    stream next = (stream h).draw.2 ∧
      next.machine.core.registers = h.machine.core.registers.putRaw (Opcode.x word)
        (((stream h).draw.1.toNat &&& (Opcode.nn word).toNat : Nat) : Int) ∧
      next.machine.core.pc = (h.machine.core.pc + 2) % 65536 := by
  rcases advance_cases hh.fits with ⟨f, log, -, heq⟩ | ⟨form, -, -, hform, heq⟩
  · simp only [Host.handle, perform_advance_error heq] at hresult
    cases hresult
  · simp only [Host.handle, perform_advance_ok heq] at hresult ⊢
    cases hresult
    have hword := isWord_wordAt hh.fits.bus h.machine.core.pc
    have hrandom := (ofOpcode?_leading .random (by decide) rfl hword).2 hopcode
    obtain rfl : form = .random := Option.some.inj (hform.symm.trans hrandom)
    exact ⟨rfl, set_byteAnd (isByte_draw _) (isByte_nn _) _ _, rfl⟩

theorem advance_random (hh : Held s h) (hin : h.machine.core.pc + 1 < s.memorySize)
    (hform : Form.ofOpcode? (wordAt h.machine.core.bus h.machine.core.pc) = some .random) :
    ∃ snapshot, (h.handle .advance).2.result = .ok (.snapshot snapshot) ∧
      snapshot.operation.opcode = wordAt h.machine.core.bus h.machine.core.pc := by
  have heq := advance_of_safe hh.fits hin hform (by decide)
  simp only [Host.handle, perform_advance_ok heq]
  exact ⟨_, rfl, rfl⟩

theorem stream_step (hh : Held s h) (hr : IsOperation r) :
    stream (h.handle r).1 = if Draws (h.handle r).2 then (stream h).draw.2 else stream h := by
  split
  case isTrue hdraw =>
    obtain rfl := eq_advance_of_draws hr hdraw
    obtain ⟨snapshot, hresult, hopcode⟩ := hdraw
    exact (advance_draws hh hresult hopcode).1
  case isFalse hdraw => exact stream_handle hh hr hdraw

/-- Over a run the stream moves on by one byte for each number that was drawn. -/
theorem stream_handleAll (hh : Reachable s h) {requests : List Request}
    (hr : ∀ r ∈ requests, IsOperation r) :
    stream (h.handleAll requests) = (stream h).after (drawCount (replies h requests)) := by
  induction requests generalizing h with
  | nil => rfl
  | cons r rest ih =>
      obtain ⟨hfirst, hlater⟩ := List.forall_mem_cons.1 hr
      have hstep := stream_step hh.held hfirst
      have hrest := ih (hh.request hfirst) hlater
      simp only [Host.handleAll, replies, drawCount, List.countP_cons, decide_eq_true_eq]
      rw [hrest, hstep]
      by_cases hdraw : Draws (h.handle r).2
      · rw [if_pos hdraw, if_pos hdraw, after_draw]
        rfl
      · rw [if_neg hdraw, if_neg hdraw]
        rfl

theorem stream_built {m : Machine} (hm : Built s m) {seed : Int} (hseed : s.seed = some seed)
    (script : Text → List ToneAction) :
    stream { machine := m, script } = .ofSeed seed := by
  obtain ⟨fresh, random, -, hrandom, rfl⟩ := hm.built
  have hsome : s.seed ≠ none := by
    rw [hseed]
    exact Option.some_ne_none seed
  have hstart : s.setup.stream = .ofSeed seed := by
    unfold Setup.stream Settings.setup
    dsimp only
    rw [hseed, Option.getD_some]
  exact (hrandom hsome).trans hstart

end Operations

/-- Under a seed the numbers of a run are the bytes of the seed's stream in their order.  After any
operations the stream stands behind as many bytes as instructions drew a number.  The next operation
that draws puts the next byte, masked, into its register, changes no other register but the program
counter, and takes exactly this byte; one that does not draw takes none. -/
theorem numbers_in_order {s : Settings} {m : Machine} (hm : Built s m) {seed : Int}
    (hseed : s.seed = some seed) (script : Text → List ToneAction) {requests : List Request}
    (hr : ∀ r ∈ requests, IsOperation r) :
    let start : Host := { machine := m, script }
    let h := start.handleAll requests
    let count := drawCount (replies start requests)
    let bytes := Random.Stream.ofSeed seed
    stream h = bytes.after count ∧
    ∀ r, IsOperation r →
      (¬Draws (h.handle r).2 → stream (h.handle r).1 = bytes.after count) ∧
      ∀ snapshot, (h.handle r).2.result = .ok (.snapshot snapshot) →
        snapshot.operation.opcode / 0x1000 = 0xC →
          let word := snapshot.operation.opcode
          stream (h.handle r).1 = bytes.after (count + 1) ∧
          (h.handle r).1.machine.core.registers = h.machine.core.registers.putRaw (Opcode.x word)
            (((bytes.byteAt count).toNat &&& (Opcode.nn word).toNat : Nat) : Int) ∧
          (h.handle r).1.machine.core.pc = (h.machine.core.pc + 2) % 65536 := by
  intro start h count bytes
  have hstart : Reachable s start := .built hm script
  have hheld : Held s h := (hstart.handleAll hr).held
  have hstream : stream h = bytes.after count := by
    rw [stream_handleAll hstart hr, stream_built hm hseed script]
  refine ⟨hstream, fun r hop => ⟨fun hdraw => ?_, fun snapshot hresult hopcode => ?_⟩⟩
  · rw [stream_handle hheld hop hdraw, hstream]
  · obtain rfl := eq_advance_of_draws hop ⟨snapshot, hresult, hopcode⟩
    have hnext := advance_draws hheld hresult hopcode
    rw [hstream] at hnext
    exact hnext

def seeded : Settings := { memorySize := 0x60, loadAddress := 0x50, seed := some 7 }

def drawing : List Request :=
  [.advance, .tick, .setKey (.int 3) true, .reset, .load (.list [.int 0xCA, .int 0x3C])]

theorem numbers_in_order_after_reset :
    let h := Host.handleAll { machine := newMachine seeded } drawing
    Built seeded (newMachine seeded) ∧ (∀ r ∈ drawing, IsOperation r) ∧
    (h.handle .advance).1.machine.core.registers = h.machine.core.registers.putRaw 0xA
      ((((Random.Stream.ofSeed 7).byteAt 0).toNat &&& 0x3C : Nat) : Int) := by
  have hread : Settings.ofDocument (.ofValue (.map [(.text "memory_size", .int 0x60),
      (.text "load_address", .int 0x50), (.text "seed", .int 7)])) = ([], .ok seeded) := rfl
  have hbuilt := built_newMachine hread (by decide) (by decide)
  have hr : ∀ r ∈ drawing, IsOperation r := by simp [drawing, IsOperation]
  have hheld := ((Reachable.built hbuilt fun _ => []).handleAll hr).held
  have hword : wordAt (Host.handleAll { machine := newMachine seeded } drawing).machine.core.bus
      (Host.handleAll { machine := newMachine seeded } drawing).machine.core.pc = 0xCA3C := by
    decide +kernel
  have hcount : drawCount (replies { machine := newMachine seeded } drawing) = 0 := by
    decide +kernel
  obtain ⟨snapshot, hresult, hopcode⟩ := advance_random hheld (by decide +kernel)
    (hword.symm ▸ rfl)
  rw [hword] at hopcode
  have hseed : seeded.seed = some 7 := rfl
  obtain ⟨-, hnext⟩ := numbers_in_order hbuilt hseed (fun _ => []) hr
  have hdraws := (hnext .advance trivial).2 snapshot hresult
  rw [hopcode, hcount] at hdraws
  obtain ⟨-, hregisters, -⟩ := hdraws (by decide)
  have hx : Opcode.x 0xCA3C = 0xA := by decide
  have hnn : (Opcode.nn 0xCA3C).toNat = 0x3C := by decide
  rw [hx, hnn] at hregisters
  exact ⟨hbuilt, hr, hregisters⟩

end Chip8.Proofs.Host.Numbers
