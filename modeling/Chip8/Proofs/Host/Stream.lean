import Chip8.Proofs.Host.Alterations
import Chip8.Proofs.Instruction.Word
import Chip8.Proofs.Machine.Indifference

/-!
# The random stream

Only one form of instruction looks at the random stream.  A machine with another stream does the
same as long as no such instruction is carried out, and the stream stays what it is.
-/

namespace Chip8.Proofs.Host.Stream

open Chip8.Instruction
open Chip8.Proofs.Memory.Layout Chip8.Proofs.Instruction.Effect Chip8.Proofs.Instruction.Word
open Chip8.Proofs.Instruction.Cycle Chip8.Proofs.Machine.Representation
open Chip8.Proofs.Machine.Operations Chip8.Proofs.Machine.Indifference
open Chip8.Proofs.Host.Invariant Chip8.Proofs.Host.Alterations

def streamed (c : MachineCore) (random : Random.Stream) : MachineCore :=
  { c with hardware := { c.hardware with random } }

/-! ## Instructions -/

section Instructions

variable {setup : Setup} {form : Form} {opcode : Int} {c : MachineCore} {random : Random.Stream}

theorem after_streamed (hform : form ≠ .random) :
    after setup form opcode (streamed c random) = streamed (after setup form opcode c) random := by
  cases form with
  | random => exact absurd rfl hform
  | _ => rfl

theorem indifferent_stream (hform : form ≠ .random) (random : Random.Stream) :
    Indifferent setup form id fun hardware => { hardware with random } :=
  fun _ _ => after_streamed hform

end Instructions

/-! ## Machines -/

section Machines

variable {size : Int} {m : Machine}

/-- A machine that does not draw advances in the same way under every random stream. -/
theorem advance_withStream (h : Wide m.setup size m.core) (random : Random.Stream)
    (hdraw : ∀ snapshot, m.advance.2 = .ok snapshot → snapshot.operation.opcode / 0x1000 ≠ 0xC) :
    (withStream m random).advance = (withStream m.advance.1 random, m.advance.2) := by
  refine advance_altered_hardware (k := fun hardware => { hardware with random }) h { h with }
    fun form hform => indifferent_stream ?_ random
  rintro rfl
  have hword := isWord_wordAt h.bus m.core.pc
  have hopcode := (ofOpcode?_leading .random (by decide) rfl hword).1 hform.found
  rw [hform.advance_eq h] at hdraw
  exact hdraw _ rfl hopcode

end Machines

/-! ## Hosts -/

def Draws (reply : Reply) : Prop :=
  ∃ snapshot, reply.result = .ok (.snapshot snapshot) ∧
    snapshot.operation.opcode / 0x1000 = 0xC

def IsDraw (word : Int) : Prop := word / 0x1000 = 0xC

def redrawn (h : Host) (random : Random.Stream) : Host :=
  { h with machine := withStream h.machine random }

def restreamed (random : Random.Stream) : Alteration where
  dialect := id
  random := fun _ => random

section Hosts

variable {s : Settings} {h : Host} {r : Request}

theorem spares_restreamed (random : Random.Stream) (h : Host) (hh : Held s h)
    (hdraw : ∀ snapshot, h.machine.advance.2 = .ok snapshot →
      ¬IsDraw snapshot.operation.opcode) :
    (restreamed random).Spares h.machine :=
  advance_withStream hh.fits random hdraw

theorem handle_redrawn (hh : Held s h) (hr : IsOperation r) (random : Random.Stream)
    (hdraw : ¬Draws (h.handle r).2) :
    (redrawn h random).handle r = (redrawn (h.handle r).1 random, (h.handle r).2) :=
  handle_altered (spares_restreamed random) hh hr hdraw

/-- Operations none of which draws have the same replies under every random stream. -/
theorem replies_redrawn (hh : Held s h) (haddress : 0 ≤ s.loadAddress)
    (hlimit : ∀ n, s.stackLimit = some n → 0 ≤ n) (random : Random.Stream)
    {requests : List Request} (hr : ∀ r ∈ requests, IsOperation r)
    (hdraw : ∀ reply ∈ replies h requests, ¬Draws reply) :
    replies (redrawn h random) requests = replies h requests :=
  (run_altered (spares_restreamed random) hh haddress hlimit hr hdraw).1

end Hosts

end Chip8.Proofs.Host.Stream
