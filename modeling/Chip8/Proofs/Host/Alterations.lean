import Chip8.Proofs.Host.Invariant

/-!
# Altered machines

Of all operations only an advance looks at the dialect or at the random stream.  On a machine in
which these two are altered the others do the same, and the alteration stays.  So it is with a whole
run, as long as its advances do the same, too.
-/

namespace Chip8.Proofs.Host.Alterations

open Chip8.Memory
open Chip8.Proofs.Memory.Layout Chip8.Proofs.Machine.Representation
open Chip8.Proofs.Machine.Operations Chip8.Proofs.Host.Invariant

/-- Another dialect and another random stream, made of those that a machine has. -/
structure Alteration where
  dialect : Dialect → Dialect
  random : Random.Stream → Random.Stream

namespace Alteration

def machine (a : Alteration) (m : Machine) : Machine :=
  { m with
    setup := { m.setup with dialect := a.dialect m.setup.dialect }
    core := { m.core with
      hardware := { m.core.hardware with random := a.random m.core.hardware.random } } }

def host (a : Alteration) (h : Host) : Host :=
  { h with machine := a.machine h.machine }

/-- Whether a machine advances in the same way when it is altered. -/
def Spares (a : Alteration) (m : Machine) : Prop :=
  (a.machine m).advance = (a.machine m.advance.1, m.advance.2)

end Alteration

def CarriedOut (words : Int → Prop) (reply : Reply) : Prop :=
  ∃ snapshot, reply.result = .ok (.snapshot snapshot) ∧ words snapshot.operation.opcode

variable {a : Alteration} {s : Settings} {h : Host} {r : Request}

/-! ## Operations -/

section Operations

theorem load_altered (a : Alteration) (m : Machine) (image : Image) :
    (a.machine m).load image = (a.machine (m.load image).1, (m.load image).2) := by
  unfold Machine.load
  simp only [Alteration.machine]
  by_cases hfit : m.core.hardware.memorySize < m.setup.loadAddress + image.size
  · simp only [hfit, if_true]
  · simp only [hfit, if_false]
    cases m.core.bus.loadAll m.setup.loadAddress image.toList with
    | mk bus problem => cases problem <;> rfl

theorem setKey_altered (a : Alteration) (m : Machine) (index : Value) (down : Bool) :
    (a.machine m).setKey index down =
      (a.machine (m.setKey index down).1, (m.setKey index down).2) := by
  unfold Machine.setKey
  simp only [Alteration.machine]
  cases m.core.hardware.keypad.set index down <;> rfl

theorem reset_altered (a : Alteration) {m : Machine} {size : Int} (h : Mapped size m.core.bus) :
    (a.machine m).reset = (a.machine m.reset.1, m.reset.2) := by
  have hother := reset_eq (m := a.machine m) h
  rw [reset_eq h, hother]
  rfl

theorem withMachine_altered {α : Type} (answer : α → Answer)
    (result : Machine × Except Failure α) :
    (a.host h).withMachine answer (a.machine result.1, result.2) =
      (a.host (h.withMachine answer result).1, (h.withMachine answer result).2) := rfl

theorem perform_altered (hh : Held s h) (hr : IsOperation r)
    (hadvance : r = .advance → a.Spares h.machine) :
    (a.host h).perform r = (a.host (h.perform r).1, (h.perform r).2) := by
  cases r with
  | load value =>
      cases himage : Image.ofValue value with
      | error e => rw [perform_load_error himage, perform_load_error himage]
      | ok image =>
          rw [perform_load_ok himage, perform_load_ok himage]
          change (a.host h).withMachine _ ((a.machine h.machine).load image) = _
          rw [load_altered]
          exact withMachine_altered _ _
  | advance =>
      have hsame := hadvance rfl
      unfold Alteration.Spares at hsame
      cases hresult : h.machine.advance with
      | mk after result =>
          rw [hresult] at hsame
          cases result with
          | error failure =>
              rw [perform_advance_error hresult]
              exact perform_advance_error (h := a.host h) hsame
          | ok snapshot =>
              rw [perform_advance_ok hresult]
              exact perform_advance_ok (h := a.host h) hsame
  | tick | consumeTone | addListener | removeListener => rfl
  | setKey index down =>
      change (a.host h).withMachine _ ((a.machine h.machine).setKey _ _) = _
      rw [setKey_altered]
      exact withMachine_altered _ _
  | reset =>
      change (a.host h).withMachine _ (a.machine h.machine).reset = _
      rw [reset_altered a hh.fits.bus]
      exact withMachine_altered _ _
  | restore number =>
      cases hitem : itemAt h.snapshots number with
      | error e =>
          rw [perform_restore_error hitem]
          exact perform_restore_error (h := a.host h) hitem
      | ok snapshot =>
          rw [perform_restore_ok hitem]
          exact perform_restore_ok (h := a.host h) hitem
  | _ => exact hr.elim

theorem result_handle_advance {snapshot : Snapshot Registers}
    (hresult : h.machine.advance.2 = .ok snapshot) :
    (h.handle .advance).2.result = .ok (.snapshot snapshot) := by
  have hok : h.machine.advance = (h.machine.advance.1, .ok snapshot) := Prod.ext rfl hresult
  simp only [Host.handle, perform_advance_ok hok]

end Operations

/-! ## Runs -/

section Runs

variable {words : Int → Prop}
  (hspares : ∀ h, Held s h →
    (∀ snapshot, h.machine.advance.2 = .ok snapshot → ¬words snapshot.operation.opcode) →
    a.Spares h.machine)

include hspares

theorem handle_altered (hh : Held s h) (hr : IsOperation r)
    (hquiet : ¬CarriedOut words (h.handle r).2) :
    (a.host h).handle r = (a.host (h.handle r).1, (h.handle r).2) := by
  have hperform := perform_altered (a := a) hh hr <| by
    rintro rfl
    refine hspares h hh fun snapshot hresult hword => ?_
    exact hquiet ⟨snapshot, result_handle_advance hresult, hword⟩
  unfold Host.handle
  rw [hperform]
  rfl

/-- Operations have the same replies on an altered machine, and the alteration stays, as long as no
advance carries out a word that the alteration matters to. -/
theorem run_altered (hh : Held s h) (haddress : 0 ≤ s.loadAddress)
    (hlimit : ∀ n, s.stackLimit = some n → 0 ≤ n) {requests : List Request}
    (hr : ∀ r ∈ requests, IsOperation r)
    (hquiet : ∀ reply ∈ replies h requests, ¬CarriedOut words reply) :
    replies (a.host h) requests = replies h requests ∧
      (a.host h).handleAll requests = a.host (h.handleAll requests) := by
  induction requests generalizing h with
  | nil => exact ⟨rfl, rfl⟩
  | cons r rest ih =>
      obtain ⟨hfirst, hlater⟩ := List.forall_mem_cons.1 hr
      obtain ⟨hquietFirst, hquietLater⟩ := List.forall_mem_cons.1 hquiet
      have hstep := handle_altered hspares hh hfirst hquietFirst
      obtain ⟨hreplies, hhost⟩ := ih (hh.handle haddress hlimit hfirst) hlater hquietLater
      simp only [replies, Host.handleAll, hstep, hreplies, hhost, and_self]

end Runs

end Chip8.Proofs.Host.Alterations
