import Chip8.Proofs.Host.Stream

/-!
# Resets

A reset makes the machine that its settings build, except for the random stream and the listeners.
What a host sees of it later is what it would see of a new machine, until numbers are drawn.
-/

namespace Chip8.Proofs.Host.Reset

open Chip8.Memory
open Chip8.Proofs.Memory.Layout Chip8.Proofs.Memory.Transfer Chip8.Proofs.Memory.Contents
open Chip8.Proofs.Machine.Representation Chip8.Proofs.Machine.Operations
open Chip8.Proofs.Host.Invariant Chip8.Proofs.Host.Stream

def withListeners (m : Machine) (listeners : List Text) : Machine :=
  { m with tone := { m.tone with listeners } }

def moved (h : Host) (m : Machine) (kept : Array (Snapshot Registers)) : Host :=
  { machine := m, script := h.script, snapshots := kept }

section Machines

variable {s : Settings} {h : Host} {m : Machine}

theorem clear_eq_standard {d : Display} (h : Shaped 64 32 d) : d.clear = .standard := by
  unfold Display.clear
  rw [h.width_eq, h.height_eq]
  rfl

/-- A machine under a host resets to the machine over a new bus. -/
theorem reset_eq_fresh (hh : Held s h) (htaken : h.machine.core.bus.ignored = []) {b : Bus}
    (hb : Bus.standard s.memorySize = .ok b) :
    h.machine.reset =
      (withListeners (withStream (Machine.create s.setup b) h.machine.core.hardware.random)
        h.machine.tone.listeners, .ok ()) := by
  have hbus : renewed h.machine.core.bus = b :=
    renewed_eq_standard hh.fits.bus hh.cells htaken hb
  have hdisplay := clear_eq_standard hh.fits.display
  have hsize : h.machine.core.hardware.memorySize = b.size :=
    hh.fits.memorySize.trans (size_eq (quiet_standard hb).mapped).symm
  rw [reset_eq hh.fits.bus, hbus, hdisplay, hh.setup_eq]
  dsimp only
  rw [hsize]
  rfl

theorem held_moved (hh : Held s h) (m : Machine) (hm : Held s { h with machine := m })
    {kept : Array (Snapshot Registers)} (hkept : ∀ snapshot ∈ kept, snapshot ∈ h.snapshots) :
    Held s (moved h m kept) :=
  ⟨hm.setup_eq, hm.fits, hm.cells, fun snapshot hmem => hh.snapshots snapshot (hkept snapshot hmem)⟩

end Machines

/-- After a reset a machine is as its settings build it, with nothing logged, but for the random
stream and the listeners.  Later replies are those of a new machine with any random stream, as long
as no number is drawn. -/
theorem reset_renews {s : Settings} {h : Host} (hh : Reachable s h) :
    ∃ fresh, s.build = .ok fresh ∧
      h.machine.reset =
        (withListeners (withStream fresh h.machine.core.hardware.random)
          h.machine.tone.listeners, .ok ()) ∧
      h.machine.reset.1.core.bus.log = [] ∧
      ∀ random kept requests, (∀ snapshot ∈ kept, snapshot ∈ h.snapshots) →
        (∀ r ∈ requests, IsOperation r) →
        (∀ reply ∈ replies (moved h h.machine.reset.1 kept) requests, ¬Draws reply) →
        replies (moved h h.machine.reset.1 kept) requests =
          replies (moved h (withListeners (withStream fresh random) h.machine.tone.listeners) kept)
            requests := by
  obtain ⟨m, hm⟩ := hh.exists_built
  obtain ⟨b, -, hb, -⟩ := hm.exists_bus
  have hreset := reset_eq_fresh hh.held hh.taken hb
  have hlog : h.machine.reset.1.core.bus.log = [] := by
    rw [reset_eq hh.held.fits.bus]
    rfl
  refine ⟨_, build_eq hb, hreset, hlog, ?_⟩
  intro random kept requests hkept hr hdraw
  have hafter : Held s { h with machine := h.machine.reset.1 } :=
    hh.held.perform hm.loadAddress hm.stackLimit (r := .reset) trivial
  have hheld := held_moved hh.held h.machine.reset.1 hafter hkept
  have hsame := replies_redrawn hheld hm.loadAddress hm.stackLimit random hr hdraw
  have hother : redrawn (moved h h.machine.reset.1 kept) random =
      moved h (withListeners (withStream (Machine.create s.setup b) random)
        h.machine.tone.listeners) kept := by
    rw [hreset]
    rfl
  rw [← hsame, hother]

theorem reset_renews_after_key : ∃ h fresh, Reachable {} h ∧ Settings.build {} = .ok fresh ∧
    h.machine.reset =
      (withListeners (withStream fresh h.machine.core.hardware.random)
        h.machine.tone.listeners, .ok ()) ∧
    replies (moved h h.machine.reset.1 #[]) [.advance, .tick] =
      replies (moved h (withListeners (withStream fresh (.ofSeed 1)) h.machine.tone.listeners) #[])
        [.advance, .tick] := by
  obtain ⟨m, hm⟩ := exists_standard
  obtain ⟨b, -, hb, -⟩ := hm.exists_bus
  let h := (Host.handle { machine := m } (.setKey (.int 3) true)).1
  have hh : Reachable {} h := .request (.built hm _) trivial
  obtain ⟨fresh, hbuild, hreset, -, hlater⟩ := reset_renews hh
  have hlisteners : h.machine.tone.listeners = [] := by
    change m.tone.listeners = []
    obtain ⟨b, random, -, rfl⟩ := hm.exists_bus
    rfl
  have hnew : Built {} h.machine.reset.1 := by
    refine ⟨hm.accepted, fresh, h.machine.core.hardware.random, hbuild, fun hseed => ?_, ?_⟩
    · exact absurd rfl hseed
    · rw [build_eq hb] at hbuild
      cases hbuild
      rw [hreset, hlisteners]
      rfl
  obtain ⟨after, snapshot, heq, hzero⟩ := hnew.advance_first
  refine ⟨h, fresh, hh, hbuild, hreset, hlater _ #[] _ (by simp) ?_ ?_⟩
  · intro r hr
    simp only [List.mem_cons, List.not_mem_nil, or_false] at hr
    rcases hr with rfl | rfl <;> trivial
  · intro reply hreply
    simp only [replies, List.mem_cons, List.not_mem_nil, or_false] at hreply
    rintro ⟨taken, hresult, hopcode⟩
    rcases hreply with rfl | rfl
    · have hperform := perform_advance_ok (h := moved h h.machine.reset.1 #[]) heq
      simp only [Host.handle, hperform] at hresult
      cases hresult
      rw [hzero] at hopcode
      cases hopcode
    · cases hresult

end Chip8.Proofs.Host.Reset
