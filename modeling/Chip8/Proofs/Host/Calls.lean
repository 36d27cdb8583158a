import Chip8.Proofs.Host.Invariant
import Chip8.Proofs.Instruction.Frame
import Chip8.Proofs.Instruction.Word

/-!
# Subroutines

A call puts the address behind it on top of the call stack, and only a return takes an address off.
What lies below the address of a call therefore stays as it is until the return that takes this
address off, however many calls, returns and failures there are in between, and this return goes to
the address behind the call.
-/

namespace Chip8.Proofs.Host.Calls

open Chip8.Instruction
open Chip8.Proofs.Memory.Layout Chip8.Proofs.Instruction.Action
open Chip8.Proofs.Instruction.Effect Chip8.Proofs.Instruction.Word
open Chip8.Proofs.Instruction.Frame Chip8.Proofs.Instruction.Cycle
open Chip8.Proofs.Machine.Representation Chip8.Proofs.Machine.Operations
open Chip8.Proofs.Host.Invariant

/-! ## Instructions -/

section Instructions

variable {setup : Setup} {form : Form} {opcode : Int} {c : MachineCore}

theorem stack_registersAfter (hret : form ≠ .ret) (hcall : form ≠ .call) :
    (registersAfter setup form opcode c).stack = c.registers.stack := by
  have hspared := spared_registersAfter setup form opcode c
  exact (hspared.stack (by simp [stackForms, hret, hcall])).1

theorem stack_stepped_call (setup : Setup) (c : MachineCore) :
    (stepped setup .call c).registers.stack = (c.pc + 2) % 65536 :: c.registers.stack := by
  have hpush : (stepped setup .call c).registers.stack =
    (c.pc + 2) % 65536 % 65536 :: c.registers.stack := rfl
  rw [Int.emod_emod] at hpush
  exact hpush

theorem stack_stepped_ret (setup : Setup) (hstack : c.registers.stack ≠ []) :
    c.registers.stack = (stepped setup .ret c).pc :: (stepped setup .ret c).registers.stack := by
  have hpc : (stepped setup .ret c).pc = c.registers.stack.headD ((c.pc + 2) % 65536) := rfl
  have hpop : (stepped setup .ret c).registers.stack = c.registers.stack.tail := rfl
  rw [hpc, hpop]
  cases hcells : c.registers.stack with
  | nil => exact absurd hcells hstack
  | cons address rest => rfl

end Instructions

/-! ## Requests -/

/-- The requests that let a machine go on: it advances, its timers count down, keys are pressed and
programs are loaded. -/
def Continues : Request → Prop
  | .advance | .tick | .setKey _ _ | .load _ => True
  | _ => False

def callStack (h : Host) : List Int := h.machine.core.registers.stack

def depth (h : Host) : Int := h.machine.core.registers.depth

def Called (reply : Reply) : Prop :=
  ∃ snapshot, reply.result = .ok (.snapshot snapshot) ∧
    snapshot.operation.opcode / 0x1000 = 0x2

def Returned (reply : Reply) : Prop :=
  ∃ snapshot, reply.result = .ok (.snapshot snapshot) ∧ snapshot.operation.opcode = 0x00EE

/-- What an advance does to the call stack, by its reply. -/
inductive Moves (h next : Host) (reply : Reply) : Prop
  | called (hcalls : Called reply)
      (hstack : callStack next = (h.machine.core.pc + 2) % 65536 :: callStack h)
  | returned (hreturns : Returned reply)
      (hstack : callStack h = next.machine.core.pc :: callStack next)
  | kept (hcalls : ¬Called reply) (hstack : callStack next = callStack h)

section Requests

variable {s : Settings} {h : Host} {r : Request} {base : List Int} {address : Int}

theorem Continues.isOperation (hr : Continues r) : IsOperation r := by
  cases r with
  | advance | tick | setKey | load => trivial
  | _ => exact hr.elim

theorem depth_eq (hh : Reachable s h) : depth h = (callStack h).length :=
  hh.held.fits.registers.depth

theorem Called.not_returned {reply : Reply} (hcalls : Called reply) : ¬Returned reply := by
  obtain ⟨snapshot, hresult, hopcode⟩ := hcalls
  rintro ⟨found, hfound, hreturns⟩
  rw [hresult] at hfound
  cases hfound
  rw [hreturns] at hopcode
  cases hopcode

theorem moves_advance (hh : Held s h) :
    Moves h (h.handle .advance).1 (h.handle .advance).2 := by
  unfold Host.handle
  rcases advance_cases hh.fits with ⟨f, log, -, heq⟩ | ⟨form, hfree, hin, hform, heq⟩
  · rw [perform_advance_error heq]
    refine .kept ?_ rfl
    rintro ⟨snapshot, hresult, -⟩
    cases hresult
  · rw [perform_advance_ok heq]
    have hword := isWord_wordAt hh.fits.bus h.machine.core.pc
    have hcall := ofOpcode?_leading .call (by decide) rfl hword
    have hret := ofOpcode?_fixed .ret (by decide) rfl (by decide) (by decide) (by decide) hword
    by_cases hcalls : form = .call
    · subst hcalls
      exact .called ⟨_, rfl, hcall.1 hform⟩ (stack_stepped_call h.machine.setup _)
    by_cases hreturns : form = .ret
    · subst hreturns
      refine .returned ⟨_, rfl, hret.1 hform⟩ (stack_stepped_ret h.machine.setup fun hempty => ?_)
      exact hfree _ (.execute hin hform (.underflow rfl hempty))
    · refine .kept ?_ (stack_registersAfter hreturns hcalls)
      rintro ⟨snapshot, hresult, hopcode⟩
      cases hresult
      rw [hcall.2 hopcode] at hform
      exact hcalls (Option.some.inj hform).symm

theorem registers_load (m : Machine) (image : Image) :
    (m.load image).1.core.registers = m.core.registers := by
  unfold Machine.load
  dsimp only
  split
  · rfl
  · split <;> rfl

theorem callStack_handle (hr : Continues r) (hne : r ≠ .advance) :
    callStack (h.handle r).1 = callStack h := by
  cases r with
  | advance => exact absurd rfl hne
  | tick =>
      have hcore := core_tick h.machine h.script
      exact congrArg (fun core => core.registers.stack) hcore
  | setKey index down =>
      rcases setKey_cases h.machine index down with heq | ⟨keypad, heq⟩
      all_goals
        simp only [callStack, Host.handle, Host.perform, heq]
        rfl
  | load value =>
      cases himage : Image.ofValue value with
      | error e =>
          simp only [callStack, Host.handle, perform_load_error himage]
          rfl
      | ok image =>
          simp only [callStack, Host.handle, perform_load_ok himage]
          exact congrArg Registers.stack (registers_load h.machine image)
  | _ => exact hr.elim

/-- A request leaves what lies below a return address, together with the address, or it returns to
this address. -/
theorem inside_handle (hh : Held s h) (hr : Continues r)
    (hinside : address :: base <:+ callStack h) :
    address :: base <:+ callStack (h.handle r).1 ∨
      r = .advance ∧ Returned (h.handle r).2 ∧ callStack (h.handle r).1 = base ∧
        (h.handle r).1.machine.core.pc = address := by
  by_cases hadvance : r = .advance
  · subst hadvance
    cases moves_advance hh with
    | called hcalls hstack =>
        rw [hstack]
        exact .inl (hinside.trans (List.suffix_cons _ _))
    | returned hreturns hstack =>
        rw [hstack, List.suffix_cons_iff] at hinside
        rcases hinside with heq | hbelow
        · obtain ⟨haddress, hbase⟩ := List.cons.inj heq
          exact .inr ⟨rfl, hreturns, hbase.symm, haddress.symm⟩
        · exact .inl hbelow
    | kept hcalls hstack =>
        rw [hstack]
        exact .inl hinside
  · rw [callStack_handle hr hadvance]
    exact .inl hinside

end Requests

/-! ## Runs -/

def resumed (h : Host) (requests : List Request) (n : Nat) : Host :=
  (h.handle .advance).1.handleAll (requests.take n)

section Runs

variable {s : Settings} {h : Host} {requests : List Request} {base : List Int} {address : Int}
  {n : Nat}

/-- Until the call stack is what lies below a return address, it keeps the address. -/
theorem inside_or_returned (hh : Reachable s h) (hr : ∀ r ∈ requests, Continues r)
    (hinside : address :: base <:+ callStack h) (hn : n ≤ requests.length)
    (hbefore : ∀ j < n, callStack (h.handleAll (requests.take j)) ≠ base) :
    address :: base <:+ callStack (h.handleAll (requests.take n)) ∨
      callStack (h.handleAll (requests.take n)) = base ∧
        (h.handleAll (requests.take n)).machine.core.pc = address ∧
        ∃ m, n = m + 1 ∧ requests[m]? = some .advance ∧
          Returned ((h.handleAll (requests.take m)).handle .advance).2 := by
  induction n with
  | zero => exact .inl hinside
  | succ n ih =>
      have hlast := ih (by omega) fun j hj => hbefore j (by omega)
      have hstill := hlast.resolve_right fun hreturned => hbefore n (by omega) hreturned.1
      have hget : requests[n]? = some requests[n] := List.getElem?_eq_getElem (by omega)
      have hreached : Reachable s (h.handleAll (requests.take n)) :=
        hh.handleAll fun r hmem => (hr r (List.mem_of_mem_take hmem)).isOperation
      rw [handleAll_take_succ hget]
      rcases inside_handle hreached.held (hr _ (List.getElem_mem _)) hstill with
        hon | ⟨hadvance, hreturns, hstack, hpc⟩
      · exact .inl hon
      · rw [hadvance] at hreturns hget
        exact .inr ⟨hstack, hpc, n, rfl, hget, hreturns⟩

end Runs

/-- From a call on, until the call stack is as deep as before, it keeps what it was and more above
it.  It gets as deep again first by a return, to the address behind the call, and then it is what it
was before the call. -/
theorem calls_nest {s : Settings} {h : Host} (hh : Reachable s h)
    (hcall : Called (h.handle .advance).2) {requests : List Request}
    (hr : ∀ r ∈ requests, Continues r) {n : Nat} (hn : n ≤ requests.length)
    (hbefore : ∀ j < n, depth (resumed h requests j) ≠ depth h) :
    (depth (resumed h requests n) ≠ depth h →
      ∃ upper, upper ≠ [] ∧ callStack (resumed h requests n) = upper ++ callStack h) ∧
    (depth (resumed h requests n) = depth h →
      callStack (resumed h requests n) = callStack h ∧
        (resumed h requests n).machine.core.pc = (h.machine.core.pc + 2) % 65536 ∧
        ∃ m, n = m + 1 ∧ requests[m]? = some .advance ∧
          Returned ((resumed h requests m).handle .advance).2) := by
  have hreached : ∀ j, Reachable s (resumed h requests j) := fun j =>
    (hh.request (r := .advance) trivial).handleAll
      fun r hmem => (hr r (List.mem_of_mem_take hmem)).isOperation
  have hdepth : ∀ j, callStack (resumed h requests j) = callStack h →
      depth (resumed h requests j) = depth h := by
    intro j hsame
    rw [depth_eq (hreached j), depth_eq hh, hsame]
  have hinside : (h.machine.core.pc + 2) % 65536 :: callStack h <:+
      callStack (h.handle .advance).1 := by
    cases moves_advance hh.held with
    | called _ hstack => exact hstack ▸ List.suffix_rfl
    | returned hreturns => exact absurd hreturns hcall.not_returned
    | kept hcalls => exact absurd hcall hcalls
  rcases inside_or_returned (hreached 0) hr hinside hn
    (fun j hj hsame => hbefore j hj (hdepth j hsame)) with ⟨upper, hupper⟩ | hreturned
  · have hstack : callStack (resumed h requests n) =
        (upper ++ [(h.machine.core.pc + 2) % 65536]) ++ callStack h := by
      rw [List.append_assoc, List.singleton_append]
      exact hupper.symm
    refine ⟨fun _ => ⟨_, by simp, hstack⟩, fun hsame => ?_⟩
    rw [depth_eq (hreached n), depth_eq hh, hstack] at hsame
    simp only [List.length_append, List.length_singleton] at hsame
    omega
  · exact ⟨fun hne => absurd (hdepth n hreturned.1) hne, fun _ => hreturned⟩

def calling : Host :=
  Host.handleAll { machine := newMachine { memorySize := 0x60, loadAddress := 0x50 } }
    [.load (.list [.int 0x20, .int 0x54, .int 0x00, .int 0x00, .int 0x00, .int 0xEE])]

theorem calls_nest_calling :
    Reachable { memorySize := 0x60, loadAddress := 0x50 } calling ∧
    Called (calling.handle .advance).2 ∧
    (∀ j < 2, depth (resumed calling [.tick, .advance] j) ≠ depth calling) ∧
    callStack (resumed calling [.tick, .advance] 2) = callStack calling ∧
    (resumed calling [.tick, .advance] 2).machine.core.pc = 0x52 := by
  have hreachable : Reachable { memorySize := 0x60, loadAddress := 0x50 } calling :=
    reachable_small (by simp [IsOperation])
  have hcall : Called (calling.handle .advance).2 := by
    cases moves_advance hreachable.held with
    | called hcalls _ => exact hcalls
    | returned _ hstack => exact absurd hstack (by decide +kernel)
    | kept _ hstack => exact absurd hstack (by decide +kernel)
  have hbefore : ∀ j < 2, depth (resumed calling [.tick, .advance] j) ≠ depth calling := by
    decide +kernel
  have hnest := calls_nest hreachable hcall (by simp [Continues]) (by decide) hbefore
  obtain ⟨hstack, hpc, -⟩ := hnest.2 (by decide +kernel)
  have hat : calling.machine.core.pc = 0x50 := by decide +kernel
  rw [hat] at hpc
  exact ⟨hreachable, hcall, hbefore, hstack, hpc⟩

end Chip8.Proofs.Host.Calls
