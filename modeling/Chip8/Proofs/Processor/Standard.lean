import Chip8.Proofs.Processor.Contract
import Mathlib.Tactic.Choose

/-!
# The machine as a processor

Whatever the instructions of the machine do, they do it by logged reads and writes and by setting
registers, program counter and hardware.  So the contract of the cycle holds for the machine in
every state, also for a memory other than the standard one.
-/

namespace Chip8.Proofs.Processor.Standard

open Chip8.Action Chip8.Instruction Chip8.Proofs.Instruction.Action Chip8.Proofs.Processor.Contract

/-! ## Actions that routines carry out -/

section Routines

variable {ρ δ α β : Type} {x : Action ρ δ α}

/-- Whether an action is what some routine does. -/
def IsRoutine (x : Action ρ δ α) : Prop := ∃ r : Routine ρ δ α, x = r.run

def andThen : Routine ρ δ α → (α → Routine ρ δ β) → Routine ρ δ β
  | .done value, f => f value
  | .raise e, _ => .raise e
  | .look next, f => .look fun c => andThen (next c) f
  | .read address next, f => .read address fun value => andThen (next value) f
  | .write address value next, f => .write address value (andThen next f)
  | .assign pc registers hardware next, f => .assign pc registers hardware (andThen next f)

theorem run_andThen (r : Routine ρ δ α) (f : α → Routine ρ δ β) :
    (andThen r f).run = r.run >>= fun value => (f value).run := by
  induction r with
  | done value => rfl
  | raise e => rfl
  | look next ih => simp only [andThen, Routine.run, ih, bind_assoc]
  | read address next ih => simp only [andThen, Routine.run, ih, bind_assoc]
  | write address value next ih => simp only [andThen, Routine.run, ih, bind_assoc]
  | assign pc registers hardware next ih => simp only [andThen, Routine.run, ih, bind_assoc]

theorem IsRoutine.bind {f : α → Action ρ δ β} (hx : IsRoutine x) (hf : ∀ a, IsRoutine (f a)) :
    IsRoutine (x >>= f) := by
  obtain ⟨r, rfl⟩ := hx
  choose next hnext using hf
  refine ⟨andThen r next, ?_⟩
  rw [run_andThen, funext hnext]

/-- An action that leaves memory alone: it sets what it likes or fails at once. -/
theorem isRoutine_of_local
    (h : ∀ c, (∃ a pc registers hardware, x c = .ok a { c with pc, registers, hardware }) ∨
      ∃ f, x c = .error (.fault f) c) : IsRoutine x := by
  have heach : ∀ c, ∃ r : Routine ρ δ α, x c = r.run c := by
    intro c
    rcases h c with ⟨a, pc, registers, hardware, heq⟩ | ⟨f, heq⟩
    · exact ⟨.assign pc registers hardware (.done a), heq⟩
    · exact ⟨.raise f, heq⟩
  choose next hnext using heach
  exact ⟨.look next, funext hnext⟩

theorem isRoutine_pure (a : α) : IsRoutine (pure a : Action ρ δ α) := ⟨.done a, rfl⟩

theorem isRoutine_readByte (address : Int) : IsRoutine (readByte address : Action ρ δ Int) :=
  ⟨.read address .done, (bind_pure _).symm⟩

theorem isRoutine_writeByte (address value : Int) :
    IsRoutine (writeByte address value : Action ρ δ Unit) :=
  ⟨.write address value (.done ()), (bind_pure _).symm⟩

theorem isRoutine_readBytes (address : Int) (count : Nat) :
    IsRoutine (readBytes address count : Action ρ δ (List Int)) := by
  induction count generalizing address with
  | zero => exact isRoutine_pure []
  | succ count ih =>
      exact (isRoutine_readByte address).bind fun value =>
        (ih (address + 1)).bind fun rest => isRoutine_pure (value :: rest)

theorem isRoutine_writeBytes (address : Int) (values : List Int) :
    IsRoutine (writeBytes address values : Action ρ δ Unit) := by
  induction values generalizing address with
  | nil => exact isRoutine_pure ()
  | cons value rest ih => exact (isRoutine_writeByte address value).bind fun _ => ih (address + 1)

end Routines

/-! ## The instructions of the machine -/

section Instructions

theorem isRoutine_registers : IsRoutine registers :=
  isRoutine_of_local fun c => .inl ⟨c.registers, _, _, _, rfl⟩

theorem isRoutine_onRegisters (f : Registers → Registers) :
    IsRoutine (onRegisters f : Instruction Unit) :=
  isRoutine_of_local fun _ => .inl ⟨(), _, _, _, rfl⟩

theorem isRoutine_setPc (pc : Int) : IsRoutine (setPc pc : Instruction Unit) :=
  isRoutine_of_local fun _ => .inl ⟨(), _, _, _, rfl⟩

theorem isRoutine_setV (n : Fin 16) (value : Int) : IsRoutine (setV n value) :=
  isRoutine_onRegisters _

theorem isRoutine_setIndex (value : Int) : IsRoutine (setIndex value) :=
  isRoutine_onRegisters _

theorem isRoutine_checkRange (start count : Int) : IsRoutine (checkRange start count) := by
  apply isRoutine_of_local
  intro c
  unfold checkRange
  split
  · exact .inr ⟨_, rfl⟩
  · exact .inl ⟨(), _, _, _, rfl⟩

theorem isRoutine_skipIf (condition : Registers → Bool) : IsRoutine (skipIf condition) :=
  isRoutine_of_local fun c => .inl ⟨(), _, _, _, skipIf_apply c condition⟩

theorem isRoutine_skipIfKey (pressed : Bool) (x : Fin 16) : IsRoutine (skipIfKey pressed x) :=
  isRoutine_of_local fun c => .inl ⟨(), _, _, _, skipIfKey_apply c pressed x⟩

theorem isRoutine_waitKey (x : Fin 16) : IsRoutine (waitKey x) :=
  isRoutine_of_local fun c => .inl ⟨(), _, _, _, waitKey_apply c x⟩

theorem isRoutine_passIndex (dialect : Dialect) (x : Fin 16) : IsRoutine (passIndex dialect x) :=
  isRoutine_of_local fun c => .inl ⟨(), _, _, _, passIndex_apply c dialect x⟩

theorem isRoutine_ret : IsRoutine ret := by
  apply isRoutine_of_local
  intro c
  cases hstack : c.registers.stack with
  | nil => exact .inr ⟨_, ret_nil c hstack⟩
  | cons address rest => exact .inl ⟨(), _, _, _, ret_cons c hstack⟩

theorem isRoutine_call (limit : Option Int) (target : Int) : IsRoutine (call limit target) := by
  apply isRoutine_of_local
  intro c
  by_cases hfull : Full limit c.registers
  · obtain ⟨n, rfl, hn⟩ := hfull
    exact .inr ⟨_, call_full c hn target⟩
  · exact .inl ⟨(), _, _, _, call_apply c hfull target⟩

theorem isRoutine_loadEach (address : Int) (names : List (Fin 16)) :
    IsRoutine (loadEach address names) := by
  induction names generalizing address with
  | nil => exact isRoutine_pure ()
  | cons n rest ih =>
      exact (isRoutine_readByte address).bind fun value =>
        (isRoutine_setV n value).bind fun _ => ih (address + 1)

theorem isRoutine_draw (x y : Fin 16) (rows : Int) : IsRoutine (draw x y rows) :=
  isRoutine_registers.bind fun r =>
    (isRoutine_checkRange r.index rows).bind fun _ =>
      (isRoutine_readBytes r.index rows.toNat).bind fun _ =>
        isRoutine_of_local fun _ => .inl ⟨(), _, _, _, rfl⟩

theorem isRoutine_storeDecimal (x : Fin 16) : IsRoutine (storeDecimal x) :=
  isRoutine_registers.bind fun r =>
    (isRoutine_checkRange r.index 3).bind fun _ => isRoutine_writeBytes r.index _

theorem isRoutine_storeRegisters (dialect : Dialect) (x : Fin 16) :
    IsRoutine (storeRegisters dialect x) :=
  isRoutine_registers.bind fun r =>
    (isRoutine_checkRange r.index (x.val + 1)).bind fun _ =>
      (isRoutine_writeBytes r.index _).bind fun _ => isRoutine_passIndex dialect x

theorem isRoutine_loadRegisters (dialect : Dialect) (x : Fin 16) :
    IsRoutine (loadRegisters dialect x) :=
  isRoutine_registers.bind fun r =>
    (isRoutine_checkRange r.index (x.val + 1)).bind fun _ =>
      (isRoutine_loadEach r.index (upTo x)).bind fun _ => isRoutine_passIndex dialect x

theorem isRoutine_random (x : Fin 16) (nn : Int) :
    IsRoutine (do setV x (Registers.byteAnd (← drawByte) nn)) :=
  isRoutine_of_local fun _ => .inl ⟨(), _, _, _, rfl⟩

theorem isRoutine_ofForm (setup : Setup) (form : Form) (opcode : Int) :
    IsRoutine (ofForm setup form opcode) := by
  cases form with
  | nop | sys => exact isRoutine_pure ()
  | ret => exact isRoutine_ret
  | jump => exact isRoutine_setPc _
  | call => exact isRoutine_call _ _
  | skipEqByte | skipNeByte | skipEq | skipNe => exact isRoutine_skipIf _
  | jumpOffset => exact isRoutine_registers.bind fun _ => isRoutine_setPc _
  | random => exact isRoutine_random _ _
  | draw => exact isRoutine_draw _ _ _
  | skipPressed | skipReleased => exact isRoutine_skipIfKey _ _
  | waitKey => exact isRoutine_waitKey _
  | addIndex =>
      exact isRoutine_registers.bind fun _ => isRoutine_registers.bind fun _ => isRoutine_setIndex _
  | pointGlyph => exact isRoutine_registers.bind fun _ => isRoutine_setIndex _
  | storeDecimal => exact isRoutine_storeDecimal _
  | storeRegisters => exact isRoutine_storeRegisters _ _
  | loadRegisters => exact isRoutine_loadRegisters _ _
  | _ =>
      -- What is left changes registers or the display, and never fails.
      exact isRoutine_of_local fun _ => .inl ⟨(), _, _, _, rfl⟩

theorem isRoutine_execute (setup : Setup) (op : Operation) :
    IsRoutine ((instructionSet setup).execute op) := by
  change IsRoutine (execute setup op)
  unfold execute
  split
  · exact isRoutine_ofForm setup _ _
  · exact isRoutine_of_local fun _ => .inr ⟨_, rfl⟩

end Instructions

/-! ## The contract -/

section Machine

def fetchWithin : Routine Registers Hardware Int :=
  .look fun c =>
    if c.hardware.memorySize ≤ c.pc + 1 then .raise (.addressOutOfRange c.pc 2) else fetchWord

theorem run_fetchWithin (setup : Setup) : (instructionSet setup).fetch = fetchWithin.run := by
  funext c
  change fetch c =
    (if c.hardware.memorySize ≤ c.pc + 1 then _ else _ : Routine Registers Hardware Int).run c
  unfold fetch
  split <;> rfl

theorem setsNothing_fetchWithin : SetsNothing fetchWithin := by
  intro c
  dsimp only
  split
  · trivial
  · exact setsNothing_fetchWord

def decodeHere (opcode : Int) : Routine Registers Hardware Operation :=
  .look fun c =>
    match Operation.decode opcode (some c.pc) with
    | .ok op => .done op
    | .error f => .raise f

theorem run_decodeHere (setup : Setup) (opcode : Int) :
    (instructionSet setup).decode opcode = (decodeHere opcode).run := by
  funext c
  simp only [instructionSet, Instruction.decode, decodeHere, Routine.run, bind_apply, get_apply]
  cases Operation.decode opcode (some c.pc) <;> rfl

theorem setsNothing_decodeHere (opcode : Int) : SetsNothing (decodeHere opcode) := by
  intro c
  dsimp only
  cases Operation.decode opcode (some c.pc) <;> trivial

/-- The machine keeps to the contract of the cycle. -/
theorem nonempty_behaviour (setup : Setup) : Nonempty (Behaviour (instructionSet setup)) := by
  choose execute hexecute using isRoutine_execute setup
  refine ⟨{
    fetch := fetchWithin
    decode := decodeHere
    execute
    fetch_eq := run_fetchWithin setup
    decode_eq := run_decodeHere setup
    execute_eq := hexecute
    fetch_same := fun c => ?_
    decode_same := fun opcode c => ?_ }⟩
  · rw [run_fetchWithin]
    exact sameState_run setsNothing_fetchWithin c
  · rw [run_decodeHere]
    exact sameState_run (setsNothing_decodeHere opcode) c

end Machine

end Chip8.Proofs.Processor.Standard
