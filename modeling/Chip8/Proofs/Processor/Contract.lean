import Chip8.Proofs.Instruction.Action
import Chip8.Script

/-!
# What a cycle promises on any processor

The cycle does not know what the instructions of a processor do.  Whatever they read, write and set,
and wherever they fail, a finished cycle records exactly the accesses that it made, and a cycle that
meets a fault leaves the program counter and the number of cycles as they were.
-/

namespace Chip8.Proofs.Processor.Contract

open Chip8.Memory Chip8.Proofs.Instruction.Action

/-! ## Routines -/

/-- What a processor does one after the other, with every further step depending on what was found
before.  Memory is changed by logged writes only, and a fault may be raised at any point. -/
inductive Routine (ρ δ α : Type) where
  | done (value : α)
  | raise (f : Fault)
  | look (next : Core ρ δ → Routine ρ δ α)
  | read (address : Int) (next : Int → Routine ρ δ α)
  | write (address value : Int) (next : Routine ρ δ α)
  | assign (pc : Int) (registers : ρ) (hardware : δ) (next : Routine ρ δ α)

namespace Routine

variable {ρ δ α : Type}

def run : Routine ρ δ α → Action ρ δ α
  | .done value => pure value
  | .raise f => fun c => .error (.fault f) c
  | .look next => do (next (← get)).run
  | .read address next => do (next (← Action.readByte address)).run
  | .write address value next => do
    Action.writeByte address value
    next.run
  | .assign pc registers hardware next => do
    modify fun c => { c with pc, registers, hardware }
    next.run

/-- The reads and writes of a routine that succeed, in their order. -/
def accesses : Routine ρ δ α → Core ρ δ → List Access
  | .done _, _ | .raise _, _ => []
  | .look next, c => (next c).accesses c
  | .read address next, c =>
    match Action.readByte address c with
    | .ok value c => ⟨address, value, .read⟩ :: (next value).accesses c
    | .error _ _ => []
  | .write address value next, c =>
    match Action.writeByte address value c with
    | .ok () c => ⟨address, value, .write⟩ :: next.accesses c
    | .error _ _ => []
  | .assign pc registers hardware next, c => next.accesses { c with pc, registers, hardware }

end Routine

/-! ## Processors -/

section Processors

variable {ρ δ α : Type}

def reached : EStateM.Result Failure (Core ρ δ) α → Core ρ δ
  | .ok _ c | .error _ c => c

/-- Whether the program counter and the registers are the same. -/
def SameState (c d : Core ρ δ) : Prop := d.pc = c.pc ∧ d.registers = c.registers

/-- An instruction set by what it does: fetching and decoding leave the state as it is, executing
may do anything. -/
structure Behaviour (isa : InstructionSet ρ δ) where
  fetch : Routine ρ δ Int
  decode : Int → Routine ρ δ Operation
  execute : Operation → Routine ρ δ Unit
  fetch_eq : isa.fetch = fetch.run
  decode_eq : ∀ opcode, isa.decode opcode = (decode opcode).run
  execute_eq : ∀ op, isa.execute op = (execute op).run
  fetch_same : ∀ c, SameState c (reached (isa.fetch c))
  decode_same : ∀ opcode c, SameState c (reached (isa.decode opcode c))

/-- The successful accesses of a cycle that begins on a processor, as far as the cycle gets. -/
def Behaviour.accesses {isa : InstructionSet ρ δ} (b : Behaviour isa) (c : Core ρ δ) :
    List Access :=
  b.fetch.accesses c.clearLog ++
    match isa.fetch c.clearLog with
    | .error _ _ => []
    | .ok opcode fetched =>
      (b.decode opcode).accesses fetched ++
        match isa.decode opcode fetched with
        | .error _ _ => []
        | .ok op decoded => (b.execute op).accesses (decoded.skip op)

def later (isa : InstructionSet ρ δ) (c : Core ρ δ) : Nat → Core ρ δ
  | 0 => c
  | n + 1 => later isa (reached (isa.step c)) n

/-- What a cycle has done that began on `c`, gave the snapshot `s` and left `d`. -/
structure Completes {isa : InstructionSet ρ δ} (b : Behaviour isa) (c : Core ρ δ)
    (s : Snapshot ρ) (d : Core ρ δ) : Prop where
  executed : ∃ opcode fetched decoded started ended,
    isa.fetch c.clearLog = .ok opcode fetched ∧
    isa.decode opcode fetched = .ok s.operation decoded ∧
    started = decoded.skip s.operation ∧
    isa.execute s.operation started = .ok () ended ∧
    started.pc = (c.pc + s.operation.length) % 65536 ∧ started.registers = c.registers ∧
    d = ended.finish s.operation ∧ s.pc = d.pc ∧ s.registers = d.registers
  address : s.address = c.pc
  counted : d.cycles = c.cycles + s.operation.cycleCount
  cycles : s.cycles = d.cycles
  accesses : s.accesses = b.accesses c
  emptied : d.bus.log = []

end Processors

/-! ## Accesses and the log -/

section Log

variable {ρ δ α : Type} {c d : Core ρ δ} {address value : Int} {e : Failure}

theorem readByte_ok (h : Action.readByte address c = .ok value d) :
    d.bus.log = c.bus.log ++ [⟨address, value, .read⟩] ∧ d.cycles = c.cycles := by
  unfold Action.readByte Bus.read at h
  cases hpeek : c.bus.peek address with
  | error e =>
      rw [hpeek] at h
      cases h
  | ok found =>
      rw [hpeek] at h
      cases h
      exact ⟨rfl, rfl⟩

theorem readByte_error (h : Action.readByte address c = .error e d) : d = c := by
  unfold Action.readByte at h
  split at h <;> cases h
  rfl

theorem log_written {b : Bus} (h : b.writeError? address value = none) :
    (b.written address value).log = b.log ++ [⟨address, value, .write⟩] := by
  unfold Bus.writeError? at h
  unfold Bus.written
  cases hregion : b.region? address with
  | none =>
      rw [hregion] at h
      cases h
  | some r => rfl

theorem writeByte_ok (h : Action.writeByte address value c = .ok () d) :
    d.bus.log = c.bus.log ++ [⟨address, value, .write⟩] ∧ d.cycles = c.cycles := by
  unfold Action.writeByte at h
  cases herror : c.bus.writeError? address value with
  | none =>
      rw [herror] at h
      cases h
      exact ⟨log_written herror, rfl⟩
  | some e =>
      rw [herror] at h
      cases h

theorem writeByte_error (h : Action.writeByte address value c = .error e d) : d = c := by
  unfold Action.writeByte at h
  split at h <;> cases h
  rfl

/-- A routine logs the accesses that succeed and no others, also when it fails, and counts no
cycles. -/
theorem run_logs (r : Routine ρ δ α) (c : Core ρ δ) :
    (reached (r.run c)).bus.log = c.bus.log ++ r.accesses c ∧
      (reached (r.run c)).cycles = c.cycles := by
  induction r generalizing c with
  | done value => exact ⟨(List.append_nil _).symm, rfl⟩
  | raise f => exact ⟨(List.append_nil _).symm, rfl⟩
  | look next ih => exact ih c c
  | read address next ih =>
      simp only [Routine.run, bind_apply, Routine.accesses]
      cases hread : Action.readByte address c with
      | error e d =>
          rw [readByte_error hread]
          exact ⟨(List.append_nil _).symm, rfl⟩
      | ok value d =>
          obtain ⟨hlog, hcycles⟩ := readByte_ok hread
          obtain ⟨hlogs, hcounts⟩ := ih value d
          exact ⟨by rw [hlogs, hlog, List.append_assoc, List.singleton_append],
            hcounts.trans hcycles⟩
  | write address value next ih =>
      simp only [Routine.run, bind_apply, Routine.accesses]
      cases hwrite : Action.writeByte address value c with
      | error e d =>
          rw [writeByte_error hwrite]
          exact ⟨(List.append_nil _).symm, rfl⟩
      | ok _ d =>
          obtain ⟨hlog, hcycles⟩ := writeByte_ok hwrite
          obtain ⟨hlogs, hcounts⟩ := ih d
          exact ⟨by rw [hlogs, hlog, List.append_assoc, List.singleton_append],
            hcounts.trans hcycles⟩
  | assign pc registers hardware next ih => exact ih { c with pc, registers, hardware }

theorem logs_of_eq {x : Action ρ δ α} {r : Routine ρ δ α} (hx : x = r.run) (c : Core ρ δ) :
    (reached (x c)).bus.log = c.bus.log ++ r.accesses c ∧ (reached (x c)).cycles = c.cycles := by
  rw [hx]
  exact run_logs r c

end Log

/-! ## Cycles -/

section Cycles

variable {ρ δ : Type} {isa : InstructionSet ρ δ} {b : Behaviour isa} {c d : Core ρ δ}

/-- What a cycle does, phase by phase: it ends with the first phase that fails, or it finishes. -/
theorem step_phases (b : Behaviour isa) (c : Core ρ δ) :
    (∃ failure d, isa.step c = .error failure d ∧
      (∀ f, failure = .fault f → d.pc = c.pc ∧ d.cycles = c.cycles)) ∨
    ∃ s d, isa.step c = .ok s d ∧ Completes b c s d := by
  obtain ⟨hlog, hcycles⟩ := logs_of_eq b.fetch_eq c.clearLog
  obtain ⟨hpc, hregisters⟩ := b.fetch_same c.clearLog
  cases hfetch : isa.fetch c.clearLog with
  | error failure fetched =>
      rw [hfetch] at hpc hcycles
      refine .inl ⟨failure, fetched, ?_, fun _ _ => ⟨hpc, hcycles⟩⟩
      simp only [InstructionSet.step, hfetch]
  | ok opcode fetched =>
      rw [hfetch] at hlog hcycles hpc hregisters
      obtain ⟨hlog', hcycles'⟩ := logs_of_eq (b.decode_eq opcode) fetched
      obtain ⟨hpc', hregisters'⟩ := b.decode_same opcode fetched
      cases hdecode : isa.decode opcode fetched with
      | error failure decoded =>
          rw [hdecode] at hpc' hcycles'
          refine .inl ⟨failure, decoded, ?_, fun _ _ => ⟨hpc'.trans hpc, hcycles'.trans hcycles⟩⟩
          simp only [InstructionSet.step, hfetch, hdecode]
      | ok op decoded =>
          rw [hdecode] at hlog' hcycles' hpc' hregisters'
          obtain ⟨hlog'', hcycles''⟩ := logs_of_eq (b.execute_eq op) (decoded.skip op)
          have hcount : (decoded.skip op).cycles = c.cycles := hcycles'.trans hcycles
          cases hexecute : isa.execute op (decoded.skip op) with
          | error failure ended =>
              rw [hexecute] at hcycles''
              cases failure with
              | fault f =>
                  refine .inl ⟨.fault f, { ended with pc := c.pc }, ?_,
                    fun _ _ => ⟨rfl, hcycles''.trans hcount⟩⟩
                  simp only [InstructionSet.step, hfetch, hdecode, hexecute]
              | memory e =>
                  refine .inl ⟨.memory e, ended, ?_, fun _ hfault => by cases hfault⟩
                  simp only [InstructionSet.step, hfetch, hdecode, hexecute]
          | ok _ ended =>
              rw [hexecute] at hlog'' hcycles''
              have hstart : (decoded.skip op).pc = (c.pc + op.length) % 65536 :=
                congrArg (fun pc => (pc + op.length) % 65536) (hpc'.trans hpc)
              have hended : ended.cycles + op.cycleCount = c.cycles + op.cycleCount :=
                congrArg (· + op.cycleCount) (hcycles''.trans hcount)
              refine .inr ⟨isa.snapshot c.pc op ended, ended.finish op, ?_, ?_, rfl, hended, rfl,
                ?_, rfl⟩
              · simp only [InstructionSet.step, hfetch, hdecode, hexecute]
              · exact ⟨opcode, fetched, decoded, decoded.skip op, ended, hfetch, hdecode, rfl,
                  hexecute, hstart, hregisters'.trans hregisters, rfl, rfl, rfl⟩
              · -- The log was empty at first, and each phase adds its accesses to it.
                calc ended.bus.log
                    = decoded.bus.log ++ (b.execute op).accesses (decoded.skip op) := hlog''
                  _ = (fetched.bus.log ++ (b.decode opcode).accesses fetched) ++
                        (b.execute op).accesses (decoded.skip op) := by rw [← hlog']; rfl
                  _ = b.accesses c := by
                        have hfirst : fetched.bus.log = b.fetch.accesses c.clearLog := hlog
                        simp only [Behaviour.accesses, hfetch, hdecode, hfirst, List.append_assoc]

theorem completes_of_step {s : Snapshot ρ} (h : isa.step c = .ok s d) : Completes b c s d := by
  rcases step_phases b c with ⟨failure, d', heq, -⟩ | ⟨s', d', heq, hcompletes⟩
  · rw [heq] at h
    cases h
  · rw [heq] at h
    cases h
    exact hcompletes

theorem same_of_fault (b : Behaviour isa) {f : Fault} (h : isa.step c = .error (.fault f) d) :
    d.pc = c.pc ∧ d.cycles = c.cycles := by
  rcases step_phases b c with ⟨failure, d', heq, hsame⟩ | ⟨s', d', heq, -⟩
  · rw [heq] at h
    cases h
    exact hsame f rfl
  · rw [heq] at h
    cases h

end Cycles

/-! ## Routines that set nothing -/

section Keeping

variable {ρ δ α : Type}

def SetsNothing : Routine ρ δ α → Prop
  | .done _ | .raise _ => True
  | .look next => ∀ c, SetsNothing (next c)
  | .read _ next => ∀ value, SetsNothing (next value)
  | .write _ _ next => SetsNothing next
  | .assign _ _ _ _ => False

theorem sameState_readByte (address : Int) (c : Core ρ δ) :
    SameState c (reached (Action.readByte address c)) := by
  unfold Action.readByte
  split <;> exact ⟨rfl, rfl⟩

theorem sameState_writeByte (address value : Int) (c : Core ρ δ) :
    SameState c (reached (Action.writeByte address value c)) := by
  unfold Action.writeByte
  split <;> exact ⟨rfl, rfl⟩

theorem SameState.trans {c d e : Core ρ δ} (h : SameState c d)
    (h' : SameState d e) : SameState c e :=
  ⟨h'.1.trans h.1, h'.2.trans h.2⟩

theorem sameState_run {r : Routine ρ δ α} (h : SetsNothing r) (c : Core ρ δ) :
    SameState c (reached (r.run c)) := by
  induction r generalizing c with
  | done value => exact ⟨rfl, rfl⟩
  | raise f => exact ⟨rfl, rfl⟩
  | look next ih => exact ih c (h c) c
  | read address next ih =>
      have hsame := sameState_readByte address c
      simp only [Routine.run, bind_apply]
      cases hread : Action.readByte address c with
      | error e d => rwa [hread] at hsame
      | ok value d =>
          rw [hread] at hsame
          exact hsame.trans (ih value (h value) d)
  | write address value next ih =>
      have hsame := sameState_writeByte address value c
      simp only [Routine.run, bind_apply]
      cases hwrite : Action.writeByte address value c with
      | error e d => rwa [hwrite] at hsame
      | ok _ d =>
          rw [hwrite] at hsame
          exact hsame.trans (ih h d)
  | assign pc registers hardware next ih => exact h.elim

def fetchWord : Routine ρ δ Int :=
  .look fun c => .read c.pc fun high => .read (c.pc + 1) fun low => .done (high * 256 + low)

theorem setsNothing_fetchWord : SetsNothing (fetchWord : Routine ρ δ Int) :=
  fun _ _ _ => trivial

end Keeping

/-! ## Scripted processors -/

section Scripted

variable (table : List ScriptEntry)

def ofScript : List ScriptStep → Routine Int Unit Unit
  | [] => .done ()
  | .write address value :: rest => .write address value (ofScript rest)
  | .read address :: rest => .read address fun _ => ofScript rest
  | .pc value :: rest => .look fun c => .assign value c.registers c.hardware (ofScript rest)
  | .sp amount :: rest =>
    .look fun c => .assign c.pc (c.registers + amount) c.hardware (ofScript rest)
  | .fault text :: _ => .raise (.described text)

def scriptOf (op : Operation) : List ScriptStep :=
  ((entryOf? table op.opcode).map (·.script)).getD []

theorem run_ofScript (script : List ScriptStep) :
    (ofScript script).run = ScriptStep.performAll script := by
  induction script with
  | nil => rfl
  | cons step rest ih =>
      funext c
      cases step with
      | write address value =>
          rw [ofScript, Routine.run, ih]
          rfl
      | read address =>
          simp only [ofScript, Routine.run, ih, ScriptStep.performAll, ScriptStep.perform,
            bind_assoc, pure_bind]
      | pc value =>
          simp only [ofScript, Routine.run, ih]
          rfl
      | sp amount =>
          simp only [ofScript, Routine.run, ih]
          rfl
      | fault text => rfl

def decodeBy (opcode : Int) : Routine Int Unit Operation :=
  .look fun c =>
    match entryOf? table opcode with
    | some entry => .done entry.operation
    | none => .raise (.unknownOpcode opcode [0, 0, 0, 0] (some c.pc))

theorem run_decodeBy (opcode : Int) :
    (scriptedSet table).decode opcode = (decodeBy table opcode).run := by
  funext c
  simp only [scriptedSet, decodeBy, Routine.run, bind_apply, get_apply]
  cases entryOf? table opcode <;> rfl

theorem setsNothing_decodeBy (opcode : Int) :
    SetsNothing (decodeBy table opcode) := by
  intro c
  cases entryOf? table opcode <;> exact trivial

def scriptedBehaviour : Behaviour (scriptedSet table) where
  fetch := fetchWord
  decode := decodeBy table
  execute := fun op => ofScript (scriptOf table op)
  fetch_eq := rfl
  decode_eq := run_decodeBy table
  execute_eq := fun op => (run_ofScript _).symm
  fetch_same := sameState_run setsNothing_fetchWord
  decode_same := by
    intro opcode c
    rw [run_decodeBy]
    exact sameState_run (setsNothing_decodeBy table opcode) c

end Scripted

/-! ## The contract -/

/-- The contract of the cycle.  On every processor in every state, whatever the log still holds, a
cycle that finishes executed its operation from behind it, counted its cycles, recorded exactly the
accesses that it made, and left no log.  A cycle that meets a fault leaves the program counter and
the count as they were, and what it accessed shows in no later snapshot: the snapshot of any later
cycle lists the accesses of that cycle, and the log that a cycle finds does not matter to it. -/
theorem cycle_contract {ρ δ : Type} {isa : InstructionSet ρ δ} (b : Behaviour isa)
    (c : Core ρ δ) :
    (∀ s d, isa.step c = .ok s d → Completes b c s d) ∧
    ∀ f d, isa.step c = .error (.fault f) d →
      d.pc = c.pc ∧ d.cycles = c.cycles ∧
      (∀ n s e, isa.step (later isa d n) = .ok s e → s.accesses = b.accesses (later isa d n)) ∧
      ∀ log, isa.step { d with bus := { d.bus with log } } = isa.step d := by
  refine ⟨fun s d h => completes_of_step h, fun f d h => ?_⟩
  obtain ⟨hpc, hcycles⟩ := same_of_fault b h
  exact ⟨hpc, hcycles, fun n s e hlater => (completes_of_step hlater).accesses, fun log => rfl⟩

def smallBus : Bus where
  devices := #[.cells .ram (.int 8) #[0x12, 0x34, 0x56, 0x78, 0, 0, 0, 0]]
  regions := [⟨0, 7, 0⟩]
  log := [⟨5, 1, .read⟩]

def twoWords : List ScriptEntry :=
  [{ operation := { opcode := 0x1234, mnemonic := "GO", cycleCount := 5, length := 3 }
     script := [.write 4 9, .read 4, .sp 2, .pc 6] },
   { operation := { opcode := 0x5678, mnemonic := "FAIL" }
     script := [.write 5 7, .pc 4, .fault "late"] }]

/-- The contract at work: a cycle that finishes, and one that fails after a jump. -/
theorem cycle_contract_of_script :
    (∃ s d, (scriptedSet twoWords).step (ScriptCore.create 0 smallBus) = .ok s d ∧
      s.address = 0 ∧ d.cycles = 5 ∧ d.bus.log = [] ∧
      s.accesses = [⟨0, 0x12, .read⟩, ⟨1, 0x34, .read⟩, ⟨4, 9, .write⟩, ⟨4, 9, .read⟩]) ∧
    ∃ f d, (scriptedSet twoWords).step (ScriptCore.create 2 smallBus) = .error (.fault f) d ∧
      d.pc = 2 ∧ d.cycles = 0 := by
  constructor
  · obtain ⟨s, d, hstep⟩ : ∃ s d,
        (scriptedSet twoWords).step (ScriptCore.create 0 smallBus) = .ok s d := ⟨_, _, rfl⟩
    have hdone := (cycle_contract (scriptedBehaviour twoWords) _).1 s d hstep
    refine ⟨s, d, hstep, hdone.address, ?_, hdone.emptied, hdone.accesses.trans rfl⟩
    rw [← hdone.cycles]
    cases hstep
    rfl
  · obtain ⟨f, d, hstep⟩ : ∃ f d,
        (scriptedSet twoWords).step (ScriptCore.create 2 smallBus) = .error (.fault f) d :=
      ⟨_, _, rfl⟩
    obtain ⟨hpc, hcycles, -⟩ := (cycle_contract (scriptedBehaviour twoWords) _).2 f d hstep
    exact ⟨f, d, hstep, hpc, hcycles⟩

end Chip8.Proofs.Processor.Contract
