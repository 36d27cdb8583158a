import Chip8.Proofs.Host.Alterations
import Chip8.Proofs.Instruction.Word
import Chip8.Proofs.Machine.Indifference

/-!
# Dialects

Machines that differ in their dialect alone do the same, whatever a host asks of them, until one of
them carries out an instruction that their dialects disagree about.
-/

namespace Chip8.Proofs.Host.Dialects

open Chip8.Memory Chip8.Instruction
open Chip8.Proofs.Memory.Layout Chip8.Proofs.Instruction.Effect Chip8.Proofs.Instruction.Word
open Chip8.Proofs.Instruction.Cycle Chip8.Proofs.Machine.Representation
open Chip8.Proofs.Machine.Operations Chip8.Proofs.Machine.Indifference
open Chip8.Proofs.Host.Invariant Chip8.Proofs.Host.Alterations

/-- The words that two dialects disagree about. -/
inductive Disputed (d d' : Dialect) (word : Int) : Prop
  | shift (hdiffer : d.shiftsSecond ≠ d'.shiftsSecond) (hhigh : word / 0x1000 = 0x8)
      (hlow : word % 0x10 = 0x6 ∨ word % 0x10 = 0xE)
      (hregisters : word / 0x100 % 0x10 ≠ word / 0x10 % 0x10)
  | transfer (hdiffer : d.movesIndex ≠ d'.movesIndex) (hhigh : word / 0x1000 = 0xF)
      (hlow : word % 0x100 = 0x55 ∨ word % 0x100 = 0x65)
  | logic (hdiffer : d.logicClearsFlag ≠ d'.logicClearsFlag) (hhigh : word / 0x1000 = 0x8)
      (hlow : word % 0x10 = 0x1 ∨ word % 0x10 = 0x2 ∨ word % 0x10 = 0x3)

def Disputes (d d' : Dialect) (reply : Reply) : Prop :=
  CarriedOut (Disputed d d') reply

def speaking (setup : Setup) (dialect : Dialect) : Setup :=
  { setup with dialect }

def spoken (dialect : Dialect) : Alteration where
  dialect := fun _ => dialect
  random := id

/-! ## Instructions -/

section Instructions

variable {setup : Setup} {dialect : Dialect} {size word : Int} {form : Form} {c : MachineCore}
  {f : Fault}

theorem Disputed.symm {d d' : Dialect} (h : Disputed d d' word) : Disputed d' d word := by
  cases h with
  | shift hdiffer hhigh hlow hregisters => exact .shift hdiffer.symm hhigh hlow hregisters
  | transfer hdiffer hhigh hlow => exact .transfer hdiffer.symm hhigh hlow
  | logic hdiffer hhigh hlow => exact .logic hdiffer.symm hhigh hlow

theorem source_speaking (hagree : ¬Disputed setup.dialect dialect word)
    (hhigh : word / 0x1000 = 0x8) (hlow : word % 0x10 = 0x6 ∨ word % 0x10 = 0xE) :
    (if dialect.shiftsSecond then Opcode.y word else Opcode.x word) =
      if setup.dialect.shiftsSecond then Opcode.y word else Opcode.x word := by
  by_cases hregisters : word / 0x100 % 0x10 = word / 0x10 % 0x10
  · have hsame : Opcode.y word = Opcode.x word := by
      simp only [Opcode.x, Opcode.y, Fin.mk.injEq]
      omega
    simp only [hsame, ite_self]
  · have hswitch : setup.dialect.shiftsSecond = dialect.shiftsSecond :=
      Decidable.byContradiction fun hdiffer => hagree (.shift hdiffer hhigh hlow hregisters)
    rw [hswitch]

theorem passed_congr {d d' : Dialect} (h : d.movesIndex = d'.movesIndex) (x : Fin 16)
    (r : Registers) : passed d x r = passed d' x r := by
  unfold passed
  rw [h]

theorem registersAfter_speaking (hword : IsWord word) (hform : Form.ofOpcode? word = some form)
    (hagree : ¬Disputed setup.dialect dialect word) (c : MachineCore) :
    registersAfter (speaking setup dialect) form word c = registersAfter setup form word c := by
  obtain ⟨hthird, -, -, hlast⟩ := digits_of_ofOpcode? hform hword
  cases form <;> simp only [Form.shape] at hthird
  case or | and | xor =>
    have := hlast _ rfl
    have hswitch : setup.dialect.logicClearsFlag = dialect.logicClearsFlag :=
      Decidable.byContradiction fun hdiffer => hagree (.logic hdiffer (by omega) (by omega))
    simp only [registersAfter, speaking, hswitch]
  case shiftRight =>
    have := hlast _ rfl
    exact congrArg (fun source => c.registers.shiftRight (Opcode.x word) source)
      (source_speaking hagree (by omega) (by omega))
  case shiftLeft =>
    have := hlast _ rfl
    exact congrArg (fun source => c.registers.shiftLeft (Opcode.x word) source)
      (source_speaking hagree (by omega) (by omega))
  case storeRegisters | loadRegisters =>
    have hlow := lowByte_of_ofOpcode? hform hword rfl rfl
    have hswitch : setup.dialect.movesIndex = dialect.movesIndex :=
      Decidable.byContradiction fun hdiffer => hagree (.transfer hdiffer (by omega) (by omega))
    exact passed_congr hswitch.symm _ _
  all_goals rfl

theorem blocked_speaking {r : Registers} (hblocked : Blocked setup size form word r f) :
    Blocked (speaking setup dialect) size form word r f := by
  cases hblocked with
  | underflow hform hstack => exact .underflow hform hstack
  | overflow hform hlimit hstack => exact .overflow hform hlimit hstack
  | outside hspan hout => exact .outside hspan hout

theorem fails_speaking_iff :
    Fails (speaking setup dialect) size c f ↔ Fails setup size c f := by
  have hfails : ∀ setup dialect, Fails setup size c f →
      Fails (speaking setup dialect) size c f := by
    intro setup dialect hf
    cases hf with
    | fetch hout => exact .fetch hout
    | decode hin hform => exact .decode hin hform
    | execute hin hform hblocked => exact .execute hin hform (blocked_speaking hblocked)
  exact ⟨hfails (speaking setup dialect) setup.dialect, hfails setup dialect⟩

theorem executed_speaking (hword : IsWord (wordAt c.bus c.pc))
    (hform : Form.ofOpcode? (wordAt c.bus c.pc) = some form)
    (hagree : ¬Disputed setup.dialect dialect (wordAt c.bus c.pc)) :
    executed (speaking setup dialect) form c = executed setup form c := by
  unfold executed after
  rw [registersAfter_speaking hword hform hagree]

theorem stepped_speaking (h : executed (speaking setup dialect) form c = executed setup form c) :
    stepped (speaking setup dialect) form c = stepped setup form c := by
  unfold stepped
  rw [h]

theorem recorded_speaking (h : executed (speaking setup dialect) form c = executed setup form c) :
    recorded (speaking setup dialect) form c = recorded setup form c := by
  unfold recorded
  rw [h]
  rfl

end Instructions

/-! ## Machines -/

section Machines

variable {s : Settings} {m m' : Machine} {h : Host} {r : Request} {size : Int} {dialect : Dialect}

/-- A machine advances in the same way in another dialect, unless the two disagree about the
instruction. -/
theorem spares_spoken (h : Wide m.setup size m.core)
    (hagree : ∀ snapshot, m.advance.2 = .ok snapshot →
      ¬Disputed m.setup.dialect dialect snapshot.operation.opcode) :
    (spoken dialect).Spares m := by
  have h' : Wide ((spoken dialect).machine m).setup size ((spoken dialect).machine m).core :=
    { h with }
  unfold Alteration.Spares
  rcases advance_cases h with ⟨f, log, hf, -⟩ | ⟨form, hfree, hin, hform, heq⟩
  · rw [advance_eq_of_fails h hf, advance_eq_of_fails h' (fails_speaking_iff.2 hf)]
    rfl
  · rw [heq] at hagree ⊢
    rw [advance_eq_of_free h' (fun f hf => hfree f (fails_speaking_iff.1 hf)) hform]
    have hexecuted := executed_speaking (isWord_wordAt h.bus _) hform (hagree _ rfl)
    exact Prod.ext
      (congrArg (fun core => (spoken dialect).machine { m with core }) (stepped_speaking hexecuted))
      (congrArg Except.ok (recorded_speaking hexecuted))

theorem spares_of_held (dialect : Dialect) (h : Host) (hh : Held s h)
    (hagree : ∀ snapshot, h.machine.advance.2 = .ok snapshot →
      ¬Disputed s.dialect dialect snapshot.operation.opcode) :
    (spoken dialect).Spares h.machine := by
  refine spares_spoken hh.fits fun snapshot hresult => ?_
  rw [hh.setup_eq]
  exact hagree snapshot hresult

theorem handle_spoken (hh : Held s h) (hr : IsOperation r)
    (hagree : ¬Disputes s.dialect dialect (h.handle r).2) :
    ((spoken dialect).host h).handle r =
      ((spoken dialect).host (h.handle r).1, (h.handle r).2) :=
  handle_altered (spares_of_held dialect) hh hr hagree

/-- A disputed instruction is carried out in both dialects or in none. -/
theorem disputes_spoken_iff (hh : Held s h)
    (hh' : Held { s with dialect } ((spoken dialect).host h)) (hr : IsOperation r) :
    Disputes s.dialect dialect (((spoken dialect).host h).handle r).2 ↔
      Disputes s.dialect dialect (h.handle r).2 := by
  have hback : (spoken s.dialect).host ((spoken dialect).host h) = h := by
    have hsetup : speaking h.machine.setup s.dialect = h.machine.setup := by
      rw [hh.setup_eq]
      rfl
    exact congrArg (fun setup => { h with machine := { h.machine with setup } }) hsetup
  constructor
  · intro hother
    refine Classical.byContradiction fun hagree => hagree ?_
    rw [handle_spoken hh hr hagree] at hother
    exact hother
  · intro hself
    refine Classical.byContradiction fun hagree => hagree ?_
    have hagree' : ¬Disputes dialect s.dialect (((spoken dialect).host h).handle r).2 :=
      fun ⟨snapshot, hresult, hdisputed⟩ => hagree ⟨snapshot, hresult, hdisputed.symm⟩
    have hsame : ((spoken s.dialect).host ((spoken dialect).host h)).handle r = _ :=
      handle_spoken hh' hr hagree'
    rw [hback] at hsame
    rw [hsame] at hself
    exact hself

theorem eq_spoken_of_built (hm : Built s m) (hm' : Built { s with dialect } m')
    (hseed : s.seed ≠ none) : m' = (spoken dialect).machine m := by
  obtain ⟨fresh, random, hbuild, hstream, rfl⟩ := hm.built
  obtain ⟨fresh', random', hbuild', hstream', rfl⟩ := hm'.built
  rw [hstream hseed, hstream' hseed]
  unfold Settings.build at hbuild hbuild'
  cases hb : Bus.standard s.memorySize with
  | error e =>
      rw [hb] at hbuild
      cases hbuild
  | ok b =>
      rw [hb] at hbuild hbuild'
      cases hbuild
      cases hbuild'
      rfl

end Machines

/-- Two machines of settings that differ in the dialect alone, under the same seed, give the same
replies and stay the same but for the dialect, through all operations before one of them carries out
an instruction that the dialects disagree about; and then so does the other. -/
theorem dialects_agree {s : Settings} {dialect : Dialect} {m m' : Machine} (hm : Built s m)
    (hm' : Built { s with dialect } m') (hseed : s.seed ≠ none) (script : Text → List ToneAction)
    {requests : List Request} (hr : ∀ r ∈ requests, IsOperation r)
    (hagree : ∀ reply ∈ replies { machine := m, script } requests,
      ¬Disputes s.dialect dialect reply) :
    let h := Host.handleAll { machine := m, script } requests
    let h' := Host.handleAll { machine := m', script } requests
    replies { machine := m', script } requests = replies { machine := m, script } requests ∧
      h' = { h with machine := { h.machine with setup := speaking h.machine.setup dialect } } ∧
      ∀ r, IsOperation r →
        (Disputes s.dialect dialect (h'.handle r).2 ↔
          Disputes s.dialect dialect (h.handle r).2) := by
  intro h h'
  have hstart : Reachable s { machine := m, script } := .built hm script
  have hstart' : Reachable { s with dialect } { machine := m', script } := .built hm' script
  obtain rfl := eq_spoken_of_built hm hm' hseed
  obtain ⟨hreplies, hhost⟩ := run_altered (spares_of_held dialect) hstart.held hm.loadAddress
    hm.stackLimit hr hagree
  have hother : h' = (spoken dialect).host h := hhost
  refine ⟨hreplies, hother, fun r hop => ?_⟩
  have hheld' : Held { s with dialect } h' := (hstart'.handleAll hr).held
  rw [hother] at hheld' ⊢
  exact disputes_spoken_iff (hstart.handleAll hr).held hheld' hop

def word? (reply : Reply) : Option Int :=
  match reply.result with
  | .ok (.snapshot s) => some s.operation.opcode
  | _ => none

theorem Disputes.exists_word {d d' : Dialect} {reply : Reply} (h : Disputes d d' reply) :
    ∃ word, word? reply = some word ∧ Disputed d d' word := by
  obtain ⟨snapshot, hresult, hdisputed⟩ := h
  exact ⟨_, by rw [word?, hresult], hdisputed⟩

def seeded : Settings := { memorySize := 0x60, loadAddress := 0x50, seed := some 7 }

def shifting : Dialect := { shiftsSecond := true }

def shiftingOne : List Request :=
  [.load (.list [.int 0x81, .int 0x16]), .advance, .tick, .setKey (.int 3) true]

theorem dialects_agree_on_one_register :
    let m := newMachine seeded
    let m' := newMachine { seeded with dialect := shifting }
    Built seeded m ∧ Built { seeded with dialect := shifting } m' ∧ seeded.seed ≠ none ∧
    (∀ r ∈ shiftingOne, IsOperation r) ∧
    (∀ reply ∈ replies { machine := m } shiftingOne, ¬Disputes seeded.dialect shifting reply) ∧
    replies { machine := m' } shiftingOne = replies { machine := m } shiftingOne ∧
    (Host.handleAll { machine := m' } shiftingOne).machine.core =
      (Host.handleAll { machine := m } shiftingOne).machine.core := by
  intro m m'
  have hread : Settings.ofDocument (.ofValue (.map [(.text "memory_size", .int 0x60),
      (.text "load_address", .int 0x50), (.text "seed", .int 7)])) = ([], .ok seeded) := rfl
  have hread' : Settings.ofDocument (.ofValue (.map [(.text "memory_size", .int 0x60),
      (.text "load_address", .int 0x50), (.text "seed", .int 7),
      (.text "quirks", .map [(.text "shift_uses_vy", .bool true)])])) =
      ([], .ok { seeded with dialect := shifting }) := rfl
  have hm : Built seeded m := built_newMachine hread (by decide) (by decide)
  have hm' : Built { seeded with dialect := shifting } m' :=
    built_newMachine hread' (by decide) (by decide)
  have hseed : seeded.seed ≠ none := by decide
  have hr : ∀ r ∈ shiftingOne, IsOperation r := by simp [shiftingOne, IsOperation]
  have hwords : (replies { machine := m } shiftingOne).map word? =
      [none, some 0x8116, none, none] := by decide +kernel
  have hagree : ∀ reply ∈ replies { machine := m } shiftingOne,
      ¬Disputes seeded.dialect shifting reply := by
    intro reply hmem hdisputes
    obtain ⟨word, hword, hdisputed⟩ := hdisputes.exists_word
    have hlisted := List.mem_map_of_mem (f := word?) hmem
    rw [hwords, hword] at hlisted
    have heq : word = 0x8116 := by simpa using hlisted
    subst heq
    cases hdisputed with
    | shift _ _ _ hregisters => exact hregisters (by decide)
    | transfer _ hhigh _ => exact absurd hhigh (by decide)
    | logic hdiffer _ _ => exact hdiffer rfl
  obtain ⟨hreplies, hhost, -⟩ := dialects_agree hm hm' hseed (fun _ => []) hr hagree
  exact ⟨hm, hm', hseed, hr, hagree, hreplies,
    congrArg (fun h => h.machine.core) hhost⟩

end Chip8.Proofs.Host.Dialects
