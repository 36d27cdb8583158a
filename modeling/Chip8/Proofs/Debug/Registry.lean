import Chip8.Debug.Debugger
import Chip8.Proofs.Debug.Breakpoint

/-!
# Registered breakpoints

A debugger is meant to register a breakpoint once, so that removing it is enough to be rid of it.
Adding and removing keep to that; updating does unless it puts in a breakpoint that is registered
at another place.
-/

namespace Chip8.Proofs.Debug.Registry

open Chip8.Proofs.Debug.Breakpoint

variable {ρ δ : Type}

/-! ## Breakpoints that are the same -/

/-- What the fields of breakpoints are meant to hold: numbers, texts, truth values or nothing. -/
inductive IsScalar : Value → Prop
  | null : IsScalar .null
  | bool (b : Bool) : IsScalar (.bool b)
  | int (z : Int) : IsScalar (.int z)
  | text (t : Text) : IsScalar (.text t)

def counted : Value → Value
  | .bool b => .int (if b then 1 else 0)
  | value => value

/-- A breakpoint that holds what it is meant to hold. -/
def IsPlain (bp : Breakpoint) : Prop :=
  ∀ field ∈ bp.fields, IsScalar field.2

section Same

variable {a b c : Breakpoint}

theorem same_iff_counted {v w : Value} (hv : IsScalar v) (hw : IsScalar w) :
    v.same w = true ↔ counted v = counted w := by
  cases hv <;> cases hw <;>
    simp [counted, Value.same, Value.sameNumber, Value.integer?, Value.int?]

/-- Plain breakpoints are the same if they have the same kind and count as the same values. -/
theorem same_iff (ha : IsPlain a) (hb : IsPlain b) :
    a.same b = true ↔
      a.kind = b.kind ∧ a.fields.map (fun field => counted field.2) =
        b.fields.map (fun field => counted field.2) := by
  simp only [IsPlain, Breakpoint.fields, List.forall_mem_cons] at ha hb
  obtain ⟨ha1, ha2, ha3, ha4, ha5, -⟩ := ha
  obtain ⟨hb1, hb2, hb3, hb4, hb5, -⟩ := hb
  simp only [Breakpoint.same, Breakpoint.fields, List.zip_cons_cons, List.zip_nil_left,
    List.all_cons, List.all_nil, Bool.and_true, Bool.and_eq_true, beq_iff_eq,
    same_iff_counted ha1 hb1, same_iff_counted ha2 hb2, same_iff_counted ha3 hb3,
    same_iff_counted ha4 hb4, same_iff_counted ha5 hb5, List.map_cons, List.map_nil,
    List.cons.injEq, and_true]

theorem same_symm (ha : IsPlain a) (hb : IsPlain b) (h : a.same b = true) : b.same a = true := by
  rw [same_iff ha hb] at h
  rw [same_iff hb ha]
  exact ⟨h.1.symm, h.2.symm⟩

theorem same_trans (ha : IsPlain a) (hb : IsPlain b) (hc : IsPlain c) (hab : a.same b = true)
    (hbc : b.same c = true) : a.same c = true := by
  rw [same_iff ha hb] at hab
  rw [same_iff hb hc] at hbc
  rw [same_iff ha hc]
  exact ⟨hab.1.trans hbc.1, hab.2.trans hbc.2⟩

end Same

/-! ## Editing -/

inductive Edit where
  | add (bp : Breakpoint)
  | update (old new : Breakpoint)
  | remove (bp : Breakpoint)

namespace Edit

def apply (d : Debugger ρ) : Edit → Debugger ρ
  | add bp => d.add bp
  | update old new => (d.update old new).1
  | remove bp => d.remove bp

def IsPlain : Edit → Prop
  | add bp | remove bp => Registry.IsPlain bp
  | update old new => Registry.IsPlain old ∧ Registry.IsPlain new

/-- Whether an edit puts a breakpoint in another's place that is registered already. -/
def Doubles (d : Debugger ρ) : Edit → Prop
  | update old new => d.has old = true ∧ d.has new = true ∧ old.same new = false
  | _ => False

end Edit

def edited (d : Debugger ρ) (edits : List Edit) : Debugger ρ :=
  edits.foldl Edit.apply d

/-- No edit of a sequence puts in a breakpoint that is registered already. -/
def NoDoubling (d : Debugger ρ) : List Edit → Prop
  | [] => True
  | edit :: rest => ¬edit.Doubles d ∧ NoDoubling (edit.apply d) rest

/-- No two breakpoints of a list are the same. -/
def Distinct (bps : List Breakpoint) : Prop :=
  bps.Pairwise fun a b => a.same b = false

section Edits

variable {d : Debugger ρ} {old new bp : Breakpoint} {bps : List Breakpoint}

theorem has_iff : d.has bp = true ↔ ∃ a ∈ d.breakpoints, a.same bp = true := by
  simp [Debugger.has]

theorem distinct_add (h : Distinct d.breakpoints) : Distinct (d.add bp).breakpoints := by
  unfold Debugger.add
  split
  · exact h
  · rename_i hnew
    refine List.pairwise_append.2 ⟨h, List.pairwise_singleton _ _, ?_⟩
    intro a ha b hb
    rw [List.mem_singleton.1 hb]
    exact Bool.eq_false_iff.2 fun hsame => hnew (has_iff.2 ⟨a, ha, hsame⟩)

theorem distinct_remove (h : Distinct d.breakpoints) : Distinct (d.remove bp).breakpoints :=
  h.sublist List.eraseP_sublist

theorem replaceFirst_split (new : Breakpoint) (h : ∃ a ∈ bps, a.same old = true) :
    ∃ before found rest, bps = before ++ found :: rest ∧ found.same old = true ∧
      Debugger.replaceFirst old new bps = before ++ new :: rest := by
  induction bps with
  | nil => simp at h
  | cons first bps ih =>
      unfold Debugger.replaceFirst
      by_cases hfirst : first.same old = true
      · exact ⟨[], first, bps, rfl, hfirst, if_pos hfirst⟩
      · have hlater : ∃ a ∈ bps, a.same old = true := by simpa [hfirst] using h
        obtain ⟨before, found, rest, rfl, hfound, heq⟩ := ih hlater
        refine ⟨first :: before, found, rest, rfl, hfound, ?_⟩
        rw [if_neg hfirst, heq]
        rfl

theorem distinct_middle {before rest : List Breakpoint} :
    Distinct (before ++ bp :: rest) ↔
      Distinct (before ++ rest) ∧ (∀ a ∈ before, a.same bp = false) ∧
        ∀ b ∈ rest, bp.same b = false := by
  simp only [Distinct, List.pairwise_append, List.pairwise_cons, List.mem_cons,
    forall_eq_or_imp]
  constructor
  · rintro ⟨hbefore, ⟨hbp, hrest⟩, hacross⟩
    exact ⟨⟨hbefore, hrest, fun a ha => (hacross a ha).2⟩, fun a ha => (hacross a ha).1, hbp⟩
  · rintro ⟨⟨hbefore, hrest, hacross⟩, hbp, hbp'⟩
    exact ⟨hbefore, ⟨hbp', hrest⟩, fun a ha => ⟨hbp a ha, hacross a ha⟩⟩

theorem distinct_replaced_iff {before found rest}
    (hplain : ∀ a ∈ before ++ found :: rest, IsPlain a)
    (hold : IsPlain old) (hnew : IsPlain new) (hfound : found.same old = true)
    (h : Distinct (before ++ found :: rest)) :
    Distinct (before ++ new :: rest) ↔
      ∀ a ∈ before ++ found :: rest, a.same new = true → old.same new = true := by
  have hpf : IsPlain found := hplain found (by simp)
  have hback : old.same found = true := same_symm hpf hold hfound
  obtain ⟨hothers, hbefore, hrest⟩ := distinct_middle.1 h
  rw [distinct_middle]
  constructor
  · rintro ⟨-, hnone, hnone'⟩ a ha hsame
    rcases List.mem_append.1 ha with hmem | hmem
    · exact absurd hsame (Bool.eq_false_iff.1 (hnone a hmem))
    rcases List.mem_cons.1 hmem with rfl | hmem
    · exact same_trans hold hpf hnew hback hsame
    · exact absurd (same_symm (hplain a ha) hnew hsame) (Bool.eq_false_iff.1 (hnone' a hmem))
  · intro honly
    refine ⟨hothers, fun a hmem => ?_, fun b hmem => ?_⟩
    · have ha : a ∈ before ++ found :: rest := List.mem_append_left _ hmem
      refine Bool.eq_false_iff.2 fun hsame => ?_
      have hnewold := same_symm hold hnew (honly a ha hsame)
      have hnewfound := same_trans hnew hold hpf hnewold hback
      exact Bool.eq_false_iff.1 (hbefore a hmem) (same_trans (hplain a ha) hnew hpf hsame hnewfound)
    · have hb : b ∈ before ++ found :: rest := by simp [hmem]
      refine Bool.eq_false_iff.2 fun hsame => ?_
      have holdnew := honly b hb (same_symm hnew (hplain b hb) hsame)
      have hfoundnew := same_trans hpf hold hnew hfound holdnew
      exact Bool.eq_false_iff.1 (hrest b hmem) (same_trans hpf hnew (hplain b hb) hfoundnew hsame)

/-- An update keeps the breakpoints distinct exactly if it does not put in one that is registered
at another place. -/
theorem distinct_update_iff (hplain : ∀ a ∈ d.breakpoints, IsPlain a) (hold : IsPlain old)
    (hnew : IsPlain new) (h : Distinct d.breakpoints) :
    Distinct (d.update old new).1.breakpoints ↔ ¬(Edit.update old new).Doubles d := by
  unfold Debugger.update Edit.Doubles
  by_cases hhas : d.has old = true
  · obtain ⟨before, found, rest, hbps, hfound, heq⟩ := replaceFirst_split new (has_iff.1 hhas)
    rw [hbps] at hplain h
    rw [if_pos hhas, heq, distinct_replaced_iff hplain hold hnew hfound h, ← hbps]
    simp [has_iff, hhas]
  · rw [if_neg hhas]
    exact ⟨fun _ hdoubles => hhas hdoubles.1, fun _ => h⟩

end Edits

/-! ## Sequences of edits -/

structure Orderly (d : Debugger ρ) : Prop where
  plain : ∀ bp ∈ d.breakpoints, IsPlain bp
  distinct : Distinct d.breakpoints

section Sequences

variable {d : Debugger ρ} {bp : Breakpoint} {edit : Edit} {edits : List Edit} {limit : Int}

theorem mem_replaceFirst {old new : Breakpoint} {bps : List Breakpoint}
    (h : bp ∈ Debugger.replaceFirst old new bps) : bp = new ∨ bp ∈ bps := by
  induction bps with
  | nil => cases h
  | cons first bps ih =>
      unfold Debugger.replaceFirst at h
      split at h
      · exact (List.mem_cons.1 h).imp_right (List.mem_cons_of_mem _)
      · rcases List.mem_cons.1 h with rfl | hmem
        · exact .inr List.mem_cons_self
        · exact (ih hmem).imp_right (List.mem_cons_of_mem _)

theorem isPlain_apply (h : ∀ a ∈ d.breakpoints, IsPlain a) (hedit : edit.IsPlain) :
    ∀ a ∈ (edit.apply d).breakpoints, IsPlain a := by
  intro a ha
  cases edit with
  | add bp =>
      simp only [Edit.apply, Debugger.add] at ha
      split at ha
      · exact h a ha
      · rcases List.mem_append.1 ha with hmem | hmem
        · exact h a hmem
        · rw [List.mem_singleton.1 hmem]
          exact hedit
  | update old new =>
      simp only [Edit.apply, Debugger.update] at ha
      split at ha
      · rcases mem_replaceFirst ha with rfl | hmem
        · exact hedit.2
        · exact h a hmem
      · exact h a ha
  | remove bp => exact h a (List.mem_of_mem_eraseP ha)

theorem create_eq (h : Debugger.create limit = .ok d) :
    0 < limit ∧ d = { limit := limit.toNat } := by
  unfold Debugger.create at h
  split at h
  · cases h
  · split at h <;> cases h
    exact ⟨by omega, rfl⟩

theorem orderly_create (h : Debugger.create limit = .ok d) : Orderly d := by
  obtain ⟨-, rfl⟩ := create_eq h
  exact ⟨nofun, .nil⟩

theorem Orderly.apply (h : Orderly d) (hedit : edit.IsPlain) (hno : ¬edit.Doubles d) :
    Orderly (edit.apply d) := by
  refine ⟨isPlain_apply h.plain hedit, ?_⟩
  cases edit with
  | add bp => exact distinct_add h.distinct
  | update old new => exact (distinct_update_iff h.plain hedit.1 hedit.2 h.distinct).2 hno
  | remove bp => exact distinct_remove h.distinct

theorem Orderly.edited (h : Orderly d) (hedits : ∀ edit ∈ edits, edit.IsPlain)
    (hno : NoDoubling d edits) : Orderly (edited d edits) := by
  induction edits generalizing d with
  | nil => exact h
  | cons edit rest ih =>
      obtain ⟨hfirst, hlater⟩ := List.forall_mem_cons.1 hedits
      exact ih (h.apply hfirst hno.1) hlater hno.2

/-- Of registered breakpoints that are all different only one goes when one is removed, and that
is enough. -/
theorem Orderly.has_remove (h : Orderly d) (hbp : IsPlain bp) : (d.remove bp).has bp = false := by
  rw [Bool.eq_false_iff]
  intro hhas
  obtain ⟨a, ha, hsame⟩ := has_iff.1 hhas
  have hmem : a ∈ d.breakpoints := List.mem_of_mem_eraseP ha
  obtain ⟨found, before, rest, hnone, hfound, hbps, herase⟩ :=
    List.exists_of_eraseP (p := (·.same bp)) hmem hsame
  have hdistinct := h.distinct
  have hpf : IsPlain found := h.plain found (hbps ▸ by simp)
  have hback := same_symm (h.plain a hmem) hbp hsame
  rw [hbps, distinct_middle] at hdistinct
  obtain ⟨-, -, hrest⟩ := hdistinct
  have ha' : a ∈ before ++ rest := herase ▸ ha
  rcases List.mem_append.1 ha' with hbefore | hrest'
  · exact hnone a hbefore hsame
  · exact Bool.eq_false_iff.1 (hrest a hrest') (same_trans hpf hbp (h.plain a hmem) hfound hback)

end Sequences

/-! ## What ends a run -/

/-- Whether a run was ended by a breakpoint, also by one that cannot be judged. -/
def OnBreakpoint : Debugger.Ending → Prop
  | .reported (.hitAt _) | .reported (.hitAfter _ _) | .failed (.lookup _) => True
  | _ => False

inductive Ends (ρ : Type) (bp : Breakpoint) : Debugger.Ending → Prop
  | reached {pc : Int} (h : bp.hitsAt pc = true) : Ends ρ bp (.reported (.hitAt pc))
  | holds {s : Snapshot ρ} {before after : List (String × Int)} (hactive : bp.isActive = true)
      (h : bp.holdsAfter s before after = .ok true) :
      Ends ρ bp (.reported (.hitAfter s.address s.operation.text))
  | unjudged {s : Snapshot ρ} {before after : List (String × Int)} {e : Breakpoint.LookupError}
      (hactive : bp.isActive = true) (h : bp.holdsAfter s before after = .error e) :
      Ends ρ bp (.failed (.lookup e))

section Runs

variable {d : Debugger ρ}

theorem anyM_decided {α ε : Type} {p : α → Except ε Bool} {l : List α} {r : Except ε Bool}
    (h : l.anyM p = r) (hr : r ≠ .ok false) : ∃ x ∈ l, p x = r := by
  induction l with
  | nil => exact absurd h.symm hr
  | cons x rest ih =>
      simp only [List.anyM, bind, Except.bind] at h
      cases hx : p x with
      | error e =>
          rw [hx] at h
          exact ⟨x, List.mem_cons_self, hx.trans h⟩
      | ok b =>
          rw [hx] at h
          cases b with
          | true => exact ⟨x, List.mem_cons_self, hx.trans h⟩
          | false =>
              obtain ⟨y, hy, hdecided⟩ := ih h
              exact ⟨y, List.mem_cons_of_mem _ hy, hdecided⟩

theorem hitsAfter_decided {s : Snapshot ρ} {after : List (String × Int)}
    {r : Except Breakpoint.LookupError Bool} (h : d.hitsAfter s after = r) (hr : r ≠ .ok false) :
    ∃ bp ∈ d.breakpoints, bp.isActive = true ∧ bp.holdsAfter s d.before after = r := by
  obtain ⟨bp, hmem, hdecided⟩ := anyM_decided h hr
  obtain ⟨hmem, hactive⟩ := mem_ordered_iff.1 hmem
  exact ⟨bp, hmem, hactive, hdecided⟩

theorem breakpoints_step (isa : InstructionSet ρ δ) (d : Debugger ρ) (c : Core ρ δ) :
    (d.step isa c).1.breakpoints = d.breakpoints := by
  unfold Debugger.step
  dsimp only
  split <;> rfl

theorem runFrom_spec (isa : InstructionSet ρ δ) (stopAfter : Option Nat) (budget done : Nat)
    (d : Debugger ρ) (c : Core ρ δ) :
    let result := Debugger.runFrom isa stopAfter done budget d c
    result.1.breakpoints = d.breakpoints ∧
      (OnBreakpoint result.2.2 → ∃ bp ∈ d.breakpoints, Ends ρ bp result.2.2) := by
  induction budget generalizing done d c with
  | zero => exact ⟨rfl, False.elim⟩
  | succ budget ih =>
      have hkept := breakpoints_step isa d c
      unfold Debugger.runFrom
      split
      · exact ⟨rfl, False.elim⟩
      split
      · rename_i hhits
        obtain ⟨bp, hmem, hhit⟩ := List.any_eq_true.1 hhits.2
        exact ⟨rfl, fun _ => ⟨bp, hmem, .reached hhit⟩⟩
      dsimp only
      split
      · rename_i heq
        rw [heq] at hkept
        exact ⟨hkept, False.elim⟩
      · rename_i heq
        rw [heq] at hkept
        exact ⟨hkept, False.elim⟩
      · rename_i stepped core s heq
        rw [heq] at hkept
        -- A demand to stop leaves the breakpoints alone.
        have htold : (if stopAfter = some (done + 1) then stepped.stop else stepped).breakpoints =
            d.breakpoints := by
          split <;> exact hkept
        generalize (if stopAfter = some (done + 1) then stepped.stop else stepped) = told at htold
        rw [← htold]
        split
        · rename_i e hjudged
          obtain ⟨bp, hmem, hactive, hbp⟩ := hitsAfter_decided hjudged nofun
          exact ⟨rfl, fun _ => ⟨bp, hmem, .unjudged hactive hbp⟩⟩
        · rename_i hjudged
          obtain ⟨bp, hmem, hactive, hbp⟩ := hitsAfter_decided hjudged nofun
          exact ⟨rfl, fun _ => ⟨bp, hmem, .holds hactive hbp⟩⟩
        · exact ih (done + 1) told core

theorem run_spec (isa : InstructionSet ρ δ) (d : Debugger ρ) (c : Core ρ δ) (budget : Nat)
    (stopAfter : Option Nat) :
    let result := d.run isa c budget stopAfter
    result.1.breakpoints = d.breakpoints ∧
      (OnBreakpoint result.2.2 → ∃ bp ∈ d.breakpoints, Ends ρ bp result.2.2) := by
  have hrun := runFrom_spec isa stopAfter budget 0 { d with running := true } c
  unfold Debugger.run
  dsimp only at hrun ⊢
  split <;> rename_i heq <;> rw [heq] at hrun <;> exact hrun

end Runs

/-! ## Removing -/

/-- As long as no update puts in a breakpoint that is registered at another place, no breakpoint
is registered twice.  One that is removed is then not registered, and it ends no run until the
breakpoints are edited again. -/
theorem removed_is_gone {limit : Int} {d : Debugger ρ} (hd : Debugger.create limit = .ok d)
    (edits : List Edit) (hedits : ∀ edit ∈ edits, edit.IsPlain) (hno : NoDoubling d edits)
    {bp : Breakpoint} (hbp : IsPlain bp) :
    Distinct (edited d edits).breakpoints ∧
    ((edited d edits).remove bp).has bp = false ∧
    ∀ later : Debugger ρ, later.breakpoints = ((edited d edits).remove bp).breakpoints →
      ∀ (isa : InstructionSet ρ δ) (c : Core ρ δ) (budget : Nat) (stopAfter : Option Nat),
        let result := later.run isa c budget stopAfter
        result.1.breakpoints = later.breakpoints ∧
        (OnBreakpoint result.2.2 →
          ∃ other ∈ later.breakpoints, other.same bp = false ∧ Ends ρ other result.2.2) := by
  have horderly := (orderly_create hd).edited hedits hno
  have hgone := horderly.has_remove hbp
  refine ⟨horderly.distinct, hgone, ?_⟩
  intro later hlater isa c budget stopAfter
  obtain ⟨hkept, hends⟩ := run_spec isa later c budget stopAfter
  refine ⟨hkept, fun hon => ?_⟩
  obtain ⟨other, hmem, hother⟩ := hends hon
  refine ⟨other, hmem, ?_, hother⟩
  rw [hlater] at hmem
  exact Bool.eq_false_iff.2 fun hsame =>
    Bool.eq_false_iff.1 hgone (has_iff.2 ⟨other, hmem, hsame⟩)

def onPc (pc : Int) : Breakpoint := { kind := .pcMatch, value := .int pc }

theorem isPlain_onPc (pc : Int) : IsPlain (onPc pc) := by
  simp only [IsPlain, Breakpoint.fields, onPc, List.forall_mem_cons]
  exact ⟨.int pc, .null, .null, .null, .bool true, by simp⟩

def smallest : Debugger Registers := { limit := 1 }

theorem removed_is_gone_after_update :
    Debugger.create 1 = .ok smallest ∧
    NoDoubling smallest [.add (onPc 514), .update (onPc 514) (onPc 516)] ∧
    ((edited smallest [.add (onPc 514), .update (onPc 514) (onPc 516)]).remove (onPc 516)).has
      (onPc 516) = false := by
  have hd : Debugger.create 1 = .ok smallest := rfl
  have hedits : ∀ edit ∈ [Edit.add (onPc 514), .update (onPc 514) (onPc 516)], edit.IsPlain := by
    simp only [List.forall_mem_cons, Edit.IsPlain, isPlain_onPc, true_and]
    exact nofun
  have hno : NoDoubling smallest [.add (onPc 514), .update (onPc 514) (onPc 516)] := by
    refine ⟨id, ?_, trivial⟩
    rintro ⟨-, hhas, -⟩
    cases hhas
  obtain ⟨-, hgone, -⟩ :=
    @removed_is_gone Registers Hardware _ _ hd _ hedits hno _ (isPlain_onPc 516)
  exact ⟨hd, hno, hgone⟩

/-- A breakpoint that an update put in a second time is still registered after it was removed, and
still stops a run. -/
theorem removed_twice_registered :
    Debugger.create 1 = .ok smallest ∧
    let updated := edited smallest
      [.add (onPc 514), .add (onPc 516), .update (onPc 514) (onPc 516)]
    updated.breakpoints = [onPc 516, onPc 516] ∧
    (updated.remove (onPc 516)).has (onPc 516) = true ∧
    (updated.remove (onPc 516)).hitsAt 516 = true :=
  ⟨rfl, rfl, rfl, rfl⟩

end Chip8.Proofs.Debug.Registry
