import Chip8.Tone
import Mathlib.Data.List.Nodup

/-!
# Who is told that the tone ends

The listeners are an ordered set.  What is asserted of them here is read off the adds and removes
made so far, by the host and by the listeners themselves, and not off the list that the tone keeps.
-/

namespace Chip8.Proofs.Machine.Listeners

/-! ## Calls and what they do -/

/-- The calls that a host makes.  What a listener does may depend on what it was told, on what the
others did and on earlier ends of the tone: the script of a tick is the record of what each did at
that tick. -/
inductive ToneCall where
  | add (name : Text)
  | remove (name : Text)
  | consume
  | reset
  | tick (script : Text → List ToneAction) (r : Registers)

def perform (t : Tone) : ToneCall → Tone × List ToneEvent
  | .add name => (t.add name, [])
  | .remove name => (t.remove name, [])
  | .consume => (t.consume.2, [.consumed t.consume.1])
  | .reset => (t.reset, [])
  | .tick script r => (tickTimers script r t).2

def after : Tone → List ToneCall → Tone
  | t, [] => t
  | t, call :: rest => after (perform t call).1 rest

def Expires (t : Tone) : ToneCall → Prop
  | .tick script r => r.sound = 1 ∧ (tickTimers script r t).1.sound = 0
  | _ => False

instance (t : Tone) : (call : ToneCall) → Decidable (Expires t call)
  | .tick .. => inferInstanceAs (Decidable (_ ∧ _))
  | .add _ | .remove _ | .consume | .reset => inferInstanceAs (Decidable False)

def called (events : List ToneEvent) : List Text :=
  events.filterMap fun
    | .called name => some name
    | _ => none

def answers (events : List ToneEvent) : List Bool :=
  events.filterMap fun
    | .consumed latched => some latched
    | _ => none

/-- What one call does to the listeners, with what the listeners that it calls do in turn. -/
def actions (t : Tone) (call : ToneCall) : List ToneAction :=
  match call with
  | .add name => [.add name]
  | .remove name => [.remove name]
  | .consume => [.consume]
  | .reset => []
  | .tick script _ => (called (perform t call).2).flatMap script

def history : Tone → List ToneCall → List ToneAction
  | _, [] => []
  | t, call :: rest => actions t call ++ history (perform t call).1 rest

/-! ## Registrations -/

def Concerns (name : Text) (action : ToneAction) : Prop :=
  action = .add name ∨ action = .remove name

instance (name : Text) (action : ToneAction) : Decidable (Concerns name action) :=
  inferInstanceAs (Decidable (_ ∨ _))

/-- The last add or remove of a listener was an add. -/
def Registered (done : List ToneAction) (name : Text) : Prop :=
  (done.filter (Concerns name)).getLast? = some (.add name)

def Joins (done : List ToneAction) (name : Text) (i : Nat) : Prop :=
  done[i]? = some (.add name) ∧ ¬Registered (done.take i) name

/-- The latest registration of a listener that had an effect. -/
def JoinedAt (done : List ToneAction) (name : Text) (i : Nat) : Prop :=
  Joins done name i ∧ ∀ j, Joins done name j → j ≤ i

def Before (done : List ToneAction) (first second : Text) : Prop :=
  ∃ i j, JoinedAt done first i ∧ JoinedAt done second j ∧ i < j

/-- What is told, and to whom, when the tone ends after all that was done before. -/
structure Told (done : List ToneAction) (events : List ToneEvent) : Prop where
  once : (called events).Nodup
  registered : ∀ name, name ∈ called events ↔ Registered done name
  ordered : (called events).Pairwise (Before done)
  first : ∀ answer, (answers events).head? = some answer → answer = true

/-! ## What one action changes -/

section Action

variable {done : List ToneAction} {action : ToneAction} {name : Text} {i : Nat}

theorem registered_concat :
    Registered (done ++ [action]) name ↔
      if Concerns name action then action = .add name else Registered done name := by
  unfold Registered
  rw [List.filter_append]
  split
  · next h => rw [List.filter_singleton]; simp [h]
  · next h => rw [List.filter_singleton]; simp [h]

theorem registered_add {other : Text} :
    Registered (done ++ [.add name]) other ↔ other = name ∨ Registered done other := by
  rw [registered_concat]
  by_cases heq : other = name
  · subst heq
    simp [Concerns]
  · simp [Concerns, heq, Ne.symm heq]

theorem registered_remove {other : Text} :
    Registered (done ++ [.remove name]) other ↔ other ≠ name ∧ Registered done other := by
  rw [registered_concat]
  by_cases heq : other = name
  · subst heq
    simp [Concerns]
  · simp [Concerns, heq, Ne.symm heq]

theorem joins_concat :
    Joins (done ++ [action]) name i ↔
      Joins done name i ∨ i = done.length ∧ action = .add name ∧ ¬Registered done name := by
  unfold Joins
  rcases Nat.lt_trichotomy i done.length with h | h | h
  · rw [List.getElem?_append_left h, List.take_append_of_le_length (Nat.le_of_lt h)]
    have hne : i ≠ done.length := by omega
    simp [hne]
  · subst h
    simp
  · have hnone : (done ++ [action])[i]? = none := by
      rw [List.getElem?_eq_none_iff, List.length_append, List.length_singleton]
      omega
    have hnone' : done[i]? = none := by
      rw [List.getElem?_eq_none_iff]
      omega
    have hne : i ≠ done.length := by omega
    simp [hnone, hnone', hne]

theorem JoinedAt.concat (h : JoinedAt done name i) (hin : Registered done name)
    (action : ToneAction) : JoinedAt (done ++ [action]) name i := by
  refine ⟨joins_concat.2 (.inl h.1), fun j hj => ?_⟩
  rcases joins_concat.1 hj with hj | ⟨-, -, hout⟩
  · exact h.2 j hj
  · exact absurd hin hout

theorem joinedAt_length (hout : ¬Registered done name) :
    JoinedAt (done ++ [.add name]) name done.length := by
  refine ⟨joins_concat.2 (.inr ⟨rfl, rfl, hout⟩), fun j hj => ?_⟩
  rcases joins_concat.1 hj with hj | ⟨rfl, -⟩
  · exact Nat.le_of_lt (List.getElem?_eq_some_iff.1 hj.1).1
  · exact Nat.le_refl _

theorem JoinedAt.lt_length (h : JoinedAt done name i) : i < done.length :=
  (List.getElem?_eq_some_iff.1 h.1.1).1

end Action

/-! ## The list that the tone keeps -/

/-- The names are those registered, in their order. -/
structure Roster (done : List ToneAction) (names : List Text) : Prop where
  nodup : names.Nodup
  mem : ∀ name, name ∈ names ↔ Registered done name
  joined : ∀ name ∈ names, ∃ i, JoinedAt done name i
  ordered : names.Pairwise (Before done)

namespace Roster

variable {done : List ToneAction} {names : List Text}

theorem empty : Roster [] [] where
  nodup := List.nodup_nil
  mem name := by simp [Registered]
  joined name h := absurd h List.not_mem_nil
  ordered := .nil

theorem joined_concat (h : Roster done names) (action : ToneAction) {name : Text}
    (hin : name ∈ names) : ∃ i, JoinedAt (done ++ [action]) name i :=
  let ⟨i, hi⟩ := h.joined name hin
  ⟨i, hi.concat ((h.mem name).1 hin) action⟩

theorem ordered_concat (h : Roster done names) (action : ToneAction) :
    names.Pairwise (Before (done ++ [action])) := by
  refine h.ordered.imp_of_mem ?_
  rintro first second hfirst hsecond ⟨i, j, hi, hj, hij⟩
  exact ⟨i, j, hi.concat ((h.mem first).1 hfirst) action,
    hj.concat ((h.mem second).1 hsecond) action, hij⟩

theorem keep (h : Roster done names) {action : ToneAction} {kept : List Text}
    (hsub : kept.Sublist names) (hmem : ∀ name, name ∈ kept ↔ Registered (done ++ [action]) name) :
    Roster (done ++ [action]) kept where
  nodup := h.nodup.sublist hsub
  mem := hmem
  joined _ hin := h.joined_concat action (hsub.subset hin)
  ordered := (h.ordered_concat action).sublist hsub

theorem join (h : Roster done names) {name : Text} (hout : name ∉ names) :
    Roster (done ++ [.add name]) (names ++ [name]) where
  nodup := by
    rw [List.nodup_append]
    refine ⟨h.nodup, List.nodup_singleton name, ?_⟩
    rintro a ha b hb rfl
    exact hout (List.mem_singleton.1 hb ▸ ha)
  mem other := by
    rw [List.mem_append, List.mem_singleton, registered_add, h.mem, or_comm]
  joined other hother := by
    rcases List.mem_append.1 hother with hin | hnew
    · exact h.joined_concat _ hin
    · cases List.mem_singleton.1 hnew
      exact ⟨_, joinedAt_length fun hreg => hout ((h.mem _).2 hreg)⟩
  ordered := by
    rw [List.pairwise_append]
    refine ⟨h.ordered_concat _, List.pairwise_singleton _ _, ?_⟩
    intro first hfirst second hsecond
    cases List.mem_singleton.1 hsecond
    obtain ⟨i, hi⟩ := h.joined first hfirst
    exact ⟨i, done.length, hi.concat ((h.mem first).1 hfirst) _,
      joinedAt_length fun hreg => hout ((h.mem _).2 hreg), hi.lt_length⟩

theorem perform {t : Tone} (h : Roster done t.listeners) (value : Int) (action : ToneAction) :
    Roster (done ++ [action]) (t.perform value action).1.listeners := by
  cases action with
  | add name =>
      simp only [Tone.perform, Tone.add]
      split
      · next hin =>
          refine h.keep (.refl _) fun other => ?_
          rw [registered_add, ← h.mem]
          exact ⟨.inr, fun hother => hother.elim (fun heq => heq ▸ hin) id⟩
      · next hout => exact h.join hout
  | remove name =>
      refine h.keep List.erase_sublist fun other => ?_
      change other ∈ t.listeners.erase name ↔ _
      rw [registered_remove, h.nodup.mem_erase_iff, h.mem]
  | consume =>
      refine h.keep (.refl _) fun other => (h.mem other).trans ?_
      simp [registered_concat, Concerns]
  | observe =>
      refine h.keep (.refl _) fun other => (h.mem other).trans ?_
      simp [registered_concat, Concerns]

theorem performAll {t : Tone} (h : Roster done t.listeners) (value : Int)
    (todo : List ToneAction) :
    Roster (done ++ todo) (Tone.performAll value t todo).1.listeners := by
  induction todo generalizing done t with
  | nil => rwa [List.append_nil]
  | cons action rest ih =>
      have hrest := ih (h.perform value action)
      rw [List.append_assoc, List.singleton_append] at hrest
      exact hrest

theorem call {t : Tone} (h : Roster done t.listeners) (script : Text → List ToneAction)
    (value : Int) (told : List Text) :
    Roster (done ++ told.flatMap script) (Tone.call script value t told).1.listeners := by
  induction told generalizing done t with
  | nil => rwa [List.flatMap_nil, List.append_nil]
  | cons name rest ih =>
      have hrest := ih (h.performAll value (script name))
      rw [List.append_assoc, ← List.flatMap_cons] at hrest
      exact hrest

end Roster

/-! ## What is told -/

section Events

variable (t : Tone) (value : Int) (script : Text → List ToneAction)

theorem called_performAll (todo : List ToneAction) :
    called (Tone.performAll value t todo).2 = [] := by
  induction todo generalizing t with
  | nil => rfl
  | cons action rest ih =>
      have hfirst : called (t.perform value action).2 = [] := by cases action <;> rfl
      change called ((t.perform value action).2 ++ _) = []
      unfold called at *
      rw [List.filterMap_append, hfirst, ih]
      rfl

theorem called_call (names : List Text) : called (Tone.call script value t names).2 = names := by
  induction names generalizing t with
  | nil => rfl
  | cons name rest ih =>
      have hown := called_performAll t value (script name)
      change name :: called ((Tone.performAll value t (script name)).2 ++ _) = _
      unfold called at *
      rw [List.filterMap_append, hown, ih]
      rfl

/-- Only the first who takes the event finds what the latch held. -/
def Takes (latched left : Bool) (given : List Bool) : Prop :=
  given = [] ∧ left = latched ∨ ∃ n, given = latched :: List.replicate n false ∧ left = false

theorem Takes.append {latched between left : Bool} {given later : List Bool}
    (h : Takes latched between given) (h' : Takes between left later) :
    Takes latched left (given ++ later) := by
  rcases h with ⟨rfl, rfl⟩ | ⟨n, rfl, rfl⟩
  · exact h'
  · rcases h' with ⟨rfl, rfl⟩ | ⟨m, rfl, rfl⟩
    · exact .inr ⟨n, List.append_nil _, rfl⟩
    · refine .inr ⟨n + (m + 1), ?_, rfl⟩
      rw [List.cons_append, ← List.replicate_succ, List.replicate_append_replicate]

theorem takes_performAll (todo : List ToneAction) :
    Takes t.ended (Tone.performAll value t todo).1.ended
      (answers (Tone.performAll value t todo).2) := by
  induction todo generalizing t with
  | nil => exact .inl ⟨rfl, rfl⟩
  | cons action rest ih =>
      have hfirst : Takes t.ended (t.perform value action).1.ended
          (answers (t.perform value action).2) := by
        cases action with
        | add name =>
            refine .inl ⟨rfl, ?_⟩
            simp only [Tone.perform, Tone.add]
            split <;> rfl
        | remove name => exact .inl ⟨rfl, rfl⟩
        | consume => exact .inr ⟨0, rfl, rfl⟩
        | observe => exact .inl ⟨rfl, rfl⟩
      have hboth := hfirst.append (ih _)
      unfold answers at hboth
      rw [← List.filterMap_append] at hboth
      exact hboth

theorem takes_call (names : List Text) :
    Takes t.ended (Tone.call script value t names).1.ended
      (answers (Tone.call script value t names).2) := by
  induction names generalizing t with
  | nil => exact .inl ⟨rfl, rfl⟩
  | cons name rest ih =>
      have hboth := (takes_performAll t value (script name)).append (ih _)
      unfold answers at hboth
      rw [← List.filterMap_append] at hboth
      exact hboth

theorem first_answer_expire {answer : Bool}
    (h : (answers (t.expire script value).2).head? = some answer) : answer = true := by
  rcases takes_call { t with ended := true } value script t.listeners with
    ⟨hnone, -⟩ | ⟨n, hsome, -⟩
  · rw [Tone.expire, hnone] at h
    cases h
  · rw [Tone.expire, hsome] at h
    exact (Option.some.inj h).symm

end Events

/-! ## Ticks -/

section Ticks

variable {t : Tone} {script : Text → List ToneAction} {r : Registers}

theorem expires_tick_iff : Expires t (.tick script r) ↔ r.sound = 1 := by
  have hsound : (tickTimers script r t).1.sound = countDown r.sound := by
    unfold tickTimers
    dsimp only
    split <;> rfl
  refine ⟨And.left, fun hone => ⟨hone, ?_⟩⟩
  rw [hsound, hone]
  rfl

theorem perform_tick :
    perform t (.tick script r) = if r.sound = 1 then t.expire script 0 else (t, []) := by
  have hends : (0 < r.sound ∧ r.countDown.sound = 0) ↔ r.sound = 1 := by
    change 0 < r.sound ∧ (if 0 < r.sound then r.sound - 1 else r.sound) = 0 ↔ _
    split <;> omega
  unfold perform tickTimers
  dsimp only
  simp only [hends]
  split
  · next hone =>
      have hzero : r.countDown.sound = 0 := (hends.2 hone).2
      rw [hzero]
  · rfl

end Ticks

/-! ## Runs -/

theorem called_perform (t : Tone) (call : ToneCall) :
    called (perform t call).2 = if Expires t call then t.listeners else [] := by
  cases call with
  | tick script r =>
      rw [perform_tick, if_congr expires_tick_iff rfl rfl]
      split
      · exact called_call _ 0 script t.listeners
      · rfl
  | _ => rfl

/-- One call keeps the list in step with what was done. -/
theorem Roster.step {done : List ToneAction} {t : Tone} (h : Roster done t.listeners)
    (call : ToneCall) :
    Roster (done ++ actions t call) (Listeners.perform t call).1.listeners := by
  cases call with
  | add name => exact h.perform 0 (.add name)
  | remove name => exact h.perform 0 (.remove name)
  | consume => exact h.perform 0 .consume
  | reset =>
      change Roster (done ++ []) t.listeners
      rwa [List.append_nil]
  | tick script r =>
      change Roster (done ++ (called (Listeners.perform t (.tick script r)).2).flatMap script) _
      rw [called_perform, if_congr expires_tick_iff rfl rfl, perform_tick]
      split
      · exact Roster.call (t := { t with ended := true }) h script 0 t.listeners
      · change Roster (done ++ []) t.listeners
        rwa [List.append_nil]

theorem Roster.run {done : List ToneAction} {t : Tone} (h : Roster done t.listeners)
    (calls : List ToneCall) :
    Roster (done ++ history t calls) (after t calls).listeners := by
  induction calls generalizing done t with
  | nil =>
      change Roster (done ++ []) t.listeners
      rwa [List.append_nil]
  | cons call rest ih =>
      have hrest := ih (h.step call)
      rw [List.append_assoc] at hrest
      exact hrest

/-- After any calls to a new tone, the tick at a sound timer of one is the one that ends the tone.
It calls those whose last add or remove was an add, each once, in the order in which they joined
last, whatever they do when called, and the first of them to take the event gets it.  No other call
calls anybody. -/
theorem told_iff_expires (calls : List ToneCall) :
    (∀ script r, Expires (after {} calls) (.tick script r) ↔ r.sound = 1) ∧
      ∀ next, if Expires (after {} calls) next then
        Told (history {} calls) (perform (after {} calls) next).2
      else called (perform (after {} calls) next).2 = [] := by
  refine ⟨fun script r => expires_tick_iff, fun next => ?_⟩
  have hroster : Roster (history {} calls) (after {} calls).listeners := by
    have hrun := Roster.run (t := {}) Roster.empty calls
    rwa [List.nil_append] at hrun
  have htold := called_perform (after {} calls) next
  split
  · next hends =>
      rw [if_pos hends] at htold
      refine ⟨htold ▸ hroster.nodup, htold ▸ hroster.mem, htold ▸ hroster.ordered, ?_⟩
      cases next with
      | tick script r =>
          rw [perform_tick, if_pos (expires_tick_iff.1 hends)]
          exact fun answer => first_answer_expire _ 0 script
      | _ => exact absurd hends id
  · next hstays => rw [htold, if_neg hstays]

/-- The listener added first leaves and comes back behind the other one. -/
def rejoining : List ToneCall := [.add "first", .add "second", .remove "first", .add "first"]

/-- The tick that ends the tone; whoever is called takes the event and sends the first away. -/
def ending : ToneCall := .tick (fun _ => [.consume, .remove "first"]) { sound := 1 }

/-- Both are called, the second before the first, and only the second gets the event. -/
theorem told_iff_expires_after_rejoining :
    called (perform (after {} rejoining) ending).2 = ["second", "first"] ∧
      answers (perform (after {} rejoining) ending).2 = [true, false] ∧
      Told (history {} rejoining) (perform (after {} rejoining) ending).2 := by
  obtain ⟨hends, htold⟩ := told_iff_expires rejoining
  have hexpires : Expires (after {} rejoining) ending := (hends _ _).2 rfl
  have hnext := htold ending
  rw [if_pos hexpires] at hnext
  exact ⟨by decide +kernel, by decide +kernel, hnext⟩

end Chip8.Proofs.Machine.Listeners
