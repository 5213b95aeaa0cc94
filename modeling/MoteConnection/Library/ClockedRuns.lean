import MoteConnection.Library.LabeledRuns

/-!
# Runs against a clock

A system some of whose states wait with a timeout. A run against a clock gives
each label a time; the times do not decrease, and a label by which a wait
expires comes no earlier than the timeout after the wait began. What the steps
log is kept with the times.

Nothing bounds the times from above, since a thread may always be late. From
below the bounds are met by a prompt run, in which nothing but the expiry of a
wait takes time.
-/

namespace ClockedRuns

open LabeledRuns

set_option autoImplicit false

/-- `logs` is what a step from the one state to the other adds to the log. -/
structure WaitingSystem (State Label Entry : Type*) where
  step : State → Label → Option State
  waits : State → Bool
  expires : Label → Bool
  logs : State → State → List Entry

/-- `since` is the time at which a state that waits began to. -/
structure Clocked (State Entry : Type*) where
  state : State
  now : Nat
  since : Nat
  log : List (Nat × Entry)

def Clocked.start {State Entry : Type*} (state : State) : Clocked State Entry := ⟨state, 0, 0, []⟩

namespace WaitingSystem

variable {State Label Entry : Type*} (system : WaitingSystem State Label Entry) (timeout : Nat)

def follow (clocked : Clocked State Entry) (time : Nat) (next : State) : Clocked State Entry where
  state := next
  now := time
  since := if system.waits clocked.state then clocked.since else time
  log := clocked.log ++ (system.logs clocked.state next).map fun entry => (time, entry)

def clockedStep (clocked : Clocked State Entry) (timed : Nat × Label) :
    Option (Clocked State Entry) :=
  if clocked.now ≤ timed.1 ∧
      (system.expires timed.2 = true → clocked.since + timeout ≤ timed.1) then
    (system.step clocked.state timed.2).map (system.follow clocked timed.1)
  else none

/-- The earliest time of a label that does not depend on when a wait began. -/
def promptTime (clocked : Clocked State Entry) (label : Label) : Nat :=
  if system.expires label then clocked.now + timeout else clocked.now

def promptStep (clocked : Clocked State Entry) (label : Label) : Option (Clocked State Entry) :=
  system.clockedStep timeout clocked (system.promptTime timeout clocked label, label)

variable {system timeout} {clocked next final : Clocked State Entry} {timed : Nat × Label}
  {label : Label} {labels : List Label}

theorem clocked_step_some :
    system.clockedStep timeout clocked timed = some next ↔
      clocked.now ≤ timed.1 ∧
      (system.expires timed.2 = true → clocked.since + timeout ≤ timed.1) ∧
      ∃ state, system.step clocked.state timed.2 = some state ∧
        next = system.follow clocked timed.1 state := by
  unfold clockedStep
  constructor
  · intro taken
    split_ifs at taken with permitted
    obtain ⟨state, moved, same⟩ := Option.map_eq_some_iff.mp taken
    exact ⟨permitted.1, permitted.2, state, moved, same.symm⟩
  · intro ⟨later, expired, state, moved, same⟩
    rw [if_pos ⟨later, expired⟩, moved, same]
    rfl

def Started (clocked : Clocked State Entry) : Prop := clocked.since ≤ clocked.now

theorem started_step (clocked : Clocked State Entry) (timed : Nat × Label)
    (next : Clocked State Entry) (started : Started clocked)
    (taken : system.clockedStep timeout clocked timed = some next) : Started next := by
  obtain ⟨later, _, state, _, same⟩ := clocked_step_some.mp taken
  rw [same, Started, follow]
  split_ifs
  · exact Nat.le_trans started later
  · exact Nat.le_refl timed.1

theorem prompt_step_some (started : Started clocked) :
    system.promptStep timeout clocked label = some next ↔
      ∃ state, system.step clocked.state label = some state ∧
        next = system.follow clocked (system.promptTime timeout clocked label) state := by
  rw [promptStep, clocked_step_some]
  constructor
  · intro ⟨_, _, taken⟩
    exact taken
  · intro taken
    refine ⟨?_, ?_, taken⟩
    · unfold promptTime
      split_ifs
      · exact Nat.le_add_right _ _
      · exact Nat.le_refl _
    · intro expires
      rw [promptTime, if_pos expires]
      exact Nat.add_le_add_right started timeout

/-- The log is in the order of its times, and no time of it is in the future. -/
structure Ordered (clocked : Clocked State Entry) : Prop where
  sorted : clocked.log.Pairwise fun earlier later => earlier.1 ≤ later.1
  past : ∀ entry ∈ clocked.log, entry.1 ≤ clocked.now

theorem ordered_start (state : State) : Ordered (Clocked.start state : Clocked State Entry) where
  sorted := List.Pairwise.nil
  past := by
    intro entry none
    cases none

theorem ordered_step (clocked : Clocked State Entry) (timed : Nat × Label)
    (next : Clocked State Entry) (ordered : Ordered clocked)
    (taken : system.clockedStep timeout clocked timed = some next) : Ordered next := by
  obtain ⟨later, _, state, _, same⟩ := clocked_step_some.mp taken
  have newTimes : ∀ entry ∈ (system.logs clocked.state state).map fun entry => (timed.1, entry),
      entry.1 = timed.1 := by
    intro entry member
    obtain ⟨_, _, made⟩ := List.mem_map.mp member
    rw [← made]
  rw [same]
  constructor
  · apply List.pairwise_append.mpr
    refine ⟨ordered.sorted, ?_, ?_⟩
    · apply List.pairwise_map.mpr
      exact List.pairwise_of_forall fun _ _ => Nat.le_refl timed.1
    · intro old oldMember new newMember
      rw [newTimes new newMember]
      exact Nat.le_trans (ordered.past old oldMember) later
  · intro entry member
    rcases List.mem_append.mp member with old | new
    · exact Nat.le_trans (ordered.past entry old) later
    · rw [newTimes entry new]
      exact Nat.le_refl timed.1

variable (system) in
theorem meets_clocked {condition : State → Label → Prop} {times : List (Nat × Label)}
    (meets : Meets system.step condition clocked.state (times.map Prod.snd)) :
    Meets (system.clockedStep timeout) (fun clocked timed => condition clocked.state timed.2)
      clocked times := by
  induction times generalizing clocked with
  | nil => trivial
  | cons timed rest induction =>
      refine ⟨meets.1, ?_⟩
      intro next taken
      obtain ⟨_, _, state, moved, same⟩ := clocked_step_some.mp taken
      apply induction
      rw [same]
      exact meets.2 state moved

variable (system timeout) in
/-- Every run is a prompt run against a clock. -/
theorem prompt_of_run {last : State} (started : Started clocked)
    (reached : run system.step clocked.state labels = some last) :
    ∃ times final, times.map Prod.snd = labels ∧
      run (system.clockedStep timeout) clocked times = some final ∧
      run (system.promptStep timeout) clocked labels = some final ∧ final.state = last := by
  induction labels generalizing clocked with
  | nil =>
      cases reached
      exact ⟨[], clocked, rfl, rfl, rfl, rfl⟩
  | cons label rest induction =>
      obtain ⟨state, moved, remaining⟩ := run_cons_some.mp reached
      have taken : system.promptStep timeout clocked label = some _ :=
        (prompt_step_some started).mpr ⟨state, moved, rfl⟩
      obtain ⟨times, final, timed, clockedRun, promptRun, ended⟩ :=
        induction (started_step _ _ _ started taken) remaining
      refine ⟨(system.promptTime timeout clocked label, label) :: times, final, ?_, ?_, ?_, ended⟩
      · rw [List.map_cons, timed]
      · exact run_cons_some.mpr ⟨_, taken, clockedRun⟩
      · rw [run_cons_of_step taken]
        exact promptRun

variable (system) in
theorem meets_of_prompt {condition : State → Label → Prop} (started : Started clocked)
    (meets : Meets (system.promptStep timeout) (fun clocked label => condition clocked.state label)
      clocked labels) : Meets system.step condition clocked.state labels := by
  induction labels generalizing clocked with
  | nil => trivial
  | cons label rest induction =>
      refine ⟨meets.1, ?_⟩
      intro state moved
      have taken : system.promptStep timeout clocked label = some _ :=
        (prompt_step_some started).mpr ⟨state, moved, rfl⟩
      exact induction (started_step _ _ _ started taken) (meets.2 _ taken)

end WaitingSystem

end ClockedRuns
