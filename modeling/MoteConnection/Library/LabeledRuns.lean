import Mathlib.Data.List.Basic

/-!
# Runs of a labelled transition function

A system is a partial function from a state and a label to the next state; the
label fixes every choice of the scheduler and the environment, so a run is a
list of labels. The rules below lift what one step does to what a run does.
They say nothing about which labels a scheduler will choose: a property of all
runs is a property of all interleavings.
-/

namespace LabeledRuns

set_option autoImplicit false

variable {State Label : Type*} {step : State → Label → Option State}

/-- The state reached by the labels in order, when each of them is enabled. -/
def run (step : State → Label → Option State) : State → List Label → Option State
  | state, [] => some state
  | state, label :: rest => (step state label).bind fun next => run step next rest

@[simp] theorem run_nil (state : State) : run step state [] = some state := rfl

theorem run_cons (state : State) (label : Label) (rest : List Label) :
    run step state (label :: rest) =
      (step state label).bind fun next => run step next rest := rfl

theorem run_cons_some {state last : State} {label : Label} {rest : List Label} :
    run step state (label :: rest) = some last ↔
      ∃ next, step state label = some next ∧ run step next rest = some last := by
  rw [run_cons, Option.bind_eq_some_iff]

theorem run_append (state : State) (first second : List Label) :
    run step state (first ++ second) =
      (run step state first).bind fun middle => run step middle second := by
  induction first generalizing state with
  | nil => rfl
  | cons label rest induction =>
      rw [List.cons_append, run_cons, run_cons, Option.bind_assoc]
      exact Option.bind_congr fun next _ => induction next

theorem run_append_some {state last : State} {first second : List Label} :
    run step state (first ++ second) = some last ↔
      ∃ middle, run step state first = some middle ∧ run step middle second = some last := by
  rw [run_append, Option.bind_eq_some_iff]

theorem run_related {related : State → State → Prop}
    (reflexive : ∀ state, related state state)
    (transitive : ∀ first second third,
      related first second → related second third → related first third)
    (stepwise : ∀ state label next, step state label = some next → related state next)
    {state last : State} {labels : List Label} (reached : run step state labels = some last) :
    related state last := by
  induction labels generalizing state with
  | nil =>
      cases reached
      exact reflexive _
  | cons label rest induction =>
      obtain ⟨next, taken, remaining⟩ := run_cons_some.mp reached
      exact transitive _ _ _ (stepwise state label next taken) (induction remaining)

/-- Every step of the run meets a condition on its label and the state before it. -/
def Meets (step : State → Label → Option State) (condition : State → Label → Prop) :
    State → List Label → Prop
  | _, [] => True
  | state, label :: rest =>
      condition state label ∧
        ∀ next, step state label = some next → Meets step condition next rest

instance decidableMeets {condition : State → Label → Prop}
    [∀ state label, Decidable (condition state label)] :
    ∀ state labels, Decidable (Meets step condition state labels)
  | _, [] => .isTrue trivial
  | state, label :: rest =>
      have : Decidable (∀ next, step state label = some next →
          Meets step condition next rest) :=
        match found : step state label with
        | none => .isTrue fun _ taken => by cases taken
        | some next =>
            match decidableMeets next rest with
            | .isTrue meets => .isTrue fun _ taken => by cases taken; exact meets
            | .isFalse fails => .isFalse fun all => fails (all next rfl)
      inferInstanceAs (Decidable (_ ∧ _))

theorem meets_append {condition : State → Label → Prop} {state : State}
    {first second : List Label} :
    Meets step condition state (first ++ second) ↔
      Meets step condition state first ∧
        ∀ middle, run step state first = some middle → Meets step condition middle second := by
  induction first generalizing state with
  | nil =>
      rw [List.nil_append, Meets, true_and]
      constructor
      · rintro meets middle ⟨⟩
        exact meets
      · intro meets
        exact meets state rfl
  | cons label rest induction =>
      rw [List.cons_append, Meets, Meets, and_assoc, and_congr_right_iff]
      intro met
      constructor
      · intro meets
        constructor
        · intro next taken
          exact (induction.mp (meets next taken)).1
        · intro middle reached
          obtain ⟨next, taken, remaining⟩ := run_cons_some.mp reached
          exact (induction.mp (meets next taken)).2 middle remaining
      · rintro ⟨early, late⟩ next taken
        apply induction.mpr
        refine ⟨early next taken, ?_⟩
        intro middle remaining
        exact late middle (run_cons_some.mpr ⟨next, taken, remaining⟩)

/-- The induction rule for runs: an invariant that every step meeting the
condition preserves holds at the end of every run whose steps all meet it. -/
theorem invariant_of_meets {condition : State → Label → Prop} {invariant : State → Prop}
    (preserved : ∀ state label next, condition state label → invariant state →
      step state label = some next → invariant next)
    {state last : State} {labels : List Label}
    (meets : Meets step condition state labels) (initially : invariant state)
    (reached : run step state labels = some last) : invariant last := by
  induction labels generalizing state with
  | nil =>
      cases reached
      exact initially
  | cons label rest induction =>
      obtain ⟨next, taken, remaining⟩ := run_cons_some.mp reached
      exact induction (meets.2 next taken)
        (preserved state label next meets.1 initially taken) remaining

theorem meets_and {first second : State → Label → Prop} {state : State} {labels : List Label}
    (one : Meets step first state labels) (other : Meets step second state labels) :
    Meets step (fun state label => first state label ∧ second state label) state labels := by
  induction labels generalizing state with
  | nil => trivial
  | cons label rest induction =>
      refine ⟨⟨one.1, other.1⟩, ?_⟩
      intro next taken
      exact induction (one.2 next taken) (other.2 next taken)

theorem meets_of_mem {allowed : Label → Prop} {state : State} {labels : List Label}
    (all : ∀ label ∈ labels, allowed label) :
    Meets step (fun _ label => allowed label) state labels := by
  induction labels generalizing state with
  | nil => trivial
  | cons label rest induction =>
      refine ⟨all label List.mem_cons_self, ?_⟩
      intro next _
      exact induction fun other member => all other (List.mem_cons_of_mem _ member)

theorem meets_and_of_mem {condition : State → Label → Prop} {allowed : Label → Prop}
    {state : State} {labels : List Label} (meets : Meets step condition state labels)
    (all : ∀ label ∈ labels, allowed label) :
    Meets step (fun state label => condition state label ∧ allowed label) state labels :=
  meets_and meets (meets_of_mem all)

theorem meets_trivial (state : State) (labels : List Label) :
    Meets step (fun _ _ => True) state labels := by
  induction labels generalizing state with
  | nil => trivial
  | cons label rest induction => exact ⟨trivial, fun next _ => induction next⟩

theorem invariant_of_run {invariant : State → Prop}
    (preserved : ∀ state label next, invariant state →
      step state label = some next → invariant next)
    {state last : State} {labels : List Label} (initially : invariant state)
    (reached : run step state labels = some last) : invariant last :=
  invariant_of_meets (fun state label next _ => preserved state label next)
    (meets_trivial state labels) initially reached

/-- A property that a step violating the condition destroys for good holds at the end of exactly
those runs whose steps all meet the condition. -/
theorem holds_iff_meets (condition : State → Label → Prop) (invariant holds : State → Prop)
    (preserved : ∀ state label next, condition state label → invariant state →
      step state label = some next → invariant next)
    (sound : ∀ state, invariant state → holds state)
    (destroyed : ∀ state label next, ¬ condition state label → invariant state →
      step state label = some next → ¬ holds next)
    (permanent : ∀ state label next, ¬ holds state →
      step state label = some next → ¬ holds next)
    {state last : State} {labels : List Label} (initially : invariant state)
    (reached : run step state labels = some last) :
    holds last ↔ Meets step condition state labels := by
  induction labels generalizing state with
  | nil =>
      cases reached
      exact iff_of_true (sound _ initially) trivial
  | cons label rest induction =>
      obtain ⟨next, taken, remaining⟩ := run_cons_some.mp reached
      by_cases met : condition state label
      · have later := induction (preserved state label next met initially taken) remaining
        rw [later, Meets, and_iff_right met]
        constructor
        · intro meets other same
          rw [taken] at same
          cases same
          exact meets
        · intro meets
          exact meets next taken
      · have lost := destroyed state label next met initially taken
        exact iff_of_false (invariant_of_run permanent lost remaining)
          fun meets => met meets.1

theorem meets_congr {allowed : Label → Prop} {first second : State → Label → Prop}
    {invariant : State → Prop}
    (agree : ∀ state label next, allowed label → invariant state →
      step state label = some next → (first state label ↔ second state label))
    (preserved : ∀ state label next, allowed label → first state label → invariant state →
      step state label = some next → invariant next)
    {state last : State} {labels : List Label} (all : ∀ label ∈ labels, allowed label)
    (initially : invariant state) (reached : run step state labels = some last) :
    Meets step first state labels ↔ Meets step second state labels := by
  induction labels generalizing state with
  | nil => exact Iff.rfl
  | cons label rest induction =>
      obtain ⟨next, taken, remaining⟩ := run_cons_some.mp reached
      have permitted := all label List.mem_cons_self
      have same := agree state label next permitted initially taken
      rw [Meets, Meets, same, and_congr_right_iff]
      intro met
      apply forall₂_congr
      intro other takenAgain
      rw [taken] at takenAgain
      cases takenAgain
      apply induction _ _ remaining
      · exact fun behind member => all behind (List.mem_cons_of_mem _ member)
      · exact preserved state label next permitted (same.mpr met) initially taken

theorem run_cons_of_step {state next : State} {label : Label} {rest : List Label}
    (taken : step state label = some next) :
    run step state (label :: rest) = run step next rest := by
  rw [run_cons, taken, Option.bind_some]

/-- Two runs of the same labels, when every step of the first is mirrored by one of the second. -/
theorem mirrored_run {condition : State → Label → Prop} {related : State → State → Prop}
    (mirrored : ∀ state other label next, condition state label → related state other →
      step state label = some next → ∃ reflected, step other label = some reflected ∧
        related next reflected)
    {state other last : State} {labels : List Label} (initially : related state other)
    (meets : Meets step condition state labels) (reached : run step state labels = some last) :
    ∃ reflected, run step other labels = some reflected ∧ related last reflected := by
  induction labels generalizing state other with
  | nil =>
      cases reached
      exact ⟨other, rfl, initially⟩
  | cons label rest induction =>
      obtain ⟨next, taken, remaining⟩ := run_cons_some.mp reached
      obtain ⟨reflected, taking, after⟩ :=
        mirrored state other label next meets.1 initially taken
      rw [run_cons_of_step taking]
      exact induction after (meets.2 next taken) remaining

/-- A run of one system is one of another with the same labels that can follow every step. -/
theorem simulated_run {Other : Type*} {otherStep : Other → Label → Option Other}
    {related : State → Other → Prop}
    (simulated : ∀ state other label next, related state other →
      step state label = some next → ∃ reflected, otherStep other label = some reflected ∧
        related next reflected)
    {state last : State} {other : Other} {labels : List Label} (initially : related state other)
    (reached : run step state labels = some last) :
    ∃ reflected, run otherStep other labels = some reflected ∧ related last reflected := by
  induction labels generalizing state other with
  | nil =>
      cases reached
      exact ⟨other, rfl, initially⟩
  | cons label rest induction =>
      obtain ⟨next, taken, remaining⟩ := run_cons_some.mp reached
      obtain ⟨reflected, taking, after⟩ := simulated state other label next initially taken
      rw [run_cons_of_step taking]
      exact induction after remaining

/-- The system with a record of its steps that none of them looks at. -/
def recording {Log : Type*} (step : State → Label → Option State)
    (record : Log → State → Label → Log) (state : State × Log) (label : Label) :
    Option (State × Log) :=
  (step state.1 label).map fun next => (next, record state.2 state.1 label)

theorem recording_some {Log : Type*} {record : Log → State → Label → Log}
    {state next : State × Log} {label : Label} :
    recording step record state label = some next ↔
      step state.1 label = some next.1 ∧ next.2 = record state.2 state.1 label := by
  rw [recording, Option.map_eq_some_iff]
  constructor
  · intro ⟨reached, taken, same⟩
    rw [← same]
    exact ⟨taken, rfl⟩
  · intro ⟨taken, same⟩
    exact ⟨next.1, taken, by rw [← same]⟩

theorem recorded_run {Log : Type*} (record : Log → State → Label → Log) {state last : State}
    {labels : List Label} (reached : run step state labels = some last) (log : Log) :
    ∃ total, run (recording step record) (state, log) labels = some (last, total) := by
  induction labels generalizing state log with
  | nil =>
      cases reached
      exact ⟨log, rfl⟩
  | cons label rest induction =>
      obtain ⟨next, taken, remaining⟩ := run_cons_some.mp reached
      obtain ⟨total, following⟩ := induction remaining (record log state label)
      have recorded : recording step record (state, log) label =
          some (next, record log state label) := recording_some.mpr ⟨taken, rfl⟩
      exact ⟨total, (run_cons_of_step recorded).trans following⟩

def Reaches (step : State → Label → Option State) (allowed : Label → Prop)
    (first last : State) : Prop :=
  ∃ labels, (∀ label ∈ labels, allowed label) ∧ run step first labels = some last

namespace Reaches

variable {allowed : Label → Prop} {first middle last : State}

theorem refl (state : State) : Reaches step allowed state state := ⟨[], by simp, rfl⟩

theorem cons {label : Label} (taken : step first label = some middle) (permitted : allowed label)
    (later : Reaches step allowed middle last) : Reaches step allowed first last := by
  obtain ⟨labels, all, reached⟩ := later
  refine ⟨label :: labels, ?_, run_cons_some.mpr ⟨middle, taken, reached⟩⟩
  intro other member
  rcases List.mem_cons.mp member with same | rest
  · rw [same]
    exact permitted
  · exact all other rest

theorem trans (early : Reaches step allowed first middle)
    (later : Reaches step allowed middle last) : Reaches step allowed first last := by
  obtain ⟨before, allBefore, begun⟩ := early
  obtain ⟨after, allAfter, ended⟩ := later
  refine ⟨before ++ after, ?_, run_append_some.mpr ⟨middle, begun, ended⟩⟩
  intro label member
  rcases List.mem_append.mp member with earlier | rest
  · exact allBefore label earlier
  · exact allAfter label rest

end Reaches

end LabeledRuns
