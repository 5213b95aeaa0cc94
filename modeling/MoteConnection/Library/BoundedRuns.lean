import Mathlib.Algebra.BigOperators.Group.Finset.Basic
import Mathlib.Data.Fintype.BigOperators
import MoteConnection.Library.LabeledRuns

/-!
# Runs that must come to an end

Some labels are the system's own steps, the others come from outside. When each
own step uses up some of a potential and a step from outside adds no more than
its cost, the outside pays for every step of a run. A system that in addition
has a step of its own wherever it is not done yet completes, under every
scheduler that only takes such steps.
-/

namespace BoundedRuns

open LabeledRuns

set_option autoImplicit false

variable {State Label : Type*} {step : State → Label → Option State}

/-- The labels' costs, where the system's own labels cost nothing. -/
def outside (own : Label → Bool) (cost : Label → Nat) : List Label → Nat
  | [] => 0
  | label :: rest =>
      if own label then outside own cost rest else cost label + outside own cost rest

theorem outside_cons_own {own : Label → Bool} {cost : Label → Nat} {label : Label}
    {rest : List Label} (mine : own label = true) :
    outside own cost (label :: rest) = outside own cost rest := by
  rw [outside, if_pos mine]

theorem outside_cons_other {own : Label → Bool} {cost : Label → Nat} {label : Label}
    {rest : List Label} (other : own label = false) :
    outside own cost (label :: rest) = cost label + outside own cost rest := by
  rw [outside, if_neg (by rw [other]; exact Bool.false_ne_true)]

/-- A potential that own steps use up and others raise by at most their cost. -/
structure Paying (step : State → Label → Option State) (own : Label → Bool)
    (cost : Label → Nat) (potential : State → Nat) : Prop where
  falls : ∀ state label next, own label = true → step state label = some next →
    potential next < potential state
  rises : ∀ state label next, own label = false → step state label = some next →
    potential next ≤ potential state + cost label

variable {own : Label → Bool} {cost : Label → Nat} {potential : State → Nat}

/-- The number of own steps of a run is at most what there was and what was added. -/
theorem Paying.own_steps (paying : Paying step own cost potential) {state last : State}
    {labels : List Label} (reached : run step state labels = some last) :
    labels.countP own + potential last ≤ potential state + outside own cost labels := by
  induction labels generalizing state with
  | nil =>
      cases reached
      simp [outside]
  | cons label rest induction =>
      obtain ⟨next, taken, remaining⟩ := run_cons_some.mp reached
      have later := induction remaining
      cases mine : own label with
      | true =>
          have less := paying.falls state label next mine taken
          rw [List.countP_cons_of_pos mine, outside_cons_own mine]
          omega
      | false =>
          have more := paying.rises state label next mine taken
          rw [List.countP_cons_of_neg (by rw [mine]; exact Bool.false_ne_true),
            outside_cons_other mine]
          omega

/-- From a state with the invariant own steps lead to one that is done. -/
theorem Paying.completes (paying : Paying step own cost potential)
    {invariant done : State → Prop}
    (preserved : ∀ state label next, invariant state → step state label = some next →
      invariant next)
    (progress : ∀ state, invariant state → ¬ done state →
      ∃ label next, own label = true ∧ step state label = some next)
    {state : State} (initially : invariant state) :
    ∃ last, Reaches step (fun label => own label = true) state last ∧ done last := by
  induction rank : potential state using Nat.strongRecOn generalizing state with
  | ind bound induction =>
      by_cases already : done state
      · exact ⟨state, Reaches.refl state, already⟩
      · obtain ⟨label, next, mine, taken⟩ := progress state initially already
        have less := paying.falls state label next mine taken
        obtain ⟨last, reached, finished⟩ := induction (potential next) (rank ▸ less)
          (preserved state label next initially taken) rfl
        exact ⟨last, reached.cons taken mine, finished⟩

theorem sum_of_changed {Index : Type*} [Fintype Index] {before after : Index → Nat}
    (index : Index) (others : ∀ other, other ≠ index → after other = before other) :
    (∑ other, after other) + before index = (∑ other, before other) + after index := by
  classical
  have rest : ∑ other ∈ Finset.univ.erase index, after other =
      ∑ other ∈ Finset.univ.erase index, before other :=
    Finset.sum_congr rfl fun other member => others other (Finset.ne_of_mem_erase member)
  rw [← Finset.add_sum_erase _ after (Finset.mem_univ index),
    ← Finset.add_sum_erase _ before (Finset.mem_univ index), rest]
  omega

end BoundedRuns
