import Mathlib.Data.List.Basic

/-!
# Admission with a cooldown for each key

A key may be admitted when every earlier admission of it is more than a timeout
ago. The rule speaks of the whole history of admissions; a table with one time
for each key decides it, when the time is that of the last admission. Nothing is
assumed about the clock: a table that admits by the rule never holds a time
before that of another admission of its key.
-/

namespace Cooldowns

set_option autoImplicit false

structure Admission (Key : Type*) where
  key : Key
  time : Nat

variable {Key : Type*} {history : List (Admission Key)} {latest : Key → Option Nat}

/-- The key was admitted `timeout` or less before now. -/
def Cooling (timeout : Nat) (history : List (Admission Key)) (now : Nat) (key : Key) : Prop :=
  ∃ earlier ∈ history, earlier.key = key ∧ now - earlier.time ≤ timeout

/-- The table has the last admission of each key. -/
structure Records (latest : Key → Option Nat) (history : List (Admission Key)) : Prop where
  admitted : ∀ key time, latest key = some time → ⟨key, time⟩ ∈ history
  last : ∀ earlier ∈ history, ∃ time, latest earlier.key = some time ∧ earlier.time ≤ time

theorem Records.empty : Records (fun _ : Key => none) [] where
  admitted := by
    intro key time found
    cases found
  last := by
    intro earlier member
    cases member

/-- The table decides whether a key is cooling. -/
theorem Records.cooling_iff (records : Records latest history) (timeout now : Nat) (key : Key) :
    Cooling timeout history now key ↔
      ∃ time, latest key = some time ∧ now - time ≤ timeout := by
  constructor
  · intro ⟨earlier, member, same, recent⟩
    obtain ⟨time, found, before⟩ := records.last earlier member
    rw [same] at found
    have stillRecent : now - time ≤ now - earlier.time := Nat.sub_le_sub_left before now
    exact ⟨time, found, Nat.le_trans stillRecent recent⟩
  · intro ⟨time, found, recent⟩
    exact ⟨⟨key, time⟩, records.admitted key time found, rfl, recent⟩

theorem Records.admit (records : Records latest history) {timeout now : Nat} {key : Key}
    (cool : ¬ Cooling timeout history now key) {after : Key → Option Nat}
    (recorded : after key = some now)
    (others : ∀ other, other ≠ key → after other = latest other) :
    Records after (history ++ [⟨key, now⟩]) where
  admitted := by
    intro other time found
    apply List.mem_append.mpr
    by_cases same : other = key
    · rw [same, recorded] at found
      cases found
      apply Or.inr
      rw [same]
      exact List.mem_singleton.mpr rfl
    · rw [others other same] at found
      exact Or.inl (records.admitted other time found)
  last := by
    intro earlier member
    rcases List.mem_append.mp member with old | new
    · by_cases same : earlier.key = key
      · refine ⟨now, by rw [same, recorded], ?_⟩
        have passed : ¬ now - earlier.time ≤ timeout := fun recent =>
          cool ⟨earlier, old, same, recent⟩
        omega
      · rw [others earlier.key same]
        exact records.last earlier old
    · rw [List.mem_singleton] at new
      rw [new]
      exact ⟨now, recorded, Nat.le_refl now⟩

def Throughout {Entry : Type*} (holds : List Entry → Entry → Prop) (entries : List Entry) : Prop :=
  ∀ earlier entry later, entries = earlier ++ entry :: later → holds earlier entry

theorem throughout_nil {Entry : Type*} (holds : List Entry → Entry → Prop) :
    Throughout holds [] := by
  intro earlier entry later same
  cases earlier <;> cases same

theorem throughout_concat {Entry : Type*} {holds : List Entry → Entry → Prop}
    {entries : List Entry} {last : Entry} :
    Throughout holds (entries ++ [last]) ↔ Throughout holds entries ∧ holds entries last := by
  constructor
  · intro all
    constructor
    · intro earlier entry later same
      apply all earlier entry (later ++ [last])
      rw [same, List.append_assoc, List.cons_append]
    · exact all entries last [] rfl
  · intro ⟨before, new⟩ earlier entry later same
    rcases List.eq_nil_or_concat later with ended | ⟨front, final, ended⟩
    · rw [ended] at same
      obtain ⟨sameEntries, sameLast⟩ := List.append_inj' same rfl
      cases sameLast
      rw [← sameEntries]
      exact new
    · rw [ended, List.concat_eq_append, ← List.cons_append, ← List.append_assoc] at same
      have sameEntries := (List.append_inj' same rfl).1
      exact before earlier entry front sameEntries

end Cooldowns
