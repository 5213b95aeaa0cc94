import Mathlib.Data.List.Induction
import MoteConnection.Runtime

/-!
# The events a transport sends upward

A transport tells the `Connection` of its sessions: each begins with
`Connected`, hands up data, and ends with `Disconnected`. Whether a sequence of
events is the beginning of such a story can be told by reading it from left to
right with one bit of memory.
-/

namespace MoteConnection.ConnectionEvents

open MoteConnection.Runtime

set_option autoImplicit false

variable {Content : Type}

def sessionEvents (packets : List Content) : List (Event Content) :=
  [.connected] ++ packets.map .data ++ [.disconnected]

/-- A prefix of a word of `(Connected Data* Disconnected)*`. -/
def WellFormed (events : List (Event Content)) : Prop :=
  ∃ sessions : List (List Content), events <+: sessions.flatMap sessionEvents

inductive Status
  | outside
  | inside
  deriving DecidableEq, Repr

def follow : Option Status → Event Content → Option Status
  | some .outside, .connected => some .inside
  | some .inside, .data _ => some .inside
  | some .inside, .disconnected => some .outside
  | _, _ => none

/-- Where in a session the events end; `none` when they have left the words. -/
def status (events : List (Event Content)) : Option Status :=
  events.foldl follow (some .outside)

theorem follow_none (events : List (Event Content)) :
    events.foldl follow none = none := by
  induction events with
  | nil => rfl
  | cons event rest induction =>
      rw [List.foldl_cons]
      cases event <;> exact induction

theorem status_append (events : List (Event Content)) (event : Event Content) :
    status (events ++ [event]) = follow (status events) event := by
  rw [status, List.foldl_append]
  rfl

theorem status_of_prefix {first second : List (Event Content)} (shorter : first <+: second)
    (alive : (status second).isSome) : (status first).isSome := by
  obtain ⟨rest, rfl⟩ := shorter
  rw [status, List.foldl_append] at alive
  cases reached : status first with
  | some place => rfl
  | none =>
      rw [status] at reached
      rw [reached, follow_none] at alive
      cases alive

theorem follow_data (packets : List Content) :
    (packets.map Event.data).foldl follow (some .inside) = some .inside := by
  induction packets with
  | nil => rfl
  | cons packet packets induction => exact induction

theorem status_of_sessions (sessions : List (List Content)) :
    status (sessions.flatMap sessionEvents) = some .outside := by
  induction sessions with
  | nil => rfl
  | cons packets sessions induction =>
      have one : (sessionEvents packets).foldl follow (some .outside) = some .outside := by
        rw [sessionEvents, List.foldl_append, List.foldl_append]
        have opened : ([.connected] : List (Event Content)).foldl follow (some .outside) =
            some .inside := rfl
        rw [opened, follow_data]
        rfl
      rw [List.flatMap_cons, status, List.foldl_append, one]
      exact induction

theorem sessions_of_status (events : List (Event Content)) :
    (status events = some .outside →
      ∃ sessions : List (List Content), events = sessions.flatMap sessionEvents) ∧
    (status events = some .inside →
      ∃ (sessions : List (List Content)) (packets : List Content),
        events = sessions.flatMap sessionEvents ++ ([.connected] ++ packets.map .data)) := by
  induction events using List.reverseRecOn with
  | nil =>
      constructor
      · intro _
        exact ⟨[], rfl⟩
      · intro inside
        cases inside
  | append_singleton events event induction =>
      rw [status_append]
      cases place : status events with
      | none =>
          constructor <;>
          · intro same
            cases event <;> cases same
      | some before =>
          cases before with
          | outside =>
              obtain ⟨sessions, split⟩ := induction.1 place
              constructor
              · intro same
                cases event <;> cases same
              · intro same
                cases event <;> cases same
                exact ⟨sessions, [], by rw [split]; rfl⟩
          | inside =>
              obtain ⟨sessions, packets, split⟩ := induction.2 place
              constructor
              · intro same
                cases event <;> cases same
                refine ⟨sessions ++ [packets], ?_⟩
                rw [split, List.flatMap_append, List.flatMap_singleton, sessionEvents]
                simp only [List.append_assoc]
              · intro same
                cases event <;> cases same
                rename_i content
                refine ⟨sessions, packets ++ [content], ?_⟩
                rw [split, List.map_append, List.append_assoc, List.append_assoc]
                rfl

theorem well_formed_iff (events : List (Event Content)) :
    WellFormed events ↔ (status events).isSome := by
  constructor
  · rintro ⟨sessions, shorter⟩
    apply status_of_prefix shorter
    rw [status_of_sessions]
    rfl
  · intro alive
    cases place : status events with
    | none =>
        rw [place] at alive
        cases alive
    | some before =>
        cases before with
        | outside =>
            obtain ⟨sessions, split⟩ := (sessions_of_status events).1 place
            exact ⟨sessions, [], by rw [split, List.append_nil]⟩
        | inside =>
            obtain ⟨sessions, packets, split⟩ := (sessions_of_status events).2 place
            refine ⟨sessions ++ [packets], [.disconnected], ?_⟩
            rw [split, List.flatMap_append, List.flatMap_singleton, sessionEvents]
            simp only [List.append_assoc]

theorem not_well_formed_append {events later : List (Event Content)}
    (broken : ¬ WellFormed events) : ¬ WellFormed (events ++ later) := by
  rintro ⟨sessions, shorter⟩
  exact broken ⟨sessions, (List.prefix_append events later).trans shorter⟩

instance (events : List (Event Content)) : Decidable (WellFormed events) :=
  decidable_of_iff _ (well_formed_iff events).symm

/-- Whether the last notice was `Connected`; `initially` stands in for it before the first. -/
def isConnected (initially : Bool) (events : List (Event Content)) : Bool :=
  events.foldl (fun connected event =>
    match event with
    | .connected => true
    | .disconnected => false
    | _ => connected) initially

@[simp] theorem is_connected_connected (initially : Bool) (events : List (Event Content)) :
    isConnected initially (events ++ [.connected]) = true := by
  rw [isConnected, List.foldl_append]
  rfl

@[simp] theorem is_connected_disconnected (initially : Bool) (events : List (Event Content)) :
    isConnected initially (events ++ [.disconnected]) = false := by
  rw [isConnected, List.foldl_append]
  rfl

@[simp] theorem is_connected_data (initially : Bool) (events : List (Event Content))
    (content : Content) :
    isConnected initially (events ++ [.data content]) = isConnected initially events := by
  rw [isConnected, List.foldl_append]
  rfl

end MoteConnection.ConnectionEvents
