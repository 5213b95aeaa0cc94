import Mathlib.Data.List.Basic

/-!
# Transducers on a stream that arrives in pieces

A transducer reads one input at a time and emits a list of outputs. What it
emits over a whole stream does not depend on how the stream was cut into
pieces, as long as the state is carried from one piece to the next.
-/

namespace StreamTransducer

set_option autoImplicit false

variable {State Input Output : Type*}

/-- The last state and all outputs, in order. -/
def feed (step : State → Input → State × List Output) :
    State → List Input → State × List Output
  | state, [] => (state, [])
  | state, input :: rest =>
      let (next, emitted) := step state input
      let (last, later) := feed step next rest
      (last, emitted ++ later)

def feedPieces (step : State → Input → State × List Output) :
    State → List (List Input) → State × List (List Output)
  | state, [] => (state, [])
  | state, piece :: rest =>
      let (next, emitted) := feed step state piece
      let (last, later) := feedPieces step next rest
      (last, emitted :: later)

variable (step : State → Input → State × List Output)

@[simp] theorem feed_nil (state : State) : feed step state [] = (state, []) := rfl

theorem feed_cons (state : State) (input : Input) (rest : List Input) :
    feed step state (input :: rest) =
      ((feed step (step state input).1 rest).1,
        (step state input).2 ++ (feed step (step state input).1 rest).2) := rfl

theorem feed_append (state : State) (first second : List Input) :
    feed step state (first ++ second) =
      ((feed step (feed step state first).1 second).1,
        (feed step state first).2 ++ (feed step (feed step state first).1 second).2) := by
  induction first generalizing state with
  | nil => rfl
  | cons input rest induction =>
      rw [List.cons_append, feed_cons, feed_cons, induction, List.append_assoc]

/-- The cut of the stream into pieces is invisible in the state and the outputs. -/
theorem feed_pieces_flatten (state : State) (pieces : List (List Input)) :
    (feedPieces step state pieces).1 = (feed step state pieces.flatten).1 ∧
      (feedPieces step state pieces).2.flatten = (feed step state pieces.flatten).2 := by
  induction pieces generalizing state with
  | nil => exact ⟨rfl, rfl⟩
  | cons piece rest induction =>
      have ⟨sameState, sameOutputs⟩ := induction (feed step state piece).1
      rw [List.flatten_cons, feed_append]
      exact ⟨sameState, congrArg ((feed step state piece).2 ++ ·) sameOutputs⟩

theorem foldl_eq_feed (state : State) (emitted : List Output) (inputs : List Input) :
    inputs.foldl (fun pair input =>
        ((step pair.1 input).1, pair.2 ++ (step pair.1 input).2)) (state, emitted) =
      ((feed step state inputs).1, emitted ++ (feed step state inputs).2) := by
  induction inputs generalizing state emitted with
  | nil => simp
  | cons input rest induction =>
      rw [List.foldl_cons, induction, feed_cons, List.append_assoc]

end StreamTransducer
