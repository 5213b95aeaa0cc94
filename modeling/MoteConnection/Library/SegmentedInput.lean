import Mathlib.Data.List.Basic

/-!
# Input that arrives in pieces

A stream reaches its reader cut into nonempty pieces. One read returns at most
one piece, or as much of it as the buffer holds, and nothing only at the end.
Reading an exact count takes as many reads as it needs. What an exact reader
does depends on the stream alone, and `ExactReader` says so of any kind of
input; what a single read returns depends on the pieces too.
-/

namespace SegmentedInput

set_option autoImplicit false

variable {Item : Type*}

structure Segmentation (stream : List Item) where
  pieces : List (List Item)
  joined : pieces.flatten = stream
  nonempty : ∀ piece ∈ pieces, piece ≠ []

/-- One read into a buffer for `count` items. -/
def read (count : Nat) : List (List Item) → List Item × List (List Item)
  | [] => ([], [])
  | piece :: rest =>
      if piece.length ≤ count then (piece, rest)
      else (piece.take count, piece.drop count :: rest)

/-- Reads until the buffer is full; `none` when the stream ends before. -/
def readExact : Nat → List (List Item) → Option (List Item × List (List Item))
  | 0, pieces => some ([], pieces)
  | _ + 1, [] => none
  | count + 1, piece :: rest =>
      if piece.length ≤ count + 1 then
        (readExact (count + 1 - piece.length) rest).map fun (items, left) => (piece ++ items, left)
      else some (piece.take (count + 1), piece.drop (count + 1) :: rest)

/-- A reader of exact counts: it returns the requested items from the front of its content, or
fails when there are fewer. -/
structure ExactReader (Item Input : Type*) where
  content : Input → List Item
  readExact : Nat → Input → Option (List Item × Input)
  succeeds : ∀ count input, count ≤ (content input).length →
    ∃ left, readExact count input = some ((content input).take count, left) ∧
      content left = (content input).drop count
  fails : ∀ count input, (content input).length < count → readExact count input = none

theorem read_exact_succeeds (count : Nat) (pieces : List (List Item))
    (enough : count ≤ pieces.flatten.length) :
    ∃ left, readExact count pieces = some (pieces.flatten.take count, left) ∧
      left.flatten = pieces.flatten.drop count := by
  induction pieces generalizing count with
  | nil =>
      rw [List.flatten_nil, List.length_nil, Nat.le_zero] at enough
      rw [enough]
      exact ⟨[], rfl, rfl⟩
  | cons piece rest induction =>
      cases count with
      | zero => exact ⟨piece :: rest, rfl, rfl⟩
      | succ less =>
          rw [List.flatten_cons, List.length_append] at enough
          by_cases whole : piece.length ≤ less + 1
          · obtain ⟨left, taken, remaining⟩ := induction (less + 1 - piece.length) (by omega)
            refine ⟨left, ?_, ?_⟩
            · rw [readExact, if_pos whole, taken, List.flatten_cons, List.take_append,
                List.take_of_length_le whole]
              rfl
            · rw [remaining, List.flatten_cons, List.drop_append, List.drop_of_length_le whole,
                List.nil_append]
          · have inside : less + 1 ≤ piece.length := by omega
            refine ⟨piece.drop (less + 1) :: rest, ?_, ?_⟩
            · rw [readExact, if_neg whole, List.flatten_cons, List.take_append_of_le_length inside]
            · rw [List.flatten_cons, List.flatten_cons, List.drop_append_of_le_length inside]

theorem read_exact_fails (count : Nat) (pieces : List (List Item))
    (short : pieces.flatten.length < count) : readExact count pieces = none := by
  induction pieces generalizing count with
  | nil =>
      cases count with
      | zero => cases short
      | succ less => rfl
  | cons piece rest induction =>
      rw [List.flatten_cons, List.length_append] at short
      cases count with
      | zero => omega
      | succ less =>
          have whole : piece.length ≤ less + 1 := by omega
          rw [readExact, if_pos whole, induction (less + 1 - piece.length) (by omega),
            Option.map_none]

def ExactReader.ofPieces : ExactReader Item (List (List Item)) where
  content := List.flatten
  readExact := SegmentedInput.readExact
  succeeds := read_exact_succeeds
  fails := read_exact_fails

namespace ExactReader

variable {Input : Type*} (reader : ExactReader Item Input)

theorem of_some {count : Nat} {input left : Input} {items : List Item}
    (taken : reader.readExact count input = some (items, left)) :
    items.length = count ∧ reader.content input = items ++ reader.content left := by
  by_cases enough : count ≤ (reader.content input).length
  · obtain ⟨found, succeeded, remaining⟩ := reader.succeeds count input enough
    rw [succeeded] at taken
    cases taken
    rw [remaining, List.take_append_drop]
    exact ⟨List.length_take_of_le enough, rfl⟩
  · rw [reader.fails count input (Nat.not_le.mp enough)] at taken
    cases taken

theorem take_prefix (items : List Item) {input : Input} {rest : List Item}
    (front : reader.content input = items ++ rest) :
    ∃ left, reader.readExact items.length input = some (items, left) ∧
      reader.content left = rest := by
  have enough : items.length ≤ (reader.content input).length := by
    rw [front, List.length_append]
    exact Nat.le_add_right _ _
  obtain ⟨left, taken, remaining⟩ := reader.succeeds items.length input enough
  rw [front, List.take_left] at taken
  rw [front, List.drop_left] at remaining
  exact ⟨left, taken, remaining⟩

theorem take_one {input : Input} {item : Item} {rest : List Item}
    (front : reader.content input = item :: rest) :
    ∃ left, reader.readExact 1 input = some ([item], left) ∧ reader.content left = rest :=
  reader.take_prefix [item] front

end ExactReader

end SegmentedInput
