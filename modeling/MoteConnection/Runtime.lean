import Mathlib.Data.List.AList
import Mathlib.Tactic.Common

/-!
# What the crate takes from the language and its standard library

Bytes, events, and calls that may panic. A slice access, a `split_off` and an
unsigned subtraction each carry their own bounds check, so that the absence of
a panic is something to prove and not a convention. Vectors are lists without
the `isize::MAX` limit on their length. The two sides that talk to each other
are named here too.
-/

namespace MoteConnection.Runtime

set_option autoImplicit false

/-- The way bytes are represented in the crate. -/
abbrev Bytes := List UInt8

inductive Event (Content : Type)
  | disconnected
  | connected
  | data (content : Content)
  | stop
  | error
  deriving DecidableEq, Repr

def Event.debugName {Content : Type} : Event Content → String
  | disconnected => "Disconnected"
  | connected => "Connected"
  | data _ => "Data"
  | stop => "Stop"
  | error => "Error"

/-- A call returns a value, or unwinds with the message of its panic. -/
inductive Outcome (Value : Type)
  | returned (value : Value)
  | panicked (message : String)
  deriving DecidableEq, Repr

namespace Outcome

variable {Value Next : Type}

def andThen (outcome : Outcome Value) (next : Value → Outcome Next) : Outcome Next :=
  match outcome with
  | returned value => next value
  | panicked message => panicked message

instance : Monad Outcome where
  pure := returned
  bind := andThen

@[simp] theorem pure_eq (value : Value) : (pure value : Outcome Value) = returned value := rfl

@[simp] theorem returned_bind (value : Value) (next : Value → Outcome Next) :
    (returned value >>= next) = next value := rfl

@[simp] theorem panicked_bind (message : String) (next : Value → Outcome Next) :
    (panicked message >>= next) = panicked message := rfl

theorem bind_eq_returned {outcome : Outcome Value} {next : Value → Outcome Next} {last : Next} :
    (outcome >>= next) = returned last ↔
      ∃ value, outcome = returned value ∧ next value = returned last := by
  cases outcome with
  | returned value => simp
  | panicked message => simp

instance : LawfulMonad Outcome :=
  LawfulMonad.mk' Outcome
    (fun outcome => by cases outcome <;> rfl)
    (fun _ _ => rfl)
    (fun outcome _ _ => by cases outcome <;> rfl)

def Returns (outcome : Outcome Value) : Prop := ∃ value, outcome = returned value

@[simp] theorem returned_returns (value : Value) : (returned value).Returns := ⟨value, rfl⟩

@[simp] theorem panicked_not_returns (message : String) :
    ¬ (panicked message : Outcome Value).Returns := by
  rintro ⟨value, same⟩
  cases same

instance : (outcome : Outcome Value) → Decidable outcome.Returns
  | returned value => .isTrue (returned_returns value)
  | panicked message => .isFalse (panicked_not_returns message)

end Outcome

open Outcome

/-- The message of `send(..).unwrap()` without a receiver. -/
def sendFailed : String :=
  "called `Result::unwrap()` on an `Err` value: SendError \x7b .. \x7d"

/-- The message of `join().unwrap()` on a thread that has panicked. -/
def joinFailed : String := "called `Result::unwrap()` on an `Err` value: Any \x7b .. \x7d"

/-- `bytes[position]` -/
def index (bytes : Bytes) (position : Nat) : Outcome UInt8 :=
  match bytes[position]? with
  | some byte => returned byte
  | none =>
      panicked s!"index out of bounds: the len is {bytes.length} but the index is {position}"

/-- `bytes.split_off(position)`: what stays in the vector, and what is taken off it. -/
def splitOff (bytes : Bytes) (position : Nat) : Outcome (Bytes × Bytes) :=
  if position ≤ bytes.length then
    returned (bytes.take position, bytes.drop position)
  else
    panicked s!"split index (is {position}) should be <= len (is {bytes.length})"

/-- `left - right` on an unsigned type. -/
def checkedSub (left right : Nat) : Outcome Nat :=
  if right ≤ left then returned (left - right)
  else panicked "attempt to subtract with overflow"

@[simp] theorem index_zero_cons (byte : UInt8) (rest : Bytes) :
    index (byte :: rest) 0 = returned byte := rfl

theorem split_off_append (kept taken : Bytes) :
    splitOff (kept ++ taken) kept.length = returned (kept, taken) := by
  simp [splitOff]

theorem split_off_one (byte : UInt8) (rest : Bytes) :
    splitOff (byte :: rest) 1 = returned ([byte], rest) :=
  split_off_append [byte] rest

theorem checked_sub_of_le {left right : Nat} (bounded : right ≤ left) :
    checkedSub left right = returned (left - right) := if_pos bounded

/-- `{:0width$X}`: upper-case hexadecimal, padded with zeros on the left. -/
def upperHex (width value : Nat) : String :=
  let digits := (Nat.toDigits 16 value).map Char.toUpper
  String.ofList (List.replicate (width - digits.length) '0' ++ digits)

example : upperHex 4 0x2a = "002A" := by decide

/-- A point of the monotonic clock, in nanoseconds. -/
abbrev Instant := Nat

abbrev Duration := Nat

def fromSecs (seconds : Nat) : Duration := seconds * 1000000000

/-- `HashMap<K, V>`. The entries are a list in which no key occurs twice; their
order stands for nothing, and an iteration may visit them in any other. -/
abbrev HashMap (Key Value : Type) := AList fun _ : Key => Value

section Values

variable {Key Value : Type} [DecidableEq Key] {table : HashMap Key Value} {order : List Key}

def values (table : HashMap Key Value) (order : List Key) : List Value :=
  order.filterMap fun key => table.lookup key

theorem mem_values (complete : order.Perm table.keys) (value : Value) :
    value ∈ values table order ↔ ∃ key, table.lookup key = some value := by
  rw [values, List.mem_filterMap]
  constructor
  · rintro ⟨key, _, found⟩
    exact ⟨key, found⟩
  · rintro ⟨key, found⟩
    have present : key ∈ table := AList.lookup_isSome.mp (by rw [found]; rfl)
    exact ⟨key, complete.mem_iff.mpr (AList.mem_keys.mp present), found⟩

theorem values_nodup (complete : order.Perm table.keys)
    (apart : ∀ first second value, table.lookup first = some value →
      table.lookup second = some value → first = second) : (values table order).Nodup := by
  have distinct : order.Nodup := complete.nodup_iff.mpr table.nodupKeys
  exact distinct.filterMap apart

theorem lookup_insert (table : HashMap Key Value) (key other : Key) (value : Value) :
    (table.insert key value).lookup other =
      if other = key then some value else table.lookup other := by
  by_cases same : other = key
  · rw [if_pos same, same, AList.lookup_insert]
  · rw [if_neg same, AList.lookup_insert_ne same]

end Values

theorem of_tail {Entry : Type} {entries rest : List Entry} {first : Entry}
    (queue : entries = first :: rest) : first ∈ entries ∧ ∀ other ∈ rest, other ∈ entries := by
  rw [queue]
  exact ⟨List.mem_cons_self, fun other member => List.mem_cons_of_mem _ member⟩

def dataOf (events : List (Event Bytes)) : List Bytes :=
  events.filterMap fun event =>
    match event with
    | .data data => some data
    | _ => none

theorem data_of_append (first second : List (Event Bytes)) :
    dataOf (first ++ second) = dataOf first ++ dataOf second := List.filterMap_append

section Sides

inductive Side
  | left
  | right
  deriving DecidableEq, Repr

def Side.other : Side → Side
  | left => right
  | right => left

theorem Side.other_other (side : Side) : side.other.other = side := by
  cases side <;> rfl

theorem Side.other_ne (side : Side) : side.other ≠ side := by
  cases side <;> decide

theorem Side.other_eq {side other : Side} (differs : other ≠ side) : other = side.other := by
  cases side <;> cases other <;> first | rfl | exact absurd rfl differs

theorem both_sides {holds : Side → Prop} (side : Side) (own : holds side)
    (opposite : holds side.other) : ∀ other, holds other := by
  intro other
  by_cases same : other = side
  · exact same ▸ own
  · exact Side.other_eq same ▸ opposite

end Sides

end MoteConnection.Runtime
