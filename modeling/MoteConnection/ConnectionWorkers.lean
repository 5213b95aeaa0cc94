import MoteConnection.ActiveMessageRouting

/-!
# The workers of a connection

The handlers of `TransportWorker` and `DispatcherWorker`, which split what a
transport delivers by its first byte and put that byte back on the way down,
and the tables of channels that a connection gives them.

A dispatcher creates one channel in each direction. Both are named by its
dispatch byte, of which a connection has no two.
-/

namespace MoteConnection.ConnectionWorkers

open FanOut
open MoteConnection.Runtime MoteConnection.ActiveMessages
open Outcome

set_option autoImplicit false

structure DispatcherHandle (Channel : Type) where
  tx : Channel
  rx : Channel

structure TransportWorker (Channel : Type) where
  txs : HashMap UInt8 Channel

structure DispatcherWorker where
  dispatchByte : UInt8

namespace TransportWorker

variable {Channel : Type} (worker : TransportWorker Channel)

def send (message : Bytes) : Outcome (List (Channel × Event Bytes)) := do
  match worker.txs.lookup (← index message 0) with
  | some dispatcher => return [(dispatcher, .data (← sliceFrom message 1))]
  | none => return []

/-- `notify_connected` and `notify_disconnected`, for one order of iteration. -/
def notify (event : Event Bytes) (order : List UInt8) : List (Channel × Event Bytes) :=
  (values worker.txs order).map fun dispatcher => (dispatcher, event)

def handleData (order : List UInt8) (data : Event Bytes) :
    Outcome (List (Channel × Event Bytes)) :=
  match data with
  | .data message => worker.send message
  | .connected => returned (worker.notify .connected order)
  | .disconnected => returned (worker.notify .disconnected order)
  | other => panicked s!"Unknown message from the transport: {other.debugName}"

end TransportWorker

namespace DispatcherWorker

variable (worker : DispatcherWorker)

def send (message : Bytes) : Event Bytes := .data ([worker.dispatchByte] ++ message)

def handleData (data : Event Bytes) : Outcome (Event Bytes) :=
  match data with
  | .data message => returned (worker.send message)
  | other => panicked s!"Unknown event {other.debugName}!"

end DispatcherWorker

def decomposeDispatchHandles {Channel : Type} (handles : HashMap UInt8 (DispatcherHandle Channel)) :
    HashMap UInt8 Channel × HashMap UInt8 Channel :=
  handles.entries.foldl
    (fun tables entry =>
      (tables.1.insert entry.1 entry.2.tx, tables.2.insert entry.1 entry.2.rx))
    (∅, ∅)

/-- The two dispatchers of the crate; `AMDispatcherBuilder::create` uses the byte `0x00`. -/
inductive Dispatcher (Uuid Who : Type)
  | raw (dispatch : UInt8)
  | am (worker : ActiveMessageRouting.ConnectionWorker Uuid Who)

namespace Dispatcher

variable {Uuid Who : Type}

def dispatchByte : Dispatcher Uuid Who → UInt8
  | raw dispatch => dispatch
  | am _ => 0x00

def getHandle (dispatcher : Dispatcher Uuid Who) : DispatcherHandle UInt8 :=
  ⟨dispatcher.dispatchByte, dispatcher.dispatchByte⟩

def amWorker : Dispatcher Uuid Who → Option (ActiveMessageRouting.ConnectionWorker Uuid Who)
  | raw _ => none
  | am worker => some worker

end Dispatcher

def registerDispatcher {Uuid Who : Type} (handles : HashMap UInt8 (DispatcherHandle UInt8))
    (dispatcher : Dispatcher Uuid Who) : HashMap UInt8 (DispatcherHandle UInt8) :=
  handles.insert dispatcher.dispatchByte dispatcher.getHandle

structure Dispatchers (Uuid Who : Type) where
  list : List (Dispatcher Uuid Who)
  distinct : (list.map Dispatcher.dispatchByte).Nodup

namespace Dispatchers

variable {Uuid Who : Type} (dispatchers : Dispatchers Uuid Who)

def bytes : List UInt8 := dispatchers.list.map Dispatcher.dispatchByte

def handles : HashMap UInt8 (DispatcherHandle UInt8) := dispatchers.list.foldl registerDispatcher ∅

def worker : TransportWorker UInt8 := ⟨(decomposeDispatchHandles dispatchers.handles).1⟩

/-- The keys of `rxs`, for each of which a `DispatcherWorker` is spawned. -/
def workerBytes : List UInt8 := (decomposeDispatchHandles dispatchers.handles).2.keys

def am : Option (ActiveMessageRouting.ConnectionWorker Uuid Who) :=
  dispatchers.list.findSome? Dispatcher.amWorker

def servesAm (byte : UInt8) : Bool := byte == 0x00 && dispatchers.am.isSome

end Dispatchers

section Tables

theorem lookup_inserted {Entry Value : Type} (value : Entry → Value)
    {entries : List (Sigma fun _ : UInt8 => Entry)} (distinct : entries.NodupKeys)
    (table : HashMap UInt8 Value) (byte : UInt8) :
    (entries.foldl (fun table entry => table.insert entry.1 (value entry.2)) table).lookup byte =
      ((entries.dlookup byte).map value).or (table.lookup byte) := by
  induction entries generalizing table with
  | nil => rfl
  | cons entry rest induction =>
      obtain ⟨key, handle⟩ := entry
      have keys := List.nodupKeys_cons.mp distinct
      rw [List.foldl_cons, induction keys.2, lookup_insert]
      by_cases same : byte = key
      · have absent : rest.dlookup byte = none := by
          rw [List.dlookup_eq_none, same]
          exact keys.1
        rw [if_pos same, absent, same, List.dlookup_cons_eq]
        rfl
      · rw [if_neg same, List.dlookup_cons_ne _ _ same]

theorem decomposed_tables {Channel : Type} (handles : HashMap UInt8 (DispatcherHandle Channel)) :
    decomposeDispatchHandles handles =
      (handles.entries.foldl (fun table entry => table.insert entry.1 entry.2.tx) ∅,
        handles.entries.foldl (fun table entry => table.insert entry.1 entry.2.rx) ∅) := by
  have general (entries : List (Sigma fun _ : UInt8 => DispatcherHandle Channel))
      (first second : HashMap UInt8 Channel) :
      entries.foldl (fun tables entry =>
          (tables.1.insert entry.1 entry.2.tx, tables.2.insert entry.1 entry.2.rx))
          (first, second) =
        (entries.foldl (fun table entry => table.insert entry.1 entry.2.tx) first,
          entries.foldl (fun table entry => table.insert entry.1 entry.2.rx) second) := by
    induction entries generalizing first second with
    | nil => rfl
    | cons entry rest induction => exact induction _ _
  exact general _ _ _

theorem lookup_txs {Channel : Type} (handles : HashMap UInt8 (DispatcherHandle Channel))
    (byte : UInt8) :
    (decomposeDispatchHandles handles).1.lookup byte =
      (handles.lookup byte).map DispatcherHandle.tx := by
  rw [decomposed_tables, lookup_inserted DispatcherHandle.tx handles.nodupKeys, AList.lookup_empty,
    Option.or_none]
  rfl

variable {Uuid Who : Type} (dispatchers : Dispatchers Uuid Who)

theorem lookup_registered (registered : List (Dispatcher Uuid Who)) (byte : UInt8) :
    (registered.foldl registerDispatcher ∅).lookup byte =
      if byte ∈ registered.map Dispatcher.dispatchByte then some ⟨byte, byte⟩ else none := by
  induction registered using List.reverseRecOn with
  | nil => rfl
  | append_singleton registered dispatcher induction =>
      rw [List.foldl_append, List.foldl_cons, List.foldl_nil, registerDispatcher, lookup_insert,
        induction, List.map_append, List.map_singleton]
      by_cases same : byte = dispatcher.dispatchByte
      · simp [same, Dispatcher.getHandle]
      · simp [same]

theorem worker_lookup (byte : UInt8) :
    dispatchers.worker.txs.lookup byte = if byte ∈ dispatchers.bytes then some byte else none := by
  rw [Dispatchers.worker, lookup_txs, Dispatchers.handles, lookup_registered, ← Dispatchers.bytes]
  split_ifs <;> rfl

end Tables

section Routing

variable {Uuid Who : Type} (dispatchers : Dispatchers Uuid Who)

/-- What an event from the transport has for the dispatcher of one byte. -/
def project (byte : UInt8) : Event Bytes → List (Event Bytes)
  | .data (first :: payload) =>
      if first = byte ∧ byte ∈ dispatchers.bytes then [.data payload] else []
  | .connected => if byte ∈ dispatchers.bytes then [.connected] else []
  | .disconnected => if byte ∈ dispatchers.bytes then [.disconnected] else []
  | _ => []

/-- A notice, or data with a byte to dispatch it by. -/
def Dispatchable : Event Bytes → Prop
  | .data data => data ≠ []
  | .connected | .disconnected => True
  | .stop | .error => False

instance : DecidablePred Dispatchable
  | .data data => inferInstanceAs (Decidable (data ≠ []))
  | .connected | .disconnected => .isTrue trivial
  | .stop | .error => .isFalse fun absurd => absurd

theorem project_ne_stop (byte : UInt8) (event : Event Bytes) :
    .stop ∉ project dispatchers byte event := by
  cases event with
  | data data =>
      cases data with
      | nil => simp [project]
      | cons first payload =>
          simp only [project]
          split_ifs <;> simp
  | connected | disconnected =>
      simp only [project]
      split_ifs <;> simp
  | stop | error => simp [project]

theorem notify_addressed (event : Event Bytes) {order : List UInt8}
    (complete : order.Perm dispatchers.worker.txs.keys) (byte : UInt8) :
    addressed byte (dispatchers.worker.notify event order) =
      if byte ∈ dispatchers.bytes then [event] else [] := by
  have distinct : (values dispatchers.worker.txs order).Nodup := by
    apply values_nodup complete
    intro first second channel foundFirst foundSecond
    rw [worker_lookup, Option.ite_none_right_eq_some] at foundFirst foundSecond
    exact Option.some.inj (foundFirst.2.trans foundSecond.2.symm)
  have listed : byte ∈ values dispatchers.worker.txs order ↔ byte ∈ dispatchers.bytes := by
    rw [mem_values complete]
    constructor
    · rintro ⟨key, found⟩
      rw [worker_lookup, Option.ite_none_right_eq_some] at found
      cases found.2
      exact found.1
    · intro member
      exact ⟨byte, by rw [worker_lookup, if_pos member]⟩
  have broadcast := addressed_broadcast distinct event byte
  simp only [listed] at broadcast
  exact broadcast

theorem handle_data_returns (event : Event Bytes) {order : List UInt8}
    (complete : order.Perm dispatchers.worker.txs.keys) (dispatchable : Dispatchable event) :
    ∃ sends, dispatchers.worker.handleData order event = returned sends ∧
      ∀ byte, addressed byte sends = project dispatchers byte event := by
  cases event with
  | data data =>
      cases data with
      | nil => exact absurd rfl dispatchable
      | cons first payload =>
          have rest : sliceFrom (first :: payload) 1 = returned payload := by simp [sliceFrom]
          simp only [TransportWorker.handleData, TransportWorker.send, index_zero_cons,
            returned_bind, worker_lookup, rest, pure_eq]
          by_cases member : first ∈ dispatchers.bytes
          · rw [if_pos member]
            refine ⟨_, rfl, ?_⟩
            intro byte
            by_cases same : first = byte
            · simp [project, addressed, ← same, member]
            · simp [project, addressed, same]
          · rw [if_neg member]
            refine ⟨_, rfl, ?_⟩
            intro byte
            by_cases same : first = byte
            · simp [project, ← same, member]
            · simp [project, same]
  | connected => exact ⟨_, rfl, notify_addressed dispatchers .connected complete⟩
  | disconnected => exact ⟨_, rfl, notify_addressed dispatchers .disconnected complete⟩
  | stop => exact absurd dispatchable id
  | error => exact absurd dispatchable id

/-- Whatever channels a worker has, it returns on what can be dispatched and on nothing else. -/
theorem transport_worker_returns_iff {Channel : Type} (worker : TransportWorker Channel)
    (order : List UInt8) (event : Event Bytes) :
    (worker.handleData order event).Returns ↔ Dispatchable event := by
  cases event with
  | data data =>
      cases data with
      | nil => exact iff_of_false (panicked_not_returns _) fun nonempty => nonempty rfl
      | cons first payload =>
          have rest : sliceFrom (first :: payload) 1 = returned payload := by simp [sliceFrom]
          simp only [TransportWorker.handleData, TransportWorker.send, index_zero_cons,
            returned_bind, rest, pure_eq]
          apply iff_of_true _ (List.cons_ne_nil _ _)
          cases worker.txs.lookup first with
          | none => exact returned_returns _
          | some dispatcher => exact returned_returns _
  | connected | disconnected => exact iff_of_true (returned_returns _) trivial
  | stop | error => exact iff_of_false (panicked_not_returns _) id

theorem handle_data_returns_iff (order : List UInt8) (event : Event Bytes) :
    (dispatchers.worker.handleData order event).Returns ↔ Dispatchable event :=
  transport_worker_returns_iff dispatchers.worker order event

variable {dispatchers} {order : List UInt8} {event : Event Bytes}

theorem handle_data_dispatchable {sends : List (UInt8 × Event Bytes)}
    (handled : dispatchers.worker.handleData order event = returned sends) :
    Dispatchable event :=
  (handle_data_returns_iff dispatchers order event).mp ⟨sends, handled⟩

theorem handle_data_refused {message : String}
    (refused : dispatchers.worker.handleData order event = panicked message) :
    ¬ Dispatchable event := by
  rw [← handle_data_returns_iff dispatchers order event, refused]
  exact panicked_not_returns message

theorem handle_data_routed (complete : order.Perm dispatchers.worker.txs.keys)
    {sends : List (UInt8 × Event Bytes)}
    (handled : dispatchers.worker.handleData order event = returned sends) (byte : UInt8) :
    addressed byte sends = project dispatchers byte event := by
  obtain ⟨others, same, routed⟩ :=
    handle_data_returns dispatchers event complete (handle_data_dispatchable handled)
  rw [handled] at same
  cases same
  exact routed byte

end Routing

end MoteConnection.ConnectionWorkers
