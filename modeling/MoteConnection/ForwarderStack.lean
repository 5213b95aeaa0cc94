import Mathlib.Data.List.Flatten
import MoteConnection.ConnectionDelivery
import MoteConnection.ForwarderSessions
import MoteConnection.UpwardPackets

/-!
# A connection over the serial forwarder

The threads of a connection together with the serial-forwarder transport below
them, over all its streams. The two share a queue and a channel: a
`DispatcherWorker` and the stopper send on the queue that the write thread
takes from, and both threads of the transport send on the channel of the
`TransportWorker`, so that each of these is one step of both.

A thread that sends to a `TransportWorker` that is gone panics. When this is
the read thread, the write thread goes on until it joins it. Connects,
handshakes, reads and writes may fail; shutting a stream down, cloning it and
spawning a thread succeed.
-/

namespace MoteConnection.ForwarderStack

open FanOut LabeledRuns
open MoteConnection.Runtime MoteConnection.ActiveMessages MoteConnection.ActiveMessageRouting
open MoteConnection.ConnectionWorkers MoteConnection.ConnectionThreads MoteConnection.Multiplexing
open MoteConnection.ConnectionDelivery
open MoteConnection.ForwarderTransport (Forwarder serve_queue serve_upward drop_queue drop_upward)
open MoteConnection.ForwarderStream MoteConnection.ForwarderSessions MoteConnection.UpwardPackets
open Outcome

set_option autoImplicit false

/-- The transport has its history with it, which no step looks at. -/
structure Stack (Who : Type) where
  connection : Connection Who
  transport : Books
  readerPanicked : Bool

def Stack.fresh {Who : Type} : Stack Who := ⟨.fresh, .fresh, false⟩

inductive Label (Uuid Who : Type)
  | thread (label : ConnectionThreads.Label Uuid Who)
  | transport (label : ForwarderTransport.Label)
  | joinPanicked
  | enqueue (byte : UInt8)
  | stop
  deriving DecidableEq, Repr

def ofThreads : ForwarderTransport.Label → Bool
  | .userData _ | .userStop => false
  | _ => true

def ofReader : ForwarderTransport.Label → Bool
  | .read _ | .post => true
  | _ => false

def sentUp : ForwarderTransport.Label → Option (Event Bytes)
  | .handshake accepted => some (if accepted then .connected else .disconnected)
  | .announce => some .disconnected
  | .read (some data) => if data.isEmpty then none else some (.data data)
  | _ => none

/-- The head of the queue is taken, and it is not the notice of a `TcpWorker`. -/
def takesUsers (forwarder : Forwarder) : ForwarderTransport.Label → Bool
  | .receive | .drain =>
      match forwarder.queue with
      | (_, none) :: _ => true
      | _ => false
  | _ => false

/-- What the connection does in a step of the transport. -/
def jointly {Uuid Who : Type} (forwarder : Forwarder) (label : ForwarderTransport.Label) :
    Option (ConnectionThreads.Label Uuid Who) :=
  match sentUp label with
  | some event => some (.transportSend event)
  | none => if takesUsers forwarder label then some .transportReceive else none

namespace Stack

variable {Uuid Who : Type} [DecidableEq Uuid] [DecidableEq Who]

/-- The connection sees at once that the write thread is gone. -/
def settle (stack : Stack Who) : Stack Who :=
  match stack.transport.forwarder.position with
  | .finished => { stack with connection := { stack.connection with transport := .ended } }
  | .panicked message =>
      { stack with connection := { stack.connection with transport := .panicked message } }
  | _ => stack

def step (overflowChecks : Bool) (setup : Dispatchers Uuid Who) (stack : Stack Who) :
    Label Uuid Who → Option (Stack Who)
  | .thread label =>
      if separate label then
        (stack.connection.step overflowChecks setup label).map fun next =>
          { stack with connection := next }
      else none
  | .transport label =>
      if stack.connection.transport = .running ∧ ofThreads label ∧
          ¬ (stack.readerPanicked ∧ ofReader label) then do
        let transport ← stack.transport.step label
        match jointly stack.transport.forwarder label with
        | none => return settle { stack with transport := transport }
        | some own =>
            let connection ← stack.connection.step overflowChecks setup own
            -- Without its receiver the send panics, and its thread goes no further.
            if connection.transport = .running then
              return settle { stack with connection := connection, transport := transport }
            else if ofReader label then return { stack with readerPanicked := true }
            else return { stack with connection := connection }
      else none
  | .joinPanicked =>
      let forwarder := stack.transport.forwarder
      if stack.connection.transport = .running ∧ stack.readerPanicked ∧
          forwarder.position = .joining then
        some (settle { stack with transport := { stack.transport with
          forwarder := { forwarder with position := .panicked joinFailed } } })
      else none
  | .enqueue byte => do
      let connection ← stack.connection.step overflowChecks setup (.dispatcherSend byte)
      match stack.connection.transport, stack.connection.hands byte with
      | .running, some (.data packet) =>
          let transport ← stack.transport.step (.userData packet)
          return { stack with connection := connection, transport := transport }
      | _, _ => return { stack with connection := connection }
  | .stop => do
      let connection ← stack.connection.step overflowChecks setup .stop
      let transport ← stack.transport.step .userStop
      return { stack with connection := connection, transport := transport }

end Stack

section Transport

variable {forwarder next : Forwarder} {label : ForwarderTransport.Label}

def ofUsers (queue : List (Event Bytes × Option Nat)) : List (Event Bytes) :=
  queue.filterMap fun entry => if entry.2 = none then some entry.1 else none

theorem of_users_append (first second : List (Event Bytes × Option Nat)) :
    ofUsers (first ++ second) = ofUsers first ++ ofUsers second := List.filterMap_append

theorem upward_of_step (taken : forwarder.step label = some next) (threads : ofThreads label) :
    next.upward = forwarder.upward ++ (sentUp label).toList := by
  cases ForwarderTransport.moved_of_step taken with
  | userData data => cases threads
  | userStop => cases threads
  | established place => rfl
  | handshakeFails place => rfl
  | announce place => rfl
  | read data reading =>
      simp only [sentUp]
      split_ifs <;> rfl
  | receive event poster rest place queue =>
      rw [serve_upward]
      exact (List.append_nil _).symm
  | drain event poster rest place queue =>
      rw [drop_upward]
      exact (List.append_nil _).symm
  | connected | connectFails | written | writeFails | shutdown | finish | join | timeUp
  | readFails | post =>
      exact (List.append_nil _).symm

theorem of_users_of_step (taken : forwarder.step label = some next) (threads : ofThreads label) :
    ofUsers next.queue =
      if takesUsers forwarder label then (ofUsers forwarder.queue).tail
      else ofUsers forwarder.queue := by
  cases ForwarderTransport.moved_of_step taken with
  | userData data => cases threads
  | userStop => cases threads
  | receive event poster rest place queue =>
      rw [serve_queue]
      simp only [takesUsers, queue]
      cases poster <;> rfl
  | drain event poster rest place queue =>
      rw [drop_queue]
      simp only [takesUsers, queue]
      cases poster <;> rfl
  | post posting =>
      rw [of_users_append]
      exact List.append_nil _
  | connected | connectFails | established | handshakeFails | written | writeFails | shutdown
  | announce | finish | join | timeUp | read | readFails => rfl

theorem enqueued_of_step {books after : Books} (taken : books.step label = some after)
    (threads : ofThreads label) : after.enqueued = books.enqueued := by
  obtain ⟨forwarder, moved, rfl⟩ := Option.map_eq_some_iff.mp taken
  cases label with
  | userData data => cases threads
  | userStop => cases threads
  | _ => rfl

end Transport

section Invariant

variable {Uuid Who : Type} [DecidableEq Uuid] [DecidableEq Who] {overflowChecks : Bool}
  {setup : Dispatchers Uuid Who} {stack next : Stack Who} {history : History}
  {connection : Connection Who}

/-- Each of the two has the other's side of what they share. -/
structure StackInv (overflowChecks : Bool) (setup : Dispatchers Uuid Who) (stack : Stack Who)
    (history : History) : Prop where
  kept : Kept stack.transport
  upward : Upward setup stack.connection history
  downward : Downward stack.connection history
  received : ∀ (ids : Who → Uuid) (registrations : List (Registration Who))
    (registry : ReceiverRegistry Uuid Who) (users : Who → AMReceiver Uuid Who) (addr : UInt16)
    (group : Option UInt8), Consistent ids registrations registry users →
      setup.am = some ⟨addr, group, registry⟩ →
      Received overflowChecks registrations addr group stack.connection history
  offered : history.offered = stack.transport.forwarder.upward
  enqueued : stack.transport.enqueued =
    dataOf (history.passed ++ stack.connection.toTransport)
  queue : stack.connection.toTransport = ofUsers stack.transport.forwarder.queue

theorem stack_inv_fresh : StackInv overflowChecks setup .fresh .empty where
  kept := kept_fresh
  upward := upward_fresh
  downward := downward_fresh
  received := fun _ _ _ _ _ _ _ _ => received_fresh
  offered := rfl
  enqueued := rfl
  queue := rfl

theorem StackInv.moved (inv : StackInv overflowChecks setup stack history)
    {label : ConnectionThreads.Label Uuid Who}
    (taken : stack.connection.step overflowChecks setup label = some connection)
    {transport : Books} (kept : Kept transport)
    (offered : (record history stack.connection label).offered = transport.forwarder.upward)
    (enqueued : transport.enqueued =
      dataOf ((record history stack.connection label).passed ++ connection.toTransport))
    (queue : connection.toTransport = ofUsers transport.forwarder.queue) {panicked : Bool} :
    StackInv overflowChecks setup ⟨connection, transport, panicked⟩
      (record history stack.connection label) where
  kept := kept
  upward := upward_step taken inv.upward
  downward := downward_step taken inv.downward
  received ids registrations registry users addr group consistent serves :=
    received_step consistent serves taken
      (inv.received ids registrations registry users addr group consistent serves)
  offered := offered
  enqueued := enqueued
  queue := queue

/-- No invariant looks at whether the transport runs. -/
theorem StackInv.settle (inv : StackInv overflowChecks setup stack history) :
    StackInv overflowChecks setup stack.settle history := by
  have any (life : Life) : StackInv overflowChecks setup
      { stack with connection := { stack.connection with transport := life } } history :=
    ⟨inv.kept, ⟨inv.upward.queue, inv.upward.routed⟩,
      ⟨inv.downward.carries, inv.downward.prefixed, inv.downward.queued⟩,
      fun ids registrations registry users addr group consistent serves =>
        let received :=
          inv.received ids registrations registry users addr group consistent serves
        ⟨received.queue, received.routed⟩,
      inv.offered, inv.enqueued, inv.queue⟩
  unfold Stack.settle
  split
  · exact any _
  · exact any _
  · exact inv

theorem to_transport_kept {label : ConnectionThreads.Label Uuid Who}
    (taken : stack.connection.step overflowChecks setup label = some connection)
    (apart : separate label) :
    connection.toTransport = stack.connection.toTransport ∧
      (record history stack.connection label).offered = history.offered ∧
      (record history stack.connection label).passed = history.passed := by
  cases ConnectionThreads.moved_of_step taken with
  | transportSend | transportFails | transportReceive | transportPanic | dispatcherSend
  | dispatcherFails | stop | transportEnd => cases apart
  | _ => exact ⟨rfl, rfl, rfl⟩

theorem stack_inv_thread (inv : StackInv overflowChecks setup stack history)
    {label : ConnectionThreads.Label Uuid Who}
    (taken : stack.step overflowChecks setup (.thread label) = some next) :
    ∃ after, StackInv overflowChecks setup next after := by
  simp only [Stack.step] at taken
  split_ifs at taken with apart
  obtain ⟨connection, moved, rfl⟩ := Option.map_eq_some_iff.mp taken
  obtain ⟨sameQueue, sameOffered, samePassed⟩ := to_transport_kept moved apart
  refine ⟨_, inv.moved moved inv.kept ?_ ?_ ?_⟩
  · rw [sameOffered, inv.offered]
  · rw [samePassed, sameQueue, inv.enqueued]
  · rw [sameQueue, inv.queue]

theorem stack_inv_enqueue (inv : StackInv overflowChecks setup stack history) {byte : UInt8}
    (taken : stack.step overflowChecks setup (.enqueue byte) = some next) :
    ∃ after, StackInv overflowChecks setup next after := by
  obtain ⟨connection, moved, turn⟩ := Option.bind_eq_some_iff.mp taken
  split at turn
  · rename_i packet running hand
    obtain ⟨books, followed, same⟩ := Option.bind_eq_some_iff.mp turn
    cases same
    have kept := kept_step inv.kept followed
    obtain ⟨forwarder, accepted, rfl⟩ := Option.map_eq_some_iff.mp followed
    cases accepted
    cases ConnectionThreads.moved_of_step moved with
    | dispatcherFails _ other runs full gone => exact absurd running gone
    | dispatcherSend _ other runs full transport =>
        cases full.symm.trans hand
        refine ⟨_, inv.moved moved kept inv.offered ?_ ?_⟩
        · show stack.transport.enqueued ++ [packet] = _
          rw [inv.enqueued, ← List.append_assoc, data_of_append _ [.data packet]]
          rfl
        · show stack.connection.toTransport ++ [.data packet] =
            ofUsers (stack.transport.forwarder.queue ++ [(.data packet, none)])
          rw [inv.queue, of_users_append]
          rfl
  · rename_i other
    cases turn
    cases ConnectionThreads.moved_of_step moved with
    | dispatcherFails _ packet runs full gone =>
        exact ⟨_, inv.moved moved inv.kept inv.offered inv.enqueued inv.queue⟩
    | dispatcherSend _ packet runs full transport =>
        obtain ⟨payload, rfl⟩ := inv.downward.prefixed byte packet full
        exact (other _ transport full).elim

theorem stack_inv_stop (inv : StackInv overflowChecks setup stack history)
    (taken : stack.step overflowChecks setup .stop = some next) :
    ∃ after, StackInv overflowChecks setup next after := by
  obtain ⟨connection, moved, turn⟩ := Option.bind_eq_some_iff.mp taken
  obtain ⟨books, followed, same⟩ := Option.bind_eq_some_iff.mp turn
  cases same
  have kept := kept_step inv.kept followed
  obtain ⟨forwarder, accepted, rfl⟩ := Option.map_eq_some_iff.mp followed
  cases ConnectionThreads.moved_of_step moved with
  | stop phase =>
      cases ForwarderTransport.moved_of_step accepted with
      | userStop =>
          refine ⟨_, inv.moved moved kept inv.offered ?_ ?_⟩
          · show stack.transport.enqueued = _
            rw [inv.enqueued, ← List.append_assoc, data_of_append _ [.stop]]
            exact (List.append_nil _).symm
          · show stack.connection.toTransport ++ [.stop] =
              ofUsers (stack.transport.forwarder.queue ++ [(.stop, none)])
            rw [inv.queue, of_users_append]
            rfl

/-- A step of the transport's threads: alone, with the connection, or against a connection whose
`TransportWorker` is gone. -/
theorem transport_cases {label : ForwarderTransport.Label}
    (taken : stack.step overflowChecks setup (.transport label) = some next) :
    stack.connection.transport = .running ∧
    ∃ transport, stack.transport.step label = some transport ∧ ofThreads label ∧
      ((@jointly Uuid Who stack.transport.forwarder label = none ∧
          next = Stack.settle { stack with transport := transport }) ∨
        ∃ own connection, jointly stack.transport.forwarder label = some own ∧
          stack.connection.step overflowChecks setup own = some connection ∧
          ((connection.transport = .running ∧ next = Stack.settle
              { stack with connection := connection, transport := transport }) ∨
            (connection.transport ≠ .running ∧
              (next = { stack with readerPanicked := true } ∨
                next = { stack with connection := connection })))) := by
  simp only [Stack.step] at taken
  split at taken
  case isFalse disabled => cases taken
  rename_i enabled
  obtain ⟨transport, followed, turn⟩ := Option.bind_eq_some_iff.mp taken
  refine ⟨enabled.1, transport, followed, enabled.2.1, ?_⟩
  cases joint : @jointly Uuid Who stack.transport.forwarder label with
  | none =>
      rw [joint] at turn
      cases turn
      exact .inl ⟨rfl, rfl⟩
  | some own =>
      rw [joint] at turn
      obtain ⟨connection, moved, rest⟩ := Option.bind_eq_some_iff.mp turn
      refine .inr ⟨own, connection, rfl, moved, ?_⟩
      split_ifs at rest with runs reader
      · cases rest
        exact .inl ⟨runs, rfl⟩
      · cases rest
        exact .inr ⟨runs, .inl rfl⟩
      · cases rest
        exact .inr ⟨runs, .inr rfl⟩

theorem stack_inv_send_up (inv : StackInv overflowChecks setup stack history)
    (alive : stack.connection.transport = .running) {event : Event Bytes}
    (moved : stack.connection.step overflowChecks setup (.transportSend event) = some connection)
    {transport : Books} (kept : Kept transport)
    (upward : transport.forwarder.upward = stack.transport.forwarder.upward ++ [event])
    (queue : ofUsers transport.forwarder.queue = ofUsers stack.transport.forwarder.queue)
    (enqueued : transport.enqueued = stack.transport.enqueued)
    (rest : (connection.transport = .running ∧ next = Stack.settle
        { stack with connection := connection, transport := transport }) ∨
      (connection.transport ≠ .running ∧ (next = { stack with readerPanicked := true } ∨
        next = { stack with connection := connection }))) :
    ∃ after, StackInv overflowChecks setup next after := by
  cases ConnectionThreads.moved_of_step moved with
  | transportFails _ running gone =>
      obtain ⟨runs, _⟩ | ⟨_, rfl | rfl⟩ := rest
      · cases runs
      · exact ⟨history, { inv with }⟩
      · refine ⟨_, inv.moved moved inv.kept ?_ ?_ inv.queue⟩
        · simp only [record, if_neg gone]
          exact inv.offered
        · simp only [record, if_neg gone]
          exact inv.enqueued
  | transportSend _ unended runs =>
      obtain ⟨_, rfl⟩ | ⟨stopped, _⟩ := rest
      · refine ⟨_, (inv.moved moved kept ?_ ?_ ?_).settle⟩
        · simp only [record, if_pos runs]
          rw [upward, inv.offered]
        · simp only [record, if_pos runs]
          rw [enqueued, inv.enqueued]
        · exact inv.queue.trans queue.symm
      · exact absurd alive stopped

theorem stack_inv_take (inv : StackInv overflowChecks setup stack history)
    (moved : stack.connection.step overflowChecks setup .transportReceive = some connection)
    {transport : Books} (kept : Kept transport)
    (upward : transport.forwarder.upward = stack.transport.forwarder.upward)
    (queue : ofUsers transport.forwarder.queue = (ofUsers stack.transport.forwarder.queue).tail)
    (enqueued : transport.enqueued = stack.transport.enqueued) :
    ∃ after, StackInv overflowChecks setup
      (Stack.settle { stack with connection := connection, transport := transport }) after := by
  cases ConnectionThreads.moved_of_step moved with
  | transportReceive event others running waiting =>
      refine ⟨_, (inv.moved moved kept ?_ ?_ ?_).settle⟩
      · rw [upward]
        exact inv.offered
      · rw [enqueued, inv.enqueued, waiting]
        simp only [record, waiting, List.take_succ_cons, List.take_zero, List.append_assoc,
          List.singleton_append]
      · rw [queue, ← inv.queue, waiting]
        rfl

theorem stack_inv_transport (inv : StackInv overflowChecks setup stack history)
    {label : ForwarderTransport.Label}
    (taken : stack.step overflowChecks setup (.transport label) = some next) :
    ∃ after, StackInv overflowChecks setup next after := by
  obtain ⟨alive, transport, followed, threads, turn⟩ := transport_cases taken
  have kept := kept_step inv.kept followed
  have stepped := forwarder_of_step followed
  have upward := upward_of_step stepped threads
  have queue := of_users_of_step stepped threads
  have enqueued := enqueued_of_step followed threads
  unfold jointly at turn
  cases sends : sentUp label with
  | some event =>
      have silent : takesUsers stack.transport.forwarder label = false := by
        cases label <;> first | rfl | cases sends
      simp only [sends, silent, Option.toList_some] at upward queue turn
      obtain ⟨unsent, _⟩ | ⟨own, connection, sending, moved, rest⟩ := turn
      · cases unsent
      · cases sending
        exact stack_inv_send_up inv alive moved kept upward queue enqueued rest
  | none =>
      simp only [sends, Option.toList_none, List.append_nil] at upward turn
      by_cases takes : takesUsers stack.transport.forwarder label = true
      · simp only [if_pos takes] at queue turn
        obtain ⟨untaken, _⟩ | ⟨own, connection, taking, moved, rest⟩ := turn
        · cases untaken
        · cases taking
          obtain ⟨_, rfl⟩ | ⟨stopped, _⟩ := rest
          · exact stack_inv_take inv moved kept upward queue enqueued
          · cases ConnectionThreads.moved_of_step moved with
            | transportReceive event others running waiting => exact absurd running stopped
      · simp only [if_neg takes] at queue turn
        obtain ⟨_, rfl⟩ | ⟨own, connection, taking, _⟩ := turn
        · refine ⟨history, StackInv.settle
            ⟨kept, inv.upward, inv.downward, inv.received, ?_, ?_, ?_⟩⟩
          · rw [upward]
            exact inv.offered
          · rw [enqueued]
            exact inv.enqueued
          · rw [queue]
            exact inv.queue
        · cases taking

theorem stack_inv_join_panicked (inv : StackInv overflowChecks setup stack history)
    (taken : stack.step overflowChecks setup .joinPanicked = some next) :
    ∃ after, StackInv overflowChecks setup next after := by
  simp only [Stack.step] at taken
  split_ifs at taken
  cases taken
  refine ⟨history, StackInv.settle { inv with kept := ?_ }⟩
  exact inv.kept.passed rfl rfl trivial

theorem stack_inv_step (inv : StackInv overflowChecks setup stack history)
    {label : Label Uuid Who} (taken : stack.step overflowChecks setup label = some next) :
    ∃ after, StackInv overflowChecks setup next after := by
  cases label with
  | thread label => exact stack_inv_thread inv taken
  | transport label => exact stack_inv_transport inv taken
  | joinPanicked => exact stack_inv_join_panicked inv taken
  | enqueue byte => exact stack_inv_enqueue inv taken
  | stop => exact stack_inv_stop inv taken

/-- The `TransportWorker` refuses nothing that the transport sends up. -/
structure Dispatching (stack : Stack Who) : Prop where
  dispatchable : ForwarderDispatchable stack.transport.forwarder
  fails : ∀ message, stack.connection.worker.life = .panicked message →
    stack.connection.worker.life = unwrapFailed

omit [DecidableEq Who] in
theorem dispatching_fresh : Dispatching (.fresh : Stack Who) where
  dispatchable := by
    intro event member
    cases member
  fails := by
    intro message same
    cases same

theorem worker_fails_step {label : ConnectionThreads.Label Uuid Who} {before after : Connection Who}
    (waiting : ∀ event ∈ before.fromTransport, Dispatchable event)
    (fails : ∀ message, before.worker.life = .panicked message →
      before.worker.life = unwrapFailed)
    (taken : before.step overflowChecks setup label = some after) :
    ∀ message, after.worker.life = .panicked message → after.worker.life = unwrapFailed := by
  cases ConnectionThreads.moved_of_step taken with
  | workerRefuses order event rest message idle queue complete refused =>
      exact absurd (waiting event (of_tail queue).1) (handle_data_refused refused)
  | workerFails => exact fun _ _ => rfl
  | workerReceive | workerSend | workerHangUp | workerStop =>
      intro message same
      cases same
  | _ => exact fails

theorem Dispatching.moved (inv : StackInv overflowChecks setup stack history)
    (dispatching : Dispatching stack) {label : ConnectionThreads.Label Uuid Who}
    (taken : stack.connection.step overflowChecks setup label = some connection)
    {transport : Books} (dispatchable : ForwarderDispatchable transport.forwarder)
    {panicked : Bool} : Dispatching ⟨connection, transport, panicked⟩ where
  dispatchable := dispatchable
  fails := by
    apply worker_fails_step _ dispatching.fails taken
    intro event member
    apply dispatching.dispatchable
    rw [← inv.offered, ← inv.upward.queue]
    exact List.mem_append_right _ member

omit [DecidableEq Who] in
theorem Dispatching.settle (dispatching : Dispatching stack) : Dispatching stack.settle := by
  unfold Stack.settle
  split
  · exact ⟨dispatching.dispatchable, dispatching.fails⟩
  · exact ⟨dispatching.dispatchable, dispatching.fails⟩
  · exact dispatching

theorem dispatching_step (inv : StackInv overflowChecks setup stack history)
    (dispatching : Dispatching stack) {label : Label Uuid Who}
    (taken : stack.step overflowChecks setup label = some next) : Dispatching next := by
  have onward {own : ForwarderTransport.Label} {transport : Books}
      (followed : stack.transport.step own = some transport) :
      ForwarderDispatchable transport.forwarder :=
    forwarder_dispatchable_step _ _ _ dispatching.dispatchable (forwarder_of_step followed)
  cases label with
  | thread own =>
      simp only [Stack.step] at taken
      split_ifs at taken
      obtain ⟨connection, moved, rfl⟩ := Option.map_eq_some_iff.mp taken
      exact dispatching.moved inv moved dispatching.dispatchable
  | transport own =>
      obtain ⟨_, transport, followed, _, turn⟩ := transport_cases taken
      rcases turn with ⟨_, rfl⟩ | ⟨_, connection, _, moved, rest⟩
      · exact Dispatching.settle ⟨onward followed, dispatching.fails⟩
      · rcases rest with ⟨_, rfl⟩ | ⟨_, rfl | rfl⟩
        · exact (dispatching.moved inv moved (onward followed)).settle
        · exact ⟨dispatching.dispatchable, dispatching.fails⟩
        · exact dispatching.moved inv moved dispatching.dispatchable
  | joinPanicked =>
      simp only [Stack.step] at taken
      split_ifs at taken
      cases taken
      exact Dispatching.settle ⟨dispatching.dispatchable, dispatching.fails⟩
  | enqueue byte =>
      obtain ⟨connection, moved, turn⟩ := Option.bind_eq_some_iff.mp taken
      split at turn
      · obtain ⟨transport, followed, same⟩ := Option.bind_eq_some_iff.mp turn
        cases same
        exact dispatching.moved inv moved (onward followed)
      · cases turn
        exact dispatching.moved inv moved dispatching.dispatchable
  | stop =>
      obtain ⟨connection, moved, turn⟩ := Option.bind_eq_some_iff.mp taken
      obtain ⟨transport, followed, same⟩ := Option.bind_eq_some_iff.mp turn
      cases same
      exact dispatching.moved inv moved (onward followed)

end Invariant

section Delivery

variable {Uuid Who : Type} [DecidableEq Uuid] [DecidableEq Who] {overflowChecks : Bool}
  {setup : Dispatchers Uuid Who} {stack : Stack Who} {history : History}

def payloadsFor (byte : UInt8) (packets : List Bytes) : List Bytes :=
  packets.flatMap fun packet => carried byte (.data packet)

theorem payloads_for_data (byte : UInt8) (events : List (Event Bytes)) :
    payloadsFor byte (dataOf events) = events.flatMap (carried byte) := by
  induction events with
  | nil => rfl
  | cons event rest induction =>
      rw [List.flatMap_cons, ← induction]
      cases event <;> rfl

theorem StackInv.sent (inv : StackInv overflowChecks setup stack history) (byte : UInt8) :
    payloadsFor byte stack.transport.enqueued <+: stack.connection.sent byte := by
  rw [inv.enqueued, payloads_for_data]
  exact (inv.downward.carries byte).got_beginning

/-- In every run of a connection over the serial forwarder, over any number of streams, with
connects, handshakes, reads and writes that fail, threads that panic and consumers that are dropped:
what the peers hear for a byte, one after another, users have sent for it, in this order and at most
once. While a peer is served and nothing is left on the way, it has heard all that was sent since
its stream was opened, but for what is too long for a frame. What a dispatcher or a receiver gets
are the first of the events that came from the streams for it, and none of these makes the
`TransportWorker` panic, unless it sends on what nobody receives any more. -/
theorem forwarder_stack_delivers (overflowChecks : Bool) (setup : Dispatchers Uuid Who)
    (labels : List (Label Uuid Who)) (stack : Stack Who)
    (reached : run (Stack.step overflowChecks setup) .fresh labels = some stack) :
    (∀ byte, (payloadsFor byte ((stack.transport.streams ++
        [stack.transport.forwarder.stream]).flatMap heard)).Sublist (stack.connection.sent byte)) ∧
    (∀ byte, stack.transport.forwarder.position = .serving →
      stack.transport.forwarder.queue = [] → Life.Intact (stack.connection.dispatchers byte) →
      stack.connection.hands byte = none → stack.connection.downward byte = [] →
        stack.connection.sent byte =
          payloadsFor byte stack.transport.before ++ payloadsFor byte stack.transport.taken ∧
        heard stack.transport.forwarder.stream = audible stack.transport.taken) ∧
    (∀ byte, stack.connection.upward byte <+:
      stack.transport.forwarder.upward.flatMap (project setup byte)) ∧
    (∀ message, stack.connection.worker.life = .panicked message →
      stack.connection.worker.life = unwrapFailed) ∧
    ∀ (ids : Who → Uuid) (registrations : List (Registration Who))
      (registry : ReceiverRegistry Uuid Who) (users : Who → AMReceiver Uuid Who)
      (addr : UInt16) (group : Option UInt8), Function.Injective ids →
      registerAll ids registrations = returned (registry, users) →
      setup.am = some ⟨addr, group, registry⟩ → ∀ who,
        stack.connection.received who <+: stack.transport.forwarder.upward.flatMap
          (handed overflowChecks setup registrations addr group who) := by
  have preserved (stack : Stack Who) (label : Label Uuid Who) (next : Stack Who)
      (before : Dispatching stack ∧ ∃ history, StackInv overflowChecks setup stack history)
      (taken : stack.step overflowChecks setup label = some next) :
      Dispatching next ∧ ∃ history, StackInv overflowChecks setup next history := by
    obtain ⟨dispatching, history, inv⟩ := before
    exact ⟨dispatching_step inv dispatching taken, stack_inv_step inv taken⟩
  obtain ⟨dispatching, history, inv⟩ :=
    invariant_of_run preserved ⟨dispatching_fresh, _, stack_inv_fresh⟩ reached
  refine ⟨?_, ?_, ?_, dispatching.fails, ?_⟩
  · intro byte
    exact (inv.kept.heard.flatMap _).trans (inv.sent byte).sublist
  · intro byte place empty intact free idle
    obtain ⟨nothing, _, hears⟩ := inv.kept.while_serving place
    refine ⟨?_, hears⟩
    have carries := inv.downward.carries byte
    rw [free, idle] at carries
    have queue := inv.kept.queue
    rw [nothing, empty] at queue
    rw [← carries.got_of_empty intact, ← payloads_for_data, ← inv.enqueued, queue]
    simp [payloadsFor, queuedData, dataOf]
  · intro byte
    rw [← inv.offered]
    exact inv.upward.upward_beginning byte
  · intro ids registrations registry users addr group distinct registered serves who
    obtain ⟨_, _, same, consistent⟩ := register_all_returns distinct registrations
    cases registered.symm.trans same
    rw [← inv.offered]
    exact (inv.received ids registrations registry users addr group consistent
      serves).received_beginning inv.upward

end Delivery

def packetAndMessage : List (Label Nat Nat) :=
  [.transport (.connect true), .transport (.handshake true), .thread (.userData 5 [0x0A]),
    .thread (.dispatcherReceive 5), .enqueue 5, .transport .receive, .transport (.write none),
    .transport (.read (some [0x00, 0xFF, 0xFF, 0, 1, 0, 0x22, 6])),
    .thread (.workerReceive [0, 5]), .thread .workerSend, .thread .workerSend,
    .thread (.workerReceive [0, 5]), .thread .workerSend, .thread (.amReceive [0]),
    .thread .amSend, .thread (.amReceive [0]), .thread .amSend, .thread (.userData 5 [0x0B]),
    .thread (.dispatcherReceive 5), .enqueue 5, .transport .receive, .transport (.write (some 1))]

theorem packet_and_message_delivered :
    ∃ stack, run (Stack.step true lonelySetup) .fresh packetAndMessage = some stack ∧
      (payloadsFor 5 ((stack.transport.streams ++
        [stack.transport.forwarder.stream]).flatMap heard)).Sublist (stack.connection.sent 5) ∧
      stack.connection.received 0 <+: stack.transport.forwarder.upward.flatMap
        (handed true lonelySetup [⟨.receiver, none, 0⟩] 0x0001 (some 0x22) 0) := by
  have enabled : (run (Stack.step true lonelySetup) .fresh packetAndMessage).isSome = true := by
    decide +kernel
  obtain ⟨stack, reached⟩ := Option.isSome_iff_exists.mp enabled
  obtain ⟨hear, _, _, _, received⟩ :=
    forwarder_stack_delivers true lonelySetup packetAndMessage stack reached
  have distinct : Function.Injective (fun who : Nat => who) := fun _ _ same => same
  have handedOn := received (fun who => who) [⟨.receiver, none, 0⟩] lonelyRegistry
    (Function.update (fun who => AMReceiver.new who who) 0 ⟨0, none⟩) 0x0001 (some 0x22) distinct
    rfl rfl 0
  exact ⟨stack, reached, hear 5, handedOn⟩

end MoteConnection.ForwarderStack
