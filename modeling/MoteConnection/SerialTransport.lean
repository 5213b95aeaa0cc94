import MoteConnection.Library.LabeledRuns
import MoteConnection.SerialLineNoise
import MoteConnection.SerialSending

/-!
# The serial transport

The write thread that `SerialBuilder::start` spawns, with its reconnect loop,
its `ConnectionWorker` and the read thread of the session it is in. The write
thread tells the read thread to end through a channel that the read thread
drops when it ends by itself.

Setting the timeout of a port, cloning it and spawning a thread succeed, and
the receivers of the events that go upward are alive. The write thread keeps a
sender of its own queue, so the queue is never closed. What a failing write
leaves on the port is not recorded.
-/

namespace MoteConnection.SerialTransport

open LabeledRuns
open MoteConnection.Runtime MoteConnection.SerialReceiving MoteConnection.SerialLineNoise
open MoteConnection.SerialSending (ConnectionWorker Action writeToStream)
open Outcome

set_option autoImplicit false

/-- Where the write thread stands; in `serving` its `ConnectionWorker` has a place of its own. -/
inductive Position
  | connecting
  | serving
  | signalling
  | announcing
  | joining
  | draining
  | finished
  | panicked (message : String)
  deriving DecidableEq, Repr

/-- The read thread that the write thread has still to join. Between a read and the look at the
stop channel it has packets to handle, and accesses left of the packet in hand. -/
inductive Reader
  | absent
  | reading
  | handling (packets : List Bytes) (accesses : List SharedAccess)
  | ended
  | panicked (message : String)
  deriving DecidableEq, Repr

/-- `worker` and `serialWorker` are those of the last session, and `port` what was written to its
port; `stopSignal` lies in the read thread's stop channel. `upward` is what was sent on `tx`. -/
structure Transport where
  position : Position
  stop : Bool
  worker : ConnectionWorker
  reader : Reader
  serialWorker : SerialWorker
  stopSignal : Bool
  queue : List (Event Bytes)
  upward : List (Event Bytes)
  port : Bytes
  stopSent : Bool

def Transport.fresh : Transport :=
  ⟨.connecting, false, .new, .absent, .new, false, [], [], [], false⟩

inductive Label
  | userData (data : Bytes)
  | userStop
  | openPort (opened : Bool)
  | receive
  | work (action : Action)
  | signal
  | announce
  | join
  | drain
  | timeUp
  | read (result : PortRead)
  | handle (now : Instant)
  | access
  | check

def fitsBuffer : PortRead → Bool
  | .received bytes => decide (bytes.length ≤ 255)
  | _ => true

namespace Transport

/-- The worker goes on, or `ConnectionWorker::start` returns or panics. -/
def continueWith (transport : Transport) (worker : ConnectionWorker) : Transport :=
  match worker.position with
  | .stopped => { transport with worker := worker, stop := true, position := .signalling }
  | .panicked message => { transport with worker := worker, position := .panicked message }
  | _ => { transport with worker := worker }

/-- A receive is a label of its own, and `recv_timeout` only fails on an empty queue. -/
def enabled (transport : Transport) : Action → Bool
  | .receive _ => false
  | .hangUp => false
  | .timeout => transport.queue.isEmpty
  | _ => true

def frameOf (worker : ConnectionWorker) (action : Action) : Bytes :=
  match worker.position, action with
  | .writing data, .write true => writeToStream data
  | .resending (data :: _), .write true => writeToStream data
  | _, _ => []

/-- What the loop between two sessions does with an event. -/
def drop (transport : Transport) (event : Event Bytes) : Transport :=
  match event with
  | .stop => { transport with stop := true, position := .finished }
  | .data _ => transport
  | other => { transport with position := .panicked s!"Unknown message! {other.debugName}" }

/-- The write thread has ended by a panic, and dropped the receiver of its queue. -/
def hungUp (transport : Transport) : Bool :=
  match transport.position with
  | .panicked _ => true
  | _ => false

def perform (transport : Transport) (access : SharedAccess) : Transport :=
  match access with
  | .sendLoopback event =>
      if transport.hungUp then { transport with reader := .panicked sendFailed }
      else { transport with queue := transport.queue ++ [event] }
  | .sendTx event => { transport with upward := transport.upward ++ [event] }
  | .removeUnacked seqNum =>
      { transport with
        worker := { transport.worker with
          waitingForAck := removeUnacked transport.worker.waitingForAck seqNum } }

/-- `read_stop_tx.send(()).unwrap()` -/
def signalReader (transport : Transport) : Transport :=
  match transport.reader with
  | .ended | .panicked _ => { transport with position := .panicked sendFailed }
  | _ => { transport with stopSignal := true, position := .announcing }

def step (transport : Transport) (label : Label) : Option Transport :=
  match label with
  | .userData data => some { transport with queue := transport.queue ++ [.data data] }
  | .userStop =>
      if transport.stopSent then none
      else some { transport with queue := transport.queue ++ [.stop], stopSent := true }
  | .openPort opened =>
      if transport.position = .connecting then
        if opened then
          some { transport with
            position := .serving
            worker := .new
            reader := .reading
            serialWorker := .new
            stopSignal := false
            upward := transport.upward ++ [.connected]
            port := [] }
        else some { transport with position := .draining }
      else none
  | .receive =>
      match transport.position, transport.queue with
      | .serving, event :: rest =>
          (SerialSending.step transport.worker (.receive event)).map fun worker =>
            { transport with queue := rest }.continueWith worker
      | _, _ => none
  | .work action =>
      if transport.position = .serving ∧ transport.enabled action then
        (SerialSending.step transport.worker action).map fun worker =>
          { transport with
            port := transport.port ++ frameOf transport.worker action }.continueWith worker
      else none
  | .signal =>
      if transport.position = .signalling then some transport.signalReader
      else none
  | .announce =>
      if transport.position = .announcing then
        some { transport with
          position := .joining
          upward := transport.upward ++ [.disconnected] }
      else none
  | .join =>
      match transport.position, transport.reader with
      | .joining, .ended =>
          some { transport with
            position := if transport.stop then .finished else .draining
            reader := .absent }
      | .joining, .panicked _ => some { transport with position := .panicked joinFailed }
      | _, _ => none
  | .drain =>
      match transport.position, transport.queue with
      | .draining, event :: rest => some ({ transport with queue := rest }.drop event)
      | _, _ => none
  | .timeUp =>
      if transport.position = .draining then some { transport with position := .connecting }
      else none
  | .read result =>
      if transport.reader = .reading ∧ fitsBuffer result then
        match readFromStream transport.serialWorker result with
        | (serialWorker, .ok packets) =>
            some { transport with
              serialWorker := serialWorker
              reader := .handling packets [] }
        | (serialWorker, .error ()) =>
            some { transport with serialWorker := serialWorker, reader := .ended }
      else none
  | .handle now =>
      match transport.reader with
      | .handling (data :: rest) [] =>
          match transport.serialWorker.handleData now data with
          | returned (serialWorker, accesses) =>
              some { transport with
                serialWorker := serialWorker
                reader := .handling rest accesses }
          | panicked message => some { transport with reader := .panicked message }
      | _ => none
  | .access =>
      match transport.reader with
      | .handling packets (access :: rest) =>
          some ({ transport with reader := .handling packets rest }.perform access)
      | _ => none
  | .check =>
      match transport.reader with
      | .handling [] [] =>
          if transport.stopSignal then
            some { transport with stopSignal := false, reader := .ended }
          else some { transport with reader := .reading }
      | _ => none

end Transport

section Frame

variable (transport : Transport) (worker : ConnectionWorker) (event : Event Bytes)

@[simp] theorem continue_queue : (transport.continueWith worker).queue = transport.queue := by
  unfold Transport.continueWith
  split <;> rfl

@[simp] theorem continue_upward : (transport.continueWith worker).upward = transport.upward := by
  unfold Transport.continueWith
  split <;> rfl

@[simp] theorem continue_reader : (transport.continueWith worker).reader = transport.reader := by
  unfold Transport.continueWith
  split <;> rfl

@[simp] theorem continue_stop_signal :
    (transport.continueWith worker).stopSignal = transport.stopSignal := by
  unfold Transport.continueWith
  split <;> rfl

@[simp] theorem drop_queue : (transport.drop event).queue = transport.queue := by
  unfold Transport.drop
  split <;> rfl

@[simp] theorem drop_upward : (transport.drop event).upward = transport.upward := by
  unfold Transport.drop
  split <;> rfl

@[simp] theorem drop_reader : (transport.drop event).reader = transport.reader := by
  unfold Transport.drop
  split <;> rfl

@[simp] theorem drop_stop_signal : (transport.drop event).stopSignal = transport.stopSignal := by
  unfold Transport.drop
  split <;> rfl

@[simp] theorem signal_queue : transport.signalReader.queue = transport.queue := by
  unfold Transport.signalReader
  split <;> rfl

@[simp] theorem signal_upward : transport.signalReader.upward = transport.upward := by
  unfold Transport.signalReader
  split <;> rfl

@[simp] theorem signal_reader : transport.signalReader.reader = transport.reader := by
  unfold Transport.signalReader
  split <;> rfl

def upwardOf : SharedAccess → List (Event Bytes)
  | .sendTx event => [event]
  | .sendLoopback _ | .removeUnacked _ => []

@[simp] theorem perform_position (access : SharedAccess) :
    (transport.perform access).position = transport.position := by
  cases access with
  | sendLoopback event =>
      unfold Transport.perform
      simp only
      split_ifs <;> rfl
  | sendTx event => rfl
  | removeUnacked seqNum => rfl

@[simp] theorem perform_stop_signal (access : SharedAccess) :
    (transport.perform access).stopSignal = transport.stopSignal := by
  cases access with
  | sendLoopback event =>
      unfold Transport.perform
      simp only
      split_ifs <;> rfl
  | sendTx event => rfl
  | removeUnacked seqNum => rfl

theorem perform_reader (access : SharedAccess) (present : transport.reader ≠ .ended) :
    (transport.perform access).reader ≠ .ended := by
  cases access with
  | sendLoopback event =>
      unfold Transport.perform
      simp only
      split_ifs
      · simp
      · exact present
  | sendTx event => exact present
  | removeUnacked seqNum => exact present

@[simp] theorem perform_upward (access : SharedAccess) :
    (transport.perform access).upward = transport.upward ++ upwardOf access := by
  cases access with
  | sendLoopback event =>
      unfold Transport.perform
      simp only
      split_ifs <;> exact (List.append_nil _).symm
  | sendTx event => rfl
  | removeUnacked seqNum => exact (List.append_nil _).symm

end Frame

/-- What one label can do, by the place where it is taken. -/
inductive Moved (transport : Transport) : Label → Transport → Prop
  | userData (data : Bytes) :
      Moved transport (.userData data)
        { transport with queue := transport.queue ++ [.data data] }
  | userStop :
      Moved transport .userStop
        { transport with queue := transport.queue ++ [.stop], stopSent := true }
  | opened (place : transport.position = .connecting) :
      Moved transport (.openPort true)
        { transport with
          position := .serving
          worker := .new
          reader := .reading
          serialWorker := .new
          stopSignal := false
          upward := transport.upward ++ [.connected]
          port := [] }
  | openFails (place : transport.position = .connecting) :
      Moved transport (.openPort false) { transport with position := .draining }
  | receive (event : Event Bytes) (rest : List (Event Bytes)) (worker : ConnectionWorker)
      (place : transport.position = .serving) (queue : transport.queue = event :: rest)
      (taken : SerialSending.step transport.worker (.receive event) = some worker) :
      Moved transport .receive ({ transport with queue := rest }.continueWith worker)
  | work (action : Action) (worker : ConnectionWorker) (place : transport.position = .serving)
      (enabled : transport.enabled action = true)
      (taken : SerialSending.step transport.worker action = some worker) :
      Moved transport (.work action)
        ({ transport with
          port := transport.port ++ Transport.frameOf transport.worker action }.continueWith
            worker)
  | signal (place : transport.position = .signalling) :
      Moved transport .signal transport.signalReader
  | announce (place : transport.position = .announcing) :
      Moved transport .announce
        { transport with
          position := .joining
          upward := transport.upward ++ [.disconnected] }
  | join (place : transport.position = .joining) (reader : transport.reader = .ended) :
      Moved transport .join
        { transport with
          position := if transport.stop then .finished else .draining
          reader := .absent }
  | joinPanics (message : String) (place : transport.position = .joining)
      (reader : transport.reader = .panicked message) :
      Moved transport .join { transport with position := .panicked joinFailed }
  | drain (event : Event Bytes) (rest : List (Event Bytes))
      (place : transport.position = .draining) (queue : transport.queue = event :: rest) :
      Moved transport .drain ({ transport with queue := rest }.drop event)
  | timeUp (place : transport.position = .draining) :
      Moved transport .timeUp { transport with position := .connecting }
  | read (result : PortRead) (serialWorker : SerialWorker) (packets : List Bytes)
      (reader : transport.reader = .reading) (works : result ≠ .failed) :
      Moved transport (.read result)
        { transport with serialWorker := serialWorker, reader := .handling packets [] }
  | readFails (serialWorker : SerialWorker) (reader : transport.reader = .reading) :
      Moved transport (.read .failed)
        { transport with serialWorker := serialWorker, reader := .ended }
  | handle (now : Instant) (data : Bytes) (rest : List Bytes) (serialWorker : SerialWorker)
      (accesses : List SharedAccess) (reader : transport.reader = .handling (data :: rest) [])
      (handled : transport.serialWorker.handleData now data =
        returned (serialWorker, accesses)) :
      Moved transport (.handle now)
        { transport with serialWorker := serialWorker, reader := .handling rest accesses }
  | handlePanics (now : Instant) (message : String) (packets : List Bytes)
      (reader : transport.reader = .handling packets []) :
      Moved transport (.handle now) { transport with reader := .panicked message }
  | access (packets : List Bytes) (access : SharedAccess) (rest : List SharedAccess)
      (reader : transport.reader = .handling packets (access :: rest)) :
      Moved transport .access
        ({ transport with reader := .handling packets rest }.perform access)
  | stopped (reader : transport.reader = .handling [] []) (signal : transport.stopSignal = true) :
      Moved transport .check { transport with stopSignal := false, reader := .ended }
  | notStopped (reader : transport.reader = .handling [] []) :
      Moved transport .check { transport with reader := .reading }

variable {transport next : Transport}

theorem moved_of_step {label : Label} (taken : transport.step label = some next) :
    Moved transport label next := by
  unfold Transport.step at taken
  split at taken
  · cases taken
    exact .userData _
  · split_ifs at taken
    cases taken
    exact .userStop
  · rename_i opened
    split_ifs at taken with place success
    · cases taken
      rw [success]
      exact .opened place
    · cases taken
      rw [Bool.eq_false_iff.mpr success]
      exact .openFails place
  · split at taken
    · rename_i event rest place queue
      obtain ⟨worker, moved, rfl⟩ := Option.map_eq_some_iff.mp taken
      exact .receive event rest worker place queue moved
    · cases taken
  · rename_i action
    split_ifs at taken with ready
    obtain ⟨worker, moved, rfl⟩ := Option.map_eq_some_iff.mp taken
    exact .work action worker ready.1 ready.2 moved
  · split_ifs at taken with place
    cases taken
    exact .signal place
  · split_ifs at taken with place
    cases taken
    exact .announce place
  · split at taken
    · rename_i place reader
      cases taken
      exact .join place reader
    · rename_i message place reader
      cases taken
      exact .joinPanics message place reader
    · cases taken
  · split at taken
    · rename_i event rest place queue
      cases taken
      exact .drain event rest place queue
    · cases taken
  · split_ifs at taken with place
    cases taken
    exact .timeUp place
  · rename_i result
    split_ifs at taken with ready
    split at taken
    · rename_i serialWorker packets read
      cases taken
      refine .read result serialWorker packets ready.1 ?_
      rintro rfl
      cases read
    · rename_i serialWorker fails
      cases taken
      cases result with
      | received bytes | timedOut => cases fails
      | failed => exact .readFails serialWorker ready.1
  · rename_i now
    split at taken
    · rename_i data rest reader
      split at taken
      · rename_i serialWorker accesses handled
        cases taken
        exact .handle now data rest serialWorker accesses reader handled
      · rename_i message _
        cases taken
        exact .handlePanics now message _ reader
    · cases taken
  · split at taken
    · rename_i packets access rest reader
      cases taken
      exact .access packets access rest reader
    · cases taken
  · split at taken
    · rename_i reader
      split_ifs at taken with signal
      · cases taken
        exact .stopped reader signal
      · cases taken
        exact .notStopped reader
    · cases taken

def Retriable (guard : WaitingForAck) : Prop :=
  ∀ seqNum entry, guard.lookup seqNum = some entry → 1 ≤ entry.1.toNat

theorem retriable_empty : Retriable ∅ := by
  intro seqNum entry found
  cases found

theorem Retriable.insert {guard : WaitingForAck} (retriable : Retriable guard) (seqNum : UInt8)
    (data : Bytes) : Retriable (guard.insert seqNum (3, data)) := by
  intro other entry found
  by_cases same : other = seqNum
  · rw [same, AList.lookup_insert] at found
    cases found
    have three : (1 : Nat) ≤ (3 : UInt8).toNat := by decide
    exact three
  · have kept := @AList.lookup_insert_ne UInt8 (fun _ => UInt8 × Bytes) _ other seqNum (3, data)
      guard same
    rw [kept] at found
    exact retriable other entry found

theorem Retriable.remove {guard : WaitingForAck} (retriable : Retriable guard) (seqNum : UInt8) :
    Retriable (removeUnacked guard seqNum) := by
  intro other entry found
  unfold removeUnacked at found
  split_ifs at found
  · by_cases same : other = seqNum
    · rw [same, AList.lookup_erase] at found
      cases found
    · rw [AList.lookup_erase_ne same] at found
      exact retriable other entry found
  · exact retriable other entry found

theorem Retriable.decremented {guard left : WaitingForAck} (retriable : Retriable guard)
    (entries : ∀ seqNum, left.lookup seqNum =
      (guard.lookup seqNum).bind SerialSending.decremented) : Retriable left := by
  intro seqNum entry found
  rw [entries seqNum, Option.bind_eq_some_iff] at found
  obtain ⟨before, recorded, remaining⟩ := found
  have enough := retriable seqNum before recorded
  have bounded := before.1.toNat_lt
  unfold SerialSending.decremented at remaining
  split_ifs at remaining with last
  cases remaining
  rw [UInt8.toNat_ofNat']
  omega

def Running (worker : ConnectionWorker) : Prop :=
  worker.position ≠ .stopped ∧ ∀ message, worker.position ≠ .panicked message

theorem place_of_receive {worker next : ConnectionWorker} {event : Event Bytes}
    (taken : SerialSending.step worker (.receive event) = some next) :
    worker.position = .receiving := by
  cases place : worker.position <;> simp [SerialSending.step, place] at taken ⊢

theorem receive_data {worker next : ConnectionWorker} {data : Bytes}
    (taken : SerialSending.step worker (.receive (.data data)) = some next) :
    Running next ∧ next.waitingForAck = worker.waitingForAck := by
  have place := place_of_receive taken
  simp only [SerialSending.step, place] at taken
  cases taken
  exact ⟨⟨by simp, by simp⟩, rfl⟩

theorem receive_stop {worker next : ConnectionWorker}
    (taken : SerialSending.step worker (.receive .stop) = some next) :
    next = { worker with position := .stopped } := by
  have place := place_of_receive taken
  simp only [SerialSending.step, place] at taken
  cases taken
  rfl

/-- Between two receives the worker ends on a failing write and on nothing else. -/
theorem worker_goes_on {worker next : ConnectionWorker} {action : Action}
    (retriable : Retriable worker.waitingForAck) (notReceive : ∀ event, action ≠ .receive event)
    (notHangUp : action ≠ .hangUp) (taken : SerialSending.step worker action = some next) :
    Retriable next.waitingForAck ∧
      (action ≠ .write false → Running next) ∧
      (action = .write false → ∃ message, next.position = .panicked message) := by
  cases SerialSending.taken_of_step taken with
  | data data place => exact absurd rfl (notReceive _)
  | stop place => exact absurd rfl (notReceive _)
  | unexpected event message place other => exact absurd rfl (notReceive _)
  | timeout place => exact ⟨retriable, fun _ => ⟨by simp, by simp⟩, by simp⟩
  | hangUp message place => exact absurd rfl notHangUp
  | write data place => exact ⟨retriable, fun _ => ⟨by simp, by simp⟩, by simp⟩
  | writeFails message => exact ⟨retriable, fun accepted => absurd rfl accepted, fun _ => ⟨_, rfl⟩⟩
  | mark data place =>
      exact ⟨retriable.insert worker.seqNum data, fun _ => ⟨by simp, by simp⟩, by simp⟩
  | bump place => exact ⟨retriable, fun _ => ⟨by simp, by simp⟩, by simp⟩
  | collect order guard writes place visited collected =>
      obtain ⟨left, spec, entries⟩ := SerialSending.collect_unacked_spec visited retriable
      rw [spec] at collected
      cases collected
      exact ⟨retriable.decremented entries, fun _ => ⟨by simp, by simp⟩, by simp⟩
  | collectPanics order message place visited collected =>
      obtain ⟨left, spec, entries⟩ := SerialSending.collect_unacked_spec visited retriable
      rw [spec] at collected
      cases collected
  | resend data rest place => exact ⟨retriable, fun _ => ⟨by simp, by simp⟩, by simp⟩
  | loop place => exact ⟨retriable, fun _ => ⟨by simp, by simp⟩, by simp⟩

theorem continue_with_running {worker : ConnectionWorker} (running : Running worker) :
    transport.continueWith worker = { transport with worker := worker } := by
  unfold Transport.continueWith
  split
  · rename_i stopped
    exact absurd stopped running.1
  · rename_i message panicked
    exact absurd panicked (running.2 message)
  · rfl

def SendsData : SharedAccess → Prop
  | .sendLoopback event => ∃ data, event = .data data
  | .sendTx event => ∃ data, event = .data data
  | .removeUnacked _ => True

theorem accesses_send_data {serialWorker next : SerialWorker} {now : Instant} {data : Bytes}
    {accesses : List SharedAccess}
    (handled : serialWorker.handleData now data = returned (next, accesses)) :
    ∀ access ∈ accesses, SendsData access := by
  rcases accesses_of_handle_data handled with rfl | ⟨seqNum, content, _, _, rfl⟩ |
    ⟨seqNum, _, rfl⟩ | ⟨content, _, _, rfl⟩
  · intro access member
    cases member
  · intro access member
    rcases List.mem_cons.mp member with rfl | later
    · exact ⟨_, rfl⟩
    · rw [List.mem_singleton.mp later]
      exact ⟨_, rfl⟩
  · intro access member
    rw [List.mem_singleton.mp member]
    trivial
  · intro access member
    rw [List.mem_singleton.mp member]
    exact ⟨_, rfl⟩

/-- What holds in every state, whatever the port does. -/
structure TransportInv (transport : Transport) : Prop where
  queued : ∀ event ∈ transport.queue, event = .stop ∨ ∃ data, event = .data data
  owed : ∀ packets accesses, transport.reader = .handling packets accesses →
    ∀ access ∈ accesses, SendsData access
  retriable : Retriable transport.worker.waitingForAck
  idle : transport.position = .connecting ∨ transport.position = .draining ∨
    transport.position = .finished → transport.reader = .absent
  present : transport.position = .serving ∨ transport.position = .signalling ∨
    transport.position = .announcing ∨ transport.position = .joining →
      transport.reader ≠ .absent
  stopped : transport.position = .signalling ∨ transport.position = .announcing ∨
    transport.position = .joining ∨ transport.position = .finished → transport.stop = true

theorem transport_inv_fresh : TransportInv .fresh where
  queued := by
    intro event member
    cases member
  owed := by
    intro packets accesses same
    cases same
  retriable := retriable_empty
  idle := fun _ => rfl
  present := by simp [Transport.fresh]
  stopped := by simp [Transport.fresh]

theorem TransportInv.sent (inv : TransportInv transport) {event : Event Bytes}
    (kind : event = .stop ∨ ∃ data, event = .data data) (stopSent : Bool) :
    TransportInv { transport with
      queue := transport.queue ++ [event]
      stopSent := stopSent } :=
  { inv with
    queued := by
      intro other member
      rcases List.mem_append.mp member with before | new
      · exact inv.queued other before
      · rw [List.mem_singleton.mp new]
        exact kind }

theorem TransportInv.taken (inv : TransportInv transport) {event : Event Bytes}
    {rest : List (Event Bytes)} (queue : transport.queue = event :: rest) :
    (event = .stop ∨ ∃ data, event = .data data) ∧
      TransportInv { transport with queue := rest } := by
  obtain ⟨first, later⟩ := of_tail queue
  exact ⟨inv.queued event first,
    { inv with queued := fun other member => inv.queued other (later other member) }⟩

theorem TransportInv.panics (inv : TransportInv transport) (message : String) :
    TransportInv { transport with position := .panicked message } :=
  { inv with
    idle := by simp
    present := by simp
    stopped := by simp }

theorem TransportInv.read (inv : TransportInv transport) (before : transport.reader ≠ .absent)
    {reader : Reader} (after : reader ≠ .absent)
    (owed : ∀ packets accesses, reader = .handling packets accesses →
      ∀ access ∈ accesses, SendsData access) (serialWorker : SerialWorker) (stopSignal : Bool) :
    TransportInv { transport with
      reader := reader
      serialWorker := serialWorker
      stopSignal := stopSignal } :=
  { inv with
    owed := owed
    idle := fun place => absurd (inv.idle place) before
    present := fun _ => after }

theorem TransportInv.receive (inv : TransportInv transport)
    (place : transport.position = .serving) {event : Event Bytes} {rest : List (Event Bytes)}
    (queue : transport.queue = event :: rest) {worker : ConnectionWorker}
    (moved : SerialSending.step transport.worker (.receive event) = some worker) :
    TransportInv ({ transport with queue := rest }.continueWith worker) := by
  obtain ⟨kind, left⟩ := inv.taken queue
  have reader := inv.present (.inl place)
  rcases kind with rfl | ⟨data, rfl⟩
  · rw [receive_stop moved]
    exact { left with
      idle := by simp [Transport.continueWith]
      present := fun _ => reader
      stopped := fun _ => rfl }
  · obtain ⟨running, sameMap⟩ := receive_data moved
    rw [continue_with_running running]
    exact { left with
      retriable := by
        rw [sameMap]
        exact inv.retriable }

/-- In the loop of the transport a worker goes on after everything but a failing write. -/
theorem TransportInv.worked (inv : TransportInv transport) {action : Action}
    (enabled : transport.enabled action = true) {worker : ConnectionWorker}
    (moved : SerialSending.step transport.worker action = some worker) :
    Retriable worker.waitingForAck ∧
      (action ≠ .write false → Running worker) ∧
      (action = .write false → ∃ message, worker.position = .panicked message) := by
  apply worker_goes_on inv.retriable _ _ moved
  · rintro event rfl
    cases enabled
  · rintro rfl
    cases enabled

theorem TransportInv.work (inv : TransportInv transport) {action : Action}
    (enabled : transport.enabled action = true) {worker : ConnectionWorker}
    (moved : SerialSending.step transport.worker action = some worker) (port : Bytes) :
    TransportInv ({ transport with port := port }.continueWith worker) := by
  obtain ⟨retriable, goesOn, fails⟩ := inv.worked enabled moved
  by_cases failing : action = .write false
  · obtain ⟨message, panicked⟩ := fails failing
    rw [Transport.continueWith, panicked]
    exact { inv.panics message with retriable := retriable }
  · rw [continue_with_running (goesOn failing)]
    exact { inv with retriable := retriable }

theorem TransportInv.access (inv : TransportInv transport) {packets : List Bytes}
    {access : SharedAccess} {rest : List SharedAccess}
    (reader : transport.reader = .handling packets (access :: rest)) :
    TransportInv ({ transport with reader := .handling packets rest }.perform access) := by
  have owed := inv.owed packets (access :: rest) reader
  have before : transport.reader ≠ .absent := by simp [reader]
  have left : TransportInv { transport with reader := .handling packets rest } := by
    refine inv.read before (by simp) ?_ transport.serialWorker transport.stopSignal
    intro others accesses same other member
    cases same
    exact owed other (List.mem_cons_of_mem _ member)
  cases access with
  | sendLoopback event =>
      unfold Transport.perform
      simp only
      split_ifs
      · exact inv.read before (by simp) (by simp) transport.serialWorker transport.stopSignal
      · exact left.sent (.inr (owed _ List.mem_cons_self)) transport.stopSent
  | sendTx event => exact { left with }
  | removeUnacked seqNum => exact { left with retriable := inv.retriable.remove seqNum }

theorem TransportInv.drain (inv : TransportInv transport)
    (place : transport.position = .draining) {event : Event Bytes} {rest : List (Event Bytes)}
    (queue : transport.queue = event :: rest) :
    TransportInv ({ transport with queue := rest }.drop event) := by
  obtain ⟨kind, left⟩ := inv.taken queue
  rcases kind with rfl | ⟨data, rfl⟩
  · have reader := inv.idle (.inr (.inl place))
    exact { left with
      idle := fun _ => reader
      present := by simp [Transport.drop]
      stopped := fun _ => rfl }
  · exact left

theorem TransportInv.signal (inv : TransportInv transport)
    (place : transport.position = .signalling) : TransportInv transport.signalReader := by
  have reader := inv.present (.inr (.inl place))
  have stop := inv.stopped (.inl place)
  unfold Transport.signalReader
  split
  · exact inv.panics sendFailed
  · exact inv.panics sendFailed
  · exact { inv with
      idle := by simp
      present := fun _ => reader
      stopped := fun _ => stop }

theorem transport_inv_step (transport : Transport) (label : Label) (next : Transport)
    (inv : TransportInv transport) (taken : transport.step label = some next) :
    TransportInv next := by
  cases moved_of_step taken with
  | userData data => exact inv.sent (.inr ⟨data, rfl⟩) transport.stopSent
  | userStop => exact inv.sent (.inl rfl) true
  | opened place =>
      exact { inv with
        owed := by simp
        retriable := retriable_empty
        idle := by simp
        present := by simp
        stopped := by simp }
  | openFails place =>
      have reader := inv.idle (.inl place)
      exact { inv with
        idle := fun _ => reader
        present := by simp
        stopped := by simp }
  | receive event rest worker place queue moved => exact inv.receive place queue moved
  | work action worker place enabled moved => exact inv.work enabled moved _
  | signal place => exact inv.signal place
  | announce place =>
      have reader := inv.present (.inr (.inr (.inl place)))
      have stop := inv.stopped (.inr (.inl place))
      exact { inv with
        idle := by simp
        present := fun _ => reader
        stopped := fun _ => stop }
  | join place reader =>
      have stop := inv.stopped (.inr (.inr (.inl place)))
      exact { inv with
        owed := by simp
        idle := fun _ => rfl
        present := by simp [stop]
        stopped := fun _ => stop }
  | joinPanics message place reader => exact inv.panics joinFailed
  | drain event rest place queue => exact inv.drain place queue
  | timeUp place =>
      have reader := inv.idle (.inr (.inl place))
      exact { inv with
        idle := fun _ => reader
        present := by simp
        stopped := by simp }
  | read result serialWorker packets reader =>
      refine inv.read (by simp [reader]) (by simp) ?_ serialWorker transport.stopSignal
      intro others accesses same other member
      cases same
      cases member
  | readFails serialWorker reader =>
      exact inv.read (by simp [reader]) (by simp) (by simp) serialWorker transport.stopSignal
  | handle now data rest serialWorker accesses reader handled =>
      refine inv.read (by simp [reader]) (by simp) ?_ serialWorker transport.stopSignal
      intro others owed same
      cases same
      exact accesses_send_data handled
  | handlePanics now message packets reader =>
      exact inv.read (by simp [reader]) (by simp) (by simp) transport.serialWorker
        transport.stopSignal
  | access packets access rest reader => exact inv.access reader
  | stopped reader signal =>
      exact inv.read (by simp [reader]) (by simp) (by simp) transport.serialWorker false
  | notStopped reader =>
      exact inv.read (by simp [reader]) (by simp) (by simp) transport.serialWorker
        transport.stopSignal

end MoteConnection.SerialTransport
