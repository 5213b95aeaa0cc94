import MoteConnection.SerialTransport
import MoteConnection.SerialResendTiming
import MoteConnection.UpwardPackets

/-!
# The sessions of the serial transport

Each session of the transport, whatever its read thread, its users and its port
do meanwhile, is one of the sessions whose books were kept on their own: the
worker is the same, the bytes on the port are the frames of the log, and the
payloads are what the write thread has taken from its queue since the port was
opened.
-/

namespace MoteConnection.SerialSessions

open LabeledRuns
open MoteConnection.Runtime MoteConnection.HdlcFraming MoteConnection.SerialPackets
open MoteConnection.SerialReceiving MoteConnection.SerialSending
open MoteConnection.SerialRetransmission MoteConnection.SerialTransport

set_option autoImplicit false

/-- A transport with the ledger of the session on its last port. `enqueued` is all data that was
put in the queue, `before` what the write thread took of it before the port was opened, and
`dropped` what it took after the session. -/
structure Books where
  transport : Transport
  session : Session
  enqueued : List Bytes
  before : List Bytes
  dropped : List Bytes

namespace Books

def fresh : Books := ⟨.fresh, .fresh, [], [], []⟩

def follow (books : Books) (label : SerialTransport.Label) (next : Transport) : Books :=
  match label with
  | .userData data => { books with transport := next, enqueued := books.enqueued ++ [data] }
  | .openPort true =>
      { books with
        transport := next
        session := .fresh
        before := books.before ++ books.session.payloads ++ books.dropped
        dropped := [] }
  | .receive =>
      match books.transport.queue with
      | event :: _ =>
          { books with
            transport := next
            session := books.session.record (.receive event) next.worker }
      | [] => { books with transport := next }
  | .work action =>
      { books with
        transport := next
        session := books.session.record action next.worker }
  | .drain =>
      { books with
        transport := next
        dropped := books.dropped ++ dataOf (books.transport.queue.take 1) }
  | .access =>
      match books.transport.reader with
      | .handling _ (access :: _) =>
          { books with
            transport := next
            session := books.session.perform access
            enqueued := books.enqueued ++
              dataOf (next.queue.drop books.transport.queue.length) }
      | _ => { books with transport := next }
  | _ => { books with transport := next }

def step (books : Books) (label : SerialTransport.Label) : Option Books :=
  (books.transport.step label).map (books.follow label)

end Books

def bytesOf (log : List PortWrite) : Bytes := log.flatMap (·.frame)

structure Kept (books : Books) : Prop where
  session : ∃ labels, run Session.step .fresh labels = some books.session
  worker : books.session.worker = books.transport.worker
  port : books.transport.port = bytesOf books.session.portLog
  queue : books.enqueued = books.before ++ books.session.payloads ++ books.dropped ++
    dataOf books.transport.queue
  serving : books.transport.position = .serving → books.dropped = []

theorem kept_fresh : Kept .fresh where
  session := ⟨[], rfl⟩
  worker := rfl
  port := rfl
  queue := rfl
  serving := fun _ => rfl

section Ledger

variable {books : Books} {transport : Transport}

@[simp] theorem continue_worker (worker : ConnectionWorker) :
    (transport.continueWith worker).worker = worker := by
  unfold Transport.continueWith
  split <;> rfl

@[simp] theorem continue_port (worker : ConnectionWorker) :
    (transport.continueWith worker).port = transport.port := by
  unfold Transport.continueWith
  split <;> rfl

theorem bytes_of_record (session : Session) (action : Action) (next : ConnectionWorker) :
    bytesOf (session.record action next).portLog =
      bytesOf session.portLog ++ Transport.frameOf session.worker action := by
  unfold Session.record
  split
  · rename_i payload place
    simp only [Transport.frameOf, place, List.append_nil]
  · rename_i data place
    simp only [Transport.frameOf, place, bytesOf, List.flatMap_append, List.flatMap_singleton]
  · rename_i order place
    simp only [Transport.frameOf, place, List.append_nil]
  · rename_i data rest place
    simp only [Transport.frameOf, place, bytesOf, List.flatMap_append, List.flatMap_singleton]
  · rename_i _ noWrite _ noResend
    unfold Transport.frameOf
    split
    · rename_i place _ _
      exact (noWrite _ place rfl).elim
    · rename_i place _ _
      exact (noResend _ _ place rfl).elim
    · exact (List.append_nil _).symm

def receivedBy : Action → List Bytes
  | .receive event => dataOf [event]
  | _ => []

theorem payloads_of_action {session next : Session} {action : Action}
    (taken : session.step (.worker action) = some next) :
    next.payloads = session.payloads ++ receivedBy action := by
  by_cases data : ∃ payload, action = .receive (.data payload)
  · obtain ⟨payload, rfl⟩ := data
    exact payloads_of_receive taken
  · have silent : receivedBy action = [] := by
      cases action with
      | receive event =>
          cases event with
          | data payload => exact absurd ⟨payload, rfl⟩ data
          | disconnected | connected | stop | error => rfl
      | timeout | hangUp | write | mark | bump | collect | loop => rfl
    rw [payloads_of_other (fun payload same => data ⟨payload, same⟩) taken, silent,
      List.append_nil]

end Ledger

section Step

variable {books next : Books}

theorem transport_of_step {label : SerialTransport.Label} (taken : books.step label = some next) :
    books.transport.step label = some next.transport := by
  obtain ⟨transport, moved, rfl⟩ := Option.map_eq_some_iff.mp taken
  rw [moved]
  unfold Books.follow
  repeat' split
  all_goals rfl

/-- The worker of the transport takes a step, and the session the same. -/
theorem Kept.work (kept : Kept books) {action : Action} {worker : ConnectionWorker}
    {queue : List (Event Bytes)}
    (place : books.transport.position = .serving)
    (moved : SerialSending.step books.transport.worker action = some worker)
    (left : dataOf books.transport.queue = receivedBy action ++ dataOf queue) :
    Kept { books with
      transport := { books.transport with
        queue := queue
        port := books.transport.port ++
          Transport.frameOf books.transport.worker action }.continueWith worker
      session := books.session.record action worker } := by
  obtain ⟨labels, reached⟩ := kept.session
  have taken : books.session.step (.worker action) =
      some (books.session.record action worker) := by
    rw [Session.step, kept.worker, moved]
    rfl
  have nothing := kept.serving place
  constructor
  · refine ⟨labels ++ [.worker action], run_append_some.mpr ⟨_, reached, ?_⟩⟩
    rw [run_cons, taken]
    rfl
  · rw [SerialResendTiming.record_worker, continue_worker]
  · rw [continue_port, bytes_of_record, kept.port, kept.worker]
  · rw [continue_queue, payloads_of_action taken, kept.queue, left, nothing]
    simp only [List.append_nil, List.append_assoc]
  · exact fun _ => nothing

theorem Kept.moved (kept : Kept books) {transport : Transport}
    (worker : transport.worker = books.transport.worker)
    (port : transport.port = books.transport.port)
    (queue : dataOf transport.queue = dataOf books.transport.queue)
    (serving : transport.position = .serving → books.transport.position = .serving) :
    Kept { books with transport := transport } where
  session := kept.session
  worker := kept.worker.trans worker.symm
  port := port.trans kept.port
  queue := by rw [queue]; exact kept.queue
  serving := fun place => kept.serving (serving place)

theorem Kept.enqueued (kept : Kept books) {transport : Transport} {events : List (Event Bytes)}
    (worker : transport.worker = books.transport.worker)
    (port : transport.port = books.transport.port)
    (queue : transport.queue = books.transport.queue ++ events)
    (place : transport.position = books.transport.position) :
    Kept { books with transport := transport, enqueued := books.enqueued ++ dataOf events } where
  session := kept.session
  worker := kept.worker.trans worker.symm
  port := port.trans kept.port
  queue := by rw [queue, data_of_append, kept.queue, List.append_assoc]
  serving := by rw [place]; exact kept.serving

theorem Kept.opened (kept : Kept books) {transport : Transport} (worker : transport.worker = .new)
    (port : transport.port = []) (queue : transport.queue = books.transport.queue) :
    Kept { books with
      transport := transport
      session := .fresh
      before := books.before ++ books.session.payloads ++ books.dropped
      dropped := [] } where
  session := ⟨[], rfl⟩
  worker := worker.symm
  port := port
  queue := by
    rw [queue]
    simpa [Session.fresh] using kept.queue
  serving := fun _ => rfl

theorem Kept.drained (kept : Kept books) (place : books.transport.position = .draining)
    {event : Event Bytes} {rest : List (Event Bytes)}
    (queue : books.transport.queue = event :: rest) :
    Kept { books with
      transport := { books.transport with queue := rest }.drop event
      dropped := books.dropped ++ dataOf [event] } where
  session := kept.session
  worker := by
    rw [kept.worker]
    unfold Transport.drop
    split <;> rfl
  port := by
    rw [← kept.port]
    unfold Transport.drop
    split <;> rfl
  queue := by
    have split : dataOf books.transport.queue = dataOf [event] ++ dataOf rest := by
      rw [queue, ← data_of_append, List.singleton_append]
    rw [drop_queue, kept.queue, split]
    simp only [List.append_assoc]
  serving := by
    intro serving
    unfold Transport.drop at serving
    split at serving
    · cases serving
    · rw [place] at serving
      cases serving
    · cases serving

theorem Kept.access (kept : Kept books) {packets : List Bytes} {access : SharedAccess}
    {rest : List SharedAccess} {transport : Transport}
    (moved : transport = { books.transport with reader := .handling packets rest }.perform access) :
    Kept { books with
      transport := transport
      session := books.session.perform access
      enqueued := books.enqueued ++
        dataOf (transport.queue.drop books.transport.queue.length) } := by
  subst moved
  cases access with
  | sendLoopback event =>
      unfold Transport.perform
      simp only
      split_ifs
      · have nothing : dataOf (books.transport.queue.drop books.transport.queue.length) = [] := by
          rw [List.drop_length]
          rfl
        rw [nothing, List.append_nil]
        exact kept.moved rfl rfl rfl id
      · have new : (books.transport.queue ++ [event]).drop books.transport.queue.length =
            [event] := List.drop_left
        rw [new]
        exact kept.enqueued rfl rfl rfl rfl
  | sendTx event =>
      have nothing : dataOf (books.transport.queue.drop books.transport.queue.length) = [] := by
        rw [List.drop_length]
        rfl
      simp only [Transport.perform]
      rw [nothing, List.append_nil]
      exact kept.moved rfl rfl rfl id
  | removeUnacked seqNum =>
      obtain ⟨labels, reached⟩ := kept.session
      have nothing : dataOf (books.transport.queue.drop books.transport.queue.length) = [] := by
        rw [List.drop_length]
        rfl
      simp only [Transport.perform]
      rw [nothing, List.append_nil]
      constructor
      · refine ⟨labels ++ [.handleAck (Ack.new seqNum).intoBytes],
          run_append_some.mpr ⟨_, reached, ?_⟩⟩
        rw [run_cons, step_ack]
        rfl
      · simp only [Session.perform, Session.removeUnacked, kept.worker]
      · exact kept.port
      · exact kept.queue
      · exact kept.serving

theorem kept_step {label : SerialTransport.Label} (kept : Kept books)
    (taken : books.step label = some next) : Kept next := by
  obtain ⟨transport, moved, same⟩ := Option.map_eq_some_iff.mp taken
  subst same
  cases SerialTransport.moved_of_step moved with
  | userData data =>
      have sent : Kept { books with
          transport := { books.transport with
            queue := books.transport.queue ++ [.data data] }
          enqueued := books.enqueued ++ dataOf [.data data] } := kept.enqueued rfl rfl rfl rfl
      exact sent
  | userStop =>
      have unchanged : dataOf (books.transport.queue ++ [.stop]) =
          dataOf books.transport.queue := by
        rw [data_of_append]
        exact List.append_nil _
      exact kept.moved rfl rfl unchanged id
  | opened place => exact kept.opened rfl rfl rfl
  | openFails place => exact kept.moved rfl rfl rfl (fun serving => by cases serving)
  | receive event rest worker place queue stepped =>
      have left : dataOf books.transport.queue = receivedBy (.receive event) ++ dataOf rest := by
        rw [queue]
        exact data_of_append [event] rest
      have worked := kept.work place stepped left
      have unwritten : Transport.frameOf books.transport.worker (.receive event) = [] := by
        unfold Transport.frameOf
        split
        · rename_i same
          cases same
        · rename_i same
          cases same
        · rfl
      rw [unwritten, List.append_nil] at worked
      simp only [Books.follow, queue, continue_worker]
      exact worked
  | work action worker place enabled stepped =>
      have left : dataOf books.transport.queue =
          receivedBy action ++ dataOf books.transport.queue := by
        cases action with
        | receive event => cases enabled
        | timeout | hangUp | write | mark | bump | collect | loop => rfl
      have worked := kept.work place stepped left
      simp only [Books.follow, continue_worker]
      exact worked
  | signal place =>
      have same : books.transport.signalReader.worker = books.transport.worker ∧
          books.transport.signalReader.port = books.transport.port ∧
          books.transport.signalReader.position ≠ .serving := by
        unfold Transport.signalReader
        split <;> exact ⟨rfl, rfl, by simp⟩
      exact kept.moved same.1 same.2.1 (by rw [signal_queue])
        (fun serving => absurd serving same.2.2)
  | announce place => exact kept.moved rfl rfl rfl (fun serving => by cases serving)
  | join place reader =>
      have elsewhere : (if books.transport.stop then Position.finished else .draining) ≠
          .serving := by
        split_ifs <;> simp
      exact kept.moved rfl rfl rfl (fun serving => absurd serving elsewhere)
  | joinPanics message place reader =>
      exact kept.moved rfl rfl rfl (fun serving => by cases serving)
  | drain event rest place queue =>
      have drained := kept.drained place queue
      simp only [Books.follow, queue]
      exact drained
  | timeUp place => exact kept.moved rfl rfl rfl (fun serving => by cases serving)
  | read | readFails | handle | handlePanics | stopped | notStopped =>
      exact kept.moved rfl rfl rfl id
  | access packets access rest reader =>
      simp only [Books.follow, reader]
      exact kept.access rfl

theorem followed {labels : List SerialTransport.Label} {transport : Transport}
    (reached : run Transport.step .fresh labels = some transport) :
    ∃ books, run Books.step .fresh labels = some books ∧ transport = books.transport := by
  have simulated (transport : Transport) (books : Books) (label : SerialTransport.Label)
      (next : Transport) (same : transport = books.transport)
      (taken : transport.step label = some next) :
      ∃ after, books.step label = some after ∧ next = after.transport := by
    rw [same] at taken
    refine ⟨books.follow label next, Option.map_eq_some_iff.mpr ⟨next, taken, rfl⟩, ?_⟩
    unfold Books.follow
    split
    · rfl
    · rfl
    · split <;> rfl
    · rfl
    · rfl
    · split <;> rfl
    · rfl
  exact simulated_run simulated rfl reached

end Step

def packetOf (session : Session) (write : PortWrite) : Bytes :=
  (AckPacket.new (seqNumOf write.packet) (session.payloads.getD write.packet [])).intoBytes

theorem bytes_of_packets {session : Session} (inv : SerialRetransmission.SessionInv session) :
    bytesOf session.portLog =
      (session.portLog.map (packetOf session)).flatMap HdlcCodec.encode := by
  rw [bytesOf, List.flatMap_map]
  apply List.flatMap_congr
  intro write member
  obtain ⟨_, payload, found, framed⟩ := inv.framed member
  rw [framed, packetOf, List.getD_eq_getElem?_getD, found]
  rfl

theorem decode_all {packets : List Bytes} (nonempty : ∀ packet ∈ packets, packet ≠ []) :
    (HdlcCodec.new.decode (packets.flatMap HdlcCodec.encode)).2 = packets := by
  by_cases some : packets = []
  · rw [some]
    rfl
  · rw [decode_resynchronises .new some nonempty]
    rfl

/-- In every run of the serial transport, over any number of sessions, and whatever its users, its
read thread, its port and its clock do: what the peer reads from the last port is the log of a
session whose books are kept, the data of the queue is dealt with in order, once, by a session or
between two, and whatever arrives, a `TransportWorker` can take apart what is handed up. -/
theorem sessions_keep_books (labels : List SerialTransport.Label) (transport : Transport)
    (reached : run Transport.step .fresh labels = some transport) :
    ∃ books, run Books.step .fresh labels = some books ∧ transport = books.transport ∧
      (∃ sessionLabels, run Session.step .fresh sessionLabels = some books.session) ∧
      books.session.worker = transport.worker ∧
      Bookkeeping books.session ∧
      (HdlcCodec.new.decode transport.port).2 =
        books.session.portLog.map (packetOf books.session) ∧
      books.enqueued = books.before ++ books.session.payloads ++ books.dropped ++
        dataOf transport.queue ∧
      ∀ event ∈ transport.upward, ConnectionWorkers.Dispatchable event := by
  have dispatchable := UpwardPackets.serial_upward_dispatchable reached
  obtain ⟨books, following, rfl⟩ := followed reached
  have kept : Kept books :=
    invariant_of_run (fun _ _ _ kept taken => kept_step kept taken) kept_fresh following
  obtain ⟨sessionLabels, session⟩ := kept.session
  have inv := inv_of_run session
  have nonempty : ∀ packet ∈ books.session.portLog.map (packetOf books.session), packet ≠ [] := by
    intro packet member
    obtain ⟨write, _, rfl⟩ := List.mem_map.mp member
    exact ack_packet_nonempty _
  refine ⟨books, following, rfl, kept.session, kept.worker, bookkeeping_of_inv inv, ?_, kept.queue,
    dispatchable⟩
  rw [kept.port, bytes_of_packets inv, decode_all nonempty]

def oneSession : List SerialTransport.Label :=
  [.userData [0x2A], .openPort true, .receive, .work (.write true), .work .mark,
    .read (.received (HdlcCodec.encode (AckPacket.new 7 [5]).intoBytes)), .handle 0, .access,
    .work .bump, .work (.collect [0]), .work (.write true), .work .loop, .receive]

theorem one_session_keeps_books :
    ∃ transport books, run Transport.step .fresh oneSession = some transport ∧
      run Books.step .fresh oneSession = some books ∧
      (HdlcCodec.new.decode transport.port).2 =
        books.session.portLog.map (packetOf books.session) := by
  have enabled : (run Transport.step .fresh oneSession).isSome = true := by
    decide +kernel
  obtain ⟨transport, reached⟩ := Option.isSome_iff_exists.mp enabled
  obtain ⟨books, following, _, _, _, _, decoded, _⟩ :=
    sessions_keep_books oneSession transport reached
  exact ⟨transport, books, reached, following, decoded⟩

end MoteConnection.SerialSessions
