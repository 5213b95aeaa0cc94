import MoteConnection.Library.QueueHistory
import MoteConnection.ConnectionEvents
import MoteConnection.ForwarderSessions
import MoteConnection.SerialSessions

/-!
# Data sent during a disconnection

Both transports throw away what is in their queue in the loop between two
sessions. While they connect they do not, and a session finds in the queue what
was put there in the meantime.

The log has all data that was put in the queue, and whether `Disconnected` was
the last notice sent upward when it was. Whether the time before the first
notice counts as a disconnection too is left to a parameter, `opening`. What is
on a stream or a port are frames of the data at the places in the log that the
session was served. Shutting a stream down, cloning a stream or a port and
spawning a thread succeed in these runs.
-/

namespace MoteConnection.DisconnectedData

open LabeledRuns QueueHistory
open MoteConnection.Runtime MoteConnection.ConnectionEvents
open MoteConnection.SerialPackets (AckPacket)
open MoteConnection.SerialRetransmission (PortWrite seqNumOf)
open MoteConnection.SerialSending (writeToStream)

set_option autoImplicit false

/-- Whether what is sent now is sent during a disconnection, by the notices sent upward so far. -/
def duringDisconnection (opening : Bool) (upward : List (Event Bytes)) : Bool :=
  !isConnected (!opening) upward

theorem not_during_connection (opening : Bool) (upward : List (Event Bytes))
    (connected : isConnected false upward = true) : duringDisconnection opening upward = false := by
  have earlier : isConnected (!opening) upward = true := by
    induction upward using List.reverseRecOn with
    | nil => cases connected
    | append_singleton upward event induction =>
        cases event with
        | connected => simp
        | disconnected => simp at connected
        | data content =>
            rw [is_connected_data] at connected ⊢
            exact induction connected
        | stop | error =>
            rw [isConnected, List.foldl_append] at connected ⊢
            exact induction connected
  rw [duringDisconnection, earlier]
  rfl

section SerialForwarder

open MoteConnection.ForwarderTransport MoteConnection.ForwarderSessions

def forwarderQueue (opening : Bool) : QueueSystem Books Label Bytes where
  step := Books.step
  entries := Books.enqueued
  begun := fun books => books.before.length
  served := fun books => (books.before ++ books.taken).length
  gone := fun books => (books.before ++ books.taken ++ books.dropped).length
  connected := fun books => isConnected false books.forwarder.upward
  disconnected := fun books => duringDisconnection opening books.forwarder.upward
  apart := fun books => not_during_connection opening books.forwarder.upward

/-- A `ConnectionWorker` runs only after `Connected`, and a stream is opened only after
`Disconnected`. -/
def ForwarderServes (forwarder : Forwarder) : Prop :=
  match forwarder.position with
  | .serving | .writing _ => isConnected false forwarder.upward = true
  | .connecting | .handshaking | .joining | .draining | .finished =>
      isConnected false forwarder.upward = false
  | .shuttingDown | .announcing | .panicked _ => True

variable {forwarder next : Forwarder}

theorem forwarder_serves_step {label : Label} (serves : ForwarderServes forwarder)
    (taken : forwarder.step label = some next) : ForwarderServes next := by
  cases moved_of_step taken with
  | userData | userStop | readFails | post => exact serves
  | connected place | connectFails place | timeUp place =>
      simp only [ForwarderServes, place] at serves
      exact serves
  | established place => exact is_connected_connected _ _
  | handshakeFails place | writeFails bytes count place | shutdown place => trivial
  | receive event poster rest place queue =>
      have connected : isConnected false forwarder.upward = true := by
        simpa only [ForwarderServes, place] using serves
      cases event with
      | data data =>
          simp only [Forwarder.serve]
          split
          · exact connected
          · exact serves
      | disconnected | stop | connected | error => trivial
  | written bytes place =>
      simp only [ForwarderServes, place] at serves
      exact serves
  | announce place => exact is_connected_disconnected _ _
  | finish place stopped | join place running =>
      simp only [ForwarderServes, place] at serves
      exact serves
  | drain event poster rest place queue =>
      cases event with
      | data data => exact serves
      | stop =>
          simp only [ForwarderServes, place] at serves
          exact serves
      | disconnected | connected | error => trivial
  | read data reading =>
      cases data with
      | nil =>
          rw [List.isEmpty_nil, if_pos rfl, List.append_nil]
          exact serves
      | cons byte rest =>
          unfold ForwarderServes at serves ⊢
          simp only [List.isEmpty_cons, Bool.false_eq_true, if_false, is_connected_data]
          exact serves

theorem forwarder_turn (opening : Bool) {books after : Books} {label : Label}
    (kept : Kept books) (serves : ForwarderServes books.forwarder)
    (taken : books.step label = some after) : (forwarderQueue opening).Turn books after := by
  obtain ⟨forwarder, moved, rfl⟩ := Option.map_eq_some_iff.mp taken
  cases moved_of_step moved with
  | connected place | connectFails place =>
      simp only [ForwarderServes, place] at serves
      exact .clear serves (congrArg List.length (List.append_nil _))
  | established place =>
      have stream := kept.stream
      have dropped := kept.serving (by rw [place]; exact id)
      simp only [ForwarderServes, place] at serves
      rw [place] at stream
      refine .begins serves rfl ?_ ?_
      · show books.before.length = (books.before ++ books.taken ++ books.dropped).length
        rw [stream.1, dropped, List.append_nil, List.append_nil]
      · show (books.before ++ books.taken).length =
          (books.before ++ books.taken ++ books.dropped).length
        rw [dropped, List.append_nil]
  | receive event poster rest place queue =>
      simp only [ForwarderServes, place] at serves
      exact .serve serves rfl
  | handshakeFails place | announce place =>
      refine .rest rfl rfl fun connected => ?_
      have disconnected := is_connected_disconnected false books.forwarder.upward
      exact absurd connected (Bool.eq_false_iff.mp disconnected)
  | drain event poster rest place queue =>
      refine .rest rfl rfl fun connected => ?_
      simpa only [forwarderQueue, Books.follow, drop_upward] using connected
  | read data reading =>
      refine .rest rfl rfl fun connected => ?_
      cases data with
      | nil => simpa only [forwarderQueue, Books.follow, List.isEmpty_nil, if_true,
          List.append_nil] using connected
      | cons byte rest => simpa only [forwarderQueue, Books.follow, List.isEmpty_cons,
          Bool.false_eq_true, if_false, is_connected_data] using connected
  | userData | userStop | written | writeFails | shutdown | finish | join | timeUp | readFails
  | post => exact .rest rfl rfl id

theorem forwarder_in_order (opening : Bool) :
    (forwarderQueue opening).InOrder fun books =>
      Kept books ∧ ForwarderServes books.forwarder where
  preserved := by
    intro books label next inv taken
    exact ⟨kept_step inv.1 taken, forwarder_serves_step inv.2 (forwarder_of_step taken)⟩
  grows := by
    intro books label next taken
    obtain ⟨forwarder, moved, rfl⟩ := Option.map_eq_some_iff.mp taken
    cases label with
    | userData data => exact List.prefix_append _ _
    | _ => exact List.prefix_rfl
  within := by
    intro books inv
    simp only [forwarderQueue, inv.1.queue, List.length_append]
    omega
  turn := fun books label next inv taken => forwarder_turn opening inv.1 inv.2 taken

end SerialForwarder

section Serial

open MoteConnection.SerialReceiving MoteConnection.SerialTransport MoteConnection.SerialSessions

def serialQueue (opening : Bool) : QueueSystem Books Label Bytes where
  step := Books.step
  entries := Books.enqueued
  begun := fun books => books.before.length
  served := fun books => (books.before ++ books.session.payloads).length
  gone := fun books => (books.before ++ books.session.payloads ++ books.dropped).length
  connected := fun books => isConnected false books.transport.upward
  disconnected := fun books => duringDisconnection opening books.transport.upward
  apart := fun books => not_during_connection opening books.transport.upward

def SerialServes (transport : Transport) : Prop :=
  match transport.position with
  | .serving => isConnected false transport.upward = true
  | .connecting | .joining | .draining | .finished =>
      isConnected false transport.upward = false
  | .signalling | .announcing | .panicked _ => True

variable {transport next : Transport}

theorem continue_serves {worker : SerialSending.ConnectionWorker}
    (serves : SerialServes transport) : SerialServes (transport.continueWith worker) := by
  unfold Transport.continueWith
  split
  · trivial
  · trivial
  · exact serves

theorem serial_connected_access (inv : TransportInv transport) {packets : List Bytes}
    {access : SharedAccess} {rest : List SharedAccess}
    (reader : transport.reader = .handling packets (access :: rest)) :
    isConnected false
        (({ transport with reader := .handling packets rest } : Transport).perform
          access).upward =
      isConnected false transport.upward := by
  have owed := inv.owed packets (access :: rest) reader access List.mem_cons_self
  rw [perform_upward]
  cases access with
  | sendLoopback event | removeUnacked seqNum => rw [upwardOf, List.append_nil]
  | sendTx event =>
      obtain ⟨data, rfl⟩ := owed
      rw [upwardOf, is_connected_data]

theorem serial_serves_step {label : Label} (inv : TransportInv transport)
    (serves : SerialServes transport) (taken : transport.step label = some next) :
    SerialServes next := by
  cases SerialTransport.moved_of_step taken with
  | opened place => exact is_connected_connected _ _
  | openFails place | timeUp place =>
      simp only [SerialServes, place] at serves
      exact serves
  | receive event rest worker place queue moved =>
      exact @continue_serves { transport with queue := rest } worker serves
  | work action worker place enabled moved =>
      exact @continue_serves { transport with
        port := transport.port ++ Transport.frameOf transport.worker action } worker serves
  | signal place =>
      unfold Transport.signalReader
      split <;> trivial
  | announce place => exact is_connected_disconnected _ _
  | join place reader =>
      simp only [SerialServes, place] at serves
      cases stopped : transport.stop <;> exact serves
  | joinPanics message place reader => trivial
  | drain event rest place queue =>
      cases event with
      | data data => exact serves
      | stop =>
          simp only [SerialServes, place] at serves
          exact serves
      | disconnected | connected | error => trivial
  | access packets access rest reader =>
      unfold SerialServes at serves ⊢
      rw [perform_position, serial_connected_access inv reader]
      exact serves
  | _ => exact serves

theorem payloads_of_perform (session : SerialRetransmission.Session) (access : SharedAccess) :
    (session.perform access).payloads = session.payloads := by
  cases access <;> rfl

theorem serial_turn (opening : Bool) {books after : Books} {label : Label}
    (inv : TransportInv books.transport) (serves : SerialServes books.transport)
    (taken : books.step label = some after) : (serialQueue opening).Turn books after := by
  obtain ⟨transport, moved, rfl⟩ := Option.map_eq_some_iff.mp taken
  cases SerialTransport.moved_of_step moved with
  | opened place =>
      simp only [SerialServes, place] at serves
      exact .begins serves rfl rfl (congrArg List.length (List.append_nil _))
  | receive event rest worker place queue moved =>
      simp only [SerialServes, place] at serves
      refine .serve serves ?_
      simp only [serialQueue, Books.follow, queue]
  | work action worker place enabled moved =>
      simp only [SerialServes, place] at serves
      exact .serve serves rfl
  | announce place =>
      refine .rest rfl rfl fun connected => ?_
      have disconnected := is_connected_disconnected false books.transport.upward
      exact absurd connected (Bool.eq_false_iff.mp disconnected)
  | drain event rest place queue =>
      refine .rest rfl rfl fun connected => ?_
      simpa only [serialQueue, Books.follow, drop_upward] using connected
  | signal place =>
      refine .rest rfl rfl fun connected => ?_
      simpa only [serialQueue, Books.follow, signal_upward] using connected
  | access packets access rest reader =>
      refine .rest ?_ ?_ fun connected => ?_
      · simp only [serialQueue, Books.follow, reader]
      · simp only [serialQueue, Books.follow, reader, payloads_of_perform]
      · simp only [serialQueue, Books.follow, reader] at connected
        rw [serial_connected_access inv reader] at connected
        exact connected
  | _ => exact .rest rfl rfl id

theorem serial_in_order (opening : Bool) :
    (serialQueue opening).InOrder fun books =>
      Kept books ∧ TransportInv books.transport ∧ SerialServes books.transport where
  preserved := by
    intro books label next inv taken
    obtain ⟨kept, transportInv, serves⟩ := inv
    have moved := transport_of_step taken
    exact ⟨kept_step kept taken, transport_inv_step _ _ _ transportInv moved,
      serial_serves_step transportInv serves moved⟩
  grows := by
    intro books label next taken
    obtain ⟨transport, moved, rfl⟩ := Option.map_eq_some_iff.mp taken
    simp only [serialQueue]
    unfold Books.follow
    split
    · exact List.prefix_append _ _
    · exact List.prefix_rfl
    · split <;> exact List.prefix_rfl
    · exact List.prefix_rfl
    · exact List.prefix_rfl
    · split
      · exact List.prefix_append _ _
      · exact List.prefix_rfl
    · exact List.prefix_rfl
  within := by
    intro books inv
    simp only [serialQueue, inv.1.queue, List.length_append]
    omega
  turn := fun books label next inv taken => serial_turn opening inv.2.1 inv.2.2 taken

end Serial

section Dropped

variable {State Label : Type}

theorem served_of_log (system : QueueSystem State Label Bytes) {logged : Logged State Bytes}
    {before taken later : List Bytes}
    (log : logged.log.map Prod.fst = before ++ taken ++ later)
    (begun : system.begun logged.state = before.length)
    (served : system.served logged.state = (before ++ taken).length) :
    (system.servedOf logged).map Prod.fst = taken := by
  rw [QueueSystem.servedOf, List.map_take, List.map_drop, log, begun, served, List.append_assoc,
    List.drop_left, List.length_append, Nat.add_sub_cancel_left, List.take_left]

/-- A stream has the greeting and the frames of what was served, up to where a write failed. -/
def StreamCarries (stream : Bytes) (served : List (Bytes × Bool)) : Prop :=
  stream = [] ∨ ∃ rest, stream = ForwarderSessions.greeting ++ rest ∧
    rest <+: ForwarderSessions.framed (served.map Prod.fst)

/-- A port has frames of what was served, each a packet with the number of its place. -/
def PortCarries (port : Bytes) (served : List (Bytes × Bool)) : Prop :=
  ∃ writes : List PortWrite, port = writes.flatMap (·.frame) ∧
    ∀ write ∈ writes, ∃ entry, served[write.packet]? = some entry ∧
      write.frame = writeToStream (AckPacket.new (seqNumOf write.packet) entry.1).intoBytes

end Dropped

section Examples

open MoteConnection.ForwarderTransport MoteConnection.ForwarderSessions

def cleanReconnect : List Label :=
  [.connect true, .handshake true, .read none, .post, .receive, .shutdown, .announce, .join,
    .userData [0x2A], .drain, .timeUp, .connect true, .handshake true, .userData [0x2B],
    .receive, .write none]

end Examples

end MoteConnection.DisconnectedData
