import MoteConnection.ConnectionWorkers
import MoteConnection.ForwarderStream
import MoteConnection.SerialDuplicates
import MoteConnection.TransportEvents

/-!
# The packets that a transport hands up

The `TransportWorker` takes the first byte of a packet without a look at its
length. The transports see to it that there is one: the serial forwarder drops
the packets of length zero, and each parser of a serial packet asks for one byte
more than its header and checksum take. So no input from the wire makes the
`TransportWorker` panic, whatever dispatchers it serves. Shutting a stream down,
cloning a stream or a port and spawning a thread succeed in these runs.
-/

namespace MoteConnection.UpwardPackets

open LabeledRuns SegmentedInput LengthPrefix
open MoteConnection.Runtime MoteConnection.ActiveMessages MoteConnection.ConnectionWorkers
open MoteConnection.SerialPackets MoteConnection.SerialReceiving MoteConnection.ForwarderStream
open Outcome

set_option autoImplicit false

/-- The accesses that `TransportWorker::send` makes to a packet are in range. -/
structure InRange (data : Bytes) : Prop where
  nonempty : data ≠ []
  first : (index data 0).Returns
  rest : (sliceFrom data 1).Returns
  dispatched : ∀ {Channel : Type} (worker : TransportWorker Channel) (order : List UInt8),
    (worker.handleData order (.data data)).Returns

theorem in_range_of_nonempty {data : Bytes} (nonempty : data ≠ []) : InRange data := by
  obtain ⟨first, rest, split⟩ := List.exists_cons_of_ne_nil nonempty
  constructor
  · exact nonempty
  · rw [split, index_zero_cons]
    exact returned_returns _
  · rw [split, sliceFrom, if_neg (by simp)]
    exact returned_returns _
  · intro Channel worker order
    exact (transport_worker_returns_iff worker order _).mpr nonempty

theorem nonempty_of_emitted {packets : List Bytes} {data : Bytes}
    (sent : Sent.tx (.data data) ∈ emitted packets) : data ≠ [] := by
  obtain ⟨packet, member, same⟩ := List.mem_map.mp sent
  cases same
  have kept := (List.mem_filter.mp member).2
  intro empty
  rw [empty] at kept
  cases kept

theorem tcp_worker_sends_nonempty {Input : Type} (reader : ExactReader UInt8 Input) (input : Input)
    {data : Bytes} (sent : Sent.tx (.data data) ∈ TcpWorker.start reader input) : data ≠ [] := by
  obtain ⟨packets, rest, splits⟩ := splits_exists (reader.content input)
  rw [start_of_splits reader splits] at sent
  rcases List.mem_append.mp sent with sent | notice
  · exact nonempty_of_emitted sent
  · cases List.mem_singleton.mp notice

def SendsDispatchable (accesses : List SharedAccess) : Prop :=
  ∀ event, .sendTx event ∈ accesses → Dispatchable event

theorem serial_worker_sends_dispatchable {worker next : SerialWorker} {now : Instant}
    {data : Bytes} {accesses : List SharedAccess}
    (handled : worker.handleData now data = returned (next, accesses)) :
    SendsDispatchable accesses := by
  intro event sent
  rcases accesses_of_handle_data handled with same | ⟨seqNum, content, nonempty, _, same⟩ |
    ⟨seqNum, _, same⟩ | ⟨content, nonempty, _, same⟩
  · rw [same] at sent
    cases sent
  · rw [same] at sent
    simp only [List.mem_cons, reduceCtorEq, SharedAccess.sendTx.injEq, List.not_mem_nil,
      or_false, false_or] at sent
    rw [sent]
    exact nonempty
  · rw [same] at sent
    cases List.mem_singleton.mp sent
  · rw [same] at sent
    cases List.mem_singleton.mp sent
    exact nonempty

def TurnsDispatchable (received : SerialDuplicates.Received) : Prop :=
  ∀ turn ∈ received.turns, SendsDispatchable turn.accesses

theorem turns_dispatchable_step (received : SerialDuplicates.Received)
    (arrival : SerialDuplicates.Arrival) (next : SerialDuplicates.Received)
    (kept : TurnsDispatchable received)
    (taken : SerialDuplicates.step received arrival = some next) : TurnsDispatchable next := by
  obtain ⟨after, accesses, handled, same⟩ := SerialDuplicates.step_eq_some.mp taken
  intro turn member
  rw [same] at member
  rcases List.mem_append.mp member with old | new
  · exact kept turn old
  · rw [List.mem_singleton.mp new]
    exact serial_worker_sends_dispatchable handled

/-- No input from the wire makes a transport hand up a packet that the `TransportWorker` cannot
take apart. -/
theorem wire_packets_in_range :
    (∀ {Input : Type} (reader : ExactReader UInt8 Input) (input : Input) (data : Bytes),
      Sent.tx (.data data) ∈ TcpWorker.start reader input → InRange data) ∧
    ∀ (worker : SerialWorker) (arrivals : List SerialDuplicates.Arrival)
      (last : SerialDuplicates.Received),
      run SerialDuplicates.step (.start worker) arrivals = some last →
        ∀ turn ∈ last.turns, ∀ data, .sendTx (.data data) ∈ turn.accesses → InRange data := by
  constructor
  · intro Input reader input data sent
    exact in_range_of_nonempty (tcp_worker_sends_nonempty reader input sent)
  · intro worker arrivals last reached turn member data sent
    have start : TurnsDispatchable (.start worker) := by
      intro turn none
      cases none
    have dispatchable := invariant_of_run turns_dispatchable_step start reached
    exact in_range_of_nonempty (dispatchable turn member (.data data) sent)

theorem empty_packet_dropped :
    TcpWorker.start ExactReader.ofPieces [[0x00, 0x01, 0x2A]] =
        [.tx (.data [0x2A]), .loopbackTx .disconnected] ∧
    InRange [0x2A] ∧
    ∃ last, run SerialDuplicates.step (.start .new) [⟨0, (NoAckPacket.new [0x2B]).intoBytes⟩] =
        some last ∧
      last.turns.map (·.accesses) = [[.sendTx (.data [0x2B])]] ∧ InRange [0x2B] := by
  have handed : TcpWorker.start ExactReader.ofPieces [[0x00, 0x01, 0x2A]] =
      [.tx (.data [0x2A]), .loopbackTx .disconnected] := by
    have splits : Splits (ExactReader.ofPieces.content [[0x00, 0x01, 0x2A]]) [[], [0x2A]] [] :=
      ⟨rfl, by simp, trivial⟩
    rw [start_of_splits ExactReader.ofPieces splits]
    rfl
  have forwarder := wire_packets_in_range.1 ExactReader.ofPieces [[0x00, 0x01, 0x2A]] [0x2A]
    (by rw [handed]; exact List.mem_cons_self)
  have turns : (run SerialDuplicates.step (.start .new)
      [⟨0, (NoAckPacket.new [0x2B]).intoBytes⟩]).map (fun last => last.turns.map (·.accesses)) =
        some [[.sendTx (.data [0x2B])]] := by
    decide +kernel
  obtain ⟨last, reached, accesses⟩ := Option.map_eq_some_iff.mp turns
  obtain ⟨turn, member, sends⟩ : ∃ turn ∈ last.turns, turn.accesses = [.sendTx (.data [0x2B])] := by
    rw [List.map_eq_singleton_iff] at accesses
    obtain ⟨turn, only, same⟩ := accesses
    exact ⟨turn, by rw [only]; exact List.mem_cons_self, same⟩
  have serial := wire_packets_in_range.2 .new _ last reached turn member [0x2B]
    (by rw [sends]; exact List.mem_cons_self)
  exact ⟨handed, forwarder, last, reached, accesses, serial⟩

def ForwarderDispatchable (forwarder : ForwarderTransport.Forwarder) : Prop :=
  ∀ event ∈ forwarder.upward, Dispatchable event

theorem forwarder_dispatchable_step (forwarder : ForwarderTransport.Forwarder)
    (label : ForwarderTransport.Label) (next : ForwarderTransport.Forwarder)
    (kept : ForwarderDispatchable forwarder) (taken : forwarder.step label = some next) :
    ForwarderDispatchable next := by
  have notice {event : Event Bytes} (dispatchable : Dispatchable event) :
      ∀ other ∈ forwarder.upward ++ [event], Dispatchable other := by
    intro other member
    rcases List.mem_append.mp member with old | new
    · exact kept other old
    · rw [List.mem_singleton.mp new]
      exact dispatchable
  cases ForwarderTransport.moved_of_step taken with
  | established place | handshakeFails place | announce place => exact notice trivial
  | read data reading =>
      cases data with
      | nil =>
          intro event member
          rcases List.mem_append.mp member with old | none
          · exact kept event old
          · cases none
      | cons first rest => exact notice (List.cons_ne_nil first rest)
  | receive event poster rest place queue =>
      intro other member
      rw [ForwarderTransport.serve_upward] at member
      exact kept other member
  | drain event poster rest place queue =>
      intro other member
      rw [ForwarderTransport.drop_upward] at member
      exact kept other member
  | _ => exact kept

/-- The packet in hand of the read thread, and all that went upward before. -/
structure UpwardInv (transport : SerialTransport.Transport) : Prop where
  upward : ∀ event ∈ transport.upward, Dispatchable event
  inHand : ∀ packets accesses, transport.reader = .handling packets accesses →
    SendsDispatchable accesses

theorem UpwardInv.access {transport : SerialTransport.Transport} {packets : List Bytes}
    {access : SharedAccess} {rest : List SharedAccess} (inv : UpwardInv transport)
    (reader : transport.reader = .handling packets (access :: rest)) :
    UpwardInv ({ transport with reader := .handling packets rest }.perform access) := by
  have inHand := inv.inHand packets _ reader
  constructor
  · intro event member
    rw [SerialTransport.perform_upward] at member
    rcases List.mem_append.mp member with old | new
    · exact inv.upward event old
    · cases access with
      | sendTx sent =>
          rw [List.mem_singleton.mp new]
          exact inHand sent List.mem_cons_self
      | sendLoopback _ | removeUnacked _ => cases new
  · have left : ∀ others accesses,
        SerialTransport.Reader.handling packets rest = .handling others accesses →
          SendsDispatchable accesses := by
      intro others accesses same event sent
      cases same
      exact inHand event (List.mem_cons_of_mem _ sent)
    cases access with
    | sendLoopback event =>
        simp only [SerialTransport.Transport.perform]
        split
        · intro others accesses same
          cases same
        · exact left
    | sendTx event => exact left
    | removeUnacked seqNum => exact left

theorem upward_inv_step {transport next : SerialTransport.Transport}
    {label : SerialTransport.Label} (inv : UpwardInv transport)
    (taken : transport.step label = some next) : UpwardInv next := by
  have notice {event : Event Bytes} (dispatchable : Dispatchable event) :
      ∀ other ∈ transport.upward ++ [event], Dispatchable other := by
    intro other member
    rcases List.mem_append.mp member with old | new
    · exact inv.upward other old
    · rw [List.mem_singleton.mp new]
      exact dispatchable
  have emptyHanded {reader : SerialTransport.Reader}
      (none : ∀ packets accesses, reader = .handling packets accesses → accesses = []) :
      ∀ packets accesses, reader = .handling packets accesses → SendsDispatchable accesses := by
    intro packets accesses same event sent
    rw [none packets accesses same] at sent
    cases sent
  cases SerialTransport.moved_of_step taken with
  | opened place => exact ⟨notice trivial, emptyHanded fun _ _ same => by cases same⟩
  | announce place => exact ⟨notice trivial, inv.inHand⟩
  | receive event rest worker place queue moved =>
      constructor
      · rw [SerialTransport.continue_upward]
        exact inv.upward
      · rw [SerialTransport.continue_reader]
        exact inv.inHand
  | work action worker place enabled moved =>
      constructor
      · rw [SerialTransport.continue_upward]
        exact inv.upward
      · rw [SerialTransport.continue_reader]
        exact inv.inHand
  | signal place =>
      constructor
      · rw [SerialTransport.signal_upward]
        exact inv.upward
      · rw [SerialTransport.signal_reader]
        exact inv.inHand
  | drain event rest place queue =>
      constructor
      · rw [SerialTransport.drop_upward]
        exact inv.upward
      · rw [SerialTransport.drop_reader]
        exact inv.inHand
  | join place reader | readFails serialWorker reader | handlePanics now message packets
  | stopped reader signal | notStopped reader =>
      exact ⟨inv.upward, emptyHanded fun _ _ same => by cases same⟩
  | read result serialWorker packets reader =>
      exact ⟨inv.upward, emptyHanded fun _ _ same => by cases same; rfl⟩
  | handle now data rest serialWorker accesses reader handled =>
      refine ⟨inv.upward, ?_⟩
      intro packets others same
      cases same
      exact serial_worker_sends_dispatchable handled
  | access packets access rest reader => exact inv.access reader
  | _ => exact ⟨inv.upward, inv.inHand⟩

theorem serial_upward_dispatchable {labels : List SerialTransport.Label}
    {last : SerialTransport.Transport}
    (reached : run SerialTransport.Transport.step .fresh labels = some last) :
    ∀ event ∈ last.upward, Dispatchable event := by
  have fresh : UpwardInv .fresh := by
    constructor
    · intro event member
      cases member
    · intro packets accesses same
      cases same
  exact (invariant_of_run (fun _ _ _ inv taken => upward_inv_step inv taken) fresh reached).upward

end MoteConnection.UpwardPackets
