import MoteConnection.ConnectionWorkers
import MoteConnection.ForwarderStream

/-!
# ActiveMessages over a serial forwarder

The way of an ActiveMessage from the sender of one connection to the dispatcher
of another: its bytes get the dispatch byte in front, then the length byte of
the serial forwarder, and lose them again on the other side. The codec and the
serial forwarder each allow 255 bytes, and the dispatch byte is one of the
latter's: a message of 255 bytes is too large for the stream, and dropped.
-/

namespace MoteConnection.ActiveMessageForwarding

open FanOut LengthPrefix SegmentedInput
open MoteConnection.Runtime MoteConnection.ActiveMessages MoteConnection.ConnectionWorkers
open MoteConnection.ForwarderStream
open Outcome

set_option autoImplicit false

/-- `Into<Event<Bytes>>` of a message, which is what a user sends on the `tx` of a dispatcher. -/
def intoEvent (message : Message) : Event Bytes := .data message.intoBytes

/-- The `DispatcherWorker` of the ActiveMessage dispatcher, on what its users send. -/
def sendDown : List Message → Outcome (List (Event Bytes))
  | [] => returned []
  | message :: rest => do
      let event ← DispatcherWorker.handleData ⟨0x00⟩ (intoEvent message)
      return event :: (← sendDown rest)

/-- The `TransportWorker` on what a read thread sends it, and what that comes to for the dispatcher
of one byte. -/
def demultiplex (worker : TransportWorker UInt8) (order : List UInt8) (byte : UInt8) :
    List Sent → Outcome (List (Event Bytes))
  | [] => returned []
  | .tx event :: rest => do
      let sends ← worker.handleData order event
      return addressed byte sends ++ (← demultiplex worker order byte rest)
  | .loopbackTx _ :: rest => demultiplex worker order byte rest

def parseAll (overflowChecks : Bool) : List (Event Bytes) → Outcome (List Message)
  | [] => returned []
  | .data data :: rest => do
      match ← Message.tryFrom overflowChecks data with
      | .ok message => return message :: (← parseAll overflowChecks rest)
      | .error _ => parseAll overflowChecks rest
  | _ :: rest => parseAll overflowChecks rest

def receiveUp {Input Uuid Who : Type} (overflowChecks : Bool) (peer : Dispatchers Uuid Who)
    (order : List UInt8) (reader : ExactReader UInt8 Input) (input : Input) :
    Outcome (List Message) := do
  let events ← demultiplex peer.worker order 0x00 (TcpWorker.start reader input)
  parseAll overflowChecks events

/-- The message states the length of its payload and fits in the 255 bytes of the codec. -/
def Encodable (message : Message) : Prop :=
  message.length.toNat = message.payload.length ∧
    7 + message.payload.length + message.metadata.length ≤ 255

def fitsStream (message : Message) : Bool :=
  decide (7 + message.payload.length + message.metadata.length ≤ 254)

/-- What the `DispatcherWorker` hands to the transport. -/
def packetOf (message : Message) : Bytes := [0x00] ++ message.intoBytes

theorem send_down_returned (messages : List Message) :
    sendDown messages = returned (messages.map fun message => .data (packetOf message)) := by
  induction messages with
  | nil => rfl
  | cons message rest induction =>
      rw [sendDown, induction]
      rfl

theorem packet_length (message : Message) :
    (packetOf message).length = 8 + message.payload.length + message.metadata.length := by
  simp only [packetOf, Message.intoBytes, toBeBytes, List.length_append, List.length_cons,
    List.length_nil]
  omega

theorem fits_packet (message : Message) : fits (packetOf message) = fitsStream message := by
  rw [fits, fitsStream, packet_length]
  apply decide_eq_decide.mpr
  omega

theorem stream_of_messages (messages : List Message) :
    ConnectionWorker.start (messages.map fun message => .data (packetOf message)) =
      returned (((messages.filter fitsStream).map packetOf).flatMap frame, none) := by
  have packets : messages.map (fun message => Event.data (packetOf message)) =
      (messages.map packetOf).map Event.data := by
    rw [List.map_map]
    rfl
  have kept : (messages.map packetOf).filter fits = (messages.filter fitsStream).map packetOf := by
    rw [List.filter_map]
    congr 1
    apply List.filter_congr
    intro message _
    exact fits_packet message
  rw [packets, connection_worker_start, kept]

section Receiving

variable {Uuid Who : Type} (peer : Dispatchers Uuid Who)

theorem handle_packet {am : ActiveMessageRouting.ConnectionWorker Uuid Who}
    (registered : .am am ∈ peer.list) (order : List UInt8) (message : Message) :
    peer.worker.handleData order (.data (packetOf message)) =
      returned [(0x00, .data message.intoBytes)] := by
  have listed : (0x00 : UInt8) ∈ peer.bytes := List.mem_map.mpr ⟨.am am, registered, rfl⟩
  have found : peer.worker.txs.lookup 0x00 = some 0x00 := by rw [worker_lookup, if_pos listed]
  have rest : sliceFrom (0x00 :: message.intoBytes) 1 = returned message.intoBytes := by
    simp [sliceFrom]
  simp only [packetOf, List.singleton_append, TransportWorker.handleData, TransportWorker.send,
    index_zero_cons, returned_bind, found, rest, pure_eq]

theorem demultiplex_packets {am : ActiveMessageRouting.ConnectionWorker Uuid Who}
    (registered : .am am ∈ peer.list) (order : List UInt8) (messages : List Message) :
    demultiplex peer.worker order 0x00
        (emitted (messages.map packetOf) ++ [.loopbackTx .disconnected]) =
      returned (messages.map intoEvent) := by
  induction messages with
  | nil => rfl
  | cons message rest induction =>
      have first : emitted ((message :: rest).map packetOf) =
          .tx (.data (packetOf message)) :: emitted (rest.map packetOf) := rfl
      rw [first, List.cons_append, demultiplex, handle_packet peer registered, returned_bind,
        induction]
      rfl

theorem parse_all_encoded (overflowChecks : Bool) (messages : List Message)
    (encodable : ∀ message ∈ messages, Encodable message) :
    parseAll overflowChecks (messages.map intoEvent) = returned messages := by
  induction messages with
  | nil => rfl
  | cons message rest induction =>
      have parsed : Message.tryFrom overflowChecks message.intoBytes = returned (.ok message) :=
        (try_from_ok overflowChecks _ message).mpr ⟨rfl, encodable message List.mem_cons_self⟩
      have later := induction fun other member => encodable other (List.mem_cons_of_mem _ member)
      rw [List.map_cons, intoEvent, parseAll, parsed, returned_bind]
      simp only [later, returned_bind, pure_eq]

/-- The peer gets the messages whose packets are on the stream. -/
theorem receive_up_packets {Input : Type} (overflowChecks : Bool)
    {am : ActiveMessageRouting.ConnectionWorker Uuid Who} (registered : .am am ∈ peer.list)
    (order : List UInt8) (reader : ExactReader UInt8 Input) {input : Input}
    {messages : List Message} (encodable : ∀ message ∈ messages, Encodable message)
    (fitting : ∀ message ∈ messages, fitsStream message)
    (content : reader.content input = (messages.map packetOf).flatMap frame) :
    receiveUp overflowChecks peer order reader input = returned messages := by
  have bounded : ∀ packet ∈ messages.map packetOf, packet.length ≤ 255 := by
    intro packet member
    obtain ⟨message, present, same⟩ := List.mem_map.mp member
    have room := fitting message present
    rw [← fits_packet, same] at room
    exact of_decide_eq_true room
  have splits := splits_of_packets bounded
  rw [← content] at splits
  rw [receiveUp, start_of_splits reader splits, demultiplex_packets peer registered,
    returned_bind, parse_all_encoded overflowChecks messages encodable]

/-- Messages sent on one connection arrive at the ActiveMessage dispatcher of the other in order
and unchanged, except that a message of 255 bytes does not arrive. -/
theorem messages_forwarded {Input : Type} (overflowChecks : Bool)
    (am : ActiveMessageRouting.ConnectionWorker Uuid Who) (registered : .am am ∈ peer.list)
    (order : List UInt8) (reader : ExactReader UInt8 Input) (messages : List Message)
    (encodable : ∀ message ∈ messages, Encodable message) :
    ∃ events stream, sendDown messages = returned events ∧
      ConnectionWorker.start events = returned (stream, none) ∧
      ∀ input, reader.content input = stream →
        receiveUp overflowChecks peer order reader input =
          returned (messages.filter fitsStream) := by
  refine ⟨_, _, send_down_returned messages, stream_of_messages messages, ?_⟩
  intro input content
  apply receive_up_packets peer overflowChecks registered order reader _ _ content
  · intro message member
    exact encodable message (List.mem_filter.mp member).1
  · intro message member
    exact (List.mem_filter.mp member).2

end Receiving

def amPeer : Dispatchers Nat Nat := ⟨[.am ⟨0x0001, none, .default⟩], by simp⟩

def small : Message := ⟨0xFFFF, 0x0001, 1, 0x22, 0x00, [0x2A], []⟩

/-- A message that the codec has room for, and the stream has not. -/
def largest : Message := ⟨0xFFFF, 0x0001, 248, 0x22, 0x00, List.replicate 248 0x00, []⟩

theorem largest_encodable : Encodable largest := by
  constructor
  · rw [largest, List.length_replicate]
    rfl
  · rw [largest, List.length_replicate]
    decide

theorem largest_unfit : fitsStream largest = false := by
  rw [fitsStream, largest, List.length_replicate]
  decide

theorem small_and_largest_forwarded :
    ∃ events stream, sendDown [small, largest] = returned events ∧
      ConnectionWorker.start events = returned (stream, none) ∧
      ∀ input : List Bytes, ExactReader.ofPieces.content input = stream →
        receiveUp true amPeer [0x00] ExactReader.ofPieces input =
          returned ([small, largest].filter fitsStream) := by
  apply messages_forwarded amPeer true ⟨0x0001, none, .default⟩ List.mem_cons_self
  intro message member
  rcases List.mem_cons.mp member with same | last
  · rw [same]
    exact ⟨rfl, by decide⟩
  · rw [List.mem_singleton.mp last]
    exact largest_encodable

/-- The codec accepts the message, nothing is written for it, and nothing arrives. -/
theorem largest_message_dropped :
    Message.tryFrom true largest.intoBytes = returned (.ok largest) ∧
    ∃ events, sendDown [largest] = returned events ∧
      ConnectionWorker.start events = returned ([], none) ∧
      receiveUp true amPeer [0x00] ExactReader.ofPieces [] = returned [] := by
  have dropped : [largest].filter fitsStream = [] := by
    rw [List.filter_cons, largest_unfit]
    rfl
  refine ⟨(try_from_ok true _ largest).mpr ⟨rfl, largest_encodable⟩, _,
    send_down_returned [largest], ?_, ?_⟩
  · rw [stream_of_messages, dropped]
    rfl
  · apply receive_up_packets amPeer true (List.mem_cons_self : .am _ ∈ amPeer.list) [0x00]
    · intro message member
      cases member
    · intro message member
      cases member
    · rfl

end MoteConnection.ActiveMessageForwarding
