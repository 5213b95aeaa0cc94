import MoteConnection.Library.LengthPrefix
import MoteConnection.Library.SegmentedInput
import MoteConnection.ForwarderTransport

/-!
# The bytes of a serial-forwarder session

The read loop of `TcpWorker` over any input that is read by exact counts, the
write loop of `ConnectionWorker` over a stream that takes every write, and
`do_handshake` over input that arrives in pieces. Removing the read timeout of
a stream succeeds.
-/

namespace MoteConnection.ForwarderStream

open LabeledRuns SegmentedInput LengthPrefix
open MoteConnection.Runtime MoteConnection.ForwarderTransport
open Outcome

set_option autoImplicit false

/-- What the read thread sends on its two channels, in program order. -/
inductive Sent
  | tx (event : Event Bytes)
  | loopbackTx (event : Event Bytes)
  deriving DecidableEq, Repr

namespace TcpWorker

variable {Input : Type} (reader : ExactReader UInt8 Input)

/-- The buffer for the length holds a zero before the read. -/
def readFromStream (input : Input) : Option (Bytes × Input) := do
  let (packetLength, input) ← reader.readExact 1 input
  reader.readExact (packetLength.headD 0).toNat input

theorem read_from_stream_consumes {input left : Input} {data : Bytes}
    (taken : readFromStream reader input = some (data, left)) :
    (reader.content left).length < (reader.content input).length := by
  obtain ⟨⟨packetLength, middle⟩, lengthRead, bodyRead⟩ := Option.bind_eq_some_iff.mp taken
  obtain ⟨one, before⟩ := reader.of_some lengthRead
  obtain ⟨_, after⟩ := reader.of_some bodyRead
  rw [before, after, List.length_append, List.length_append, one]
  omega

def start (input : Input) : List Sent :=
  match found : readFromStream reader input with
  | some (data, left) => (if data.isEmpty then [] else [.tx (.data data)]) ++ start left
  | none => [.loopbackTx .disconnected]
termination_by (reader.content input).length
decreasing_by exact read_from_stream_consumes reader found

end TcpWorker

/-- `ConnectionWorker::start` on the events it receives, while the stream takes every write: what it
has written, and what it has returned, if it has. -/
def ConnectionWorker.start : List (Event Bytes) → Outcome (Bytes × Option Bool)
  | [] => returned ([], none)
  | .data data :: rest =>
      match writeToStream data with
      | .ok bytes => do
          let (later, result) ← ConnectionWorker.start rest
          return (bytes ++ later, result)
      | .error _ => ConnectionWorker.start rest
  | .disconnected :: _ => returned ([], some false)
  | .stop :: _ => returned ([], some true)
  | other :: _ => panicked s!"Unexpected event {other.debugName}"

/-- What `do_handshake` meets behind the last piece. -/
inductive Ending
  | closed
  | failed
  deriving DecidableEq, Repr

/-- The pieces left behind the handshake, or the error. -/
def doHandshake (ending : Ending) (responseSent : Bool) (pieces : List Bytes) :
    Except String (List Bytes) :=
  match ending, pieces with
  | .failed, [] => .error "Error while establishing connection!"
  | _, pieces =>
      let (buf, left) := read 2 pieces
      match buf with
      | [first, second] =>
          if first ≠ protocolByte then .error "Incorrect protocol byte!"
          else if second ≠ versionByte then .error "Incorrect protocol version!"
          else if responseSent then .ok left
          else .error "Handshake response failed to send!"
      | _ => .error "Handshake length was incorrect!"

def session (ending : Ending) (responseSent : Bool) (pieces : List Bytes) :
    Except String (List Sent) :=
  (doHandshake ending responseSent pieces).map (TcpWorker.start ExactReader.ofPieces)

/-- A packet that is announced with its own length. -/
def fits (packet : Bytes) : Bool := decide (packet.length ≤ 255)

def emitted (packets : List Bytes) : List Sent :=
  (packets.filter fun packet => !packet.isEmpty).map fun packet => .tx (.data packet)

section Reading

variable {Input : Type} (reader : ExactReader UInt8 Input)

theorem read_from_stream_frame {input : Input} {packet rest : Bytes}
    (bounded : packet.length ≤ 255) (front : reader.content input = frame packet ++ rest) :
    ∃ left, TcpWorker.readFromStream reader input = some (packet, left) ∧
      reader.content left = rest := by
  obtain ⟨middle, lengthRead, behind⟩ := reader.take_one front
  obtain ⟨left, bodyRead, remaining⟩ := reader.take_prefix packet behind
  refine ⟨left, ?_, remaining⟩
  rw [TcpWorker.readFromStream, lengthRead]
  simp only [Option.bind_eq_bind, Option.bind_some, List.headD_cons, length_byte bounded, bodyRead]

theorem read_from_stream_incomplete {input : Input}
    (incomplete : Incomplete (reader.content input)) :
    TcpWorker.readFromStream reader input = none := by
  cases content : reader.content input with
  | nil =>
      have short : (reader.content input).length < 1 := by
        rw [content]
        exact Nat.zero_lt_one
      rw [TcpWorker.readFromStream, reader.fails 1 input short]
      rfl
  | cons length body =>
      rw [content] at incomplete
      obtain ⟨middle, lengthRead, behind⟩ := reader.take_one content
      have short : (reader.content middle).length < length.toNat := by
        rw [behind]
        exact incomplete
      rw [TcpWorker.readFromStream, lengthRead]
      exact reader.fails _ middle short

/-- The read loop goes packet by packet through the split of its content. -/
theorem start_of_splits {input : Input} {packets : List Bytes} {rest : Bytes}
    (splits : Splits (reader.content input) packets rest) :
    TcpWorker.start reader input = emitted packets ++ [.loopbackTx .disconnected] := by
  induction packets generalizing input with
  | nil =>
      have incomplete : Incomplete (reader.content input) := by
        rw [splits.joined]
        exact splits.incomplete
      have ended := read_from_stream_incomplete reader incomplete
      rw [TcpWorker.start]
      split
      · rename_i data left found
        rw [ended] at found
        cases found
      · rfl
  | cons packet packets induction =>
      have bounded := splits.bounded packet List.mem_cons_self
      have front : reader.content input = frame packet ++ (packets.flatMap frame ++ rest) := by
        rw [splits.joined, List.flatMap_cons, List.append_assoc]
      obtain ⟨left, taken, remaining⟩ := read_from_stream_frame reader bounded front
      have later : Splits (reader.content left) packets rest :=
        ⟨remaining, fun other member => splits.bounded other (List.mem_cons_of_mem _ member),
          splits.incomplete⟩
      rw [TcpWorker.start]
      split
      · rename_i data next found
        rw [taken] at found
        cases found
        rw [induction later]
        cases packet with
        | nil => rfl
        | cons byte bytes => rfl
      · rename_i found
        rw [taken] at found
        cases found

end Reading

theorem connection_worker_start (packets : List Bytes) :
    ConnectionWorker.start (packets.map .data) =
      returned ((packets.filter fits).flatMap frame, none) := by
  induction packets with
  | nil => rfl
  | cons packet packets induction =>
      rw [List.map_cons, ConnectionWorker.start, writeToStream, List.filter_cons]
      by_cases bounded : packet.length ≤ 255
      · have fitting : fits packet = true := decide_eq_true bounded
        rw [if_pos bounded, if_pos fitting, List.flatMap_cons]
        simp only [induction, returned_bind, pure_eq]
        rfl
      · have oversized : ¬ fits packet = true := fun fitting => bounded (of_decide_eq_true fitting)
        rw [if_neg bounded, if_neg oversized]
        exact induction

/-- What the write thread does by itself as long as its writes succeed. -/
def servesOn : Label → Bool
  | .receive => true
  | .write failed => failed.isNone
  | _ => false

/-- The transport in a session does the same: it takes the packets from its queue and adds their
frames to the stream. -/
theorem forwarder_sends {forwarder : Forwarder} (packets : List Bytes)
    (place : forwarder.position = .serving) {rest : List (Event Bytes × Option Nat)}
    (queue : forwarder.queue = packets.map (fun packet => (.data packet, none)) ++ rest) :
    ∃ labels, (∀ label ∈ labels, servesOn label = true) ∧
      run Forwarder.step forwarder labels = some { forwarder with
        queue := rest
        stream := forwarder.stream ++ (packets.filter fits).flatMap frame } := by
  induction packets generalizing forwarder with
  | nil =>
      refine ⟨[], List.forall_mem_nil _, ?_⟩
      rw [List.map_nil, List.nil_append] at queue
      rw [run_nil, ← queue, List.filter_nil, List.flatMap_nil, List.append_nil]
  | cons packet packets induction =>
      rw [List.map_cons, List.cons_append] at queue
      rw [List.filter_cons]
      by_cases bounded : packet.length ≤ 255
      · have fitting : fits packet = true := decide_eq_true bounded
        obtain ⟨labels, own, reached⟩ := @induction { forwarder with
          queue := packets.map (fun packet => (.data packet, none)) ++ rest
          stream := forwarder.stream ++ frame packet } place rfl
        refine ⟨.receive :: .write none :: labels, ?_, ?_⟩
        · simpa [servesOn] using own
        rw [if_pos fitting, List.flatMap_cons, ← List.append_assoc, ← reached]
        simp only [run_cons, Forwarder.step, place, queue, Forwarder.serve, writeToStream,
          if_pos bounded, Option.bind_some]
        rfl
      · have oversized : ¬ fits packet = true := fun fitting => bounded (of_decide_eq_true fitting)
        obtain ⟨labels, own, reached⟩ := @induction { forwarder with
          queue := packets.map (fun packet => (.data packet, none)) ++ rest } place rfl
        refine ⟨.receive :: labels, ?_, ?_⟩
        · simpa [servesOn] using own
        rw [if_neg oversized, ← reached]
        simp only [run_cons, Forwarder.step, place, queue, Forwarder.serve, writeToStream,
          if_neg bounded, Option.bind_some]

theorem emitted_fitting (packets : List Bytes) :
    emitted (packets.filter fits) =
      (packets.filter fun packet => decide (1 ≤ packet.length ∧ packet.length ≤ 255)).map
        fun packet => .tx (.data packet) := by
  rw [emitted, List.filter_filter]
  congr 1
  apply List.filter_congr
  intro packet _
  cases packet with
  | nil => rfl
  | cons byte bytes => simp [fits]

/-- What the write loop puts on the stream is read back as the packets of length 1 to 255; a longer
packet leaves the stream as it would be without it. And whatever the input is, the read loop hands
up the packets that are complete in it and not empty, and posts one notice behind them. -/
theorem framing_exact {Input : Type} (reader : ExactReader UInt8 Input) :
    (∀ packets : List Bytes, ∃ stream,
      ConnectionWorker.start (packets.map .data) = returned (stream, none) ∧
      ∀ input, reader.content input = stream →
        TcpWorker.start reader input =
          ((packets.filter fun packet => decide (1 ≤ packet.length ∧ packet.length ≤ 255)).map
            fun packet => .tx (.data packet)) ++ [.loopbackTx .disconnected]) ∧
    (∀ (before : List Bytes) (packet : Bytes) (after : List Bytes), 255 < packet.length →
      ConnectionWorker.start ([packet].map .data) = returned ([], none) ∧
      ConnectionWorker.start ((before ++ packet :: after).map .data) =
        ConnectionWorker.start ((before ++ after).map .data)) ∧
    ∀ input, ∃ packets rest, Splits (reader.content input) packets rest ∧
      (∀ otherPackets otherRest, Splits (reader.content input) otherPackets otherRest →
        otherPackets = packets ∧ otherRest = rest) ∧
      TcpWorker.start reader input =
        ((packets.filter fun packet => !packet.isEmpty).map fun packet => .tx (.data packet)) ++
          [.loopbackTx .disconnected] := by
  refine ⟨?_, ?_, ?_⟩
  · intro packets
    refine ⟨_, connection_worker_start packets, ?_⟩
    intro input content
    have bounded : ∀ packet ∈ packets.filter fits, packet.length ≤ 255 := by
      intro packet member
      exact of_decide_eq_true (List.mem_filter.mp member).2
    have splits := splits_of_packets bounded
    rw [← content] at splits
    rw [start_of_splits reader splits, emitted_fitting]
  · intro before packet after oversized
    have refused : fits packet = false := decide_eq_false (Nat.not_le.mpr oversized)
    constructor
    · rw [connection_worker_start, List.filter_cons, refused]
      rfl
    · rw [connection_worker_start, connection_worker_start, List.filter_append,
        List.filter_append, List.filter_cons, refused]
      rfl
  · intro input
    obtain ⟨packets, rest, splits⟩ := splits_exists (reader.content input)
    exact ⟨packets, rest, splits, fun _ _ other => other.unique splits,
      start_of_splits reader splits⟩

def delivered (sent : Except String (List Sent)) : List Bytes :=
  match sent with
  | .ok sent => sent.filterMap fun
      | .tx (.data packet) => some packet
      | _ => none
  | .error _ => []

def succeeds {Value : Type} : Except String Value → Bool
  | .ok _ => true
  | .error _ => false

/-- The stream starts as the protocol wants it, and the response to that can be written. -/
def Acceptable (stream : Bytes) (responseSent : Bool) : Prop :=
  [protocolByte, versionByte] <+: stream ∧ responseSent = true

def BehaveTheSame {stream : Bytes} (ending : Ending) (responseSent : Bool)
    (first second : Segmentation stream) : Prop :=
  (succeeds (doHandshake ending responseSent first.pieces) ↔ Acceptable stream responseSent) ∧
  (succeeds (doHandshake ending responseSent second.pieces) ↔ Acceptable stream responseSent) ∧
  delivered (session ending responseSent first.pieces) =
    delivered (session ending responseSent second.pieces)

/-- The first read gets both of the bytes that the handshake needs. -/
def WholeGreeting {stream : Bytes} (segmentation : Segmentation stream) : Prop :=
  ∃ piece rest, segmentation.pieces = piece :: rest ∧ 2 ≤ piece.length

theorem do_handshake_of_short (ending : Ending) (responseSent : Bool) {stream : Bytes}
    (segmentation : Segmentation stream) (short : ¬ WholeGreeting segmentation) :
    ∃ message, doHandshake ending responseSent segmentation.pieces = .error message := by
  cases pieces : segmentation.pieces with
  | nil => cases ending <;> exact ⟨_, rfl⟩
  | cons piece rest =>
      have atMostOne : piece.length ≤ 1 := by
        by_contra more
        exact short ⟨piece, rest, pieces, Nat.not_le.mp more⟩
      match piece, atMostOne with
      | [], _ => cases ending <;> exact ⟨_, rfl⟩
      | [_], _ => cases ending <;> exact ⟨_, rfl⟩

theorem do_handshake_of_whole (ending : Ending) (responseSent : Bool) {stream : Bytes}
    (segmentation : Segmentation stream) (whole : WholeGreeting segmentation) :
    ∃ first second rest left, stream = first :: second :: rest ∧ left.flatten = rest ∧
      doHandshake ending responseSent segmentation.pieces =
        if first ≠ protocolByte then .error "Incorrect protocol byte!"
        else if second ≠ versionByte then .error "Incorrect protocol version!"
        else if responseSent then .ok left
        else .error "Handshake response failed to send!" := by
  obtain ⟨piece, rest, pieces, atLeastTwo⟩ := whole
  have joined := segmentation.joined
  rw [pieces, List.flatten_cons] at joined
  rw [pieces]
  match piece, atLeastTwo with
  | [first, second], _ =>
      refine ⟨first, second, rest.flatten, rest, joined.symm, rfl, ?_⟩
      cases ending <;> rfl
  | first :: second :: third :: more, _ =>
      refine ⟨first, second, _, (third :: more) :: rest, joined.symm, rfl, ?_⟩
      cases ending <;> rfl

/-- The handshake succeeds exactly on an acceptable stream whose first piece has both bytes, and
leaves the rest of the stream to the read loop. -/
theorem do_handshake_ok_iff (ending : Ending) (responseSent : Bool) {stream : Bytes}
    (segmentation : Segmentation stream) :
    (succeeds (doHandshake ending responseSent segmentation.pieces) ↔
      Acceptable stream responseSent ∧ WholeGreeting segmentation) ∧
    ∀ left, doHandshake ending responseSent segmentation.pieces = .ok left →
      left.flatten = stream.drop 2 := by
  by_cases whole : WholeGreeting segmentation
  · obtain ⟨first, second, rest, left, split, flattened, result⟩ :=
      do_handshake_of_whole ending responseSent segmentation whole
    have front : [protocolByte, versionByte] <+: stream ↔
        first = protocolByte ∧ second = versionByte := by
      rw [split, List.cons_prefix_cons, List.cons_prefix_cons]
      simp only [List.nil_prefix, and_true, eq_comm]
    rw [result, Acceptable, front, and_iff_left whole]
    constructor
    · split_ifs with wrongProtocol wrongVersion sent
      · simp [succeeds, wrongProtocol]
      · simp [succeeds, wrongVersion]
      · simp [succeeds, not_not.mp wrongProtocol, not_not.mp wrongVersion, sent]
      · simp [succeeds, sent]
    · intro found same
      split_ifs at same with wrongProtocol wrongVersion sent
      cases same
      rw [flattened, split]
      rfl
  · obtain ⟨message, result⟩ :=
      do_handshake_of_short ending responseSent segmentation whole
    rw [result]
    constructor
    · simp [succeeds, whole]
    · intro left same
      cases same

theorem delivered_after_failure {ending : Ending} {responseSent : Bool} {pieces : List Bytes}
    (failed : ¬ succeeds (doHandshake ending responseSent pieces)) :
    delivered (session ending responseSent pieces) = [] := by
  unfold session
  cases result : doHandshake ending responseSent pieces with
  | ok left =>
      rw [result] at failed
      exact absurd rfl failed
  | error message => rfl

theorem delivered_after_success {stream : Bytes} {ending : Ending} {responseSent : Bool}
    {segmentation : Segmentation stream} {packets : List Bytes} {rest : Bytes}
    (split : Splits (stream.drop 2) packets rest)
    (succeeded : succeeds (doHandshake ending responseSent segmentation.pieces)) :
    session ending responseSent segmentation.pieces =
      .ok (emitted packets ++ [.loopbackTx .disconnected]) := by
  have remaining := (do_handshake_ok_iff ending responseSent segmentation).2
  unfold session
  cases result : doHandshake ending responseSent segmentation.pieces with
  | ok left =>
      have content : Splits (ExactReader.ofPieces.content left) packets rest := by
        rw [← remaining left result] at split
        exact split
      rw [Except.map, start_of_splits ExactReader.ofPieces content]
  | error message =>
      rw [result] at succeeded
      cases succeeded

/-- The client behaves the same on two ways of cutting a stream, and as the stream alone demands,
exactly when neither of them cuts an acceptable greeting in two. -/
theorem segmentation_irrelevant_iff {stream : Bytes} (ending : Ending) (responseSent : Bool)
    (first second : Segmentation stream) :
    BehaveTheSame ending responseSent first second ↔
      (Acceptable stream responseSent → WholeGreeting first ∧ WholeGreeting second) := by
  have firstIff := (do_handshake_ok_iff ending responseSent first).1
  have secondIff := (do_handshake_ok_iff ending responseSent second).1
  constructor
  · rintro ⟨firstSucceeds, secondSucceeds, _⟩ acceptable
    exact ⟨(firstIff.mp (firstSucceeds.mpr acceptable)).2,
      (secondIff.mp (secondSucceeds.mpr acceptable)).2⟩
  · intro whole
    have firstSucceeds : succeeds (doHandshake ending responseSent first.pieces) ↔
        Acceptable stream responseSent :=
      firstIff.trans (and_iff_left_of_imp fun acceptable => (whole acceptable).1)
    have secondSucceeds : succeeds (doHandshake ending responseSent second.pieces) ↔
        Acceptable stream responseSent :=
      secondIff.trans (and_iff_left_of_imp fun acceptable => (whole acceptable).2)
    refine ⟨firstSucceeds, secondSucceeds, ?_⟩
    by_cases acceptable : Acceptable stream responseSent
    · obtain ⟨packets, rest, split⟩ := splits_exists (stream.drop 2)
      rw [delivered_after_success split (firstSucceeds.mpr acceptable),
        delivered_after_success split (secondSucceeds.mpr acceptable)]
    · rw [delivered_after_failure fun succeeded => acceptable (firstSucceeds.mp succeeded),
        delivered_after_failure fun succeeded => acceptable (secondSucceeds.mp succeeded)]

def greetingInTwo : Segmentation [protocolByte, versionByte] :=
  ⟨[[protocolByte], [versionByte]], rfl, by simp⟩

def greetingInOne : Segmentation [protocolByte, versionByte] :=
  ⟨[[protocolByte, versionByte]], rfl, by simp⟩

/-- A read that returns the first byte alone fails the handshake of a stream that is accepted
otherwise. -/
theorem cut_greeting_refused :
    ¬ ∀ (stream : Bytes) (first second : Segmentation stream),
      BehaveTheSame .closed true first second := by
  intro all
  have same := all _ greetingInTwo greetingInOne
  have acceptable : Acceptable [protocolByte, versionByte] true := ⟨List.prefix_rfl, rfl⟩
  have refused : succeeds (doHandshake .closed true greetingInTwo.pieces) = false := by decide
  have succeeded := same.1.mpr acceptable
  rw [refused] at succeeded
  cases succeeded

end MoteConnection.ForwarderStream
