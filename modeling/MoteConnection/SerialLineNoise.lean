import MoteConnection.SerialReceiving

/-!
# The read loop on arbitrary line input

`SerialWorker::start` over any outcomes of its reads, any clock, and any
interference of the write thread with the pending map. Malformed packets of the
three known types leave no trace. A well-framed packet of any other type ends
the thread by a panic, so the loop survives exactly the streams that frame no
such packet.
-/

namespace MoteConnection.SerialLineNoise

open MoteConnection.Runtime MoteConnection.HdlcFraming MoteConnection.SerialReceiving
open FlagStuffing Outcome

set_option autoImplicit false

/-- What `port.read` returns: bytes, `ErrorKind::TimedOut`, or another error. -/
inductive PortRead
  | received (bytes : Bytes)
  | timedOut
  | failed

/-- One turn of the loop: its read, and whether `try_recv` then finds a stop request. -/
structure Turn where
  read : PortRead
  stopRequested : Bool

def readFromStream (worker : SerialWorker) (read : PortRead) :
    SerialWorker × Except Unit (List Bytes) :=
  match read with
  | .received bytes =>
      let (decoder, packets) := worker.decoder.decode bytes
      ({ worker with decoder := decoder }, .ok packets)
  | .timedOut => (worker, .ok [])
  | .failed => (worker, .error ())

/-- What the read thread shares: the map, and all that was sent on the two channels. -/
structure Shared where
  waitingForAck : WaitingForAck
  tx : List (Event Bytes)
  loopback : List (Event Bytes)

def Shared.perform (shared : Shared) : SharedAccess → Shared
  | .sendLoopback event => { shared with loopback := shared.loopback ++ [event] }
  | .sendTx event => { shared with tx := shared.tx ++ [event] }
  | .removeUnacked seqNum =>
      { shared with waitingForAck := removeUnacked shared.waitingForAck seqNum }

/-- For the n-th decoded packet, the time at which it is handled, and what the write thread has
done to the map since the packet before. -/
structure Surroundings where
  clock : Nat → Instant
  writeThread : Nat → WaitingForAck → WaitingForAck

structure ReadThread where
  worker : SerialWorker
  shared : Shared
  packets : Nat

def pass (surroundings : Surroundings) (thread : ReadThread) : ReadThread :=
  let waitingForAck := surroundings.writeThread thread.packets thread.shared.waitingForAck
  { thread with
    shared := { thread.shared with waitingForAck := waitingForAck }
    packets := thread.packets + 1 }

/-- `self.handle_data(data)` in the midst of its surroundings. -/
def handlePacket (surroundings : Surroundings) (thread : ReadThread) (data : Bytes) :
    Outcome ReadThread := do
  let now := surroundings.clock thread.packets
  let thread := pass surroundings thread
  let (worker, accesses) ← thread.worker.handleData now data
  return { thread with
    worker := worker
    shared := accesses.foldl Shared.perform thread.shared }

def start (surroundings : Surroundings) : ReadThread → List Turn → Outcome ReadThread
  | thread, [] => returned thread
  | thread, turn :: rest =>
      match readFromStream thread.worker turn.read with
      | (worker, .error ()) => returned { thread with worker := worker }
      | (worker, .ok packets) => do
          let thread ← packets.foldlM (handlePacket surroundings) { thread with worker := worker }
          if turn.stopRequested then return thread else start surroundings thread rest

def received : List Turn → Bytes
  | [] => []
  | turn :: rest =>
      let later := if turn.stopRequested then [] else received rest
      match turn.read with
      | .received bytes => bytes ++ later
      | .timedOut => later
      | .failed => []

def packetsOf (decoder : HdlcCodec) (turns : List Turn) : List Bytes :=
  (decoder.decode (received turns)).2

/-- The packet as it would be handled if the bad packets were not there. -/
def handleIfValid (surroundings : Surroundings) (thread : ReadThread) (data : Bytes) :
    Outcome ReadThread :=
  if validPacket data then handlePacket surroundings thread data
  else returned (pass surroundings thread)

def ReadThread.withDecoder (thread : ReadThread) (decoder : HdlcCodec) : ReadThread :=
  { thread with worker := { thread.worker with decoder := decoder } }

/-- The receive path takes no harm from the line, whatever surrounds it: `start` returns, having
done what the valid packets ask for and nothing else. -/
structure SurvivesNoise (turns : List Turn) : Prop where
  running : ∀ surroundings shared, ∃ last,
    start surroundings ⟨.new, shared, 0⟩ turns = returned last ∧
      (packetsOf HdlcCodec.new turns).foldlM (handleIfValid surroundings) ⟨.new, shared, 0⟩ =
        returned (last.withDecoder .new)
  dropped : ∀ surroundings thread, ∀ data ∈ packetsOf HdlcCodec.new turns,
    validPacket data = false →
      handlePacket surroundings thread data = returned (pass surroundings thread)
  unaffected : ∀ surroundings shared count,
    ((packetsOf HdlcCodec.new turns).take count).foldlM (handlePacket surroundings)
        ⟨.new, shared, 0⟩ =
      ((packetsOf HdlcCodec.new turns).take count).foldlM (handleIfValid surroundings)
        ⟨.new, shared, 0⟩

theorem handle_packet_returns_iff (surroundings : Surroundings) (thread : ReadThread)
    (data : Bytes) :
    (handlePacket surroundings thread data).Returns ↔ data = [] ∨ KnownType data := by
  rw [← handle_data_returns_iff thread.worker (surroundings.clock thread.packets) data]
  have sameWorker : (pass surroundings thread).worker = thread.worker := rfl
  constructor
  · intro ⟨next, handled⟩
    obtain ⟨result, taken, _⟩ := bind_eq_returned.mp handled
    rw [sameWorker] at taken
    exact ⟨result, taken⟩
  · intro ⟨result, taken⟩
    rw [handlePacket, sameWorker, taken, returned_bind]
    exact returned_returns _

theorem handle_packet_refused (surroundings : Surroundings) (thread : ReadThread) {data : Bytes}
    (known : KnownType data) (refused : validPacket data = false) :
    handlePacket surroundings thread data = returned (pass surroundings thread) := by
  rw [handlePacket, handle_data_refused _ _ known refused, returned_bind]
  rfl

theorem handle_packet_with_decoder (surroundings : Surroundings) (thread : ReadThread)
    (decoder : HdlcCodec) (data : Bytes) :
    handlePacket surroundings (thread.withDecoder decoder) data =
      handlePacket surroundings thread data >>= fun next =>
        returned (next.withDecoder decoder) := by
  have handled := handle_data_with_decoder thread.worker decoder
    (surroundings.clock thread.packets) data
  have sameWorker (decoder : HdlcCodec) : (pass surroundings (thread.withDecoder decoder)).worker =
      { thread.worker with decoder := decoder } := rfl
  rw [handlePacket, sameWorker]
  simp only [ReadThread.withDecoder]
  rw [handled, handlePacket, bind_assoc, bind_assoc]
  rfl

theorem handle_packets_with_decoder (surroundings : Surroundings) (thread : ReadThread)
    (decoder : HdlcCodec) (packets : List Bytes) :
    packets.foldlM (handlePacket surroundings) (thread.withDecoder decoder) =
      packets.foldlM (handlePacket surroundings) thread >>= fun last =>
        returned (last.withDecoder decoder) := by
  induction packets generalizing thread with
  | nil => rfl
  | cons data rest induction =>
      rw [List.foldlM_cons, List.foldlM_cons, handle_packet_with_decoder, bind_assoc, bind_assoc]
      exact bind_congr fun next => induction next

theorem handle_packets_returns_iff (surroundings : Surroundings) (thread : ReadThread)
    (packets : List Bytes) :
    (packets.foldlM (handlePacket surroundings) thread).Returns ↔
      ∀ data ∈ packets, data = [] ∨ KnownType data := by
  induction packets generalizing thread with
  | nil => simp [List.foldlM_nil]
  | cons data rest induction =>
      rw [List.foldlM_cons, List.forall_mem_cons,
        ← handle_packet_returns_iff surroundings thread data]
      constructor
      · intro ⟨last, handled⟩
        obtain ⟨next, taken, remaining⟩ := bind_eq_returned.mp handled
        exact ⟨⟨next, taken⟩, (induction next).mp ⟨last, remaining⟩⟩
      · intro ⟨⟨next, taken⟩, known⟩
        rw [taken, returned_bind]
        exact (induction next).mpr known

theorem received_cons (turn : Turn) (rest : List Turn) :
    received (turn :: rest) =
      match turn.read with
      | .received bytes => bytes ++ if turn.stopRequested then [] else received rest
      | .timedOut => if turn.stopRequested then [] else received rest
      | .failed => [] := rfl

/-- But for the decoder, the loop does what handling its packets in one row does. -/
theorem start_handles (surroundings : Surroundings) (thread : ReadThread)
    (decoder : HdlcCodec) (turns : List Turn) :
    (start surroundings thread turns >>= fun last => returned (last.withDecoder decoder)) =
      (packetsOf thread.worker.decoder turns).foldlM (handlePacket surroundings)
        (thread.withDecoder decoder) := by
  have nothing (codec : HdlcCodec) : (codec.decode []).2 = [] := rfl
  induction turns generalizing thread with
  | nil => rfl
  | cons turn rest induction =>
      have continued (bytes : Bytes) (later : ReadThread)
          (sameDecoder : later.worker.decoder = (thread.worker.decoder.decode bytes).1) :
          ((if turn.stopRequested then returned later else start surroundings later rest) >>=
            fun last => returned (last.withDecoder decoder)) =
          ((thread.worker.decoder.decode bytes).1.decode
            (if turn.stopRequested then [] else received rest)).2.foldlM
              (handlePacket surroundings) (later.withDecoder decoder) := by
        by_cases stopped : turn.stopRequested = true
        · rw [if_pos stopped, if_pos stopped, nothing]
          rfl
        · rw [if_neg stopped, if_neg stopped, induction later, sameDecoder]
          rfl
      rw [start, packetsOf, received_cons]
      cases turn.read with
      | failed => rfl
      | timedOut => exact continued [] thread rfl
      | received bytes =>
          simp only [readFromStream, decode_append, List.foldlM_append]
          have ahead := handle_packets_with_decoder surroundings thread
            (thread.worker.decoder.decode bytes).1 (thread.worker.decoder.decode bytes).2
          simp only [ReadThread.withDecoder] at ahead
          rw [ahead, handle_packets_with_decoder, bind_assoc, bind_assoc, bind_assoc]
          exact bind_congr fun next =>
            continued bytes (next.withDecoder (thread.worker.decoder.decode bytes).1) rfl

theorem start_returns_iff (surroundings : Surroundings) (thread : ReadThread)
    (turns : List Turn) :
    (start surroundings thread turns).Returns ↔
      ∀ data ∈ packetsOf thread.worker.decoder turns, data = [] ∨ KnownType data := by
  have handles := start_handles surroundings thread thread.worker.decoder turns
  rw [← handle_packets_returns_iff surroundings (thread.withDecoder thread.worker.decoder),
    ← handles]
  constructor
  · intro ⟨last, reached⟩
    exact ⟨_, bind_eq_returned.mpr ⟨last, reached, rfl⟩⟩
  · intro ⟨_, reached⟩
    obtain ⟨last, returns, _⟩ := bind_eq_returned.mp reached
    exact ⟨last, returns⟩

theorem handle_if_valid_eq {surroundings : Surroundings} {thread : ReadThread}
    {packets : List Bytes} (known : ∀ data ∈ packets, KnownType data) :
    packets.foldlM (handlePacket surroundings) thread =
      packets.foldlM (handleIfValid surroundings) thread := by
  induction packets generalizing thread with
  | nil => rfl
  | cons data rest induction =>
      rw [List.forall_mem_cons] at known
      have sameFirst : handlePacket surroundings thread data =
          handleIfValid surroundings thread data := by
        cases valid : validPacket data with
        | true => rw [handleIfValid, if_pos valid]
        | false =>
            rw [handle_packet_refused surroundings thread known.1 valid, handleIfValid, valid]
            rfl
      rw [List.foldlM_cons, List.foldlM_cons, sameFirst]
      cases handleIfValid surroundings thread data with
      | panicked message => rfl
      | returned next => exact induction known.2

theorem packets_framed (turns : List Turn) (data : Bytes) :
    data ∈ packetsOf HdlcCodec.new turns ↔
      ∃ segment ∈ segments frameByte (received turns), Frames segment data := by
  rw [packetsOf, decode_new, List.mem_filterMap]
  simp only [frame_payload_eq_some]

/-- The receive path survives a stream, however it is cut into reads, if and only if every packet
framed in it is of one of the three known types. -/
theorem survives_noise_iff_known_types (turns : List Turn) :
    SurvivesNoise turns ↔
      ∀ segment ∈ segments frameByte (received turns),
        ∀ data, Frames segment data → KnownType data := by
  have framed : (∀ segment ∈ segments frameByte (received turns),
      ∀ data, Frames segment data → KnownType data) ↔
      ∀ data ∈ packetsOf HdlcCodec.new turns, KnownType data := by
    constructor
    · intro known data member
      obtain ⟨segment, inside, frames⟩ := (packets_framed turns data).mp member
      exact known segment inside data frames
    · intro known segment inside data frames
      exact known data ((packets_framed turns data).mpr ⟨segment, inside, frames⟩)
  rw [framed]
  constructor
  · intro survives data member
    have quiet : Surroundings := ⟨fun _ => 0, fun _ map => map⟩
    obtain ⟨last, reached, _⟩ := survives.running quiet ⟨∅, [], []⟩
    have returns := (start_returns_iff quiet ⟨.new, ⟨∅, [], []⟩, 0⟩ turns).mp ⟨last, reached⟩
    rcases returns data member with empty | known
    · obtain ⟨segment, _, nonempty, _⟩ := (packets_framed turns data).mp member
      exact absurd empty nonempty
    · exact known
  · intro known
    constructor
    · intro surroundings shared
      obtain ⟨last, reached⟩ := (start_returns_iff surroundings ⟨.new, shared, 0⟩ turns).mpr
        fun data member => .inr (known data member)
      have handles := start_handles surroundings ⟨.new, shared, 0⟩ .new turns
      rw [reached, returned_bind] at handles
      exact ⟨last, reached, (handle_if_valid_eq known).symm.trans handles.symm⟩
    · intro surroundings thread data member refused
      exact handle_packet_refused surroundings thread (known data member) refused
    · intro surroundings shared count
      apply handle_if_valid_eq
      intro data member
      exact known data (List.mem_of_mem_take member)

/-- Three bytes, flag, zero, flag, end the read thread. -/
theorem unknown_type_not_survived :
    ¬ SurvivesNoise [⟨.received [0x7E, 0x00, 0x7E], false⟩] := by
  intro survives
  obtain ⟨last, reached, _⟩ := survives.running ⟨fun _ => 0, fun _ map => map⟩ ⟨∅, [], []⟩
  have ended : start ⟨fun _ => 0, fun _ map => map⟩ ⟨.new, ⟨∅, [], []⟩, 0⟩
      [⟨.received [0x7E, 0x00, 0x7E], false⟩] = panicked "Unknown packet type 00!" := rfl
  rw [ended] at reached
  cases reached

end MoteConnection.SerialLineNoise
