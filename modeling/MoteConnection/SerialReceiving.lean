import MoteConnection.HdlcFraming
import MoteConnection.SerialPackets

/-!
# The serial read thread

`SerialWorker` and its `SeqNumCache`, with the three handlers of decoded
packets. A handler keeps the cache to itself and touches the rest of the system
through two channels and one map under a mutex; it returns those accesses in
program order, so that other threads can be placed between them. Both receivers
are alive, so no `send` fails.
-/

namespace MoteConnection.SerialReceiving

open MoteConnection.Runtime MoteConnection.HdlcFraming MoteConnection.SerialPackets
open Outcome

set_option autoImplicit false

structure SeqNumCache where
  seqNums : HashMap UInt8 Instant
  timeout : Duration

def SeqNumCache.new (timeout : Duration) : SeqNumCache := ⟨∅, timeout⟩

/-- The clock is read once, as `now`. -/
def SeqNumCache.insert (cache : SeqNumCache) (now : Instant) (seqNum : UInt8) :
    SeqNumCache × Except Unit Unit :=
  match cache.seqNums.lookup seqNum with
  | some instant =>
      if instant < now - cache.timeout then
        ({ cache with seqNums := cache.seqNums.insert seqNum now }, .ok ())
      else (cache, .error ())
  | none => ({ cache with seqNums := cache.seqNums.insert seqNum now }, .ok ())

/-- `HashMap<u8, (u8, Bytes)>`: retries left and packet, by sequence number. -/
abbrev WaitingForAck := HashMap UInt8 (UInt8 × Bytes)

/-- An access of the read thread to what it shares with other threads. -/
inductive SharedAccess
  | sendLoopback (event : Event Bytes)
  | sendTx (event : Event Bytes)
  | removeUnacked (seqNum : UInt8)
  deriving DecidableEq, Repr

/-- What `handle_ack` does while it holds the lock. -/
def removeUnacked (unacked : WaitingForAck) (seqNum : UInt8) : WaitingForAck :=
  if seqNum ∈ unacked then unacked.erase seqNum else unacked

structure SerialWorker where
  seqNumCache : SeqNumCache
  decoder : HdlcCodec

def SerialWorker.new : SerialWorker where
  seqNumCache := SeqNumCache.new (fromSecs 10)
  decoder := HdlcCodec.new

namespace SerialWorker

def handleAckPacket (worker : SerialWorker) (now : Instant) (data : Bytes) :
    Outcome (SerialWorker × List SharedAccess) := do
  match ← AckPacket.tryFrom data with
  | .ok packet =>
      match worker.seqNumCache.insert now packet.seqNum with
      | (cache, .ok ()) =>
          let ack := Ack.fromPacket packet
          return ({ worker with seqNumCache := cache },
            [.sendLoopback (.data ack.intoBytes), .sendTx (.data packet.data)])
      | (cache, .error ()) => return ({ worker with seqNumCache := cache }, [])
  | .error _ => return (worker, [])

def handleAck (worker : SerialWorker) (data : Bytes) :
    Outcome (SerialWorker × List SharedAccess) := do
  match ← Ack.tryFrom data with
  | .ok packet => return (worker, [.removeUnacked packet.seqNum])
  | .error _ => return (worker, [])

def handleNoAckPacket (worker : SerialWorker) (data : Bytes) :
    Outcome (SerialWorker × List SharedAccess) := do
  match ← NoAckPacket.tryFrom data with
  | .ok packet => return (worker, [.sendTx (.data packet.data)])
  | .error _ => return (worker, [])

def handleData (worker : SerialWorker) (now : Instant) (data : Bytes) :
    Outcome (SerialWorker × List SharedAccess) :=
  match data with
  | [] => returned (worker, [])
  | other :: _ =>
      if other = ackpacketByte then worker.handleAckPacket now data
      else if other = ackByte then worker.handleAck data
      else if other = noackpacketByte then worker.handleNoAckPacket data
      else panicked s!"Unknown packet type {upperHex 2 other.toNat}!"

end SerialWorker

theorem insert_accepts {cache : SeqNumCache} {now : Instant} {seqNum : UInt8}
    (cool : ∀ instant, cache.seqNums.lookup seqNum = some instant →
      instant < now - cache.timeout) :
    cache.insert now seqNum =
      ({ cache with seqNums := cache.seqNums.insert seqNum now }, .ok ()) := by
  unfold SeqNumCache.insert
  cases found : cache.seqNums.lookup seqNum with
  | none => rfl
  | some instant =>
      have passed := cool instant found
      simp only [passed, if_true]

theorem insert_refuses {cache : SeqNumCache} {now instant : Instant} {seqNum : UInt8}
    (found : cache.seqNums.lookup seqNum = some instant)
    (warm : now - cache.timeout ≤ instant) :
    cache.insert now seqNum = (cache, .error ()) := by
  unfold SeqNumCache.insert
  have refused : ¬ instant < now - cache.timeout := Nat.not_lt.mpr warm
  simp only [found, refused, if_false]

theorem insert_cases (cache : SeqNumCache) (now : Instant) (seqNum : UInt8) :
    cache.insert now seqNum =
        ({ cache with seqNums := cache.seqNums.insert seqNum now }, .ok ()) ∨
      cache.insert now seqNum = (cache, .error ()) := by
  cases found : cache.seqNums.lookup seqNum with
  | none =>
      apply Or.inl
      apply insert_accepts
      intro instant recorded
      rw [found] at recorded
      cases recorded
  | some instant =>
      by_cases passed : instant < now - cache.timeout
      · apply Or.inl
        apply insert_accepts
        intro other recorded
        rw [found] at recorded
        cases recorded
        exact passed
      · exact .inr (insert_refuses found (Nat.not_lt.mp passed))

theorem handle_data_ack_packet (worker : SerialWorker) (now : Instant) (seqNum : UInt8)
    {data : Bytes} (nonempty : data ≠ []) :
    worker.handleData now (AckPacket.new seqNum data).intoBytes =
      match worker.seqNumCache.insert now seqNum with
      | (cache, .ok ()) => returned ({ worker with seqNumCache := cache },
          [.sendLoopback (.data (Ack.new seqNum).intoBytes), .sendTx (.data data)])
      | (cache, .error ()) => returned ({ worker with seqNumCache := cache }, []) := by
  have parsed : AckPacket.tryFrom (AckPacket.new seqNum data).intoBytes =
      returned (.ok (AckPacket.new seqNum data)) :=
    (ack_packet_try_from_ok _ _).mpr ⟨seqNum, data, nonempty, rfl, rfl⟩
  have dispatched : worker.handleData now (AckPacket.new seqNum data).intoBytes =
      worker.handleAckPacket now (AckPacket.new seqNum data).intoBytes := rfl
  rw [dispatched, SerialWorker.handleAckPacket, parsed, returned_bind]
  simp only [AckPacket.new, Ack.fromPacket]
  rcases insert_cases worker.seqNumCache now seqNum with accepted | refused
  · rw [accepted]
    rfl
  · rw [refused]
    rfl

theorem handle_ack_encoded (worker : SerialWorker) (seqNum : UInt8) :
    worker.handleAck (Ack.new seqNum).intoBytes = returned (worker, [.removeUnacked seqNum]) := by
  have parsed : Ack.tryFrom (Ack.new seqNum).intoBytes = returned (.ok (Ack.new seqNum)) :=
    (ack_try_from_ok _ _).mpr ⟨seqNum, rfl, rfl⟩
  rw [SerialWorker.handleAck, parsed, returned_bind]
  rfl

theorem handle_data_ack (worker : SerialWorker) (now : Instant) (seqNum : UInt8) :
    worker.handleData now (Ack.new seqNum).intoBytes =
      returned (worker, [.removeUnacked seqNum]) := by
  have dispatched : worker.handleData now (Ack.new seqNum).intoBytes =
      worker.handleAck (Ack.new seqNum).intoBytes := rfl
  rw [dispatched, handle_ack_encoded]

theorem handle_data_no_ack_packet (worker : SerialWorker) (now : Instant) {data : Bytes}
    (nonempty : data ≠ []) :
    worker.handleData now (NoAckPacket.new data).intoBytes =
      returned (worker, [.sendTx (.data data)]) := by
  have parsed : NoAckPacket.tryFrom (NoAckPacket.new data).intoBytes =
      returned (.ok (NoAckPacket.new data)) :=
    (no_ack_packet_try_from_ok _ _).mpr ⟨data, nonempty, rfl, rfl⟩
  have dispatched : worker.handleData now (NoAckPacket.new data).intoBytes =
      worker.handleNoAckPacket (NoAckPacket.new data).intoBytes := rfl
  rw [dispatched, SerialWorker.handleNoAckPacket, parsed, returned_bind]
  rfl

theorem handle_ack_cases (worker : SerialWorker) (data : Bytes) :
    worker.handleAck data = returned (worker, []) ∨
      ∃ seqNum, data = (Ack.new seqNum).intoBytes ∧
        worker.handleAck data = returned (worker, [.removeUnacked seqNum]) := by
  obtain ⟨result, parsed⟩ := ack_try_from_returns data
  cases result with
  | error message =>
      apply Or.inl
      rw [SerialWorker.handleAck, parsed, returned_bind]
      rfl
  | ok packet =>
      obtain ⟨seqNum, encoded, same⟩ := (ack_try_from_ok data packet).mp parsed
      refine .inr ⟨seqNum, encoded, ?_⟩
      rw [SerialWorker.handleAck, parsed, returned_bind, same]
      rfl

def KnownType (data : Bytes) : Prop :=
  data.head? = some ackpacketByte ∨ data.head? = some ackByte ∨
    data.head? = some noackpacketByte

instance (data : Bytes) : Decidable (KnownType data) := by
  unfold KnownType
  infer_instance

def accepts {Packet : Type} : Outcome (Except String Packet) → Bool
  | returned (.ok _) => true
  | _ => false

def validPacket (data : Bytes) : Bool :=
  accepts (AckPacket.tryFrom data) || accepts (Ack.tryFrom data) ||
    accepts (NoAckPacket.tryFrom data)

theorem refused_of_not_accepts {Packet : Type} {outcome : Outcome (Except String Packet)}
    (returns : outcome.Returns) (refused : accepts outcome = false) :
    ∃ message, outcome = returned (.error message) := by
  apply rejected_of_no_packet returns
  intro packet same
  rw [same] at refused
  cases refused

theorem handle_data_refused (worker : SerialWorker) (now : Instant) {data : Bytes}
    (known : KnownType data) (refused : validPacket data = false) :
    worker.handleData now data = returned (worker, []) := by
  simp only [validPacket, Bool.or_eq_false_iff] at refused
  obtain ⟨⟨ackPacketRefused, ackRefused⟩, noAckPacketRefused⟩ := refused
  cases data with
  | nil => rfl
  | cons first rest =>
      simp only [KnownType, List.head?_cons, Option.some.injEq] at known
      rcases known with same | same | same
      · obtain ⟨message, parsed⟩ :=
          refused_of_not_accepts (ack_packet_try_from_returns _) ackPacketRefused
        have dispatched : worker.handleData now (first :: rest) =
            worker.handleAckPacket now (first :: rest) := by rw [same]; rfl
        rw [dispatched, SerialWorker.handleAckPacket, parsed, returned_bind]
        rfl
      · obtain ⟨message, parsed⟩ := refused_of_not_accepts (ack_try_from_returns _) ackRefused
        have dispatched : worker.handleData now (first :: rest) =
            worker.handleAck (first :: rest) := by rw [same]; rfl
        rw [dispatched, SerialWorker.handleAck, parsed, returned_bind]
        rfl
      · obtain ⟨message, parsed⟩ :=
          refused_of_not_accepts (no_ack_packet_try_from_returns _) noAckPacketRefused
        have dispatched : worker.handleData now (first :: rest) =
            worker.handleNoAckPacket (first :: rest) := by rw [same]; rfl
        rw [dispatched, SerialWorker.handleNoAckPacket, parsed, returned_bind]
        rfl

/-- The valid packets are the encodings, by the three parsers' specifications. -/
theorem valid_packet_iff (data : Bytes) :
    validPacket data = true ↔
      (∃ seqNum content, content ≠ [] ∧ data = (AckPacket.new seqNum content).intoBytes) ∨
      (∃ seqNum, data = (Ack.new seqNum).intoBytes) ∨
      (∃ content, content ≠ [] ∧ data = (NoAckPacket.new content).intoBytes) := by
  have accepted {Packet : Type} (outcome : Outcome (Except String Packet)) :
      accepts outcome = true ↔ ∃ packet, outcome = returned (.ok packet) := by
    cases outcome with
    | panicked message => simp [accepts]
    | returned result => cases result <;> simp [accepts]
  simp only [validPacket, Bool.or_eq_true, accepted, ack_packet_try_from_ok, ack_try_from_ok,
    no_ack_packet_try_from_ok, or_assoc]
  constructor
  · intro valid
    rcases valid with ⟨_, seqNum, content, nonempty, same, _⟩ | ⟨_, seqNum, same, _⟩ |
      ⟨_, content, nonempty, same, _⟩
    · exact .inl ⟨seqNum, content, nonempty, same⟩
    · exact .inr (.inl ⟨seqNum, same⟩)
    · exact .inr (.inr ⟨content, nonempty, same⟩)
  · intro valid
    rcases valid with ⟨seqNum, content, nonempty, same⟩ | ⟨seqNum, same⟩ |
      ⟨content, nonempty, same⟩
    · exact .inl ⟨_, seqNum, content, nonempty, same, rfl⟩
    · exact .inr (.inl ⟨_, seqNum, same, rfl⟩)
    · exact .inr (.inr ⟨_, content, nonempty, same, rfl⟩)

/-- The handlers panic on the unknown types and on nothing else. -/
theorem handle_data_returns_iff (worker : SerialWorker) (now : Instant) (data : Bytes) :
    (worker.handleData now data).Returns ↔ data = [] ∨ KnownType data := by
  by_cases known : KnownType data
  · refine iff_of_true ?_ (.inr known)
    cases valid : validPacket data with
    | false =>
        rw [handle_data_refused worker now known valid]
        exact returned_returns _
    | true =>
        rcases (valid_packet_iff data).mp valid with ⟨seqNum, content, nonempty, rfl⟩ |
          ⟨seqNum, rfl⟩ | ⟨content, nonempty, rfl⟩
        · rw [handle_data_ack_packet worker now seqNum nonempty]
          split <;> exact returned_returns _
        · rw [handle_data_ack]
          exact returned_returns _
        · rw [handle_data_no_ack_packet worker now nonempty]
          exact returned_returns _
  · cases data with
    | nil => exact iff_of_true (returned_returns _) (.inl rfl)
    | cons first rest =>
        simp only [KnownType, List.head?_cons, Option.some.injEq, not_or] at known
        refine iff_of_false ?_ (by simp [KnownType, known])
        rw [SerialWorker.handleData, if_neg known.1, if_neg known.2.1, if_neg known.2.2]
        exact panicked_not_returns _

theorem handle_data_with_decoder (worker : SerialWorker) (decoder : HdlcCodec) (now : Instant)
    (data : Bytes) :
    ({ worker with decoder := decoder } : SerialWorker).handleData now data =
      worker.handleData now data >>= fun handled =>
        returned ({ handled.1 with decoder := decoder }, handled.2) := by
  cases valid : validPacket data with
  | true =>
      rcases (valid_packet_iff data).mp valid with ⟨seqNum, content, nonempty, rfl⟩ |
        ⟨seqNum, rfl⟩ | ⟨content, nonempty, rfl⟩
      · rw [handle_data_ack_packet _ now seqNum nonempty,
          handle_data_ack_packet _ now seqNum nonempty]
        rcases insert_cases worker.seqNumCache now seqNum with accepted | refused
        · rw [accepted]
          rfl
        · rw [refused]
          rfl
      · rw [handle_data_ack, handle_data_ack, returned_bind]
      · rw [handle_data_no_ack_packet _ now nonempty, handle_data_no_ack_packet _ now nonempty,
          returned_bind]
  | false =>
      by_cases known : KnownType data
      · rw [handle_data_refused _ now known valid, handle_data_refused _ now known valid,
          returned_bind]
      · cases data with
        | nil => rfl
        | cons first rest =>
            simp only [KnownType, List.head?_cons, Option.some.injEq, not_or] at known
            simp only [SerialWorker.handleData, if_neg known.1, if_neg known.2.1,
              if_neg known.2.2, panicked_bind]

theorem decoder_of_handle_data {worker next : SerialWorker} {now : Instant} {data : Bytes}
    {accesses : List SharedAccess}
    (handled : worker.handleData now data = returned (next, accesses)) :
    next.decoder = worker.decoder := by
  have same := handle_data_with_decoder worker worker.decoder now data
  rw [handled, returned_bind] at same
  have nexts := (Prod.mk.inj (Outcome.returned.inj same)).1
  exact (congrArg SerialWorker.decoder nexts : _)

theorem accesses_of_handle_data {worker next : SerialWorker} {now : Instant} {data : Bytes}
    {accesses : List SharedAccess}
    (handled : worker.handleData now data = returned (next, accesses)) :
    accesses = [] ∨
    (∃ seqNum content, content ≠ [] ∧ data = (AckPacket.new seqNum content).intoBytes ∧
      accesses =
        [.sendLoopback (.data (Ack.new seqNum).intoBytes), .sendTx (.data content)]) ∨
    (∃ seqNum, data = (Ack.new seqNum).intoBytes ∧ accesses = [.removeUnacked seqNum]) ∨
    (∃ content, content ≠ [] ∧ data = (NoAckPacket.new content).intoBytes ∧
      accesses = [.sendTx (.data content)]) := by
  cases valid : validPacket data with
  | true =>
      rcases (valid_packet_iff data).mp valid with ⟨seqNum, content, nonempty, rfl⟩ |
        ⟨seqNum, rfl⟩ | ⟨content, nonempty, rfl⟩
      · rw [handle_data_ack_packet worker now seqNum nonempty] at handled
        split at handled
        · cases handled
          exact .inr (.inl ⟨seqNum, content, nonempty, rfl, rfl⟩)
        · cases handled
          exact .inl rfl
      · rw [handle_data_ack] at handled
        cases handled
        exact .inr (.inr (.inl ⟨seqNum, rfl, rfl⟩))
      · rw [handle_data_no_ack_packet worker now nonempty] at handled
        cases handled
        exact .inr (.inr (.inr ⟨content, nonempty, rfl, rfl⟩))
  | false =>
      rcases (handle_data_returns_iff worker now data).mp ⟨_, handled⟩ with rfl | known
      · cases handled
        exact .inl rfl
      · rw [handle_data_refused worker now known valid] at handled
        cases handled
        exact .inl rfl

end MoteConnection.SerialReceiving
