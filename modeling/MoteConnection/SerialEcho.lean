import MoteConnection.SerialLink
import MoteConnection.SerialResendTiming

/-!
# Acknowledgements that are acknowledged

A queued acknowledgement travels as data, so the other side acknowledges it in
its turn. On a link that loses nothing, one message keeps both sides at work as
long as no sequence number is used twice, for up to 256 packets of each side:
every packet is accepted at least once and every acceptance queues another
packet, so the books of the two sides balance only when no user ever sent
anything.
-/

namespace MoteConnection.SerialEcho

open LabeledRuns
open MoteConnection.Runtime MoteConnection.HdlcFraming MoteConnection.SerialPackets
open MoteConnection.SerialReceiving MoteConnection.SerialSending
open MoteConnection.SerialRetransmission MoteConnection.SerialEndpoint
open MoteConnection.SerialLink MoteConnection.SerialResendTiming
open Outcome

set_option autoImplicit false

/-- Nothing is lost, no side is stopped, and the ports take every write. -/
def sound : LinkLabel → Bool
  | .lose _ => false
  | .endpoint _ .stop => false
  | .endpoint _ (.work (.write accepted)) => accepted
  | _ => true

/-- A side takes something from its queue only while it has a number that it has not used. -/
def unusedNumber (link : Link) : LinkLabel → Bool
  | .endpoint side .receive => decide ((link.endpoint side).session.payloads.length < 256)
  | _ => true

def Undisturbed (link : Link) (label : LinkLabel) : Prop :=
  sound label = true ∧ unusedNumber link label = true

instance (link : Link) (label : LinkLabel) : Decidable (Undisturbed link label) :=
  inferInstanceAs (Decidable (_ ∧ _))

/-- The steps with which the threads and the wire go on by themselves. Users, timeouts and reads of
nothing are not among them. -/
def advances (link : Link) : LinkLabel → Bool
  | .deliver _ => true
  | .endpoint _ .receive => true
  | .endpoint _ (.handle _) => true
  | .endpoint _ .access => true
  | .endpoint side (.read length) => !((link.endpoint side).inbox.take length).isEmpty
  | .endpoint _ (.work .timeout) => false
  | .endpoint _ (.work _) => true
  | _ => false

section Conveying

def unread (receiver : Endpoint) : List Bytes :=
  (receiver.reader.decoder.decode receiver.inbox).2

/-- The packet has been accepted; its acknowledgement is in the queue or about to be. -/
def Answered (receiver : Endpoint) (data : Bytes) : Prop :=
  data ∈ receiver.accepted ∨
    data = receiver.handling ∧ ∃ event, .sendLoopback event ∈ receiver.accesses

/-- Every packet that was written is still on its way or has been answered, and nothing else
arrives. -/
structure Conveyed (sender : Session) (wire : List PortWrite) (receiver : Endpoint) : Prop where
  between : (receiver.reader.decoder.decode receiver.inbox).1 = .new ∨
    (receiver.reader.decoder.decode receiver.inbox).1 = .opened
  wired : ∀ write ∈ wire, write ∈ sender.portLog
  genuine : ∀ data, data ∈ unread receiver ∨ data ∈ receiver.packets ∨ Answered receiver data →
    ∃ packet, packet < sender.sentRounds.length ∧ Carries sender.payloads packet data
  kept : ∀ packet data, packet < sender.sentRounds.length → Carries sender.payloads packet data →
    (∃ write ∈ wire, write.packet = packet) ∨
      data ∈ unread receiver ∨ data ∈ receiver.packets ∨ Answered receiver data
  known : ∀ seqNum instant, receiver.reader.seqNumCache.seqNums.lookup seqNum = some instant →
    ∃ content, Answered receiver (AckPacket.new seqNum content).intoBytes

theorem conveyed_fresh : Conveyed .fresh [] .fresh where
  between := .inl rfl
  wired := by
    intro write member
    cases member
  genuine := by
    intro data arrived
    rcases arrived with member | member | member | ⟨_, _, member⟩ <;> cases member
  kept := by
    intro packet data inside
    cases inside
  known := by
    intro seqNum instant found
    cases found

variable {sender next : Session} {wire : List PortWrite} {receiver : Endpoint}

theorem carries_unique {payloads : List Bytes} {packet : Nat} {first second : Bytes}
    (one : Carries payloads packet first) (other : Carries payloads packet second) :
    first = second := by
  obtain ⟨payload, found, same⟩ := one
  obtain ⟨again, foundAgain, sameAgain⟩ := other
  rw [found] at foundAgain
  rw [same, sameAgain, Option.some.inj foundAgain]

theorem carries_of_append {payloads later : List Bytes} {packet : Nat} {data : Bytes}
    (inside : packet < payloads.length) (carries : Carries (payloads ++ later) packet data) :
    Carries payloads packet data := by
  obtain ⟨payload, found, same⟩ := carries
  rw [List.getElem?_append_left inside] at found
  exact ⟨payload, found, same⟩

theorem Conveyed.sends {label : SerialRetransmission.Label} (inv : SessionInv sender)
    (conveyed : Conveyed sender wire receiver) (taken : sender.step label = some next) :
    Conveyed next (wire ++ next.portLog.drop sender.portLog.length) receiver := by
  obtain ⟨later, grown⟩ := payloads_grow taken
  obtain ⟨writes, logged⟩ := inv.port_log_grows taken
  have new : next.portLog.drop sender.portLog.length = writes := by
    rw [logged, List.drop_left]
  have counts := inv.sent_rounds_grow taken
  have before {packet : Nat} {data : Bytes} (inside : packet < sender.sentRounds.length)
      (carries : Carries next.payloads packet data) : Carries sender.payloads packet data := by
    rw [grown] at carries
    exact carries_of_append (Nat.lt_of_lt_of_le inside inv.sent_le) carries
  constructor
  · exact conveyed.between
  · intro write member
    rw [logged]
    rcases List.mem_append.mp member with old | added
    · exact List.mem_append_left _ (conveyed.wired write old)
    · rw [new] at added
      exact List.mem_append_right _ added
  · intro data arrived
    obtain ⟨packet, inside, carries⟩ := conveyed.genuine data arrived
    refine ⟨packet, Nat.lt_of_lt_of_le inside counts, ?_⟩
    rw [grown]
    exact carries.append later
  · intro packet data inside carries
    by_cases old : packet < sender.sentRounds.length
    · rcases conveyed.kept packet data old (before old carries) with ⟨write, member, framed⟩ |
        arrived
      · exact .inl ⟨write, List.mem_append_left _ member, framed⟩
      · exact .inr arrived
    · cases inv.wrote taken with
      | nothing _ sent => exact absurd (sent ▸ inside) old
      | copy _ _ _ sent _ => exact absurd (sent ▸ inside) old
      | first content log sent =>
          rw [sent, List.length_append, List.length_singleton] at inside
          rw [log, List.drop_left]
          refine .inl ⟨_, List.mem_append_right _ List.mem_cons_self, ?_⟩
          simp only
          omega
  · exact conveyed.known

theorem Conveyed.arrives (inv : SessionInv sender) {write : PortWrite} {rest : List PortWrite}
    (conveyed : Conveyed sender (write :: rest) receiver) :
    Conveyed sender rest { receiver with inbox := receiver.inbox ++ write.frame } := by
  obtain ⟨inside, payload, found, framed⟩ :=
    inv.framed (conveyed.wired write List.mem_cons_self)
  let data := (AckPacket.new (seqNumOf write.packet) payload).intoBytes
  have decoded := decode_frame conveyed.between
    (ack_packet_nonempty (AckPacket.new (seqNumOf write.packet) payload))
  have grown : receiver.reader.decoder.decode (receiver.inbox ++ write.frame) =
      (.opened, unread receiver ++ [data]) := by
    rw [decode_append, framed, writeToStream, decoded]
    rfl
  have unreadNow : unread { receiver with inbox := receiver.inbox ++ write.frame } =
      unread receiver ++ [data] := by
    simp only [unread, grown]
  constructor
  · simp only [grown, or_true]
  · exact fun other member => conveyed.wired other (List.mem_cons_of_mem _ member)
  · intro other arrived
    rw [unreadNow, List.mem_append, List.mem_singleton] at arrived
    rcases arrived with (before | same) | later
    · exact conveyed.genuine other (.inl before)
    · exact ⟨write.packet, inside, payload, found, same⟩
    · exact conveyed.genuine other (.inr later)
  · intro packet other sent carries
    rw [unreadNow, List.mem_append, List.mem_singleton]
    rcases conveyed.kept packet other sent carries with ⟨wired, member, same⟩ | before | later
    · rcases List.mem_cons.mp member with head | tail
      · rw [← same, head] at carries
        exact .inr (.inl (.inr (carries_unique carries ⟨payload, found, rfl⟩)))
      · exact .inl ⟨wired, tail, same⟩
    · exact .inr (.inl (.inl before))
    · exact .inr (.inr later)
  · exact conveyed.known

theorem Conveyed.read (conveyed : Conveyed sender wire receiver) (idle : receiver.packets = [])
    (length : Nat) :
    Conveyed sender wire { receiver with
      reader := { receiver.reader with
        decoder := (receiver.reader.decoder.decode (receiver.inbox.take length)).1 }
      inbox := receiver.inbox.drop length
      packets := (receiver.reader.decoder.decode (receiver.inbox.take length)).2 } := by
  have split := decode_append receiver.reader.decoder (receiver.inbox.take length)
    (receiver.inbox.drop length)
  rw [List.take_append_drop] at split
  have between := conveyed.between
  have unreadNow : unread receiver =
      (receiver.reader.decoder.decode (receiver.inbox.take length)).2 ++
        ((receiver.reader.decoder.decode (receiver.inbox.take length)).1.decode
          (receiver.inbox.drop length)).2 := by
    rw [unread, split]
  rw [split] at between
  have decoded {data : Bytes} : data ∈ unread receiver ↔
      data ∈ ((receiver.reader.decoder.decode (receiver.inbox.take length)).1.decode
          (receiver.inbox.drop length)).2 ∨
        data ∈ (receiver.reader.decoder.decode (receiver.inbox.take length)).2 := by
    rw [unreadNow, List.mem_append, or_comm]
  exact { conveyed with
    between := between
    genuine := by
      intro data arrived
      apply conveyed.genuine data
      rcases arrived with later | now | answered
      · exact .inl (decoded.mpr (.inl later))
      · exact .inl (decoded.mpr (.inr now))
      · exact .inr (.inr answered)
    kept := by
      intro packet data inside carries
      rcases conveyed.kept packet data inside carries with wired | arrived | none | answered
      · exact .inl wired
      · rcases decoded.mp arrived with later | now
        · exact .inr (.inl later)
        · exact .inr (.inr (.inl now))
      · rw [idle] at none
        cases none
      · exact .inr (.inr (.inr answered)) }

theorem Conveyed.answers (conveyed : Conveyed sender wire receiver)
    (idle : receiver.accesses = []) {data : Bytes} {rest : List Bytes}
    (head : receiver.packets = data :: rest) {reader : SerialWorker}
    {accesses : List SharedAccess} (sameDecoder : reader.decoder = receiver.reader.decoder)
    (answered : ∀ other, Answered { receiver with
        reader := reader
        packets := rest
        handling := data
        accesses := accesses } other ↔ other ∈ receiver.accepted ∨ other = data)
    (stored : ∀ seqNum instant, reader.seqNumCache.seqNums.lookup seqNum = some instant →
      (∃ before, receiver.reader.seqNumCache.seqNums.lookup seqNum = some before) ∨
        ∃ content, data = (AckPacket.new seqNum content).intoBytes) :
    Conveyed sender wire { receiver with
      reader := reader
      packets := rest
      handling := data
      accesses := accesses } := by
  obtain ⟨first, later⟩ := of_tail head
  have before {other : Bytes} : Answered receiver other ↔ other ∈ receiver.accepted := by
    rw [Answered, idle]
    simp
  have sameUnread : unread { receiver with
      reader := reader
      packets := rest
      handling := data
      accesses := accesses } = unread receiver := by
    simp only [unread, sameDecoder]
  constructor
  · simp only [sameDecoder]
    exact conveyed.between
  · exact conveyed.wired
  · intro other arrived
    rw [answered, sameUnread] at arrived
    rcases arrived with decoded | queued | accepted | same
    · exact conveyed.genuine other (.inl decoded)
    · exact conveyed.genuine other (.inr (.inl (later other queued)))
    · exact conveyed.genuine other (.inr (.inr (before.mpr accepted)))
    · exact conveyed.genuine other (.inr (.inl (same ▸ first)))
  · intro packet other inside carries
    rw [answered, sameUnread]
    rcases conveyed.kept packet other inside carries with wired | decoded | queued | accepted
    · exact .inl wired
    · exact .inr (.inl decoded)
    · rw [head] at queued
      rcases List.mem_cons.mp queued with same | behind
      · exact .inr (.inr (.inr (.inr same)))
      · exact .inr (.inr (.inl behind))
    · exact .inr (.inr (.inr (.inl (before.mp accepted))))
  · intro seqNum instant recorded
    rcases stored seqNum instant recorded with ⟨earlier, found⟩ | ⟨content, same⟩
    · obtain ⟨content, accepted⟩ := conveyed.known seqNum earlier found
      exact ⟨content, (answered _).mpr (.inl (before.mp accepted))⟩
    · exact ⟨content, (answered _).mpr (.inr same.symm)⟩

/-- A packet whose number the receiver has noted was answered: no other packet has the number. -/
theorem Conveyed.noted (conveyed : Conveyed sender wire receiver) (inv : SessionInv sender)
    (few : sender.payloads.length ≤ 256) {packet : Nat} {data : Bytes} {instant : Instant}
    (inside : packet < sender.sentRounds.length) (carries : Carries sender.payloads packet data)
    (recorded : receiver.reader.seqNumCache.seqNums.lookup (seqNumOf packet) = some instant) :
    Answered receiver data := by
  obtain ⟨content, before⟩ := conveyed.known _ instant recorded
  obtain ⟨owner, ownerInside, owned⟩ := conveyed.genuine _ (.inr (.inr before))
  have ⟨_, _, encoded⟩ := owned
  have sameNumber := seq_num_of_inj.mp (ack_packet_seq_num encoded)
  have bound := inv.sent_le
  have samePacket : owner = packet := by omega
  rw [samePacket] at owned
  rw [carries_unique carries owned]
  exact before

theorem Conveyed.handle (conveyed : Conveyed sender wire receiver) (inv : SessionInv sender)
    (few : sender.payloads.length ≤ 256) (nonempty : ∀ payload ∈ sender.payloads, payload ≠ [])
    (idle : receiver.accesses = []) {now : Instant} {data : Bytes} {rest : List Bytes}
    (head : receiver.packets = data :: rest) :
    ∃ reader accesses, receiver.reader.handleData now data = returned (reader, accesses) ∧
      Conveyed sender wire { receiver with
        reader := reader
        packets := rest
        handling := data
        accesses := accesses } := by
  obtain ⟨packet, inside, carries⟩ := conveyed.genuine data (.inr (.inl (of_tail head).1))
  have ⟨payload, found, encoded⟩ := carries
  have returns := handle_data_ack_packet receiver.reader now (seqNumOf packet)
    (nonempty payload (List.mem_of_getElem? found))
  rw [← encoded] at returns
  cases recorded : receiver.reader.seqNumCache.seqNums.lookup (seqNumOf packet) with
  | none =>
      rw [insert_accepts (by rw [recorded]; simp)] at returns
      refine ⟨_, _, returns, conveyed.answers idle head rfl ?_ ?_⟩
      · intro other
        simp [Answered]
      · intro seqNum instant noted
        by_cases same : seqNum = seqNumOf packet
        · exact .inr ⟨payload, by rw [same, encoded]⟩
        · rw [AList.lookup_insert_ne same] at noted
          exact .inl ⟨instant, noted⟩
  | some before =>
      have answered := conveyed.noted inv few inside carries recorded
      rw [Answered, idle] at answered
      rcases insert_cases receiver.reader.seqNumCache now (seqNumOf packet) with again | refused
      · rw [again] at returns
        refine ⟨_, _, returns, conveyed.answers idle head rfl ?_ ?_⟩
        · intro other
          simp [Answered]
        · intro seqNum instant noted
          by_cases same : seqNum = seqNumOf packet
          · exact .inl ⟨before, by rw [same, recorded]⟩
          · rw [AList.lookup_insert_ne same] at noted
            exact .inl ⟨instant, noted⟩
      · rw [refused] at returns
        refine ⟨_, _, returns, conveyed.answers idle head rfl ?_ ?_⟩
        · intro other
          simp only [Answered, List.not_mem_nil, exists_false, and_false, or_false]
          constructor
          · exact .inl
          · rintro (accepted | same)
            · exact accepted
            · rw [same]
              simpa using answered
        · intro seqNum instant noted
          exact .inl ⟨instant, noted⟩

theorem answered_access {access : SharedAccess} {rest : List SharedAccess}
    (head : receiver.accesses = access :: rest) (data : Bytes) :
    Answered { receiver.perform access with accesses := rest } data ↔ Answered receiver data := by
  cases access with
  | sendLoopback event =>
      simp only [Answered, Endpoint.perform, head, List.mem_append, List.mem_singleton]
      constructor
      · rintro ((before | same) | ⟨same, _⟩)
        · exact .inl before
        · exact .inr ⟨same, event, List.mem_cons_self⟩
        · exact .inr ⟨same, event, List.mem_cons_self⟩
      · rintro (before | ⟨same, _⟩)
        · exact .inl (.inl before)
        · exact .inl (.inr same)
  | sendTx event => simp [Answered, Endpoint.perform, head]
  | removeUnacked seqNum => simp [Answered, Endpoint.perform, head]

theorem Conveyed.access (conveyed : Conveyed sender wire receiver) {access : SharedAccess}
    {rest : List SharedAccess} (head : receiver.accesses = access :: rest) :
    Conveyed sender wire { receiver.perform access with accesses := rest } := by
  have sameReader : (receiver.perform access).reader = receiver.reader := by
    cases access <;> rfl
  have sameInbox : (receiver.perform access).inbox = receiver.inbox := by
    cases access <;> rfl
  have samePackets : (receiver.perform access).packets = receiver.packets := by
    cases access <;> rfl
  have sameUnread : unread { receiver.perform access with accesses := rest } =
      unread receiver := by
    simp only [unread, sameReader, sameInbox]
  constructor
  · simp only [sameReader, sameInbox]
    exact conveyed.between
  · exact conveyed.wired
  · intro data arrived
    rw [sameUnread, answered_access head] at arrived
    simp only [samePackets] at arrived
    exact conveyed.genuine data arrived
  · intro packet data inside carries
    rw [sameUnread, answered_access head]
    simp only [samePackets]
    exact conveyed.kept packet data inside carries
  · intro seqNum instant recorded
    simp only [sameReader] at recorded
    obtain ⟨content, answered⟩ := conveyed.known seqNum instant recorded
    exact ⟨content, (answered_access head _).mpr answered⟩

end Conveying

section Balance

variable {endpoint after : Endpoint}

def Looping (session : Session) : Prop :=
  session.worker.position ≠ .stopped ∧ session.Running

/-- What users sent and what was accepted has been taken from the queue or is still in it, and
both threads go on. -/
structure Balanced (endpoint : Endpoint) : Prop where
  few : endpoint.session.payloads.length ≤ 256
  counted : endpoint.session.payloads.length + endpoint.queue.length =
    endpoint.userData.length + endpoint.accepted.length
  queued : ∀ entry ∈ endpoint.queue, ∃ content, entry.1 = .data content
  looping : Looping endpoint.session
  reading : endpoint.readerPanic = none

theorem balanced_fresh : Balanced .fresh where
  few := by decide
  counted := rfl
  queued := by
    intro entry member
    cases member
  looping := by
    constructor
    · intro same
      cases same
    · intro message same
      cases same
  reading := rfl

theorem payloads_nonempty (inv : EndpointInv endpoint) :
    ∀ payload ∈ endpoint.session.payloads, payload ≠ [] := by
  intro payload member
  obtain ⟨packet, found⟩ := List.mem_iff_getElem?.mp member
  have inside := (List.getElem?_eq_some_iff.mp found).1
  rw [← inv.counted] at inside
  obtain ⟨content, carried, noted⟩ :=
    inv.carried packet _ (List.getElem?_eq_getElem inside)
  rw [found] at carried
  rw [Option.some.inj carried]
  cases origin : endpoint.origins[packet] with
  | user =>
      rw [origin] at noted
      exact inv.nonempty content noted
  | acknowledgement index =>
      rw [origin] at noted
      obtain ⟨seqNum, _, _, _, same⟩ := noted
      rw [same]
      exact ack_nonempty _

/-- As long as the port takes every write, the write thread ends only by what it receives. -/
theorem looping_step {session next : Session} {action : Action} (inv : SessionInv session)
    (notReceived : ∀ event, action ≠ .receive event)
    (notHungUp : action ≠ .hangUp) (accepted : action ≠ .write false)
    (taken : session.step (.worker action) = some next) : Looping next := by
  obtain ⟨worker, moved, rfl⟩ := Option.map_eq_some_iff.mp taken
  rw [Looping, Session.Running, record_worker]
  cases taken_of_step moved with
  | data data place => exact absurd rfl (notReceived _)
  | stop place => exact absurd rfl (notReceived _)
  | unexpected event message place other => exact absurd rfl (notReceived _)
  | hangUp message place => exact absurd rfl notHungUp
  | writeFails message => exact absurd rfl accepted
  | collectPanics order message place visited collected =>
      obtain ⟨left, reached, _⟩ := collect_unacked_spec visited inv.positive
      rw [reached] at collected
      cases collected
  | timeout place => simp
  | write data place => simp
  | mark data place => simp
  | bump place => simp
  | collect order guard writes place visited collected => simp
  | resend data rest place => simp
  | loop place => simp

theorem Balanced.receive (balanced : Balanced endpoint)
    (unused : endpoint.session.payloads.length < 256) {event : Event Bytes} {origin : Origin}
    {rest : List (Event Bytes × Origin)} {session : Session}
    (head : endpoint.queue = (event, origin) :: rest)
    (moved : endpoint.session.step (.worker (.receive event)) = some session) :
    Balanced { endpoint with
      session := session
      queue := rest
      origins := endpoint.origins ++ Endpoint.originsOf event origin } := by
  obtain ⟨first, later⟩ := of_tail head
  obtain ⟨content, same⟩ := balanced.queued _ first
  simp only at same
  rw [same] at moved
  have count : session.payloads.length = endpoint.session.payloads.length + 1 := by
    rw [payloads_of_receive moved, List.length_append, List.length_singleton]
  have total := balanced.counted
  rw [head, List.length_cons] at total
  exact { balanced with
    few := by
      simp only [count]
      omega
    counted := by
      simp only [count]
      omega
    queued := fun entry member => balanced.queued entry (later entry member)
    looping := by
      obtain ⟨worker, taken, rfl⟩ := Option.map_eq_some_iff.mp moved
      rw [Looping, Session.Running, record_worker]
      cases taken_of_step taken with
      | data _ place => simp
      | unexpected _ message place other => exact absurd rfl (other content) }

theorem Balanced.work (inv : EndpointInv endpoint) (balanced : Balanced endpoint)
    {action : Action} {session : Session} (accepted : action ≠ .write false)
    (enabled : endpoint.Enabled action = true)
    (moved : endpoint.session.step (.worker action) = some session) :
    Balanced { endpoint with session := session } := by
  have notReceived : ∀ event, action ≠ .receive event := by
    intro event same
    rw [same] at enabled
    cases enabled
  have notHungUp : action ≠ .hangUp := by
    intro same
    rw [same] at enabled
    cases enabled
  have same := payloads_of_other (fun data => notReceived (.data data)) moved
  exact { balanced with
    few := by
      simp only [same]
      exact balanced.few
    counted := by
      simp only [same]
      exact balanced.counted
    looping := looping_step inv.session notReceived notHungUp accepted moved }

theorem Balanced.access (inv : EndpointInv endpoint) (balanced : Balanced endpoint)
    {access : SharedAccess} {rest : List SharedAccess}
    (head : endpoint.accesses = access :: rest) :
    Balanced { endpoint.perform access with accesses := rest } := by
  cases access with
  | sendTx event => exact { balanced with }
  | removeUnacked seqNum => exact { balanced with }
  | sendLoopback event =>
      obtain ⟨seqNum, _, _, _, same⟩ := inv.answers event (of_tail head).1
      have total := balanced.counted
      exact { balanced with
        counted := by
          simp only [Endpoint.perform, List.length_append, List.length_singleton]
          omega
        queued := by
          intro entry member
          rcases List.mem_append.mp member with before | new
          · exact balanced.queued entry before
          · rw [List.mem_singleton.mp new]
            exact ⟨_, same⟩ }

theorem read_idle {length : Nat} (taken : endpoint.step (.read length) = some after) :
    endpoint.packets = [] := by
  simp only [Endpoint.step] at taken
  split_ifs at taken with ready
  exact ready.2.1

theorem handle_parts {now : Instant} (taken : endpoint.step (.handle now) = some after) :
    endpoint.accesses = [] ∧ ∃ data rest, endpoint.packets = data :: rest ∧
      ∀ reader accesses, endpoint.reader.handleData now data = returned (reader, accesses) →
        after = { endpoint with
          reader := reader
          packets := rest
          handling := data
          accesses := accesses } := by
  simp only [Endpoint.step] at taken
  split at taken
  · rename_i data rest _ idle head
    refine ⟨idle, data, rest, head, ?_⟩
    intro reader accesses returns
    rw [returns] at taken
    exact (Option.some.inj taken).symm
  · cases taken

end Balance

structure EchoInv (link : Link) : Prop where
  endpoints : ∀ side, EndpointInv (link.endpoint side)
  balanced : ∀ side, Balanced (link.endpoint side)
  conveyed : ∀ side, Conveyed (link.endpoint side).session (link.wire side)
    (link.endpoint side.other)

theorem echo_inv_fresh : EchoInv .fresh where
  endpoints := fun _ => SerialEndpoint.inv_fresh
  balanced := fun _ => balanced_fresh
  conveyed := fun _ => conveyed_fresh

variable {link next : Link}

theorem EchoInv.replaced (inv : EchoInv link) {side : Side} {after : Endpoint}
    {wire : Side → List PortWrite} (endpointInv : EndpointInv after) (balanced : Balanced after)
    (sends : Conveyed after.session (wire side) (link.endpoint side.other))
    (hears : Conveyed (link.endpoint side.other).session (wire side.other) after) :
    EchoInv { endpoint := Function.update link.endpoint side after, wire := wire } := by
  have apart : Function.update link.endpoint side after side.other =
      link.endpoint side.other := Function.update_of_ne side.other_ne _ _
  have itself : Function.update link.endpoint side after side = after :=
    Function.update_self _ _ _
  constructor
  · intro index
    by_cases same : index = side
    · simp only [same, itself]
      exact endpointInv
    · simp only [Side.other_eq same, apart]
      exact inv.endpoints side.other
  · intro index
    by_cases same : index = side
    · simp only [same, itself]
      exact balanced
    · simp only [Side.other_eq same, apart]
      exact inv.balanced side.other
  · intro index
    by_cases same : index = side
    · simp only [same, itself, apart]
      exact sends
    · simp only [Side.other_eq same, side.other_other, apart, itself]
      exact hears

theorem EchoInv.endpoint_step (inv : EchoInv link) {side : Side} {label : SerialEndpoint.Label}
    {after : Endpoint} (undisturbed : Undisturbed link (.endpoint side label))
    (notArrival : ∀ bytes, label ≠ .arrive bytes)
    (taken : (link.endpoint side).step label = some after) :
    Balanced after ∧
      Conveyed (link.endpoint side.other).session (link.wire side.other) after := by
  have endpointInv := inv.endpoints side
  have balanced := inv.balanced side
  have conveyed := inv.conveyed side.other
  rw [side.other_other] at conveyed
  have sound := undisturbed.1
  have unused := undisturbed.2
  cases label with
  | handle now =>
      obtain ⟨idle, data, rest, head, handled⟩ := handle_parts taken
      have few := (inv.balanced side.other).few
      have nonempty := payloads_nonempty (inv.endpoints side.other)
      obtain ⟨reader, accesses, returns, hears⟩ :=
        @Conveyed.handle _ _ _ conveyed (inv.endpoints side.other).session few nonempty idle now
          data rest head
      rw [handled reader accesses returns]
      exact ⟨{ balanced with }, hears⟩
  | read length =>
      have idle := read_idle taken
      cases moved_of_step taken with
      | read length => exact ⟨{ balanced with }, conveyed.read idle length⟩
  | user dispatchByte message =>
      cases moved_of_step taken with
      | user dispatchByte message =>
          have total := balanced.counted
          refine ⟨{ balanced with counted := ?_, queued := ?_ }, { conveyed with }⟩
          · simp only [List.length_append, List.length_singleton]
            omega
          · intro entry member
            rcases List.mem_append.mp member with before | new
            · exact balanced.queued entry before
            · rw [List.mem_singleton.mp new]
              exact ⟨_, rfl⟩
  | stop => cases sound
  | receive =>
      cases moved_of_step taken with
      | receive event origin rest session head moved =>
          exact ⟨balanced.receive (of_decide_eq_true unused) head moved, { conveyed with }⟩
  | work action =>
      cases moved_of_step taken with
      | work action session enabled moved =>
          have accepted : action ≠ .write false := by
            intro same
            rw [same] at sound
            cases sound
          exact ⟨balanced.work endpointInv accepted enabled moved, { conveyed with }⟩
  | arrive bytes => exact absurd rfl (notArrival bytes)
  | access =>
      cases moved_of_step taken with
      | access access rest head =>
          exact ⟨balanced.access endpointInv head, conveyed.access head⟩

theorem echo_inv_step {label : LinkLabel} (undisturbed : Undisturbed link label)
    (inv : EchoInv link) (taken : link.step label = some next) : EchoInv next := by
  unfold Link.step at taken
  split at taken
  · cases taken
  · rename_i side label notArrival
    obtain ⟨after, moved, rfl⟩ := Option.map_eq_some_iff.mp taken
    have ⟨balanced, hears⟩ := inv.endpoint_step undisturbed notArrival moved
    apply inv.replaced (inv_endpoint_step (inv.endpoints side) moved) balanced
    · rw [Function.update_self]
      rcases session_step moved with same | ⟨sessionLabel, stepped⟩
      · rw [same, List.drop_length, List.append_nil]
        exact inv.conveyed side
      · exact (inv.conveyed side).sends (inv.endpoints side).session stepped
    · rw [Function.update_of_ne side.other_ne]
      exact hears
  · rename_i side
    split at taken
    · cases taken
    · rename_i write rest head
      cases taken
      have conveyed := inv.conveyed side
      have balanced := inv.balanced side.other
      rw [head] at conveyed
      apply inv.replaced
      · exact @inv_endpoint_step _ _ (.arrive write.frame) (inv.endpoints side.other) rfl
      · exact { balanced with }
      · rw [Function.update_of_ne side.other_ne]
        exact inv.conveyed side.other
      · rw [side.other_other, Function.update_self]
        exact conveyed.arrives (inv.endpoints side).session
  · cases undisturbed.1

/-- Nothing is under way on a side: its write thread waits at an empty queue, its wire is empty,
and its read thread has read and handled all that arrived. -/
structure AtRest (link : Link) (side : Side) : Prop where
  queue : (link.endpoint side).queue = []
  place : (link.endpoint side).session.worker.position = .receiving
  wire : link.wire side = []
  inbox : (link.endpoint side).inbox = []
  packets : (link.endpoint side).packets = []
  accesses : (link.endpoint side).accesses = []

theorem link_step_of_endpoint {side : Side} {label : SerialEndpoint.Label} {after : Endpoint}
    (notArrival : ∀ bytes, label ≠ .arrive bytes)
    (taken : (link.endpoint side).step label = some after) :
    ∃ next, link.step (.endpoint side label) = some next := by
  cases label with
  | arrive bytes => exact absurd rfl (notArrival bytes)
  | _ => exact ⟨_, by simp only [Link.step, taken, Option.map_some]; rfl⟩

theorem working_step {session : Session} (looping : Looping session)
    (busy : session.worker.position ≠ .receiving) :
    ∃ action next, session.step (.worker action) = some next ∧ action ≠ .timeout ∧
      (∀ event, action ≠ .receive event) ∧ action ≠ .hangUp := by
  have enabled {action : Action} {worker : ConnectionWorker}
      (taken : SerialSending.step session.worker action = some worker) :
      ∃ next, session.step (.worker action) = some next :=
    ⟨session.record action worker, by rw [Session.step, taken]; rfl⟩
  cases place : session.worker.position with
  | receiving => exact absurd place busy
  | stopped => exact absurd place looping.1
  | panicked message => exact absurd place (looping.2 message)
  | writing data =>
      obtain ⟨next, taken⟩ := @enabled (.write true) _
        (by simp only [SerialSending.step, place]; rfl)
      exact ⟨.write true, next, taken, by simp, by simp, by simp⟩
  | marking data =>
      obtain ⟨next, taken⟩ := @enabled .mark _ (by simp only [SerialSending.step, place]; rfl)
      exact ⟨.mark, next, taken, by simp, by simp, by simp⟩
  | bumping =>
      obtain ⟨next, taken⟩ := @enabled .bump _ (by simp only [SerialSending.step, place]; rfl)
      exact ⟨.bump, next, taken, by simp, by simp, by simp⟩
  | collecting =>
      have visited : session.worker.waitingForAck.keys.Perm session.worker.waitingForAck.keys :=
        .refl _
      obtain ⟨worker, taken⟩ : ∃ worker, SerialSending.step session.worker
          (.collect session.worker.waitingForAck.keys) = some worker := by
        simp only [SerialSending.step, place, if_pos visited]
        split
        · exact ⟨_, rfl⟩
        · exact ⟨_, rfl⟩
      obtain ⟨next, moved⟩ := enabled taken
      exact ⟨_, next, moved, by simp, by simp, by simp⟩
  | resending writes =>
      cases writes with
      | nil =>
          obtain ⟨next, taken⟩ := @enabled .loop _ (by simp only [SerialSending.step, place]; rfl)
          exact ⟨.loop, next, taken, by simp, by simp, by simp⟩
      | cons data rest =>
          obtain ⟨next, taken⟩ :=
            @enabled (.write true) _ (by simp only [SerialSending.step, place]; rfl)
          exact ⟨.write true, next, taken, by simp, by simp, by simp⟩

/-- Where no step of the threads and the wires is possible, they are at rest. -/
theorem EchoInv.at_rest (inv : EchoInv link)
    (stuck : ∀ label next, advances link label = true → link.step label ≠ some next)
    (side : Side) : AtRest link side := by
  have balanced := inv.balanced side
  have blocked (label : SerialEndpoint.Label) (notArrival : ∀ bytes, label ≠ .arrive bytes)
      (counts : advances link (.endpoint side label) = true) :
      (link.endpoint side).step label = none := by
    cases taken : (link.endpoint side).step label with
    | none => rfl
    | some after =>
        obtain ⟨next, moved⟩ := link_step_of_endpoint notArrival taken
        exact absurd moved (stuck _ next counts)
  have accesses : (link.endpoint side).accesses = [] := by
    cases head : (link.endpoint side).accesses with
    | nil => rfl
    | cons access rest =>
        have none := blocked .access (by simp) rfl
        simp only [Endpoint.step, head] at none
        cases none
  have packets : (link.endpoint side).packets = [] := by
    cases head : (link.endpoint side).packets with
    | nil => rfl
    | cons data rest =>
        have none := blocked (.handle 0) (by simp) rfl
        simp only [Endpoint.step, balanced.reading, accesses, head] at none
        split at none <;> cases none
  have inbox : (link.endpoint side).inbox = [] := by
    cases bytes : (link.endpoint side).inbox with
    | nil => rfl
    | cons first rest =>
        have ready : (link.endpoint side).readerPanic = none ∧ (link.endpoint side).packets = [] ∧
            (link.endpoint side).accesses = [] ∧ 255 ≤ 255 :=
          ⟨balanced.reading, packets, accesses, Nat.le_refl _⟩
        have none := blocked (.read 255) (by simp) (by simp [advances, bytes])
        simp only [Endpoint.step, if_pos ready] at none
        cases none
  have place : (link.endpoint side).session.worker.position = .receiving := by
    by_contra busy
    obtain ⟨action, next, taken, notTimeout, notReceived, notHungUp⟩ :=
      working_step balanced.looping busy
    have enabled : (link.endpoint side).Enabled action = true := by
      cases action with
      | timeout => exact absurd rfl notTimeout
      | receive event => exact absurd rfl (notReceived event)
      | hangUp => exact absurd rfl notHungUp
      | _ => rfl
    have counts : advances link (.endpoint side (.work action)) = true := by
      cases action with
      | timeout => exact absurd rfl notTimeout
      | _ => rfl
    have none := blocked (.work action) (by simp) counts
    simp only [Endpoint.step, if_pos enabled, taken, Option.map_some] at none
    cases none
  have queue : (link.endpoint side).queue = [] := by
    cases head : (link.endpoint side).queue with
    | nil => rfl
    | cons entry rest =>
        obtain ⟨content, same⟩ := balanced.queued entry (by rw [head]; exact List.mem_cons_self)
        have none := blocked .receive (by simp) rfl
        simp only [Endpoint.step, head, same, Session.step, SerialSending.step, place,
          Option.map_some] at none
        cases none
  have wire : link.wire side = [] := by
    cases head : link.wire side with
    | nil => rfl
    | cons write rest =>
        refine absurd ?_ (stuck (.deliver side)
          { endpoint := Function.update link.endpoint side.other
              { link.endpoint side.other with
                inbox := (link.endpoint side.other).inbox ++ write.frame }
            wire := Function.update link.wire side rest } rfl)
        simp only [Link.step, head, Endpoint.step, Option.map_some]
  exact ⟨queue, place, wire, inbox, packets, accesses⟩

/-- At rest a side has accepted every packet that the other one took from its queue. -/
theorem EchoInv.all_accepted (inv : EchoInv link) {side : Side} (rest : AtRest link side)
    (otherRest : AtRest link side.other) :
    (link.endpoint side).session.payloads.length ≤ (link.endpoint side.other).accepted.length := by
  have conveyed := inv.conveyed side
  have sessionInv := (inv.endpoints side).session
  have few := (inv.balanced side).few
  have place := sessionInv.place
  simp only [InPlace, rest.place] at place
  let packetOf (packet : Nat) : Bytes := (AckPacket.new (seqNumOf packet)
    ((link.endpoint side).session.payloads.getD packet [])).intoBytes
  have distinct : ((List.range (link.endpoint side).session.payloads.length).map
      packetOf).Nodup := by
    rw [List.nodup_map_iff_inj_on List.nodup_range]
    intro first firstInside second secondInside same
    rw [List.mem_range] at firstInside secondInside
    have residues := seq_num_of_inj.mp (ack_packet_seq_num same)
    omega
  have subset : (List.range (link.endpoint side).session.payloads.length).map packetOf ⊆
      (link.endpoint side.other).accepted := by
    intro data member
    obtain ⟨packet, inside, rfl⟩ := List.mem_map.mp member
    rw [List.mem_range] at inside
    have carries : Carries (link.endpoint side).session.payloads packet (packetOf packet) := by
      refine ⟨(link.endpoint side).session.payloads[packet], ?_, ?_⟩
      · exact List.getElem?_eq_getElem inside
      · simp only [packetOf, List.getD_eq_getElem _ _ inside]
    have nothing : unread (link.endpoint side.other) = [] := by
      rw [unread, otherRest.inbox]
      rfl
    rcases conveyed.kept packet _ (by omega) carries with ⟨write, wired, _⟩ | decoded | queued |
      accepted | ⟨_, event, waiting⟩
    · rw [rest.wire] at wired
      cases wired
    · rw [nothing] at decoded
      cases decoded
    · rw [otherRest.packets] at queued
      cases queued
    · exact accepted
    · rw [otherRest.accesses] at waiting
      cases waiting
  have bound := (distinct.subperm subset).length_le
  rwa [List.length_map, List.length_range] at bound

/-- In every run of an undisturbed link, under every interleaving of its four threads: no write
thread ends, no read thread panics, and once a user of either side has sent something there is
always a step left that the threads and the wires take by themselves. The acknowledgements of
acknowledgements do not cease while no number is used again. -/
theorem echo_never_ends (labels : List LinkLabel) (last : Link)
    (undisturbed : Meets Link.step Undisturbed .fresh labels)
    (reached : run Link.step .fresh labels = some last) (side : Side)
    (sent : (last.endpoint side).userData ≠ []) :
    (∀ either, Looping (last.endpoint either).session ∧
      (last.endpoint either).readerPanic = none) ∧
    ∃ label next, advances last label = true ∧ last.step label = some next := by
  have inv : EchoInv last := invariant_of_meets
    (fun _ _ _ undisturbed inv taken => echo_inv_step undisturbed inv taken)
    undisturbed echo_inv_fresh reached
  refine ⟨fun either => ⟨(inv.balanced either).looping, (inv.balanced either).reading⟩, ?_⟩
  by_contra none
  have stuck : ∀ label next, advances last label = true → last.step label ≠ some next := by
    intro label next counts taken
    exact none ⟨label, next, counts, taken⟩
  have rest := inv.at_rest stuck side
  have otherRest := inv.at_rest stuck side.other
  have accepted := inv.all_accepted rest otherRest
  have back := inv.all_accepted otherRest (side.other_other.symm ▸ rest)
  rw [side.other_other] at back
  have books := (inv.balanced side).counted
  have otherBooks := (inv.balanced side.other).counted
  rw [rest.queue, List.length_nil] at books
  rw [otherRest.queue, List.length_nil] at otherBooks
  have some := List.length_pos_iff.mpr sent
  omega

/-- After the message has crossed, its acknowledgement is still to be taken from the queue. -/
theorem crossing_echoes :
    ∃ last, run Link.step .fresh crossing = some last ∧
      (∀ either, Looping (last.endpoint either).session ∧
        (last.endpoint either).readerPanic = none) ∧
      ∃ label next, advances last label = true ∧ last.step label = some next := by
  have crossed : ((run Link.step .fresh crossing).map fun last =>
      (last.endpoint .left).userData) = some [[0x01, 0x2A]] := by decide +kernel
  have undisturbed : Meets Link.step Undisturbed .fresh crossing := by decide +kernel
  obtain ⟨last, reached, all⟩ := Option.map_eq_some_iff.mp crossed
  have sent : (last.endpoint .left).userData ≠ [] := by
    rw [all]
    exact List.cons_ne_nil _ _
  exact ⟨last, reached, echo_never_ends crossing last undisturbed reached .left sent⟩

end MoteConnection.SerialEcho
