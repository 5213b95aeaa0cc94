import MoteConnection.SerialRetransmission

/-!
# Delivery over a perfect link

One write thread and the `SerialWorker` of its peer, joined by a link that
takes no time and loses nothing: the peer handles a frame at the instant at
which it is written. Each action has its own instant; nothing is assumed about
how long a turn of the loop takes.

The peer tells a copy from a new packet by an eight-bit number and a cooldown of
ten seconds. Everything is delivered exactly once and in order as long as the
copies of a packet are written within the cooldown of its first write, and a
number is used again only after the cooldown. Neither can be left out.
-/

namespace MoteConnection.SerialDelivery

open LabeledRuns
open MoteConnection.Runtime MoteConnection.HdlcFraming MoteConnection.SerialPackets
open MoteConnection.SerialReceiving MoteConnection.SerialSending
open MoteConnection.SerialRetransmission
open Outcome

set_option autoImplicit false

def sentUp (accesses : List SharedAccess) : List (Event Bytes) :=
  accesses.filterMap fun access =>
    match access with
    | .sendTx event => some event
    | _ => none

structure Hearing where
  peer : SerialWorker
  events : List (Event Bytes)
  panicked : Bool

def handleAll (now : Instant) (peer : SerialWorker) : List Bytes → Hearing
  | [] => ⟨peer, [], false⟩
  | data :: rest =>
      match peer.handleData now data with
      | returned (next, accesses) =>
          let later := handleAll now next rest
          { later with events := sentUp accesses ++ later.events }
      | panicked _ => ⟨peer, [], true⟩

def hear (peer : SerialWorker) (now : Instant) (bytes : Bytes) : Hearing :=
  let (decoder, packets) := peer.decoder.decode bytes
  handleAll now { peer with decoder := decoder } packets

/-- Nobody hears what arrives after a panic. -/
def hearUnless (panicked : Bool) (peer : SerialWorker) (now : Instant) (bytes : Bytes) :
    Hearing :=
  if panicked then ⟨peer, [], true⟩ else hear peer now bytes

/-- `firstTimes` has the instant at which each packet was first written. -/
structure Delivery where
  session : Session
  now : Instant
  firstTimes : List Instant
  peer : SerialWorker
  peerPanicked : Bool
  delivered : List (Event Bytes)

def Delivery.fresh : Delivery := ⟨.fresh, 0, [], .new, false, []⟩

namespace Delivery

def written (before after : Session) : List PortWrite :=
  after.portLog.drop before.portLog.length

def step (delivery : Delivery) (label : Instant × Label) : Option Delivery :=
  if delivery.now ≤ label.1 then
    (delivery.session.step label.2).map fun session =>
      let writes := written delivery.session session
      let heard := hearUnless delivery.peerPanicked delivery.peer label.1
        (writes.flatMap (·.frame))
      { session := session
        now := label.1
        firstTimes := delivery.firstTimes ++
          (writes.filter fun write => !write.resend).map fun _ => label.1
        peer := heard.peer
        peerPanicked := heard.panicked
        delivered := delivery.delivered ++ heard.events }
  else none

/-- A copy of a packet is written at most ten seconds after its first write; a packet is first
written more than ten seconds after the packet that had its sequence number before it. -/
def Timely (delivery : Delivery) (label : Instant × Label) : Prop :=
  ∀ session ∈ delivery.session.step label.2, ∀ write ∈ written delivery.session session,
    if write.resend then
      ∀ first ∈ delivery.firstTimes[write.packet]?, label.1 ≤ first + fromSecs 10
    else
      256 ≤ write.packet → ∀ first ∈ delivery.firstTimes[write.packet - 256]?,
        first + fromSecs 10 < label.1

instance (delivery : Delivery) (label : Instant × Label) : Decidable (delivery.Timely label) :=
  inferInstanceAs (Decidable (∀ session ∈ delivery.session.step label.2,
    ∀ write ∈ written delivery.session session, ite _ _ _))

end Delivery

theorem hear_frame {peer : SerialWorker} (idle : peer.decoder = .new ∨ peer.decoder = .opened)
    (now : Instant) (seqNum : UInt8) {payload : Bytes} (nonempty : payload ≠ []) :
    hear peer now (HdlcCodec.encode (AckPacket.new seqNum payload).intoBytes) =
      match peer.seqNumCache.insert now seqNum with
      | (cache, .ok ()) => ⟨⟨cache, .opened⟩, [.data payload], false⟩
      | (cache, .error ()) => ⟨⟨cache, .opened⟩, [], false⟩ := by
  have decoded := decode_frame idle (ack_packet_nonempty (AckPacket.new seqNum payload))
  unfold hear
  rw [decoded]
  simp only [handleAll]
  rw [handle_data_ack_packet _ now seqNum nonempty]
  rcases insert_cases peer.seqNumCache now seqNum with accepted | refused
  · rw [accepted]
    rfl
  · rw [refused]
    rfl

theorem hear_nothing (peer : SerialWorker) (now : Instant) :
    hear peer now [] = ⟨peer, [], false⟩ := rfl

/-- The peer's cache has the instant of the first write of each packet whose number is still its
own, and knows no number that was never used. -/
structure DeliveryInv (delivery : Delivery) : Prop where
  session : SessionInv delivery.session
  timed : delivery.firstTimes.length = delivery.session.sentRounds.length
  running : delivery.peerPanicked = false
  idle : delivery.peer.decoder = .new ∨ delivery.peer.decoder = .opened
  cooldown : delivery.peer.seqNumCache.timeout = fromSecs 10
  known : ∀ (packet : Nat) first, delivery.firstTimes[packet]? = some first →
    delivery.session.sentRounds.length ≤ packet + 256 →
    delivery.peer.seqNumCache.seqNums.lookup (seqNumOf packet) = some first
  unknown : ∀ seqNum, delivery.session.sentRounds.length ≤ seqNum.toNat →
    delivery.peer.seqNumCache.seqNums.lookup seqNum = none
  delivered : delivery.delivered =
    (delivery.session.payloads.take delivery.session.sentRounds.length).map .data

theorem delivery_inv_fresh : DeliveryInv .fresh where
  session := inv_fresh
  timed := rfl
  running := rfl
  idle := .inl rfl
  cooldown := rfl
  known := by
    intro packet first found
    cases found
  unknown := by
    intro seqNum _
    rfl
  delivered := rfl

variable {delivery : Delivery}

theorem take_payloads {before after : Session} (inv : SessionInv before) {later : List Bytes}
    (grown : after.payloads = before.payloads ++ later) :
    after.payloads.take before.sentRounds.length =
      before.payloads.take before.sentRounds.length := by
  rw [grown, List.take_append_of_le_length inv.sent_le]

/-- The number of the next packet is not on cooldown any more, if it ever was. -/
theorem DeliveryInv.cold (inv : DeliveryInv delivery) {now : Instant}
    (fresh : 256 ≤ delivery.session.sentRounds.length →
      ∀ first ∈ delivery.firstTimes[delivery.session.sentRounds.length - 256]?,
        first + fromSecs 10 < now) :
    ∀ instant, delivery.peer.seqNumCache.seqNums.lookup
      (seqNumOf delivery.session.sentRounds.length) = some instant →
        instant < now - delivery.peer.seqNumCache.timeout := by
  intro instant recorded
  by_cases reused : 256 ≤ delivery.session.sentRounds.length
  · have inside : delivery.session.sentRounds.length - 256 < delivery.firstTimes.length := by
      rw [inv.timed]
      omega
    have present : delivery.firstTimes[delivery.session.sentRounds.length - 256]? =
        some delivery.firstTimes[delivery.session.sentRounds.length - 256] :=
      List.getElem?_eq_getElem inside
    have before := inv.known _ _ present (by omega)
    have sameNumber : seqNumOf (delivery.session.sentRounds.length - 256) =
        seqNumOf delivery.session.sentRounds.length := by
      rw [seq_num_of_inj]
      omega
    rw [sameNumber, recorded] at before
    have sameInstant := Option.some.inj before
    have after := fresh reused _ present
    rw [← sameInstant] at after
    rw [inv.cooldown]
    exact Nat.lt_sub_of_add_lt after
  · have never := inv.unknown (seqNumOf delivery.session.sentRounds.length) (by
      rw [seq_num_of_toNat]
      omega)
    rw [never] at recorded
    cases recorded

theorem DeliveryInv.known_next (inv : DeliveryInv delivery) {now : Instant} {packet : Nat}
    {first : Instant} (found : (delivery.firstTimes ++ [now])[packet]? = some first)
    (current : delivery.session.sentRounds.length + 1 ≤ packet + 256) :
    (delivery.peer.seqNumCache.seqNums.insert
      (seqNumOf delivery.session.sentRounds.length) now).lookup (seqNumOf packet) =
        some first := by
  have inside := (List.getElem?_eq_some_iff.mp found).1
  rw [List.length_append, List.length_singleton, inv.timed] at inside
  by_cases newest : packet = delivery.session.sentRounds.length
  · have last : (delivery.firstTimes ++ [now])[delivery.firstTimes.length]? = some now :=
      List.getElem?_concat_length
    rw [newest, ← inv.timed, last] at found
    rw [newest, ← Option.some.inj found]
    exact AList.lookup_insert _
  · have older : packet < delivery.session.sentRounds.length := by omega
    have otherNumber : seqNumOf packet ≠ seqNumOf delivery.session.sentRounds.length := by
      intro same
      have residues := seq_num_of_inj.mp same
      omega
    rw [List.getElem?_append_left (by rw [inv.timed]; exact older)] at found
    rw [AList.lookup_insert_ne otherNumber]
    exact inv.known packet first found (by omega)

theorem DeliveryInv.unknown_next (inv : DeliveryInv delivery) (now : Instant) {seqNum : UInt8}
    (unused : delivery.session.sentRounds.length + 1 ≤ seqNum.toNat) :
    (delivery.peer.seqNumCache.seqNums.insert
      (seqNumOf delivery.session.sentRounds.length) now).lookup seqNum = none := by
  have otherNumber : seqNum ≠ seqNumOf delivery.session.sentRounds.length := by
    intro same
    rw [same, seq_num_of_toNat] at unused
    have small := Nat.mod_le delivery.session.sentRounds.length 256
    omega
  rw [AList.lookup_insert_ne otherNumber]
  exact inv.unknown seqNum (by omega)

/-- The first write of a packet is taken by the peer as new. -/
theorem DeliveryInv.first (inv : DeliveryInv delivery) {next : Session} {now : Instant}
    {frame payload : Bytes} (nextInv : SessionInv next)
    (sent : next.sentRounds = delivery.session.sentRounds ++ [delivery.session.rounds])
    (received : next.payloads[delivery.session.sentRounds.length]? = some payload)
    (nonempty : payload ≠ [])
    (framed : frame = writeToStream
      (AckPacket.new (seqNumOf delivery.session.sentRounds.length) payload).intoBytes)
    {later : List Bytes} (grown : next.payloads = delivery.session.payloads ++ later)
    (fresh : 256 ≤ delivery.session.sentRounds.length →
      ∀ first ∈ delivery.firstTimes[delivery.session.sentRounds.length - 256]?,
        first + fromSecs 10 < now) :
    ∃ peer, hear delivery.peer now frame = ⟨peer, [.data payload], false⟩ ∧
      DeliveryInv
        { session := next
          now := now
          firstTimes := delivery.firstTimes ++ [now]
          peer := peer
          peerPanicked := false
          delivered := delivery.delivered ++ [.data payload] } := by
  have count : next.sentRounds.length = delivery.session.sentRounds.length + 1 := by
    rw [sent, List.length_append, List.length_singleton]
  refine ⟨⟨{ delivery.peer.seqNumCache with
    seqNums := delivery.peer.seqNumCache.seqNums.insert
      (seqNumOf delivery.session.sentRounds.length) now }, .opened⟩, ?_, ?_⟩
  · rw [framed, writeToStream, hear_frame inv.idle now _ nonempty,
      insert_accepts (inv.cold fresh)]
  · constructor
    · exact nextInv
    · simp only [List.length_append, List.length_singleton, inv.timed, count]
    · rfl
    · exact .inr rfl
    · exact inv.cooldown
    · intro packet first found current
      rw [count] at current
      exact inv.known_next found current
    · intro seqNum unused
      rw [count] at unused
      exact inv.unknown_next now unused
    · simp only [count, inv.delivered, ← take_payloads inv.session grown]
      rw [List.take_add_one, received, List.map_append]
      rfl

/-- Another copy of a recent packet is refused. -/
theorem DeliveryInv.copy (inv : DeliveryInv delivery) {next : Session} {now : Instant}
    {packet : Nat} {frame payload : Bytes} (nextInv : SessionInv next)
    (sent : next.sentRounds = delivery.session.sentRounds) (nonempty : payload ≠ [])
    (framed : frame = writeToStream (AckPacket.new (seqNumOf packet) payload).intoBytes)
    (inside : packet < delivery.session.sentRounds.length)
    (recent : delivery.session.sentRounds.length ≤ packet + 4)
    {later : List Bytes} (grown : next.payloads = delivery.session.payloads ++ later)
    (prompt : ∀ first ∈ delivery.firstTimes[packet]?, now ≤ first + fromSecs 10) :
    ∃ peer, hear delivery.peer now frame = ⟨peer, [], false⟩ ∧
      DeliveryInv
        { session := next
          now := now
          firstTimes := delivery.firstTimes
          peer := peer
          peerPanicked := false
          delivered := delivery.delivered } := by
  have timed : packet < delivery.firstTimes.length := by
    rw [inv.timed]
    exact inside
  have present : delivery.firstTimes[packet]? = some delivery.firstTimes[packet] :=
    List.getElem?_eq_getElem timed
  have recorded := inv.known packet _ present (by omega)
  have warm : now - delivery.peer.seqNumCache.timeout ≤ delivery.firstTimes[packet] := by
    rw [inv.cooldown]
    exact Nat.sub_le_of_le_add (prompt _ present)
  refine ⟨⟨delivery.peer.seqNumCache, .opened⟩, ?_, ?_⟩
  · rw [framed, writeToStream, hear_frame inv.idle now _ nonempty,
      insert_refuses recorded warm]
  · constructor
    · exact nextInv
    · rw [sent]
      exact inv.timed
    · rfl
    · exact .inr rfl
    · exact inv.cooldown
    · rw [sent]
      exact inv.known
    · rw [sent]
      exact inv.unknown
    · simp only [sent, take_payloads inv.session grown]
      exact inv.delivered

theorem DeliveryInv.silent (inv : DeliveryInv delivery) {next : Session} {now : Instant}
    (nextInv : SessionInv next) (sent : next.sentRounds = delivery.session.sentRounds)
    {later : List Bytes} (grown : next.payloads = delivery.session.payloads ++ later) :
    DeliveryInv { delivery with session := next, now := now } :=
  { inv with
    session := nextInv
    timed := by
      rw [sent]
      exact inv.timed
    known := by
      rw [sent]
      exact inv.known
    unknown := by
      rw [sent]
      exact inv.unknown
    delivered := by
      simp only [sent, take_payloads inv.session grown]
      exact inv.delivered }

theorem written_append {before after : Session} {writes : List PortWrite}
    (log : after.portLog = before.portLog ++ writes) :
    Delivery.written before after = writes := by
  rw [Delivery.written, log, List.drop_left]

/-- A step is one of the session, after which the peer has heard what was written. -/
theorem step_parts {label : Instant × Label} {next : Delivery}
    (running : delivery.peerPanicked = false) (taken : delivery.step label = some next) :
    ∃ session, delivery.session.step label.2 = some session ∧
      let writes := Delivery.written delivery.session session
      let heard := hear delivery.peer label.1 (writes.flatMap (·.frame))
      next =
        { session := session
          now := label.1
          firstTimes := delivery.firstTimes ++
            (writes.filter fun write => !write.resend).map fun _ => label.1
          peer := heard.peer
          peerPanicked := heard.panicked
          delivered := delivery.delivered ++ heard.events } := by
  unfold Delivery.step at taken
  split_ifs at taken
  obtain ⟨session, moved, rfl⟩ := Option.map_eq_some_iff.mp taken
  refine ⟨session, moved, ?_⟩
  simp only [hearUnless, running, Bool.false_eq_true, if_false]

theorem payloads_of_step {label : Instant × Label} {next : Delivery}
    (taken : delivery.step label = some next) :
    ∃ later, next.session.payloads = delivery.session.payloads ++ later := by
  unfold Delivery.step at taken
  split_ifs at taken
  obtain ⟨session, moved, rfl⟩ := Option.map_eq_some_iff.mp taken
  exact payloads_grow moved

theorem delivery_inv_step {label : Instant × Label} {next : Delivery}
    (timely : delivery.Timely label) (inv : DeliveryInv delivery)
    (nonempty : ∀ payload ∈ next.session.payloads, payload ≠ [])
    (taken : delivery.step label = some next) : DeliveryInv next := by
  obtain ⟨session, moved, rfl⟩ := step_parts inv.running taken
  have sessionInv := inv_step label.2 inv.session moved
  obtain ⟨more, grown⟩ := payloads_grow moved
  have timelyWrites := timely session moved
  cases inv.session.wrote moved with
  | nothing log sent =>
      have none := @written_append delivery.session session [] (by rw [log, List.append_nil])
      simp only [none, List.flatMap_nil, hear_nothing, List.filter_nil, List.map_nil,
        List.append_nil]
      have silent : DeliveryInv { delivery with session := session, now := label.1 } :=
        inv.silent sessionInv sent grown
      exact { silent with running := rfl }
  | first data log sent =>
      have one := written_append log
      rw [one] at timelyWrites
      have fresh := timelyWrites _ List.mem_cons_self
      simp only [Bool.false_eq_true, if_false] at fresh
      obtain ⟨_, payload, received, framed⟩ :=
        sessionInv.framed (by rw [log]; exact List.mem_append_right _ List.mem_cons_self)
      have payloadNonempty := nonempty payload (List.mem_of_getElem? received)
      obtain ⟨hearer, heard, nextInv⟩ := inv.first sessionInv sent received payloadNonempty framed
        grown fresh
      simp only [one, List.flatMap_cons, List.flatMap_nil, List.append_nil, heard]
      exact nextInv
  | copy packet data log sent recent =>
      have one := written_append log
      rw [one] at timelyWrites
      have prompt := timelyWrites _ List.mem_cons_self
      simp only [if_true] at prompt
      obtain ⟨inside, payload, received, framed⟩ :=
        sessionInv.framed (by rw [log]; exact List.mem_append_right _ List.mem_cons_self)
      rw [sent] at inside
      have payloadNonempty := nonempty payload (List.mem_of_getElem? received)
      obtain ⟨hearer, heard, nextInv⟩ := inv.copy sessionInv sent payloadNonempty framed inside
        recent grown prompt
      simp only [one, List.flatMap_cons, List.flatMap_nil, List.append_nil, heard,
        List.filter_cons, Bool.not_true, Bool.false_eq_true, if_false, List.filter_nil,
        List.map_nil]
      exact nextInv

section Burst

/-- While the clock stands still, the peer delivers at most once for each sequence number. -/
structure Still (delivery : Delivery) : Prop where
  session : SessionInv delivery.session
  now : delivery.now = 0
  running : delivery.peerPanicked = false
  idle : delivery.peer.decoder = .new ∨ delivery.peer.decoder = .opened
  once : delivery.delivered.length = delivery.peer.seqNumCache.seqNums.keys.length

theorem still_hears {peer : SerialWorker} (idle : peer.decoder = .new ∨ peer.decoder = .opened)
    (seqNum : UInt8) {payload : Bytes} (nonempty : payload ≠ []) :
    ∃ hearer events, hear peer 0 (writeToStream (AckPacket.new seqNum payload).intoBytes) =
        ⟨hearer, events, false⟩ ∧ hearer.decoder = .opened ∧
      peer.seqNumCache.seqNums.keys.length + events.length =
        hearer.seqNumCache.seqNums.keys.length := by
  rw [writeToStream, hear_frame idle 0 seqNum nonempty]
  cases found : peer.seqNumCache.seqNums.lookup seqNum with
  | none =>
      have cool : ∀ instant, peer.seqNumCache.seqNums.lookup seqNum = some instant →
          instant < 0 - peer.seqNumCache.timeout := by
        intro instant recorded
        rw [found] at recorded
        cases recorded
      rw [insert_accepts cool]
      refine ⟨_, _, rfl, rfl, ?_⟩
      have absent : seqNum ∉ peer.seqNumCache.seqNums.keys := by
        rw [← AList.mem_keys]
        exact AList.lookup_eq_none.mp found
      simp only [AList.keys_insert, List.erase_of_not_mem absent, List.length_cons,
        List.length_nil]
  | some instant =>
      rw [insert_refuses found (Nat.le_trans (Nat.sub_le _ _) (Nat.zero_le _))]
      exact ⟨_, _, rfl, rfl, rfl⟩

theorem Still.step {label : Label} {session : Session} (still : Still delivery)
    (moved : delivery.session.step label = some session)
    (nonempty : ∀ payload ∈ session.payloads, payload ≠ []) :
    ∃ next, delivery.step (0, label) = some next ∧ next.session = session ∧ Still next := by
  have sessionInv := inv_step label still.session moved
  have now : delivery.now ≤ 0 := Nat.le_of_eq still.now
  obtain ⟨hearer, events, heard, idle, counted⟩ : ∃ hearer events,
      hear delivery.peer 0
          ((Delivery.written delivery.session session).flatMap (·.frame)) =
        ⟨hearer, events, false⟩ ∧
      (hearer.decoder = .new ∨ hearer.decoder = .opened) ∧
      delivery.peer.seqNumCache.seqNums.keys.length + events.length =
        hearer.seqNumCache.seqNums.keys.length := by
    obtain ⟨writes, grown⟩ := still.session.port_log_grows moved
    rw [written_append grown]
    have single : writes = [] ∨ ∃ write, writes = [write] := by
      cases still.session.wrote moved with
      | nothing log _ =>
          rw [log] at grown
          exact .inl (List.self_eq_append_right.mp grown)
      | first data log _ =>
          rw [log] at grown
          exact .inr ⟨_, (List.append_cancel_left grown).symm⟩
      | copy packet data log _ _ =>
          rw [log] at grown
          exact .inr ⟨_, (List.append_cancel_left grown).symm⟩
    rcases single with rfl | ⟨write, rfl⟩
    · exact ⟨delivery.peer, [], rfl, still.idle, rfl⟩
    · have member : write ∈ session.portLog := by
        rw [grown]
        exact List.mem_append_right _ List.mem_cons_self
      obtain ⟨_, payload, received, framed⟩ := sessionInv.framed member
      obtain ⟨hearer, events, heard, opened, counted⟩ := still_hears still.idle
        (seqNumOf write.packet) (nonempty payload (List.mem_of_getElem? received))
      refine ⟨hearer, events, ?_, .inr opened, counted⟩
      rw [List.flatMap_cons, List.flatMap_nil, List.append_nil, framed]
      exact heard
  let next : Delivery :=
    { session := session
      now := 0
      firstTimes := delivery.firstTimes ++
        ((Delivery.written delivery.session session).filter fun write => !write.resend).map
          fun _ => 0
      peer := hearer
      peerPanicked := false
      delivered := delivery.delivered ++ events }
  refine ⟨next, ?_, rfl, ?_⟩
  · simp only [Delivery.step, if_pos now, moved, Option.map_some, hearUnless, still.running,
      Bool.false_eq_true, if_false, heard, next]
  · constructor
    · exact sessionInv
    · rfl
    · rfl
    · exact idle
    · simp only [next, List.length_append, still.once]
      exact counted

theorem Still.run {labels : List Label} {session : Session} (still : Still delivery)
    (reached : LabeledRuns.run Session.step delivery.session labels = some session)
    (nonempty : ∀ payload ∈ session.payloads, payload ≠ []) :
    ∃ last, LabeledRuns.run Delivery.step delivery (labels.map fun label => (0, label)) =
        some last ∧ last.session = session ∧ Still last := by
  induction labels generalizing delivery with
  | nil =>
      cases reached
      exact ⟨delivery, rfl, rfl, still⟩
  | cons label rest induction =>
      obtain ⟨middle, moved, remaining⟩ := run_cons_some.mp reached
      have grown : ∃ later, session.payloads = middle.payloads ++ later := by
        apply @run_related _ _ Session.step
          (fun before after => ∃ later, after.payloads = before.payloads ++ later) _ _ _ _ _ _
          remaining
        · exact fun before => ⟨[], (List.append_nil _).symm⟩
        · intro first second third ⟨one, same⟩ ⟨two, again⟩
          exact ⟨one ++ two, by rw [again, same, List.append_assoc]⟩
        · intro before label after taken
          exact payloads_grow taken
      obtain ⟨later, same⟩ := grown
      obtain ⟨next, taken, sameSession, stillNext⟩ := still.step moved fun payload member =>
        nonempty payload (by rw [same]; exact List.mem_append_left _ member)
      rw [← sameSession] at remaining
      obtain ⟨last, reachedLast, ended, stillLast⟩ := induction stillNext remaining
      exact ⟨last, run_cons_some.mpr ⟨next, taken, reachedLast⟩, ended, stillLast⟩

theorem at_most_256_numbers {keys : List UInt8} (distinct : keys.Nodup) : keys.length ≤ 256 := by
  have images : (keys.map UInt8.toNat).Nodup :=
    distinct.map fun _ _ same => UInt8.toNat_inj.mp same
  have subset : keys.map UInt8.toNat ⊆ List.range 256 := by
    intro number member
    obtain ⟨key, _, rfl⟩ := List.mem_map.mp member
    exact List.mem_range.mpr key.toNat_lt
  have bound := (images.subperm subset).length_le
  rwa [List.length_map, List.length_range] at bound

/-- More than 256 payloads within one instant are not all delivered. -/
theorem burst_not_delivered {payloads : List Bytes} (many : 256 < payloads.length)
    (nonempty : ∀ payload ∈ payloads, payload ≠ []) :
    ∃ labels last, (∀ label ∈ labels, label.1 = 0) ∧
      run Delivery.step .fresh labels = some last ∧
      last.session.worker.position = .receiving ∧ last.session.payloads = payloads ∧
      last.delivered ≠ payloads.map .data := by
  have start : Still .fresh := ⟨inv_fresh, rfl, rfl, .inl rfl, rfl⟩
  obtain ⟨labels, session, turned, place, received⟩ := inv_fresh.turns rfl payloads
  have all : session.payloads = payloads := received
  obtain ⟨last, reached, ended, still⟩ := start.run turned (by rw [all]; exact nonempty)
  refine ⟨_, last, ?_, reached, by rw [ended]; exact place, by rw [ended]; exact all, ?_⟩
  · intro label member
    obtain ⟨_, _, rfl⟩ := List.mem_map.mp member
    rfl
  · intro same
    have bound := at_most_256_numbers last.peer.seqNumCache.seqNums.keys_nodup
    have count := congrArg List.length same
    rw [still.once, List.length_map] at count
    omega

end Burst

/-- In every timely run, the peer has not panicked, and has delivered at every moment exactly the
payloads whose packets were written, each once and in the order in which they were received,
whatever copies were written besides; at the loop's receive these are all payloads received. -/
theorem delivered_exactly_once (labels : List (Instant × Label)) (last : Delivery)
    (timely : Meets Delivery.step Delivery.Timely .fresh labels)
    (reached : run Delivery.step .fresh labels = some last)
    (nonempty : ∀ payload ∈ last.session.payloads, payload ≠ []) :
    last.peerPanicked = false ∧
      last.delivered =
        (last.session.payloads.take last.session.sentRounds.length).map .data ∧
      (last.session.worker.position = .receiving →
        last.delivered = last.session.payloads.map .data) := by
  have inv : (∀ payload ∈ last.session.payloads, payload ≠ []) → DeliveryInv last := by
    apply @invariant_of_meets _ _ Delivery.step Delivery.Timely
      fun delivery => (∀ payload ∈ delivery.session.payloads, payload ≠ []) → DeliveryInv delivery
    · intro delivery label next timely inv taken nextNonempty
      obtain ⟨later, grown⟩ := payloads_of_step taken
      apply delivery_inv_step timely _ nextNonempty taken
      apply inv
      intro payload member
      apply nextNonempty
      rw [grown]
      exact List.mem_append_left _ member
    · exact timely
    · intro _
      exact delivery_inv_fresh
    · exact reached
  have delivered := (inv nonempty).delivered
  refine ⟨(inv nonempty).running, delivered, ?_⟩
  intro place
  have counters := (inv nonempty).session.place
  simp only [InPlace, place] at counters
  rw [delivered, ← counters.1, List.take_length]

theorem one_packet_delivered_once :
    ∃ last, run Delivery.step .fresh
        [(5, .worker (.receive (.data [0x2A]))), (5, .worker (.write true)), (6, .worker .mark),
          (6, .worker .bump), (6, .worker (.collect [0])), (7, .worker (.write true)),
          (7, .worker .loop)] = some last ∧
      last.session.worker.position = .receiving ∧
      last.peerPanicked = false ∧ last.delivered = last.session.payloads.map .data := by
  have timely : Meets Delivery.step Delivery.Timely .fresh
      [(5, .worker (.receive (.data [0x2A]))), (5, .worker (.write true)), (6, .worker .mark),
        (6, .worker .bump), (6, .worker (.collect [0])), (7, .worker (.write true)),
        (7, .worker .loop)] := by
    decide +kernel
  have ended : ((run Delivery.step .fresh
      [(5, .worker (.receive (.data [0x2A]))), (5, .worker (.write true)), (6, .worker .mark),
        (6, .worker .bump), (6, .worker (.collect [0])), (7, .worker (.write true)),
        (7, .worker .loop)]).map fun last =>
        (last.session.worker.position, last.session.payloads)) =
      some (.receiving, [[0x2A]]) := by
    decide +kernel
  obtain ⟨last, reached, both⟩ := Option.map_eq_some_iff.mp ended
  have ⟨place, received⟩ := Prod.mk.inj both
  have nonempty : ∀ payload ∈ last.session.payloads, payload ≠ [] := by
    rw [received]
    decide
  obtain ⟨running, _, delivered⟩ := delivered_exactly_once _ last timely reached nonempty
  exact ⟨last, reached, place, running, delivered place⟩

/-- Neither condition can be left out. Of 257 payloads handed over in one instant some are not
delivered; and a turn of the loop that begins eleven seconds late has its copy delivered again. -/
theorem delivery_not_exactly_once :
    (∃ labels last, (∀ label ∈ labels, label.1 = 0) ∧
      run Delivery.step .fresh labels = some last ∧
      last.session.worker.position = .receiving ∧
      last.session.payloads = List.replicate 257 [0x2A] ∧
      last.delivered ≠ (List.replicate 257 [0x2A]).map .data) ∧
    ∃ last, run Delivery.step .fresh
        [(0, .worker (.receive (.data [0x2A]))), (0, .worker (.write true)), (0, .worker .mark),
          (0, .worker .bump), (fromSecs 11, .worker (.collect [0])),
          (fromSecs 11, .worker (.write true)), (fromSecs 11, .worker .loop)] = some last ∧
      last.session.worker.position = .receiving ∧ last.session.payloads = [[0x2A]] ∧
      last.delivered = [.data [0x2A], .data [0x2A]] := by
  constructor
  · apply burst_not_delivered
    · rw [List.length_replicate]
      omega
    · intro payload member
      rw [List.eq_of_mem_replicate member]
      exact List.cons_ne_nil _ _
  · have ended : ((run Delivery.step .fresh
        [(0, .worker (.receive (.data [0x2A]))), (0, .worker (.write true)), (0, .worker .mark),
          (0, .worker .bump), (fromSecs 11, .worker (.collect [0])),
          (fromSecs 11, .worker (.write true)), (fromSecs 11, .worker .loop)]).map fun last =>
          (last.session.worker.position, last.session.payloads, last.delivered)) =
        some (.receiving, [[0x2A]], [.data [0x2A], .data [0x2A]]) := by
      decide +kernel
    obtain ⟨last, reached, all⟩ := Option.map_eq_some_iff.mp ended
    have ⟨place, others⟩ := Prod.mk.inj all
    have ⟨received, delivered⟩ := Prod.mk.inj others
    exact ⟨last, reached, place, received, delivered⟩

end MoteConnection.SerialDelivery
