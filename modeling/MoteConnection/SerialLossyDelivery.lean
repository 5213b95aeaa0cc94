import MoteConnection.SerialDelivery

/-!
# Delivery over a link that loses frames

The write thread of one session and the `SerialWorker` of its peer, joined by a
link that takes no time but may lose any frame. The peer hands up the payload of
a packet when the first of its copies arrives, and nothing for the others, in
exactly those runs in which a copy arrives within ten seconds of the copy that
arrived first, and a number is heard again for another packet only after ten
seconds. Then nothing is handed up twice, and a packet is overtaken by at most
three that were sent after it.
-/

namespace MoteConnection.SerialLossyDelivery

open LabeledRuns
open MoteConnection.Runtime MoteConnection.HdlcFraming MoteConnection.SerialPackets
open MoteConnection.SerialReceiving MoteConnection.SerialSending
open MoteConnection.SerialRetransmission MoteConnection.SerialDelivery
open Outcome

set_option autoImplicit false

structure Arrival where
  packet : Nat
  time : Instant
  deriving DecidableEq, Repr

structure Reception where
  session : Session
  now : Instant
  peer : SerialWorker
  peerPanicked : Bool
  arrived : List Arrival
  delivered : List (Event Bytes)

def Reception.fresh : Reception := ⟨.fresh, 0, .new, false, [], []⟩

/-- One step of the session, its instant, and whether what it writes arrives. -/
structure Transmission where
  now : Instant
  label : Label
  arrives : Bool
  deriving DecidableEq, Repr

def noteArrival (now : Instant) (arrived : List Arrival) (write : PortWrite) : List Arrival :=
  if ∃ arrival ∈ arrived, arrival.packet = write.packet then arrived
  else arrived ++ [⟨write.packet, now⟩]

namespace Reception

def heard (reception : Reception) (transmission : Transmission) (session : Session) :
    List PortWrite :=
  if transmission.arrives then Delivery.written reception.session session else []

def step (reception : Reception) (transmission : Transmission) : Option Reception :=
  if reception.now ≤ transmission.now then
    (reception.session.step transmission.label).map fun session =>
      let writes := reception.heard transmission session
      let heard := hearUnless reception.peerPanicked reception.peer transmission.now
        (writes.flatMap (·.frame))
      { session := session
        now := transmission.now
        peer := heard.peer
        peerPanicked := heard.panicked
        arrived := writes.foldl (noteArrival transmission.now) reception.arrived
        delivered := reception.delivered ++ heard.events }
  else none

def lastNumbered (arrived : List Arrival) (seqNum : UInt8) : Option Arrival :=
  arrived.reverse.find? fun arrival => seqNumOf arrival.packet = seqNum

/-- A copy arrives at most ten seconds after the first one that arrived; the first copy of a packet
arrives more than ten seconds after the last packet with its number. -/
def Timely (reception : Reception) (transmission : Transmission) : Prop :=
  ∀ session ∈ reception.session.step transmission.label,
    ∀ write ∈ reception.heard transmission session,
      ∀ last ∈ lastNumbered reception.arrived (seqNumOf write.packet),
        if last.packet = write.packet then transmission.now ≤ last.time + fromSecs 10
        else last.time + fromSecs 10 < transmission.now

instance (reception : Reception) (transmission : Transmission) :
    Decidable (reception.Timely transmission) :=
  inferInstanceAs (Decidable (∀ session ∈ reception.session.step transmission.label,
    ∀ write ∈ reception.heard transmission session,
      ∀ last ∈ lastNumbered reception.arrived (seqNumOf write.packet), ite _ _ _))

def payloadsOf (session : Session) (arrived : List Arrival) : List (Event Bytes) :=
  arrived.map fun arrival => .data (session.payloads.getD arrival.packet [])

/-- In this step the peer hands up the payload of the packet whose first copy arrives, if there
is one, and nothing else. -/
def HandsUpFirstCopies (reception : Reception) (transmission : Transmission) : Prop :=
  ∀ next ∈ reception.step transmission,
    next.delivered = reception.delivered ++
      payloadsOf next.session (next.arrived.drop reception.arrived.length)

end Reception

open Reception

def NonemptyPayload (transmission : Transmission) : Prop :=
  transmission.label ≠ .worker (.receive (.data []))

structure Reading (reception : Reception) : Prop where
  session : SessionInv reception.session
  nonempty : ∀ payload ∈ reception.session.payloads, payload ≠ []
  running : reception.peerPanicked = false
  idle : reception.peer.decoder = .new ∨ reception.peer.decoder = .opened

/-- The peer's cache has, for each number, the arrival of the last packet heard with it. -/
structure ReceptionInv (reception : Reception) : Prop extends Reading reception where
  cooldown : reception.peer.seqNumCache.timeout = fromSecs 10
  known : ∀ seqNum, reception.peer.seqNumCache.seqNums.lookup seqNum =
    (lastNumbered reception.arrived seqNum).map (·.time)
  sent : ∀ arrival ∈ reception.arrived,
    arrival.packet < reception.session.sentRounds.length
  distinct : (reception.arrived.map (·.packet)).Nodup
  near : reception.arrived.Pairwise fun earlier later => earlier.packet ≤ later.packet + 3
  delivered : reception.delivered = payloadsOf reception.session reception.arrived

theorem reading_fresh : Reading .fresh where
  session := inv_fresh
  nonempty := by
    intro payload member
    cases member
  running := rfl
  idle := .inl rfl

theorem reception_inv_fresh : ReceptionInv .fresh where
  toReading := reading_fresh
  cooldown := rfl
  known := by
    intro seqNum
    rfl
  sent := by
    intro arrival member
    cases member
  distinct := List.nodup_nil
  near := List.Pairwise.nil
  delivered := rfl

variable {reception : Reception}

theorem last_numbered_concat (arrived : List Arrival) (arrival : Arrival) (seqNum : UInt8) :
    lastNumbered (arrived ++ [arrival]) seqNum =
      if seqNumOf arrival.packet = seqNum then some arrival else lastNumbered arrived seqNum := by
  rw [lastNumbered, List.reverse_concat, List.find?_cons]
  by_cases same : seqNumOf arrival.packet = seqNum
  · simp [same]
  · simp [same, lastNumbered]

theorem last_numbered_mem {arrived : List Arrival} {seqNum : UInt8} {last : Arrival}
    (found : lastNumbered arrived seqNum = some last) :
    last ∈ arrived ∧ seqNumOf last.packet = seqNum := by
  have member := List.mem_of_find?_eq_some found
  have numbered := List.find?_some found
  exact ⟨List.mem_reverse.mp member, of_decide_eq_true numbered⟩

/-- Of a recent packet that was heard, the last packet heard with its number is the packet
itself. -/
theorem ReceptionInv.last_of_heard (inv : ReceptionInv reception) {arrival : Arrival}
    (member : arrival ∈ reception.arrived)
    (recent : reception.session.sentRounds.length ≤ arrival.packet + 4) :
    lastNumbered reception.arrived (seqNumOf arrival.packet) = some arrival := by
  obtain ⟨before, behind, split⟩ := List.append_of_mem member
  have none : behind.reverse.find? (fun other =>
      decide (seqNumOf other.packet = seqNumOf arrival.packet)) = none := by
    apply List.find?_eq_none.mpr
    intro other later
    rw [List.mem_reverse] at later
    have near := inv.near
    have distinct := inv.distinct
    rw [split] at near distinct
    have order := (List.pairwise_cons.mp (List.pairwise_append.mp near).2.1).1 other later
    have heard : other ∈ reception.arrived := by
      rw [split]
      exact List.mem_append_right _ (List.mem_cons_of_mem _ later)
    have bound := inv.sent other heard
    rw [List.map_append, List.map_cons, List.nodup_append] at distinct
    have apart := (List.nodup_cons.mp distinct.2.1).1
    intro same
    have residues := seq_num_of_inj.mp (of_decide_eq_true same)
    have samePacket : other.packet = arrival.packet := by omega
    exact apart (samePacket ▸ List.mem_map_of_mem later)
  rw [lastNumbered, split, List.reverse_append, List.reverse_cons, List.append_assoc,
    List.find?_append, none]
  simp

def Cold (reception : Reception) (now : Instant) (seqNum : UInt8) : Prop :=
  ∀ last ∈ lastNumbered reception.arrived seqNum, last.time + fromSecs 10 < now

instance (reception : Reception) (now : Instant) (seqNum : UInt8) :
    Decidable (Cold reception now seqNum) :=
  inferInstanceAs (Decidable (∀ last ∈ lastNumbered reception.arrived seqNum, _))

/-- A frame is handed up and noted exactly when its number is cold. -/
theorem ReceptionInv.hears (inv : ReceptionInv reception) (now : Instant) (seqNum : UInt8)
    {payload : Bytes} (nonempty : payload ≠ []) :
    hear reception.peer now (writeToStream (AckPacket.new seqNum payload).intoBytes) =
      if Cold reception now seqNum then
        ⟨⟨{ reception.peer.seqNumCache with
          seqNums := reception.peer.seqNumCache.seqNums.insert seqNum now }, .opened⟩,
          [.data payload], false⟩
      else ⟨⟨reception.peer.seqNumCache, .opened⟩, [], false⟩ := by
  have known := inv.known seqNum
  rw [writeToStream, hear_frame inv.idle now seqNum nonempty]
  by_cases cold : Cold reception now seqNum
  · rw [if_pos cold, insert_accepts]
    intro instant recorded
    rw [known] at recorded
    obtain ⟨last, found, rfl⟩ := Option.map_eq_some_iff.mp recorded
    rw [inv.cooldown]
    exact Nat.lt_sub_of_add_lt (cold last found)
  · obtain ⟨last, found, warm⟩ : ∃ last, lastNumbered reception.arrived seqNum = some last ∧
        ¬ last.time + fromSecs 10 < now := by
      by_contra none
      apply cold
      intro last found
      by_contra warm
      exact none ⟨last, found, warm⟩
    rw [found, Option.map_some] at known
    rw [if_neg cold, insert_refuses known]
    rw [inv.cooldown]
    exact Nat.sub_le_of_le_add (Nat.not_lt.mp warm)

theorem heard_cases (inv : Reading reception) {transmission : Transmission}
    {session : Session} (moved : reception.session.step transmission.label = some session) :
    reception.heard transmission session = [] ∨
      ∃ write, reception.heard transmission session = [write] ∧ write ∈ session.portLog ∧
        session.sentRounds.length ≤ write.packet + 4 := by
  unfold Reception.heard
  cases transmission.arrives with
  | false => exact .inl rfl
  | true =>
      rw [if_pos rfl]
      cases inv.session.wrote moved with
      | nothing log sent =>
          refine .inl ?_
          exact written_append (by rw [log, List.append_nil])
      | first data log sent =>
          refine .inr ⟨_, written_append log, ?_, ?_⟩
          · rw [log]
            exact List.mem_append_right _ List.mem_cons_self
          · rw [sent, List.length_append, List.length_singleton]
            exact Nat.add_le_add_left (by decide) _
      | copy packet data log sent recent =>
          refine .inr ⟨_, written_append log, ?_, ?_⟩
          · rw [log]
            exact List.mem_append_right _ List.mem_cons_self
          · rw [sent]
            exact recent

theorem reception_parts {transmission : Transmission} {next : Reception}
    (running : reception.peerPanicked = false) (taken : reception.step transmission = some next) :
    ∃ session, reception.session.step transmission.label = some session ∧
      let writes := reception.heard transmission session
      let heard := hear reception.peer transmission.now (writes.flatMap (·.frame))
      next =
        { session := session
          now := transmission.now
          peer := heard.peer
          peerPanicked := heard.panicked
          arrived := writes.foldl (noteArrival transmission.now) reception.arrived
          delivered := reception.delivered ++ heard.events } := by
  unfold Reception.step at taken
  split_ifs at taken
  obtain ⟨session, moved, rfl⟩ := Option.map_eq_some_iff.mp taken
  refine ⟨session, moved, ?_⟩
  simp only [hearUnless, running, Bool.false_eq_true, if_false]

theorem payloads_of_grown {before after : Session} {arrived : List Arrival} {later : List Bytes}
    (inv : SessionInv before)
    (sent : ∀ arrival ∈ arrived, arrival.packet < before.sentRounds.length)
    (grown : after.payloads = before.payloads ++ later) :
    payloadsOf after arrived = payloadsOf before arrived := by
  apply List.map_congr_left
  intro arrival member
  have inside := sent arrival member
  rw [grown, List.getD_append _ _ _ _ (Nat.lt_of_lt_of_le inside inv.sent_le)]

theorem nonempty_step {before after : Session} {label : Label}
    (nonempty : ∀ payload ∈ before.payloads, payload ≠ [])
    (permitted : label ≠ .worker (.receive (.data []))) (moved : before.step label = some after) :
    ∀ payload ∈ after.payloads, payload ≠ [] := by
  cases label with
  | handleAck data =>
      rw [(untouched_of_handle_ack moved).payloads]
      exact nonempty
  | worker action =>
      by_cases received : ∃ data, action = .receive (.data data)
      · obtain ⟨data, rfl⟩ := received
        rw [payloads_of_receive moved]
        intro payload member
        rcases List.mem_append.mp member with before | new
        · exact nonempty payload before
        · rw [List.mem_singleton.mp new]
          rintro rfl
          exact permitted rfl
      · rw [payloads_of_other (fun data same => received ⟨data, same⟩) moved]
        exact nonempty

theorem reading_step {transmission : Transmission} {next : Reception}
    (reading : Reading reception) (permitted : NonemptyPayload transmission)
    (taken : reception.step transmission = some next) : Reading next := by
  obtain ⟨session, moved, rfl⟩ := reception_parts reading.running taken
  have nonempty := nonempty_step reading.nonempty permitted moved
  have sessionInv := inv_step transmission.label reading.session moved
  rcases heard_cases reading moved with none | ⟨write, one, logged, _⟩
  · simp only [none, List.flatMap_nil, hear_nothing]
    exact ⟨sessionInv, nonempty, rfl, reading.idle⟩
  · obtain ⟨_, payload, carried, framed⟩ := sessionInv.framed logged
    simp only [one, List.flatMap_cons, List.flatMap_nil, List.append_nil, framed, writeToStream]
    rw [hear_frame reading.idle _ _ (nonempty payload (List.mem_of_getElem? carried))]
    refine ⟨sessionInv, nonempty, ?_, ?_⟩
    · split <;> rfl
    · split <;> exact .inr rfl

theorem ReceptionInv.silent (inv : ReceptionInv reception) {session : Session} {now : Instant}
    {peer : SerialWorker} {label : Label}
    (moved : reception.session.step label = some session)
    (permitted : label ≠ .worker (.receive (.data [])))
    (idle : peer.decoder = .new ∨ peer.decoder = .opened)
    (sameCache : peer.seqNumCache = reception.peer.seqNumCache) :
    ReceptionInv
      { reception with session := session, now := now, peer := peer, peerPanicked := false } := by
  obtain ⟨later, grown⟩ := payloads_grow moved
  have counts := inv.session.sent_rounds_grow moved
  exact { inv with
    session := inv_step label inv.session moved
    nonempty := nonempty_step inv.nonempty permitted moved
    running := rfl
    idle := idle
    cooldown := by
      rw [sameCache]
      exact inv.cooldown
    known := by
      rw [sameCache]
      exact inv.known
    sent := fun arrival member => Nat.lt_of_lt_of_le (inv.sent arrival member) counts
    delivered := by
      rw [payloads_of_grown inv.session inv.sent grown]
      exact inv.delivered }

theorem ReceptionInv.first (inv : ReceptionInv reception) {session : Session} {now : Instant}
    {label : Label} {packet : Nat} {payload : Bytes}
    (moved : reception.session.step label = some session)
    (permitted : label ≠ .worker (.receive (.data [])))
    (new : ∀ arrival ∈ reception.arrived, arrival.packet ≠ packet)
    (inside : packet < session.sentRounds.length)
    (recent : session.sentRounds.length ≤ packet + 4)
    (carried : session.payloads[packet]? = some payload) :
    ReceptionInv
      { session := session
        now := now
        peer := ⟨{ reception.peer.seqNumCache with
          seqNums := reception.peer.seqNumCache.seqNums.insert (seqNumOf packet) now }, .opened⟩
        peerPanicked := false
        arrived := reception.arrived ++ [⟨packet, now⟩]
        delivered := reception.delivered ++ [.data payload] } := by
  obtain ⟨later, grown⟩ := payloads_grow moved
  have counts := inv.session.sent_rounds_grow moved
  constructor
  · exact ⟨inv_step label inv.session moved, nonempty_step inv.nonempty permitted moved, rfl,
      .inr rfl⟩
  · exact inv.cooldown
  · intro seqNum
    rw [last_numbered_concat]
    by_cases same : seqNumOf packet = seqNum
    · rw [if_pos same, ← same]
      exact AList.lookup_insert _
    · rw [if_neg same, ← inv.known seqNum]
      exact AList.lookup_insert_ne (Ne.symm same)
  · intro arrival member
    rcases List.mem_append.mp member with before | last
    · exact Nat.lt_of_lt_of_le (inv.sent arrival before) counts
    · rw [List.mem_singleton.mp last]
      exact inside
  · rw [List.map_append, List.map_singleton, List.nodup_append]
    refine ⟨inv.distinct, List.nodup_singleton _, ?_⟩
    intro first firstMember second secondMember same
    obtain ⟨arrival, member, rfl⟩ := List.mem_map.mp firstMember
    exact new arrival member (same.trans (List.mem_singleton.mp secondMember))
  · rw [List.pairwise_append]
    refine ⟨inv.near, List.pairwise_singleton _ _, ?_⟩
    intro arrival member last isLast
    have bound := inv.sent arrival member
    rw [List.mem_singleton.mp isLast]
    simp only
    omega
  · simp only [payloadsOf, List.map_append, List.map_singleton]
    rw [List.getD_eq_getElem?_getD, carried, Option.getD_some, inv.delivered]
    congr 1
    exact (payloads_of_grown inv.session inv.sent grown).symm

theorem timely_iff {transmission : Transmission} {session : Session}
    (moved : reception.session.step transmission.label = some session) :
    reception.Timely transmission ↔ ∀ write ∈ reception.heard transmission session,
      ∀ last ∈ lastNumbered reception.arrived (seqNumOf write.packet),
        if last.packet = write.packet then transmission.now ≤ last.time + fromSecs 10
        else last.time + fromSecs 10 < transmission.now := by
  rw [Reception.Timely, moved]
  simp only [Option.mem_some_iff, forall_eq']

theorem hands_up_iff {transmission : Transmission} {next : Reception}
    (taken : reception.step transmission = some next) :
    reception.HandsUpFirstCopies transmission ↔ next.delivered = reception.delivered ++
      payloadsOf next.session (next.arrived.drop reception.arrived.length) := by
  rw [HandsUpFirstCopies, taken]
  simp only [Option.mem_some_iff, forall_eq']

/-- A step hands up as it should exactly when it is timely, and then the invariant goes on. -/
theorem reception_step {transmission : Transmission} {next : Reception}
    (inv : ReceptionInv reception) (permitted : NonemptyPayload transmission)
    (taken : reception.step transmission = some next) :
    (reception.Timely transmission ↔ reception.HandsUpFirstCopies transmission) ∧
      (reception.Timely transmission → ReceptionInv next) := by
  rw [hands_up_iff taken]
  obtain ⟨session, moved, rfl⟩ := reception_parts inv.running taken
  rw [timely_iff moved]
  rcases heard_cases inv.toReading moved with none | ⟨write, one, logged, recent⟩
  · simp only [none, List.flatMap_nil, hear_nothing, List.foldl_nil, List.drop_length, payloadsOf,
      List.map_nil]
    refine ⟨iff_of_true (by simp) trivial, fun _ => ?_⟩
    rw [List.append_nil]
    exact inv.silent moved permitted inv.idle rfl
  · obtain ⟨inside, payload, carried, framed⟩ := (inv_step _ inv.session moved).framed logged
    have counts := inv.session.sent_rounds_grow moved
    have nonempty := nonempty_step inv.nonempty permitted moved payload
      (List.mem_of_getElem? carried)
    simp only [one, List.flatMap_cons, List.flatMap_nil, List.append_nil, framed,
      inv.hears transmission.now (seqNumOf write.packet) nonempty, List.mem_singleton, forall_eq,
      List.foldl_cons, List.foldl_nil]
    by_cases known : ∃ arrival ∈ reception.arrived, arrival.packet = write.packet
    · obtain ⟨arrival, member, same⟩ := known
      have last := inv.last_of_heard member (by omega)
      rw [same] at last
      have coldIff : Cold reception transmission.now (seqNumOf write.packet) ↔
          arrival.time + fromSecs 10 < transmission.now := by
        rw [Cold, last]
        simp only [Option.mem_some_iff, forall_eq']
      have noted : noteArrival transmission.now reception.arrived write = reception.arrived := by
        rw [noteArrival, if_pos ⟨arrival, member, same⟩]
      rw [noted, last]
      simp only [Option.mem_some_iff, forall_eq', if_pos same, List.drop_length, payloadsOf,
        List.map_nil, List.append_nil]
      by_cases cold : Cold reception transmission.now (seqNumOf write.packet)
      · simp only [if_pos cold]
        have late := Nat.not_le.mpr (coldIff.mp cold)
        exact ⟨iff_of_false late (by simp), fun timely => absurd timely late⟩
      · simp only [if_neg cold]
        have prompt := Nat.not_lt.mp fun late => cold (coldIff.mpr late)
        refine ⟨iff_of_true prompt (List.append_nil _), fun _ => ?_⟩
        rw [List.append_nil]
        exact inv.silent moved permitted (.inr rfl) rfl
    · have new : ∀ arrival ∈ reception.arrived, arrival.packet ≠ write.packet :=
        fun arrival member same => known ⟨arrival, member, same⟩
      have coldIff : (∀ last ∈ lastNumbered reception.arrived (seqNumOf write.packet),
          if last.packet = write.packet then transmission.now ≤ last.time + fromSecs 10
          else last.time + fromSecs 10 < transmission.now) ↔
          Cold reception transmission.now (seqNumOf write.packet) := by
        apply forall₂_congr
        intro last found
        rw [if_neg (new last (last_numbered_mem found).1)]
      have noted : noteArrival transmission.now reception.arrived write =
          reception.arrived ++ [⟨write.packet, transmission.now⟩] := by
        rw [noteArrival, if_neg known]
      rw [coldIff, noted, List.drop_left]
      simp only [payloadsOf, List.map_cons, List.map_nil, List.getD_eq_getElem?_getD, carried,
        Option.getD_some]
      by_cases cold : Cold reception transmission.now (seqNumOf write.packet)
      · simp only [if_pos cold]
        refine ⟨iff_of_true cold trivial, fun _ => ?_⟩
        exact inv.first moved permitted new inside recent carried
      · simp only [if_neg cold]
        refine ⟨iff_of_false cold ?_, fun timely => absurd timely cold⟩
        intro same
        have lengths := congrArg List.length same
        simp at lengths

theorem ReceptionInv.all_delivered (inv : ReceptionInv reception)
    (all : ∀ packet < reception.session.sentRounds.length,
      ∃ arrival ∈ reception.arrived, arrival.packet = packet) :
    reception.delivered.Perm
      ((reception.session.payloads.take reception.session.sentRounds.length).map .data) := by
  have packets : (reception.arrived.map (·.packet)).Perm
      (List.range reception.session.sentRounds.length) := by
    apply (List.perm_ext_iff_of_nodup inv.distinct List.nodup_range).mpr
    intro packet
    rw [List.mem_map, List.mem_range]
    constructor
    · rintro ⟨arrival, member, rfl⟩
      exact inv.sent arrival member
    · exact all packet
  have handed := packets.map fun packet =>
    Event.data (reception.session.payloads.getD packet [])
  have payloads : (List.range reception.session.sentRounds.length).map (fun packet =>
      Event.data (reception.session.payloads.getD packet [])) =
      (reception.session.payloads.take reception.session.sentRounds.length).map .data := by
    apply List.ext_getElem?
    intro index
    have bound := inv.session.sent_le
    by_cases inside : index < reception.session.sentRounds.length
    · have received : index < reception.session.payloads.length := by omega
      simp [inside, received]
    · simp [inside]
  rw [inv.delivered, payloadsOf, ← payloads]
  rw [List.map_map] at handed
  exact handed

/-- In every run over a link that loses any frames the peer does not panic, and hands up in every
step the payload of the packet whose first copy arrives, and nothing else, exactly when every step
is timely. Then it hands up each packet at most once, and all that were written once a copy of each
has arrived; and a packet that is handed up after another one was sent at most three packets before
it. -/
theorem lossy_delivery (transmissions : List Transmission) (last : Reception)
    (nonempty : ∀ transmission ∈ transmissions, NonemptyPayload transmission)
    (reached : run Reception.step .fresh transmissions = some last) :
    last.peerPanicked = false ∧
    (Meets Reception.step HandsUpFirstCopies .fresh transmissions ↔
      Meets Reception.step Timely .fresh transmissions) ∧
    (Meets Reception.step Timely .fresh transmissions →
      last.delivered = payloadsOf last.session last.arrived ∧
      (last.arrived.map (·.packet)).Nodup ∧
      (last.arrived.Pairwise fun earlier later => earlier.packet ≤ later.packet + 3) ∧
      ((∀ packet < last.session.sentRounds.length,
          ∃ arrival ∈ last.arrived, arrival.packet = packet) →
        last.delivered.Perm
          ((last.session.payloads.take last.session.sentRounds.length).map .data))) := by
  refine ⟨?_, ?_, ?_⟩
  · have permitted : Meets Reception.step (fun _ => NonemptyPayload) .fresh transmissions :=
      meets_of_mem nonempty
    have reading : Reading last := invariant_of_meets
      (fun _ _ _ permitted reading taken => reading_step reading permitted taken)
      permitted reading_fresh reached
    exact reading.running
  · apply Iff.symm
    apply @meets_congr _ _ Reception.step NonemptyPayload Timely HandsUpFirstCopies ReceptionInv
    · intro reception transmission next permitted inv taken
      exact (reception_step inv permitted taken).1
    · intro reception transmission next permitted timely inv taken
      exact (reception_step inv permitted taken).2 timely
    · exact nonempty
    · exact reception_inv_fresh
    · exact reached
  · intro timely
    have inv : ReceptionInv last := invariant_of_meets
      (fun _ _ _ both inv taken => (reception_step inv both.2 taken).2 both.1)
      (meets_and_of_mem timely nonempty) reception_inv_fresh reached
    exact ⟨inv.delivered, inv.distinct, inv.near, inv.all_delivered⟩

def overtaken : List Transmission :=
  [⟨5, .worker (.receive (.data [0x01])), true⟩, ⟨5, .worker (.write true), false⟩,
    ⟨5, .worker .mark, true⟩, ⟨5, .worker .bump, true⟩, ⟨5, .worker (.collect [0]), true⟩,
    ⟨5, .worker (.write true), false⟩, ⟨5, .worker .loop, true⟩,
    ⟨6, .worker (.receive (.data [0x02])), true⟩, ⟨6, .worker (.write true), true⟩,
    ⟨6, .worker .mark, true⟩, ⟨6, .worker .bump, true⟩, ⟨6, .worker (.collect [1, 0]), true⟩,
    ⟨6, .worker (.write true), true⟩, ⟨6, .worker (.write true), true⟩,
    ⟨6, .worker .loop, true⟩]

theorem overtaken_delivered :
    ∃ last, run Reception.step .fresh overtaken = some last ∧
      last.session.payloads = [[0x01], [0x02]] ∧
      last.delivered = [.data [0x02], .data [0x01]] ∧
      last.delivered.Perm ((last.session.payloads.take last.session.sentRounds.length).map .data) ∧
      Meets Reception.step HandsUpFirstCopies .fresh overtaken := by
  have nonempty : ∀ transmission ∈ overtaken, NonemptyPayload transmission := by
    unfold NonemptyPayload
    decide
  have timely : Meets Reception.step Timely .fresh overtaken := by decide +kernel
  have ended : ((run Reception.step .fresh overtaken).map fun last =>
      (last.session.payloads, last.delivered, last.session.sentRounds.length,
        last.arrived.map (·.packet))) =
      some ([[0x01], [0x02]], [.data [0x02], .data [0x01]], 2, [1, 0]) := by
    decide +kernel
  obtain ⟨last, reached, all⟩ := Option.map_eq_some_iff.mp ended
  have ⟨received, others⟩ := Prod.mk.inj all
  have ⟨delivered, counted⟩ := Prod.mk.inj others
  have ⟨sent, arrived⟩ := Prod.mk.inj counted
  have ⟨_, exact, summary⟩ := lossy_delivery overtaken last nonempty reached
  refine ⟨last, reached, received, delivered, ?_, exact.mpr timely⟩
  apply (summary timely).2.2.2
  intro packet inside
  rw [sent] at inside
  have member : packet ∈ last.arrived.map (·.packet) := by
    rw [arrived]
    simp
    omega
  exact List.mem_map.mp member

end MoteConnection.SerialLossyDelivery
