import MoteConnection.SerialRetransmission

/-!
# A serial endpoint

The read thread and the write thread of one session with the queue between
them. Users and the read thread put events in the same queue; each event has a
note of who put it there, which no step looks at. The write thread numbers,
wraps and frames whatever it takes from the queue as data, an acknowledgement
like anything else.
-/

namespace MoteConnection.SerialEndpoint

open LabeledRuns
open MoteConnection.Runtime MoteConnection.HdlcFraming MoteConnection.SerialPackets
open MoteConnection.SerialReceiving MoteConnection.SerialSending
open MoteConnection.SerialRetransmission
open Outcome

set_option autoImplicit false

/-- Who put an event in the queue; an acknowledgement is that of the n-th accepted packet. -/
inductive Origin
  | user
  | acknowledgement (accepted : Nat)
  deriving DecidableEq, Repr

/-- `origins` has the origin of each payload the write thread took. `inbox` has arrived at the port
and is not read yet; `packets` are decoded and not yet handled; `accesses` are what is left to do of
handling `handling`. `accepted` are the packets that were acknowledged, `userData` and `delivered`
what users sent and what the read thread handed up. -/
structure Endpoint where
  session : Session
  queue : List (Event Bytes × Origin)
  origins : List Origin
  reader : SerialWorker
  readerPanic : Option String
  inbox : Bytes
  packets : List Bytes
  handling : Bytes
  accesses : List SharedAccess
  accepted : List Bytes
  userData : List Bytes
  delivered : List (Event Bytes)

def Endpoint.fresh : Endpoint where
  session := .fresh
  queue := []
  origins := []
  reader := .new
  readerPanic := none
  inbox := []
  packets := []
  handling := []
  accesses := []
  accepted := []
  userData := []
  delivered := []

/-- A read of the port fills at most the 255 bytes of the buffer. -/
inductive Label
  | user (dispatchByte : UInt8) (message : Bytes)
  | stop
  | receive
  | work (action : Action)
  | arrive (bytes : Bytes)
  | read (length : Nat)
  | handle (now : Instant)
  | access
  deriving DecidableEq, Repr

def dispatched (dispatchByte : UInt8) (message : Bytes) : Bytes := [dispatchByte] ++ message

namespace Endpoint

/-- A receive takes from the queue, and times out only when the queue is empty; the transport itself
keeps a sender alive, so the queue is never closed. -/
def Enabled (endpoint : Endpoint) : Action → Bool
  | .receive _ => false
  | .hangUp => false
  | .timeout => endpoint.queue.isEmpty
  | _ => true

def originsOf : Event Bytes → Origin → List Origin
  | .data _, origin => [origin]
  | _, _ => []

def perform (endpoint : Endpoint) : SharedAccess → Endpoint
  | .sendLoopback event =>
      { endpoint with
        queue := endpoint.queue ++ [(event, .acknowledgement endpoint.accepted.length)]
        accepted := endpoint.accepted ++ [endpoint.handling] }
  | .sendTx event => { endpoint with delivered := endpoint.delivered ++ [event] }
  | .removeUnacked seqNum =>
      { endpoint with session := endpoint.session.removeUnacked seqNum }

def step (endpoint : Endpoint) : Label → Option Endpoint
  | .user dispatchByte message =>
      some { endpoint with
        queue := endpoint.queue ++ [(.data (dispatched dispatchByte message), .user)]
        userData := endpoint.userData ++ [dispatched dispatchByte message] }
  | .stop => some { endpoint with queue := endpoint.queue ++ [(.stop, .user)] }
  | .receive =>
      match endpoint.queue with
      | [] => none
      | (event, origin) :: rest =>
          (endpoint.session.step (.worker (.receive event))).map fun session =>
            { endpoint with
              session := session
              queue := rest
              origins := endpoint.origins ++ originsOf event origin }
  | .work action =>
      if endpoint.Enabled action then
        (endpoint.session.step (.worker action)).map fun session =>
          { endpoint with session := session }
      else none
  | .arrive bytes => some { endpoint with inbox := endpoint.inbox ++ bytes }
  | .read length =>
      if endpoint.readerPanic = none ∧ endpoint.packets = [] ∧ endpoint.accesses = [] ∧
          length ≤ 255 then
        let (decoder, packets) := endpoint.reader.decoder.decode (endpoint.inbox.take length)
        some { endpoint with
          reader := { endpoint.reader with decoder := decoder }
          inbox := endpoint.inbox.drop length
          packets := packets }
      else none
  | .handle now =>
      match endpoint.readerPanic, endpoint.accesses, endpoint.packets with
      | none, [], data :: rest =>
          match endpoint.reader.handleData now data with
          | returned (reader, accesses) =>
              some { endpoint with
                reader := reader
                packets := rest
                handling := data
                accesses := accesses }
          | panicked message =>
              some { endpoint with readerPanic := some message, packets := [] }
      | _, _, _ => none
  | .access =>
      match endpoint.accesses with
      | [] => none
      | access :: rest => some { endpoint.perform access with accesses := rest }

end Endpoint

variable {endpoint next : Endpoint}

inductive Moved (endpoint : Endpoint) : Label → Endpoint → Prop
  | user (dispatchByte : UInt8) (message : Bytes) :
      Moved endpoint (.user dispatchByte message)
        { endpoint with
          queue := endpoint.queue ++ [(.data (dispatched dispatchByte message), .user)]
          userData := endpoint.userData ++ [dispatched dispatchByte message] }
  | stop : Moved endpoint .stop { endpoint with queue := endpoint.queue ++ [(.stop, .user)] }
  | receive (event : Event Bytes) (origin : Origin) (rest : List (Event Bytes × Origin))
      (session : Session) (head : endpoint.queue = (event, origin) :: rest)
      (moved : endpoint.session.step (.worker (.receive event)) = some session) :
      Moved endpoint .receive
        { endpoint with
          session := session
          queue := rest
          origins := endpoint.origins ++ Endpoint.originsOf event origin }
  | work (action : Action) (session : Session) (enabled : endpoint.Enabled action = true)
      (moved : endpoint.session.step (.worker action) = some session) :
      Moved endpoint (.work action) { endpoint with session := session }
  | arrive (bytes : Bytes) :
      Moved endpoint (.arrive bytes) { endpoint with inbox := endpoint.inbox ++ bytes }
  | read (length : Nat) :
      Moved endpoint (.read length)
        { endpoint with
          reader := { endpoint.reader with
            decoder := (endpoint.reader.decoder.decode (endpoint.inbox.take length)).1 }
          inbox := endpoint.inbox.drop length
          packets := (endpoint.reader.decoder.decode (endpoint.inbox.take length)).2 }
  | handle (now : Instant) (data : Bytes) (rest : List Bytes) (reader : SerialWorker)
      (accesses : List SharedAccess) (head : endpoint.packets = data :: rest)
      (handled : endpoint.reader.handleData now data = returned (reader, accesses)) :
      Moved endpoint (.handle now)
        { endpoint with
          reader := reader
          packets := rest
          handling := data
          accesses := accesses }
  | handlePanics (now : Instant) (message : String) :
      Moved endpoint (.handle now) { endpoint with readerPanic := some message, packets := [] }
  | access (access : SharedAccess) (rest : List SharedAccess)
      (head : endpoint.accesses = access :: rest) :
      Moved endpoint .access { endpoint.perform access with accesses := rest }

theorem moved_of_step {label : Label} (taken : endpoint.step label = some next) :
    Moved endpoint label next := by
  unfold Endpoint.step at taken
  split at taken
  · cases taken
    exact .user _ _
  · cases taken
    exact .stop
  · split at taken
    · cases taken
    · rename_i event origin rest head
      obtain ⟨session, moved, rfl⟩ := Option.map_eq_some_iff.mp taken
      exact .receive event origin rest session head moved
  · rename_i action
    split_ifs at taken with enabled
    obtain ⟨session, moved, rfl⟩ := Option.map_eq_some_iff.mp taken
    exact .work action session enabled moved
  · cases taken
    exact .arrive _
  · split_ifs at taken
    cases taken
    exact .read _
  · split at taken
    · rename_i data rest _ _ head
      split at taken
      · rename_i reader accesses handled
        cases taken
        exact .handle _ data rest reader accesses head handled
      · cases taken
        exact .handlePanics _ _
    · cases taken
  · split at taken
    · cases taken
    · rename_i access rest head
      cases taken
      exact .access access rest head

/-- Each step of an endpoint is a step of its session, or none. -/
theorem session_step {label : Label} (taken : endpoint.step label = some next) :
    next.session = endpoint.session ∨
      ∃ sessionLabel, endpoint.session.step sessionLabel = some next.session := by
  cases moved_of_step taken with
  | user dispatchByte message => exact .inl rfl
  | stop => exact .inl rfl
  | receive event origin rest session head moved =>
      exact .inr ⟨.worker (.receive event), moved⟩
  | work action session enabled moved => exact .inr ⟨.worker action, moved⟩
  | arrive bytes => exact .inl rfl
  | read length => exact .inl rfl
  | handle now data rest reader accesses head handled => exact .inl rfl
  | handlePanics now message => exact .inl rfl
  | access access rest head =>
      cases access with
      | sendLoopback event => exact .inl rfl
      | sendTx event => exact .inl rfl
      | removeUnacked seqNum =>
          exact .inr ⟨.handleAck (Ack.new seqNum).intoBytes, step_ack endpoint.session seqNum⟩

def Acknowledges (accepted : List Bytes) (index : Nat) (content : Bytes) : Prop :=
  ∃ seqNum data, data ≠ [] ∧ accepted[index]? = some (AckPacket.new seqNum data).intoBytes ∧
    content = (Ack.new seqNum).intoBytes

theorem Acknowledges.append {accepted : List Bytes} {index : Nat} {content : Bytes}
    (acknowledges : Acknowledges accepted index content) (later : List Bytes) :
    Acknowledges (accepted ++ later) index content := by
  obtain ⟨seqNum, data, nonempty, found, same⟩ := acknowledges
  refine ⟨seqNum, data, nonempty, ?_, same⟩
  rw [List.getElem?_append_left (List.getElem?_eq_some_iff.mp found).1]
  exact found

def Noted (endpoint : Endpoint) (content : Bytes) : Origin → Prop
  | .user => content ∈ endpoint.userData
  | .acknowledgement index => Acknowledges endpoint.accepted index content

theorem Noted.later {content : Bytes} {origin : Origin} (noted : Noted endpoint content origin)
    {moreData moreAccepted : List Bytes} (sameData : next.userData = endpoint.userData ++ moreData)
    (sameAccepted : next.accepted = endpoint.accepted ++ moreAccepted) :
    Noted next content origin := by
  cases origin with
  | user =>
      have member : content ∈ endpoint.userData := noted
      rw [Noted, sameData]
      exact List.mem_append_left _ member
  | acknowledgement index =>
      rw [Noted, sameAccepted]
      exact Acknowledges.append noted moreAccepted

/-- The notes on the queue are true, and so are those on the payloads taken from it. -/
structure EndpointInv (endpoint : Endpoint) : Prop where
  session : SessionInv endpoint.session
  counted : endpoint.origins.length = endpoint.session.payloads.length
  queued : ∀ event origin, (event, origin) ∈ endpoint.queue →
    ∀ content, event = .data content → Noted endpoint content origin
  carried : ∀ (packet : Nat) origin, endpoint.origins[packet]? = some origin →
    ∃ content, endpoint.session.payloads[packet]? = some content ∧
      Noted endpoint content origin
  answers : ∀ event, .sendLoopback event ∈ endpoint.accesses →
    ∃ seqNum data, data ≠ [] ∧ endpoint.handling = (AckPacket.new seqNum data).intoBytes ∧
      event = .data (Ack.new seqNum).intoBytes
  accepted : ∀ bytes ∈ endpoint.accepted, ∃ seqNum data, data ≠ [] ∧
    bytes = (AckPacket.new seqNum data).intoBytes
  nonempty : ∀ content ∈ endpoint.userData, content ≠ []

theorem inv_fresh : EndpointInv .fresh where
  session := SerialRetransmission.inv_fresh
  counted := rfl
  queued := by
    intro event origin member
    cases member
  carried := by
    intro packet origin found
    cases found
  answers := by
    intro event member
    cases member
  accepted := by
    intro bytes member
    cases member
  nonempty := by
    intro content member
    cases member

theorem EndpointInv.extended (inv : EndpointInv endpoint) (moreData moreAccepted : List Bytes)
    (session : SessionInv next.session)
    (samePayloads : next.session.payloads = endpoint.session.payloads)
    (sameOrigins : next.origins = endpoint.origins)
    (sameData : next.userData = endpoint.userData ++ moreData)
    (sameAccepted : next.accepted = endpoint.accepted ++ moreAccepted)
    (queued : ∀ event origin, (event, origin) ∈ next.queue → (event, origin) ∈ endpoint.queue ∨
      ∀ content, event = .data content → Noted next content origin)
    (answers : ∀ event, .sendLoopback event ∈ next.accesses →
      ∃ seqNum data, data ≠ [] ∧ next.handling = (AckPacket.new seqNum data).intoBytes ∧
        event = .data (Ack.new seqNum).intoBytes)
    (accepted : ∀ bytes ∈ moreAccepted, ∃ seqNum data, data ≠ [] ∧
      bytes = (AckPacket.new seqNum data).intoBytes)
    (nonempty : ∀ content ∈ moreData, content ≠ []) : EndpointInv next := by
  constructor
  · exact session
  · rw [sameOrigins, samePayloads]
    exact inv.counted
  · intro event origin member content same
    rcases queued event origin member with before | new
    · exact (inv.queued event origin before content same).later sameData sameAccepted
    · exact new content same
  · intro packet origin found
    rw [sameOrigins] at found
    obtain ⟨content, carried, noted⟩ := inv.carried packet origin found
    rw [samePayloads]
    exact ⟨content, carried, noted.later sameData sameAccepted⟩
  · exact answers
  · intro bytes member
    rw [sameAccepted, List.mem_append] at member
    rcases member with before | new
    · exact inv.accepted bytes before
    · exact accepted bytes new
  · intro content member
    rw [sameData, List.mem_append] at member
    rcases member with before | new
    · exact inv.nonempty content before
    · exact nonempty content new

theorem EndpointInv.receive (inv : EndpointInv endpoint) {event : Event Bytes} {origin : Origin}
    {rest : List (Event Bytes × Origin)} {session : Session}
    (head : endpoint.queue = (event, origin) :: rest)
    (moved : endpoint.session.step (.worker (.receive event)) = some session) :
    EndpointInv { endpoint with
      session := session
      queue := rest
      origins := endpoint.origins ++ Endpoint.originsOf event origin } := by
  have sessionInv := inv_step _ inv.session moved
  obtain ⟨first, later⟩ := of_tail head
  have queued : ∀ other note, (other, note) ∈ rest → (other, note) ∈ endpoint.queue :=
    fun other note => later (other, note)
  by_cases isData : ∃ content, event = .data content
  · obtain ⟨content, rfl⟩ := isData
    have payloads := payloads_of_receive moved
    have noted := inv.queued (.data content) origin first content rfl
    exact { inv with
      session := sessionInv
      counted := by
        simp only [payloads, Endpoint.originsOf, List.length_append, inv.counted,
          List.length_singleton]
      queued := fun other note member => inv.queued other note (queued other note member)
      carried := by
        intro packet note found
        by_cases last : packet = endpoint.origins.length
        · have newest : (endpoint.origins ++ [origin])[endpoint.origins.length]? =
              some origin := List.getElem?_concat_length
          rw [last] at found
          have same := Option.some.inj (newest.symm.trans found)
          refine ⟨content, ?_, ?_⟩
          · simp only [payloads, last, inv.counted]
            exact List.getElem?_concat_length
          · rw [← same]
            exact noted
        · have inside := (List.getElem?_eq_some_iff.mp found).1
          simp only [Endpoint.originsOf, List.length_append, List.length_singleton] at inside
          have before : packet < endpoint.origins.length := by omega
          simp only [Endpoint.originsOf] at found
          rw [List.getElem?_append_left before] at found
          obtain ⟨old, carried, oldNoted⟩ := inv.carried packet note found
          refine ⟨old, ?_, oldNoted⟩
          simp only [payloads]
          rw [List.getElem?_append_left (by rw [← inv.counted]; exact before)]
          exact carried }
  · have notData : ∀ content, event ≠ .data content :=
      fun content same => isData ⟨content, same⟩
    have noOrigins : Endpoint.originsOf event origin = [] := by
      cases event with
      | data content => exact (notData content rfl).elim
      | disconnected => rfl
      | connected => rfl
      | stop => rfl
      | error => rfl
    apply inv.extended [] []
    · exact sessionInv
    · apply payloads_of_other _ moved
      intro content same
      cases same
      exact notData content rfl
    · simp only [noOrigins, List.append_nil]
    · exact (List.append_nil _).symm
    · exact (List.append_nil _).symm
    · exact fun other note member => .inl (queued other note member)
    · exact inv.answers
    · intro bytes member
      cases member
    · intro content member
      cases member

theorem EndpointInv.perform (inv : EndpointInv endpoint) {access : SharedAccess}
    {rest : List SharedAccess} (head : endpoint.accesses = access :: rest) :
    EndpointInv { endpoint.perform access with accesses := rest } := by
  have answers : ∀ event, .sendLoopback event ∈ rest →
      ∃ seqNum data, data ≠ [] ∧ endpoint.handling = (AckPacket.new seqNum data).intoBytes ∧
        event = .data (Ack.new seqNum).intoBytes := by
    intro event member
    apply inv.answers event
    rw [head]
    exact List.mem_cons_of_mem _ member
  cases access with
  | sendLoopback event =>
      obtain ⟨seqNum, data, nonempty, handling, isAck⟩ :=
        inv.answers event (by rw [head]; exact List.mem_cons_self)
      apply inv.extended [] [endpoint.handling]
      · exact inv.session
      · rfl
      · rfl
      · exact (List.append_nil _).symm
      · rfl
      · intro other origin member
        rcases List.mem_append.mp member with before | new
        · exact .inl before
        · apply Or.inr
          intro content same
          rw [List.mem_singleton] at new
          cases new
          rw [isAck] at same
          cases same
          refine ⟨seqNum, data, nonempty, ?_, rfl⟩
          rw [← handling]
          exact List.getElem?_concat_length
      · exact answers
      · intro bytes member
        rw [List.mem_singleton] at member
        rw [member]
        exact ⟨seqNum, data, nonempty, handling⟩
      · intro content member
        cases member
  | sendTx event =>
      exact { inv with answers := answers }
  | removeUnacked seqNum =>
      exact { inv with
        session := inv.session.remove_unacked seqNum
        answers := answers }

theorem answers_of_handle_data {reader handled : SerialWorker} {now : Instant} {data : Bytes}
    {accesses : List SharedAccess}
    (returns : reader.handleData now data = returned (handled, accesses)) :
    ∀ event, .sendLoopback event ∈ accesses →
      ∃ seqNum content, content ≠ [] ∧ data = (AckPacket.new seqNum content).intoBytes ∧
        event = .data (Ack.new seqNum).intoBytes := by
  intro event inside
  rcases accesses_of_handle_data returns with none | ⟨seqNum, content, nonempty, same, all⟩ |
    ⟨seqNum, _, all⟩ | ⟨content, _, _, all⟩
  · rw [none] at inside
    cases inside
  · rw [all] at inside
    simp only [List.mem_cons, SharedAccess.sendLoopback.injEq, reduceCtorEq, List.not_mem_nil,
      or_false] at inside
    exact ⟨seqNum, content, nonempty, same, inside⟩
  · rw [all] at inside
    simp at inside
  · rw [all] at inside
    simp at inside

theorem inv_endpoint_step {label : Label} (inv : EndpointInv endpoint)
    (taken : endpoint.step label = some next) : EndpointInv next := by
  cases moved_of_step taken with
  | user dispatchByte message =>
      apply inv.extended [dispatched dispatchByte message] []
      · exact inv.session
      · rfl
      · rfl
      · rfl
      · exact (List.append_nil _).symm
      · intro event origin member
        rcases List.mem_append.mp member with before | new
        · exact .inl before
        · apply Or.inr
          intro content same
          rw [List.mem_singleton] at new
          cases new
          cases same
          exact List.mem_append_right _ (List.mem_singleton.mpr rfl)
      · exact inv.answers
      · intro bytes member
        cases member
      · intro content member
        rw [List.mem_singleton] at member
        rw [member]
        exact List.cons_ne_nil _ _
  | stop =>
      apply inv.extended [] []
      · exact inv.session
      · rfl
      · rfl
      · exact (List.append_nil _).symm
      · exact (List.append_nil _).symm
      · intro event origin member
        rcases List.mem_append.mp member with before | new
        · exact .inl before
        · apply Or.inr
          intro content same
          rw [List.mem_singleton] at new
          cases new
          cases same
      · exact inv.answers
      · intro bytes member
        cases member
      · intro content member
        cases member
  | receive event origin rest session head moved => exact inv.receive head moved
  | work action session enabled moved =>
      have samePayloads : session.payloads = endpoint.session.payloads := by
        apply payloads_of_other _ moved
        intro data same
        rw [same] at enabled
        cases enabled
      exact { inv with
        session := inv_step _ inv.session moved
        counted := by
          rw [samePayloads]
          exact inv.counted
        carried := by
          rw [samePayloads]
          exact inv.carried }
  | arrive bytes => exact { inv with }
  | read length => exact { inv with }
  | handle now data rest reader accesses head handled =>
      exact { inv with answers := answers_of_handle_data handled }
  | handlePanics now message => exact { inv with }
  | access access rest head => exact inv.perform head

theorem inv_of_run {labels : List Label} {last : Endpoint}
    (reached : run Endpoint.step .fresh labels = some last) : EndpointInv last :=
  invariant_of_run (fun _ _ _ inv taken => inv_endpoint_step inv taken) inv_fresh reached

/-- Every write of a packet is the frame of an `AckPacket` around the content taken from the queue
for it, whoever put it there. -/
theorem written_content (inv : EndpointInv endpoint) {packet : Nat} {origin : Origin}
    (booked : endpoint.origins[packet]? = some origin) {write : PortWrite}
    (member : write ∈ endpoint.session.portLog) (same : write.packet = packet) :
    ∃ content, Noted endpoint content origin ∧
      write.frame =
        HdlcCodec.encode (AckPacket.new (seqNumOf packet) content).intoBytes := by
  obtain ⟨content, carried, noted⟩ := inv.carried packet origin booked
  obtain ⟨_, payload, found, framed⟩ := inv.session.framed member
  rw [same, carried] at found
  cases found
  exact ⟨content, noted, by rw [framed, same]; rfl⟩

/-- In every run, whatever the endpoint writes for an acknowledgement it queued decodes to an
`AckPacket` that has the acknowledgement as its data. It never decodes to the acknowledgement, and
no peer that handles it removes anything from its map. -/
theorem acknowledgements_written_as_data (labels : List Label) (endpoint : Endpoint)
    (reached : run Endpoint.step .fresh labels = some endpoint) (index : Nat) (bytes : Bytes)
    (accepted : endpoint.accepted[index]? = some bytes) :
    ∃ seqNum data, data ≠ [] ∧ bytes = (AckPacket.new seqNum data).intoBytes ∧
      ∀ packet, endpoint.origins[packet]? = some (.acknowledgement index) →
        ∀ write ∈ endpoint.session.portLog, write.packet = packet →
          (HdlcCodec.new.decode write.frame).2 =
              [(AckPacket.new (seqNumOf packet) (Ack.new seqNum).intoBytes).intoBytes] ∧
            (HdlcCodec.new.decode write.frame).2 ≠ [(Ack.new seqNum).intoBytes] ∧
            ∀ peer now, ∃ handled accesses,
              SerialWorker.handleData peer now
                  (AckPacket.new (seqNumOf packet) (Ack.new seqNum).intoBytes).intoBytes =
                returned (handled, accesses) ∧
              ∀ removed, .removeUnacked removed ∉ accesses := by
  have inv := inv_of_run reached
  obtain ⟨seqNum, data, nonempty, same⟩ := inv.accepted bytes (List.mem_of_getElem? accepted)
  refine ⟨seqNum, data, nonempty, same, ?_⟩
  intro packet booked write member samePacket
  obtain ⟨content, ⟨otherNum, otherData, _, found, isAck⟩, framed⟩ :=
    written_content inv booked member samePacket
  have sameNum : otherNum = seqNum := by
    rw [accepted, same] at found
    exact (ack_packet_seq_num (Option.some.inj found)).symm
  rw [isAck, sameNum] at framed
  have decoded : (HdlcCodec.new.decode write.frame).2 =
      [(AckPacket.new (seqNumOf packet) (Ack.new seqNum).intoBytes).intoBytes] := by
    rw [framed, decode_frame (.inl rfl) (ack_packet_nonempty _)]
  refine ⟨decoded, ?_, ?_⟩
  · rw [decoded]
    intro sameFrame
    exact ack_packet_ne_ack _ _ _ (List.cons.inj sameFrame).1
  · intro peer now
    rw [handle_data_ack_packet peer now (seqNumOf packet) (ack_nonempty _)]
    rcases insert_cases peer.seqNumCache now (seqNumOf packet) with taken | refused
    · rw [taken]
      refine ⟨_, _, rfl, ?_⟩
      intro removed inside
      simp at inside
    · rw [refused]
      refine ⟨_, _, rfl, ?_⟩
      intro removed inside
      cases inside

def answered : List Label :=
  [.arrive (HdlcCodec.encode (AckPacket.new 7 [0x2A]).intoBytes), .read 255, .handle 0, .access,
    .access, .receive, .work (.write true)]

theorem answered_books :
    ((run Endpoint.step .fresh answered).map fun endpoint =>
      (endpoint.accepted, endpoint.origins,
        endpoint.session.portLog.map fun write => (write.packet, write.frame))) =
    some ([(AckPacket.new 7 [0x2A]).intoBytes], [.acknowledgement 0],
      [(0, HdlcCodec.encode (AckPacket.new 0 (Ack.new 7).intoBytes).intoBytes)]) := by
  decide +kernel

/-- The one frame written for the acknowledgement of packet 7 is not an acknowledgement. -/
theorem acknowledgement_of_seven_lost :
    ∃ endpoint, run Endpoint.step .fresh answered = some endpoint ∧
      endpoint.accepted[0]? = some (AckPacket.new 7 [0x2A]).intoBytes ∧
      endpoint.origins[0]? = some (.acknowledgement 0) ∧
      ∃ write ∈ endpoint.session.portLog, write.packet = 0 ∧
        (HdlcCodec.new.decode write.frame).2 ≠ [(Ack.new 7).intoBytes] := by
  obtain ⟨endpoint, reached, books⟩ := Option.map_eq_some_iff.mp answered_books
  have ⟨accepted, others⟩ := Prod.mk.inj books
  have ⟨origins, written⟩ := Prod.mk.inj others
  have logged : (0, HdlcCodec.encode (AckPacket.new 0 (Ack.new 7).intoBytes).intoBytes) ∈
      endpoint.session.portLog.map fun write => (write.packet, write.frame) := by
    rw [written]
    exact List.mem_cons_self
  obtain ⟨write, member, same⟩ := List.mem_map.mp logged
  have ⟨packet, frame⟩ := Prod.mk.inj same
  refine ⟨endpoint, reached, by rw [accepted]; rfl, by rw [origins]; rfl, write, member, packet, ?_⟩
  rw [frame, decode_frame (.inl rfl) (ack_packet_nonempty _)]
  intro sameFrame
  exact ack_packet_ne_ack _ _ _ (List.cons.inj sameFrame).1

theorem acknowledgement_of_seven_written_as_data :
    ∃ endpoint, run Endpoint.step .fresh answered = some endpoint ∧
      ∃ seqNum data, data ≠ [] ∧
        (AckPacket.new 7 [0x2A]).intoBytes = (AckPacket.new seqNum data).intoBytes ∧
        ∀ packet, endpoint.origins[packet]? = some (.acknowledgement 0) →
          ∀ write ∈ endpoint.session.portLog, write.packet = packet →
            (HdlcCodec.new.decode write.frame).2 ≠ [(Ack.new seqNum).intoBytes] := by
  obtain ⟨endpoint, reached, books⟩ := Option.map_eq_some_iff.mp answered_books
  have ⟨accepted, _⟩ := Prod.mk.inj books
  obtain ⟨seqNum, data, nonempty, same, written⟩ := acknowledgements_written_as_data answered
    endpoint reached 0 (AckPacket.new 7 [0x2A]).intoBytes (by rw [accepted]; rfl)
  refine ⟨endpoint, reached, seqNum, data, nonempty, same, ?_⟩
  intro packet booked write member samePacket
  exact (written packet booked write member samePacket).2.1

end MoteConnection.SerialEndpoint
