import MoteConnection.SerialEndpoint

/-!
# Two endpoints back to back

Two serial endpoints and the frames on their way between them, which may be
lost but are neither altered nor reordered. What arrives is read in pieces of
any size. As long as only frames with user data get through, an endpoint hands
up nothing but what the other one's users sent. A frame with a queued
acknowledgement is indistinguishable from those, and is handed up like them.
-/

namespace MoteConnection.SerialLink

open LabeledRuns
open MoteConnection.Runtime MoteConnection.HdlcFraming MoteConnection.SerialPackets
open MoteConnection.SerialReceiving MoteConnection.SerialSending
open MoteConnection.SerialRetransmission MoteConnection.SerialEndpoint
open Outcome

set_option autoImplicit false

/-- `wire side` is on its way from that side to the other one. -/
structure Link where
  endpoint : Side → Endpoint
  wire : Side → List PortWrite

def Link.fresh : Link := ⟨fun _ => .fresh, fun _ => []⟩

inductive LinkLabel
  | endpoint (side : Side) (label : SerialEndpoint.Label)
  | deliver (side : Side)
  | lose (side : Side)
  deriving DecidableEq, Repr

namespace Link

def step (link : Link) : LinkLabel → Option Link
  | .endpoint _ (.arrive _) => none
  | .endpoint side label =>
      ((link.endpoint side).step label).map fun next =>
        { endpoint := Function.update link.endpoint side next
          wire := Function.update link.wire side (link.wire side ++
            next.session.portLog.drop (link.endpoint side).session.portLog.length) }
  | .deliver side =>
      match link.wire side with
      | [] => none
      | write :: rest =>
          ((link.endpoint side.other).step (.arrive write.frame)).map fun next =>
            { endpoint := Function.update link.endpoint side.other next
              wire := Function.update link.wire side rest }
  | .lose side =>
      match link.wire side with
      | [] => none
      | _ :: rest => some { link with wire := Function.update link.wire side rest }

def delivering (link : Link) : LinkLabel → Option (Side × PortWrite)
  | .deliver side => (link.wire side).head?.map fun write => (side, write)
  | _ => none

/-- No frame that carries a queued acknowledgement is delivered. -/
def UserFramesOnly (link : Link) (label : LinkLabel) : Prop :=
  ∀ frame ∈ link.delivering label,
    (link.endpoint frame.1).origins[frame.2.packet]? = some .user

instance (link : Link) (label : LinkLabel) : Decidable (link.UserFramesOnly label) :=
  inferInstanceAs (Decidable (∀ frame ∈ link.delivering label, _))

end Link

def Wrapped (sent : List Bytes) (data : Bytes) : Prop :=
  ∃ seqNum content, content ∈ sent ∧ data = (AckPacket.new seqNum content).intoBytes

/-- All that has arrived at an endpoint, at every stage of its read thread, is wrapped around what
was sent, or is just that. -/
structure Received (sent : List Bytes) (endpoint : Endpoint) : Prop where
  between : (endpoint.reader.decoder.decode endpoint.inbox).1 = .new ∨
    (endpoint.reader.decoder.decode endpoint.inbox).1 = .opened
  unread : ∀ data ∈ (endpoint.reader.decoder.decode endpoint.inbox).2, Wrapped sent data
  packets : ∀ data ∈ endpoint.packets, Wrapped sent data
  accesses : ∀ event, .sendTx event ∈ endpoint.accesses →
    ∃ content ∈ sent, event = .data content
  delivered : ∀ event ∈ endpoint.delivered, ∃ content ∈ sent, event = .data content

theorem received_fresh : Received [] .fresh where
  between := .inl rfl
  unread := by
    intro data member
    cases member
  packets := by
    intro data member
    cases member
  accesses := by
    intro event member
    cases member
  delivered := by
    intro event member
    cases member

variable {sent : List Bytes} {endpoint next : Endpoint}

theorem Received.mono (received : Received sent endpoint) {more : List Bytes}
    (subset : sent ⊆ more) : Received more endpoint := by
  have wrapped {data : Bytes} : Wrapped sent data → Wrapped more data := by
    intro ⟨seqNum, content, member, same⟩
    exact ⟨seqNum, content, subset member, same⟩
  constructor
  · exact received.between
  · exact fun data member => wrapped (received.unread data member)
  · exact fun data member => wrapped (received.packets data member)
  · intro event member
    obtain ⟨content, inside, same⟩ := received.accesses event member
    exact ⟨content, subset inside, same⟩
  · intro event member
    obtain ⟨content, inside, same⟩ := received.delivered event member
    exact ⟨content, subset inside, same⟩

theorem Received.arrive (received : Received sent endpoint) {data : Bytes}
    (wrapped : Wrapped sent data) :
    Received sent { endpoint with inbox := endpoint.inbox ++ HdlcCodec.encode data } := by
  obtain ⟨seqNum, content, member, same⟩ := wrapped
  have nonempty : data ≠ [] := by
    rw [same]
    exact ack_packet_nonempty _
  have decoded := decode_frame received.between nonempty
  exact { received with
    between := by
      rw [decode_append, decoded]
      exact .inr rfl
    unread := by
      rw [decode_append, decoded]
      intro other inside
      rcases List.mem_append.mp inside with before | new
      · exact received.unread other before
      · rw [List.mem_singleton] at new
        rw [new]
        exact ⟨seqNum, content, member, same⟩ }

theorem Received.read (received : Received sent endpoint) (length : Nat) :
    Received sent { endpoint with
      reader := { endpoint.reader with
        decoder := (endpoint.reader.decoder.decode (endpoint.inbox.take length)).1 }
      inbox := endpoint.inbox.drop length
      packets := (endpoint.reader.decoder.decode (endpoint.inbox.take length)).2 } := by
  have split := decode_append endpoint.reader.decoder (endpoint.inbox.take length)
    (endpoint.inbox.drop length)
  rw [List.take_append_drop] at split
  have between := received.between
  have unread := received.unread
  rw [split] at between unread
  exact { received with
    between := between
    unread := fun data member => unread data (List.mem_append_right _ member)
    packets := fun data member => unread data (List.mem_append_left _ member) }

theorem Received.handle (received : Received sent endpoint) {now : Instant} {data : Bytes}
    {rest : List Bytes} {reader : SerialWorker} {accesses : List SharedAccess}
    (head : endpoint.packets = data :: rest)
    (handled : endpoint.reader.handleData now data = returned (reader, accesses)) :
    Received sent { endpoint with
      reader := reader
      packets := rest
      handling := data
      accesses := accesses } := by
  obtain ⟨first, later⟩ := of_tail head
  obtain ⟨seqNum, content, member, wrapped⟩ := received.packets data first
  have sameDecoder := decoder_of_handle_data handled
  exact { received with
    between := by
      rw [sameDecoder]
      exact received.between
    unread := by
      rw [sameDecoder]
      exact received.unread
    packets := fun other inside => received.packets other (later other inside)
    accesses := by
      intro event inside
      rcases accesses_of_handle_data handled with none | ⟨number, carried, _, same, all⟩ |
        ⟨number, same, _⟩ | ⟨carried, _, same, _⟩
      · have isMember : .sendTx event ∈ accesses := inside
        rw [none] at isMember
        cases isMember
      · have isMember : .sendTx event ∈ accesses := inside
        rw [all] at isMember
        simp only [List.mem_cons, SharedAccess.sendTx.injEq, reduceCtorEq, List.not_mem_nil,
          or_false, false_or] at isMember
        rw [ack_packet_data (same.symm.trans wrapped)] at isMember
        exact ⟨content, member, isMember⟩
      · exact absurd (wrapped.symm.trans same) (ack_packet_ne_ack _ _ _)
      · exact absurd (wrapped.symm.trans same) (ack_packet_ne_no_ack_packet _ _ _) }

theorem Received.perform (received : Received sent endpoint) {access : SharedAccess}
    {rest : List SharedAccess} (head : endpoint.accesses = access :: rest) :
    Received sent { endpoint.perform access with accesses := rest } := by
  obtain ⟨first, later⟩ := of_tail head
  have accesses : ∀ event, .sendTx event ∈ rest → ∃ content ∈ sent, event = .data content :=
    fun event member => received.accesses event (later _ member)
  cases access with
  | sendLoopback event => exact { received with accesses := accesses }
  | removeUnacked seqNum => exact { received with accesses := accesses }
  | sendTx event =>
      exact { received with
        accesses := accesses
        delivered := by
          intro other member
          rcases List.mem_append.mp member with before | new
          · exact received.delivered other before
          · rw [List.mem_singleton] at new
            rw [new]
            exact received.accesses event first }

/-- No step of an endpoint but an arrival adds to what it has received. -/
theorem received_step {label : SerialEndpoint.Label} (received : Received sent endpoint)
    (notArrival : ∀ bytes, label ≠ .arrive bytes)
    (taken : endpoint.step label = some next) : Received sent next := by
  cases moved_of_step taken with
  | user dispatchByte message => exact { received with }
  | stop => exact { received with }
  | receive event origin rest session head moved => exact { received with }
  | work action session enabled moved => exact { received with }
  | arrive bytes => exact absurd rfl (notArrival bytes)
  | read length => exact received.read length
  | handle now data rest reader accesses head handled => exact received.handle head handled
  | handlePanics now message =>
      exact { received with
        packets := by
          intro data member
          cases member }
  | access access rest head => exact received.perform head

theorem user_data_grows {label : SerialEndpoint.Label} (taken : endpoint.step label = some next) :
    endpoint.userData ⊆ next.userData := by
  cases moved_of_step taken with
  | user dispatchByte message => exact List.subset_append_left _ _
  | stop => exact List.Subset.refl _
  | receive event origin rest session head moved => exact List.Subset.refl _
  | work action session enabled moved => exact List.Subset.refl _
  | arrive bytes => exact List.Subset.refl _
  | read length => exact List.Subset.refl _
  | handle now data rest reader accesses head handled => exact List.Subset.refl _
  | handlePanics now message => exact List.Subset.refl _
  | access access rest head => cases access <;> exact List.Subset.refl _

theorem endpoint_log_grows {label : SerialEndpoint.Label} (inv : EndpointInv endpoint)
    (taken : endpoint.step label = some next) :
    ∃ later, next.session.portLog = endpoint.session.portLog ++ later := by
  rcases session_step taken with same | ⟨sessionLabel, moved⟩
  · exact ⟨[], by rw [same, List.append_nil]⟩
  · exact inv.session.port_log_grows moved

structure LinkInv (link : Link) : Prop where
  endpoints : ∀ side, EndpointInv (link.endpoint side)
  wires : ∀ side, ∀ write ∈ link.wire side, write ∈ (link.endpoint side).session.portLog
  received : ∀ side, Received (link.endpoint side.other).userData (link.endpoint side)

theorem link_inv_fresh : LinkInv .fresh where
  endpoints := fun _ => SerialEndpoint.inv_fresh
  wires := by
    intro side write member
    cases member
  received := fun _ => received_fresh

theorem LinkInv.replaced {link : Link} (inv : LinkInv link) {side : Side} {next : Endpoint}
    {wire : List PortWrite} {writer : Side}
    (endpointInv : EndpointInv next)
    (received : Received (link.endpoint side.other).userData next)
    (grows : (link.endpoint side).userData ⊆ next.userData)
    (logGrows : (link.endpoint side).session.portLog ⊆ next.session.portLog)
    (written : ∀ write ∈ wire, write ∈ link.wire writer ∨
      writer = side ∧ write ∈ next.session.portLog) :
    LinkInv
      { endpoint := Function.update link.endpoint side next
        wire := Function.update link.wire writer wire } := by
  have others (other : Side) (differs : other ≠ side) :
      Function.update link.endpoint side next other = link.endpoint other :=
    Function.update_of_ne differs _ _
  have itself : Function.update link.endpoint side next side = next :=
    Function.update_self _ _ _
  have logs (other : Side) : (link.endpoint other).session.portLog ⊆
      (Function.update link.endpoint side next other).session.portLog := by
    by_cases same : other = side
    · rw [same, itself]
      exact logGrows
    · rw [others other same]
      exact fun _ member => member
  constructor
  · intro other
    by_cases same : other = side
    · rw [same]
      simp only [itself]
      exact endpointInv
    · simp only [others other same]
      exact inv.endpoints other
  · intro other write member
    by_cases same : other = writer
    · rw [same] at member ⊢
      simp only [Function.update_self] at member
      rcases written write member with before | ⟨sameSide, new⟩
      · exact logs writer (inv.wires writer write before)
      · rw [sameSide]
        simp only [itself]
        exact new
    · simp only [Function.update_of_ne same] at member
      exact logs other (inv.wires other write member)
  · intro other
    by_cases same : other = side
    · rw [same]
      simp only [itself, others side.other side.other_ne]
      exact received
    · have isOther : other.other = side := by
        rw [Side.other_eq same, side.other_other]
      simp only [others other same, isOther, itself]
      apply Received.mono _ grows
      have before := inv.received other
      rw [isOther] at before
      exact before

theorem link_inv_step {link next : Link} {label : LinkLabel}
    (userFramesOnly : link.UserFramesOnly label) (inv : LinkInv link)
    (taken : link.step label = some next) : LinkInv next := by
  unfold Link.step at taken
  split at taken
  · cases taken
  · rename_i side label notArrival
    obtain ⟨endpoint, moved, rfl⟩ := Option.map_eq_some_iff.mp taken
    obtain ⟨later, grown⟩ := endpoint_log_grows (inv.endpoints side) moved
    apply inv.replaced
    · exact inv_endpoint_step (inv.endpoints side) moved
    · apply received_step (inv.received side) _ moved
      intro bytes same
      exact notArrival bytes same
    · exact user_data_grows moved
    · rw [grown]
      exact List.subset_append_left _ _
    · intro write member
      rcases List.mem_append.mp member with before | new
      · exact .inl before
      · exact .inr ⟨rfl, List.mem_of_mem_drop new⟩
  · rename_i side
    split at taken
    · cases taken
    · rename_i write rest head
      cases taken
      have logged := inv.wires side write (of_tail head).1
      have isUser : (link.endpoint side).origins[write.packet]? = some .user := by
        apply userFramesOnly (side, write)
        simp only [Link.delivering, head, List.head?_cons, Option.map_some, Option.mem_def]
      obtain ⟨content, sent, framed⟩ :=
        written_content (inv.endpoints side) isUser logged rfl
      apply inv.replaced
      · exact @inv_endpoint_step _ _ (.arrive write.frame) (inv.endpoints side.other) rfl
      · rw [framed]
        apply (inv.received side.other).arrive
        rw [side.other_other]
        exact ⟨_, content, sent, rfl⟩
      · exact fun _ member => member
      · exact fun _ member => member
      · intro other member
        apply Or.inl
        rw [head]
        exact List.mem_cons_of_mem _ member
  · rename_i side
    split at taken
    · cases taken
    · rename_i write rest head
      cases taken
      exact { inv with
        wires := by
          intro other lost member
          apply inv.wires other
          by_cases same : other = side
          · rw [same] at member ⊢
            simp only [Function.update_self] at member
            rw [head]
            exact List.mem_cons_of_mem _ member
          · simp only [Function.update_of_ne same] at member
            exact member }

/-- In every run that delivers no frame of a queued acknowledgement, under every interleaving of the
four threads and whatever else is lost, an endpoint hands up only what the other side's users put
in its queue. -/
theorem delivered_was_sent (labels : List LinkLabel) (last : Link)
    (userFramesOnly : Meets Link.step Link.UserFramesOnly .fresh labels)
    (reached : run Link.step .fresh labels = some last) (side : Side) (event : Event Bytes)
    (delivered : event ∈ (last.endpoint side).delivered) :
    ∃ content ∈ (last.endpoint side.other).userData, event = .data content := by
  have inv : LinkInv last := invariant_of_meets
    (fun _ _ _ userFramesOnly inv taken => link_inv_step userFramesOnly inv taken)
    userFramesOnly link_inv_fresh reached
  exact (inv.received side).delivered event delivered

def crossing : List LinkLabel :=
  [.endpoint .left (.user 0x01 [0x2A]), .endpoint .left .receive,
    .endpoint .left (.work (.write true)), .deliver .left, .endpoint .right (.read 255),
    .endpoint .right (.handle 0), .endpoint .right .access, .endpoint .right .access]

theorem crossing_was_sent :
    ∃ last, run Link.step .fresh crossing = some last ∧
      .data [0x01, 0x2A] ∈ (last.endpoint .right).delivered ∧
      ∃ content ∈ (last.endpoint .left).userData, .data [0x01, 0x2A] = Event.data content := by
  have crossed : ((run Link.step .fresh crossing).map fun last =>
      (last.endpoint .right).delivered) = some [.data [0x01, 0x2A]] := by decide +kernel
  have userFramesOnly : Meets Link.step Link.UserFramesOnly .fresh crossing := by decide +kernel
  obtain ⟨last, reached, all⟩ := Option.map_eq_some_iff.mp crossed
  have delivered : .data [0x01, 0x2A] ∈ (last.endpoint .right).delivered := by
    rw [all]
    exact List.mem_cons_self
  exact ⟨last, reached, delivered,
    delivered_was_sent crossing last userFramesOnly reached .right _ delivered⟩

/-- The acknowledgement of that message crosses the link the other way and is handed up too, though
no user of the right side ever sent anything. -/
theorem acknowledgement_handed_up :
    ∃ last, run Link.step .fresh (crossing ++
        [.endpoint .right .receive, .endpoint .right (.work (.write true)), .deliver .right,
          .endpoint .left (.read 255), .endpoint .left (.handle 0), .endpoint .left .access,
          .endpoint .left .access]) = some last ∧
      .data (Ack.new 0).intoBytes ∈ (last.endpoint .left).delivered ∧
      ¬ ∃ content ∈ (last.endpoint .right).userData,
        .data (Ack.new 0).intoBytes = Event.data content := by
  have books : ((run Link.step .fresh (crossing ++
      [.endpoint .right .receive, .endpoint .right (.work (.write true)), .deliver .right,
        .endpoint .left (.read 255), .endpoint .left (.handle 0), .endpoint .left .access,
        .endpoint .left .access])).map fun last =>
        ((last.endpoint .left).delivered, (last.endpoint .right).userData)) =
      some ([.data (Ack.new 0).intoBytes], []) := by
    decide +kernel
  obtain ⟨last, reached, both⟩ := Option.map_eq_some_iff.mp books
  have ⟨delivered, nothing⟩ := Prod.mk.inj both
  refine ⟨last, reached, ?_, ?_⟩
  · rw [delivered]
    exact List.mem_cons_self
  · intro ⟨content, member, _⟩
    rw [nothing] at member
    cases member

end MoteConnection.SerialLink
