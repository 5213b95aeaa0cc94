import MoteConnection.SerialLink

/-!
# Everything on a serial link

Two endpoints back to back in all their runs, with the frames of queued
acknowledgements among those delivered. What an endpoint hands up then was sent
by a user of the other side, or it is an acknowledgement.
-/

namespace MoteConnection.SerialTraffic

open LabeledRuns
open MoteConnection.Runtime MoteConnection.HdlcFraming MoteConnection.SerialPackets
open MoteConnection.SerialSending MoteConnection.SerialRetransmission
open MoteConnection.SerialEndpoint MoteConnection.SerialLink

set_option autoImplicit false

def acknowledgements : List Bytes :=
  (List.range 256).map fun seqNum => (Ack.new (UInt8.ofNat seqNum)).intoBytes

theorem mem_acknowledgements (content : Bytes) :
    content ∈ acknowledgements ↔ ∃ seqNum, content = (Ack.new seqNum).intoBytes := by
  rw [acknowledgements, List.mem_map]
  constructor
  · intro ⟨seqNum, _, same⟩
    exact ⟨_, same.symm⟩
  · intro ⟨seqNum, same⟩
    refine ⟨seqNum.toNat, List.mem_range.mpr seqNum.toNat_lt, ?_⟩
    rw [UInt8.ofNat_toNat, same]

/-- What the users of an endpoint have sent, and what it can send of itself. -/
def traffic (endpoint : Endpoint) : List Bytes := endpoint.userData ++ acknowledgements

variable {endpoint next : Endpoint} {link : Link}

theorem Noted.traffic {content : Bytes} {origin : Origin} (noted : Noted endpoint content origin) :
    content ∈ traffic endpoint := by
  cases origin with
  | user => exact List.mem_append_left _ noted
  | acknowledgement index =>
      obtain ⟨seqNum, _, _, _, same⟩ := noted
      exact List.mem_append_right _ ((mem_acknowledgements content).mpr ⟨seqNum, same⟩)

theorem written_traffic (inv : EndpointInv endpoint) {write : PortWrite}
    (logged : write ∈ endpoint.session.portLog) :
    ∃ data, Wrapped (traffic endpoint) data ∧ write.frame = HdlcCodec.encode data := by
  obtain ⟨_, payload, found, framed⟩ := inv.session.framed logged
  have booked : write.packet < endpoint.origins.length := by
    rw [inv.counted]
    exact (List.getElem?_eq_some_iff.mp found).1
  obtain ⟨content, carried, noted⟩ :=
    inv.carried write.packet _ (List.getElem?_eq_getElem booked)
  rw [found] at carried
  cases carried
  exact ⟨_, ⟨seqNumOf write.packet, payload, Noted.traffic noted, rfl⟩, framed⟩

/-- The frames on the wires were written, and everything received is wrapped around traffic. -/
structure TrafficInv (link : Link) : Prop where
  endpoints : ∀ side, EndpointInv (link.endpoint side)
  wires : ∀ side, ∀ write ∈ link.wire side, write ∈ (link.endpoint side).session.portLog
  received : ∀ side, Received (traffic (link.endpoint side.other)) (link.endpoint side)

theorem traffic_inv_fresh : TrafficInv .fresh where
  endpoints := fun _ => SerialEndpoint.inv_fresh
  wires := by
    intro side write member
    cases member
  received := fun _ => received_fresh.mono (List.nil_subset _)

theorem TrafficInv.moved (inv : TrafficInv link) {side : Side} {wire : Side → List PortWrite}
    (endpointInv : EndpointInv next)
    (received : Received (traffic (link.endpoint side.other)) next)
    (grows : (link.endpoint side).userData ⊆ next.userData)
    (wires : ∀ write ∈ wire side, write ∈ next.session.portLog)
    (others : ∀ write ∈ wire side.other, write ∈ link.wire side.other) :
    TrafficInv ⟨Function.update link.endpoint side next, wire⟩ := by
  have itself : Function.update link.endpoint side next side = next := Function.update_self ..
  have opposite : Function.update link.endpoint side next side.other =
      link.endpoint side.other := Function.update_of_ne side.other_ne ..
  constructor
  · refine both_sides side ?_ ?_
    · simp only [itself]
      exact endpointInv
    · simp only [opposite]
      exact inv.endpoints side.other
  · refine both_sides side ?_ ?_
    · simp only [itself]
      exact wires
    · simp only [opposite]
      exact fun write member => inv.wires side.other write (others write member)
  · refine both_sides side ?_ ?_
    · simp only [itself, opposite]
      exact received
    · have before := inv.received side.other
      simp only [side.other_other, itself, opposite] at before ⊢
      exact before.mono (List.append_subset.mpr
        ⟨List.subset_append_of_subset_left _ grows, List.subset_append_right _ _⟩)

theorem traffic_inv_step {label : LinkLabel} {last : Link} (inv : TrafficInv link)
    (taken : link.step label = some last) : TrafficInv last := by
  unfold Link.step at taken
  split at taken
  · cases taken
  · rename_i side label notArrival
    obtain ⟨endpoint, moved, rfl⟩ := Option.map_eq_some_iff.mp taken
    obtain ⟨later, grown⟩ := endpoint_log_grows (inv.endpoints side) moved
    have reading := received_step (inv.received side)
      (fun bytes same => notArrival bytes same) moved
    apply inv.moved (inv_endpoint_step (inv.endpoints side) moved) reading (user_data_grows moved)
    · intro write member
      rw [Function.update_self] at member
      rcases List.mem_append.mp member with before | new
      · rw [grown]
        exact List.mem_append_left _ (inv.wires side write before)
      · exact List.mem_of_mem_drop new
    · intro write member
      rwa [Function.update_of_ne side.other_ne] at member
  · rename_i side
    split at taken
    · cases taken
    · rename_i write rest head
      cases taken
      obtain ⟨data, wrapped, framed⟩ :=
        written_traffic (inv.endpoints side) (inv.wires side write (of_tail head).1)
      have before := inv.received side.other
      rw [side.other_other] at before
      have arriving := before.arrive wrapped
      rw [← framed] at arriving
      apply inv.moved
        (@inv_endpoint_step _ _ (.arrive write.frame) (inv.endpoints side.other) rfl)
      · rw [side.other_other]
        exact arriving
      · exact fun _ member => member
      · intro other member
        rw [Function.update_of_ne side.other_ne] at member
        exact inv.wires side.other other member
      · intro other member
        rw [side.other_other, Function.update_self] at member
        rw [side.other_other, head]
        exact List.mem_cons_of_mem _ member
  · rename_i side
    split at taken
    · cases taken
    · rename_i write rest head
      cases taken
      refine { inv with wires := ?_ }
      intro other lost member
      apply inv.wires other
      by_cases same : other = side
      · rw [same] at member ⊢
        simp only [Function.update_self] at member
        rw [head]
        exact List.mem_cons_of_mem _ member
      · simp only [Function.update_of_ne same] at member
        exact member

end MoteConnection.SerialTraffic
