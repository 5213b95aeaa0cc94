import Mathlib.Data.List.Induction
import Mathlib.Tactic.Common

/-!
# Packets behind a length byte

Every byte stream is, in exactly one way, a sequence of packets that are each
preceded by one byte for their length, and a rest in which the next packet is
not complete.
-/

namespace LengthPrefix

set_option autoImplicit false

def frame (packet : List UInt8) : List UInt8 := UInt8.ofNat packet.length :: packet

def Incomplete : List UInt8 → Prop
  | [] => True
  | length :: body => body.length < length.toNat

/-- The packets that are complete in a stream, and what is left behind them. -/
structure Splits (stream : List UInt8) (packets : List (List UInt8)) (rest : List UInt8) :
    Prop where
  joined : stream = packets.flatMap frame ++ rest
  bounded : ∀ packet ∈ packets, packet.length ≤ 255
  incomplete : Incomplete rest

theorem length_byte {packet : List UInt8} (bounded : packet.length ≤ 255) :
    (UInt8.ofNat packet.length).toNat = packet.length := by
  rw [UInt8.toNat_ofNat']
  omega

theorem splits_nil {rest : List UInt8} (incomplete : Incomplete rest) : Splits rest [] rest :=
  ⟨rfl, by simp, incomplete⟩

theorem Splits.cons {stream rest : List UInt8} {packets : List (List UInt8)}
    (splits : Splits stream packets rest) {packet : List UInt8} (bounded : packet.length ≤ 255) :
    Splits (frame packet ++ stream) (packet :: packets) rest where
  joined := by rw [splits.joined, List.flatMap_cons, List.append_assoc]
  bounded := by
    intro other member
    rcases List.mem_cons.mp member with same | later
    · rw [same]
      exact bounded
    · exact splits.bounded other later
  incomplete := splits.incomplete

theorem splits_of_packets {packets : List (List UInt8)}
    (bounded : ∀ packet ∈ packets, packet.length ≤ 255) :
    Splits (packets.flatMap frame) packets [] :=
  ⟨(List.append_nil _).symm, bounded, trivial⟩

theorem splits_exists (stream : List UInt8) : ∃ packets rest, Splits stream packets rest := by
  induction stream using List.reverseRecOn with
  | nil => exact ⟨[], [], splits_nil trivial⟩
  | append_singleton stream byte induction =>
      obtain ⟨packets, rest, splits⟩ := induction
      have joined : stream ++ [byte] = packets.flatMap frame ++ (rest ++ [byte]) := by
        rw [splits.joined, List.append_assoc]
      -- One more byte completes the next packet, or leaves it incomplete.
      by_cases incomplete : Incomplete (rest ++ [byte])
      · exact ⟨packets, rest ++ [byte], joined, splits.bounded, incomplete⟩
      · have complete : ∃ packet, packet.length ≤ 255 ∧ rest ++ [byte] = frame packet := by
          cases rest with
          | nil =>
              have zero : byte = 0 := by
                simp only [List.nil_append, Incomplete, List.length_nil, Nat.not_lt, Nat.le_zero]
                  at incomplete
                exact UInt8.toNat_inj.mp incomplete
              exact ⟨[], by simp, by rw [zero]; rfl⟩
          | cons length body =>
              have before : body.length < length.toNat := splits.incomplete
              simp only [List.cons_append, Incomplete, List.length_append, List.length_singleton,
                Nat.not_lt] at incomplete
              have same : (body ++ [byte]).length = length.toNat := by
                rw [List.length_append, List.length_singleton]
                omega
              have limit := length.toNat_lt
              refine ⟨body ++ [byte], by omega, ?_⟩
              rw [frame, same, UInt8.ofNat_toNat, List.cons_append]
        obtain ⟨packet, bounded, framed⟩ := complete
        refine ⟨packets ++ [packet], [], ?_, ?_, trivial⟩
        · rw [joined, framed, List.flatMap_append, List.flatMap_singleton, List.append_nil]
        · intro other member
          rcases List.mem_append.mp member with earlier | last
          · exact splits.bounded other earlier
          · rw [List.mem_singleton.mp last]
            exact bounded

theorem Splits.unique {stream : List UInt8} {first second : List (List UInt8)}
    {firstRest secondRest : List UInt8} (left : Splits stream first firstRest)
    (right : Splits stream second secondRest) : first = second ∧ firstRest = secondRest := by
  have complete {packet : List UInt8} {later : List UInt8} (bounded : packet.length ≤ 255) :
      ¬ Incomplete (frame packet ++ later) := by
    simp only [frame, List.cons_append, Incomplete, length_byte bounded, List.length_append]
    omega
  induction first generalizing stream second with
  | nil =>
      cases second with
      | nil => exact ⟨rfl, left.joined.symm.trans right.joined⟩
      | cons packet packets =>
          have incomplete := left.incomplete
          have same := left.joined.symm.trans right.joined
          rw [List.flatMap_nil, List.nil_append, List.flatMap_cons, List.append_assoc] at same
          rw [same] at incomplete
          exact absurd incomplete (complete (right.bounded packet List.mem_cons_self))
  | cons packet packets induction =>
      have bounded := left.bounded packet List.mem_cons_self
      have tail : Splits (packets.flatMap frame ++ firstRest) packets firstRest :=
        ⟨rfl, fun other member => left.bounded other (List.mem_cons_of_mem _ member),
          left.incomplete⟩
      cases second with
      | nil =>
          have incomplete := right.incomplete
          have same := right.joined.symm.trans left.joined
          rw [List.flatMap_nil, List.nil_append, List.flatMap_cons, List.append_assoc] at same
          rw [same] at incomplete
          exact absurd incomplete (complete bounded)
      | cons other others =>
          have otherBounded := right.bounded other List.mem_cons_self
          have same := left.joined.symm.trans right.joined
          rw [List.flatMap_cons, List.flatMap_cons, List.append_assoc, List.append_assoc] at same
          simp only [frame, List.cons_append, List.cons.injEq] at same
          have sameLength : packet.length = other.length := by
            rw [← length_byte bounded, ← length_byte otherBounded, same.1]
          have parts := List.append_inj same.2 sameLength
          have otherTail : Splits (packets.flatMap frame ++ firstRest) others secondRest :=
            ⟨parts.2, fun packet member => right.bounded packet (List.mem_cons_of_mem _ member),
              right.incomplete⟩
          have rests := induction tail otherTail
          rw [parts.1, rests.1]
          exact ⟨rfl, rests.2⟩

/-- A stream that breaks off has the packets up to where it does. -/
theorem Splits.of_beginning {stream rest : List UInt8} {packets received : List (List UInt8)}
    (bounded : ∀ packet ∈ packets, packet.length ≤ 255)
    (early : stream <+: packets.flatMap frame) (splits : Splits stream received rest) :
    received <+: packets := by
  induction packets generalizing stream received with
  | nil =>
      have nothing : stream = [] := List.prefix_nil.mp early
      have whole : Splits ([] : List UInt8) [] [] := splits_nil trivial
      rw [nothing] at splits
      exact (splits.unique whole).1 ▸ List.nil_prefix
  | cons packet packets induction =>
      cases received with
      | nil => exact List.nil_prefix
      | cons first others =>
          have joined := splits.joined
          obtain ⟨missing, continued⟩ := early
          rw [joined, List.flatMap_cons, List.flatMap_cons, List.append_assoc, List.append_assoc]
            at continued
          simp only [frame, List.cons_append, List.cons.injEq] at continued
          have sameLength : first.length = packet.length := by
            rw [← length_byte (splits.bounded first List.mem_cons_self),
              ← length_byte (bounded packet List.mem_cons_self), continued.1]
          obtain ⟨same, later⟩ := List.append_inj continued.2 sameLength
          have tail : Splits (others.flatMap frame ++ rest) others rest :=
            ⟨rfl, fun other member => splits.bounded other (List.mem_cons_of_mem _ member),
              splits.incomplete⟩
          have shorter : others.flatMap frame ++ rest <+: packets.flatMap frame :=
            ⟨missing, by rw [List.append_assoc]; exact later⟩
          have behind := induction
            (fun other member => bounded other (List.mem_cons_of_mem _ member)) shorter tail
          rw [same]
          exact List.cons_prefix_cons.mpr ⟨rfl, behind⟩

end LengthPrefix
