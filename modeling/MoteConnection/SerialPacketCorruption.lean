import MoteConnection.SerialPackets

/-!
# Corrupted serial packets are rejected

Two statements about the parsers, for packets of any length: an odd number of
flipped bits anywhere is noticed, and so is any nonempty burst of at most
sixteen bits before the checksum. Neither is a statement about the channel: an
even number of errors that is no such burst can still pass.
-/

namespace MoteConnection.SerialPacketCorruption

open Polynomial
open CyclicRemainder
open MoteConnection.Runtime MoteConnection.SerialChecksum MoteConnection.SerialPackets
open Outcome

set_option autoImplicit false

def differingBits (sent received : Bytes) : List Nat :=
  differingPositions (messageBits sent) (messageBits received)

def OddErrors (sent received : Bytes) : Prop := (differingBits sent received).length % 2 = 1

/-- At least one bit differs, and all that differ lie within sixteen consecutive bits of the
bytes before the checksum. -/
def BurstErrors (sent received : Bytes) : Prop :=
  differingBits sent received ≠ [] ∧
    ∃ start, ∀ position ∈ differingBits sent received,
      start ≤ position ∧ position < start + 16 ∧ position < 8 * (sent.length - 2)

/-- A byte string followed by its own checksum, as every encoder lays it out. -/
def sealed (body : Bytes) : Bytes := body ++ toLeBytes (calculateCrc body)

theorem sealed_length (body : Bytes) : (sealed body).length = body.length + 2 := by
  simp [sealed]

theorem message_bits_same_length {left right : Bytes} (lengths : left.length = right.length) :
    (messageBits left).length = (messageBits right).length := by
  rw [message_bits_length, message_bits_length, lengths]

theorem register_polynomial_bytes (word : UInt16) :
    registerPolynomial word =
      X ^ 8 * wordPolynomial (UInt8.ofNat (word.toNat / 256)).toBitVec +
        wordPolynomial (UInt8.ofNat (word.toNat % 256)).toBitVec := by
  have low (index : Nat) : (UInt8.ofNat (word.toNat % 256)).toBitVec.getLsbD index =
      (decide (index < 8) && word.toBitVec.getLsbD index) := by
    rw [BitVec.getLsbD, BitVec.getLsbD, UInt8.toNat_toBitVec, UInt16.toNat_toBitVec,
      UInt8.toNat_ofNat', Nat.mod_mod, show 256 = 2 ^ 8 by rfl, Nat.testBit_mod_two_pow]
  have high (index : Nat) : (UInt8.ofNat (word.toNat / 256)).toBitVec.getLsbD index =
      (decide (index < 8) && word.toBitVec.getLsbD (index + 8)) := by
    rw [BitVec.getLsbD, BitVec.getLsbD, UInt8.toNat_toBitVec, UInt16.toNat_toBitVec,
      UInt8.toNat_ofNat', show 256 = 2 ^ 8 by rfl, Nat.testBit_mod_two_pow,
      Nat.testBit_div_two_pow, Nat.add_comm]
  ext index
  rw [coeff_add, coeff_X_pow_mul', registerPolynomial, word_polynomial_coeff,
    word_polynomial_coeff, word_polynomial_coeff, low]
  by_cases below : index < 8
  · simp [below]
  · rw [if_pos (by omega), high, show index - 8 + 8 = index by omega]
    by_cases inside : index - 8 < 8
    · simp [below, inside]
    · rw [BitVec.getLsbD_of_ge word.toBitVec index (by omega)]
      simp [below]

theorem sealed_parity (body : Bytes) : (messagePolynomial (sealed body)).eval 1 = 0 := by
  have checksumParity : (messagePolynomial (toLeBytes (calculateCrc body))).eval 1 =
      (registerPolynomial (calculateCrc body)).eval 1 := by
    rw [register_polynomial_bytes]
    simp only [toLeBytes, message_polynomial_cons, eval_add, eval_mul, eval_pow, eval_X, one_pow]
    simp only [messagePolynomial, messageBits, List.flatMap_nil, bitPolynomial, eval_zero]
    ring
  rw [sealed, message_polynomial_append, eval_add, eval_mul, eval_pow, eval_X, one_pow, mul_one,
    checksumParity, crc_parity, CharTwo.add_self_eq_zero]

theorem message_bits_injective {left right : Bytes} (lengths : left.length = right.length)
    (same : messageBits left = messageBits right) : left = right := by
  induction left generalizing right with
  | nil => exact (List.length_eq_zero_iff.mp lengths.symm).symm
  | cons byte rest induction =>
      cases right with
      | nil => simp at lengths
      | cons other others =>
          have parts : wordBits byte.toBitVec ++ messageBits rest =
              wordBits other.toBitVec ++ messageBits others := same
          have ⟨heads, tails⟩ := List.append_inj parts (by simp)
          have equalBytes : byte = other :=
            UInt8.toBitVec_inj.mp (word_polynomial_injective (congrArg bitPolynomial heads))
          rw [equalBytes, induction (by simpa using lengths) tails]

theorem sealed_odd_errors {sent received : Bytes} (lengths : sent.length = received.length) :
    ¬ OddErrors (sealed sent) (sealed received) := by
  intro odd
  have bits : (messageBits (sealed sent)).length = (messageBits (sealed received)).length := by
    apply message_bits_same_length
    rw [sealed_length, sealed_length, lengths]
  have parity := differing_positions_parity bits
  have sentParity : (bitPolynomial (messageBits (sealed sent))).eval 1 = 0 := sealed_parity sent
  have receivedParity : (bitPolynomial (messageBits (sealed received))).eval 1 = 0 :=
    sealed_parity received
  rw [eval_add, sentParity, receivedParity, add_zero, ZMod.natCast_eq_zero_iff] at parity
  have odd' : (differingPositions (messageBits (sealed sent))
      (messageBits (sealed received))).length % 2 = 1 := odd
  omega

theorem sealed_bits (body : Bytes) : messageBits (sealed body) =
    messageBits body ++ messageBits (toLeBytes (calculateCrc body)) :=
  message_bits_append body _

/-- When no error lies behind the two bodies, the two checksums agree. -/
theorem checksum_of_error_free_tail {sent received : Bytes}
    (lengths : sent.length = received.length)
    (before : ∀ position ∈ differingBits (sealed sent) (sealed received),
      position < 8 * sent.length) :
    calculateCrc sent = calculateCrc received := by
  have bodyLengths := message_bits_same_length lengths
  have checksumBits : messageBits (toLeBytes (calculateCrc sent)) =
      messageBits (toLeBytes (calculateCrc received)) := by
    apply List.ext_getElem
    · apply message_bits_same_length
      rw [to_le_length, to_le_length]
    · intro index leftBound rightBound
      by_contra different
      have position : (messageBits sent).length + index ∈
          differingBits (sealed sent) (sealed received) := by
        apply mem_differing_positions.mpr
        rw [sealed_bits, sealed_bits]
        refine ⟨by rw [List.length_append]; omega, ?_⟩
        rw [List.getD_append_right _ _ _ _ (by omega),
          List.getD_append_right _ _ _ _ (by omega), Nat.add_sub_cancel_left, bodyLengths,
          Nat.add_sub_cancel_left, List.getD_eq_getElem _ _ leftBound,
          List.getD_eq_getElem _ _ rightBound]
        exact different
      have early := before _ position
      rw [message_bits_length] at early
      omega
  have checksumLengths : (toLeBytes (calculateCrc sent)).length =
      (toLeBytes (calculateCrc received)).length := by
    rw [to_le_length, to_le_length]
  have reads := congrArg fromLeSlice (message_bits_injective checksumLengths checksumBits)
  rw [from_le_to_le, from_le_to_le] at reads
  exact returned.inj reads

theorem mem_differing_bits_sealed {sent received : Bytes}
    (lengths : sent.length = received.length)
    (checksums : calculateCrc sent = calculateCrc received) (position : Nat) :
    position ∈ differingBits (sealed sent) (sealed received) ↔
      position ∈ differingPositions (messageBits sent) (messageBits received) := by
  have bodyLengths := message_bits_same_length lengths
  rw [differingBits, mem_differing_positions, mem_differing_positions, sealed_bits, sealed_bits,
    checksums, List.length_append]
  by_cases inside : position < (messageBits sent).length
  · rw [List.getD_append _ _ _ _ inside, List.getD_append _ _ _ _ (bodyLengths ▸ inside)]
    exact ⟨fun ⟨_, different⟩ => ⟨inside, different⟩, fun ⟨_, different⟩ => ⟨by omega, different⟩⟩
  · rw [List.getD_append_right _ _ _ _ (by omega), List.getD_append_right _ _ _ _ (by omega),
      bodyLengths]
    exact ⟨fun ⟨_, different⟩ => absurd rfl different, fun ⟨bounded, _⟩ => by omega⟩

theorem sealed_burst_errors {sent received : Bytes} (lengths : sent.length = received.length) :
    ¬ BurstErrors (sealed sent) (sealed received) := by
  intro ⟨present, start, window⟩
  have checksums : calculateCrc sent = calculateCrc received := by
    apply checksum_of_error_free_tail lengths
    intro position member
    have bounds := window position member
    rw [sealed_length] at bounds
    omega
  have bodies := mem_differing_bits_sealed lengths checksums
  have bodyLengths := message_bits_same_length lengths
  have divides := (crc_eq_iff_divides sent received).mp checksums
  rw [CharTwo.sub_eq_add] at divides
  refine @burst_errors_detected generator _ _ 16 start generator_constant bodyLengths ?_ ?_ divides
  · obtain ⟨position, member⟩ := List.exists_mem_of_ne_nil _ present
    exact List.ne_nil_of_mem ((bodies position).mp member)
  · intro position member
    have bounds := window position ((bodies position).mpr member)
    rw [generator_degree]
    exact ⟨bounds.1, bounds.2.1⟩

/-- What a receiver must notice: the two kinds of corruption, in a string of the same length. -/
structure Corrupted (sent received : Bytes) : Prop where
  length : received.length = sent.length
  errors : OddErrors sent received ∨ BurstErrors sent received

theorem sealed_not_corrupted {sent received : Bytes} :
    ¬ Corrupted (sealed sent) (sealed received) := by
  intro corrupted
  have lengths : sent.length = received.length := by
    have same := corrupted.length
    rw [sealed_length, sealed_length] at same
    omega
  rcases corrupted.errors with odd | burst
  · exact sealed_odd_errors lengths odd
  · exact sealed_burst_errors lengths burst

theorem ack_packet_corruption_rejected (seqNum : UInt8) (data received : Bytes)
    (corrupted : Corrupted (AckPacket.new seqNum data).intoBytes received) :
    ∃ message, AckPacket.tryFrom received = returned (.error message) := by
  apply rejected_of_no_packet (ack_packet_try_from_returns received)
  intro packet accepted
  obtain ⟨_, _, _, encoded, _⟩ := (ack_packet_try_from_ok received packet).mp accepted
  rw [encoded] at corrupted
  exact sealed_not_corrupted corrupted

theorem ack_corruption_rejected (seqNum : UInt8) (received : Bytes)
    (corrupted : Corrupted (Ack.new seqNum).intoBytes received) :
    ∃ message, Ack.tryFrom received = returned (.error message) := by
  apply rejected_of_no_packet (ack_try_from_returns received)
  intro packet accepted
  obtain ⟨_, encoded, _⟩ := (ack_try_from_ok received packet).mp accepted
  rw [encoded] at corrupted
  exact sealed_not_corrupted corrupted

theorem no_ack_packet_corruption_rejected (data received : Bytes)
    (corrupted : Corrupted (NoAckPacket.new data).intoBytes received) :
    ∃ message, NoAckPacket.tryFrom received = returned (.error message) := by
  apply rejected_of_no_packet (no_ack_packet_try_from_returns received)
  intro packet accepted
  obtain ⟨_, _, encoded, _⟩ := (no_ack_packet_try_from_ok received packet).mp accepted
  rw [encoded] at corrupted
  exact sealed_not_corrupted corrupted

/-- Every corruption of either kind turns the encoding of a packet into one its parser rejects. -/
theorem corrupted_packets_rejected :
    (∀ seqNum data received, data ≠ [] →
      Corrupted (AckPacket.new seqNum data).intoBytes received →
        ∃ message, AckPacket.tryFrom received = returned (.error message)) ∧
    (∀ data received, data ≠ [] →
      Corrupted (NoAckPacket.new data).intoBytes received →
        ∃ message, NoAckPacket.tryFrom received = returned (.error message)) ∧
    (∀ seqNum received, Corrupted (Ack.new seqNum).intoBytes received →
      ∃ message, Ack.tryFrom received = returned (.error message)) :=
  ⟨fun seqNum data received _ => ack_packet_corruption_rejected seqNum data received,
    fun data received _ => no_ack_packet_corruption_rejected data received,
    ack_corruption_rejected⟩

theorem flipped_bits_rejected :
    (∃ message, AckPacket.tryFrom [0x44, 0x00, 0x01, 0x6d, 0xc1] = returned (.error message)) ∧
    (∃ message, NoAckPacket.tryFrom [0x45, 0xff, 0x39, 0xf2] = returned (.error message)) ∧
    (∃ message, Ack.tryFrom [0x43, 0x00, 0x9e, 0x58] = returned (.error message)) := by
  refine ⟨corrupted_packets_rejected.1 0 [0] _ (by decide) ⟨rfl, .inl ?_⟩,
    corrupted_packets_rejected.2.1 [0] _ (by decide) ⟨rfl, .inr ⟨?_, 8, ?_⟩⟩,
    corrupted_packets_rejected.2.2 0 _ ⟨rfl, .inl ?_⟩⟩
  · unfold OddErrors
    decide +kernel
  · decide +kernel
  · decide +kernel
  · unfold OddErrors
    decide +kernel

end MoteConnection.SerialPacketCorruption
