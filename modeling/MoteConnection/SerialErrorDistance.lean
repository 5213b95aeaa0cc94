import MoteConnection.Library.CyclicOrder
import MoteConnection.SerialPacketCorruption
import Mathlib.Tactic.NormNum.Prime

/-!
# How many flipped bits the checksum notices

The shift register has order 32767: it takes that many turns to come back to
where it started. So one, two or three flipped bits, wherever they are in a
packet and its checksum, are noticed in every packet of at most 4096 bytes.
Both limits are sharp. One byte more and every packet has a partner at distance
two, and at any length some packets differ in four bits only.
-/

namespace MoteConnection.SerialErrorDistance

open Polynomial
open CyclicRemainder
open MoteConnection.Runtime MoteConnection.SerialChecksum MoteConnection.SerialPackets
open MoteConnection.SerialPacketCorruption
open Outcome

set_option autoImplicit false

noncomputable def residue (word : UInt16) : AdjoinRoot generator :=
  AdjoinRoot.mk generator (registerPolynomial word)

theorem residue_xor (left right : UInt16) :
    residue (left ^^^ right) = residue left + residue right := by
  rw [residue, register_polynomial_xor, map_add]
  rfl

theorem residue_zero : residue 0 = 0 := by
  have none : registerPolynomial 0 = 0 := word_polynomial_zero 16
  rw [residue, none, map_zero]

theorem residue_crc_bit (word : UInt16) :
    residue (crcBit word) = AdjoinRoot.root generator * residue word := by
  rw [residue, crc_bit_polynomial, map_add, map_mul, map_mul, AdjoinRoot.mk_X,
    AdjoinRoot.mk_self, mul_zero, add_zero]
  rfl

theorem residue_injective : Function.Injective residue := by
  intro left right same
  have divides : generator ∣ registerPolynomial left - registerPolynomial right :=
    AdjoinRoot.mk_eq_mk.mp same
  have small : (registerPolynomial left - registerPolynomial right).degree < generator.degree := by
    rw [CharTwo.sub_eq_add, ← register_polynomial_xor,
      degree_eq_natDegree generator_monic.ne_zero, generator_degree]
    exact word_polynomial_degree_lt _
  have equal := eq_zero_of_dvd_of_degree_lt divides small
  exact register_polynomial_injective (sub_eq_zero.mp equal)

def times (bits : List Bool) (factor : UInt16) : UInt16 :=
  bits.foldl (fun product bit => crcBit product ^^^ if bit then factor else 0) 0

theorem residue_times_from (bits : List Bool) (factor start : UInt16) :
    residue (bits.foldl (fun product bit => crcBit product ^^^ if bit then factor else 0) start) =
      AdjoinRoot.root generator ^ bits.length * residue start +
        AdjoinRoot.mk generator (bitPolynomial bits) * residue factor := by
  induction bits generalizing start with
  | nil => simp [bitPolynomial]
  | cons bit rest induction =>
      have added : residue (if bit then factor else 0) =
          AdjoinRoot.mk generator (C (bitValue bit)) * residue factor := by
        cases bit
        · simp [residue_zero]
        · simp
      rw [List.foldl_cons, induction, residue_xor, residue_crc_bit, added, bitPolynomial, map_add,
        map_mul, map_pow, AdjoinRoot.mk_X, List.length_cons]
      ring

theorem residue_times (left right : UInt16) :
    residue (times (wordBits left.toBitVec) right) = residue left * residue right := by
  rw [times, residue_times_from, residue_zero, mul_zero, zero_add]
  rfl

/-- The number whose binary digits are given, least significant first. -/
def exponent : List Bool → Nat
  | [] => 0
  | digit :: rest => digit.toNat + 2 * exponent rest

/-- The register after `exponent digits` turns from one, by repeated squaring. -/
def power : List Bool → UInt16
  | [] => 1
  | digit :: rest =>
      let square := times (wordBits (power rest).toBitVec) (power rest)
      if digit then crcBit square else square

theorem register_one : registerPolynomial 1 = 1 := by
  ext index
  have bit : (1 : UInt16).toBitVec.getLsbD index = decide (index = 0) := by
    have word : (1 : UInt16).toBitVec = 1#16 := rfl
    rw [word, BitVec.getLsbD_one]
    cases index <;> simp
  rw [registerPolynomial, word_polynomial_coeff, bit, coeff_one]
  by_cases first : index = 0
  · simp [first]
  · simp [first]

theorem residue_one : residue 1 = 1 := by
  rw [residue, register_one, map_one]

theorem residue_power (digits : List Bool) :
    residue (power digits) = AdjoinRoot.root generator ^ exponent digits := by
  induction digits with
  | nil => exact residue_one
  | cons digit rest induction =>
      have square : residue (times (wordBits (power rest).toBitVec) (power rest)) =
          AdjoinRoot.root generator ^ (2 * exponent rest) := by
        rw [residue_times, induction, ← pow_add, Nat.two_mul]
      cases digit
      · rw [power, if_neg Bool.false_ne_true, square, exponent, Bool.toNat_false, Nat.zero_add]
      · rw [power, if_pos rfl, residue_crc_bit, square, exponent, Bool.toNat_true, pow_add,
          pow_one]

theorem root_pow_eq_one_iff (digits : List Bool) :
    AdjoinRoot.root generator ^ exponent digits = 1 ↔ power digits = 1 := by
  rw [← residue_power, ← residue_one, residue_injective.eq_iff]

theorem prime_factors_of_order {factor : Nat} (prime : factor.Prime) (divides : factor ∣ 32767) :
    factor = 7 ∨ factor = 31 ∨ factor = 151 := by
  rw [show 32767 = 7 * (31 * 151) by rfl, prime.dvd_mul, prime.dvd_mul] at divides
  rw [Nat.prime_dvd_prime_iff_eq prime (by norm_num),
    Nat.prime_dvd_prime_iff_eq prime (by norm_num),
    Nat.prime_dvd_prime_iff_eq prime (by norm_num)] at divides
  exact divides

/-- The register comes back after 32767 turns and not before. -/
theorem shift_order : shiftOrder generator = 32767 := by
  have full : power (List.replicate 15 true) = 1 := by decide +kernel
  have sevenths : power (Nat.bits 4681) ≠ 1 := by decide +kernel
  have thirtyFirsts : power (Nat.bits 1057) ≠ 1 := by decide +kernel
  have remaining : power (Nat.bits 217) ≠ 1 := by decide +kernel
  apply orderOf_eq_of_pow_and_pow_div_prime (by decide)
  · exact (root_pow_eq_one_iff (List.replicate 15 true)).mpr full
  · intro factor prime divides
    rcases prime_factors_of_order prime divides with rfl | rfl | rfl
    · exact fun one => sevenths ((root_pow_eq_one_iff (Nat.bits 4681)).mp one)
    · exact fun one => thirtyFirsts ((root_pow_eq_one_iff (Nat.bits 1057)).mp one)
    · exact fun one => remaining ((root_pow_eq_one_iff (Nat.bits 217)).mp one)

/-- The exponent at which a bit of a sealed string of `size` bytes and its checksum counts. The
checksum's low byte goes first. -/
def place (size position : Nat) : Nat :=
  if position < 8 * size then 8 * size + 15 - position
  else if position < 8 * size + 8 then 8 * size + 7 - position
  else 8 * size + 23 - position

theorem place_injective {size first second : Nat} (firstInside : first < 8 * size + 16)
    (secondInside : second < 8 * size + 16) (same : place size first = place size second) :
    first = second := by
  unfold place at same
  grind

theorem place_lt {size skipped position : Nat} (late : skipped ≤ position)
    (inside : position < 8 * size + 16) (body : skipped ≤ 8 * size) :
    place size position < 8 * size + 16 - skipped := by
  unfold place
  grind

theorem codeword_divisible (body : Bytes) :
    generator ∣ X ^ 16 * messagePolynomial body + registerPolynomial (calculateCrc body) := by
  refine ⟨X ^ 16 * messagePolynomial body /ₘ generator, ?_⟩
  rw [crc_polynomial, modByMonic_eq_sub_mul_div, CharTwo.sub_eq_add, ← add_assoc,
    CharTwo.add_self_eq_zero, zero_add]

theorem byte_difference (left right : UInt8) :
    ((differingPositions (wordBits left.toBitVec) (wordBits right.toBitVec)).map fun position =>
      (X : (ZMod 2)[X]) ^ (7 - position)).sum =
        wordPolynomial left.toBitVec + wordPolynomial right.toBitVec := by
  have terms := difference_terms
    (show (wordBits left.toBitVec).length = (wordBits right.toBitVec).length by simp)
  rw [word_bits_length] at terms
  exact terms.symm

theorem sealed_differing_bits {sent received : Bytes} (lengths : sent.length = received.length)
    {low high otherLow otherHigh : UInt8} (left : toLeBytes (calculateCrc sent) = [low, high])
    (right : toLeBytes (calculateCrc received) = [otherLow, otherHigh]) :
    differingBits (sealed sent) (sealed received) =
      differingPositions (messageBits sent) (messageBits received) ++
        ((differingPositions (wordBits low.toBitVec) (wordBits otherLow.toBitVec)).map
            (· + 8 * sent.length) ++
          (differingPositions (wordBits high.toBitVec) (wordBits otherHigh.toBitVec)).map
            (· + (8 + 8 * sent.length))) := by
  have pair (first second : UInt8) : messageBits [first, second] =
      wordBits first.toBitVec ++ wordBits second.toBitVec := by
    simp [messageBits]
  rw [differingBits, sealed_bits, sealed_bits,
    differing_positions_append (message_bits_same_length lengths), left, right, pair, pair,
    differing_positions_append (by simp), List.map_append, List.map_map, message_bits_length,
    word_bits_length]
  congr 3
  funext position
  simp only [Function.comp_apply]
  omega

/-- The errors that turn one sealed string into another cancel modulo the generator. -/
theorem error_places_divisible {sent received : Bytes} (lengths : sent.length = received.length) :
    generator ∣ ((differingBits (sealed sent) (sealed received)).map fun position =>
      (X : (ZMod 2)[X]) ^ place sent.length position).sum := by
  have bodies : ((differingPositions (messageBits sent) (messageBits received)).map fun position =>
      (X : (ZMod 2)[X]) ^ place sent.length position).sum =
        X ^ 16 * (messagePolynomial sent + messagePolynomial received) := by
    have bits := message_bits_same_length lengths
    rw [messagePolynomial, messagePolynomial, difference_terms bits, ← List.sum_map_mul_left]
    apply congrArg
    apply List.map_congr_left
    intro position member
    have inside := (mem_differing_positions.mp member).1
    rw [message_bits_length] at inside
    rw [place, if_pos inside, ← pow_add, message_bits_length]
    congr 1
    omega
  have byteBounds {left right : UInt8} {position : Nat}
      (member : position ∈ differingPositions (wordBits left.toBitVec)
        (wordBits right.toBitVec)) : position < 8 := by
    have inside := (mem_differing_positions.mp member).1
    rwa [word_bits_length] at inside
  have lows (left right : UInt8) :
      (((differingPositions (wordBits left.toBitVec) (wordBits right.toBitVec)).map
        (· + 8 * sent.length)).map fun position =>
          (X : (ZMod 2)[X]) ^ place sent.length position).sum =
        wordPolynomial left.toBitVec + wordPolynomial right.toBitVec := by
    rw [← byte_difference, List.map_map]
    apply congrArg
    apply List.map_congr_left
    intro position member
    have inside := byteBounds member
    rw [Function.comp_apply, place, if_neg (by omega), if_pos (by omega)]
    congr 1
    omega
  have highs (left right : UInt8) :
      (((differingPositions (wordBits left.toBitVec) (wordBits right.toBitVec)).map
        (· + (8 + 8 * sent.length))).map fun position =>
          (X : (ZMod 2)[X]) ^ place sent.length position).sum =
        X ^ 8 * (wordPolynomial left.toBitVec + wordPolynomial right.toBitVec) := by
    rw [← byte_difference, List.map_map, ← List.sum_map_mul_left]
    apply congrArg
    apply List.map_congr_left
    intro position member
    have inside := byteBounds member
    rw [Function.comp_apply, place, if_neg (by omega), if_neg (by omega), ← pow_add]
    congr 1
    omega
  have total := dvd_add (codeword_divisible sent) (codeword_divisible received)
  rw [register_polynomial_bytes (calculateCrc sent),
    register_polynomial_bytes (calculateCrc received)] at total
  rw [sealed_differing_bits lengths rfl rfl, List.map_append, List.map_append, List.sum_append,
    List.sum_append, bodies, lows, highs]
  convert total using 1
  ring

theorem two_errors_noticed (kind : UInt8) {sent received : Bytes}
    (lengths : sent.length = received.length) (short : sent.length ≤ 4093) :
    (differingBits (sealed (kind :: sent)) (sealed (kind :: received))).length ≠ 2 := by
  intro two
  have bodies : (kind :: sent).length = (kind :: received).length := congrArg (· + 1) lengths
  obtain ⟨first, second, pair, apart⟩ := pair_of_length (differing_positions_nodup _ _) two
  have bounds {position : Nat} (member : position ∈ [first, second]) :
      8 ≤ position ∧ position < 8 * (kind :: sent).length + 16 := by
    rw [← pair, mem_differing_positions, message_bits_length, sealed_length] at member
    refine ⟨?_, by omega⟩
    by_contra early
    have same (rest : Bytes) : (messageBits (sealed (kind :: rest))).getD position false =
        (wordBits kind.toBitVec).getD position false := by
      have split : messageBits (sealed (kind :: rest)) =
          wordBits kind.toBitVec ++ messageBits (rest ++ toLeBytes (calculateCrc (kind :: rest))) :=
        rfl
      rw [split, List.getD_append _ _ _ _ (by rw [word_bits_length]; omega)]
    exact member.2 ((same sent).trans (same received).symm)
  have firstBounds := bounds (List.mem_cons_self)
  have secondBounds := bounds (List.mem_cons_of_mem first List.mem_cons_self)
  have header : 8 ≤ 8 * (kind :: sent).length := by
    rw [List.length_cons]
    omega
  have firstPlace := place_lt firstBounds.1 firstBounds.2 header
  have secondPlace := place_lt secondBounds.1 secondBounds.2 header
  have size : (kind :: sent).length = sent.length + 1 := rfl
  have divides := error_places_divisible bodies
  rw [show differingBits _ _ = [first, second] from pair] at divides
  simp only [List.map_cons, List.map_nil, List.sum_cons, List.sum_nil, add_zero] at divides
  have distinct : place (kind :: sent).length first ≠ place (kind :: sent).length second :=
    fun same => apart (place_injective firstBounds.2 secondBounds.2 same)
  refine pair_not_divisible generator_constant distinct ?_ divides
  rw [shift_order]
  constructor
  · omega
  · omega

/-- A string of the same length in which one, two or three bits differ. -/
structure FewErrors (sent received : Bytes) : Prop where
  length : received.length = sent.length
  some : differingBits sent received ≠ []
  few : (differingBits sent received).length ≤ 3

theorem sealed_few_errors (kind : UInt8) {sent received : Bytes} (short : sent.length ≤ 4093) :
    ¬ FewErrors (sealed (kind :: sent)) (sealed (kind :: received)) := by
  intro errors
  have lengths : sent.length = received.length := by
    have same := errors.length
    rw [sealed_length, sealed_length, List.length_cons, List.length_cons] at same
    omega
  have bodies : (kind :: sent).length = (kind :: received).length := congrArg (· + 1) lengths
  have notTwo := two_errors_noticed kind lengths short
  have notOdd := sealed_odd_errors bodies
  have present := List.length_pos_iff.mpr errors.some
  have few := errors.few
  unfold OddErrors at notOdd
  omega

theorem ack_packet_few_errors {seqNum : UInt8} {data received : Bytes}
    (short : data.length ≤ 4092)
    (errors : FewErrors (AckPacket.new seqNum data).intoBytes received) :
    ∃ message, AckPacket.tryFrom received = returned (.error message) := by
  apply rejected_of_no_packet (ack_packet_try_from_returns received)
  intro packet accepted
  obtain ⟨other, content, _, encoded, _⟩ := (ack_packet_try_from_ok received packet).mp accepted
  rw [encoded] at errors
  have bound : (seqNum :: data).length ≤ 4093 := Nat.succ_le_succ short
  exact @sealed_few_errors ackpacketByte (seqNum :: data) (other :: content) bound errors

theorem no_ack_packet_few_errors {data received : Bytes} (short : data.length ≤ 4093)
    (errors : FewErrors (NoAckPacket.new data).intoBytes received) :
    ∃ message, NoAckPacket.tryFrom received = returned (.error message) := by
  apply rejected_of_no_packet (no_ack_packet_try_from_returns received)
  intro packet accepted
  obtain ⟨content, _, encoded, _⟩ := (no_ack_packet_try_from_ok received packet).mp accepted
  rw [encoded] at errors
  exact @sealed_few_errors noackpacketByte data content short errors

theorem ack_few_errors {seqNum : UInt8} {received : Bytes}
    (errors : FewErrors (Ack.new seqNum).intoBytes received) :
    ∃ message, Ack.tryFrom received = returned (.error message) := by
  apply rejected_of_no_packet (ack_try_from_returns received)
  intro packet accepted
  obtain ⟨other, encoded, _⟩ := (ack_try_from_ok received packet).mp accepted
  rw [encoded] at errors
  exact @sealed_few_errors ackByte [seqNum] [other] (by simp) errors

/-- In packets of at most 4096 bytes no corruption of one, two or three bits gets through. -/
theorem few_errors_rejected :
    (∀ seqNum data received, data.length ≤ 4092 →
      FewErrors (AckPacket.new seqNum data).intoBytes received →
        ∃ message, AckPacket.tryFrom received = returned (.error message)) ∧
    (∀ data received, data.length ≤ 4093 →
      FewErrors (NoAckPacket.new data).intoBytes received →
        ∃ message, NoAckPacket.tryFrom received = returned (.error message)) ∧
    (∀ seqNum received, FewErrors (Ack.new seqNum).intoBytes received →
      ∃ message, Ack.tryFrom received = returned (.error message)) :=
  ⟨fun _ _ _ short errors => ack_packet_few_errors short errors,
    fun _ _ short errors => no_ack_packet_few_errors short errors,
    fun _ _ errors => ack_few_errors errors⟩

theorem few_flipped_bits_rejected :
    (∃ message, AckPacket.tryFrom [0x44, 0x80, 0x00, 0x6d, 0xc0] = returned (.error message)) ∧
    (∃ message, NoAckPacket.tryFrom [0x45, 0x81, 0x39, 0xf2] = returned (.error message)) ∧
    (∃ message, Ack.tryFrom [0x43, 0x03, 0x9f, 0x59] = returned (.error message)) := by
  refine ⟨few_errors_rejected.1 0 [0] _ (by decide) ⟨rfl, ?_, ?_⟩,
    few_errors_rejected.2.1 [0] _ (by decide) ⟨rfl, ?_, ?_⟩,
    few_errors_rejected.2.2 0 _ ⟨rfl, ?_, ?_⟩⟩ <;> decide +kernel

def flips (mask : UInt8) : List Nat :=
  (List.range 8).filter fun position => mask.toBitVec.getMsbD position

theorem flipped_byte_differing_positions (byte mask : UInt8) :
    differingPositions (wordBits byte.toBitVec) (wordBits (byte ^^^ mask).toBitVec) =
      flips mask := by
  rw [differingPositions, word_bits_length, flips]
  apply List.filter_congr
  intro position member
  have inside := List.mem_range.mp member
  rw [word_bits_getD _ inside, word_bits_getD _ inside, UInt8.toBitVec_xor, BitVec.getMsbD_xor]
  cases byte.toBitVec.getMsbD position <;> cases mask.toBitVec.getMsbD position <;> rfl

theorem one_byte_differing_positions (before rest : Bytes) (byte mask : UInt8) :
    differingPositions (messageBits (before ++ byte :: rest))
        (messageBits (before ++ (byte ^^^ mask) :: rest)) =
      (flips mask).map (· + 8 * before.length) := by
  have split (value : UInt8) : messageBits (value :: rest) =
      wordBits value.toBitVec ++ messageBits rest := rfl
  rw [message_bits_append, message_bits_append, differing_positions_append rfl,
    differing_positions_self, List.nil_append, message_bits_length, split, split,
    differing_positions_append (by simp), differing_positions_self, List.map_nil,
    List.append_nil, flipped_byte_differing_positions]

theorem one_byte_difference (before rest : Bytes) (byte mask : UInt8) :
    messagePolynomial (before ++ byte :: rest) +
        messagePolynomial (before ++ (byte ^^^ mask) :: rest) =
      wordPolynomial mask.toBitVec * X ^ (8 * rest.length) := by
  rw [SerialChecksum.message_polynomial_append, SerialChecksum.message_polynomial_append,
    message_polynomial_cons, message_polynomial_cons, UInt8.toBitVec_xor, word_polynomial_xor]
  have cancelled (value : (ZMod 2)[X]) : value + value = 0 := CharTwo.add_self_eq_zero value
  linear_combination cancelled (messagePolynomial before * X ^ (8 * (byte :: rest).length)) +
    cancelled (wordPolynomial byte.toBitVec * X ^ (8 * rest.length)) +
      cancelled (messagePolynomial rest)

theorem residue_crc (bytes : Bytes) :
    residue (calculateCrc bytes) = AdjoinRoot.mk generator (X ^ 16 * messagePolynomial bytes) := by
  apply AdjoinRoot.mk_eq_mk.mpr
  rw [CharTwo.sub_eq_add, add_comm]
  exact codeword_divisible bytes

theorem crc_of_flipped_byte (before rest : Bytes) (byte mask : UInt8) {change : UInt16}
    (remainder : residue change = AdjoinRoot.mk generator (wordPolynomial mask.toBitVec) *
      AdjoinRoot.root generator ^ (8 * rest.length + 16)) :
    calculateCrc (before ++ (byte ^^^ mask) :: rest) =
      calculateCrc (before ++ byte :: rest) ^^^ change := by
  apply residue_injective
  rw [residue_xor, residue_crc, residue_crc, remainder, ← sub_eq_iff_eq_add', ← map_sub, ← mul_sub,
    CharTwo.sub_eq_add, add_comm (messagePolynomial _), one_byte_difference, map_mul, map_mul,
    map_pow, map_pow, AdjoinRoot.mk_X]
  ring

theorem to_le_bytes_xor (word change : UInt16) :
    toLeBytes (word ^^^ change) =
      [UInt8.ofNat (word.toNat % 256) ^^^ UInt8.ofNat (change.toNat % 256),
        UInt8.ofNat (word.toNat / 256) ^^^ UInt8.ofNat (change.toNat / 256)] := by
  rw [toLeBytes, UInt16.toNat_xor, ← UInt8.ofNat_xor, ← UInt8.ofNat_xor,
    show 256 = 2 ^ 8 by rfl, Nat.xor_mod_two_pow, Nat.xor_div_two_pow]

theorem flipped_packet_differing_bits {before rest : Bytes} {byte mask low high : UInt8}
    {change : UInt16} (checksums : calculateCrc (before ++ (byte ^^^ mask) :: rest) =
      calculateCrc (before ++ byte :: rest) ^^^ change) (bytes : toLeBytes change = [low, high]) :
    (differingBits (sealed (before ++ byte :: rest))
        (sealed (before ++ (byte ^^^ mask) :: rest))).length =
      (flips mask).length + ((flips low).length + (flips high).length) := by
  have ⟨lowByte, highByte⟩ := List.cons.inj bytes
  have changed := to_le_bytes_xor (calculateCrc (before ++ byte :: rest)) change
  rw [← checksums, lowByte, (List.cons.inj highByte).1] at changed
  have lengths : (before ++ byte :: rest).length =
      (before ++ (byte ^^^ mask) :: rest).length := by
    simp
  rw [sealed_differing_bits lengths rfl changed, flipped_byte_differing_positions,
    flipped_byte_differing_positions, one_byte_differing_positions, List.length_append,
    List.length_append, List.length_map, List.length_map, List.length_map]

theorem residue_of_power (digits : List Bool) {change : UInt16} (value : power digits = change) :
    residue change = AdjoinRoot.root generator ^ exponent digits := by
  rw [← value, residue_power]

/-- With 4093 bytes of data the top bit of the sequence number is 32767 places away from the
lowest bit of the checksum: a packet and its partner half the sequence space away are at distance
two. -/
theorem two_errors_unnoticed {data : Bytes} (long : data.length = 4093) (seqNum : UInt8) :
    (differingBits (AckPacket.new seqNum data).intoBytes
      (AckPacket.new (seqNum ^^^ 0x80) data).intoBytes).length = 2 := by
  have topBit : AdjoinRoot.mk generator (wordPolynomial (0x80 : UInt8).toBitVec) =
      AdjoinRoot.root generator ^ 7 := by
    have bits : wordBits (0x80 : UInt8).toBitVec =
        [true, false, false, false, false, false, false, false] := by decide
    rw [wordPolynomial, bits]
    simp [bitPolynomial]
  have remainder : residue 1 = AdjoinRoot.mk generator (wordPolynomial (0x80 : UInt8).toBitVec) *
      AdjoinRoot.root generator ^ (8 * data.length + 16) := by
    have around := pow_orderOf_eq_one (AdjoinRoot.root generator)
    rw [show orderOf (AdjoinRoot.root generator) = 32767 from shift_order] at around
    rw [topBit, ← pow_add, long, residue_one]
    exact around.symm
  have checksums := crc_of_flipped_byte [ackpacketByte] data seqNum 0x80 remainder
  have differing := flipped_packet_differing_bits checksums
    (show toLeBytes 1 = [1, 0] by decide)
  exact differing.trans (by decide +kernel)

/-- Flipping the last bit of the data changes the checksum by the generator's other three terms. -/
theorem four_errors_unnoticed (seqNum last : UInt8) (data : Bytes) :
    (differingBits (AckPacket.new seqNum (data ++ [last])).intoBytes
      (AckPacket.new seqNum (data ++ [last ^^^ 1])).intoBytes).length = 4 := by
  have lastBit : AdjoinRoot.mk generator (wordPolynomial (1 : UInt8).toBitVec) = 1 := by
    have bits : wordBits (1 : UInt8).toBitVec =
        [false, false, false, false, false, false, false, true] := by decide
    rw [wordPolynomial, bits]
    simp [bitPolynomial]
  have remainder : residue 0x1021 =
      AdjoinRoot.mk generator (wordPolynomial (1 : UInt8).toBitVec) *
        AdjoinRoot.root generator ^ (8 * ([] : Bytes).length + 16) := by
    rw [lastBit, one_mul]
    exact residue_of_power [false, false, false, false, true] (by decide +kernel)
  have checksums :=
    crc_of_flipped_byte (ackpacketByte :: seqNum :: data) [] last 1 remainder
  have differing := flipped_packet_differing_bits checksums
    (show toLeBytes 0x1021 = [0x21, 0x10] by decide)
  exact differing.trans (by decide +kernel)

/-- One byte of data more, and every packet has a corruption in two bits that the parser takes for
another packet. At any length there is one in four bits. -/
theorem few_errors_limits_sharp :
    (∀ seqNum data, data.length = 4093 → ∃ received,
      received.length = (AckPacket.new seqNum data).intoBytes.length ∧
      (differingBits (AckPacket.new seqNum data).intoBytes received).length = 2 ∧
      AckPacket.tryFrom received = returned (.ok (AckPacket.new (seqNum ^^^ 0x80) data))) ∧
    (∀ seqNum data, data ≠ [] → ∃ received other,
      received.length = (AckPacket.new seqNum data).intoBytes.length ∧
      (differingBits (AckPacket.new seqNum data).intoBytes received).length = 4 ∧
      other ≠ data ∧ AckPacket.tryFrom received = returned (.ok (AckPacket.new seqNum other))) := by
  constructor
  · intro seqNum data long
    have nonempty : data ≠ [] := List.ne_nil_of_length_pos (by omega)
    have accepted := (ack_packet_try_from_ok (AckPacket.new (seqNum ^^^ 0x80) data).intoBytes
      _).mpr ⟨seqNum ^^^ 0x80, data, nonempty, rfl, rfl⟩
    refine ⟨(AckPacket.new (seqNum ^^^ 0x80) data).intoBytes, ?_,
      two_errors_unnoticed long seqNum, accepted⟩
    simp [AckPacket.intoBytes, AckPacket.new]
  · intro seqNum data nonempty
    rw [← List.dropLast_append_getLast nonempty]
    generalize data.dropLast = init
    generalize data.getLast nonempty = last
    have accepted := (ack_packet_try_from_ok
      (AckPacket.new seqNum (init ++ [last ^^^ 1])).intoBytes _).mpr
      ⟨seqNum, init ++ [last ^^^ 1], by simp, rfl, rfl⟩
    refine ⟨_, init ++ [last ^^^ 1], ?_, four_errors_unnoticed seqNum last init, ?_, accepted⟩
    · simp [AckPacket.intoBytes, AckPacket.new]
    · intro same
      have bytes := List.cons.inj (List.append_cancel_left same)
      have flipped : last ^^^ 1 = last ^^^ 0 := by rw [bytes.1, UInt8.xor_zero]
      exact absurd ((UInt8.xor_right_inj last).mp flipped) (by decide)

theorem sharp_limits_reached :
    (∃ received, received.length =
        (AckPacket.new 0 (List.replicate 4093 0)).intoBytes.length ∧
      (differingBits (AckPacket.new 0 (List.replicate 4093 0)).intoBytes received).length = 2 ∧
      AckPacket.tryFrom received =
        returned (.ok (AckPacket.new 0x80 (List.replicate 4093 0)))) ∧
    ∃ received other, received.length = (AckPacket.new 0 [0]).intoBytes.length ∧
      (differingBits (AckPacket.new 0 [0]).intoBytes received).length = 4 ∧
      other ≠ [0] ∧ AckPacket.tryFrom received = returned (.ok (AckPacket.new 0 other)) :=
  ⟨few_errors_limits_sharp.1 0 _ List.length_replicate, few_errors_limits_sharp.2 0 [0] (by decide)⟩

end MoteConnection.SerialErrorDistance
