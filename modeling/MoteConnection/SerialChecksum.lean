import MoteConnection.Library.CyclicRemainder
import MoteConnection.Runtime

/-!
# The checksum of the serial packets

`calculateCrc` is the nested byte and bit loop of `calculate_crc` on a 16-bit
register. Its meaning is a remainder over GF(2): the register always holds the
remainder of the bytes read so far, shifted up by sixteen places. Everything
the corruption results need of the loop follows from that one equation.
-/

namespace MoteConnection.SerialChecksum

open Polynomial
open CyclicRemainder
open MoteConnection.Runtime

set_option autoImplicit false

def countOnes (word : UInt16) : Nat :=
  (List.range 16).countP fun index => word.toBitVec.getLsbD index

/-- One turn of the inner loop. -/
def crcBit (crc : UInt16) : UInt16 :=
  if countOnes (crc &&& 0x8000) > 0 then crc <<< 1 ^^^ 0x1021 else crc <<< 1

def crcBits : Nat → UInt16 → UInt16
  | 0, crc => crc
  | count + 1, crc => crcBits count (crcBit crc)

/-- One turn of the outer loop. -/
def crcByte (crc : UInt16) (byte : UInt8) : UInt16 :=
  crcBits 8 (crc ^^^ byte.toUInt16 <<< 8)

def calculateCrc (bytes : Bytes) : UInt16 := bytes.foldl crcByte 0

example : calculateCrc [0x44, 0x00, 0x00] = 0xc16d := by decide +kernel

theorem top_bit_mask (crc : UInt16) :
    countOnes (crc &&& 0x8000) > 0 ↔ crc.toBitVec.getLsbD 15 = true := by
  have mask : ∀ index < 16, (0x8000 : UInt16).toBitVec.getLsbD index = decide (index = 15) := by
    decide
  simp only [countOnes, gt_iff_lt, List.countP_pos_iff, List.mem_range, UInt16.toBitVec_and,
    BitVec.getLsbD_and, Bool.and_eq_true]
  constructor
  · intro ⟨index, inside, bit, masked⟩
    rw [mask index inside, decide_eq_true_iff] at masked
    rwa [masked] at bit
  · intro bit
    exact ⟨15, by decide, bit, by decide⟩

/-- `x^16 + x^12 + x^5 + 1` -/
noncomputable def generator : (ZMod 2)[X] := X ^ 16 + X ^ 12 + X ^ 5 + 1

theorem generator_eq : generator = X ^ 16 + wordPolynomial (0x1021 : UInt16).toBitVec := by
  have bits : wordBits (0x1021 : UInt16).toBitVec =
      [false, false, false, true, false, false, false, false,
        false, false, true, false, false, false, false, true] := by decide
  rw [wordPolynomial, bits]
  simp only [bitPolynomial, bit_value_true, bit_value_false, C_0, C_1, List.length_cons,
    List.length_nil, generator]
  ring

theorem generator_monic : generator.Monic := by
  rw [generator]
  monicity!

theorem generator_degree : generator.natDegree = 16 := by
  rw [generator]
  compute_degree!

theorem generator_constant : generator.coeff 0 = 1 := by
  simp [generator, coeff_one]

theorem generator_root : generator.eval 1 = 0 := by
  simp [generator]
  decide

noncomputable def registerPolynomial (crc : UInt16) : (ZMod 2)[X] := wordPolynomial crc.toBitVec

theorem register_polynomial_injective : Function.Injective registerPolynomial :=
  fun _ _ same => UInt16.toBitVec_inj.mp (word_polynomial_injective same)

theorem register_polynomial_xor (left right : UInt16) :
    registerPolynomial (left ^^^ right) = registerPolynomial left + registerPolynomial right := by
  rw [registerPolynomial, UInt16.toBitVec_xor, word_polynomial_xor]
  rfl

theorem register_polynomial_shift (crc : UInt16) :
    registerPolynomial (crc <<< 1) =
      X * registerPolynomial crc + C (bitValue (crc.toBitVec.getLsbD 15)) * X ^ 16 := by
  have shifted : (crc <<< 1).toBitVec = crc.toBitVec <<< 1 := by
    rw [UInt16.toBitVec_shiftLeft]
    rfl
  rw [registerPolynomial, shifted]
  exact @word_polynomial_shift 15 crc.toBitVec

theorem crc_bit_polynomial (crc : UInt16) :
    registerPolynomial (crcBit crc) =
      X * registerPolynomial crc + C (bitValue (crc.toBitVec.getLsbD 15)) * generator := by
  unfold crcBit
  by_cases top : crc.toBitVec.getLsbD 15 = true
  · rw [if_pos ((top_bit_mask crc).mpr top), register_polynomial_xor, register_polynomial_shift,
      top, generator_eq]
    simp only [bit_value_true, C_1, one_mul, registerPolynomial]
    ring
  · rw [if_neg (fun ones => top ((top_bit_mask crc).mp ones)), register_polynomial_shift]
    rw [Bool.eq_false_iff.mpr top]
    simp

theorem crc_bits_polynomial (count : Nat) (crc : UInt16) :
    ∃ quotient, registerPolynomial (crcBits count crc) =
      X ^ count * registerPolynomial crc + quotient * generator := by
  induction count generalizing crc with
  | zero => exact ⟨0, by simp [crcBits]⟩
  | succ count induction =>
      obtain ⟨quotient, later⟩ := induction (crcBit crc)
      refine ⟨X ^ count * C (bitValue (crc.toBitVec.getLsbD 15)) + quotient, ?_⟩
      rw [crcBits, later, crc_bit_polynomial]
      ring

theorem injected_byte_polynomial (byte : UInt8) :
    registerPolynomial (byte.toUInt16 <<< 8) = X ^ 8 * wordPolynomial byte.toBitVec := by
  have shifted : (byte.toUInt16 <<< 8).toBitVec = byte.toBitVec.setWidth 16 <<< 8 := by
    rw [UInt16.toBitVec_shiftLeft]
    rfl
  ext index
  rw [registerPolynomial, shifted, word_polynomial_coeff, coeff_X_pow_mul',
    BitVec.getLsbD_shiftLeft, BitVec.getLsbD_setWidth]
  by_cases low : index < 8
  · simp [low, show ¬8 ≤ index by omega]
  · rw [if_pos (by omega), word_polynomial_coeff]
    by_cases inside : index < 16
    · simp [low, inside, show index - 8 < 16 by omega]
    · rw [BitVec.getLsbD_of_ge byte.toBitVec (index - 8) (by omega)]
      simp

theorem crc_byte_polynomial (crc : UInt16) (byte : UInt8) :
    ∃ quotient, registerPolynomial (crcByte crc byte) =
      X ^ 8 * registerPolynomial crc + X ^ 16 * wordPolynomial byte.toBitVec +
        quotient * generator := by
  obtain ⟨quotient, eightBits⟩ := crc_bits_polynomial 8 (crc ^^^ byte.toUInt16 <<< 8)
  refine ⟨quotient, ?_⟩
  rw [crcByte, eightBits, register_polynomial_xor, injected_byte_polynomial]
  ring

def messageBits (bytes : Bytes) : List Bool := bytes.flatMap fun byte => wordBits byte.toBitVec

noncomputable def messagePolynomial (bytes : Bytes) : (ZMod 2)[X] :=
  bitPolynomial (messageBits bytes)

theorem message_bits_length (bytes : Bytes) : (messageBits bytes).length = 8 * bytes.length := by
  induction bytes with
  | nil => rfl
  | cons byte rest induction =>
      have split : messageBits (byte :: rest) = wordBits byte.toBitVec ++ messageBits rest := rfl
      rw [split, List.length_append, word_bits_length, induction, List.length_cons]
      omega

theorem message_bits_append (first second : Bytes) :
    messageBits (first ++ second) = messageBits first ++ messageBits second :=
  List.flatMap_append

theorem message_polynomial_append (first second : Bytes) :
    messagePolynomial (first ++ second) =
      messagePolynomial first * X ^ (8 * second.length) + messagePolynomial second := by
  rw [messagePolynomial, message_bits_append, bit_polynomial_append, message_bits_length]
  rfl

theorem message_polynomial_cons (byte : UInt8) (rest : Bytes) :
    messagePolynomial (byte :: rest) =
      wordPolynomial byte.toBitVec * X ^ (8 * rest.length) + messagePolynomial rest := by
  have split : messageBits (byte :: rest) = wordBits byte.toBitVec ++ messageBits rest := rfl
  rw [messagePolynomial, split, bit_polynomial_append, message_bits_length]
  rfl

theorem crc_fold_polynomial (crc : UInt16) (bytes : Bytes) :
    ∃ quotient, registerPolynomial (bytes.foldl crcByte crc) =
      X ^ (8 * bytes.length) * registerPolynomial crc + X ^ 16 * messagePolynomial bytes +
        quotient * generator := by
  induction bytes generalizing crc with
  | nil => exact ⟨0, by simp [messagePolynomial, messageBits, bitPolynomial]⟩
  | cons byte rest induction =>
      obtain ⟨first, head⟩ := crc_byte_polynomial crc byte
      obtain ⟨second, tail⟩ := induction (crcByte crc byte)
      refine ⟨X ^ (8 * rest.length) * first + second, ?_⟩
      rw [List.foldl_cons, tail, head, message_polynomial_cons, List.length_cons, Nat.mul_add,
        pow_add]
      ring

/-- The loop computes the message polynomial times `x^16` modulo the generator. -/
theorem crc_polynomial (bytes : Bytes) :
    registerPolynomial (calculateCrc bytes) =
      (X ^ 16 * messagePolynomial bytes) %ₘ generator := by
  obtain ⟨quotient, folded⟩ := crc_fold_polynomial 0 bytes
  have initial : registerPolynomial 0 = 0 := word_polynomial_zero 16
  rw [initial, mul_zero, zero_add] at folded
  have small : (registerPolynomial (calculateCrc bytes)).degree < generator.degree := by
    rw [degree_eq_natDegree generator_monic.ne_zero, generator_degree]
    exact word_polynomial_degree_lt _
  have division : registerPolynomial (calculateCrc bytes) + generator * -quotient =
      X ^ 16 * messagePolynomial bytes := by
    rw [calculateCrc, folded]
    ring
  exact (div_modByMonic_unique (-quotient) _ generator_monic ⟨division, small⟩).2.symm

/-- Two byte strings share their checksum exactly when the generator divides the
shifted difference of their polynomials. -/
theorem crc_eq_iff_divides (left right : Bytes) :
    calculateCrc left = calculateCrc right ↔
      generator ∣ X ^ 16 * (messagePolynomial left - messagePolynomial right) := by
  rw [← register_polynomial_injective.eq_iff, crc_polynomial, crc_polynomial, ← sub_eq_zero,
    ← sub_modByMonic, ← mul_sub, modByMonic_eq_zero_iff_dvd generator_monic]

theorem crc_parity (bytes : Bytes) :
    (registerPolynomial (calculateCrc bytes)).eval 1 = (messagePolynomial bytes).eval 1 := by
  have divides : generator ∣
      registerPolynomial (calculateCrc bytes) - X ^ 16 * messagePolynomial bytes := by
    refine ⟨-(X ^ 16 * messagePolynomial bytes /ₘ generator), ?_⟩
    rw [crc_polynomial, modByMonic_eq_sub_mul_div]
    ring
  have vanishes := eval_one_of_divisible generator_root divides
  rw [eval_sub, sub_eq_zero] at vanishes
  simpa using vanishes

theorem big_endian_polynomial (crc : UInt16) :
    messagePolynomial [(crc >>> 8).toUInt8, crc.toUInt8] = registerPolynomial crc := by
  have high : (crc >>> 8).toUInt8.toBitVec = (crc.toBitVec >>> 8).setWidth 8 := by
    rw [UInt16.toBitVec_toUInt8, UInt16.toBitVec_shiftRight]
    rfl
  have low : crc.toUInt8.toBitVec = crc.toBitVec.setWidth 8 := UInt16.toBitVec_toUInt8 crc
  have none : messagePolynomial [] = 0 := rfl
  rw [message_polynomial_cons, message_polynomial_cons, none, high, low, registerPolynomial]
  ext index
  simp only [List.length_cons, List.length_nil, zero_add, mul_one, mul_zero, pow_zero, add_zero,
    coeff_add, coeff_mul_X_pow', word_polynomial_coeff, BitVec.getLsbD_setWidth,
    BitVec.getLsbD_ushiftRight]
  by_cases small : index < 8
  · simp [small, show ¬ 8 ≤ index by omega]
  · have large : 8 ≤ index := Nat.not_lt.mp small
    have same : 8 + (index - 8) = index := by omega
    by_cases inside : index < 16
    · simp [small, large, same, show index - 8 < 8 by omega]
    · rw [BitVec.getLsbD_of_ge crc.toBitVec index (by omega)]
      simp [small, large, show ¬ index - 8 < 8 by omega]

theorem message_polynomial_xor {first second : Bytes} (sameLength : first.length = second.length) :
    messagePolynomial (List.zipWith (· ^^^ ·) first second) =
      messagePolynomial first + messagePolynomial second := by
  induction first generalizing second with
  | nil =>
      rw [List.length_nil, eq_comm, List.length_eq_zero_iff] at sameLength
      rw [sameLength]
      simp [messagePolynomial, messageBits, bitPolynomial]
  | cons byte rest induction =>
      obtain ⟨other, others, rfl⟩ := List.exists_cons_of_length_eq_add_one sameLength.symm
      have restLength : rest.length = others.length := Nat.succ.inj sameLength
      rw [List.zipWith_cons_cons, message_polynomial_cons, message_polynomial_cons,
        message_polynomial_cons, induction restLength, UInt8.toBitVec_xor, word_polynomial_xor,
        List.length_zipWith, restLength, Nat.min_self]
      ring

theorem crc_zero_iff_divides (bytes : Bytes) :
    calculateCrc bytes = 0 ↔ generator ∣ X ^ 16 * messagePolynomial bytes := by
  have registers : calculateCrc bytes = 0 ↔ registerPolynomial (calculateCrc bytes) = 0 := by
    rw [← register_polynomial_injective.eq_iff]
    exact Eq.congr_right (word_polynomial_zero 16)
  rw [registers, crc_polynomial, modByMonic_eq_zero_iff_dvd generator_monic]

/-- The checksum is the remainder of the message, sixteen places up, by the generator. So a message
with its checksum behind it has the checksum zero, and the checksum is linear. -/
theorem checksum_is_remainder :
    (∀ message, registerPolynomial (calculateCrc message) =
      (messagePolynomial message * X ^ 16) %ₘ (X ^ 16 + X ^ 12 + X ^ 5 + 1)) ∧
    (∀ message, calculateCrc (message ++
      [(calculateCrc message >>> 8).toUInt8, (calculateCrc message).toUInt8]) = 0) ∧
    ∀ first second : Bytes, first.length = second.length →
      calculateCrc (List.zipWith (· ^^^ ·) first second) =
        calculateCrc first ^^^ calculateCrc second := by
  refine ⟨?_, ?_, ?_⟩
  · intro message
    rw [crc_polynomial, mul_comm]
    rfl
  · intro message
    let shifted := X ^ 16 * messagePolynomial message
    have division : shifted %ₘ generator + generator * (shifted /ₘ generator) = shifted :=
      modByMonic_add_div shifted generator
    have doubled : shifted %ₘ generator + shifted %ₘ generator = 0 := CharTwo.add_self_eq_zero _
    have own : messagePolynomial message * X ^ 16 + shifted %ₘ generator =
        generator * (shifted /ₘ generator) :=
      calc messagePolynomial message * X ^ 16 + shifted %ₘ generator
          = shifted + shifted %ₘ generator := by rw [mul_comm]
        _ = shifted %ₘ generator + shifted %ₘ generator +
            generator * (shifted /ₘ generator) := by
          nth_rewrite 1 [← division]
          ring
        _ = generator * (shifted /ₘ generator) := by rw [doubled, zero_add]
    rw [crc_zero_iff_divides, message_polynomial_append, big_endian_polynomial, crc_polynomial]
    exact dvd_mul_of_dvd_right ⟨_, own⟩ _
  · intro first second sameLength
    apply register_polynomial_injective
    rw [register_polynomial_xor, crc_polynomial, crc_polynomial, crc_polynomial,
      message_polynomial_xor sameLength, mul_add, add_modByMonic]

-- From here on the loop is read through `crc_polynomial` only.
attribute [irreducible] calculateCrc

end MoteConnection.SerialChecksum
