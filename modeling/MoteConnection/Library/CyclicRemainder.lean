import Mathlib.Algebra.Polynomial.FieldDivision
import Mathlib.Algebra.CharP.Two
import Mathlib.Algebra.Field.ZMod
import Mathlib.Data.List.GetD

/-!
# Bit strings as polynomials over GF(2), and what a cyclic remainder detects

A bit string is read most significant bit first: its first bit is the highest
coefficient. The detection results are about divisibility alone. They need the
generator to have a nonzero constant term (bursts) or to vanish at one (odd
errors); irreducibility and primitivity play no part.
-/

namespace CyclicRemainder

open Polynomial

set_option autoImplicit false

def bitValue (bit : Bool) : ZMod 2 := if bit then 1 else 0

@[simp] theorem bit_value_true : bitValue true = 1 := rfl
@[simp] theorem bit_value_false : bitValue false = 0 := rfl

theorem bit_value_xor (left right : Bool) :
    bitValue (left ^^ right) = bitValue left + bitValue right := by
  cases left <;> cases right <;> decide

theorem bit_value_injective : Function.Injective bitValue := by
  intro left right same
  cases left <;> cases right <;> simp_all [bitValue]

noncomputable def bitPolynomial : List Bool → (ZMod 2)[X]
  | [] => 0
  | bit :: rest => C (bitValue bit) * X ^ rest.length + bitPolynomial rest

theorem bit_polynomial_append (high low : List Bool) :
    bitPolynomial (high ++ low) = bitPolynomial high * X ^ low.length + bitPolynomial low := by
  induction high with
  | nil => simp [bitPolynomial]
  | cons bit rest induction =>
      rw [List.cons_append, bitPolynomial, bitPolynomial, induction, List.length_append, pow_add]
      ring

theorem bit_polynomial_coeff (bits : List Bool) (index : Nat) :
    (bitPolynomial bits).coeff index = bitValue (bits.reverse.getD index false) := by
  induction bits with
  | nil => simp [bitPolynomial]
  | cons bit rest induction =>
      rw [bitPolynomial, coeff_add, coeff_C_mul_X_pow, induction, List.reverse_cons]
      rcases lt_trichotomy index rest.length with below | rfl | above
      · rw [if_neg (by omega), zero_add, List.getD_append _ _ _ _ (by simpa using below)]
      · rw [if_pos rfl, List.getD_append_right _ _ _ _ (by simp)]
        simp
      · rw [if_neg (by omega), List.getD_append_right _ _ _ _ (by simpa using above.le)]
        rw [List.getD_eq_default _ _ (by simpa using above.le),
          List.getD_eq_default _ _ (by simp; omega)]
        simp

theorem bit_polynomial_degree_lt (bits : List Bool) :
    (bitPolynomial bits).degree < (bits.length : WithBot Nat) := by
  rw [degree_lt_iff_coeff_zero]
  intro index outside
  rw [bit_polynomial_coeff, List.getD_eq_default _ _ (by simpa using outside), bit_value_false]

def wordBits {width : Nat} (word : BitVec width) : List Bool :=
  List.ofFn fun index : Fin width => word.getMsbD index

@[simp] theorem word_bits_length {width : Nat} (word : BitVec width) :
    (wordBits word).length = width := by
  simp [wordBits]

noncomputable def wordPolynomial {width : Nat} (word : BitVec width) : (ZMod 2)[X] :=
  bitPolynomial (wordBits word)

theorem word_polynomial_coeff {width : Nat} (word : BitVec width) (index : Nat) :
    (wordPolynomial word).coeff index = bitValue (word.getLsbD index) := by
  rw [wordPolynomial, bit_polynomial_coeff]
  apply congrArg
  by_cases inside : index < width
  · rw [List.getD_eq_getElem _ _ (by simpa using inside), List.getElem_reverse]
    simp only [wordBits, List.getElem_ofFn, List.length_ofFn]
    rw [BitVec.getMsbD_eq_getLsbD, show width - 1 - (width - 1 - index) = index by omega]
    simp [show width - 1 - index < width by omega]
  · rw [List.getD_eq_default _ _ (by simpa using inside), BitVec.getLsbD_of_ge _ _ (by omega)]

theorem word_polynomial_injective {width : Nat} :
    Function.Injective (@wordPolynomial width) := by
  intro left right same
  apply BitVec.eq_of_getLsbD_eq
  intro index _
  have coefficients := congrArg (fun value => value.coeff index) same
  simp only [word_polynomial_coeff] at coefficients
  exact bit_value_injective coefficients

theorem word_polynomial_degree_lt {width : Nat} (word : BitVec width) :
    (wordPolynomial word).degree < (width : WithBot Nat) := by
  simpa only [wordPolynomial, word_bits_length] using bit_polynomial_degree_lt (wordBits word)

@[simp] theorem word_polynomial_zero (width : Nat) : wordPolynomial (0 : BitVec width) = 0 := by
  ext index
  simp [word_polynomial_coeff]

theorem word_polynomial_xor {width : Nat} (left right : BitVec width) :
    wordPolynomial (left ^^^ right) = wordPolynomial left + wordPolynomial right := by
  ext index
  simp only [coeff_add, word_polynomial_coeff, BitVec.getLsbD_xor, bit_value_xor]

/-- Shifting left multiplies by `X`; the bit that falls out is taken off again. -/
theorem word_polynomial_shift {width : Nat} (word : BitVec (width + 1)) :
    wordPolynomial (word <<< 1) =
      X * wordPolynomial word + C (bitValue (word.getLsbD width)) * X ^ (width + 1) := by
  ext index
  rw [coeff_add, coeff_C_mul_X_pow, word_polynomial_coeff, BitVec.getLsbD_shiftLeft]
  cases index with
  | zero => simp
  | succ index =>
      rw [coeff_X_mul, word_polynomial_coeff]
      rcases lt_trichotomy index width with below | rfl | above
      · simp [below, show index ≠ width by omega]
      · cases word.getLsbD index <;> simp [CharTwo.add_self_eq_zero]
      · simp [show ¬index < width by omega, show index ≠ width by omega,
          BitVec.getLsbD_of_ge word index (by omega)]

/-- A nonzero difference that spans at most the generator's degree is not a multiple
of the generator, wherever in the string it sits. -/
theorem burst_not_divisible {generator difference : (ZMod 2)[X]} {offset shift : Nat}
    (constant : generator.coeff 0 = 1) (nonzero : difference ≠ 0)
    (low : ∀ index < offset, difference.coeff index = 0)
    (high : difference.natDegree < offset + generator.natDegree) :
    ¬ generator ∣ X ^ shift * difference := by
  intro divides
  obtain ⟨burst, factored⟩ := X_pow_dvd_iff.mpr low
  have burstNonzero : burst ≠ 0 := by
    rintro rfl
    exact nonzero (by rw [factored, mul_zero])
  have coprime : IsCoprime generator (X ^ shift * X ^ offset) := by
    rw [← pow_add]
    apply IsCoprime.pow_right
    rw [← divX_mul_X_add generator, constant]
    exact ⟨1, -generator.divX, by simp only [C_1]; ring⟩
  have burstDivides : generator ∣ burst := by
    rw [factored, ← mul_assoc] at divides
    exact coprime.dvd_of_dvd_mul_left divides
  have burstDegree : burst.natDegree < generator.natDegree := by
    rw [factored, natDegree_X_pow_mul _ burstNonzero] at high
    omega
  exact absurd (natDegree_le_of_dvd burstDivides burstNonzero) (by omega)

/-- A generator with the factor `X + 1` divides only polynomials with an even number of terms. -/
theorem eval_one_of_divisible {generator value : (ZMod 2)[X]} (root : generator.eval 1 = 0)
    (divides : generator ∣ value) : value.eval 1 = 0 := by
  obtain ⟨quotient, rfl⟩ := divides
  rw [eval_mul, root, zero_mul]

def differingPositions (left right : List Bool) : List Nat :=
  (List.range left.length).filter fun position =>
    left.getD position false != right.getD position false

theorem mem_differing_positions {left right : List Bool} {position : Nat} :
    position ∈ differingPositions left right ↔
      position < left.length ∧ left.getD position false ≠ right.getD position false := by
  simp [differingPositions]

theorem differing_positions_cons (bit other : Bool) (rest others : List Bool) :
    differingPositions (bit :: rest) (other :: others) =
      (if bit = other then [] else [0]) ++ (differingPositions rest others).map (· + 1) := by
  rw [differingPositions, List.length_cons, List.range_succ_eq_map, List.filter_cons,
    List.filter_map]
  have tails : (fun position => (bit :: rest).getD position false !=
      (other :: others).getD position false) ∘ Nat.succ =
        fun position => rest.getD position false != others.getD position false := by
    funext position
    simp
  rw [tails]
  cases bit <;> cases other <;> rfl

theorem differing_positions_parity {left right : List Bool}
    (lengths : left.length = right.length) :
    ((differingPositions left right).length : ZMod 2) =
      (bitPolynomial left + bitPolynomial right).eval 1 := by
  induction left generalizing right with
  | nil =>
      cases right with
      | nil => simp [differingPositions, bitPolynomial]
      | cons _ _ => simp at lengths
  | cons bit rest induction =>
      cases right with
      | nil => simp at lengths
      | cons other others =>
          have tails : rest.length = others.length := by simpa using lengths
          have later := induction tails
          rw [eval_add] at later
          rw [differing_positions_cons, List.length_append, List.length_map, Nat.cast_add, later]
          simp only [bitPolynomial, eval_add, eval_mul, eval_C, eval_pow, eval_X, one_pow, mul_one]
          have heads : (((if bit = other then [] else [0]) : List Nat).length : ZMod 2) =
              bitValue bit + bitValue other := by
            cases bit <;> cases other <;> decide
          rw [heads]
          ring

theorem difference_coeff {left right : List Bool} (lengths : left.length = right.length)
    {index : Nat} (inside : index < left.length) :
    (bitPolynomial left + bitPolynomial right).coeff index =
      bitValue (left.getD (left.length - 1 - index) false ^^
        right.getD (left.length - 1 - index) false) := by
  rw [coeff_add, bit_polynomial_coeff, bit_polynomial_coeff, bit_value_xor,
    List.getD_reverse _ inside, List.getD_reverse _ (lengths ▸ inside), ← lengths]

theorem difference_coeff_zero {left right : List Bool} (lengths : left.length = right.length)
    {index : Nat} (agree : index < left.length →
      left.length - 1 - index ∉ differingPositions left right) :
    (bitPolynomial left + bitPolynomial right).coeff index = 0 := by
  by_cases inside : index < left.length
  · have same : left.getD (left.length - 1 - index) false =
        right.getD (left.length - 1 - index) false := by
      by_contra different
      exact agree inside (mem_differing_positions.mpr ⟨by omega, different⟩)
    rw [difference_coeff lengths inside, same, Bool.xor_self, bit_value_false]
  · rw [coeff_add, bit_polynomial_coeff, bit_polynomial_coeff,
      List.getD_eq_default _ _ (by simpa using Nat.le_of_not_lt inside),
      List.getD_eq_default _ _ (by simpa using lengths ▸ Nat.le_of_not_lt inside),
      bit_value_false, add_zero]

theorem burst_errors_detected {generator : (ZMod 2)[X]} {left right : List Bool}
    {shift start : Nat} (constant : generator.coeff 0 = 1)
    (lengths : left.length = right.length) (some : differingPositions left right ≠ [])
    (window : ∀ position ∈ differingPositions left right,
      start ≤ position ∧ position < start + generator.natDegree) :
    ¬ generator ∣ X ^ shift * (bitPolynomial left + bitPolynomial right) := by
  obtain ⟨position, differs⟩ := List.exists_mem_of_ne_nil _ some
  have ⟨inside, disagree⟩ := mem_differing_positions.mp differs
  have nonzero : bitPolynomial left + bitPolynomial right ≠ 0 := by
    intro zero
    have coefficient := difference_coeff lengths
      (show left.length - 1 - position < left.length by omega)
    rw [zero, coeff_zero, show left.length - 1 - (left.length - 1 - position) = position by omega,
      ← bit_value_false] at coefficient
    exact disagree (by simpa using (bit_value_injective coefficient).symm)
  refine @burst_not_divisible _ _ (left.length - start - generator.natDegree) shift
    constant nonzero ?_ ?_
  · intro index below
    apply difference_coeff_zero lengths
    intro inside member
    have bounds := window _ member
    omega
  · rw [natDegree_lt_iff_degree_lt nonzero, degree_lt_iff_coeff_zero]
    intro index above
    apply difference_coeff_zero lengths
    intro inside member
    have bounds := window _ member
    omega

end CyclicRemainder
