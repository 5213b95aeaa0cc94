import MoteConnection.Library.CyclicRemainder
import Mathlib.GroupTheory.OrderOfElement
import Mathlib.RingTheory.AdjoinRoot

/-!
# Errors as sums of monomials, and the order of `X` modulo a generator

The difference of two bit strings is the sum of one monomial for each place at
which they disagree. Two monomials cancel modulo a generator exactly when their
distance is a multiple of the order of `X`, so that order bounds the length of
the strings in which every pair of errors is noticed.
-/

namespace CyclicRemainder

open Polynomial

set_option autoImplicit false

theorem word_bits_getD {width : Nat} (word : BitVec width) {position : Nat}
    (inside : position < width) : (wordBits word).getD position false = word.getMsbD position := by
  rw [List.getD_eq_getElem _ _ (by rwa [word_bits_length])]
  simp only [wordBits, List.getElem_ofFn]

theorem differing_positions_self (bits : List Bool) : differingPositions bits bits = [] := by
  simp [differingPositions]

theorem differing_positions_append {left right leftTail rightTail : List Bool}
    (lengths : left.length = right.length) :
    differingPositions (left ++ leftTail) (right ++ rightTail) =
      differingPositions left right ++
        (differingPositions leftTail rightTail).map (· + left.length) := by
  induction left generalizing right with
  | nil =>
      have empty : right = [] := List.length_eq_zero_iff.mp lengths.symm
      simp [empty, differingPositions]
  | cons bit rest induction =>
      cases right with
      | nil => simp at lengths
      | cons other others =>
          have tails : rest.length = others.length := by simpa using lengths
          rw [List.cons_append, List.cons_append, differing_positions_cons, induction tails,
            differing_positions_cons, List.map_append, List.map_map, List.append_assoc]
          rfl

theorem differing_positions_nodup (left right : List Bool) :
    (differingPositions left right).Nodup :=
  List.nodup_range.filter _

theorem difference_terms {left right : List Bool} (lengths : left.length = right.length) :
    bitPolynomial left + bitPolynomial right =
      ((differingPositions left right).map fun position =>
        (X : (ZMod 2)[X]) ^ (left.length - 1 - position)).sum := by
  induction left generalizing right with
  | nil =>
      have empty : right = [] := List.length_eq_zero_iff.mp lengths.symm
      simp [empty, differingPositions, bitPolynomial]
  | cons bit rest induction =>
      cases right with
      | nil => simp at lengths
      | cons other others =>
          have tails : rest.length = others.length := by simpa using lengths
          have places : (fun position =>
              (X : (ZMod 2)[X]) ^ ((bit :: rest).length - 1 - position)) ∘ (· + 1) =
              fun position => X ^ (rest.length - 1 - position) := by
            funext position
            simp only [Function.comp_apply, List.length_cons]
            congr 1
            omega
          have heads : (((if bit = other then [] else [0]) : List Nat).map fun position =>
              (X : (ZMod 2)[X]) ^ ((bit :: rest).length - 1 - position)).sum =
                C (bitValue bit + bitValue other) * X ^ rest.length := by
            have cancelled : (1 : ZMod 2) + 1 = 0 := by decide
            cases bit <;> cases other <;> simp [cancelled]
          rw [differing_positions_cons, List.map_append, List.sum_append, List.map_map, places,
            ← induction tails, heads, bitPolynomial, bitPolynomial, tails, C_add]
          ring

/-- The order of `X` among the residues, zero when no power of it is one. -/
noncomputable def shiftOrder (generator : (ZMod 2)[X]) : Nat :=
  orderOf (AdjoinRoot.root generator)

theorem coprime_of_constant {generator : (ZMod 2)[X]} (constant : generator.coeff 0 = 1)
    (shift : Nat) : IsCoprime generator (X ^ shift) := by
  apply IsCoprime.pow_right
  rw [← divX_mul_X_add generator, constant]
  exact ⟨1, -generator.divX, by simp only [C_1]; ring⟩

/-- Two monomials cancel exactly at distances that the order divides. -/
theorem divides_pair_iff {generator : (ZMod 2)[X]} (constant : generator.coeff 0 = 1)
    (low distance : Nat) :
    generator ∣ X ^ low + X ^ (low + distance) ↔ shiftOrder generator ∣ distance := by
  have factored : (X : (ZMod 2)[X]) ^ low + X ^ (low + distance) =
      X ^ low * (X ^ distance - 1) := by
    rw [CharTwo.sub_eq_add, pow_add]
    ring
  have monomials : generator ∣ X ^ low + X ^ (low + distance) ↔ generator ∣ X ^ distance - 1 := by
    rw [factored]
    constructor
    · exact (coprime_of_constant constant low).dvd_of_dvd_mul_left
    · intro divides
      exact dvd_mul_of_dvd_right divides _
  rw [monomials, shiftOrder, orderOf_dvd_iff_pow_eq_one, ← AdjoinRoot.mk_eq_mk, map_pow,
    AdjoinRoot.mk_X, map_one]

theorem divides_pair_iff_of_lt {generator : (ZMod 2)[X]} (constant : generator.coeff 0 = 1)
    {first second : Nat} (ordered : first < second) :
    generator ∣ X ^ first + X ^ second ↔ shiftOrder generator ∣ second - first := by
  have split : first + (second - first) = second := by omega
  rw [← divides_pair_iff constant first, split]

theorem pair_not_divisible {generator : (ZMod 2)[X]} (constant : generator.coeff 0 = 1)
    {first second : Nat} (distinct : first ≠ second)
    (near : first < second + shiftOrder generator ∧ second < first + shiftOrder generator) :
    ¬ generator ∣ X ^ first + X ^ second := by
  intro divides
  rcases Nat.lt_or_gt_of_ne distinct with below | above
  · have distance := (divides_pair_iff_of_lt constant below).mp divides
    have bound := Nat.le_of_dvd (by omega) distance
    omega
  · rw [add_comm] at divides
    have distance := (divides_pair_iff_of_lt constant above).mp divides
    have bound := Nat.le_of_dvd (by omega) distance
    omega

theorem pair_of_length {positions : List Nat} (distinct : positions.Nodup)
    (two : positions.length = 2) :
    ∃ first second, positions = [first, second] ∧ first ≠ second := by
  obtain ⟨first, second, rfl⟩ := List.length_eq_two.mp two
  have apart : first ≠ second := by
    intro same
    simp [same] at distinct
  exact ⟨first, second, rfl, apart⟩

end CyclicRemainder
