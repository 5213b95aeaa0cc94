import Mathlib.Data.List.Basic

/-!
# Sequence numbers that wrap around

A sender counts its items without bound and transmits the count modulo a fixed
number. The transmitted number determines the item as long as it is one of the
newest `modulus` items; which item a number meant once it is older than that is
not recoverable, and nothing here pretends that it is.
-/

namespace SequenceNumbers

set_option autoImplicit false

/-- Of the first `count` items, the newest one that was sent as `residue`. -/
def newest (modulus count residue : Nat) : Nat :=
  count - 1 - (count - 1 + (modulus - residue)) % modulus

theorem newest_of_current {modulus count index : Nat} (sent : index < count)
    (current : count ≤ index + modulus) : newest modulus count (index % modulus) = index := by
  have positive : 0 < modulus := by omega
  have below : index % modulus < modulus := Nat.mod_lt index positive
  have quotient : modulus * (index / modulus) + index % modulus = index :=
    Nat.div_add_mod index modulus
  have distance : count - 1 + (modulus - index % modulus) =
      count - 1 - index + modulus * (index / modulus + 1) := by
    rw [Nat.mul_add, Nat.mul_one]
    omega
  have young : count - 1 - index < modulus := by omega
  rw [newest, distance, Nat.add_mul_mod_self_left, Nat.mod_eq_of_lt young]
  omega

theorem current_unique {modulus count first second : Nat} (firstSent : first < count)
    (firstCurrent : count ≤ first + modulus) (secondSent : second < count)
    (secondCurrent : count ≤ second + modulus) (same : first % modulus = second % modulus) :
    first = second := by
  rw [← newest_of_current firstSent firstCurrent, same,
    newest_of_current secondSent secondCurrent]

/-- Stamps that grow with every item grow at least as fast as the items are counted. -/
theorem increasing_gap {stamps : List Nat} (increasing : stamps.Pairwise (· < ·))
    {first second earlier later : Nat} (ordered : first ≤ second)
    (firstStamp : stamps[first]? = some earlier) (secondStamp : stamps[second]? = some later) :
    earlier + (second - first) ≤ later := by
  induction second generalizing later with
  | zero =>
      have zero : first = 0 := by omega
      rw [zero, secondStamp] at firstStamp
      cases firstStamp
      omega
  | succ second induction =>
      rcases Nat.lt_or_eq_of_le ordered with before | last
      · obtain ⟨inside, value⟩ := List.getElem?_eq_some_iff.mp secondStamp
        have within : second < stamps.length := by omega
        have present : stamps[second]? = some stamps[second] := List.getElem?_eq_getElem within
        have smaller := induction (by omega) present
        have grows : stamps[second] < stamps[second + 1] :=
          List.pairwise_iff_getElem.mp increasing second (second + 1) within inside (by omega)
        omega
      · rw [last, secondStamp] at firstStamp
        cases firstStamp
        omega

theorem increasing_gap_last {stamps : List Nat} (increasing : stamps.Pairwise (· < ·))
    {index stamp : Nat} (found : stamps[index]? = some stamp) :
    ∃ last ∈ stamps, stamp + (stamps.length - 1 - index) ≤ last := by
  have inside : index < stamps.length := (List.getElem?_eq_some_iff.mp found).1
  have within : stamps.length - 1 < stamps.length := by omega
  have present : stamps[stamps.length - 1]? = some stamps[stamps.length - 1] :=
    List.getElem?_eq_getElem within
  exact ⟨_, List.getElem_mem within, increasing_gap increasing (by omega) found present⟩

end SequenceNumbers
