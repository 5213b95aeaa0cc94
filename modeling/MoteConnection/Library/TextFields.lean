import Mathlib.Data.List.Basic
import Mathlib.Tactic.Common

/-!
# Fields of a printed record

Numbers are printed in a positional notation, with zeros in front up to a
width; fields of a known width follow each other, and others end at a
delimiter that they do not contain. Each of the three can be undone.
-/

namespace TextFields

set_option autoImplicit false

def valueFrom (digit : Char → Nat) (base value : Nat) (text : List Char) : Nat :=
  text.foldl (fun value symbol => base * value + digit symbol) value

section Numerals

variable {base : Nat} {digit : Char → Nat} {shape : Char → Char}

theorem value_of_zeros {zero : Char} (nothing : digit zero = 0) (count : Nat) :
    valueFrom digit base 0 (List.replicate count zero) = 0 := by
  induction count with
  | zero => rfl
  | succ count induction =>
      simp only [valueFrom] at induction ⊢
      rw [List.replicate_succ, List.foldl_cons, nothing, Nat.mul_zero, Nat.add_zero, induction]

theorem value_of_digits (many : 1 < base)
    (digits : ∀ value < base, digit (shape (Nat.digitChar value)) = value) (number : Nat) :
    valueFrom digit base 0 ((Nat.toDigits base number).map shape) = number := by
  induction number using Nat.strongRecOn with
  | ind number induction =>
      by_cases small : number < base
      · rw [Nat.toDigits_of_lt_base small]
        simp [valueFrom, digits number small]
      · have shorter : number / base < number :=
          Nat.div_lt_self (by omega) many
        have remainder := digits (number % base) (Nat.mod_lt _ (by omega))
        have earlier := induction (number / base) shorter
        rw [Nat.toDigits_of_base_le many (Nat.not_lt.mp small), List.map_append]
        simp only [valueFrom, List.foldl_append, List.map_cons, List.map_nil, List.foldl_cons,
          List.foldl_nil] at earlier ⊢
        rw [earlier, remainder]
        exact Nat.div_add_mod number base

/-- A number can be read off its digits, behind any number of zeros. -/
theorem numeral_injective (many : 1 < base)
    (digits : ∀ value < base, digit (shape (Nat.digitChar value)) = value) {zero : Char}
    (nothing : digit zero = 0) {first second zeros others : Nat}
    (same : List.replicate zeros zero ++ (Nat.toDigits base first).map shape =
      List.replicate others zero ++ (Nat.toDigits base second).map shape) : first = second := by
  have value (count number : Nat) :
      valueFrom digit base 0
        (List.replicate count zero ++ (Nat.toDigits base number).map shape) = number := by
    have zeros := @value_of_zeros base digit zero nothing count
    rw [valueFrom, List.foldl_append]
    rw [valueFrom] at zeros
    rw [zeros]
    exact value_of_digits many digits number
  rw [← value zeros first, same, value]

theorem digit_of_mem (many : 1 < base) {number : Nat} {symbol : Char}
    (member : symbol ∈ Nat.toDigits base number) :
    ∃ value < base, symbol = Nat.digitChar value := by
  induction number using Nat.strongRecOn with
  | ind number induction =>
      by_cases small : number < base
      · rw [Nat.toDigits_of_lt_base small, List.mem_singleton] at member
        exact ⟨number, small, member⟩
      · rw [Nat.toDigits_of_base_le many (Nat.not_lt.mp small)] at member
        rcases List.mem_append.mp member with earlier | last
        · exact induction (number / base) (Nat.div_lt_self (by omega) many) earlier
        · exact ⟨number % base, Nat.mod_lt _ (by omega), List.mem_singleton.mp last⟩

end Numerals

variable {Item Symbol : Type*}

/-- Where a field ends that does not contain its delimiter. -/
theorem delimited_injective {delimiter : Symbol} {first second behind after : List Symbol}
    (inFirst : delimiter ∉ first) (inSecond : delimiter ∉ second)
    (same : first ++ delimiter :: behind = second ++ delimiter :: after) :
    first = second ∧ behind = after := by
  induction first generalizing second with
  | nil =>
      cases second with
      | nil => exact ⟨rfl, (List.cons.inj same).2⟩
      | cons symbol rest =>
          exact absurd ((List.cons.inj same).1 ▸ List.mem_cons_self) inSecond
  | cons symbol rest induction =>
      cases second with
      | nil => exact absurd ((List.cons.inj same).1 ▸ List.mem_cons_self) inFirst
      | cons other others =>
          obtain ⟨head, tail⟩ := List.cons.inj same
          obtain ⟨fields, remaining⟩ := induction
            (fun member => inFirst (List.mem_cons_of_mem _ member))
            (fun member => inSecond (List.mem_cons_of_mem _ member)) tail
          exact ⟨by rw [head, fields], remaining⟩

theorem blocks_injective {block : Item → List Symbol} {width : Nat} (positive : 0 < width)
    (wide : ∀ item, (block item).length = width) (injective : Function.Injective block)
    {first second : List Item} (same : first.flatMap block = second.flatMap block) :
    first = second := by
  have some (item : Item) (rest : List Item) : (item :: rest).flatMap block ≠ [] := by
    intro nothing
    have length := congrArg List.length nothing
    rw [List.flatMap_cons, List.length_append, wide, List.length_nil] at length
    omega
  induction first generalizing second with
  | nil =>
      cases second with
      | nil => rfl
      | cons item rest => exact absurd same.symm (some item rest)
  | cons item rest induction =>
      cases second with
      | nil => exact absurd same (some item rest)
      | cons other others =>
          rw [List.flatMap_cons, List.flatMap_cons] at same
          obtain ⟨heads, tails⟩ := List.append_inj same ((wide item).trans (wide other).symm)
          rw [injective heads, induction tails]

end TextFields
