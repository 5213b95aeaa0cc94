import Mathlib.Data.List.Basic

/-!
# Flag-delimited frames with an escape symbol

Payloads over any alphabet are sent between flags; a flag or an escape inside a
payload is replaced by the escape and a masked symbol. The content of a frame
is then free of flags, and at most one payload has it.
-/

namespace FlagStuffing

set_option autoImplicit false

/-- The alphabet data of a stuffing. The masked flag may not be mistaken for a flag or for
the masked escape. -/
structure Stuffing (Symbol : Type*) where
  flag : Symbol
  escape : Symbol
  mask : Symbol → Symbol
  escape_ne_flag : escape ≠ flag
  mask_flag_ne_flag : mask flag ≠ flag
  mask_escape_ne_flag : mask escape ≠ flag
  mask_distinct : mask flag ≠ mask escape

variable {Symbol : Type*} [DecidableEq Symbol] (stuffing : Stuffing Symbol)

def stuffSymbol (symbol : Symbol) : List Symbol :=
  if symbol = stuffing.flag ∨ symbol = stuffing.escape then
    [stuffing.escape, stuffing.mask symbol]
  else [symbol]

def stuff (payload : List Symbol) : List Symbol := payload.flatMap (stuffSymbol stuffing)

/-- The payload of a frame content; none when an escape is cut off or followed by a symbol
that masks nothing. -/
def unstuff : List Symbol → Option (List Symbol)
  | [] => some []
  | symbol :: rest =>
      if symbol = stuffing.escape then
        match rest with
        | [] => none
        | masked :: others =>
            if masked = stuffing.mask stuffing.flag then
              (unstuff others).map (stuffing.flag :: ·)
            else if masked = stuffing.mask stuffing.escape then
              (unstuff others).map (stuffing.escape :: ·)
            else none
      else (unstuff rest).map (symbol :: ·)

theorem stuff_cons (symbol : Symbol) (rest : List Symbol) :
    stuff stuffing (symbol :: rest) = stuffSymbol stuffing symbol ++ stuff stuffing rest := rfl

theorem flag_not_mem_stuff (payload : List Symbol) : stuffing.flag ∉ stuff stuffing payload := by
  intro member
  obtain ⟨symbol, _, inside⟩ := List.mem_flatMap.mp member
  unfold stuffSymbol at inside
  split_ifs at inside with special
  · rcases special with rfl | rfl
    · simp [stuffing.escape_ne_flag.symm, stuffing.mask_flag_ne_flag.symm] at inside
    · simp [stuffing.escape_ne_flag.symm, stuffing.mask_escape_ne_flag.symm] at inside
  · rw [List.mem_singleton] at inside
    exact special (.inl inside.symm)

theorem unstuff_plain {symbol : Symbol} (plain : symbol ≠ stuffing.escape)
    (rest : List Symbol) :
    unstuff stuffing (symbol :: rest) = (unstuff stuffing rest).map (symbol :: ·) := by
  rw [unstuff.eq_def]
  exact if_neg plain

theorem unstuff_stuff (payload : List Symbol) :
    unstuff stuffing (stuff stuffing payload) = some payload := by
  induction payload with
  | nil => rfl
  | cons symbol rest induction =>
      rw [stuff_cons, stuffSymbol]
      split_ifs with special
      · rcases special with rfl | rfl
        · simp [unstuff, induction]
        · simp [unstuff, induction, stuffing.mask_distinct.symm]
      · have plain : symbol ≠ stuffing.escape := fun same => special (.inr same)
        rw [List.singleton_append, unstuff_plain stuffing plain, induction]
        rfl

/-- A content that unstuffs is the stuffing of what it unstuffs to. -/
theorem stuff_of_unstuff {content payload : List Symbol}
    (free : stuffing.flag ∉ content) (read : unstuff stuffing content = some payload) :
    stuff stuffing payload = content := by
  fun_induction unstuff stuffing content generalizing payload with
  | case1 => cases read; rfl
  | case2 => cases read
  | case3 others induction =>
      obtain ⟨tail, tailRead, rfl⟩ := Option.map_eq_some_iff.mp read
      have tailFree : stuffing.flag ∉ others := fun member => free (by simp [member])
      rw [stuff_cons, induction tailFree tailRead, stuffSymbol, if_pos (.inl rfl)]
      rfl
  | case4 others _ induction =>
      obtain ⟨tail, tailRead, rfl⟩ := Option.map_eq_some_iff.mp read
      have tailFree : stuffing.flag ∉ others := fun member => free (by simp [member])
      rw [stuff_cons, induction tailFree tailRead, stuffSymbol, if_pos (.inr rfl)]
      rfl
  | case5 => cases read
  | case6 symbol rest plain induction =>
      obtain ⟨tail, tailRead, rfl⟩ := Option.map_eq_some_iff.mp read
      have tailFree : stuffing.flag ∉ rest := fun member => free (List.mem_cons_of_mem _ member)
      have unflagged : symbol ≠ stuffing.flag := fun same => free (by simp [same])
      rw [stuff_cons, induction tailFree tailRead, stuffSymbol,
        if_neg (fun special => special.elim unflagged plain)]
      rfl

theorem unstuff_iff {content payload : List Symbol} (free : stuffing.flag ∉ content) :
    unstuff stuffing content = some payload ↔ stuff stuffing payload = content := by
  constructor
  · exact stuff_of_unstuff stuffing free
  · intro same
    rw [← same, unstuff_stuff]

section Segments

variable (flag : Symbol)

def segments (stream : List Symbol) : List (List Symbol) := (stream.splitOn flag).tail.dropLast

def segmentsAfterFlag (stream : List Symbol) : List (List Symbol) :=
  (stream.splitOn flag).dropLast

theorem split_first {front : List Symbol} (free : flag ∉ front) (rest : List Symbol) :
    (front ++ flag :: rest).splitOn flag = front :: rest.splitOn flag := by
  apply List.splitOnP_append_cons_of_forall_mem
  · intro symbol member
    exact beq_eq_false_iff_ne.mpr fun same => free (same ▸ member)
  · simp

theorem split_last {front : List Symbol} (free : flag ∉ front) :
    front.splitOn flag = [front] := by
  apply List.splitOnP_eq_singleton
  intro symbol member
  exact beq_eq_false_iff_ne.mpr fun same => free (same ▸ member)

theorem segments_first {front : List Symbol} (free : flag ∉ front) (rest : List Symbol) :
    segments flag (front ++ flag :: rest) = segmentsAfterFlag flag rest := by
  rw [segments, split_first flag free]
  rfl

theorem segments_unflagged {front : List Symbol} (free : flag ∉ front) :
    segments flag front = [] := by
  rw [segments, split_last flag free]
  rfl

theorem segments_after_flag_first {front : List Symbol} (free : flag ∉ front)
    (rest : List Symbol) :
    segmentsAfterFlag flag (front ++ flag :: rest) = front :: segmentsAfterFlag flag rest := by
  rw [segmentsAfterFlag, split_first flag free, List.dropLast_cons_of_ne_nil]
  · rfl
  · exact List.splitOn_ne_nil flag rest

theorem segments_after_flag_unflagged {front : List Symbol} (free : flag ∉ front) :
    segmentsAfterFlag flag front = [] := by
  rw [segmentsAfterFlag, split_last flag free]
  rfl

theorem unflagged_or_first (stream : List Symbol) :
    flag ∉ stream ∨ ∃ front rest, stream = front ++ flag :: rest ∧ flag ∉ front := by
  by_cases member : flag ∈ stream
  · right
    exact List.eq_append_cons_of_mem member
  · exact .inl member

end Segments

end FlagStuffing
