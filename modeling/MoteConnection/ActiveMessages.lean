import MoteConnection.Runtime

/-!
# The ActiveMessage codec

`Message` of `dispatcher/am/mod.rs` with its conversions from and to bytes. The
sum of the length byte and the header length is computed in eight bits. Whether
such a sum panics or wraps is decided by the build profile, which is a
parameter of the parser here.
-/

namespace MoteConnection.ActiveMessages

open MoteConnection.Runtime
open Outcome

set_option autoImplicit false

def destStart : Nat := 0
def srcStart : Nat := 2
def lengthStart : Nat := 4
def groupStart : Nat := 5
def idStart : Nat := 6
def payloadStart : Nat := 7
def minimumLength : UInt8 := 7

structure Message where
  dest : UInt16
  src : UInt16
  length : UInt8
  group : UInt8
  id : UInt8
  payload : Bytes
  metadata : Bytes
  deriving DecidableEq

inductive MessageParseError
  | vecTooLarge (message : String) (length : Nat)
  | vecTooSmall (message : String) (length : Nat)
  | payloadSizeMismatch (message : String) (stated actual : UInt8)
  deriving DecidableEq

/-- `left + right` on `u8`, in a build with or without overflow checks. -/
def addU8 (overflowChecks : Bool) (left right : UInt8) : Outcome UInt8 :=
  if overflowChecks = true ∧ 256 ≤ left.toNat + right.toNat then
    panicked "attempt to add with overflow"
  else returned (left + right)

/-- `bytes[first..last]` -/
def slice (bytes : Bytes) (first last : Nat) : Outcome Bytes :=
  if last < first then
    panicked s!"slice index starts at {first} but ends at {last}"
  else if bytes.length < last then
    panicked s!"range end index {last} out of range for slice of length {bytes.length}"
  else returned ((bytes.drop first).take (last - first))

def sliceFrom (bytes : Bytes) (first : Nat) : Outcome Bytes :=
  if bytes.length < first then
    panicked s!"range start index {first} out of range for slice of length {bytes.length}"
  else returned (bytes.drop first)

def toBeBytes (word : UInt16) : Bytes :=
  [UInt8.ofNat (word.toNat / 256), UInt8.ofNat (word.toNat % 256)]

def fromBeBytes (high low : UInt8) : UInt16 := UInt16.ofNat (256 * high.toNat + low.toNat)

def Message.tryFrom (overflowChecks : Bool) (data : Bytes) :
    Outcome (Except MessageParseError Message) :=
  if 255 < data.length then
    returned (.error (.vecTooLarge
      s!"The byte vector must not be larger than 255 bytes. Found {data.length} bytes."
      data.length))
  else
    let length := UInt8.ofNat data.length
    if length < minimumLength then
      returned (.error (.vecTooSmall
        s!"The byte vector must be at least 8 bytes long!. Found {length.toNat} bytes."
        length.toNat))
    else do
      let stated ← index data lengthStart
      let needed ← addU8 overflowChecks stated minimumLength
      if length < needed then
        -- Behind the second check this difference cannot overflow.
        let actual := length - minimumLength
        let message := s!"The byte vector reports payload length of {stated.toNat} but is " ++
          s!"actually {actual.toNat}"
        return .error (.payloadSizeMismatch message stated actual)
      else
        let payloadEnd := (← addU8 overflowChecks stated minimumLength).toNat
        let dest := fromBeBytes (← index data destStart) (← index data (destStart + 1))
        let src := fromBeBytes (← index data srcStart) (← index data (srcStart + 1))
        let group ← index data groupStart
        let id ← index data idStart
        let payload ← slice data payloadStart payloadEnd
        let metadata ← sliceFrom data payloadEnd
        return .ok ⟨dest, src, stated, group, id, payload, metadata⟩

def Message.intoBytes (message : Message) : Bytes :=
  toBeBytes message.dest ++ toBeBytes message.src ++
    [message.length, message.group, message.id] ++ message.payload ++ message.metadata

/-- An error without its text, its numbers unbounded. -/
inductive Rejection
  | tooLarge (length : Nat)
  | tooSmall (length : Nat)
  | sizeMismatch (stated actual : Nat)
  deriving DecidableEq

def MessageParseError.rejection : MessageParseError → Rejection
  | .vecTooLarge _ length => .tooLarge length
  | .vecTooSmall _ length => .tooSmall length
  | .payloadSizeMismatch _ stated actual => .sizeMismatch stated.toNat actual.toNat

/-- What the parser is for: the layout of a message, with the lengths compared as numbers. -/
def layout (data : Bytes) : Except Rejection Message :=
  if 255 < data.length then .error (.tooLarge data.length)
  else
    match data with
    | destHigh :: destLow :: srcHigh :: srcLow :: stated :: group :: id :: rest =>
        if rest.length < stated.toNat then .error (.sizeMismatch stated.toNat rest.length)
        else .ok ⟨fromBeBytes destHigh destLow, fromBeBytes srcHigh srcLow, stated, group, id,
          rest.take stated.toNat, rest.drop stated.toNat⟩
    | _ => .error (.tooSmall data.length)

theorem from_be_to_be (word : UInt16) (high low : UInt8) (split : toBeBytes word = [high, low]) :
    fromBeBytes high low = word := by
  have bounded := word.toNat_lt
  have total : 256 * (word.toNat / 256 % 256) + word.toNat % 256 % 256 = word.toNat := by omega
  have same := List.cons.inj split
  have sameLow := (List.cons.inj same.2).1
  rw [fromBeBytes, ← same.1, ← sameLow]
  simp only [UInt8.toNat_ofNat', Nat.reducePow, total, UInt16.ofNat_toNat]

theorem to_be_from_be (high low : UInt8) : toBeBytes (fromBeBytes high low) = [high, low] := by
  have highBound := high.toNat_lt
  have lowBound := low.toNat_lt
  have inside : (256 * high.toNat + low.toNat) % 65536 = 256 * high.toNat + low.toNat := by omega
  have highPart : (256 * high.toNat + low.toNat) / 256 = high.toNat := by omega
  have lowPart : (256 * high.toNat + low.toNat) % 256 = low.toNat := by omega
  simp only [toBeBytes, fromBeBytes, UInt16.toNat_ofNat', Nat.reducePow, inside, highPart,
    lowPart, UInt8.ofNat_toNat]

theorem add_u8_of_fits (overflowChecks : Bool) {stated : UInt8} (fits : stated.toNat ≤ 248) :
    addU8 overflowChecks stated minimumLength = returned (stated + minimumLength) ∧
      (stated + minimumLength).toNat = stated.toNat + 7 := by
  have sum : minimumLength.toNat = 7 := rfl
  constructor
  · apply if_neg
    rintro ⟨_, overflow⟩
    omega
  · rw [UInt8.toNat_add, sum]
    omega

/-- A length byte that leaves no room for the header within 255 bytes: the sum panics, or it wraps
to the inside of the header. -/
theorem add_u8_of_overflow (overflowChecks : Bool) {stated : UInt8}
    (tooLong : 249 ≤ stated.toNat) :
    (∃ message, addU8 overflowChecks stated minimumLength = panicked message) ∨
      addU8 overflowChecks stated minimumLength = returned (stated + minimumLength) ∧
        (stated + minimumLength).toNat < 7 := by
  have sum : minimumLength.toNat = 7 := rfl
  have bounded := stated.toNat_lt
  unfold addU8
  split_ifs with checked
  · exact .inl ⟨_, rfl⟩
  · apply Or.inr
    refine ⟨rfl, ?_⟩
    rw [UInt8.toNat_add, sum]
    omega

theorem slice_panics (bytes : Bytes) {first last : Nat} (reversed : last < first) :
    ∃ message, slice bytes first last = panicked message := ⟨_, if_pos reversed⟩

theorem header_cases (data : Bytes) :
    data.length < 7 ∨ ∃ destHigh destLow srcHigh srcLow stated group id rest,
      data = destHigh :: destLow :: srcHigh :: srcLow :: stated :: group :: id :: rest := by
  match data with
  | [] | [_] | [_, _] | [_, _, _] | [_, _, _, _] | [_, _, _, _, _] | [_, _, _, _, _, _] =>
      exact .inl (by simp)
  | destHigh :: destLow :: srcHigh :: srcLow :: stated :: group :: id :: rest =>
      exact .inr ⟨destHigh, destLow, srcHigh, srcLow, stated, group, id, rest, rfl⟩

section Header

variable (overflowChecks : Bool) (destHigh destLow srcHigh srcLow stated group id : UInt8)
  {rest : Bytes}

theorem try_from_header (bounded : rest.length ≤ 248) :
    Message.tryFrom overflowChecks
        (destHigh :: destLow :: srcHigh :: srcLow :: stated :: group :: id :: rest) = (do
      let needed ← addU8 overflowChecks stated minimumLength
      if rest.length + 7 < needed.toNat then
        let actual := UInt8.ofNat (rest.length + 7) - minimumLength
        let message := s!"The byte vector reports payload length of {stated.toNat} but is " ++
          s!"actually {actual.toNat}"
        return .error (.payloadSizeMismatch message stated actual)
      else
        let data := destHigh :: destLow :: srcHigh :: srcLow :: stated :: group :: id :: rest
        let payload ← slice data payloadStart needed.toNat
        let metadata ← sliceFrom data needed.toNat
        return .ok ⟨fromBeBytes destHigh destLow, fromBeBytes srcHigh srcLow, stated, group, id,
          payload, metadata⟩) := by
  have total : (destHigh :: destLow :: srcHigh :: srcLow :: stated :: group :: id :: rest).length =
      rest.length + 7 := rfl
  have notLarge : ¬ 255 < rest.length + 7 := by omega
  have exact : (UInt8.ofNat (rest.length + 7)).toNat = rest.length + 7 := by
    rw [UInt8.toNat_ofNat']
    omega
  have notSmall : ¬ UInt8.ofNat (rest.length + 7) < minimumLength := by
    rw [UInt8.lt_iff_toNat_lt, exact]
    have least : minimumLength.toNat = 7 := rfl
    omega
  have byte (position : Nat) (value : UInt8)
      (found : (destHigh :: destLow :: srcHigh :: srcLow :: stated :: group :: id ::
        rest)[position]? = some value) :
      index (destHigh :: destLow :: srcHigh :: srcLow :: stated :: group :: id :: rest) position =
        returned value := by
    rw [index, found]
  rw [Message.tryFrom, total, if_neg notLarge]
  simp only [if_neg notSmall, byte lengthStart stated rfl, byte destStart destHigh rfl,
    byte (destStart + 1) destLow rfl, byte srcStart srcHigh rfl, byte (srcStart + 1) srcLow rfl,
    byte groupStart group rfl, byte idStart id rfl, returned_bind, pure_eq]
  cases addU8 overflowChecks stated minimumLength with
  | panicked message => rfl
  | returned needed =>
      have compared : (UInt8.ofNat (rest.length + 7) < needed) =
          (rest.length + 7 < needed.toNat) := by
        rw [UInt8.lt_iff_toNat_lt, exact]
      simp only [returned_bind, compared]

theorem try_from_parsed (bounded : rest.length ≤ 248) (fits : stated.toNat ≤ rest.length) :
    Message.tryFrom overflowChecks
        (destHigh :: destLow :: srcHigh :: srcLow :: stated :: group :: id :: rest) =
      returned (.ok ⟨fromBeBytes destHigh destLow, fromBeBytes srcHigh srcLow, stated, group, id,
        rest.take stated.toNat, rest.drop stated.toNat⟩) := by
  obtain ⟨added, sum⟩ := add_u8_of_fits overflowChecks (Nat.le_trans fits bounded)
  have notMismatched : ¬ rest.length + 7 < stated.toNat + 7 := by omega
  have inOrder : ¬ stated.toNat + 7 < payloadStart := by simp [payloadStart]
  have taken : stated.toNat + 7 - payloadStart = stated.toNat := by simp [payloadStart]
  rw [try_from_header _ _ _ _ _ _ _ _ bounded, added, returned_bind, sum, if_neg notMismatched]
  simp only [slice, sliceFrom, List.length_cons, if_neg inOrder, if_neg notMismatched, taken,
    returned_bind, pure_eq]
  rfl

theorem try_from_mismatched (bounded : rest.length ≤ 248) (unfit : rest.length < stated.toNat)
    (small : stated.toNat ≤ 248) :
    ∃ error, Message.tryFrom overflowChecks
        (destHigh :: destLow :: srcHigh :: srcLow :: stated :: group :: id :: rest) =
      returned (.error error) ∧
      error.rejection = .sizeMismatch stated.toNat rest.length := by
  obtain ⟨added, sum⟩ := add_u8_of_fits overflowChecks small
  have mismatched : rest.length + 7 < stated.toNat + 7 := by omega
  have actual : (UInt8.ofNat (rest.length + 7) - minimumLength).toNat = rest.length := by
    have least : minimumLength.toNat = 7 := rfl
    rw [UInt8.toNat_sub, UInt8.toNat_ofNat', least]
    omega
  rw [try_from_header _ _ _ _ _ _ _ _ bounded, added, returned_bind, sum, if_pos mismatched]
  refine ⟨_, rfl, ?_⟩
  rw [MessageParseError.rejection, actual]

theorem try_from_overflow (bounded : rest.length ≤ 248) (tooLong : 249 ≤ stated.toNat) :
    ¬ (Message.tryFrom overflowChecks
      (destHigh :: destLow :: srcHigh :: srcLow :: stated :: group :: id :: rest)).Returns := by
  rw [try_from_header _ _ _ _ _ _ _ _ bounded]
  rcases add_u8_of_overflow overflowChecks tooLong with ⟨text, overflow⟩ | ⟨wrapped, inside⟩
  · rw [overflow, panicked_bind]
    exact panicked_not_returns text
  · have notMismatched : ¬ rest.length + 7 < (stated + minimumLength).toNat := by omega
    obtain ⟨text, reversed⟩ := slice_panics
      (destHigh :: destLow :: srcHigh :: srcLow :: stated :: group :: id :: rest) inside
    rw [wrapped, returned_bind, if_neg notMismatched]
    simp only [payloadStart, reversed, panicked_bind]
    exact panicked_not_returns text

theorem try_from_unfit (bounded : rest.length ≤ 248) (unfit : rest.length < stated.toNat)
    (message : Message) :
    Message.tryFrom overflowChecks
        (destHigh :: destLow :: srcHigh :: srcLow :: stated :: group :: id :: rest) ≠
      returned (.ok message) := by
  intro parsed
  by_cases small : stated.toNat ≤ 248
  · obtain ⟨error, refused, _⟩ := try_from_mismatched overflowChecks destHigh destLow srcHigh
      srcLow stated group id bounded unfit small
    rw [refused] at parsed
    cases parsed
  · exact try_from_overflow overflowChecks _ _ _ _ _ _ _ bounded (Nat.not_le.mp small)
      ⟨_, parsed⟩

end Header

theorem try_from_large (overflowChecks : Bool) {data : Bytes} (large : 255 < data.length) :
    ∃ error, Message.tryFrom overflowChecks data = returned (.error error) ∧
      error.rejection = .tooLarge data.length := by
  rw [Message.tryFrom, if_pos large]
  exact ⟨_, rfl, rfl⟩

theorem try_from_small (overflowChecks : Bool) {data : Bytes} (short : data.length < 7) :
    ∃ error, Message.tryFrom overflowChecks data = returned (.error error) ∧
      error.rejection = .tooSmall data.length := by
  have exact : (UInt8.ofNat data.length).toNat = data.length := by
    rw [UInt8.toNat_ofNat']
    omega
  have small : UInt8.ofNat data.length < minimumLength := by
    rw [UInt8.lt_iff_toNat_lt, exact]
    exact short
  rw [Message.tryFrom, if_neg (by omega)]
  simp only [if_pos small]
  refine ⟨_, rfl, ?_⟩
  rw [MessageParseError.rejection, exact]

/-- The accepted vectors are the encodings of the messages that state their payload's length and
fit in 255 bytes. -/
theorem try_from_ok (overflowChecks : Bool) (data : Bytes) (message : Message) :
    Message.tryFrom overflowChecks data = returned (.ok message) ↔
      data = message.intoBytes ∧ message.length.toNat = message.payload.length ∧
        7 + message.payload.length + message.metadata.length ≤ 255 := by
  constructor
  · intro parsed
    have notLarge : data.length ≤ 255 := by
      by_contra large
      obtain ⟨error, refused, _⟩ := try_from_large overflowChecks (Nat.not_le.mp large)
      rw [refused] at parsed
      cases parsed
    rcases header_cases data with short | ⟨destHigh, destLow, srcHigh, srcLow, stated, group, id,
      rest, rfl⟩
    · obtain ⟨error, refused, _⟩ := try_from_small overflowChecks short
      rw [refused] at parsed
      cases parsed
    · have total : rest.length + 7 ≤ 255 := notLarge
      have bounded : rest.length ≤ 248 := by omega
      have fits : stated.toNat ≤ rest.length := by
        by_contra unfit
        exact try_from_unfit overflowChecks _ _ _ _ _ _ _ bounded (Nat.not_le.mp unfit) _ parsed
      rw [try_from_parsed overflowChecks _ _ _ _ _ _ _ bounded fits] at parsed
      cases parsed
      have taken : (rest.take stated.toNat).length = stated.toNat :=
        List.length_take_of_le fits
      refine ⟨?_, taken.symm, ?_⟩
      · simp only [Message.intoBytes, to_be_from_be, List.cons_append, List.nil_append,
          List.take_append_drop]
      · have whole : (rest.take stated.toNat).length + (rest.drop stated.toNat).length =
            rest.length := by
          rw [← List.length_append, List.take_append_drop]
        simp only
        omega
  · rintro ⟨rfl, sameLength, bounded⟩
    have split : message.intoBytes =
        UInt8.ofNat (message.dest.toNat / 256) :: UInt8.ofNat (message.dest.toNat % 256) ::
        UInt8.ofNat (message.src.toNat / 256) :: UInt8.ofNat (message.src.toNat % 256) ::
        message.length :: message.group :: message.id ::
        (message.payload ++ message.metadata) := by
      simp [Message.intoBytes, toBeBytes]
    have restBounded : (message.payload ++ message.metadata).length ≤ 248 := by
      rw [List.length_append]
      omega
    have fits : message.length.toNat ≤ (message.payload ++ message.metadata).length := by
      rw [List.length_append]
      omega
    rw [split, try_from_parsed overflowChecks _ _ _ _ _ _ _ restBounded fits, sameLength,
      List.take_left, List.drop_left, from_be_to_be message.dest _ _ rfl,
      from_be_to_be message.src _ _ rfl]

/-- In both build profiles: what is accepted is encoded back to the vector it came from, and the
encoding of a message is accepted as that message exactly when the message states the length of its
payload and fits in 255 bytes. -/
theorem message_round_trip (overflowChecks : Bool) :
    (∀ data message, Message.tryFrom overflowChecks data = returned (.ok message) →
      message.intoBytes = data) ∧
    ∀ message : Message,
      Message.tryFrom overflowChecks message.intoBytes = returned (.ok message) ↔
        message.length.toNat = message.payload.length ∧
          7 + message.payload.length + message.metadata.length ≤ 255 := by
  constructor
  · intro data message parsed
    exact ((try_from_ok overflowChecks data message).mp parsed).1.symm
  · intro message
    rw [try_from_ok]
    exact and_iff_right rfl

example : Message.tryFrom true
    [0xFF, 0xFF, 0x00, 0x01, 0x04, 0x22, 0x00, 0x00, 0x01, 0x02, 0x03, 0x04, 0x05] =
      returned (.ok ⟨0xFFFF, 0x0001, 4, 0x22, 0x00, [0, 1, 2, 3], [4, 5]⟩) := by
  decide

theorem layout_short {data : Bytes} (short : data.length < 7) :
    layout data = .error (.tooSmall data.length) := by
  unfold layout
  rw [if_neg (by omega)]
  split
  · simp only [List.length_cons] at short
    omega
  · rfl

/-- The parser does what it is for on every vector whose sum of length byte and header length fits
in eight bits, or that fails an earlier check; on the others it panics. -/
theorem parser_exact_iff (overflowChecks : Bool) (data : Bytes) :
    (∃ result, Message.tryFrom overflowChecks data = returned result ∧
      result.mapError MessageParseError.rejection = layout data) ↔
      data.length < 7 ∨ 255 < data.length ∨ ∀ stated ∈ data[4]?, stated.toNat ≤ 248 := by
  by_cases large : 255 < data.length
  · obtain ⟨error, refused, rejection⟩ := try_from_large overflowChecks large
    have described : layout data = .error (.tooLarge data.length) := if_pos large
    refine iff_of_true ⟨_, refused, ?_⟩ (.inr (.inl large))
    rw [described, ← rejection]
    rfl
  rcases header_cases data with short | ⟨destHigh, destLow, srcHigh, srcLow, stated, group, id,
    rest, rfl⟩
  · obtain ⟨error, refused, rejection⟩ := try_from_small overflowChecks short
    refine iff_of_true ⟨_, refused, ?_⟩ (.inl short)
    rw [layout_short short, ← rejection]
    rfl
  · have total : ¬ 255 < rest.length + 7 := large
    have bounded : rest.length ≤ 248 := by omega
    have notSmall : ¬ (destHigh :: destLow :: srcHigh :: srcLow :: stated :: group :: id ::
        rest).length < 7 := by simp
    have read : layout (destHigh :: destLow :: srcHigh :: srcLow :: stated :: group :: id ::
        rest) = if rest.length < stated.toNat then
          .error (.sizeMismatch stated.toNat rest.length)
        else .ok ⟨fromBeBytes destHigh destLow, fromBeBytes srcHigh srcLow, stated, group, id,
          rest.take stated.toNat, rest.drop stated.toNat⟩ := if_neg large
    have byte : (∀ other ∈ (destHigh :: destLow :: srcHigh :: srcLow :: stated :: group :: id ::
        rest)[4]?, other.toNat ≤ 248) ↔ stated.toNat ≤ 248 := by simp
    rw [or_iff_right notSmall, or_iff_right large, byte, read]
    by_cases small : stated.toNat ≤ 248
    · refine iff_of_true ?_ small
      by_cases fits : stated.toNat ≤ rest.length
      · rw [if_neg (Nat.not_lt.mpr fits)]
        exact ⟨_, try_from_parsed overflowChecks _ _ _ _ _ _ _ bounded fits, rfl⟩
      · have unfit := Nat.not_le.mp fits
        obtain ⟨error, refused, rejection⟩ :=
          try_from_mismatched overflowChecks destHigh destLow srcHigh srcLow stated group id
            bounded unfit small
        rw [if_pos unfit, ← rejection]
        exact ⟨_, refused, rfl⟩
    · refine iff_of_false ?_ small
      rintro ⟨result, returns, _⟩
      exact try_from_overflow overflowChecks _ _ _ _ _ _ _ bounded (Nat.not_le.mp small)
        ⟨result, returns⟩

/-- A header without a payload that states a payload of 249 bytes. -/
theorem parser_panics :
    layout [0xFF, 0xFF, 0x00, 0x01, 249, 0x22, 0x00] = .error (.sizeMismatch 249 0) ∧
    ∀ overflowChecks,
      ¬ (Message.tryFrom overflowChecks [0xFF, 0xFF, 0x00, 0x01, 249, 0x22, 0x00]).Returns := by
  decide

end MoteConnection.ActiveMessages
