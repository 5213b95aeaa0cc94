import MoteConnection.SerialChecksum

/-!
# The three packets of the serial protocol

The constructors, the encoders and the parsers of `packets.rs`. The three
parsers are one definition with the length they admit, their protocol byte and
their field extraction as parameters; `AckPacket` and `NoAckPacket` differ from
`Ack` in the length check, and only `NoAckPacket` does not report the two
checksums.
-/

namespace MoteConnection.SerialPackets

open MoteConnection.Runtime MoteConnection.SerialChecksum
open Outcome

set_option autoImplicit false

def ackpacketByte : UInt8 := 0x44
def ackByte : UInt8 := 0x43
def noackpacketByte : UInt8 := 0x45

def toLeBytes (word : UInt16) : Bytes :=
  [UInt8.ofNat (word.toNat % 256), UInt8.ofNat (word.toNat / 256)]

def fromLeBytes (low high : UInt8) : UInt16 := UInt16.ofNat (low.toNat + 256 * high.toNat)

/-- `u16::from_le_bytes(slice.try_into().unwrap())` -/
def fromLeSlice : Bytes → Outcome UInt16
  | [low, high] => returned (fromLeBytes low high)
  | _ => panicked "called `Result::unwrap()` on an `Err` value: TryFromSliceError(())"

theorem from_le_to_le (word : UInt16) : fromLeSlice (toLeBytes word) = returned word := by
  have bounded := word.toNat_lt
  have total : word.toNat % 256 % 256 + 256 * (word.toNat / 256 % 256) = word.toNat := by omega
  simp only [toLeBytes, fromLeSlice, fromLeBytes, UInt8.toNat_ofNat', Nat.reducePow, total,
    UInt16.ofNat_toNat]

theorem to_le_from_le (low high : UInt8) : toLeBytes (fromLeBytes low high) = [low, high] := by
  have lowBound := low.toNat_lt
  have highBound := high.toNat_lt
  have inside : (low.toNat + 256 * high.toNat) % 65536 = low.toNat + 256 * high.toNat := by omega
  have lowPart : (low.toNat + 256 * high.toNat) % 256 = low.toNat := by omega
  have highPart : (low.toNat + 256 * high.toNat) / 256 = high.toNat := by omega
  simp only [toLeBytes, fromLeBytes, UInt16.toNat_ofNat', Nat.reducePow, inside, lowPart, highPart,
    UInt8.ofNat_toNat]

@[simp] theorem to_le_length (word : UInt16) : (toLeBytes word).length = 2 := rfl

structure AckPacket where
  protocol : UInt8
  seqNum : UInt8
  data : Bytes
  checksum : UInt16
  deriving DecidableEq

structure Ack where
  protocol : UInt8
  seqNum : UInt8
  checksum : UInt16
  deriving DecidableEq

structure NoAckPacket where
  protocol : UInt8
  data : Bytes
  checksum : UInt16
  deriving DecidableEq

def AckPacket.new (seqNum : UInt8) (data : Bytes) : AckPacket where
  protocol := ackpacketByte
  seqNum := seqNum
  data := data
  checksum := calculateCrc (ackpacketByte :: seqNum :: data)

def AckPacket.intoBytes (packet : AckPacket) : Bytes :=
  [packet.protocol, packet.seqNum] ++ packet.data ++ toLeBytes packet.checksum

def Ack.new (seqNum : UInt8) : Ack where
  protocol := ackByte
  seqNum := seqNum
  checksum := calculateCrc [ackByte, seqNum]

def Ack.fromPacket (packet : AckPacket) : Ack := Ack.new packet.seqNum

def Ack.intoBytes (packet : Ack) : Bytes :=
  [packet.protocol, packet.seqNum] ++ toLeBytes packet.checksum

def NoAckPacket.new (data : Bytes) : NoAckPacket where
  protocol := noackpacketByte
  data := data
  checksum := calculateCrc (noackpacketByte :: data)

def NoAckPacket.intoBytes (packet : NoAckPacket) : Bytes :=
  [packet.protocol] ++ packet.data ++ toLeBytes packet.checksum

theorem ack_packet_nonempty (packet : AckPacket) : packet.intoBytes ≠ [] := List.cons_ne_nil _ _

theorem ack_nonempty (packet : Ack) : packet.intoBytes ≠ [] := List.cons_ne_nil _ _

theorem ack_packet_ne_ack (seqNum acknowledged : UInt8) (data : Bytes) :
    (AckPacket.new seqNum data).intoBytes ≠ (Ack.new acknowledged).intoBytes := by
  intro same
  have sameProtocol : ackpacketByte = ackByte := (List.cons.inj same).1
  exact absurd sameProtocol (by decide)

theorem ack_packet_ne_no_ack_packet (seqNum : UInt8) (data other : Bytes) :
    (AckPacket.new seqNum data).intoBytes ≠ (NoAckPacket.new other).intoBytes := by
  intro same
  have sameProtocol : ackpacketByte = noackpacketByte := (List.cons.inj same).1
  exact absurd sameProtocol (by decide)

theorem ack_packet_data {first second : UInt8} {firstData secondData : Bytes}
    (same : (AckPacket.new first firstData).intoBytes =
      (AckPacket.new second secondData).intoBytes) : firstData = secondData := by
  have contents := List.append_inj_left' same rfl
  exact List.append_inj_right contents rfl

theorem ack_packet_seq_num {first second : UInt8} {firstData secondData : Bytes}
    (same : (AckPacket.new first firstData).intoBytes =
      (AckPacket.new second secondData).intoBytes) : first = second :=
  (List.cons.inj (List.cons.inj same).2).1

/-- The body the three parsers share. `fields` takes the bytes before the checksum apart. -/
def tryFromChecked {Packet : Type} (admits : Nat → Bool) (protocolByte : UInt8) (name : String)
    (mismatch : UInt16 → UInt16 → String) (fields : Bytes → UInt16 → Outcome Packet)
    (value : Bytes) : Outcome (Except String Packet) :=
  if admits value.length then do
    let first ← index value 0
    if first = protocolByte then do
      let (value, tail) ← splitOff value (← checkedSub value.length 2)
      let checksum ← fromLeSlice tail
      if calculateCrc value = checksum then do
        let packet ← fields value checksum
        return .ok packet
      else
        return .error (mismatch (calculateCrc value) checksum)
    else
      return .error s!"Invalid protocol byte {value.length} for {name}!"
  else
    return .error s!"Invalid length {value.length} for {name}!"

def describeMismatch (expected actual : UInt16) : String :=
  s!"Invalid checksum! Expected: {upperHex 4 expected.toNat}, actual: {upperHex 4 actual.toNat}."

def AckPacket.fields (value : Bytes) (checksum : UInt16) : Outcome AckPacket := do
  let (protocol, seqNum) ← splitOff value 1
  let protocol ← index protocol 0
  let (seqNum, data) ← splitOff seqNum 1
  let seqNum ← index seqNum 0
  return ⟨protocol, seqNum, data, checksum⟩

def Ack.fields (value : Bytes) (checksum : UInt16) : Outcome Ack := do
  let (protocol, seqNum) ← splitOff value 1
  let protocol ← index protocol 0
  let seqNum ← index seqNum 0
  return ⟨protocol, seqNum, checksum⟩

def NoAckPacket.fields (value : Bytes) (checksum : UInt16) : Outcome NoAckPacket := do
  let (protocol, data) ← splitOff value 1
  let protocol ← index protocol 0
  return ⟨protocol, data, checksum⟩

def AckPacket.tryFrom : Bytes → Outcome (Except String AckPacket) :=
  tryFromChecked (fun length => decide (length ≥ 5)) ackpacketByte "AckPacket" describeMismatch
    AckPacket.fields

def Ack.tryFrom : Bytes → Outcome (Except String Ack) :=
  tryFromChecked (fun length => decide (length = 4)) ackByte "Ack" describeMismatch Ack.fields

def NoAckPacket.tryFrom : Bytes → Outcome (Except String NoAckPacket) :=
  tryFromChecked (fun length => decide (length ≥ 4)) noackpacketByte "NoAckPacket"
    (fun _ _ => "Invalid checksum!") NoAckPacket.fields

section Shared

variable {Packet : Type} {admits : Nat → Bool} {protocolByte : UInt8} {name : String}
  {mismatch : UInt16 → UInt16 → String} {fields : Bytes → UInt16 → Outcome Packet}

theorem try_from_refused {value : Bytes} (refused : admits value.length = false) :
    tryFromChecked admits protocolByte name mismatch fields value =
      returned (.error s!"Invalid length {value.length} for {name}!") := by
  rw [tryFromChecked, refused]
  rfl

theorem try_from_framed (first : UInt8) (body : Bytes) (low high : UInt8)
    (admitted : admits (body.length + 3) = true) :
    tryFromChecked admits protocolByte name mismatch fields ((first :: body) ++ [low, high]) =
      if first = protocolByte then
        if calculateCrc (first :: body) = fromLeBytes low high then
          fields (first :: body) (fromLeBytes low high) >>= fun packet => returned (.ok packet)
        else
          returned (.error (mismatch (calculateCrc (first :: body)) (fromLeBytes low high)))
      else returned (.error s!"Invalid protocol byte {body.length + 3} for {name}!") := by
  have length : ((first :: body) ++ [low, high]).length = body.length + 3 := by simp
  have subtraction : checkedSub (body.length + 3) 2 = returned (first :: body).length := by
    rw [checked_sub_of_le (by omega)]
    rfl
  rw [tryFromChecked, length, admitted, if_pos rfl, subtraction, List.cons_append,
    index_zero_cons, returned_bind, returned_bind, ← List.cons_append, split_off_append]
  rfl

theorem exists_framed (value : Bytes) (long : 3 ≤ value.length) :
    ∃ first body low high, value = (first :: body) ++ [low, high] := by
  obtain ⟨first, rest, rfl⟩ := List.exists_cons_of_length_pos (show 0 < value.length by omega)
  have restLong : 2 ≤ rest.length := by simpa using long
  have two : (rest.drop (rest.length - 2)).length = 2 := by
    rw [List.length_drop]
    omega
  obtain ⟨low, high, tail⟩ := List.length_eq_two.mp two
  refine ⟨first, rest.take (rest.length - 2), low, high, ?_⟩
  rw [List.cons_append, ← tail, List.take_append_drop]

/-- No input makes a parser panic, as long as its fields can be taken from every admitted body. -/
theorem try_from_returns (long : ∀ length, admits length = true → 3 ≤ length)
    (total : ∀ first body checksum, admits (body.length + 3) = true →
      (fields (first :: body) checksum).Returns)
    (value : Bytes) :
    (tryFromChecked admits protocolByte name mismatch fields value).Returns := by
  by_cases admitted : admits value.length = true
  · obtain ⟨first, body, low, high, rfl⟩ := exists_framed value (long _ admitted)
    have bodyAdmitted : admits (body.length + 3) = true := by simpa using admitted
    rw [try_from_framed first body low high bodyAdmitted]
    split_ifs
    · obtain ⟨packet, taken⟩ := total first body (fromLeBytes low high) bodyAdmitted
      rw [taken, returned_bind]
      exact returned_returns _
    · exact returned_returns _
    · exact returned_returns _
  · rw [try_from_refused (Bool.eq_false_iff.mpr admitted)]
    exact returned_returns _

/-- A parser accepts exactly its protocol byte, a body of an admitted length, and the
little-endian checksum of the two. -/
theorem try_from_ok_iff (long : ∀ length, admits length = true → 3 ≤ length)
    (value : Bytes) (packet : Packet) :
    tryFromChecked admits protocolByte name mismatch fields value = returned (.ok packet) ↔
      ∃ body, admits (body.length + 3) = true ∧
        value = (protocolByte :: body) ++ toLeBytes (calculateCrc (protocolByte :: body)) ∧
        fields (protocolByte :: body) (calculateCrc (protocolByte :: body)) = returned packet := by
  constructor
  · intro accepted
    have admitted : admits value.length = true := by
      by_contra refused
      rw [try_from_refused (Bool.eq_false_iff.mpr refused)] at accepted
      cases accepted
    obtain ⟨first, body, low, high, rfl⟩ := exists_framed value (long _ admitted)
    have bodyAdmitted : admits (body.length + 3) = true := by simpa using admitted
    rw [try_from_framed first body low high bodyAdmitted] at accepted
    split_ifs at accepted with protocol checksum
    · subst protocol
      obtain ⟨parsed, taken, same⟩ := bind_eq_returned.mp accepted
      cases same
      exact ⟨body, bodyAdmitted, by rw [checksum, to_le_from_le], by rw [checksum, taken]⟩
    · cases accepted
    · cases accepted
  · intro ⟨body, bodyAdmitted, encoded, taken⟩
    obtain ⟨low, high, bytes⟩ :
        ∃ low high, toLeBytes (calculateCrc (protocolByte :: body)) = [low, high] := ⟨_, _, rfl⟩
    have checksum : calculateCrc (protocolByte :: body) = fromLeBytes low high := by
      have read := from_le_to_le (calculateCrc (protocolByte :: body))
      rw [bytes] at read
      exact (Outcome.returned.inj read).symm
    rw [encoded, bytes, try_from_framed protocolByte body low high bodyAdmitted, if_pos rfl,
      if_pos checksum, ← checksum, taken, returned_bind]

end Shared

theorem rejected_of_no_packet {Packet : Type} {outcome : Outcome (Except String Packet)}
    (returns : outcome.Returns) (none : ∀ packet, outcome ≠ returned (.ok packet)) :
    ∃ message, outcome = returned (.error message) := by
  obtain ⟨result, same⟩ := returns
  cases result with
  | ok packet => exact absurd same (none packet)
  | error message => exact ⟨message, same⟩

theorem ack_packet_fields (protocol seqNum : UInt8) (data : Bytes) (checksum : UInt16) :
    AckPacket.fields (protocol :: seqNum :: data) checksum =
      returned ⟨protocol, seqNum, data, checksum⟩ := by
  simp only [AckPacket.fields, split_off_one, returned_bind, index_zero_cons, pure_eq]

theorem ack_fields (protocol seqNum : UInt8) (checksum : UInt16) :
    Ack.fields [protocol, seqNum] checksum = returned ⟨protocol, seqNum, checksum⟩ := rfl

theorem no_ack_packet_fields (protocol : UInt8) (data : Bytes) (checksum : UInt16) :
    NoAckPacket.fields (protocol :: data) checksum = returned ⟨protocol, data, checksum⟩ := by
  simp only [NoAckPacket.fields, split_off_one, returned_bind, index_zero_cons, pure_eq]

theorem ack_packet_try_from_returns (value : Bytes) : (AckPacket.tryFrom value).Returns := by
  apply try_from_returns
  · intro length admitted
    have long : 5 ≤ length := of_decide_eq_true admitted
    omega
  · intro first body checksum admitted
    have long : 5 ≤ body.length + 3 := of_decide_eq_true admitted
    obtain ⟨seqNum, data, rfl⟩ := List.exists_cons_of_length_pos (show 0 < body.length by omega)
    rw [ack_packet_fields]
    exact returned_returns _

theorem ack_try_from_returns (value : Bytes) : (Ack.tryFrom value).Returns := by
  apply try_from_returns
  · intro length admitted
    have four : length = 4 := of_decide_eq_true admitted
    omega
  · intro first body checksum admitted
    have four : body.length + 3 = 4 := of_decide_eq_true admitted
    obtain ⟨seqNum, rfl⟩ := List.length_eq_one_iff.mp (show body.length = 1 by omega)
    exact returned_returns _

theorem no_ack_packet_try_from_returns (value : Bytes) : (NoAckPacket.tryFrom value).Returns := by
  apply try_from_returns
  · intro length admitted
    have long : 4 ≤ length := of_decide_eq_true admitted
    omega
  · intro first body checksum _
    rw [no_ack_packet_fields]
    exact returned_returns _

theorem ack_packet_try_from_ok (value : Bytes) (packet : AckPacket) :
    AckPacket.tryFrom value = returned (.ok packet) ↔
      ∃ seqNum data, data ≠ [] ∧ value = (AckPacket.new seqNum data).intoBytes ∧
        packet = AckPacket.new seqNum data := by
  have accepts := @try_from_ok_iff AckPacket (fun length => decide (length ≥ 5)) ackpacketByte
    "AckPacket" describeMismatch AckPacket.fields
    (fun length admitted => by have long : 5 ≤ length := of_decide_eq_true admitted; omega)
    value packet
  refine accepts.trans ⟨?_, ?_⟩
  · intro ⟨body, admitted, encoded, taken⟩
    have long : 5 ≤ body.length + 3 := of_decide_eq_true admitted
    obtain ⟨seqNum, data, rfl⟩ := List.exists_cons_of_length_pos (show 0 < body.length by omega)
    rw [ack_packet_fields] at taken
    cases taken
    refine ⟨seqNum, data, ?_, encoded, rfl⟩
    rintro rfl
    simp at long
  · intro ⟨seqNum, data, nonempty, encoded, same⟩
    have positive := List.length_pos_iff.mpr nonempty
    refine ⟨seqNum :: data, decide_eq_true (by simp only [List.length_cons]; omega), encoded, ?_⟩
    rw [ack_packet_fields, same]
    rfl

theorem ack_try_from_ok (value : Bytes) (packet : Ack) :
    Ack.tryFrom value = returned (.ok packet) ↔
      ∃ seqNum, value = (Ack.new seqNum).intoBytes ∧ packet = Ack.new seqNum := by
  have accepts := @try_from_ok_iff Ack (fun length => decide (length = 4)) ackByte
    "Ack" describeMismatch Ack.fields
    (fun length admitted => by have four : length = 4 := of_decide_eq_true admitted; omega)
    value packet
  refine accepts.trans ⟨?_, ?_⟩
  · intro ⟨body, admitted, encoded, taken⟩
    have four : body.length + 3 = 4 := of_decide_eq_true admitted
    obtain ⟨seqNum, rfl⟩ := List.length_eq_one_iff.mp (show body.length = 1 by omega)
    rw [ack_fields] at taken
    cases taken
    exact ⟨seqNum, encoded, rfl⟩
  · intro ⟨seqNum, encoded, same⟩
    refine ⟨[seqNum], rfl, encoded, ?_⟩
    rw [ack_fields, same]
    rfl

theorem no_ack_packet_try_from_ok (value : Bytes) (packet : NoAckPacket) :
    NoAckPacket.tryFrom value = returned (.ok packet) ↔
      ∃ data, data ≠ [] ∧ value = (NoAckPacket.new data).intoBytes ∧
        packet = NoAckPacket.new data := by
  have accepts := @try_from_ok_iff NoAckPacket (fun length => decide (length ≥ 4)) noackpacketByte
    "NoAckPacket" (fun _ _ => "Invalid checksum!") NoAckPacket.fields
    (fun length admitted => by have long : 4 ≤ length := of_decide_eq_true admitted; omega)
    value packet
  refine accepts.trans ⟨?_, ?_⟩
  · intro ⟨data, admitted, encoded, taken⟩
    have long : 4 ≤ data.length + 3 := of_decide_eq_true admitted
    rw [no_ack_packet_fields] at taken
    cases taken
    refine ⟨data, List.length_pos_iff.mp (by omega), encoded, rfl⟩
  · intro ⟨data, nonempty, encoded, same⟩
    have positive := List.length_pos_iff.mpr nonempty
    refine ⟨data, decide_eq_true (by omega), encoded, ?_⟩
    rw [no_ack_packet_fields, same]
    rfl

/-- Each parser accepts exactly what its constructor and encoder produce from admissible
contents, returns that packet, and panics on no input. -/
theorem parsers_accept_exactly_encodings (value : Bytes) :
    ((AckPacket.tryFrom value).Returns ∧
      ∀ packet, AckPacket.tryFrom value = returned (.ok packet) ↔
        ∃ seqNum data, data ≠ [] ∧ value = (AckPacket.new seqNum data).intoBytes ∧
          packet = AckPacket.new seqNum data) ∧
    ((Ack.tryFrom value).Returns ∧
      ∀ packet, Ack.tryFrom value = returned (.ok packet) ↔
        ∃ seqNum, value = (Ack.new seqNum).intoBytes ∧ packet = Ack.new seqNum) ∧
    ((NoAckPacket.tryFrom value).Returns ∧
      ∀ packet, NoAckPacket.tryFrom value = returned (.ok packet) ↔
        ∃ data, data ≠ [] ∧ value = (NoAckPacket.new data).intoBytes ∧
          packet = NoAckPacket.new data) :=
  ⟨⟨ack_packet_try_from_returns value, ack_packet_try_from_ok value⟩,
    ⟨ack_try_from_returns value, ack_try_from_ok value⟩,
    ⟨no_ack_packet_try_from_returns value, no_ack_packet_try_from_ok value⟩⟩

end MoteConnection.SerialPackets
