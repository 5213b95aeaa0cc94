import MoteConnection.Library.TextFields
import MoteConnection.ActiveMessages

/-!
# Messages as text

`Display` of a message and the line that `amlistener` prints for it. Both have
the fields of the message one after another, and the listener has another form
for metadata of two bytes. Neither prints the stated length, which is that of
the payload wherever the message was parsed.
-/

namespace MoteConnection.MessageText

open TextFields
open MoteConnection.Runtime MoteConnection.ActiveMessages
open Outcome

set_option autoImplicit false

/-- `{:>width$}` -/
def alignRight (width : Nat) (text : String) : String :=
  String.ofList (List.replicate (width - text.toList.length) ' ') ++ text

/-- The fold with `format!("{}{:02X}", string, byte)`. -/
def hexOf (bytes : Bytes) : String :=
  bytes.foldl (fun string byte => string ++ upperHex 2 byte.toNat) ""

def heading (message : Message) : String :=
  "\x7b" ++ upperHex 2 message.group.toNat ++ "\x7d" ++ upperHex 4 message.src.toNat ++ "->" ++
    upperHex 4 message.dest.toNat ++ "[" ++ upperHex 2 message.id.toNat ++ "]"

/-- `{{{:02X}}}{:04X}->{:04X}[{:02X}]{:>3}: {} {}` -/
def formatted (message : Message) (payload metadata : String) : String :=
  heading message ++ alignRight 3 (toString message.payload.length) ++ ": " ++ payload ++ " " ++
    metadata

def Message.fmt (message : Message) : String :=
  formatted message (hexOf message.payload) (hexOf message.metadata)

/-- `u8::from_be_bytes` and `i8::from_be_bytes` of the two bytes, or the bytes. -/
def metadataText (metadata : Bytes) : String :=
  match metadata with
  | [first, second] => upperHex 2 first.toNat ++ ":" ++ toString second.toInt8.toInt
  | _ => hexOf metadata

def listenerText (message : Message) : String :=
  formatted message (hexOf message.payload) (metadataText message.metadata)

section Numbers

def hexDigit (symbol : Char) : Nat :=
  if symbol.isDigit then symbol.toNat - 48 else symbol.toNat - 55

theorem hex_digits : ∀ value < 16, hexDigit (Nat.digitChar value).toUpper = value := by
  decide

theorem upper_hex_list (width value : Nat) :
    (upperHex width value).toList =
      List.replicate (width - (Nat.toDigits 16 value).length) '0' ++
        (Nat.toDigits 16 value).map Char.toUpper := by
  rw [upperHex, String.toList_ofList, List.length_map]

theorem upper_hex_injective {width first second : Nat}
    (same : (upperHex width first).toList = (upperHex width second).toList) :
    first = second := by
  rw [upper_hex_list, upper_hex_list] at same
  exact numeral_injective (by omega) hex_digits (by decide) same

theorem upper_hex_length {width value : Nat}
    (atMost : (Nat.toDigits 16 value).length ≤ width) :
    (upperHex width value).toList.length = width := by
  rw [upper_hex_list, List.length_append, List.length_replicate, List.length_map]
  omega

theorem upper_hex_plain {width value : Nat} {symbol : Char}
    (member : symbol ∈ (upperHex width value).toList) :
    symbol ≠ ' ' ∧ symbol ≠ ':' := by
  have digits : ∀ value < 16, (Nat.digitChar value).toUpper ≠ ' ' ∧
      (Nat.digitChar value).toUpper ≠ ':' := by
    decide
  rw [upper_hex_list] at member
  rcases List.mem_append.mp member with zero | digit
  · rw [List.eq_of_mem_replicate zero]
    decide
  · obtain ⟨plain, inDigits, same⟩ := List.mem_map.mp digit
    obtain ⟨value, small, isDigit⟩ := digit_of_mem (by omega) inDigits
    rw [← same, isDigit]
    exact digits value small

theorem byte_text_length (byte : UInt8) : (upperHex 2 byte.toNat).toList.length = 2 :=
  upper_hex_length ((Nat.length_toDigits_le_iff (by omega) (by omega)).mpr byte.toNat_lt)

theorem word_text_length (word : UInt16) : (upperHex 4 word.toNat).toList.length = 4 :=
  upper_hex_length ((Nat.length_toDigits_le_iff (by omega) (by omega)).mpr word.toNat_lt)

theorem byte_text_injective {first second : UInt8}
    (same : (upperHex 2 first.toNat).toList = (upperHex 2 second.toNat).toList) :
    first = second := UInt8.toNat_inj.mp (upper_hex_injective same)

theorem word_text_injective {first second : UInt16}
    (same : (upperHex 4 first.toNat).toList = (upperHex 4 second.toNat).toList) :
    first = second := UInt16.toNat_inj.mp (upper_hex_injective same)

end Numbers

section Bytes

theorem hex_of_list (bytes : Bytes) :
    (hexOf bytes).toList = bytes.flatMap fun byte => (upperHex 2 byte.toNat).toList := by
  have general (bytes : Bytes) (text : String) :
      (bytes.foldl (fun string byte => string ++ upperHex 2 byte.toNat) text).toList =
        text.toList ++ bytes.flatMap fun byte => (upperHex 2 byte.toNat).toList := by
    induction bytes generalizing text with
    | nil => simp
    | cons byte rest induction =>
        rw [List.foldl_cons, induction, String.toList_append, List.flatMap_cons,
          List.append_assoc]
  rw [hexOf, general]
  simp

theorem hex_of_injective {first second : Bytes}
    (same : (hexOf first).toList = (hexOf second).toList) : first = second := by
  rw [hex_of_list, hex_of_list] at same
  exact blocks_injective (by omega) byte_text_length (fun _ _ => byte_text_injective) same

theorem hex_of_plain {bytes : Bytes} {symbol : Char} (member : symbol ∈ (hexOf bytes).toList) :
    symbol ≠ ' ' ∧ symbol ≠ ':' := by
  rw [hex_of_list] at member
  obtain ⟨byte, _, inside⟩ := List.mem_flatMap.mp member
  exact upper_hex_plain inside

theorem decimal_list (number : Nat) :
    (toString number).toList = Nat.toDigits 10 number := by
  simp [toString, Nat.repr]

theorem decimal_injective {first second : Nat}
    (same : (toString first).toList = (toString second).toList) : first = second := by
  have digits : ∀ value < 10, (id (Nat.digitChar value)).toNat - 48 = value := by
    decide
  rw [decimal_list, decimal_list] at same
  apply @numeral_injective 10 (fun symbol => symbol.toNat - 48) id (by omega) digits '0' (by decide)
    first second 0 0
  simpa using same

theorem decimal_plain {number : Nat} {symbol : Char} (member : symbol ∈ (toString number).toList) :
    symbol ≠ ':' ∧ symbol ≠ '-' := by
  have digits : ∀ value < 10, Nat.digitChar value ≠ ':' ∧ Nat.digitChar value ≠ '-' := by
    decide
  rw [decimal_list] at member
  obtain ⟨value, small, isDigit⟩ := digit_of_mem (by omega) member
  rw [isDigit]
  exact digits value small

theorem integer_injective {first second : Int}
    (same : (toString first).toList = (toString second).toList) : first = second := by
  have signed (number : Nat) :
      (toString (Int.negSucc number)).toList = '-' :: (toString (number + 1)).toList := by
    simp [toString, Int.repr]
  have differs (first second : Nat) :
      (toString (Int.ofNat first)).toList ≠ (toString (Int.negSucc second)).toList := by
    intro same
    rw [signed] at same
    have member : '-' ∈ (toString first).toList := by
      show '-' ∈ (toString (Int.ofNat first)).toList
      rw [same]
      exact List.mem_cons_self
    exact absurd rfl (decimal_plain member).2
  cases first with
  | ofNat first =>
      cases second with
      | ofNat second => exact congrArg Int.ofNat (decimal_injective same)
      | negSucc second => exact absurd same (differs first second)
  | negSucc first =>
      cases second with
      | ofNat second => exact absurd same.symm (differs second first)
      | negSucc second =>
          rw [signed, signed] at same
          have values := decimal_injective (List.cons.inj same).2
          rw [Nat.succ.inj values]

theorem signed_injective {first second : UInt8}
    (same : (toString first.toInt8.toInt).toList = (toString second.toInt8.toInt).toList) :
    first = second := by
  have values := Int8.toInt_inj.mp (integer_injective same)
  rw [← UInt8.toUInt8_toInt8 first, values, UInt8.toUInt8_toInt8]

/-- Bytes without a separator are not taken for two bytes with one. -/
theorem metadata_text_injective {first second : Bytes}
    (same : (metadataText first).toList = (metadataText second).toList) : first = second := by
  have plain {metadata : Bytes} (other : metadata.length ≠ 2) :
      metadataText metadata = hexOf metadata := by
    unfold metadataText
    split
    · exact absurd rfl other
    · rfl
  have separated {metadata : Bytes} (two : metadata.length = 2) :
      ':' ∈ (metadataText metadata).toList := by
    obtain ⟨status, strength, rfl⟩ := List.length_eq_two.mp two
    simp [metadataText]
  by_cases two : first.length = 2
  · by_cases otherTwo : second.length = 2
    · obtain ⟨status, strength, rfl⟩ := List.length_eq_two.mp two
      obtain ⟨otherStatus, otherStrength, rfl⟩ := List.length_eq_two.mp otherTwo
      simp only [metadataText, String.toList_append, List.append_assoc] at same
      obtain ⟨heads, tails⟩ := List.append_inj same (by rw [byte_text_length, byte_text_length])
      rw [byte_text_injective heads, signed_injective (List.append_cancel_left tails)]
    · have inside := separated two
      rw [same, plain otherTwo] at inside
      exact absurd rfl (hex_of_plain inside).2
  · by_cases otherTwo : second.length = 2
    · have inside := separated otherTwo
      rw [← same, plain two] at inside
      exact absurd rfl (hex_of_plain inside).2
    · rw [plain two, plain otherTwo] at same
      exact hex_of_injective same

end Bytes

section Lines

variable {first second : Message}

theorem heading_injective (same : (heading first).toList = (heading second).toList) :
    first.group = second.group ∧ first.src = second.src ∧ first.dest = second.dest ∧
      first.id = second.id := by
  simp only [heading, String.toList_append, List.append_assoc] at same
  have behindBrace := List.append_cancel_left same
  obtain ⟨groups, behindGroup⟩ :=
    List.append_inj behindBrace (by rw [byte_text_length, byte_text_length])
  obtain ⟨sources, behindSource⟩ :=
    List.append_inj (List.append_cancel_left behindGroup)
      (by rw [word_text_length, word_text_length])
  obtain ⟨destinations, behindDestination⟩ :=
    List.append_inj (List.append_cancel_left behindSource)
      (by rw [word_text_length, word_text_length])
  obtain ⟨ids, _⟩ := List.append_inj (List.append_cancel_left behindDestination)
    (by rw [byte_text_length, byte_text_length])
  exact ⟨byte_text_injective groups, word_text_injective sources,
    word_text_injective destinations, byte_text_injective ids⟩

theorem heading_length (message : Message) : (heading message).toList.length = 18 := by
  simp [heading, byte_text_length, word_text_length]

theorem align_right_plain {width number : Nat} :
    ':' ∉ (alignRight width (toString number)).toList := by
  intro member
  rw [alignRight, String.toList_append, String.toList_ofList] at member
  rcases List.mem_append.mp member with space | digit
  · exact absurd (List.eq_of_mem_replicate space) (by decide)
  · exact absurd rfl (decimal_plain digit).1

/-- The length ends at its colon, and the payload at the space behind it. -/
theorem formatted_injective {metadata otherMetadata : String}
    (same : formatted first (hexOf first.payload) metadata =
      formatted second (hexOf second.payload) otherMetadata) :
    (first.group = second.group ∧ first.src = second.src ∧ first.dest = second.dest ∧
      first.id = second.id) ∧ first.payload = second.payload ∧
      metadata.toList = otherMetadata.toList := by
  have lines := congrArg String.toList same
  simp only [formatted, String.toList_append, List.append_assoc] at lines
  obtain ⟨headings, behindHeading⟩ :=
    List.append_inj lines (by rw [heading_length, heading_length])
  obtain ⟨_, behindLength⟩ :=
    delimited_injective align_right_plain align_right_plain behindHeading
  have noSpace (bytes : Bytes) : ' ' ∉ (hexOf bytes).toList :=
    fun member => absurd rfl (hex_of_plain member).1
  obtain ⟨payloads, metadatas⟩ := delimited_injective (noSpace first.payload)
    (noSpace second.payload) (List.cons.inj behindLength).2
  exact ⟨heading_injective headings, hex_of_injective payloads, metadatas⟩

/-- All fields but the stated length. -/
def Message.Alike (first second : Message) : Prop :=
  { second with length := first.length } = first

theorem Message.Alike.of_fields
    (headings : first.group = second.group ∧ first.src = second.src ∧
      first.dest = second.dest ∧ first.id = second.id)
    (payloads : first.payload = second.payload) (metadatas : first.metadata = second.metadata) :
    Message.Alike first second := by
  obtain ⟨groups, sources, destinations, ids⟩ := headings
  rw [Message.Alike, ← groups, ← sources, ← destinations, ← ids, ← payloads, ← metadatas]

theorem fmt_eq_iff : Message.fmt first = Message.fmt second ↔ Message.Alike first second := by
  constructor
  · intro same
    obtain ⟨headings, payloads, metadatas⟩ := formatted_injective same
    exact .of_fields headings payloads (hex_of_injective metadatas)
  · intro alike
    rw [← alike]
    rfl

theorem listener_text_eq_iff :
    listenerText first = listenerText second ↔ Message.Alike first second := by
  constructor
  · intro same
    obtain ⟨headings, payloads, metadatas⟩ := formatted_injective same
    exact .of_fields headings payloads (metadata_text_injective metadatas)
  · intro alike
    rw [← alike]
    rfl

/-- A parsed message states the length of its payload, so nothing else is left open. -/
theorem alike_iff_packets {overflowChecks : Bool} {data other : Bytes}
    (parsed : Message.tryFrom overflowChecks data = returned (.ok first))
    (otherParsed : Message.tryFrom overflowChecks other = returned (.ok second)) :
    Message.Alike first second ↔ data = other := by
  obtain ⟨packet, stated, _⟩ := (try_from_ok overflowChecks data first).mp parsed
  obtain ⟨otherPacket, otherStated, _⟩ := (try_from_ok overflowChecks other second).mp otherParsed
  constructor
  · intro alike
    have unfolded : { second with length := first.length } = first := alike
    have payloads : second.payload = first.payload := by
      rw [← unfolded]
    have lengths : second.length = first.length := by
      rw [← UInt8.toNat_inj, stated, otherStated, payloads]
    rw [packet, otherPacket, ← alike, ← lengths]
  · intro same
    rw [same, otherParsed] at parsed
    cases parsed
    rfl

/-- Two messages are printed as the same line exactly when they agree in everything but the
stated length; the lines of two parsed packets are the same exactly when the packets are, in
both printed forms and both build profiles. -/
theorem printed_lines_tell_packets_apart (overflowChecks : Bool) :
    (∀ first second : Message,
      (Message.fmt first = Message.fmt second ↔ Message.Alike first second) ∧
        (listenerText first = listenerText second ↔ Message.Alike first second)) ∧
    ∀ data other first second,
      Message.tryFrom overflowChecks data = returned (.ok first) →
      Message.tryFrom overflowChecks other = returned (.ok second) →
        (Message.fmt first = Message.fmt second ↔ data = other) ∧
          (listenerText first = listenerText second ↔ data = other) := by
  constructor
  · intro first second
    exact ⟨fmt_eq_iff, listener_text_eq_iff⟩
  · intro data other first second parsed otherParsed
    rw [fmt_eq_iff, listener_text_eq_iff]
    exact ⟨alike_iff_packets parsed otherParsed, alike_iff_packets parsed otherParsed⟩

theorem boundary_is_printed :
    (let packet : Bytes := [0xFF, 0xFF, 0, 1, 1, 0x22, 6, 0x0A, 0x0B]
     let other : Bytes := [0xFF, 0xFF, 0, 1, 2, 0x22, 6, 0x0A, 0x0B]
     ∃ first second, Message.tryFrom true packet = returned (.ok first) ∧
       Message.tryFrom true other = returned (.ok second) ∧
       listenerText first ≠ listenerText second) := by
  refine ⟨⟨0xFFFF, 1, 1, 0x22, 6, [0x0A], [0x0B]⟩, ⟨0xFFFF, 1, 2, 0x22, 6, [0x0A, 0x0B], []⟩,
    by decide, by decide, ?_⟩
  have told := ((printed_lines_tell_packets_apart true).2
    [0xFF, 0xFF, 0, 1, 1, 0x22, 6, 0x0A, 0x0B] [0xFF, 0xFF, 0, 1, 2, 0x22, 6, 0x0A, 0x0B]
    ⟨0xFFFF, 1, 1, 0x22, 6, [0x0A], [0x0B]⟩ ⟨0xFFFF, 1, 2, 0x22, 6, [0x0A, 0x0B], []⟩
    (by decide) (by decide)).2
  exact fun same => absurd (told.mp same) (by decide)

example : listenerText ⟨0xFFFF, 1, 1, 0x22, 6, [0x0A], [0x7F, 0xC4]⟩ =
    "\x7b22\x7d0001->FFFF[06]  1: 0A 7F:-60" := by
  decide +kernel

end Lines

end MoteConnection.MessageText
