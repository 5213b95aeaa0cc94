import MoteConnection.Library.FlagStuffing
import MoteConnection.Library.StreamTransducer
import MoteConnection.Runtime

/-!
# The HDLC codec

`HdlcCodec` as `hdlc.rs` has it: a decoder that keeps its state between calls,
and an encoder. The decoder is a transducer on bytes, so the cut of the stream
into calls is invisible; between two flags it emits exactly what the encoder
would have framed that way.
-/

namespace MoteConnection.HdlcFraming

open FlagStuffing StreamTransducer
open MoteConnection.Runtime

set_option autoImplicit false

def frameByte : UInt8 := 0x7E
def escapeByte : UInt8 := 0x7D
def escapedFrameByte : UInt8 := 0x5E
def escapedEscapeByte : UInt8 := 0x5D
def maskByte : UInt8 := 0x20

structure HdlcCodec where
  decoded : Option Bytes
  escaped : Bool
  deriving DecidableEq, Repr

/-- `HdlcCodec::default` -/
def HdlcCodec.new : HdlcCodec := ⟨none, false⟩

/-- One turn of the loop in `decode`: the codec after the byte, and what is pushed to `result`. -/
def decodeByte (codec : HdlcCodec) (byte : UInt8) : HdlcCodec × List Bytes :=
  if codec.escaped then
    if byte = escapedFrameByte then (⟨codec.decoded.map (· ++ [frameByte]), false⟩, [])
    else if byte = escapedEscapeByte then (⟨codec.decoded.map (· ++ [escapeByte]), false⟩, [])
    else if byte = frameByte then (⟨some [], false⟩, [])
    else (⟨none, false⟩, [])
  else
    if byte = frameByte then
      (⟨some [], false⟩,
        match codec.decoded with
        | some buffer => if buffer.isEmpty then [] else [buffer]
        | none => [])
    else if byte = escapeByte then (⟨codec.decoded, true⟩, [])
    else (⟨codec.decoded.map (· ++ [byte]), false⟩, [])

def HdlcCodec.decode (codec : HdlcCodec) (input : Bytes) : HdlcCodec × List Bytes :=
  input.foldl (fun state byte =>
    ((decodeByte state.1 byte).1, state.2 ++ (decodeByte state.1 byte).2)) (codec, [])

def HdlcCodec.encode (input : Bytes) : Bytes :=
  input.foldl (fun acc byte =>
    if [frameByte, escapeByte].contains byte then acc ++ [escapeByte] ++ [byte ^^^ maskByte]
    else acc ++ [byte]) [frameByte] ++ [frameByte]

def HdlcCodec.decodePieces : HdlcCodec → List Bytes → HdlcCodec × List (List Bytes)
  | codec, [] => (codec, [])
  | codec, piece :: rest =>
      let (next, packets) := codec.decode piece
      let (last, later) := next.decodePieces rest
      (last, packets :: later)

def hdlcStuffing : Stuffing UInt8 where
  flag := frameByte
  escape := escapeByte
  mask := fun byte => byte ^^^ maskByte
  escape_ne_flag := by decide
  mask_flag_ne_flag := by decide
  mask_escape_ne_flag := by decide
  mask_distinct := by decide

theorem encode_eq (input : Bytes) :
    HdlcCodec.encode input = [frameByte] ++ stuff hdlcStuffing input ++ [frameByte] := by
  have folded (acc : Bytes) : input.foldl (fun acc byte =>
      if [frameByte, escapeByte].contains byte then acc ++ [escapeByte] ++ [byte ^^^ maskByte]
      else acc ++ [byte]) acc = acc ++ stuff hdlcStuffing input := by
    induction input generalizing acc with
    | nil => simp [stuff]
    | cons byte rest induction =>
        have symbol : stuffSymbol hdlcStuffing byte =
            if byte = frameByte ∨ byte = escapeByte then [escapeByte, byte ^^^ maskByte]
            else [byte] := rfl
        rw [List.foldl_cons, induction, stuff_cons, symbol]
        by_cases special : byte = frameByte ∨ byte = escapeByte
        · rw [if_pos (by simpa using special), if_pos special]
          simp
        · rw [if_neg (by simpa using special), if_neg special]
          simp
  rw [HdlcCodec.encode, folded]

theorem decode_eq_feed (codec : HdlcCodec) (input : Bytes) :
    codec.decode input = feed decodeByte codec input := by
  rw [HdlcCodec.decode, foldl_eq_feed, List.nil_append]

theorem decode_pieces_eq_feed (codec : HdlcCodec) (pieces : List Bytes) :
    codec.decodePieces pieces = feedPieces decodeByte codec pieces := by
  induction pieces generalizing codec with
  | nil => rfl
  | cons piece rest induction =>
      simp only [HdlcCodec.decodePieces, feedPieces, decode_eq_feed, induction]

theorem decode_append (codec : HdlcCodec) (first second : Bytes) :
    codec.decode (first ++ second) =
      (((codec.decode first).1.decode second).1,
        (codec.decode first).2 ++ ((codec.decode first).1.decode second).2) := by
  simp only [decode_eq_feed]
  exact feed_append decodeByte codec first second

def HdlcCodec.opened : HdlcCodec := ⟨some [], false⟩

theorem decode_byte_flag (codec : HdlcCodec) : (decodeByte codec frameByte).1 = .opened := by
  obtain ⟨decoded, escaped⟩ := codec
  cases escaped <;> rfl

theorem decode_closed {content : Bytes} (free : frameByte ∉ content) (escaped : Bool) :
    ∃ last, HdlcCodec.decode ⟨none, escaped⟩ content = (⟨none, last⟩, []) := by
  rw [decode_eq_feed]
  induction content generalizing escaped with
  | nil => exact ⟨escaped, rfl⟩
  | cons byte rest induction =>
      have unflagged : byte ≠ frameByte := fun same => free (by simp [same])
      have step : ∃ next, decodeByte ⟨none, escaped⟩ byte = (⟨none, next⟩, []) := by
        unfold decodeByte
        cases escaped
        · by_cases escape : byte = escapeByte
          · exact ⟨true, by simp [escape, show escapeByte ≠ frameByte by decide]⟩
          · exact ⟨false, by simp [unflagged, escape]⟩
        · exact ⟨false, by simp [unflagged]⟩
      obtain ⟨next, taken⟩ := step
      obtain ⟨last, later⟩ := induction (fun member => free (List.mem_cons_of_mem _ member)) next
      exact ⟨last, by rw [feed_cons, taken, later]; rfl⟩

theorem decode_content {content : Bytes} (free : frameByte ∉ content) (buffer : Bytes) :
    (∀ payload, unstuff hdlcStuffing content = some payload →
      HdlcCodec.decode ⟨some buffer, false⟩ content = (⟨some (buffer ++ payload), false⟩, [])) ∧
    (unstuff hdlcStuffing content = none →
      ∃ codec, HdlcCodec.decode ⟨some buffer, false⟩ content = (codec, []) ∧
        (codec.decoded = none ∨ codec.escaped = true)) := by
  simp only [decode_eq_feed]
  fun_induction unstuff hdlcStuffing content generalizing buffer with
  | case1 => simp
  | case2 => exact ⟨by simp, fun _ => ⟨⟨some buffer, true⟩, rfl, .inr rfl⟩⟩
  | case3 others induction =>
      have tail := induction (fun member => free (by simp [member])) (buffer ++ [frameByte])
      have step : feed decodeByte ⟨some buffer, false⟩
          (hdlcStuffing.escape :: hdlcStuffing.mask hdlcStuffing.flag :: others) =
          feed decodeByte ⟨some (buffer ++ [frameByte]), false⟩ others := rfl
      rw [step]
      refine ⟨?_, fun none => tail.2 (Option.map_eq_none_iff.mp none)⟩
      intro payload read
      obtain ⟨rest, restRead, rfl⟩ := Option.map_eq_some_iff.mp read
      rw [tail.1 rest restRead, List.append_assoc]
      rfl
  | case4 others _ induction =>
      have tail := induction (fun member => free (by simp [member])) (buffer ++ [escapeByte])
      have step : feed decodeByte ⟨some buffer, false⟩
          (hdlcStuffing.escape :: hdlcStuffing.mask hdlcStuffing.escape :: others) =
          feed decodeByte ⟨some (buffer ++ [escapeByte]), false⟩ others := rfl
      rw [step]
      refine ⟨?_, fun none => tail.2 (Option.map_eq_none_iff.mp none)⟩
      intro payload read
      obtain ⟨rest, restRead, rfl⟩ := Option.map_eq_some_iff.mp read
      rw [tail.1 rest restRead, List.append_assoc]
      rfl
  | case5 masked others notFrame notEscape =>
      refine ⟨by simp, fun _ => ?_⟩
      have unflagged : masked ≠ frameByte := fun same => free (by simp [same])
      have othersFree : frameByte ∉ others := fun member => free (by simp [member])
      obtain ⟨last, later⟩ := decode_closed othersFree false
      rw [decode_eq_feed] at later
      have first : decodeByte ⟨some buffer, false⟩ hdlcStuffing.escape =
          (⟨some buffer, true⟩, []) := rfl
      have second : decodeByte ⟨some buffer, true⟩ masked = (⟨none, false⟩, []) := by
        have noFrame : masked ≠ escapedFrameByte := notFrame
        have noEscape : masked ≠ escapedEscapeByte := notEscape
        simp [decodeByte, noFrame, noEscape, unflagged]
      rw [feed_cons, first, feed_cons, second, later]
      exact ⟨_, rfl, .inl rfl⟩
  | case6 byte rest plain induction =>
      have unflagged : byte ≠ frameByte := fun same => free (by simp [same])
      have unescaped : byte ≠ escapeByte := plain
      have tail := induction (fun member => free (List.mem_cons_of_mem _ member)) (buffer ++ [byte])
      have step : decodeByte ⟨some buffer, false⟩ byte =
          (⟨some (buffer ++ [byte]), false⟩, []) := by
        simp [decodeByte, unflagged, unescaped]
      rw [feed_cons, step]
      refine ⟨?_, fun none => ?_⟩
      · intro payload read
        obtain ⟨others, othersRead, rfl⟩ := Option.map_eq_some_iff.mp read
        rw [tail.1 others othersRead, List.append_assoc]
        rfl
      · obtain ⟨codec, later, closed⟩ := tail.2 (Option.map_eq_none_iff.mp none)
        exact ⟨codec, by rw [later]; rfl, closed⟩

/-- A segment is the framed content of a nonempty payload. -/
def Frames (segment payload : Bytes) : Prop :=
  payload ≠ [] ∧ HdlcCodec.encode payload = [frameByte] ++ segment ++ [frameByte]

theorem frames_iff (segment payload : Bytes) :
    Frames segment payload ↔ payload ≠ [] ∧ stuff hdlcStuffing payload = segment := by
  rw [Frames, encode_eq, List.append_left_inj, List.append_right_inj]

theorem frames_unique {segment first second : Bytes} (left : Frames segment first)
    (right : Frames segment second) : first = second := by
  have leftRead := unstuff_stuff hdlcStuffing first
  have rightRead := unstuff_stuff hdlcStuffing second
  rw [((frames_iff segment first).mp left).2] at leftRead
  rw [((frames_iff segment second).mp right).2, leftRead] at rightRead
  exact Option.some.inj rightRead

open scoped Classical in
noncomputable def framePayload (segment : Bytes) : Option Bytes :=
  if framed : ∃ payload, Frames segment payload then some framed.choose else none

theorem frame_payload_eq_some {segment payload : Bytes} :
    framePayload segment = some payload ↔ Frames segment payload := by
  unfold framePayload
  split_ifs with framed
  · constructor
    · intro same
      cases same
      exact framed.choose_spec
    · intro frames
      rw [frames_unique framed.choose_spec frames]
  · constructor
    · intro same
      cases same
    · intro frames
      exact (framed ⟨payload, frames⟩).elim

theorem frame_payload_eq_none {segment : Bytes} :
    framePayload segment = none ↔ ∀ payload, ¬ Frames segment payload := by
  rw [Option.eq_none_iff_forall_ne_some]
  exact forall_congr' fun payload => not_congr frame_payload_eq_some

theorem decode_segment {segment : Bytes} (free : frameByte ∉ segment) :
    HdlcCodec.opened.decode (segment ++ [frameByte]) =
      (.opened, (framePayload segment).toList) := by
  have closing (codec : HdlcCodec) :
      codec.decode [frameByte] = (.opened, (decodeByte codec frameByte).2) := by
    rw [decode_eq_feed, feed_cons, decode_byte_flag, feed_nil, List.append_nil]
  have ⟨whenRead, whenBroken⟩ := decode_content free []
  rw [decode_append]
  cases read : unstuff hdlcStuffing segment with
  | some payload =>
      have stuffed : stuff hdlcStuffing payload = segment :=
        (unstuff_iff hdlcStuffing free).mp read
      rw [HdlcCodec.opened, whenRead payload read, closing, List.nil_append, List.nil_append]
      cases payload with
      | nil =>
          have none : framePayload segment = none := by
            rw [frame_payload_eq_none]
            intro other frames
            have ⟨nonempty, sameContent⟩ := (frames_iff segment other).mp frames
            have otherRead := unstuff_stuff hdlcStuffing other
            rw [sameContent, read] at otherRead
            exact nonempty (Option.some.inj otherRead).symm
          rw [none]
          rfl
      | cons byte rest =>
          have some : framePayload segment = some (byte :: rest) :=
            frame_payload_eq_some.mpr ((frames_iff segment _).mpr ⟨by simp, stuffed⟩)
          rw [some]
          rfl
  | none =>
      obtain ⟨codec, later, broken⟩ := whenBroken read
      have none : framePayload segment = none := by
        rw [frame_payload_eq_none]
        intro payload frames
        have stuffed := ((frames_iff segment payload).mp frames).2
        rw [(unstuff_iff hdlcStuffing free).mpr stuffed] at read
        cases read
      have silent : (decodeByte codec frameByte).2 = [] := by
        obtain ⟨decoded, escaped⟩ := codec
        rcases broken with noFrame | pending
        · have undecoded : decoded = Option.none := noFrame
          rw [undecoded]
          cases escaped <;> rfl
        · have isEscaped : escaped = true := pending
          rw [isEscaped]
          rfl
      rw [HdlcCodec.opened, later, closing, silent, none]
      rfl

/-- From an open frame, the decoder emits the payloads of the segments to come. -/
theorem decode_opened (stream : Bytes) :
    (HdlcCodec.opened.decode stream).2 =
      (segmentsAfterFlag frameByte stream).filterMap framePayload := by
  rcases unflagged_or_first frameByte stream with free | ⟨segment, rest, split, free⟩
  · rw [segments_after_flag_unflagged frameByte free]
    have ⟨whenRead, whenBroken⟩ := decode_content free []
    cases read : unstuff hdlcStuffing stream with
    | some payload => rw [HdlcCodec.opened, whenRead payload read]; rfl
    | none =>
        obtain ⟨codec, later, _⟩ := whenBroken read
        rw [HdlcCodec.opened, later]
        rfl
  · rw [split, segments_after_flag_first frameByte free, List.filterMap_cons,
      List.append_cons, decode_append, decode_segment free, decode_opened rest]
    cases framePayload segment <;> rfl
termination_by stream.length
decreasing_by
  rw [split, List.length_append, List.length_cons]
  omega

theorem decode_new (stream : Bytes) :
    (HdlcCodec.new.decode stream).2 =
      (segments frameByte stream).filterMap framePayload := by
  rcases unflagged_or_first frameByte stream with free | ⟨front, rest, split, free⟩
  · obtain ⟨last, silent⟩ := decode_closed free false
    rw [segments_unflagged frameByte free, HdlcCodec.new, silent]
    rfl
  · obtain ⟨last, silent⟩ := decode_closed free false
    have opening : HdlcCodec.decode ⟨none, last⟩ [frameByte] = (.opened, []) := by
      cases last <;> rfl
    rw [split, segments_first frameByte free, List.append_cons, decode_append, decode_append,
      HdlcCodec.new, silent, opening, decode_opened]
    rfl

/-- What the next flag makes the codec emit. -/
def HdlcCodec.pending (codec : HdlcCodec) : List Bytes :=
  match codec.escaped, codec.decoded with
  | false, some (first :: rest) => [first :: rest]
  | _, _ => []

theorem decode_flag (codec : HdlcCodec) : codec.decode [frameByte] = (.opened, codec.pending) := by
  obtain ⟨decoded, escaped⟩ := codec
  cases escaped with
  | true => rfl
  | false =>
      cases decoded with
      | none => rfl
      | some buffer => cases buffer <;> rfl

theorem decode_frame_from (codec : HdlcCodec) {payload : Bytes} (nonempty : payload ≠ []) :
    codec.decode (HdlcCodec.encode payload) = (.opened, codec.pending ++ [payload]) := by
  have framed : framePayload (stuff hdlcStuffing payload) = some payload :=
    frame_payload_eq_some.mpr ((frames_iff _ payload).mpr ⟨nonempty, rfl⟩)
  rw [encode_eq, List.append_assoc, decode_append, decode_flag,
    decode_segment (flag_not_mem_stuff hdlcStuffing payload), framed]
  rfl

/-- A whole frame, read where no frame is open or right after one, is its payload. -/
theorem decode_frame {codec : HdlcCodec} (idle : codec = .new ∨ codec = .opened) {payload : Bytes}
    (nonempty : payload ≠ []) :
    codec.decode (HdlcCodec.encode payload) = (.opened, [payload]) := by
  have silent : codec.pending = [] := by
    rcases idle with rfl | rfl <;> rfl
  rw [decode_frame_from codec nonempty, silent]
  rfl

theorem decode_frames (payloads : List Bytes) (nonempty : ∀ payload ∈ payloads, payload ≠ []) :
    HdlcCodec.opened.decode (payloads.flatMap HdlcCodec.encode) = (.opened, payloads) := by
  induction payloads with
  | nil => rfl
  | cons payload rest induction =>
      have later := induction fun other member => nonempty other (List.mem_cons_of_mem _ member)
      rw [List.flatMap_cons, decode_append,
        decode_frame_from .opened (nonempty payload List.mem_cons_self), later]
      rfl

/-- Whatever state earlier noise has left, the frames of nonempty payloads are read back as the
payloads, behind the one buffer that the first flag closes. -/
theorem decode_resynchronises (codec : HdlcCodec) {payloads : List Bytes} (some : payloads ≠ [])
    (nonempty : ∀ payload ∈ payloads, payload ≠ []) :
    codec.decode (payloads.flatMap HdlcCodec.encode) = (.opened, codec.pending ++ payloads) := by
  cases payloads with
  | nil => exact absurd rfl some
  | cons payload rest =>
      have later := decode_frames rest fun other member =>
        nonempty other (List.mem_cons_of_mem _ member)
      rw [List.flatMap_cons, decode_append,
        decode_frame_from codec (nonempty payload List.mem_cons_self), later, List.append_assoc]
      rfl

/-- Half a frame is pending, and the payloads hold both special bytes. -/
theorem half_frame_resynchronised :
    HdlcCodec.decode ⟨some [0x01], false⟩ ([[0x7E, 0x02], [0x7D]].flatMap HdlcCodec.encode) =
      (.opened, [[0x01], [0x7E, 0x02], [0x7D]]) :=
  decode_resynchronises ⟨some [0x01], false⟩ (by decide) (by decide)

/-- For every stream and every cut of it, the calls of `decode` on one fresh codec return, in
order, the payload of each segment between two consecutive flags that frames one; no segment
frames two. -/
theorem decode_accepts_encoder_language (pieces : List Bytes) :
    (∀ segment first second, Frames segment first → Frames segment second → first = second) ∧
    (∀ segment payload, framePayload segment = some payload ↔ Frames segment payload) ∧
    (HdlcCodec.new.decodePieces pieces).2.flatten =
      (segments frameByte pieces.flatten).filterMap framePayload := by
  refine ⟨fun _ _ _ => frames_unique, fun _ _ => frame_payload_eq_some, ?_⟩
  rw [decode_pieces_eq_feed, (feed_pieces_flatten decodeByte HdlcCodec.new pieces).2,
    ← decode_eq_feed, decode_new]

end MoteConnection.HdlcFraming
