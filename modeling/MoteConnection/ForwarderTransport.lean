import MoteConnection.Library.LabeledRuns
import MoteConnection.Runtime

/-!
# The serial-forwarder transport

The write thread that `SFBuilder::start` spawns, with its reconnect loop, and
the `TcpWorker` of the session it is in. The queue holds what users send and
the notice that a `TcpWorker` posts when its stream fails. Three places take
from the queue or wait for it to be fed, and only one of them, the
`ConnectionWorker`, knows the notice.

A notice carries the number of the session that posted it, which no step looks
at. Shutting a stream down, cloning it and spawning a thread succeed, and the
receivers of the events that go upward are alive.
-/

namespace MoteConnection.ForwarderTransport

open LabeledRuns
open MoteConnection.Runtime

set_option autoImplicit false

def protocolByte : UInt8 := 0x55
def versionByte : UInt8 := 0x20

/-- Where the write thread stands: in `start`, in `do_handshake`, in `ConnectionWorker::start` from
`serving` to `writing`, and in the loop that drains the queue. -/
inductive Position
  | connecting
  | handshaking
  | serving
  | writing (bytes : Bytes)
  | shuttingDown
  | announcing
  | joining
  | draining
  | finished
  | panicked (message : String)
  deriving DecidableEq, Repr

/-- The read thread that the write thread has still to join. -/
inductive Reader
  | absent
  | reading
  | posting
  | ended
  deriving DecidableEq, Repr

/-- `session` counts the established sessions; `upward` is what was sent on `tcp_tx`, `stream` what
was written to the current stream. `posted` has the session of each notice, and `consumed` the
sessions of the notice and of the `ConnectionWorker` that took it. -/
structure Forwarder where
  position : Position
  stop : Bool
  session : Nat
  reader : Reader
  queue : List (Event Bytes × Option Nat)
  upward : List (Event Bytes)
  stream : Bytes
  stopSent : Bool
  posted : List Nat
  consumed : List (Nat × Nat)
  deriving DecidableEq

def Forwarder.fresh : Forwarder := ⟨.connecting, false, 0, .absent, [], [], [], false, [], []⟩

/-- A failing write leaves some of its bytes on the stream; a failing read is `read none`. -/
inductive Label
  | userData (data : Bytes)
  | userStop
  | connect (accepted : Bool)
  | handshake (accepted : Bool)
  | receive
  | write (failedAfter : Option Nat)
  | shutdown
  | announce
  | join
  | drain
  | timeUp
  | read (result : Option Bytes)
  | post
  deriving DecidableEq, Repr

/-- `write_to_stream` up to the first write; the error is of the kind `InvalidData`. -/
def writeToStream (data : Bytes) : Except String Bytes :=
  if data.length ≤ 255 then .ok ([UInt8.ofNat data.length] ++ data)
  else .error "Packet size must not exceed 255!"

namespace Forwarder

/-- What `ConnectionWorker::start` does with an event. -/
def serve (forwarder : Forwarder) (event : Event Bytes) (poster : Option Nat) : Forwarder :=
  match event with
  | .data data =>
      match writeToStream data with
      | .ok bytes => { forwarder with position := .writing bytes }
      | .error _ => forwarder
  | .disconnected =>
      { forwarder with
        position := .shuttingDown
        consumed := forwarder.consumed ++ poster.toList.map fun posting =>
          (posting, forwarder.session) }
  | .stop => { forwarder with stop := true, position := .shuttingDown }
  | other => { forwarder with position := .panicked s!"Unexpected event {other.debugName}" }

def drop (forwarder : Forwarder) (event : Event Bytes) : Forwarder :=
  match event with
  | .stop => { forwarder with stop := true, position := .finished }
  | .data _ => forwarder
  | other => { forwarder with position := .panicked s!"Unknown message! {other.debugName}" }

def step (forwarder : Forwarder) (label : Label) : Option Forwarder :=
  match label with
  | .userData data =>
      some { forwarder with queue := forwarder.queue ++ [(.data data, none)] }
  | .userStop =>
      if forwarder.stopSent then none
      else some { forwarder with
        queue := forwarder.queue ++ [(.stop, none)]
        stopSent := true }
  | .connect accepted =>
      if forwarder.position = .connecting then
        some { forwarder with
          position := if accepted then .handshaking else .draining
          stream := [] }
      else none
  | .handshake accepted =>
      if forwarder.position = .handshaking then
        if accepted then
          some { forwarder with
            position := .serving
            session := forwarder.session + 1
            reader := .reading
            upward := forwarder.upward ++ [.connected]
            stream := forwarder.stream ++ [protocolByte, versionByte] }
        else
          some { forwarder with
            position := .shuttingDown
            reader := .absent
            upward := forwarder.upward ++ [.disconnected] }
      else none
  | .receive =>
      match forwarder.position, forwarder.queue with
      | .serving, (event, poster) :: rest =>
          some ({ forwarder with queue := rest }.serve event poster)
      | _, _ => none
  | .write failedAfter =>
      match forwarder.position with
      | .writing bytes =>
          match failedAfter with
          | none =>
              some { forwarder with
                position := .serving
                stream := forwarder.stream ++ bytes }
          | some count =>
              some { forwarder with
                position := .shuttingDown
                stream := forwarder.stream ++ bytes.take count }
      | _ => none
  | .shutdown =>
      if forwarder.position = .shuttingDown then some { forwarder with position := .announcing }
      else none
  | .announce =>
      if forwarder.position = .announcing then
        some { forwarder with
          position := .joining
          upward := forwarder.upward ++ [.disconnected] }
      else none
  | .join =>
      if forwarder.position = .joining ∧
          (forwarder.reader = .absent ∨ forwarder.reader = .ended) then
        some { forwarder with
          position := if forwarder.stop then .finished else .draining
          reader := .absent }
      else none
  | .drain =>
      match forwarder.position, forwarder.queue with
      | .draining, (event, _) :: rest => some ({ forwarder with queue := rest }.drop event)
      | _, _ => none
  | .timeUp =>
      if forwarder.position = .draining then some { forwarder with position := .connecting }
      else none
  | .read result =>
      if forwarder.reader = .reading then
        match result with
        | some data =>
            some { forwarder with
              upward := forwarder.upward ++ if data.isEmpty then [] else [.data data] }
        | none => some { forwarder with reader := .posting }
      else none
  | .post =>
      if forwarder.reader = .posting then
        some { forwarder with
          reader := .ended
          queue := forwarder.queue ++ [(.disconnected, some forwarder.session)]
          posted := forwarder.posted ++ [forwarder.session] }
      else none

def WritesSucceed (_ : Forwarder) (label : Label) : Prop :=
  ∀ count, label ≠ .write (some count)

instance (forwarder : Forwarder) : (label : Label) → Decidable (forwarder.WritesSucceed label)
  | .write (some count) => .isFalse fun all => all count rfl
  | .write none => .isTrue fun _ same => by cases same
  | .userData _ | .userStop | .connect _ | .handshake _ | .receive | .shutdown | .announce
  | .join | .drain | .timeUp | .read _ | .post => .isTrue fun _ same => by cases same

/-- No `ConnectionWorker` takes `Stop`. -/
def NotEndedByStop (forwarder : Forwarder) (label : Label) : Prop :=
  label = .receive → forwarder.queue.head? ≠ some (.stop, none)

instance (forwarder : Forwarder) (label : Label) : Decidable (forwarder.NotEndedByStop label) :=
  inferInstanceAs (Decidable (_ → ¬ _))

end Forwarder

section Frame

variable (forwarder : Forwarder) (event : Event Bytes) (poster : Option Nat)

@[simp] theorem serve_queue : (forwarder.serve event poster).queue = forwarder.queue := by
  unfold Forwarder.serve
  split
  · split <;> rfl
  all_goals rfl

@[simp] theorem serve_upward : (forwarder.serve event poster).upward = forwarder.upward := by
  unfold Forwarder.serve
  split
  · split <;> rfl
  all_goals rfl

@[simp] theorem drop_queue : (forwarder.drop event).queue = forwarder.queue := by
  unfold Forwarder.drop
  split <;> rfl

@[simp] theorem drop_upward : (forwarder.drop event).upward = forwarder.upward := by
  unfold Forwarder.drop
  split <;> rfl

end Frame

/-- What one label can do, by the place where it is taken. -/
inductive Moved (forwarder : Forwarder) : Label → Forwarder → Prop
  | userData (data : Bytes) :
      Moved forwarder (.userData data)
        { forwarder with queue := forwarder.queue ++ [(.data data, none)] }
  | userStop :
      Moved forwarder .userStop
        { forwarder with
          queue := forwarder.queue ++ [(.stop, none)]
          stopSent := true }
  | connected (place : forwarder.position = .connecting) :
      Moved forwarder (.connect true)
        { forwarder with
          position := .handshaking
          stream := [] }
  | connectFails (place : forwarder.position = .connecting) :
      Moved forwarder (.connect false)
        { forwarder with
          position := .draining
          stream := [] }
  | established (place : forwarder.position = .handshaking) :
      Moved forwarder (.handshake true)
        { forwarder with
          position := .serving
          session := forwarder.session + 1
          reader := .reading
          upward := forwarder.upward ++ [.connected]
          stream := forwarder.stream ++ [protocolByte, versionByte] }
  | handshakeFails (place : forwarder.position = .handshaking) :
      Moved forwarder (.handshake false)
        { forwarder with
          position := .shuttingDown
          reader := .absent
          upward := forwarder.upward ++ [.disconnected] }
  | receive (event : Event Bytes) (poster : Option Nat) (rest : List (Event Bytes × Option Nat))
      (place : forwarder.position = .serving) (queue : forwarder.queue = (event, poster) :: rest) :
      Moved forwarder .receive ({ forwarder with queue := rest }.serve event poster)
  | written (bytes : Bytes) (place : forwarder.position = .writing bytes) :
      Moved forwarder (.write none)
        { forwarder with
          position := .serving
          stream := forwarder.stream ++ bytes }
  | writeFails (bytes : Bytes) (count : Nat) (place : forwarder.position = .writing bytes) :
      Moved forwarder (.write (some count))
        { forwarder with
          position := .shuttingDown
          stream := forwarder.stream ++ bytes.take count }
  | shutdown (place : forwarder.position = .shuttingDown) :
      Moved forwarder .shutdown { forwarder with position := .announcing }
  | announce (place : forwarder.position = .announcing) :
      Moved forwarder .announce
        { forwarder with
          position := .joining
          upward := forwarder.upward ++ [.disconnected] }
  | finish (place : forwarder.position = .joining) (stopped : forwarder.stop = true) :
      Moved forwarder .join { forwarder with position := .finished, reader := .absent }
  | join (place : forwarder.position = .joining) (running : forwarder.stop = false) :
      Moved forwarder .join { forwarder with position := .draining, reader := .absent }
  | drain (event : Event Bytes) (poster : Option Nat) (rest : List (Event Bytes × Option Nat))
      (place : forwarder.position = .draining)
      (queue : forwarder.queue = (event, poster) :: rest) :
      Moved forwarder .drain ({ forwarder with queue := rest }.drop event)
  | timeUp (place : forwarder.position = .draining) :
      Moved forwarder .timeUp { forwarder with position := .connecting }
  | read (data : Bytes) (reading : forwarder.reader = .reading) :
      Moved forwarder (.read (some data))
        { forwarder with
          upward := forwarder.upward ++ if data.isEmpty then [] else [.data data] }
  | readFails (reading : forwarder.reader = .reading) :
      Moved forwarder (.read none) { forwarder with reader := .posting }
  | post (posting : forwarder.reader = .posting) :
      Moved forwarder .post
        { forwarder with
          reader := .ended
          queue := forwarder.queue ++ [(.disconnected, some forwarder.session)]
          posted := forwarder.posted ++ [forwarder.session] }

theorem moved_of_step {forwarder next : Forwarder} {label : Label}
    (taken : forwarder.step label = some next) : Moved forwarder label next := by
  cases label with
  | userData data =>
      cases taken
      exact .userData data
  | userStop =>
      simp only [Forwarder.step] at taken
      split_ifs at taken
      cases taken
      exact .userStop
  | connect accepted =>
      simp only [Forwarder.step] at taken
      split_ifs at taken with place success
      · cases taken
        rw [success]
        exact .connected place
      · cases taken
        rw [Bool.eq_false_iff.mpr success]
        exact .connectFails place
  | handshake accepted =>
      simp only [Forwarder.step] at taken
      split_ifs at taken with place success
      · cases taken
        rw [success]
        exact .established place
      · cases taken
        rw [Bool.eq_false_iff.mpr success]
        exact .handshakeFails place
  | receive =>
      simp only [Forwarder.step] at taken
      split at taken
      · rename_i event poster rest place queue
        cases taken
        exact .receive event poster rest place queue
      · cases taken
  | write failedAfter =>
      simp only [Forwarder.step] at taken
      split at taken
      · rename_i bytes place
        cases failedAfter with
        | none =>
            cases taken
            exact .written bytes place
        | some count =>
            cases taken
            exact .writeFails bytes count place
      · cases taken
  | shutdown =>
      simp only [Forwarder.step] at taken
      split_ifs at taken with place
      cases taken
      exact .shutdown place
  | announce =>
      simp only [Forwarder.step] at taken
      split_ifs at taken with place
      cases taken
      exact .announce place
  | join =>
      simp only [Forwarder.step] at taken
      split_ifs at taken with place stopped
      · cases taken
        exact .finish place.1 stopped
      · cases taken
        exact .join place.1 (Bool.eq_false_iff.mpr stopped)
  | drain =>
      simp only [Forwarder.step] at taken
      split at taken
      · rename_i event poster rest place queue
        cases taken
        exact .drain event poster rest place queue
      · cases taken
  | timeUp =>
      simp only [Forwarder.step] at taken
      split_ifs at taken with place
      cases taken
      exact .timeUp place
  | read result =>
      simp only [Forwarder.step] at taken
      split_ifs at taken with reading
      cases result with
      | some data =>
          cases taken
          exact .read data reading
      | none =>
          cases taken
          exact .readFails reading
  | post =>
      simp only [Forwarder.step] at taken
      split_ifs at taken with posting
      cases taken
      exact .post posting

def notices (queue : List (Event Bytes × Option Nat)) : List Nat := queue.filterMap (·.2)

def Forwarder.InSession (forwarder : Forwarder) : Prop :=
  forwarder.position = .serving ∨ ∃ bytes, forwarder.position = .writing bytes

/-- `pending` is the invariant proper: only the notice of the current session can be in the queue,
and only while a `ConnectionWorker` is there to take it or after `Stop`. -/
structure ForwarderInv (forwarder : Forwarder) : Prop where
  kinds : ∀ entry ∈ forwarder.queue, (∃ data, entry = (.data data, none)) ∨
    entry = (.stop, none) ∨ ∃ session, entry = (.disconnected, some session)
  alive : ∀ message, forwarder.position ≠ .panicked message
  own : ∀ pair ∈ forwarder.consumed, pair.1 = pair.2
  booked : forwarder.posted = forwarder.consumed.map (·.1) ++ notices forwarder.queue
  pending : notices forwarder.queue = [] ∨
    notices forwarder.queue = [forwarder.session] ∧
      (forwarder.InSession ∨ forwarder.stop = true)
  unread : forwarder.reader = .reading ∨ forwarder.reader = .posting →
    notices forwarder.queue = []
  quiet : ¬ forwarder.InSession → forwarder.stop = false →
    forwarder.reader = .absent ∨ forwarder.reader = .ended
  stopped : forwarder.stop = true → forwarder.position = .shuttingDown ∨
    forwarder.position = .announcing ∨ forwarder.position = .joining ∨
    forwarder.position = .finished

theorem forwarder_inv_fresh : ForwarderInv .fresh where
  kinds := by
    intro entry member
    cases member
  alive := by
    intro message same
    cases same
  own := by
    intro pair member
    cases member
  booked := rfl
  pending := .inl rfl
  unread := fun _ => rfl
  quiet := fun _ _ => .inl rfl
  stopped := by
    intro same
    cases same

theorem notices_append (queue : List (Event Bytes × Option Nat)) (event : Event Bytes)
    (poster : Option Nat) :
    notices (queue ++ [(event, poster)]) = notices queue ++ poster.toList := by
  rw [notices, List.filterMap_append]
  cases poster <;> rfl

variable {forwarder : Forwarder}

theorem ForwarderInv.running (inv : ForwarderInv forwarder)
    (place : forwarder.position = .connecting ∨ forwarder.position = .handshaking ∨
      forwarder.InSession ∨ forwarder.position = .draining) : forwarder.stop = false := by
  rw [Bool.eq_false_iff]
  intro stopped
  rcases inv.stopped stopped with same | same | same | same <;>
    simp [Forwarder.InSession, same] at place

/-- Outside a session that `Stop` has not ended, no notice is in the queue. -/
theorem ForwarderInv.no_notices (inv : ForwarderInv forwarder)
    (outside : ¬ forwarder.InSession) (running : forwarder.stop = false) :
    notices forwarder.queue = [] := by
  rcases inv.pending with none | ⟨_, inside | stopped⟩
  · exact none
  · exact absurd inside outside
  · rw [running] at stopped
    cases stopped

theorem ForwarderInv.sent (inv : ForwarderInv forwarder) {event : Event Bytes}
    (kind : (∃ data, event = .data data) ∨ event = .stop) (stopSent : Bool) :
    ForwarderInv { forwarder with
      queue := forwarder.queue ++ [(event, none)]
      stopSent := stopSent } := by
  have same : notices (forwarder.queue ++ [(event, none)]) = notices forwarder.queue := by
    rw [notices_append]
    exact List.append_nil _
  exact { inv with
    kinds := by
      intro entry member
      rcases List.mem_append.mp member with before | new
      · exact inv.kinds entry before
      · rw [List.mem_singleton] at new
        rcases kind with ⟨data, isData⟩ | isStop
        · exact .inl ⟨data, by rw [new, isData]⟩
        · exact .inr (.inl (by rw [new, isStop]))
    booked := by
      rw [same]
      exact inv.booked
    pending := by
      rw [same]
      exact inv.pending
    unread := by
      rw [same]
      exact inv.unread }

theorem ForwarderInv.kinds_tail (inv : ForwarderInv forwarder)
    {head : Event Bytes × Option Nat} {rest : List (Event Bytes × Option Nat)}
    (queue : forwarder.queue = head :: rest) :
    ∀ entry ∈ rest, (∃ data, entry = (.data data, none)) ∨
      entry = (.stop, none) ∨ ∃ session, entry = (.disconnected, some session) :=
  fun entry member => inv.kinds entry ((of_tail queue).2 entry member)

theorem ForwarderInv.kinds_head (inv : ForwarderInv forwarder)
    {head : Event Bytes × Option Nat} {rest : List (Event Bytes × Option Nat)}
    (queue : forwarder.queue = head :: rest) :
    (∃ data, head = (.data data, none)) ∨
      head = (.stop, none) ∨ ∃ session, head = (.disconnected, some session) :=
  inv.kinds head (of_tail queue).1

theorem ForwarderInv.taken (inv : ForwarderInv forwarder) {event : Event Bytes}
    {rest : List (Event Bytes × Option Nat)} (queue : forwarder.queue = (event, none) :: rest) :
    ForwarderInv { forwarder with queue := rest } := by
  have same : notices forwarder.queue = notices rest := by
    rw [queue]
    rfl
  exact { inv with
    kinds := inv.kinds_tail queue
    booked := by
      rw [← same]
      exact inv.booked
    pending := by
      rw [← same]
      exact inv.pending
    unread := by
      rw [← same]
      exact inv.unread }

theorem not_in_session {position : Position} (place : forwarder.position = position)
    (other : position ≠ .serving ∧ ∀ bytes, position ≠ .writing bytes) :
    ¬ forwarder.InSession := by
  rintro (same | ⟨bytes, same⟩)
  · exact other.1 (place.symm.trans same)
  · exact other.2 bytes (place.symm.trans same)

theorem ForwarderInv.moved (inv : ForwarderInv forwarder) (outside : ¬ forwarder.InSession)
    {position : Position} {reader : Reader} (alive : ∀ message, position ≠ .panicked message)
    (kept : reader = .absent ∨ reader = forwarder.reader)
    (stopped : forwarder.stop = true → position = .shuttingDown ∨ position = .announcing ∨
      position = .joining ∨ position = .finished) (upward : List (Event Bytes)) (stream : Bytes) :
    ForwarderInv { forwarder with
      position := position
      reader := reader
      upward := upward
      stream := stream } :=
  { inv with
    alive := alive
    pending := inv.pending.imp_right fun ⟨same, taker⟩ =>
      ⟨same, .inr (taker.resolve_left outside)⟩
    unread := by
      intro unread
      rcases kept with absent | same
      · rw [absent] at unread
        rcases unread with other | other <;> cases other
      · rw [same] at unread
        exact inv.unread unread
    quiet := by
      intro _ running
      rcases kept with absent | same
      · exact .inl absent
      · have settled := inv.quiet outside running
        rw [← same] at settled
        exact settled
    stopped := stopped }

theorem ForwarderInv.receive (inv : ForwarderInv forwarder)
    (place : forwarder.position = .serving) {event : Event Bytes} {poster : Option Nat}
    {rest : List (Event Bytes × Option Nat)} (queue : forwarder.queue = (event, poster) :: rest) :
    ForwarderInv ({ forwarder with queue := rest }.serve event poster) := by
  have running : forwarder.stop = false := inv.running (.inr (.inr (.inl (.inl place))))
  rcases inv.kinds_head queue with ⟨data, same⟩ | same | ⟨session, same⟩
  · cases same
    have left := inv.taken queue
    simp only [Forwarder.serve, writeToStream]
    by_cases short : data.length ≤ 255
    · rw [if_pos short]
      exact { left with
        alive := by
          intro message other
          cases other
        pending := left.pending.imp_right fun ⟨own, _⟩ => ⟨own, .inl (.inr ⟨_, rfl⟩)⟩
        quiet := fun outside => absurd (.inr ⟨_, rfl⟩) outside
        stopped := by
          intro stopped
          exact absurd stopped (Bool.eq_false_iff.mp running) }
    · rw [if_neg short]
      exact left
  · cases same
    have left := inv.taken queue
    exact { left with
      alive := by
        intro message other
        cases other
      pending := left.pending.imp_right fun ⟨own, _⟩ => ⟨own, .inr rfl⟩
      quiet := by
        intro _ stopped
        cases stopped
      stopped := fun _ => .inl rfl }
  · cases same
    have before : notices forwarder.queue = session :: notices rest := by
      rw [queue]
      rfl
    -- The notice is the only one in the queue, and its session's reader is the one that posted it.
    have only : session = forwarder.session ∧ notices rest = [] := by
      rcases inv.pending with none | ⟨own, _⟩
      · rw [before] at none
        cases none
      · rw [before] at own
        exact List.cons.inj own
    have settled : forwarder.reader = .absent ∨ forwarder.reader = .ended := by
      have unread := inv.unread
      rw [before] at unread
      cases reader : forwarder.reader with
      | absent => exact .inl rfl
      | ended => exact .inr rfl
      | reading => cases unread (.inl reader)
      | posting => cases unread (.inr reader)
    exact { inv with
      kinds := inv.kinds_tail queue
      alive := by
        intro message other
        cases other
      own := by
        intro pair member
        rcases List.mem_append.mp member with before | new
        · exact inv.own pair before
        · rw [List.mem_singleton.mp new]
          exact only.1
      booked := by
        have booked := inv.booked
        rw [before] at booked
        simp only [Forwarder.serve, booked, Option.toList_some, List.map_cons, List.map_nil,
          List.map_append, List.append_assoc, List.singleton_append]
      pending := .inl only.2
      unread := fun _ => only.2
      quiet := fun _ _ => settled
      stopped := by
        intro stopped
        exact absurd stopped (Bool.eq_false_iff.mp running) }

theorem ForwarderInv.drain (inv : ForwarderInv forwarder)
    (place : forwarder.position = .draining) {event : Event Bytes} {poster : Option Nat}
    {rest : List (Event Bytes × Option Nat)} (queue : forwarder.queue = (event, poster) :: rest) :
    ForwarderInv ({ forwarder with queue := rest }.drop event) := by
  have outside : ¬ forwarder.InSession := not_in_session place (by simp)
  have running : forwarder.stop = false := inv.running (.inr (.inr (.inr place)))
  have none := inv.no_notices outside running
  rcases inv.kinds_head queue with ⟨data, same⟩ | same | ⟨session, same⟩
  · cases same
    exact inv.taken queue
  · cases same
    have left := inv.taken queue
    exact { left with
      alive := by
        intro message other
        cases other
      pending := left.pending.imp_right fun ⟨own, _⟩ => ⟨own, .inr rfl⟩
      quiet := by
        intro _ stopped
        cases stopped
      stopped := fun _ => .inr (.inr (.inr rfl)) }
  · cases same
    rw [queue] at none
    cases none

theorem ForwarderInv.post (inv : ForwarderInv forwarder)
    (reader : forwarder.reader = .posting) :
    ForwarderInv { forwarder with
      reader := .ended
      queue := forwarder.queue ++ [(.disconnected, some forwarder.session)]
      posted := forwarder.posted ++ [forwarder.session] } := by
  have none : notices forwarder.queue = [] := inv.unread (.inr reader)
  have one : notices (forwarder.queue ++ [(.disconnected, some forwarder.session)]) =
      [forwarder.session] := by
    rw [notices_append, none]
    rfl
  -- A thread that waits in `join` or has gone past it has no reader that is posting.
  have taker : forwarder.InSession ∨ forwarder.stop = true := by
    by_contra neither
    rw [not_or, Bool.not_eq_true] at neither
    rcases inv.quiet neither.1 neither.2 with same | same <;>
      (rw [reader] at same; cases same)
  exact { inv with
    kinds := by
      intro entry member
      rcases List.mem_append.mp member with before | new
      · exact inv.kinds entry before
      · exact .inr (.inr ⟨_, List.mem_singleton.mp new⟩)
    booked := by
      rw [one, inv.booked, none, List.append_nil]
    pending := .inr ⟨one, taker⟩
    unread := by
      rintro (same | same) <;> cases same
    quiet := fun _ _ => .inr rfl }

theorem ForwarderInv.established (inv : ForwarderInv forwarder)
    (place : forwarder.position = .handshaking) (upward : List (Event Bytes)) (stream : Bytes) :
    ForwarderInv { forwarder with
      position := .serving
      session := forwarder.session + 1
      reader := .reading
      upward := upward
      stream := stream } := by
  have running := inv.running (.inr (.inl place))
  have none := inv.no_notices (not_in_session place (by simp)) running
  exact { inv with
    alive := by
      intro message other
      cases other
    pending := .inl none
    unread := fun _ => none
    quiet := fun outside => absurd (.inl rfl) outside
    stopped := by
      intro stopped
      exact absurd stopped (Bool.eq_false_iff.mp running) }

theorem ForwarderInv.written (inv : ForwarderInv forwarder) {bytes : Bytes}
    (place : forwarder.position = .writing bytes) (stream : Bytes) :
    ForwarderInv { forwarder with
      position := .serving
      stream := stream } := by
  have running := inv.running (.inr (.inr (.inl (.inr ⟨bytes, place⟩))))
  exact { inv with
    alive := by
      intro message other
      cases other
    pending := inv.pending.imp_right fun ⟨own, _⟩ => ⟨own, .inl (.inl rfl)⟩
    quiet := fun outside => absurd (.inl rfl) outside
    stopped := by
      intro stopped
      exact absurd stopped (Bool.eq_false_iff.mp running) }

theorem ForwarderInv.read (inv : ForwarderInv forwarder) (reading : forwarder.reader = .reading)
    (reader : Reader) (upward : List (Event Bytes)) :
    ForwarderInv { forwarder with
      reader := reader
      upward := upward } :=
  { inv with
    unread := fun _ => inv.unread (.inl reading)
    quiet := by
      intro outside running
      rcases inv.quiet outside running with other | other <;>
        (rw [reading] at other; cases other) }

theorem forwarder_inv_step (forwarder : Forwarder) (label : Label) (next : Forwarder)
    (writesSucceed : forwarder.WritesSucceed label) (inv : ForwarderInv forwarder)
    (taken : forwarder.step label = some next) : ForwarderInv next := by
  cases moved_of_step taken with
  | userData data => exact inv.sent (.inl ⟨data, rfl⟩) forwarder.stopSent
  | userStop => exact inv.sent (.inr rfl) true
  | connected place =>
      have running := inv.running (.inl place)
      exact inv.moved (not_in_session place (by simp)) (by simp) (.inr rfl) (by simp [running]) _ _
  | connectFails place =>
      have running := inv.running (.inl place)
      exact inv.moved (not_in_session place (by simp)) (by simp) (.inr rfl) (by simp [running]) _ _
  | established place => exact inv.established place _ _
  | handshakeFails place =>
      exact inv.moved (not_in_session place (by simp)) (by simp) (.inl rfl) (by simp) _ _
  | receive event poster rest place queue => exact inv.receive place queue
  | written bytes place => exact inv.written place _
  | writeFails bytes count place => exact absurd rfl (writesSucceed count)
  | shutdown place =>
      exact inv.moved (not_in_session place (by simp)) (by simp) (.inr rfl) (by simp) _ _
  | announce place =>
      exact inv.moved (not_in_session place (by simp)) (by simp) (.inr rfl) (by simp) _ _
  | finish place stopped =>
      exact inv.moved (not_in_session place (by simp)) (by simp) (.inl rfl) (by simp) _ _
  | join place running =>
      exact inv.moved (not_in_session place (by simp)) (by simp) (.inl rfl) (by simp [running]) _ _
  | drain event poster rest place queue => exact inv.drain place queue
  | timeUp place =>
      have running := inv.running (.inr (.inr (.inr place)))
      exact inv.moved (not_in_session place (by simp)) (by simp) (.inr rfl) (by simp [running]) _ _
  | read data reading => exact inv.read reading forwarder.reader _
  | readFails reading => exact inv.read reading .posting forwarder.upward
  | post posting => exact inv.post posting

/-- When the loop between two sessions was the one to take `Stop`, nothing is left to be taken. -/
def StoppedBetween (forwarder : Forwarder) : Prop :=
  forwarder.stop = true → forwarder.position = .finished ∧ notices forwarder.queue = [] ∧
    (forwarder.reader = .absent ∨ forwarder.reader = .ended)

theorem stopped_between_step {label : Label} {next : Forwarder} (inv : ForwarderInv forwarder)
    (between : StoppedBetween forwarder) (notEnded : forwarder.NotEndedByStop label)
    (taken : forwarder.step label = some next) : StoppedBetween next := by
  have elsewhere {position : Position} (place : forwarder.position = position)
      (other : position ≠ .finished) : forwarder.stop ≠ true :=
    fun stopped => other (place.symm.trans (between stopped).1)
  have settled {reader : Reader} (same : forwarder.reader = reader)
      (active : reader = .reading ∨ reader = .posting) : forwarder.stop ≠ true := by
    intro stopped
    rcases (between stopped).2.2 with other | other <;> rw [same] at other <;>
      rcases active with rfl | rfl <;> cases other
  cases moved_of_step taken with
  | userData data =>
      intro stopped
      obtain ⟨finished, none, reader⟩ := between stopped
      exact ⟨finished, by rw [notices_append, none]; rfl, reader⟩
  | userStop =>
      intro stopped
      obtain ⟨finished, none, reader⟩ := between stopped
      exact ⟨finished, by rw [notices_append, none]; rfl, reader⟩
  | receive event poster rest place queue =>
      have running := elsewhere place (by simp)
      rcases inv.kinds_head queue with ⟨data, same⟩ | same | ⟨session, same⟩
      · cases same
        simp only [Forwarder.serve]
        split <;> exact fun stopped => absurd stopped running
      · refine absurd ?_ (notEnded rfl)
        rw [queue, same]
        rfl
      · cases same
        exact fun stopped => absurd stopped running
  | drain event poster rest place queue =>
      have running := elsewhere place (by simp)
      have unstopped := Bool.eq_false_iff.mpr running
      have outside : ¬ forwarder.InSession := not_in_session place (by simp)
      have none := inv.no_notices outside unstopped
      rcases inv.kinds_head queue with ⟨data, same⟩ | same | ⟨session, same⟩
      · cases same
        exact fun stopped => absurd stopped running
      · cases same
        rw [queue] at none
        exact fun _ => ⟨rfl, none, inv.quiet outside unstopped⟩
      · cases same
        rw [queue] at none
        cases none
  | connected place | connectFails place | established place | handshakeFails place
  | written _ place | writeFails _ _ place | shutdown place | announce place | finish place _
  | join place _ | timeUp place =>
      exact fun stopped => absurd stopped (elsewhere place (by simp))
  | read data reading => exact fun stopped => absurd stopped (settled reading (.inl rfl))
  | readFails reading => exact fun stopped => absurd stopped (settled reading (.inl rfl))
  | post posting => exact fun stopped => absurd stopped (settled posting (.inr rfl))

/-- A notice that is not in the queue was taken by its own session. -/
theorem ForwarderInv.consumed (inv : ForwarderInv forwarder) {session : Nat}
    (posted : session ∈ forwarder.posted) (gone : session ∉ notices forwarder.queue) :
    (session, session) ∈ forwarder.consumed := by
  rw [inv.booked, List.mem_append] at posted
  obtain ⟨⟨poster, taker⟩, member, same⟩ := List.mem_map.mp (posted.resolve_right gone)
  have own := inv.own _ member
  simp only at same own
  rw [← own, same] at member
  exact member

/-- In a run whose stream writes all succeed, no loop meets an event it does not know, and a notice
is only ever taken by the `ConnectionWorker` of the session that posted it. Those of the sessions
before the current one have all been taken, and unless `Stop` has ended the current one, its own has
been too or its `ConnectionWorker` is there to take it. -/
theorem notices_consumed_by_own_session {labels : List Label} {last : Forwarder}
    (writesSucceed : Meets Forwarder.step Forwarder.WritesSucceed .fresh labels)
    (reached : run Forwarder.step .fresh labels = some last) :
    (∀ message, last.position ≠ .panicked message) ∧
      (∀ pair ∈ last.consumed, pair.1 = pair.2) ∧
      (∀ session ∈ last.posted, session ≠ last.session → (session, session) ∈ last.consumed) ∧
      (Meets Forwarder.step Forwarder.NotEndedByStop .fresh labels → ∀ session ∈ last.posted,
        (session, session) ∈ last.consumed ∨ session = last.session ∧ last.InSession) := by
  have inv : ForwarderInv last :=
    invariant_of_meets forwarder_inv_step writesSucceed forwarder_inv_fresh reached
  refine ⟨inv.alive, inv.own, ?_, ?_⟩
  · intro session posted earlier
    apply inv.consumed posted
    rcases inv.pending with none | ⟨own, _⟩
    · rw [none]
      exact List.not_mem_nil
    · rw [own]
      exact fun member => earlier (List.mem_singleton.mp member)
  · intro notEnded session posted
    have both : ForwarderInv last ∧ StoppedBetween last := by
      apply invariant_of_meets _ (meets_and writesSucceed notEnded)
        ⟨forwarder_inv_fresh, fun stopped => by cases stopped⟩ reached
      intro forwarder label next condition invs taken
      exact ⟨forwarder_inv_step forwarder label next condition.1 invs.1 taken,
        stopped_between_step invs.1 invs.2 condition.2 taken⟩
    by_cases waiting : session ∈ notices last.queue
    · rcases inv.pending with none | ⟨own, inside | stopped⟩
      · rw [none] at waiting
        cases waiting
      · rw [own] at waiting
        exact .inr ⟨List.mem_singleton.mp waiting, inside⟩
      · rw [(both.2 stopped).2.1] at waiting
        cases waiting
    · exact .inl (inv.consumed posted waiting)

/-- A session whose stream fails, and the one after it, which `Stop` ends. -/
def twoSessions : List Label :=
  [.connect true, .handshake true, .userData [0x2A], .read none, .receive, .write none, .post,
    .receive, .shutdown, .announce, .join, .timeUp, .connect true, .handshake true,
    .userStop, .receive, .read none, .post, .shutdown, .announce, .join]

-- The session that `Stop` ends leaves its notice where it is.
example : (run Forwarder.step .fresh twoSessions).map (fun last => (last.posted, last.consumed)) =
    some ([1, 2], [(1, 1)]) := by
  decide

def twoNotices : List Label :=
  [.connect true, .handshake true, .read none, .post, .receive, .shutdown, .announce, .join,
    .timeUp, .connect true, .handshake true, .read none, .post]

theorem two_sessions_consume_own_notices :
    ∃ last, run Forwarder.step .fresh twoNotices = some last ∧
      last.position = .serving ∧ last.posted = [1, 2] ∧ last.consumed = [(1, 1)] ∧
      (∀ message, last.position ≠ .panicked message) ∧
      (∀ pair ∈ last.consumed, pair.1 = pair.2) ∧
      (∀ session ∈ last.posted, session ≠ last.session → (session, session) ∈ last.consumed) ∧
      ∀ session ∈ last.posted,
        (session, session) ∈ last.consumed ∨ session = last.session ∧ last.InSession := by
  have writesSucceed : Meets Forwarder.step Forwarder.WritesSucceed .fresh twoNotices := by decide
  have notEnded : Meets Forwarder.step Forwarder.NotEndedByStop .fresh twoNotices := by decide
  have reached : run Forwarder.step .fresh twoNotices = some _ := rfl
  obtain ⟨alive, own, earlier, all⟩ := notices_consumed_by_own_session writesSucceed reached
  exact ⟨_, reached, rfl, rfl, rfl, alive, own, earlier, all notEnded⟩

/-- After a failed write the notice that the same session's read thread posts is met by the loop
that drains the queue, or by the `ConnectionWorker` of the next session. -/
theorem failed_write_panics :
    ¬ ∀ labels last, run Forwarder.step .fresh labels = some last →
      (∀ message, last.position ≠ .panicked message) ∧
        ∀ pair ∈ last.consumed, pair.1 = pair.2 := by
  intro all
  have reached : run Forwarder.step .fresh
      [.connect true, .handshake true, .userData [0x2A], .receive, .write (some 0), .read none,
        .post, .shutdown, .announce, .join, .drain] = some _ := rfl
  exact (all _ _ reached).1 _ rfl

example : (run Forwarder.step .fresh
    [.connect true, .handshake true, .userData [0x2A], .receive, .write (some 1), .read none,
      .post, .shutdown, .announce, .join, .timeUp, .connect true, .handshake true,
      .receive]).map (·.consumed) = some [(1, 2)] := by
  decide

end MoteConnection.ForwarderTransport
