import MoteConnection.ForwarderStream

/-!
# The streams of the serial-forwarder transport

What the write thread puts on its streams, one connection after another. Each
stream is the greeting and the frames of what was taken from the queue for it,
up to where a write failed, so that the peers hear the data of the users in
order and at most once. Shutting a stream down, cloning it and spawning a thread
succeed in all runs of the transport.
-/

namespace MoteConnection.ForwarderSessions

open LabeledRuns LengthPrefix SegmentedInput
open MoteConnection.Runtime MoteConnection.ForwarderTransport MoteConnection.ForwarderStream

set_option autoImplicit false

def queuedData (queue : List (Event Bytes × Option Nat)) : List Bytes :=
  dataOf (queue.map Prod.fst)

theorem queued_data_append (first second : List (Event Bytes × Option Nat)) :
    queuedData (first ++ second) = queuedData first ++ queuedData second := by
  rw [queuedData, List.map_append, data_of_append]
  rfl

/-- A transport with its history: the streams of the connections it had before, all data put in
its queue, and what was taken of it before the current connection, for its stream, and after. -/
structure Books where
  forwarder : Forwarder
  streams : List Bytes
  enqueued : List Bytes
  before : List Bytes
  taken : List Bytes
  dropped : List Bytes

namespace Books

def fresh : Books := ⟨.fresh, [], [], [], [], []⟩

def follow (books : Books) (label : Label) (next : Forwarder) : Books :=
  match label with
  | .userData data => { books with forwarder := next, enqueued := books.enqueued ++ [data] }
  | .connect _ =>
      { books with
        forwarder := next
        streams := books.streams ++ [books.forwarder.stream]
        before := books.before ++ books.taken ++ books.dropped
        taken := []
        dropped := [] }
  | .receive =>
      { books with
        forwarder := next
        taken := books.taken ++ queuedData (books.forwarder.queue.take 1) }
  | .drain =>
      { books with
        forwarder := next
        dropped := books.dropped ++ queuedData (books.forwarder.queue.take 1) }
  | _ => { books with forwarder := next }

def step (books : Books) (label : Label) : Option Books :=
  (books.forwarder.step label).map (books.follow label)

end Books

def greeting : Bytes := [protocolByte, versionByte]

def framed (packets : List Bytes) : Bytes := (packets.filter fits).flatMap frame

/-- What a client of this protocol hands up that gets the stream from its server. -/
def heard (stream : Bytes) : List Bytes := delivered (session .closed true [stream])

section Hearing

theorem framed_append (first second : List Bytes) :
    framed (first ++ second) = framed first ++ framed second := by
  rw [framed, List.filter_append, List.flatMap_append]
  rfl

theorem delivered_emitted (packets : List Bytes) :
    delivered (.ok (emitted packets ++ [.loopbackTx .disconnected])) =
      packets.filter fun packet => !packet.isEmpty := by
  rw [delivered, List.filterMap_append, emitted, List.filterMap_map]
  simp

theorem heard_of_splits {stream rest : Bytes} {packets : List Bytes}
    (splits : Splits stream packets rest) :
    heard (greeting ++ stream) = packets.filter fun packet => !packet.isEmpty := by
  let segmentation : Segmentation (greeting ++ stream) :=
    ⟨[greeting ++ stream], List.append_nil _, by simp [greeting]⟩
  have whole : WholeGreeting segmentation :=
    ⟨greeting ++ stream, [], rfl, by simp [greeting]⟩
  have acceptable : Acceptable (greeting ++ stream) true := ⟨List.prefix_append _ _, rfl⟩
  have succeeded := (do_handshake_ok_iff .closed true segmentation).1.mpr ⟨acceptable, whole⟩
  have behind : (greeting ++ stream).drop 2 = stream := rfl
  rw [← behind] at splits
  have handedUp := delivered_after_success splits succeeded
  rw [heard, ← delivered_emitted, ← handedUp]

theorem bounded_of_fits {packets : List Bytes} :
    ∀ packet ∈ packets.filter fits, packet.length ≤ 255 := by
  intro packet member
  exact of_decide_eq_true (List.mem_filter.mp member).2

def audible (packets : List Bytes) : List Bytes :=
  packets.filter fun packet => decide (1 ≤ packet.length ∧ packet.length ≤ 255)

theorem audible_fitting (packets : List Bytes) :
    (packets.filter fits).filter (fun packet => !packet.isEmpty) = audible packets := by
  rw [List.filter_filter]
  apply List.filter_congr
  intro packet _
  cases packet with
  | nil => rfl
  | cons byte bytes => simp [fits]

theorem heard_framed (packets : List Bytes) :
    heard (greeting ++ framed packets) = audible packets := by
  rw [framed, heard_of_splits (splits_of_packets bounded_of_fits), audible_fitting]

/-- A stream that breaks off within the frames of some packets is heard as the first of them. -/
theorem heard_of_beginning {rest : Bytes} {packets : List Bytes} (early : rest <+: framed packets) :
    heard (greeting ++ rest) <+: audible packets := by
  obtain ⟨received, left, splits⟩ := splits_exists rest
  rw [heard_of_splits splits, ← audible_fitting]
  exact (Splits.of_beginning bounded_of_fits early splits).filter _

end Hearing

/-- What is on a stream, by the place of the write thread. -/
def Streamed (taken : List Bytes) (stream : Bytes) : Position → Prop
  | .handshaking => taken = [] ∧ stream = []
  | .serving => stream = greeting ++ framed taken
  | .writing bytes => ∃ earlier data, taken = earlier ++ [data] ∧ framed [data] = bytes ∧
      stream = greeting ++ framed earlier
  | _ => stream = [] ∨ ∃ rest, stream = greeting ++ rest ∧ rest <+: framed taken

def Over : Position → Prop
  | .handshaking | .serving | .writing _ => False
  | _ => True

variable {taken : List Bytes} {stream : Bytes} {position : Position}

theorem streamed_over (passed : Over position)
    (broken : stream = [] ∨ ∃ rest, stream = greeting ++ rest ∧ rest <+: framed taken) :
    Streamed taken stream position := by
  cases position with
  | handshaking | serving | writing bytes => exact passed.elim
  | connecting | shuttingDown | announcing | joining | draining | finished | panicked message =>
      exact broken

theorem Streamed.broken (streamed : Streamed taken stream position) :
    stream = [] ∨ ∃ rest, stream = greeting ++ rest ∧ rest <+: framed taken := by
  cases position with
  | handshaking => exact .inl streamed.2
  | serving => exact .inr ⟨framed taken, streamed, List.prefix_rfl⟩
  | writing bytes =>
      obtain ⟨earlier, data, rfl, _, written⟩ := streamed
      rw [framed_append]
      exact .inr ⟨framed earlier, written, List.prefix_append _ _⟩
  | connecting | shuttingDown | announcing | joining | draining | finished | panicked message =>
      exact streamed

theorem framed_one (data : Bytes) :
    framed [data] =
      match writeToStream data with
      | .ok bytes => bytes
      | .error _ => [] := by
  by_cases bounded : data.length ≤ 255
  · simp [framed, writeToStream, fits, bounded, frame]
  · simp [framed, writeToStream, fits, bounded]

theorem Streamed.heard (streamed : Streamed taken stream position) :
    (ForwarderSessions.heard stream).Sublist taken := by
  rcases streamed.broken with rfl | ⟨rest, rfl, early⟩
  · exact List.nil_sublist _
  · exact (heard_of_beginning early).sublist.trans List.filter_sublist

structure Kept (books : Books) : Prop where
  queue : books.enqueued = books.before ++ books.taken ++ books.dropped ++
    queuedData books.forwarder.queue
  serving : ¬ Over books.forwarder.position → books.dropped = []
  streams : (books.streams.flatMap heard).Sublist books.before
  stream : Streamed books.taken books.forwarder.stream books.forwarder.position

theorem kept_fresh : Kept .fresh where
  queue := rfl
  serving := fun _ => rfl
  streams := List.Sublist.refl []
  stream := .inl rfl

section Step

variable {books next : Books}

theorem forwarder_of_step {label : Label} (taken : books.step label = some next) :
    books.forwarder.step label = some next.forwarder := by
  obtain ⟨forwarder, moved, rfl⟩ := Option.map_eq_some_iff.mp taken
  rw [moved]
  unfold Books.follow
  split <;> rfl

theorem Kept.heard (kept : Kept books) :
    ((books.streams ++ [books.forwarder.stream]).flatMap ForwarderSessions.heard).Sublist
      books.enqueued := by
  rw [List.flatMap_append, List.flatMap_singleton, kept.queue, List.append_assoc]
  exact (kept.streams.append kept.stream.heard).trans (List.sublist_append_left _ _)

theorem Kept.while_serving (kept : Kept books) (place : books.forwarder.position = .serving) :
    books.dropped = [] ∧ books.forwarder.stream = greeting ++ framed books.taken ∧
      ForwarderSessions.heard books.forwarder.stream = audible books.taken := by
  have stream := kept.stream
  rw [place] at stream
  refine ⟨kept.serving (by rw [place]; exact id), stream, ?_⟩
  rw [stream, heard_framed]

theorem Kept.moved (kept : Kept books) {forwarder : Forwarder}
    (queue : queuedData forwarder.queue = queuedData books.forwarder.queue)
    (serving : ¬ Over forwarder.position → books.dropped = [])
    (stream : Streamed books.taken forwarder.stream forwarder.position) :
    Kept { books with forwarder := forwarder } :=
  { kept with
    queue := by rw [queue]; exact kept.queue
    serving := serving
    stream := stream }

/-- What follows a connection takes nothing and writes nothing. -/
theorem Kept.passed (kept : Kept books) {forwarder : Forwarder}
    (queue : forwarder.queue = books.forwarder.queue)
    (stream : forwarder.stream = books.forwarder.stream) (passed : Over forwarder.position) :
    Kept { books with forwarder := forwarder } := by
  apply kept.moved (congrArg queuedData queue) (fun serving => absurd passed serving)
  rw [stream]
  exact streamed_over passed kept.stream.broken

theorem taken_and_left {event : Event Bytes} {poster : Option Nat}
    {rest : List (Event Bytes × Option Nat)}
    (queue : books.forwarder.queue = (event, poster) :: rest) :
    queuedData books.forwarder.queue =
      queuedData (books.forwarder.queue.take 1) ++ queuedData rest := by
  rw [queue, ← queued_data_append]
  rfl

theorem Kept.connected (kept : Kept books) {forwarder : Forwarder}
    (queue : forwarder.queue = books.forwarder.queue)
    (stream : Streamed [] forwarder.stream forwarder.position) :
    Kept { books with
      forwarder := forwarder
      streams := books.streams ++ [books.forwarder.stream]
      before := books.before ++ books.taken ++ books.dropped
      taken := []
      dropped := [] } where
  queue := by
    rw [queue]
    simpa using kept.queue
  serving := fun _ => rfl
  streams := by
    rw [List.flatMap_append, List.flatMap_singleton]
    exact (kept.streams.append kept.stream.heard).trans (List.sublist_append_left _ _)
  stream := stream

theorem Kept.receive (kept : Kept books) {event : Event Bytes} {poster : Option Nat}
    {rest : List (Event Bytes × Option Nat)} (place : books.forwarder.position = .serving)
    (queue : books.forwarder.queue = (event, poster) :: rest) :
    Kept { books with
      forwarder := { books.forwarder with queue := rest }.serve event poster
      taken := books.taken ++ queuedData (books.forwarder.queue.take 1) } := by
  have nothing := kept.serving (by rw [place]; exact id)
  have stream := kept.stream
  rw [place] at stream
  constructor
  · rw [serve_queue, kept.queue, taken_and_left queue, nothing]
    simp only [List.append_nil, List.append_assoc]
  · exact fun _ => nothing
  · exact kept.streams
  · rw [queue]
    have broken : Streamed books.taken books.forwarder.stream .shuttingDown :=
      Streamed.broken stream
    unfold Forwarder.serve
    split
    · rename_i data
      have one := framed_one data
      split
      · rename_i bytes fitting
        rw [fitting] at one
        exact ⟨books.taken, data, rfl, one, stream⟩
      · rename_i message refused
        rw [refused] at one
        show Streamed (books.taken ++ [data]) books.forwarder.stream books.forwarder.position
        rw [place]
        show books.forwarder.stream = greeting ++ framed (books.taken ++ [data])
        rw [framed_append, one, List.append_nil]
        exact stream
    · rw [← List.append_nil books.taken] at broken
      exact broken
    · rw [← List.append_nil books.taken] at broken
      exact broken
    · rename_i noData _ _
      have silent : queuedData (List.take 1 ((event, poster) :: rest)) = [] := by
        cases event with
        | data data => exact (noData data rfl).elim
        | disconnected | connected | stop | error => rfl
      rw [silent, List.append_nil]
      exact broken

theorem Kept.drain (kept : Kept books) {event : Event Bytes} {poster : Option Nat}
    {rest : List (Event Bytes × Option Nat)} (place : books.forwarder.position = .draining)
    (queue : books.forwarder.queue = (event, poster) :: rest) :
    Kept { books with
      forwarder := { books.forwarder with queue := rest }.drop event
      dropped := books.dropped ++ queuedData (books.forwarder.queue.take 1) } where
  queue := by
    rw [drop_queue, kept.queue, taken_and_left queue]
    simp only [List.append_assoc]
  serving := by
    intro serving
    exfalso
    apply serving
    unfold Forwarder.drop
    split
    · trivial
    · show Over books.forwarder.position
      rw [place]
      trivial
    · trivial
  streams := kept.streams
  stream := by
    have broken := kept.stream.broken
    unfold Forwarder.drop
    split
    · exact broken
    · show Streamed books.taken books.forwarder.stream books.forwarder.position
      rw [place]
      exact broken
    · exact broken

theorem kept_step {label : Label} (kept : Kept books)
    (taken : books.step label = some next) : Kept next := by
  obtain ⟨forwarder, moved, same⟩ := Option.map_eq_some_iff.mp taken
  subst same
  cases moved_of_step moved with
  | userData data =>
      exact { kept with
        queue := by
          show books.enqueued ++ [data] = books.before ++ books.taken ++ books.dropped ++
            queuedData (books.forwarder.queue ++ [(.data data, none)])
          rw [queued_data_append, kept.queue, List.append_assoc]
          rfl }
  | userStop =>
      have unchanged : queuedData (books.forwarder.queue ++ [(.stop, none)]) =
          queuedData books.forwarder.queue := by
        rw [queued_data_append]
        exact List.append_nil _
      exact kept.moved unchanged kept.serving kept.stream
  | connected place => exact kept.connected rfl ⟨rfl, rfl⟩
  | connectFails place => exact kept.connected rfl (.inl rfl)
  | established place =>
      have stream := kept.stream
      rw [place] at stream
      have opened : books.forwarder.stream ++ [protocolByte, versionByte] =
          greeting ++ framed books.taken := by
        rw [stream.1, stream.2]
        rfl
      exact kept.moved rfl (fun _ => kept.serving (by rw [place]; exact id)) opened
  | handshakeFails place => exact kept.passed rfl rfl trivial
  | receive event poster rest place queue => exact kept.receive place queue
  | written bytes place =>
      have stream := kept.stream
      rw [place] at stream
      obtain ⟨earlier, data, last, one, before⟩ := stream
      have after : books.forwarder.stream ++ bytes = greeting ++ framed books.taken := by
        rw [before, last, framed_append, one, List.append_assoc]
      exact kept.moved rfl (fun _ => kept.serving (by rw [place]; exact id)) after
  | writeFails bytes count place =>
      have stream := kept.stream
      rw [place] at stream
      obtain ⟨earlier, data, last, one, before⟩ := stream
      have part : framed earlier ++ bytes.take count <+: framed books.taken := by
        rw [last, framed_append, one]
        exact (List.prefix_append_right_inj _).mpr ( List.take_prefix _ _)
      have after : books.forwarder.stream ++ bytes.take count =
          greeting ++ (framed earlier ++ bytes.take count) := by
        rw [before, List.append_assoc]
      exact kept.moved rfl (fun serving => absurd trivial serving) (.inr ⟨_, after, part⟩)
  | shutdown place => exact kept.passed rfl rfl trivial
  | announce place => exact kept.passed rfl rfl trivial
  | finish place stopped => exact kept.passed rfl rfl trivial
  | join place running => exact kept.passed rfl rfl trivial
  | drain event poster rest place queue => exact kept.drain place queue
  | timeUp place => exact kept.passed rfl rfl trivial
  | read | readFails => exact kept.moved rfl kept.serving kept.stream
  | post posting =>
      have unchanged : queuedData (books.forwarder.queue ++
          [(.disconnected, some books.forwarder.session)]) = queuedData books.forwarder.queue := by
        rw [queued_data_append]
        exact List.append_nil _
      exact kept.moved unchanged kept.serving kept.stream

theorem followed {labels : List Label} {forwarder : Forwarder}
    (reached : run Forwarder.step .fresh labels = some forwarder) :
    ∃ books, run Books.step .fresh labels = some books ∧ forwarder = books.forwarder := by
  have simulated (forwarder : Forwarder) (books : Books) (label : Label) (next : Forwarder)
      (same : forwarder = books.forwarder) (taken : forwarder.step label = some next) :
      ∃ after, books.step label = some after ∧ next = after.forwarder := by
    rw [same] at taken
    refine ⟨books.follow label next, Option.map_eq_some_iff.mpr ⟨next, taken, rfl⟩, ?_⟩
    unfold Books.follow
    split <;> rfl
  exact simulated_run simulated rfl reached

end Step

/-- In every run of the serial-forwarder transport, over any number of connections, with connects,
handshakes, reads and writes that fail: what the peers hear, one after another, is a subsequence of
what users have sent. The peer of a connection that is served has everything that was taken for it
and is neither empty nor too long, and the write thread can bring it by itself what else is queued;
what was taken before and between connections is gone. -/
theorem peers_hear_in_order (labels : List Label) (forwarder : Forwarder)
    (reached : run Forwarder.step .fresh labels = some forwarder) :
    ∃ books, run Books.step .fresh labels = some books ∧ forwarder = books.forwarder ∧
      books.enqueued = books.before ++ books.taken ++ books.dropped ++ queuedData forwarder.queue ∧
      ((books.streams ++ [forwarder.stream]).flatMap heard).Sublist books.enqueued ∧
      heard forwarder.stream <+: audible books.taken ∧
      (forwarder.position = .serving → books.dropped = [] ∧
        forwarder.stream = greeting ++ framed books.taken ∧
        heard forwarder.stream = audible books.taken ∧
        ∀ packets rest,
          forwarder.queue = packets.map (fun packet => (.data packet, none)) ++ rest →
          ∃ more next, (∀ label ∈ more, servesOn label = true) ∧
            run Forwarder.step forwarder more = some next ∧ next.queue = rest ∧
            heard next.stream = audible (books.taken ++ packets)) := by
  obtain ⟨books, following, rfl⟩ := followed reached
  have kept : Kept books :=
    invariant_of_run (fun _ _ _ kept taken => kept_step kept taken) kept_fresh following
  refine ⟨books, following, rfl, kept.queue, kept.heard, ?_, ?_⟩
  · rcases kept.stream.broken with same | ⟨rest, same, early⟩
    · rw [same]
      exact List.nil_prefix
    · rw [same]
      exact heard_of_beginning early
  · intro place
    obtain ⟨nothing, stream, hears⟩ := kept.while_serving place
    refine ⟨nothing, stream, hears, ?_⟩
    intro packets rest queue
    obtain ⟨more, own, sent⟩ := forwarder_sends packets place queue
    refine ⟨more, _, own, sent, rfl, ?_⟩
    rw [stream, List.append_assoc, ← heard_framed, framed_append]
    rfl

def twoStreams : List Label :=
  [.connect true, .handshake true, .userData [1, 2], .userData [3], .receive, .write none,
    .read none, .post, .receive, .write none, .receive, .shutdown, .announce, .userData [4],
    .join, .drain, .userData [5, 6], .timeUp, .connect true, .handshake true, .receive,
    .write (some 2)]

theorem two_streams_heard :
    ∃ forwarder books, run Forwarder.step .fresh twoStreams = some forwarder ∧
      run Books.step .fresh twoStreams = some books ∧
      ((books.streams ++ [forwarder.stream]).flatMap heard).Sublist books.enqueued := by
  have enabled : (run Forwarder.step .fresh twoStreams).isSome = true := by
    decide +kernel
  obtain ⟨forwarder, reached⟩ := Option.isSome_iff_exists.mp enabled
  obtain ⟨books, following, _, _, heard, _⟩ := peers_hear_in_order twoStreams forwarder reached
  exact ⟨forwarder, books, reached, following, heard⟩

end MoteConnection.ForwarderSessions
