import MoteConnection.ConnectionStop

/-!
# What `stop` answers

`Connection::stop` gathers the errors of the stoppers: a `Stop` that cannot be
sent, and a thread that is joined after it panicked. The threads of the workers
are joined by the thread of the connection, which only logs what it finds.
-/

namespace MoteConnection.StopAnswer

open FanOut LabeledRuns
open MoteConnection.Runtime MoteConnection.ConnectionWorkers MoteConnection.ConnectionThreads
open MoteConnection.DroppedConsumer MoteConnection.ConnectionShutdown
open MoteConnection.ConnectionStop

set_option autoImplicit false

variable {Uuid Who : Type}

/-- A connection and the `errors` of its `stop`. -/
structure Stopping (Who : Type) where
  connection : Connection Who
  errors : Bool

namespace Stopping

def fresh : Stopping Who := ⟨.fresh, false⟩

/-- What the stopper that is called or waited for complains of. The transport's thread is joined
only when it could be sent its `Stop`. -/
def complaint (setup : Dispatchers Uuid Who) (stopping : Stopping Who) :
    Label Uuid Who → Option String
  | .stop =>
      if stopping.connection.transport = .running then none
      else some "SFTransport thread already closed!"
  | .transportJoined _ =>
      if stopping.errors = false ∧ Panicked stopping.connection.transport then
        some "Unable to join thread!"
      else none
  | .callStopper =>
      match stopping.connection.phase with
      | .stoppingDispatchers (byte :: _) =>
          if setup.servesAm byte ∧ stopping.connection.am.life ≠ .running then
            some "Dispatcher already stopped!"
          else none
      | _ => none
  | .amJoined =>
      if Panicked stopping.connection.am.life then some "Unable to join the AMDispatcher!"
      else none
  | _ => none

def step [DecidableEq Uuid] [DecidableEq Who] (overflowChecks : Bool)
    (setup : Dispatchers Uuid Who) (stopping : Stopping Who) (label : Label Uuid Who) :
    Option (Stopping Who) :=
  (stopping.connection.step overflowChecks setup label).map fun next =>
    ⟨next, stopping.errors || (stopping.complaint setup label).isSome⟩

def answer (stopping : Stopping Who) : Option (Except String Unit) :=
  if stopping.connection.phase = .stopped then
    some (if stopping.errors then .error "Problems stopping dispatchers!" else .ok ())
  else none

end Stopping

section Order

variable {overflowChecks : Bool} {setup : Dispatchers Uuid Who} {connection next : Connection Who}

def uncalled (setup : Dispatchers Uuid Who) : Phase → List UInt8
  | .running | .stoppingTransport => setup.bytes
  | .stoppingDispatchers order | .joiningDispatcher order => order
  | .signalled | .stopped => []

def PastTransport : Phase → Prop
  | .running | .stoppingTransport => False
  | _ => True

def PastAm (setup : Dispatchers Uuid Who) (phase : Phase) : Prop :=
  0x00 ∉ uncalled setup phase ∧ ∀ rest, phase ≠ .joiningDispatcher rest

theorem am_byte (present : setup.am.isSome = true) : 0x00 ∈ setup.bytes := by
  obtain ⟨worker, found⟩ := Option.isSome_iff_exists.mp present
  obtain ⟨dispatcher, member, serves⟩ := List.exists_of_findSome?_eq_some found
  cases dispatcher with
  | raw byte => cases serves
  | am worker => exact List.mem_map.mpr ⟨.am worker, member, rfl⟩

/-- The ActiveMessage thread ends only for its stopper, which is called once. -/
structure Ordered (setup : Dispatchers Uuid Who) (connection : Connection Who) : Prop where
  distinct : (uncalled setup connection.phase).Nodup
  joined : PastTransport connection.phase → connection.transport ≠ .running
  early : connection.phase = .running → connection.transport ≠ .ended
  pending : 0x00 ∈ uncalled setup connection.phase →
    .stop ∉ connection.amQueue ∧ connection.am.life ≠ .ended
  outbox : ∀ sending ∈ connection.worker.outbox, setup.servesAm sending.1 = true →
    sending.2 ≠ .stop
  absent : setup.am = none → connection.am = ⟨.running, []⟩
  past : setup.am.isSome → PastAm setup connection.phase → connection.am.life ≠ .running

theorem ordered_fresh : Ordered setup (.fresh : Connection Who) where
  distinct := setup.distinct
  joined := False.elim
  early := by simp [Connection.fresh]
  pending := by simp [Connection.fresh]
  outbox := by simp [Connection.fresh]
  absent := fun _ => rfl
  past := fun present returned => absurd (am_byte present) returned.1

theorem Ordered.present (ordered : Ordered setup connection)
    (busy : connection.am ≠ ⟨.running, []⟩) : setup.am.isSome := by
  by_contra missing
  exact busy (ordered.absent (Option.not_isSome_iff_eq_none.mp missing))

theorem Ordered.am_step (ordered : Ordered setup connection) {am : Thread Who _}
    {queue : List (Event Bytes)} {received : Channels Who _}
    (present : setup.am.isSome) (less : ∀ event ∈ queue, event ∈ connection.amQueue)
    (running : connection.am.life = .running)
    (ends : am.life = .ended → .stop ∈ connection.amQueue) :
    Ordered setup { connection with amQueue := queue, am := am, received := received } := by
  refine { ordered with pending := ?_, absent := ?_, past := ?_ }
  · intro uncalled
    obtain ⟨nothing, _⟩ := ordered.pending uncalled
    exact ⟨fun queued => nothing (less _ queued), fun ended => nothing (ends ended)⟩
  · intro missing
    rw [missing] at present
    cases present
  · intro _ returned
    exact absurd running (ordered.past present returned)

theorem Ordered.later (ordered : Ordered setup connection) {phase : Phase}
    {queue : List (Event Bytes)} (distinct : (uncalled setup phase).Nodup)
    (stops : phase ≠ .running)
    (joined : PastTransport phase → connection.transport ≠ .running)
    (fewer : 0x00 ∈ uncalled setup phase → 0x00 ∈ uncalled setup connection.phase)
    (past : setup.am.isSome → PastAm setup phase → connection.am.life ≠ .running) :
    Ordered setup { connection with phase := phase, toTransport := queue } :=
  { ordered with
    distinct := distinct
    joined := joined
    early := fun same => absurd same stops
    pending := fun called => ordered.pending (fewer called)
    past := past }

theorem Ordered.past_stoppers (ordered : Ordered setup connection) {phase : Phase}
    (before : PastTransport connection.phase) (none : uncalled setup connection.phase = [])
    (unjoined : ∀ rest, connection.phase ≠ .joiningDispatcher rest)
    (after : uncalled setup phase = []) (stops : phase ≠ .running) :
    Ordered setup { connection with phase := phase } := by
  apply ordered.later
  · rw [after]
    exact List.nodup_nil
  · exact stops
  · exact fun _ => ordered.joined before
  · rw [after]
    exact fun member => absurd member List.not_mem_nil
  · intro present _
    apply ordered.past present
    rw [PastAm, none]
    exact ⟨List.not_mem_nil, unjoined⟩

variable [DecidableEq Uuid] [DecidableEq Who]

/-- The stopper of a raw dispatcher does nothing, and that of an ActiveMessage thread which has
panicked has nobody to stop. -/
theorem Ordered.called (ordered : Ordered setup connection) {byte : UInt8} {rest : List UInt8}
    (phase : connection.phase = .stoppingDispatchers (byte :: rest))
    (taken : connection.step overflowChecks setup .callStopper =
      some { connection with phase := .stoppingDispatchers rest }) :
    Ordered setup { connection with phase := .stoppingDispatchers rest } := by
  have distinct := ordered.distinct
  have joined := ordered.joined
  have past := ordered.past
  rw [phase] at distinct joined past
  apply ordered.later
  · exact (List.nodup_cons.mp distinct).2
  · simp
  · exact joined
  · rw [phase]
    exact List.mem_cons_of_mem _
  · intro present returned
    by_cases serves : byte = 0x00
    · rcases call_stopper_serves phase taken with ⟨_, _, same⟩ | ⟨refused, _⟩
      · have phases := congrArg Connection.phase same
        cases phases
      · intro running
        exact refused ⟨by simp [Dispatchers.servesAm, serves, present], running⟩
    · have called : 0x00 ∉ uncalled setup (.stoppingDispatchers (byte :: rest)) := by
        simpa [uncalled, Ne.symm serves] using returned.1
      exact past present ⟨called, by simp⟩

theorem Ordered.waiting (ordered : Ordered setup connection) {byte : UInt8} {rest : List UInt8}
    (phase : connection.phase = .stoppingDispatchers (byte :: rest))
    (taken : connection.step overflowChecks setup .callStopper =
      some { connection with
        phase := .joiningDispatcher rest
        amQueue := connection.amQueue ++ [.stop] }) :
    Ordered setup
      { connection with
        phase := .joiningDispatcher rest
        amQueue := connection.amQueue ++ [.stop] } := by
  have distinct := ordered.distinct
  have joined := ordered.joined
  rw [phase] at distinct joined
  obtain ⟨first, nodup⟩ := List.nodup_cons.mp distinct
  rcases call_stopper_serves phase taken with ⟨serves, _, _⟩ | ⟨_, same⟩
  · rw [(serves_am_some serves).1] at first
    exact { ordered with
      distinct := nodup
      joined := joined
      early := fun same => by cases same
      pending := fun uncalled => absurd uncalled first
      past := fun _ returned => absurd rfl (returned.2 rest) }
  · have phases := congrArg Connection.phase same
    cases phases

theorem ordered_step {label : Label Uuid Who} (ordered : Ordered setup connection)
    (taken : connection.step overflowChecks setup label = some next) : Ordered setup next := by
  cases moved_of_step taken with
  | userData | userDrop | transportReceive | dispatcherReceive | dispatcherRefuses
  | dispatcherSend | dispatcherFails | dispatcherHangUp | dispatcherStop => exact { ordered with }
  | transportSend event transport runs => exact { ordered with }
  | transportFails event transport gone =>
      exact { ordered with
        joined := fun _ => by simp [unwrapFailed]
        early := fun _ => by simp [unwrapFailed] }
  | transportPanic message transport =>
      exact { ordered with
        joined := fun _ => by simp
        early := fun _ => by simp }
  | workerReceive order event rest sends idle queue complete handled =>
      refine { ordered with outbox := ?_ }
      intro sending member serves stop
      have part := (sends_for_am (handle_data_routed complete handled) member serves).2
      rw [stop] at part
      exact project_ne_stop setup 0x00 event part
  | workerRefuses | workerFails | workerHangUp | workerStop =>
      exact { ordered with outbox := by simp }
  | workerSend sending rest busy channel =>
      have outbox : connection.worker.outbox = sending :: rest := by rw [busy]
      obtain ⟨first, later⟩ := of_tail outbox
      refine { ordered with
        pending := ?_
        outbox := fun other member => ordered.outbox other (later other member) }
      intro uncalled
      obtain ⟨nothing, unended⟩ := ordered.pending uncalled
      refine ⟨fun queued => ?_, unended⟩
      rcases mem_pass_on queued with earlier | ⟨serves, stop⟩
      · exact nothing earlier
      · exact ordered.outbox sending first serves stop.symm
  | amReceive order worker event rest sends registered idle queue handled =>
      exact ordered.am_step (by simp [registered]) (of_tail queue).2 (by rw [idle])
        (fun ended => by cases ended)
  | amEnds order worker event rest registered idle queue handled =>
      have stop := worker.handle_event_ends handled
      rw [stop] at queue
      exact ordered.am_step (by simp [registered]) (of_tail queue).2 (by rw [idle])
        (fun _ => (of_tail queue).1)
  | amRefuses order worker event rest message registered idle queue refused =>
      exact ordered.am_step (by simp [registered]) (of_tail queue).2 (by rw [idle])
        (fun ended => by cases ended)
  | amSend sending rest busy channel =>
      exact ordered.am_step (ordered.present (by simp [busy])) (fun _ member => member)
        (by rw [busy]) (fun ended => by cases ended)
  | amFails sending rest busy closed =>
      exact ordered.am_step (ordered.present (by simp [busy])) (fun _ member => member)
        (by rw [busy]) (fun ended => by cases ended)
  | stop phase =>
      apply ordered.later
      · exact setup.distinct
      · simp
      · exact False.elim
      · rw [phase]
        exact id
      · intro present returned
        apply ordered.past present
        rw [phase]
        exact ⟨returned.1, by simp⟩
  | transportEnd phase transport =>
      exact { ordered with
        joined := fun _ => by simp
        early := fun same => by rw [phase] at same; cases same }
  | transportJoined order phase gone =>
      have complete := joined_order taken
      apply ordered.later
      · exact complete.nodup_iff.mpr setup.distinct
      · simp
      · exact fun _ => gone
      · rw [phase]
        exact complete.mem_iff.mp
      · intro present returned
        exact absurd (complete.mem_iff.mpr (am_byte present)) returned.1
  | callStopper byte rest phase => exact ordered.called phase taken
  | callAmStopper byte rest phase runs => exact ordered.waiting phase taken
  | amJoined rest phase gone =>
      have distinct := ordered.distinct
      have joined := ordered.joined
      rw [phase] at distinct joined
      apply ordered.later
      · exact distinct
      · simp
      · exact joined
      · rw [phase]
        exact id
      · exact fun _ _ => gone
  | signal phase =>
      apply ordered.past_stoppers <;> simp [phase, uncalled, PastTransport]
  | joined phase gone =>
      apply ordered.past_stoppers <;> simp [phase, uncalled, PastTransport]

end Order

section Answer

variable [DecidableEq Uuid] [DecidableEq Who] {overflowChecks : Bool}
  {setup : Dispatchers Uuid Who} {stopping next : Stopping Who}

theorem not_running_of_panicked {life : Life} (panicked : Panicked life) : life ≠ .running := by
  rintro rfl
  exact panicked

theorem intact_iff {life : Life} (gone : life ≠ .running) : ¬ Panicked life ↔ life = .ended := by
  cases life with
  | running => exact absurd rfl gone
  | ended => simp [Panicked]
  | panicked message => simp [Panicked]

theorem gone_step {connection next : Connection Who} {label : Label Uuid Who}
    (taken : connection.step overflowChecks setup label = some next) :
    (connection.transport ≠ .running → next.transport = connection.transport) ∧
      (connection.am.life ≠ .running → next.am.life = connection.am.life) := by
  cases moved_of_step taken with
  | transportFails event transport gone => exact ⟨fun stays => absurd transport stays, fun _ => rfl⟩
  | transportPanic message transport => exact ⟨fun stays => absurd transport stays, fun _ => rfl⟩
  | transportEnd phase transport => exact ⟨fun stays => absurd transport stays, fun _ => rfl⟩
  | amReceive order worker event rest sends registered idle queue handled =>
      exact ⟨fun _ => rfl, fun stays => absurd (by rw [idle]) stays⟩
  | amEnds order worker event rest registered idle queue handled =>
      exact ⟨fun _ => rfl, fun stays => absurd (by rw [idle]) stays⟩
  | amRefuses order worker event rest message registered idle queue refused =>
      exact ⟨fun _ => rfl, fun stays => absurd (by rw [idle]) stays⟩
  | amSend sending rest busy channel =>
      exact ⟨fun _ => rfl, fun stays => absurd (by rw [busy]) stays⟩
  | amFails sending rest busy closed =>
      exact ⟨fun _ => rfl, fun stays => absurd (by rw [busy]) stays⟩
  | userData | userDrop | transportSend | transportReceive | workerReceive | workerRefuses
  | workerSend | workerFails | workerHangUp | workerStop | dispatcherReceive | dispatcherRefuses
  | dispatcherSend | dispatcherFails | dispatcherHangUp | dispatcherStop | stop
  | transportJoined | callStopper | callAmStopper | amJoined | signal | joined =>
      exact ⟨fun _ => rfl, fun _ => rfl⟩

/-- What comes of the transport is known when its thread has been joined. -/
theorem past_transport_step {connection next : Connection Who} {label : Label Uuid Who}
    (taken : connection.step overflowChecks setup label = some next)
    (past : PastTransport next.phase) :
    PastTransport connection.phase ∨ ∃ order, label = .transportJoined order := by
  cases moved_of_step taken with
  | stop phase => cases past
  | transportJoined order phase gone => exact .inr ⟨order, rfl⟩
  | callStopper byte rest phase => exact .inl (by rw [phase]; trivial)
  | callAmStopper byte rest phase runs => exact .inl (by rw [phase]; trivial)
  | amJoined rest phase gone => exact .inl (by rw [phase]; trivial)
  | signal phase => exact .inl (by rw [phase]; trivial)
  | joined phase gone => exact .inl (by rw [phase]; trivial)
  | userData | userDrop | transportSend | transportFails | transportReceive | transportPanic
  | workerReceive | workerRefuses | workerSend | workerFails | workerHangUp | workerStop
  | amReceive | amEnds | amRefuses | amSend | amFails | dispatcherReceive | dispatcherRefuses
  | dispatcherSend | dispatcherFails | dispatcherHangUp | dispatcherStop | transportEnd =>
      exact .inl past

theorem past_am_step {connection next : Connection Who} {label : Label Uuid Who}
    (present : setup.am.isSome = true)
    (taken : connection.step overflowChecks setup label = some next)
    (past : PastAm setup next.phase) :
    PastAm setup connection.phase ∨
      (label = .callStopper ∧ ∃ rest, connection.phase = .stoppingDispatchers (0x00 :: rest)) ∨
      label = .amJoined := by
  obtain ⟨called, elsewhere⟩ := past
  have first := am_byte present
  cases moved_of_step taken with
  | stop phase => exact absurd first called
  | transportJoined order phase gone =>
      exact absurd ((joined_order taken).mem_iff.mpr first) called
  | callStopper byte rest phase =>
      by_cases serves : byte = 0x00
      · rw [serves] at phase
        exact .inr (.inl ⟨rfl, rest, phase⟩)
      · apply Or.inl
        rw [phase]
        exact ⟨by simpa [uncalled, Ne.symm serves] using called, by simp⟩
  | callAmStopper byte rest phase runs => exact absurd rfl (elsewhere rest)
  | amJoined rest phase gone => exact .inr (.inr rfl)
  | signal phase =>
      apply Or.inl
      rw [phase]
      exact ⟨called, by simp⟩
  | joined phase gone =>
      apply Or.inl
      rw [phase]
      exact ⟨called, by simp⟩
  | userData | userDrop | transportSend | transportFails | transportReceive | transportPanic
  | workerReceive | workerRefuses | workerSend | workerFails | workerHangUp | workerStop
  | amReceive | amEnds | amRefuses | amSend | amFails | dispatcherReceive | dispatcherRefuses
  | dispatcherSend | dispatcherFails | dispatcherHangUp | dispatcherStop | transportEnd =>
      exact .inl ⟨called, elsewhere⟩

/-- A complaint is about a thread that has panicked, and the panic of a thread that `stop` has
joined itself has been noted. -/
structure Noted (setup : Dispatchers Uuid Who) (stopping : Stopping Who) : Prop where
  ordered : Ordered setup stopping.connection
  blamed : stopping.errors = true →
    Panicked stopping.connection.transport ∨ Panicked stopping.connection.am.life
  transport : PastTransport stopping.connection.phase →
    Panicked stopping.connection.transport → stopping.errors = true
  am : PastAm setup stopping.connection.phase →
    Panicked stopping.connection.am.life → stopping.errors = true

omit [DecidableEq Uuid] [DecidableEq Who] in
theorem noted_fresh : Noted setup (.fresh : Stopping Who) where
  ordered := ordered_fresh
  blamed := fun noted => by cases noted
  transport := False.elim
  am := fun _ => False.elim

omit [DecidableEq Uuid] [DecidableEq Who] in
theorem Ordered.panicked_of_gone {connection : Connection Who}
    (ordered : Ordered setup connection) {byte : UInt8} {rest : List UInt8}
    (phase : connection.phase = .stoppingDispatchers (byte :: rest))
    (serves : setup.servesAm byte = true) (gone : connection.am.life ≠ .running) :
    Panicked connection.am.life := by
  have pending := ordered.pending
  rw [phase, (serves_am_some serves).1] at pending
  have unended := (pending List.mem_cons_self).2
  cases life : connection.am.life with
  | running => exact gone life
  | ended => exact unended life
  | panicked message => trivial

theorem Noted.complaint_panicked (noted : Noted setup stopping) {label : Label Uuid Who}
    {connection : Connection Who}
    (taken : stopping.connection.step overflowChecks setup label = some connection)
    (complains : (stopping.complaint setup label).isSome = true) :
    Panicked stopping.connection.transport ∨ Panicked stopping.connection.am.life := by
  cases label with
  | stop =>
      cases moved_of_step taken with
      | stop phase =>
          have unended := noted.ordered.early phase
          simp only [Stopping.complaint] at complains
          apply Or.inl
          cases life : stopping.connection.transport with
          | running => simp [life] at complains
          | ended => exact unended life
          | panicked message => trivial
  | transportJoined order =>
      simp only [Stopping.complaint] at complains
      split_ifs at complains with panicked
      · exact .inl panicked.2
      · cases complains
  | callStopper =>
      simp only [Stopping.complaint] at complains
      split at complains
      · rename_i byte rest phase
        split_ifs at complains with refused
        · exact .inr (noted.ordered.panicked_of_gone phase refused.1 refused.2)
        · cases complains
      · cases complains
  | amJoined =>
      simp only [Stopping.complaint] at complains
      split_ifs at complains with panicked
      · exact .inr panicked
      · cases complains
  | _ => cases complains

theorem noted_step {label : Label Uuid Who} (noted : Noted setup stopping)
    (taken : stopping.step overflowChecks setup label = some next) : Noted setup next := by
  obtain ⟨connection, moved, same⟩ := Option.map_eq_some_iff.mp taken
  obtain ⟨transportStays, amStays⟩ := gone_step moved
  have ordered := ordered_step noted.ordered moved
  have kept (panicked : Panicked stopping.connection.transport ∨
      Panicked stopping.connection.am.life) :
      Panicked connection.transport ∨ Panicked connection.am.life := by
    refine panicked.imp (fun panicked => ?_) (fun panicked => ?_)
    · rwa [transportStays (not_running_of_panicked panicked)]
    · rwa [amStays (not_running_of_panicked panicked)]
  subst same
  constructor
  · exact ordered
  · intro errors
    rcases (Bool.or_eq_true _ _).mp errors with earlier | complains
    · exact kept (noted.blamed earlier)
    · exact kept (noted.complaint_panicked moved complains)
  · intro past panicked
    apply (Bool.or_eq_true _ _).mpr
    rcases past_transport_step moved past with earlier | ⟨order, rfl⟩
    · rw [transportStays (noted.ordered.joined earlier)] at panicked
      exact .inl (noted.transport earlier panicked)
    · cases moved_of_step moved with
      | transportJoined order phase gone =>
          cases errors : stopping.errors with
          | true => exact .inl rfl
          | false =>
              apply Or.inr
              simp only [Stopping.complaint, errors, true_and]
              rw [if_pos panicked]
              rfl
  · intro past panicked
    apply (Bool.or_eq_true _ _).mpr
    have present : setup.am.isSome := by
      apply ordered.present
      intro idle
      rw [idle] at panicked
      exact panicked
    rcases past_am_step present moved past with earlier | ⟨rfl, rest, phase⟩ | rfl
    · have gone := noted.ordered.past present earlier
      rw [amStays gone] at panicked
      exact .inl (noted.am earlier panicked)
    · apply Or.inr
      rcases call_stopper_serves phase moved with ⟨_, _, same⟩ | ⟨refused, same⟩
      · rw [same] at past
        exact absurd rfl (past.2 rest)
      · rw [same] at panicked
        have serves : setup.servesAm 0x00 = true := by simp [Dispatchers.servesAm, present]
        have gone := not_running_of_panicked panicked
        simp only [Stopping.complaint, phase]
        rw [if_pos ⟨serves, gone⟩]
        rfl
    · cases moved_of_step moved with
      | amJoined rest phase gone =>
          apply Or.inr
          simp only [Stopping.complaint]
          rw [if_pos panicked]
          rfl

/-- Whatever the connection does can be watched. -/
theorem watched {labels : List (Label Uuid Who)} {connection : Connection Who}
    (reached : run (Connection.step overflowChecks setup) .fresh labels = some connection) :
    ∃ stopping, run (Stopping.step overflowChecks setup) .fresh labels = some stopping ∧
      connection = stopping.connection := by
  have followed (connection : Connection Who) (stopping : Stopping Who) (label : Label Uuid Who)
      (next : Connection Who) (same : connection = stopping.connection)
      (taken : connection.step overflowChecks setup label = some next) :
      ∃ watching, stopping.step overflowChecks setup label = some watching ∧
        next = watching.connection := by
    rw [same] at taken
    exact ⟨_, Option.map_eq_some_iff.mpr ⟨next, taken, rfl⟩, rfl⟩
  exact simulated_run followed rfl reached

/-- When `stop` has returned, and whatever has happened before or meanwhile: its answer is an error
exactly when the transport's thread or the one of the ActiveMessage dispatcher has panicked. -/
theorem stop_answer (labels : List (Label Uuid Who)) (connection : Connection Who)
    (reached : run (Connection.step overflowChecks setup) .fresh labels = some connection)
    (returned : connection.phase = .stopped) :
    ∃ stopping, run (Stopping.step overflowChecks setup) .fresh labels = some stopping ∧
      connection = stopping.connection ∧
      (stopping.answer = some (.error "Problems stopping dispatchers!") ↔
        Panicked connection.transport ∨ Panicked connection.am.life) ∧
      (stopping.answer = some (.ok ()) ↔
        connection.transport = .ended ∧ (setup.am.isSome → connection.am.life = .ended)) := by
  obtain ⟨stopping, watching, rfl⟩ := watched reached
  have noted : Noted setup stopping :=
    invariant_of_run (fun _ _ _ noted taken => noted_step noted taken) noted_fresh watching
  have transportGone := noted.ordered.joined (by rw [returned]; trivial)
  have past : PastAm setup stopping.connection.phase := by
    rw [returned]
    exact ⟨List.not_mem_nil, by simp⟩
  have blame : stopping.errors = true ↔
      Panicked stopping.connection.transport ∨ Panicked stopping.connection.am.life := by
    refine ⟨noted.blamed, fun panicked => ?_⟩
    rcases panicked with transport | am
    · exact noted.transport (by rw [returned]; trivial) transport
    · exact noted.am past am
  have unharmed : (¬ (Panicked stopping.connection.transport ∨
      Panicked stopping.connection.am.life)) ↔ stopping.connection.transport = .ended ∧
        (setup.am.isSome → stopping.connection.am.life = .ended) := by
    rw [not_or, intact_iff transportGone]
    apply and_congr_right
    intro _
    cases am : setup.am with
    | none =>
        rw [noted.ordered.absent am]
        simp [Panicked]
    | some worker =>
        have present : setup.am.isSome = true := by rw [am]; rfl
        rw [intact_iff (noted.ordered.past present past)]
        simp
  refine ⟨stopping, watching, rfl, ?_, ?_⟩
  · rw [← blame, Stopping.answer, if_pos returned]
    cases stopping.errors <;> simp
  · rw [← unharmed, ← blame, Stopping.answer, if_pos returned]
    cases stopping.errors <;> simp

/-- The transport's thread panics by itself before `stop` has joined it. -/
example : (run (Stopping.step true rawAndSnooper) .fresh
    [.userData 1 [5], .dispatcherReceive 1, .dispatcherSend 1, .transportReceive,
      .transportPanic "write failed", .stop, .transportJoined [1, 0], .callStopper, .callStopper,
      .amReceive [7], .amJoined, .workerHangUp, .signal, .dispatcherStop 0,
      .dispatcherStop 1, .joined]).map Stopping.answer =
      some (some (.error "Problems stopping dispatchers!")) := by
  decide +kernel

/-- Data of a user is still queued when the transport ends, and a notice when the ActiveMessage
thread ends: both workers panic. -/
def blindStop : List (Label Nat Nat) :=
  [.userData 1 [5], .stop, .transportSend .connected, .transportEnd, .dispatcherReceive 1,
    .dispatcherSend 1, .transportJoined [1, 0], .callStopper, .callStopper, .amReceive [7],
    .amJoined, .workerReceive [0, 1], .workerSend, .signal, .dispatcherStop 0, .joined]

theorem blind_stop_answers_ok :
    ∃ connection, run (Connection.step true rawAndSnooper) .fresh blindStop = some connection ∧
      Panicked connection.worker.life ∧ Panicked (connection.dispatchers 1) ∧
      ∃ stopping, run (Stopping.step true rawAndSnooper) .fresh blindStop = some stopping ∧
        stopping.answer = some (.ok ()) := by
  have enabled : (run (Connection.step true rawAndSnooper) .fresh blindStop).map
      (fun connection => (connection.phase, connection.worker.life, connection.dispatchers 1,
        connection.transport, connection.am.life)) =
        some (.stopped, unwrapFailed, unwrapFailed, .ended, .ended) := by
    decide +kernel
  obtain ⟨connection, reached, lives⟩ := Option.map_eq_some_iff.mp enabled
  simp only [Prod.mk.injEq] at lives
  obtain ⟨returned, worker, dispatcher, transport, am⟩ := lives
  obtain ⟨stopping, watching, _, _, ok⟩ := stop_answer blindStop connection reached returned
  refine ⟨connection, reached, ?_, ?_, stopping, watching, ok.mpr ⟨transport, fun _ => am⟩⟩
  · rw [worker]
    trivial
  · rw [dispatcher]
    trivial

end Answer

end MoteConnection.StopAnswer
