import MoteConnection.ConnectionShutdown

/-!
# What goes wrong in a shutdown that is not quiescent

After the first step that is not quiescent, the threads of the connection can
panic by their own steps, without a further call of a user, event or step of
`stop`. So the conditions of a quiescent shutdown leave out no run that is safe
under every schedule.
-/

namespace MoteConnection.ShutdownHazards

open FanOut LabeledRuns
open MoteConnection.Runtime MoteConnection.ActiveMessageRouting
open MoteConnection.ConnectionWorkers MoteConnection.ConnectionThreads
open MoteConnection.DroppedConsumer MoteConnection.ConnectionShutdown

set_option autoImplicit false

section Engaged

variable {Uuid Who : Type} {overflowChecks : Bool} {setup : Dispatchers Uuid Who}
  {connection next : Connection Who}

/-- A thread that has ended in order left nothing behind. -/
structure Engaged (connection : Connection Who) : Prop where
  idle : connection.transport = .running → ∀ byte, connection.dispatchers byte ≠ .running →
    connection.downward byte = [] ∧ connection.hands byte = none
  outbox : connection.worker.life ≠ .running → connection.worker.outbox = []
  taken : connection.worker.life ≠ .running → connection.phase ≠ .signalled →
    connection.phase ≠ .stopped → connection.fromTransport = []
  joining : .stop ∈ connection.amQueue → connection.am.life = .running →
    ∃ rest, connection.phase = .joiningDispatcher rest

theorem engaged_fresh : Engaged (.fresh : Connection Who) where
  idle := fun _ byte ended => absurd rfl ended
  outbox := fun _ => rfl
  taken := fun ended => absurd rfl ended
  joining := by simp [Connection.fresh]

theorem Engaged.proceed (engaged : Engaged connection)
    (early : connection.phase ≠ .signalled ∧ connection.phase ≠ .stopped)
    (free : connection.am.life = .running → ∀ rest, connection.phase ≠ .joiningDispatcher rest)
    (phase : Phase) (toTransport : List (Event Bytes)) :
    Engaged { connection with phase := phase, toTransport := toTransport } := by
  refine { engaged with taken := ?_, joining := ?_ }
  · intro ended _ _
    exact engaged.taken ended early.1 early.2
  · intro member runs
    obtain ⟨rest, joining⟩ := engaged.joining member runs
    exact absurd joining (free runs rest)

theorem Engaged.dispatch (engaged : Engaged connection) {byte : UInt8}
    (runs : connection.dispatchers byte = .running) (queue : List (Event Bytes))
    (hand : Option (Event Bytes)) :
    connection.transport = .running → ∀ other, connection.dispatchers other ≠ .running →
      Function.update connection.downward byte queue other = [] ∧
        Function.update connection.hands byte hand other = none := by
  intro transport other ended
  have differs : other ≠ byte := by
    intro same
    rw [same] at ended
    exact ended runs
  rw [Function.update_of_ne differs, Function.update_of_ne differs]
  exact engaged.idle transport other ended

theorem Engaged.dispatcherEnd (engaged : Engaged connection) {byte : UInt8}
    (nothing : connection.transport = .running →
      connection.downward byte = [] ∧ connection.hands byte = none) :
    Engaged (connection.dispatcherEnd byte) := by
  refine { engaged with idle := ?_ }
  intro transport other ended
  by_cases same : other = byte
  · rw [same]
    exact nothing transport
  · simp only [Connection.dispatcherEnd, Function.update_of_ne same] at ended
    exact engaged.idle transport other ended

variable [DecidableEq Uuid] [DecidableEq Who]

theorem engaged_step {label : Label Uuid Who}
    (before : Orderly overflowChecks setup connection) (after : Orderly overflowChecks setup next)
    (engaged : Engaged connection)
    (taken : connection.step overflowChecks setup label = some next) : Engaged next := by
  cases moved_of_step taken with
  | userData byte payload member runs =>
      refine { engaged with idle := ?_ }
      have idle := engaged.dispatch runs (connection.downward byte ++ [.data payload])
        (connection.hands byte)
      rw [Function.update_eq_self] at idle
      exact idle
  | userDrop consumer => exact { engaged with }
  | transportSend event transport runs =>
      exact { engaged with taken := fun ended => absurd runs ended }
  | transportFails event transport gone => exact absurd trivial after.transportIntact
  | transportReceive event rest transport queue => exact { engaged with }
  | transportPanic message transport => exact absurd trivial after.transportIntact
  | workerReceive order event rest sends idle queue complete handled =>
      exact { engaged with
        outbox := fun ended => absurd rfl ended
        taken := fun ended => absurd rfl ended }
  | workerRefuses order event rest message idle queue complete refused =>
      exact absurd trivial after.workerIntact
  | workerSend sending rest busy channel =>
      refine { engaged with
        outbox := fun ended => absurd rfl ended
        taken := fun ended => absurd rfl ended
        joining := ?_ }
      intro member runs
      have outbox : connection.worker.outbox = sending :: rest := by rw [busy]
      rcases mem_pass_on member with earlier | ⟨serves, stop⟩
      · exact engaged.joining earlier runs
      · exact absurd stop.symm (before.outbox sending (of_tail outbox).1 serves).2
  | workerFails sending rest busy closed => exact absurd trivial after.workerIntact
  | workerHangUp idle queue gone =>
      exact { engaged with
        outbox := fun _ => rfl
        taken := fun _ _ _ => queue }
  | workerStop idle phase =>
      exact { engaged with
        outbox := fun _ => rfl
        taken := fun _ different => absurd phase different }
  | amReceive order worker event rest sends registered idle queue handled =>
      refine { engaged with joining := ?_ }
      intro member _
      exact engaged.joining ((of_tail queue).2 _ member) (by rw [idle])
  | amEnds order worker event rest registered idle queue handled =>
      exact { engaged with joining := fun _ runs => by cases runs }
  | amRefuses order worker event rest message registered idle queue refused =>
      exact absurd trivial after.amIntact
  | amSend sending rest busy channel =>
      refine { engaged with joining := ?_ }
      intro member _
      exact engaged.joining member (by rw [busy])
  | amFails sending rest busy closed => exact absurd trivial after.amIntact
  | dispatcherReceive byte event packet rest runs free queue handled =>
      exact { engaged with idle := engaged.dispatch runs rest (some packet) }
  | dispatcherRefuses byte event rest message runs free queue refused =>
      have intact := after.dispatchersIntact byte
      simp only [Function.update_self] at intact
      exact absurd trivial intact
  | dispatcherSend byte packet runs full transport =>
      refine { engaged with idle := ?_ }
      have idle := engaged.dispatch runs (connection.downward byte) none
      rw [Function.update_eq_self] at idle
      exact idle
  | dispatcherFails byte packet runs full gone =>
      have intact := after.dispatchersIntact byte
      simp only [Function.update_self] at intact
      exact absurd trivial intact
  | dispatcherHangUp byte runs free queue => exact engaged.dispatcherEnd fun _ => ⟨queue, free⟩
  | dispatcherStop byte runs free phase =>
      have gone := before.stopped (by simp [phase]) (by simp [phase])
      exact engaged.dispatcherEnd fun running => absurd running gone
  | stop phase => exact engaged.proceed (by simp [phase]) (by simp [phase]) _ _
  | transportEnd phase transport =>
      exact { engaged with idle := fun running => by cases running }
  | transportJoined order phase gone =>
      exact engaged.proceed (by simp [phase]) (by simp [phase]) _ _
  | callStopper byte rest phase => exact engaged.proceed (by simp [phase]) (by simp [phase]) _ _
  | callAmStopper byte rest phase runs =>
      exact { engaged with
        taken := fun ended _ _ => engaged.taken ended (by simp [phase]) (by simp [phase])
        joining := fun _ _ => ⟨rest, rfl⟩ }
  | amJoined rest phase gone =>
      exact engaged.proceed (by simp [phase]) (fun runs => absurd runs gone) _ _
  | signal phase => exact engaged.proceed (by simp [phase]) (by simp [phase]) _ _
  | joined phase gone =>
      refine { engaged with
        taken := fun _ _ different => absurd rfl different
        joining := ?_ }
      intro member runs
      obtain ⟨rest, joining⟩ := engaged.joining member runs
      rw [phase] at joining
      cases joining

end Engaged

variable {Uuid Who : Type} [DecidableEq Uuid] [DecidableEq Who]

def OwnStep : Label Uuid Who → Prop
  | .workerReceive _ | .workerSend | .amReceive _ | .amSend | .dispatcherReceive _
  | .dispatcherSend _ => True
  | _ => False

def CanReach (overflowChecks : Bool) (setup : Dispatchers Uuid Who) :
    Connection Who → Connection Who → Prop :=
  Reaches (Connection.step overflowChecks setup) OwnStep

/-- Some schedule of the threads ends with a panic. -/
def CanPanic (overflowChecks : Bool) (setup : Dispatchers Uuid Who)
    (connection : Connection Who) : Prop :=
  ∃ last, CanReach overflowChecks setup connection last ∧ ¬ Unharmed last

variable {overflowChecks : Bool} {setup : Dispatchers Uuid Who} {connection next : Connection Who}

theorem CanPanic.now (harmed : ¬ Unharmed connection) : CanPanic overflowChecks setup connection :=
  ⟨connection, Reaches.refl connection, harmed⟩

theorem CanPanic.later {label : Label Uuid Who}
    (taken : connection.step overflowChecks setup label = some next) (own : OwnStep label)
    (panics : CanPanic overflowChecks setup next) : CanPanic overflowChecks setup connection := by
  obtain ⟨last, reached, harmed⟩ := panics
  exact ⟨last, Reaches.cons taken own reached, harmed⟩

theorem reach_step {label : Label Uuid Who}
    (taken : connection.step overflowChecks setup label = some next) (own : OwnStep label) :
    CanReach overflowChecks setup connection next :=
  Reaches.cons taken own (Reaches.refl next)

theorem CanPanic.reached (reached : CanReach overflowChecks setup connection next)
    (panics : CanPanic overflowChecks setup next) : CanPanic overflowChecks setup connection := by
  obtain ⟨last, later, harmed⟩ := panics
  exact ⟨last, reached.trans later, harmed⟩

section Dispatchers

theorem dispatcher_can_panic {byte : UInt8} (runs : connection.dispatchers byte = .running)
    (gone : connection.transport ≠ .running)
    (queued : ∀ event ∈ connection.downward byte, ∃ payload, event = .data payload)
    (busy : ¬ (connection.downward byte = [] ∧ connection.hands byte = none)) :
    CanPanic overflowChecks setup connection := by
  have sends {other : Connection Who} {packet : Event Bytes}
      (running : other.dispatchers byte = .running) (full : other.hands byte = some packet)
      (ended : other.transport ≠ .running) : CanPanic overflowChecks setup other := by
    have taken : other.step overflowChecks setup (.dispatcherSend byte) =
        some { other with
          hands := Function.update other.hands byte none
          dispatchers := Function.update other.dispatchers byte unwrapFailed } := by
      simp only [Connection.step, Connection.dispatcherSend, running, full, if_neg ended]
    apply CanPanic.later taken trivial
    apply CanPanic.now
    intro unharmed
    have intact := unharmed.2.2.2 byte
    simp only [Function.update_self] at intact
    exact intact trivial
  cases hand : connection.hands byte with
  | some packet => exact sends runs hand gone
  | none =>
      cases queue : connection.downward byte with
      | nil => exact absurd ⟨queue, hand⟩ busy
      | cons event rest =>
          obtain ⟨payload, rfl⟩ := queued event (of_tail queue).1
          have taken : connection.step overflowChecks setup (.dispatcherReceive byte) =
              some { connection with
                downward := Function.update connection.downward byte rest
                hands := Function.update connection.hands byte
                  (some ((DispatcherWorker.mk byte).send payload)) } := by
            simp only [Connection.step, Connection.dispatcherReceive, runs, hand, queue]
            rfl
          apply CanPanic.later taken trivial
          exact sends runs (Function.update_self _ _ _) gone

end Dispatchers

section ActiveMessages

theorem am_drains_or_panics {outbox : List (Who × Event ActiveMessages.Message)}
    (busy : connection.am = ⟨.running, outbox⟩) :
    CanPanic overflowChecks setup connection ∨
      ∃ idle, CanReach overflowChecks setup connection idle ∧ idle.am = ⟨.running, []⟩ ∧
        idle.amQueue = connection.amQueue := by
  induction outbox generalizing connection with
  | nil => exact .inr ⟨connection, Reaches.refl connection, busy, rfl⟩
  | cons sending rest induction =>
      by_cases closed : .receiver sending.1 ∈ connection.dropped
      · apply Or.inl
        apply CanPanic.later (am_send_closed busy closed) trivial
        exact CanPanic.now fun unharmed => unharmed.2.2.1 trivial
      · have taken := @am_send_open _ _ _ _ overflowChecks setup _ _ _ busy closed
        have remaining := @induction
          { connection with
            am := ⟨.running, rest⟩
            received := send connection.received sending } rfl
        rcases remaining with panics | ⟨idle, reached, empty, queue⟩
        · exact .inl (CanPanic.later taken trivial panics)
        · exact .inr ⟨idle, Reaches.cons taken trivial reached, empty, queue⟩

/-- The ActiveMessage thread comes to take the next of its events, or panics. -/
theorem am_advances_or_panics {worker : ConnectionWorker Uuid Who}
    (registered : setup.am = some worker) (runs : connection.am.life = .running)
    {event : Event Bytes} {rest : List (Event Bytes)}
    (queue : connection.amQueue = event :: rest) (free : event ≠ .stop) :
    CanPanic overflowChecks setup connection ∨
      ConnectionWorker.Digestible overflowChecks event ∧
      ∃ next, CanReach overflowChecks setup connection next ∧ next.am.life = .running ∧
        next.amQueue = rest := by
  have busy : connection.am = ⟨.running, connection.am.outbox⟩ := by rw [← runs]
  have drained : CanPanic overflowChecks setup connection ∨ _ := am_drains_or_panics busy
  rcases drained with panics | ⟨idle, reached, empty, same⟩
  · exact .inl panics
  · rw [queue] at same
    have whole : worker.receivers.handles.keys.Perm worker.receivers.handles.keys := .refl _
    cases turn : worker.handleEvent overflowChecks worker.receivers.handles.keys event with
    | panicked message =>
        apply Or.inl
        have taken : idle.step overflowChecks setup (.amReceive worker.receivers.handles.keys) =
            some { idle with amQueue := rest, am := ⟨.panicked message, []⟩ } := by
          simp only [Connection.step, Connection.amReceive, registered, empty, same,
            if_pos whole, turn]
        apply CanPanic.reached reached
        apply CanPanic.later taken trivial
        exact CanPanic.now fun unharmed => unharmed.2.2.1 trivial
    | returned result =>
        cases result with
        | none => exact absurd (worker.handle_event_ends turn) free
        | some sends =>
            have digestible := worker.handle_event_digestible turn
            have taken : idle.step overflowChecks setup
                (.amReceive worker.receivers.handles.keys) =
                  some { idle with amQueue := rest, am := ⟨.running, sends⟩ } := by
              simp only [Connection.step, Connection.amReceive, registered, empty, same,
                if_pos whole, turn]
            exact .inr ⟨digestible, _, reached.trans (reach_step taken trivial), rfl, rfl⟩

theorem am_can_panic {worker : ConnectionWorker Uuid Who} (registered : setup.am = some worker)
    (runs : connection.am.life = .running) {before after : List (Event Bytes)}
    {event : Event Bytes} (queue : connection.amQueue = before ++ event :: after)
    (free : .stop ∉ before ++ [event])
    (indigestible : ¬ ConnectionWorker.Digestible overflowChecks event) :
    CanPanic overflowChecks setup connection := by
  induction before generalizing connection with
  | nil =>
      have first : event ≠ .stop := fun stop => free (by simp [stop])
      rcases am_advances_or_panics registered runs queue first with panics | ⟨digestible, _⟩
      · exact panics
      · exact absurd digestible indigestible
  | cons first rest induction =>
      have other : first ≠ .stop := fun stop => free (by simp [stop])
      rcases am_advances_or_panics registered runs queue other with
        panics | ⟨_, next, reached, running, remaining⟩
      · exact panics
      · exact CanPanic.reached reached <| induction running remaining fun member =>
          free (List.mem_cons_of_mem _ member)

end ActiveMessages

section Worker

/-- The `TransportWorker` runs on a queue, and no `Stop` is on the way to the ActiveMessage thread
while that one runs. -/
structure Waiting (setup : Dispatchers Uuid Who) (queue : List (Event Bytes))
    (connection : Connection Who) : Prop where
  runs : connection.worker.life = .running
  queue : connection.fromTransport = queue
  free : connection.am.life = .running → .stop ∉ connection.amQueue ∧
    ∀ sending ∈ connection.worker.outbox, setup.servesAm sending.1 = true → sending.2 ≠ .stop

theorem worker_sends_or_panics {queue : List (Event Bytes)} {sending : UInt8 × Event Bytes}
    {rest : List (UInt8 × Event Bytes)} (busy : connection.worker = ⟨.running, sending :: rest⟩)
    (waiting : Waiting setup queue connection) :
    CanPanic overflowChecks setup connection ∨
      connection.channelOpen setup sending.1 = true ∧
      ∃ next, CanReach overflowChecks setup connection next ∧
        next.worker = ⟨.running, rest⟩ ∧ next.am = connection.am ∧
        next.amQueue = connection.passOn setup sending ∧ Waiting setup queue next := by
  cases channel : connection.channelOpen setup sending.1 with
  | false =>
      apply Or.inl
      apply CanPanic.later (worker_send_closed busy channel) trivial
      exact CanPanic.now fun unharmed => unharmed.2.1 trivial
  | true =>
      have taken := @worker_send_open _ _ _ _ overflowChecks setup _ _ _ busy channel
      have reached := reach_step taken trivial
      have outbox : connection.worker.outbox = sending :: rest := by rw [busy]
      obtain ⟨first, later⟩ := of_tail outbox
      refine .inr ⟨rfl, _, reached, rfl, rfl, rfl, rfl, waiting.queue, ?_⟩
      intro runs
      obtain ⟨queue, sends⟩ := waiting.free runs
      constructor
      · intro member
        rcases mem_pass_on member with earlier | ⟨serves, stop⟩
        · exact queue earlier
        · exact sends sending first serves stop.symm
      · exact fun other member => sends other (later other member)

theorem worker_drains_or_panics {queue : List (Event Bytes)}
    {outbox : List (UInt8 × Event Bytes)} (busy : connection.worker = ⟨.running, outbox⟩)
    (waiting : Waiting setup queue connection) :
    CanPanic overflowChecks setup connection ∨
      ∃ idle, CanReach overflowChecks setup connection idle ∧ idle.worker = ⟨.running, []⟩ ∧
        idle.am = connection.am ∧ Waiting setup queue idle := by
  induction outbox generalizing connection with
  | nil => exact .inr ⟨connection, Reaches.refl connection, busy, rfl, waiting⟩
  | cons sending rest induction =>
      have sent : CanPanic overflowChecks setup connection ∨ _ :=
        worker_sends_or_panics busy waiting
      rcases sent with panics | ⟨_, next, reached, remaining, sameAm, _, later⟩
      · exact .inl panics
      · rcases induction remaining later with panics | ⟨idle, reachedIdle, empty, same, still⟩
        · exact .inl (CanPanic.reached reached panics)
        · exact .inr ⟨idle, reached.trans reachedIdle, empty, same.trans sameAm, still⟩

theorem worker_advances_or_panics {event : Event Bytes} {rest : List (Event Bytes)}
    (waiting : Waiting setup (event :: rest) connection) :
    CanPanic overflowChecks setup connection ∨
      Dispatchable event ∧ ∃ next sends, CanReach overflowChecks setup connection next ∧
        next.worker = ⟨.running, sends⟩ ∧
        (∀ byte, addressed byte sends = project setup byte event) ∧
        next.am = connection.am ∧ Waiting setup rest next := by
  have busy : connection.worker = ⟨.running, connection.worker.outbox⟩ := by rw [← waiting.runs]
  have drained : CanPanic overflowChecks setup connection ∨ _ :=
    worker_drains_or_panics busy waiting
  rcases drained with panics | ⟨idle, reached, empty, sameAm, still⟩
  · exact .inl panics
  · have whole : setup.worker.txs.keys.Perm setup.worker.txs.keys := .refl _
    cases turn : setup.worker.handleData setup.worker.txs.keys event with
    | panicked message =>
        apply Or.inl
        have taken : idle.step overflowChecks setup (.workerReceive setup.worker.txs.keys) =
            some { idle with
              fromTransport := rest
              handled := idle.handled ++ [event]
              worker := ⟨.panicked message, []⟩ } := by
          simp only [Connection.step, Connection.workerReceive, empty, still.queue,
            if_pos whole, turn]
        apply CanPanic.reached reached
        apply CanPanic.later taken trivial
        exact CanPanic.now fun unharmed => unharmed.2.1 trivial
    | returned sends =>
        have dispatchable := handle_data_dispatchable turn
        have routed := handle_data_routed whole turn
        have taken : idle.step overflowChecks setup (.workerReceive setup.worker.txs.keys) =
            some { idle with
              fromTransport := rest
              handled := idle.handled ++ [event]
              worker := ⟨.running, sends⟩ } := by
          simp only [Connection.step, Connection.workerReceive, empty, still.queue,
            if_pos whole, turn]
        refine .inr ⟨dispatchable, _, sends, reached.trans (reach_step taken trivial), rfl,
          routed, sameAm, rfl, rfl, ?_⟩
        intro runs
        refine ⟨(still.free runs).1, ?_⟩
        intro sending member serves stop
        have part := (sends_for_am routed member serves).2
        rw [stop] at part
        exact project_ne_stop setup 0x00 event part

/-- The `TransportWorker` comes to take some event of its queue, or panics before. -/
theorem worker_arrives_or_panics {before after : List (Event Bytes)} {event : Event Bytes}
    (waiting : Waiting setup (before ++ event :: after) connection) :
    CanPanic overflowChecks setup connection ∨
      Dispatchable event ∧ ∃ next sends, CanReach overflowChecks setup connection next ∧
        next.worker = ⟨.running, sends⟩ ∧
        (∀ byte, addressed byte sends = project setup byte event) ∧
        next.am = connection.am ∧ Waiting setup after next := by
  induction before generalizing connection with
  | nil => exact worker_advances_or_panics waiting
  | cons first rest induction =>
      have taken : CanPanic overflowChecks setup connection ∨ _ :=
        worker_advances_or_panics waiting
      rcases taken with panics | ⟨_, middle, _, reached, _, _, sameAm, later⟩
      · exact .inl panics
      · rcases induction later with
          panics | ⟨dispatchable, next, sends, reachedNext, busy, routed, same, still⟩
        · exact .inl (CanPanic.reached reached panics)
        · exact .inr ⟨dispatchable, next, sends, reached.trans reachedNext, busy, routed,
            same.trans sameAm, still⟩

theorem worker_can_panic {queue : List (Event Bytes)} {outbox : List (UInt8 × Event Bytes)}
    (busy : connection.worker = ⟨.running, outbox⟩) (waiting : Waiting setup queue connection)
    (ended : connection.am.life ≠ .running) {sending : UInt8 × Event Bytes}
    (member : sending ∈ outbox) (serves : setup.servesAm sending.1 = true) :
    CanPanic overflowChecks setup connection := by
  induction outbox generalizing connection with
  | nil => cases member
  | cons first rest induction =>
      have sent : CanPanic overflowChecks setup connection ∨ _ :=
        worker_sends_or_panics busy waiting
      rcases sent with panics | ⟨channel, next, reached, remaining, sameAm, _, later⟩
      · exact panics
      · rcases List.mem_cons.mp member with same | further
        · rw [← same, Connection.channelOpen, if_pos serves] at channel
          exact absurd (of_decide_eq_true channel) ended
        · rw [← sameAm] at ended
          exact CanPanic.reached reached (induction remaining later ended further)

theorem indigestible_can_panic {worker : ConnectionWorker Uuid Who}
    (registered : setup.am = some worker) {queue : List (Event Bytes)}
    {outbox : List (UInt8 × Event Bytes)} (busy : connection.worker = ⟨.running, outbox⟩)
    (waiting : Waiting setup queue connection) (runs : connection.am.life = .running)
    {sending : UInt8 × Event Bytes} (member : sending ∈ outbox)
    (serves : setup.servesAm sending.1 = true)
    (indigestible : ¬ ConnectionWorker.Digestible overflowChecks sending.2) :
    CanPanic overflowChecks setup connection := by
  induction outbox generalizing connection with
  | nil => cases member
  | cons first rest induction =>
      have sent : CanPanic overflowChecks setup connection ∨ _ :=
        worker_sends_or_panics busy waiting
      rcases sent with panics | ⟨_, next, reached, remaining, sameAm, passed, later⟩
      · exact panics
      · rw [← sameAm] at runs
        apply CanPanic.reached reached
        rcases List.mem_cons.mp member with same | further
        · rw [← same, Connection.passOn, if_pos serves] at passed
          have free := (later.free runs).1
          rw [passed] at free
          exact am_can_panic registered runs passed free indigestible
        · exact induction remaining later runs further

end Worker

section Violations

theorem late_data_can_panic (orderly : Orderly overflowChecks setup connection) {byte : UInt8}
    (runs : connection.dispatchers byte = .running) (gone : connection.transport ≠ .running)
    (payload : Bytes) (sent : UInt8 → List Bytes) :
    CanPanic overflowChecks setup { connection with
      downward := Function.update connection.downward byte
        (connection.downward byte ++ [.data payload])
      sent := sent } := by
  have appended := only_data_append (orderly.queued byte) payload
  exact @dispatcher_can_panic _ _ _ _ overflowChecks setup _ byte runs gone
    (only_data_update appended orderly.queued byte) (by simp)

/-- The end of a transport while a `DispatcherWorker` still has something for it. -/
theorem abandoned_data_can_panic (orderly : Orderly overflowChecks setup connection)
    (engaged : Engaged connection) (transport : connection.transport = .running) {byte : UInt8}
    (busy : ¬ (connection.downward byte = [] ∧ connection.hands byte = none)) :
    CanPanic overflowChecks setup { connection with transport := .ended } := by
  have runs : connection.dispatchers byte = .running := by
    by_contra ended
    exact busy (engaged.idle transport byte ended)
  exact @dispatcher_can_panic _ _ _ _ overflowChecks setup _ byte runs (by simp)
    (orderly.queued byte) busy

theorem unsound_event_can_panic (orderly : Orderly overflowChecks setup connection)
    {event : Event Bytes} (transport : connection.transport = .running)
    (runs : connection.worker.life = .running)
    (unsound : ¬ Sound overflowChecks setup event) :
    CanPanic overflowChecks setup { connection with
      fromTransport := connection.fromTransport ++ [event] } := by
  have amRuns : connection.am.life = .running := by
    by_contra ended
    exact (orderly.amEnded ended).1 transport
  have waiting : Waiting setup (connection.fromTransport ++ event :: []) { connection with
      fromTransport := connection.fromTransport ++ [event] } := by
    refine ⟨runs, rfl, ?_⟩
    intro _
    constructor
    · exact fun member => orderly.stopping member transport
    · exact fun sending member serves => (orderly.outbox sending member serves).2
  have arrived : CanPanic overflowChecks setup _ ∨ _ := worker_arrives_or_panics waiting
  rcases arrived with panics | ⟨dispatchable, next, sends, reached, busy, routed, same, later⟩
  · exact panics
  · apply CanPanic.reached reached
    simp only [Sound, dispatchable, true_and, Classical.not_imp, not_forall] at unsound
    obtain ⟨am, part, member, indigestible⟩ := unsound
    obtain ⟨worker, registered⟩ := Option.isSome_iff_exists.mp am
    rw [← routed, mem_addressed] at member
    have serves : setup.servesAm 0x00 = true := by simp [Dispatchers.servesAm, am]
    exact indigestible_can_panic registered busy later (by rw [same]; exact amRuns) member serves
      indigestible

theorem abandoned_event_can_panic
    (runs : connection.worker.life = .running) (ended : connection.am.life ≠ .running)
    (left : ¬ NothingForAm setup connection) : CanPanic overflowChecks setup connection := by
  have busy : connection.worker = ⟨.running, connection.worker.outbox⟩ := by rw [← runs]
  have waiting (queue : List (Event Bytes)) (same : connection.fromTransport = queue) :
      Waiting setup queue connection :=
    ⟨runs, same, fun amRuns => absurd amRuns ended⟩
  by_cases sending : ∀ sending ∈ connection.worker.outbox, setup.servesAm sending.1 = false
  · have queued : ∃ event ∈ connection.fromTransport, ForAm setup event := by
      by_contra none
      exact left ⟨fun event member part => none ⟨event, member, part⟩, sending⟩
    obtain ⟨event, member, am, nonempty⟩ := queued
    obtain ⟨before, after, queue⟩ := List.append_of_mem member
    have arrived : CanPanic overflowChecks setup connection ∨ _ :=
      worker_arrives_or_panics (waiting _ queue)
    rcases arrived with panics | ⟨_, next, sends, reached, busy, routed, same, later⟩
    · exact panics
    · apply CanPanic.reached reached
      obtain ⟨part, present⟩ := List.exists_mem_of_ne_nil _ nonempty
      rw [← routed, mem_addressed] at present
      have serves : setup.servesAm 0x00 = true := by simp [Dispatchers.servesAm, am]
      exact worker_can_panic busy later (by rw [same]; exact ended) present serves
  · simp only [not_forall, Bool.not_eq_false] at sending
    obtain ⟨first, member, serves⟩ := sending
    exact worker_can_panic busy (waiting _ rfl) ended member serves

theorem violating_step_can_panic {label : Label Uuid Who}
    (orderly : Orderly overflowChecks setup connection) (engaged : Engaged connection)
    (violates : ¬ Quiescent overflowChecks setup connection label)
    (taken : connection.step overflowChecks setup label = some next) :
    CanPanic overflowChecks setup next := by
  cases moved_of_step taken with
  | userData byte payload member runs => exact late_data_can_panic orderly runs violates payload _
  | transportSend event unended runs =>
      exact unsound_event_can_panic orderly (orderly.transport_of_unended unended) runs violates
  | transportFails event transport gone => exact absurd transport (orderly.worker gone)
  | transportPanic message transport => exact CanPanic.now fun unharmed => unharmed.1 trivial
  | transportEnd phase transport =>
      simp only [Quiescent, not_forall] at violates
      obtain ⟨byte, _, busy⟩ := violates
      exact abandoned_data_can_panic orderly engaged transport busy
  | amEnds order worker event rest registered idle queue handled =>
      obtain ⟨_, left⟩ := Classical.not_imp.mp violates
      have stop := worker.handle_event_ends handled
      rw [stop] at queue
      have member := (of_tail queue).1
      obtain ⟨rest, joining⟩ := engaged.joining member (by rw [idle])
      have runs : connection.worker.life = .running := by
        by_contra ended
        apply left
        constructor
        · rw [engaged.taken ended (by simp [joining]) (by simp [joining])]
          simp
        · rw [engaged.outbox ended]
          simp
      exact abandoned_event_can_panic runs (by simp) left
  | amReceive order worker event rest sends registered idle queue handled =>
      obtain ⟨first, _⟩ := Classical.not_imp.mp violates
      rw [queue] at first
      cases first
      cases handled
  | amRefuses order worker event rest message registered idle queue refused =>
      exact CanPanic.now fun unharmed => unharmed.2.2.1 trivial
  | _ => exact absurd trivial violates

def rawOnly : Dispatchers Nat Nat := ⟨[.raw 1], List.nodup_singleton _⟩

end Violations

end MoteConnection.ShutdownHazards
