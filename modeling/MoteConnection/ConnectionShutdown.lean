import MoteConnection.DroppedConsumer

/-!
# Stopping a connection

`Connection::stop` ends the transport's thread first, the threads of the
dispatchers next and the workers of the connection last. The workers go on
between: a `DispatcherWorker` still passes queued data to a transport that has
ended, and the `TransportWorker` still passes queued events to an ActiveMessage
thread that has ended.

The conditions below are on what is queued at the moment a thread ends, and on
what comes in.
-/

namespace MoteConnection.ConnectionShutdown

open FanOut LabeledRuns
open MoteConnection.Runtime MoteConnection.ActiveMessageRouting
open MoteConnection.ConnectionWorkers MoteConnection.ConnectionThreads
open MoteConnection.DroppedConsumer

set_option autoImplicit false

variable {Uuid Who : Type}

def Unharmed (connection : Connection Who) : Prop :=
  ¬ Panicked connection.transport ∧ ¬ Panicked connection.worker.life ∧
    ¬ Panicked connection.am.life ∧ ∀ byte, ¬ Panicked (connection.dispatchers byte)

section Conditions

variable (overflowChecks : Bool) (setup : Dispatchers Uuid Who)

def Sound (event : Event Bytes) : Prop :=
  Dispatchable event ∧ (setup.am.isSome →
    ∀ part ∈ project setup 0x00 event, ConnectionWorker.Digestible overflowChecks part)

def ForAm (event : Event Bytes) : Prop := setup.am.isSome ∧ project setup 0x00 event ≠ []

instance : DecidablePred (Sound overflowChecks setup) := fun _ =>
  inferInstanceAs (Decidable (_ ∧ _))

instance : DecidablePred (ForAm setup) := fun _ => inferInstanceAs (Decidable (_ ∧ _))

def NothingForAm (connection : Connection Who) : Prop :=
  (∀ event ∈ connection.fromTransport, ¬ ForAm setup event) ∧
    ∀ sending ∈ connection.worker.outbox, setup.servesAm sending.1 = false

/-- What is queued when a thread ends, and what comes in. -/
def Quiescent (connection : Connection Who) : Label Uuid Who → Prop
  | .userData _ _ => connection.transport = .running
  | .transportSend event => Sound overflowChecks setup event
  | .transportPanic _ => False
  | .transportEnd => ∀ byte ∈ setup.workerBytes,
      connection.downward byte = [] ∧ connection.hands byte = none
  | .amReceive _ => connection.amQueue.head? = some .stop → NothingForAm setup connection
  | _ => True

instance (connection : Connection Who) : Decidable (NothingForAm setup connection) :=
  inferInstanceAs (Decidable (_ ∧ _))

instance (connection : Connection Who) : (label : Label Uuid Who) →
    Decidable (Quiescent overflowChecks setup connection label)
  | .userData _ _ => inferInstanceAs (Decidable (connection.transport = .running))
  | .transportSend event => inferInstanceAs (Decidable (Sound overflowChecks setup event))
  | .transportPanic _ => .isFalse id
  | .transportEnd =>
      inferInstanceAs (Decidable (∀ byte ∈ setup.workerBytes,
        connection.downward byte = [] ∧ connection.hands byte = none))
  | .amReceive _ =>
      inferInstanceAs (Decidable (connection.amQueue.head? = some .stop →
        NothingForAm setup connection))
  | .userDrop _ | .transportReceive | .workerReceive _ | .workerSend | .workerHangUp
  | .workerStop | .amSend | .dispatcherReceive _ | .dispatcherSend _ | .dispatcherHangUp _
  | .dispatcherStop _ | .stop | .transportJoined _ | .callStopper | .amJoined | .signal
  | .joined => .isTrue trivial

end Conditions

section Invariant

variable {overflowChecks : Bool} {setup : Dispatchers Uuid Who} {connection next : Connection Who}

structure Orderly (overflowChecks : Bool) (setup : Dispatchers Uuid Who)
    (connection : Connection Who) : Prop where
  transportIntact : ¬ Panicked connection.transport
  workerIntact : ¬ Panicked connection.worker.life
  amIntact : ¬ Panicked connection.am.life
  dispatchersIntact : ∀ byte, ¬ Panicked (connection.dispatchers byte)
  kept : connection.dropped = []
  phase : connection.transport = .running →
    connection.phase = .running ∨ connection.phase = .stoppingTransport
  worker : connection.worker.life ≠ .running → connection.transport ≠ .running
  elsewhere : ∀ byte, byte ∉ setup.workerBytes →
    connection.downward byte = [] ∧ connection.hands byte = none
  drained : connection.transport ≠ .running → ∀ byte,
    connection.downward byte = [] ∧ connection.hands byte = none
  queued : ∀ byte, ∀ event ∈ connection.downward byte, ∃ payload, event = .data payload
  sound : ∀ event ∈ connection.fromTransport, Sound overflowChecks setup event
  outbox : ∀ sending ∈ connection.worker.outbox, setup.servesAm sending.1 = true →
    ConnectionWorker.Digestible overflowChecks sending.2 ∧ sending.2 ≠ .stop
  amQueue : ∀ event ∈ connection.amQueue, ConnectionWorker.Digestible overflowChecks event
  stopping : .stop ∈ connection.amQueue → connection.transport ≠ .running
  amEnded : connection.am.life ≠ .running →
    connection.transport ≠ .running ∧ NothingForAm setup connection

theorem orderly_fresh : Orderly overflowChecks setup (.fresh : Connection Who) where
  transportIntact := id
  workerIntact := id
  amIntact := id
  dispatchersIntact := fun _ => id
  kept := rfl
  phase := fun _ => .inl rfl
  worker := fun gone => absurd rfl gone
  elsewhere := fun _ _ => ⟨rfl, rfl⟩
  drained := fun gone => absurd rfl gone
  queued := by simp [Connection.fresh]
  sound := by simp [Connection.fresh]
  outbox := by simp [Connection.fresh]
  amQueue := by simp [Connection.fresh]
  stopping := by simp [Connection.fresh]
  amEnded := fun ended => absurd rfl ended

theorem Orderly.stopped (orderly : Orderly overflowChecks setup connection)
    (started : connection.phase ≠ .running) (joined : connection.phase ≠ .stoppingTransport) :
    connection.transport ≠ .running := by
  intro running
  rcases orderly.phase running with phase | phase
  · exact started phase
  · exact joined phase

theorem Orderly.proceed (orderly : Orderly overflowChecks setup connection)
    (gone : connection.transport ≠ .running) (phase : Phase) :
    Orderly overflowChecks setup { connection with phase := phase } :=
  { orderly with phase := fun running => absurd running gone }

/-- Something of a sound event is sent to the ActiveMessage thread only when it has a part there. -/
theorem sends_for_am {event : Event Bytes} {sends : List (UInt8 × Event Bytes)}
    (routed : ∀ byte, addressed byte sends = project setup byte event)
    {sending : UInt8 × Event Bytes} (member : sending ∈ sends)
    (serves : setup.servesAm sending.1 = true) :
    setup.am.isSome ∧ sending.2 ∈ project setup 0x00 event := by
  obtain ⟨byte, am⟩ := (Bool.and_eq_true _ _).mp serves
  have same : sending.1 = 0x00 := beq_iff_eq.mp byte
  refine ⟨am, ?_⟩
  rw [← routed, mem_addressed, ← same]
  exact member

theorem Orderly.elsewhere_update (orderly : Orderly overflowChecks setup connection)
    {byte : UInt8} (member : byte ∈ setup.workerBytes) (queue : List (Event Bytes))
    (hand : Option (Event Bytes)) :
    ∀ other, other ∉ setup.workerBytes →
      Function.update connection.downward byte queue other = [] ∧
        Function.update connection.hands byte hand other = none := by
  intro other absent
  have differs : other ≠ byte := fun same => absent (same ▸ member)
  rw [Function.update_of_ne differs, Function.update_of_ne differs]
  exact orderly.elsewhere other absent

theorem Orderly.userData (orderly : Orderly overflowChecks setup connection) {byte : UInt8}
    (member : byte ∈ setup.workerBytes) (transport : connection.transport = .running)
    (payload : Bytes) (sent : UInt8 → List Bytes) :
    Orderly overflowChecks setup { connection with
      downward := Function.update connection.downward byte
        (connection.downward byte ++ [.data payload])
      sent := sent } := by
  have elsewhere := orderly.elsewhere_update member
    (connection.downward byte ++ [.data payload]) (connection.hands byte)
  rw [Function.update_eq_self] at elsewhere
  exact { orderly with
    elsewhere := elsewhere
    drained := fun gone => absurd transport gone
    queued := only_data_update (only_data_append (orderly.queued byte) payload) orderly.queued }

theorem Orderly.transport_of_unended (orderly : Orderly overflowChecks setup connection)
    (unended : connection.transport ≠ .ended) : connection.transport = .running := by
  have intact := orderly.transportIntact
  cases life : connection.transport with
  | running => rfl
  | ended => exact absurd life unended
  | panicked message =>
      rw [life] at intact
      exact absurd trivial intact

theorem Orderly.transportSend (orderly : Orderly overflowChecks setup connection)
    {event : Event Bytes} (sound : Sound overflowChecks setup event)
    (transport : connection.transport = .running) :
    Orderly overflowChecks setup { connection with
      fromTransport := connection.fromTransport ++ [event] } := by
  refine { orderly with sound := ?_, amEnded := ?_ }
  · intro other member
    rcases List.mem_append.mp member with earlier | new
    · exact orderly.sound other earlier
    · rw [List.mem_singleton.mp new]
      exact sound
  · intro ended
    exact absurd transport (orderly.amEnded ended).1

theorem Orderly.workerReceive (orderly : Orderly overflowChecks setup connection)
    {event : Event Bytes} {rest : List (Event Bytes)} {sends : List (UInt8 × Event Bytes)}
    (queue : connection.fromTransport = event :: rest)
    (routed : ∀ byte, addressed byte sends = project setup byte event)
    (handled : List (Event Bytes)) :
    Orderly overflowChecks setup { connection with
      fromTransport := rest
      handled := handled
      worker := ⟨.running, sends⟩ } := by
  obtain ⟨first, later⟩ := of_tail queue
  refine { orderly with
    workerIntact := id
    worker := fun gone => absurd rfl gone
    sound := fun other member => orderly.sound other (later other member)
    outbox := ?_
    amEnded := ?_ }
  · intro sending member serves
    obtain ⟨am, part⟩ := sends_for_am routed member serves
    refine ⟨(orderly.sound event first).2 am _ part, ?_⟩
    intro stop
    rw [stop] at part
    exact project_ne_stop setup 0x00 event part
  · intro ended
    obtain ⟨gone, nothing, _⟩ := orderly.amEnded ended
    refine ⟨gone, fun other member => nothing other (later other member), ?_⟩
    intro sending member
    by_contra serves
    obtain ⟨am, part⟩ := sends_for_am routed member (Bool.not_eq_false _ ▸ serves)
    exact nothing event first ⟨am, List.ne_nil_of_mem part⟩

theorem mem_pass_on {sending : UInt8 × Event Bytes} {event : Event Bytes}
    (member : event ∈ connection.passOn setup sending) :
    event ∈ connection.amQueue ∨ setup.servesAm sending.1 = true ∧ event = sending.2 := by
  unfold Connection.passOn at member
  split_ifs at member with serves
  · rcases List.mem_append.mp member with earlier | new
    · exact .inl earlier
    · exact .inr ⟨serves, List.mem_singleton.mp new⟩
  · exact .inl member

theorem Orderly.workerSend (orderly : Orderly overflowChecks setup connection)
    {sending : UInt8 × Event Bytes} {rest : List (UInt8 × Event Bytes)}
    (busy : connection.worker = ⟨.running, sending :: rest⟩)
    (upward : Channels UInt8 (Event Bytes)) :
    Orderly overflowChecks setup { connection with
      worker := ⟨.running, rest⟩
      upward := upward
      amQueue := connection.passOn setup sending } := by
  have outbox : connection.worker.outbox = sending :: rest := by rw [busy]
  obtain ⟨first, later⟩ := of_tail outbox
  refine { orderly with
    workerIntact := id
    worker := fun gone => absurd rfl gone
    outbox := fun other member => orderly.outbox other (later other member)
    amQueue := ?_
    stopping := ?_
    amEnded := ?_ }
  · intro event member
    rcases mem_pass_on member with earlier | ⟨serves, rfl⟩
    · exact orderly.amQueue event earlier
    · exact (orderly.outbox sending first serves).1
  · intro member
    rcases mem_pass_on member with earlier | ⟨serves, stop⟩
    · exact orderly.stopping earlier
    · exact absurd stop.symm (orderly.outbox sending first serves).2
  · intro ended
    obtain ⟨gone, nothing, silent⟩ := orderly.amEnded ended
    exact ⟨gone, nothing, fun other member => silent other (later other member)⟩

theorem Orderly.channel_open [DecidableEq Who]
    (orderly : Orderly overflowChecks setup connection) {sending : UInt8 × Event Bytes}
    {rest : List (UInt8 × Event Bytes)}
    (busy : connection.worker = ⟨.running, sending :: rest⟩) :
    connection.channelOpen setup sending.1 = true := by
  have outbox : connection.worker.outbox = sending :: rest := by rw [busy]
  unfold Connection.channelOpen
  split_ifs with serves
  · apply decide_eq_true
    by_contra ended
    have silent := (orderly.amEnded ended).2.2 sending (of_tail outbox).1
    rw [serves] at silent
    cases silent
  · rw [orderly.kept]
    simp

theorem Orderly.workerEnds (orderly : Orderly overflowChecks setup connection)
    (gone : connection.transport ≠ .running) :
    Orderly overflowChecks setup { connection with worker := ⟨.ended, []⟩ } := by
  refine { orderly with
    workerIntact := id
    worker := fun _ => gone
    outbox := by simp
    amEnded := ?_ }
  intro ended
  obtain ⟨gone, nothing, _⟩ := orderly.amEnded ended
  exact ⟨gone, nothing, by simp⟩

theorem Orderly.amReceive (orderly : Orderly overflowChecks setup connection)
    {event : Event Bytes} {rest : List (Event Bytes)} (queue : connection.amQueue = event :: rest)
    (sends : List (Who × Event ActiveMessages.Message)) :
    Orderly overflowChecks setup { connection with
      amQueue := rest
      am := ⟨.running, sends⟩ } := by
  obtain ⟨_, later⟩ := of_tail queue
  exact { orderly with
    amIntact := id
    amQueue := fun other member => orderly.amQueue other (later other member)
    stopping := fun member => orderly.stopping (later _ member)
    amEnded := fun ended => absurd rfl ended }

theorem Orderly.amEnds (orderly : Orderly overflowChecks setup connection)
    {rest : List (Event Bytes)} (queue : connection.amQueue = .stop :: rest)
    (nothing : NothingForAm setup connection) :
    Orderly overflowChecks setup { connection with
      amQueue := rest
      am := ⟨.ended, []⟩ } := by
  obtain ⟨first, later⟩ := of_tail queue
  have gone := orderly.stopping first
  exact { orderly with
    amIntact := id
    amQueue := fun other member => orderly.amQueue other (later other member)
    stopping := fun _ => gone
    amEnded := fun _ => ⟨gone, nothing⟩ }

theorem Orderly.transport_running (orderly : Orderly overflowChecks setup connection)
    {byte : UInt8}
    (busy : connection.downward byte ≠ [] ∨ connection.hands byte ≠ none) :
    connection.transport = .running ∧ byte ∈ setup.workerBytes := by
  constructor
  · by_contra gone
    obtain ⟨empty, free⟩ := orderly.drained gone byte
    rcases busy with queued | held
    · exact queued empty
    · exact held free
  · by_contra absent
    obtain ⟨empty, free⟩ := orderly.elsewhere byte absent
    rcases busy with queued | held
    · exact queued empty
    · exact held free

theorem Orderly.dispatcherReceive (orderly : Orderly overflowChecks setup connection)
    {byte : UInt8} {event : Event Bytes} {rest : List (Event Bytes)}
    (queue : connection.downward byte = event :: rest) (packet : Event Bytes) :
    Orderly overflowChecks setup { connection with
      downward := Function.update connection.downward byte rest
      hands := Function.update connection.hands byte (some packet) } := by
  have busy : connection.downward byte ≠ [] := by simp [queue]
  obtain ⟨transport, member⟩ := orderly.transport_running (.inl busy)
  have remaining : ∀ event ∈ rest, ∃ payload, event = .data payload :=
    fun event later => orderly.queued byte event ((of_tail queue).2 event later)
  exact { orderly with
    elsewhere := orderly.elsewhere_update member rest (some packet)
    drained := fun gone => absurd transport gone
    queued := only_data_update remaining orderly.queued }

theorem Orderly.dispatcherSend (orderly : Orderly overflowChecks setup connection) {byte : UInt8}
    {packet : Event Bytes} (full : connection.hands byte = some packet)
    (toTransport : List (Event Bytes)) :
    Orderly overflowChecks setup { connection with
      hands := Function.update connection.hands byte none
      toTransport := toTransport } := by
  have busy : connection.hands byte ≠ none := by simp [full]
  obtain ⟨transport, member⟩ := orderly.transport_running (.inr busy)
  have elsewhere := orderly.elsewhere_update member (connection.downward byte) none
  rw [Function.update_eq_self] at elsewhere
  exact { orderly with
    elsewhere := elsewhere
    drained := fun gone => absurd transport gone }

theorem Orderly.dispatcherEnd (orderly : Orderly overflowChecks setup connection) (byte : UInt8) :
    Orderly overflowChecks setup (connection.dispatcherEnd byte) := by
  refine { orderly with dispatchersIntact := ?_ }
  intro other
  by_cases same : other = byte
  · simp only [Connection.dispatcherEnd, same, Function.update_self]
    exact id
  · simp only [Connection.dispatcherEnd, Function.update_of_ne same]
    exact orderly.dispatchersIntact other

theorem Orderly.transportEnd (orderly : Orderly overflowChecks setup connection)
    (quiescent : ∀ byte ∈ setup.workerBytes,
      connection.downward byte = [] ∧ connection.hands byte = none) :
    Orderly overflowChecks setup { connection with transport := .ended } := by
  have gone : Life.ended ≠ .running := by simp
  refine { orderly with
    transportIntact := id
    phase := fun running => absurd running gone
    worker := fun _ => gone
    drained := ?_
    stopping := fun _ => gone
    amEnded := fun ended => ⟨gone, (orderly.amEnded ended).2⟩ }
  intro _ byte
  by_cases member : byte ∈ setup.workerBytes
  · exact quiescent byte member
  · exact orderly.elsewhere byte member

theorem Orderly.callAmStopper (orderly : Orderly overflowChecks setup connection)
    (gone : connection.transport ≠ .running) (phase : Phase) :
    Orderly overflowChecks setup { connection with
      phase := phase
      amQueue := connection.amQueue ++ [.stop] } := by
  refine { orderly with
    phase := fun running => absurd running gone
    amQueue := ?_
    stopping := fun _ => gone }
  intro event member
  rcases List.mem_append.mp member with earlier | new
  · exact orderly.amQueue event earlier
  · rw [List.mem_singleton.mp new]
    trivial

variable [DecidableEq Uuid] [DecidableEq Who] {label : Label Uuid Who}

theorem orderly_step
    (met : Quiescent overflowChecks setup connection label ∧
      ∀ consumer, label ≠ .userDrop consumer)
    (orderly : Orderly overflowChecks setup connection)
    (taken : connection.step overflowChecks setup label = some next) :
    Orderly overflowChecks setup next := by
  obtain ⟨quiescent, keeps⟩ := met
  cases moved_of_step taken with
  | userData byte payload member runs => exact orderly.userData member quiescent payload _
  | userDrop consumer => exact absurd rfl (keeps consumer)
  | transportSend event unended runs =>
      exact orderly.transportSend quiescent (orderly.transport_of_unended unended)
  | transportFails event transport gone => exact absurd transport (orderly.worker gone)
  | transportReceive event rest transport queue => exact { orderly with }
  | transportPanic message transport => exact absurd quiescent id
  | workerReceive order event rest sends idle queue complete handled =>
      exact orderly.workerReceive queue (handle_data_routed complete handled) _
  | workerRefuses order event rest message idle queue complete refused =>
      have dispatchable := (orderly.sound event (of_tail queue).1).1
      exact absurd dispatchable (handle_data_refused refused)
  | workerSend sending rest busy channel => exact orderly.workerSend busy _
  | workerFails sending rest busy closed =>
      rw [orderly.channel_open busy] at closed
      cases closed
  | workerHangUp idle queue gone => exact orderly.workerEnds gone
  | workerStop idle phase =>
      exact orderly.workerEnds (orderly.stopped (by simp [phase]) (by simp [phase]))
  | amReceive order worker event rest sends registered idle queue handled =>
      exact orderly.amReceive queue sends
  | amEnds order worker event rest registered idle queue handled =>
      have stop := worker.handle_event_ends handled
      rw [stop] at queue
      exact orderly.amEnds queue (quiescent (by rw [queue]; rfl))
  | amRefuses order worker event rest message registered idle queue refused =>
      have digestible := orderly.amQueue event (of_tail queue).1
      exact absurd digestible (worker.handle_event_refused refused)
  | amSend sending rest busy channel =>
      exact { orderly with
        amIntact := id
        amEnded := fun ended => absurd rfl ended }
  | amFails sending rest busy closed =>
      rw [orderly.kept] at closed
      cases closed
  | dispatcherReceive byte event packet rest runs free queue handled =>
      exact orderly.dispatcherReceive queue packet
  | dispatcherRefuses byte event rest message runs free queue refused =>
      obtain ⟨payload, rfl⟩ := orderly.queued byte event (of_tail queue).1
      cases refused
  | dispatcherSend byte packet runs full transport => exact orderly.dispatcherSend full _
  | dispatcherFails byte packet runs full gone =>
      have busy : connection.hands byte ≠ none := by simp [full]
      exact absurd (orderly.transport_running (.inr busy)).1 gone
  | dispatcherHangUp byte => exact orderly.dispatcherEnd byte
  | dispatcherStop byte => exact orderly.dispatcherEnd byte
  | stop phase => exact { orderly with phase := fun _ => .inr rfl }
  | transportEnd phase transport => exact orderly.transportEnd quiescent
  | transportJoined order phase gone => exact orderly.proceed gone _
  | callStopper byte rest phase =>
      exact orderly.proceed (orderly.stopped (by simp [phase]) (by simp [phase])) _
  | callAmStopper byte rest phase runs =>
      exact orderly.callAmStopper (orderly.stopped (by simp [phase]) (by simp [phase])) _
  | amJoined rest phase gone =>
      exact orderly.proceed (orderly.stopped (by simp [phase]) (by simp [phase])) _
  | signal phase =>
      exact orderly.proceed (orderly.stopped (by simp [phase]) (by simp [phase])) _
  | joined phase gone =>
      exact orderly.proceed (orderly.stopped (by simp [phase]) (by simp [phase])) _

/-- In every run in which users keep their receivers and whose steps are all quiescent, no thread
of the connection panics. -/
theorem quiescent_shutdown_unharmed {labels : List (Label Uuid Who)} {last : Connection Who}
    (reached : run (Connection.step overflowChecks setup) .fresh labels = some last)
    (keeps : ∀ label ∈ labels, ∀ consumer, label ≠ .userDrop consumer)
    (quiescent : Meets (Connection.step overflowChecks setup)
      (Quiescent overflowChecks setup) .fresh labels) : Unharmed last := by
  have orderly : Orderly overflowChecks setup last :=
    invariant_of_meets (fun _ _ _ => orderly_step) (meets_and_of_mem quiescent keeps)
      orderly_fresh reached
  exact ⟨orderly.transportIntact, orderly.workerIntact, orderly.amIntact,
    orderly.dispatchersIntact⟩

end Invariant

def beforeStop : List (Label Nat Nat) :=
  [.transportSend .connected, .workerReceive [0, 1], .workerSend, .workerSend, .amReceive [0],
    .amSend, .userData 1 [5], .dispatcherReceive 1, .dispatcherSend 1, .transportReceive]

def orderlyStop : List (Label Nat Nat) :=
  [.stop, .transportSend .disconnected, .transportEnd, .workerReceive [0, 1], .workerSend,
    .workerSend, .transportJoined [1, 0], .callStopper, .callStopper, .amReceive [0], .amSend,
    .amReceive [0], .amJoined, .signal, .workerStop, .dispatcherStop 0, .dispatcherStop 1,
    .joined]

theorem orderly_stop_unharmed :
    ∃ last, run (Connection.step true receiverAndRaw) .fresh (beforeStop ++ orderlyStop) =
        some last ∧ last.phase = .stopped ∧ Unharmed last := by
  have enabled : (run (Connection.step true receiverAndRaw) .fresh
      (beforeStop ++ orderlyStop)).map (fun last => last.phase) = some .stopped := by
    decide +kernel
  obtain ⟨last, reached, phase⟩ := Option.map_eq_some_iff.mp enabled
  exact ⟨last, reached, phase, quiescent_shutdown_unharmed reached
    (by simp [beforeStop, orderlyStop]) (by decide +kernel)⟩

/-- The last notice is in the queue of the `TransportWorker` when the ActiveMessage thread ends. -/
def lateNotice : List (Label Nat Nat) :=
  [.stop, .transportSend .disconnected, .transportEnd, .transportJoined [0, 1], .callStopper,
    .amReceive [0], .workerReceive [0, 1], .workerSend]

def lateData : List (Label Nat Nat) :=
  [.userData 1 [5], .stop, .transportEnd, .dispatcherReceive 1, .dispatcherSend 1]

theorem shutdown_panics :
    (∃ last, run (Connection.step true receiverAndRaw) .fresh (beforeStop ++ lateNotice) =
        some last ∧ last.am.life = .ended ∧ last.worker.life = unwrapFailed) ∧
    ∃ last, run (Connection.step true receiverAndRaw) .fresh (beforeStop ++ lateData) =
        some last ∧ last.transport = .ended ∧ last.dispatchers 1 = unwrapFailed := by
  constructor
  · have enabled : (run (Connection.step true receiverAndRaw) .fresh
        (beforeStop ++ lateNotice)).map (fun last => (last.am.life, last.worker.life)) =
          some (.ended, unwrapFailed) := by
      decide +kernel
    obtain ⟨last, reached, lives⟩ := Option.map_eq_some_iff.mp enabled
    exact ⟨last, reached, congrArg Prod.fst lives, congrArg Prod.snd lives⟩
  · have enabled : (run (Connection.step true receiverAndRaw) .fresh
        (beforeStop ++ lateData)).map (fun last => (last.transport, last.dispatchers 1)) =
          some (.ended, unwrapFailed) := by
      decide +kernel
    obtain ⟨last, reached, lives⟩ := Option.map_eq_some_iff.mp enabled
    exact ⟨last, reached, congrArg Prod.fst lives, congrArg Prod.snd lives⟩

end MoteConnection.ConnectionShutdown
