import MoteConnection.ConnectionThreads

/-!
# A consumer that is dropped

The owner of a `RawDispatcher` or of an `AMReceiver` drops it and with it the
receiver of a channel. A later send on the channel panics: on the channel of an
`AMReceiver` in the ActiveMessage thread, which closes the channel of its
dispatcher, so that the next send there panics in the `TransportWorker`.

A run with the drop is compared with the run that takes the same steps without
it.
-/

namespace MoteConnection.DroppedConsumer

open FanOut LabeledRuns
open MoteConnection.Runtime MoteConnection.ActiveMessageRouting
open MoteConnection.ConnectionWorkers MoteConnection.ConnectionThreads

set_option autoImplicit false

variable {Uuid Who : Type}

def Panicked : Life → Prop
  | .panicked _ => True
  | .running | .ended => False

instance : DecidablePred Panicked
  | .panicked _ => .isTrue trivial
  | .running | .ended => .isFalse fun absurd => absurd

def WorkerPanicked (connection : Connection Who) : Prop :=
  Panicked connection.worker.life ∨ Panicked connection.am.life

instance (connection : Connection Who) : Decidable (WorkerPanicked connection) :=
  inferInstanceAs (Decidable (_ ∨ _))

/-- What every other receiver and dispatcher has got is the same in both runs. -/
def SameForOthers (consumer : Consumer Who) (kept last : Connection Who) : Prop :=
  (∀ byte, consumer ≠ .raw byte → last.upward byte = kept.upward byte) ∧
    ∀ who, consumer ≠ .receiver who → last.received who = kept.received who

variable [DecidableEq Uuid] [DecidableEq Who]

/-- The event that is taken can be handled, and what is sent has a receiver. -/
def Undisturbed (overflowChecks : Bool) (setup : Dispatchers Uuid Who)
    (connection : Connection Who) : Label Uuid Who → Prop
  | .workerReceive _ => ∀ event ∈ connection.fromTransport.head?, Dispatchable event
  | .workerSend => ∀ sending ∈ connection.worker.outbox.head?,
      connection.channelOpen setup sending.1 = true
  | .amReceive _ => ∀ event ∈ connection.amQueue.head?,
      ConnectionWorker.Digestible overflowChecks event
  | .amSend => ∀ sending ∈ connection.am.outbox.head?, .receiver sending.1 ∉ connection.dropped
  | _ => True

instance (overflowChecks : Bool) (setup : Dispatchers Uuid Who) (connection : Connection Who) :
    DecidablePred (Undisturbed overflowChecks setup connection)
  | .workerReceive _ =>
      inferInstanceAs (Decidable (∀ event ∈ connection.fromTransport.head?, Dispatchable event))
  | .workerSend =>
      inferInstanceAs (Decidable (∀ sending ∈ connection.worker.outbox.head?,
        connection.channelOpen setup sending.1 = true))
  | .amReceive _ =>
      inferInstanceAs (Decidable (∀ event ∈ connection.amQueue.head?,
        ConnectionWorker.Digestible overflowChecks event))
  | .amSend =>
      inferInstanceAs (Decidable (∀ sending ∈ connection.am.outbox.head?,
        .receiver sending.1 ∉ connection.dropped))
  | .userData _ _ | .userDrop _ | .transportSend _ | .transportReceive | .transportPanic _
  | .workerHangUp | .workerStop | .dispatcherReceive _ | .dispatcherSend _ | .dispatcherHangUp _
  | .dispatcherStop _ | .stop | .transportEnd | .transportJoined _ | .callStopper | .amJoined
  | .signal | .joined => .isTrue trivial

section Sends

omit [DecidableEq Uuid]

variable {overflowChecks : Bool} {setup : Dispatchers Uuid Who} {connection : Connection Who}

theorem undisturbed_worker_receive_iff (order : List UInt8) {event : Event Bytes}
    {rest : List (Event Bytes)} (queue : connection.fromTransport = event :: rest) :
    Undisturbed overflowChecks setup connection (.workerReceive order) ↔ Dispatchable event := by
  simp [Undisturbed, queue]

theorem undisturbed_worker_send_iff {sending : UInt8 × Event Bytes}
    {rest : List (UInt8 × Event Bytes)}
    (busy : connection.worker = ⟨.running, sending :: rest⟩) :
    Undisturbed overflowChecks setup connection .workerSend ↔
      connection.channelOpen setup sending.1 = true := by
  simp [Undisturbed, busy]

theorem undisturbed_am_receive_iff (order : List Uuid) {event : Event Bytes}
    {rest : List (Event Bytes)} (queue : connection.amQueue = event :: rest) :
    Undisturbed overflowChecks setup connection (.amReceive order) ↔
      ConnectionWorker.Digestible overflowChecks event := by
  simp [Undisturbed, queue]

theorem undisturbed_am_send_iff {sending : Who × Event ActiveMessages.Message}
    {rest : List (Who × Event ActiveMessages.Message)}
    (busy : connection.am = ⟨.running, sending :: rest⟩) :
    Undisturbed overflowChecks setup connection .amSend ↔
      .receiver sending.1 ∉ connection.dropped := by
  simp [Undisturbed, busy]

end Sends

section Panics

variable {overflowChecks : Bool} {setup : Dispatchers Uuid Who} {connection next : Connection Who}
  {label : Label Uuid Who}

theorem still_running (undisturbed : Undisturbed overflowChecks setup connection label)
    (running : ¬ WorkerPanicked connection)
    (taken : connection.step overflowChecks setup label = some next) : ¬ WorkerPanicked next := by
  have worker : ¬ Panicked connection.worker.life := fun panicked => running (.inl panicked)
  have am : ¬ Panicked connection.am.life := fun panicked => running (.inr panicked)
  cases moved_of_step taken with
  | workerReceive => exact not_or.mpr ⟨id, am⟩
  | workerRefuses order event rest message idle queue complete refused =>
      have dispatchable := (undisturbed_worker_receive_iff order queue).mp undisturbed
      exact absurd dispatchable (handle_data_refused refused)
  | workerSend => exact not_or.mpr ⟨id, am⟩
  | workerFails sending rest busy closed =>
      rw [undisturbed_worker_send_iff busy, closed] at undisturbed
      cases undisturbed
  | workerHangUp | workerStop => exact not_or.mpr ⟨id, am⟩
  | amReceive | amEnds | amSend => exact not_or.mpr ⟨worker, id⟩
  | amRefuses order amWorker event rest message registered idle queue refused =>
      have digestible := (undisturbed_am_receive_iff order queue).mp undisturbed
      exact absurd digestible (amWorker.handle_event_refused refused)
  | amFails sending rest busy closed =>
      exact absurd closed ((undisturbed_am_send_iff busy).mp undisturbed)
  | _ => exact running

theorem disturbed_panics (disturbed : ¬ Undisturbed overflowChecks setup connection label)
    (taken : connection.step overflowChecks setup label = some next) : WorkerPanicked next := by
  cases moved_of_step taken with
  | workerReceive order event rest sends idle queue complete handled =>
      have dispatchable := handle_data_dispatchable handled
      exact absurd ((undisturbed_worker_receive_iff order queue).mpr dispatchable) disturbed
  | workerSend sending rest busy channel =>
      exact absurd ((undisturbed_worker_send_iff busy).mpr channel) disturbed
  | workerRefuses | workerFails => exact .inl trivial
  | amReceive order amWorker event rest sends registered idle queue handled =>
      have digestible := amWorker.handle_event_digestible handled
      exact absurd ((undisturbed_am_receive_iff order queue).mpr digestible) disturbed
  | amEnds order amWorker event rest registered idle queue handled =>
      have digestible := amWorker.handle_event_digestible handled
      exact absurd ((undisturbed_am_receive_iff order queue).mpr digestible) disturbed
  | amSend sending rest busy channel =>
      exact absurd ((undisturbed_am_send_iff busy).mpr channel) disturbed
  | amRefuses | amFails => exact .inr trivial
  | _ => exact absurd trivial disturbed

theorem panicked_step (panicked : WorkerPanicked connection)
    (taken : connection.step overflowChecks setup label = some next) : WorkerPanicked next := by
  have workerRuns {outbox : List (UInt8 × Event Bytes)}
      (worker : connection.worker = ⟨.running, outbox⟩) : Panicked connection.am.life := by
    rcases panicked with stopped | stopped
    · rw [worker] at stopped
      exact absurd stopped id
    · exact stopped
  have amRuns {outbox : List (Who × Event ActiveMessages.Message)}
      (am : connection.am = ⟨.running, outbox⟩) : Panicked connection.worker.life := by
    rcases panicked with stopped | stopped
    · exact stopped
    · rw [am] at stopped
      exact absurd stopped id
  cases moved_of_step taken with
  | workerReceive order event rest sends idle => exact .inr (workerRuns idle)
  | workerRefuses order event rest message idle => exact .inr (workerRuns idle)
  | workerSend sending rest busy => exact .inr (workerRuns busy)
  | workerFails sending rest busy => exact .inr (workerRuns busy)
  | workerHangUp idle => exact .inr (workerRuns idle)
  | workerStop idle => exact .inr (workerRuns idle)
  | amReceive order worker event rest sends registered idle => exact .inl (amRuns idle)
  | amEnds order worker event rest registered idle => exact .inl (amRuns idle)
  | amRefuses order worker event rest message registered idle => exact .inl (amRuns idle)
  | amSend sending rest busy => exact .inl (amRuns busy)
  | amFails sending rest busy => exact .inl (amRuns busy)
  | _ => exact panicked

end Panics

section Mirror

variable {overflowChecks : Bool} {setup : Dispatchers Uuid Who} {connection next : Connection Who}

/-- The steps that look at what has been dropped, or change it. -/
def readsDropped : Label Uuid Who → Bool
  | .workerSend | .amSend | .userDrop _ => true
  | _ => false

theorem step_blind (connection : Connection Who) (others : List (Consumer Who))
    {label : Label Uuid Who} (blind : readsDropped label = false) :
    { connection with dropped := others }.step overflowChecks setup label =
      (connection.step overflowChecks setup label).map fun next =>
        { next with dropped := others } := by
  cases label with
  | userData | transportPanic | workerHangUp | workerStop | dispatcherHangUp | dispatcherStop | stop
  | transportEnd | transportJoined | signal | joined =>
      simp only [Connection.step]
      split_ifs <;> rfl
  | transportSend event =>
      simp only [Connection.step]
      split_ifs <;> rfl
  | transportReceive | amJoined =>
      simp only [Connection.step]
      split <;> rfl
  | workerReceive order =>
      simp only [Connection.step, Connection.workerReceive]
      split
      · split_ifs
        · split <;> rfl
        · rfl
      · rfl
  | amReceive order =>
      simp only [Connection.step, Connection.amReceive]
      split
      · split_ifs
        · split <;> rfl
        · rfl
      · rfl
  | dispatcherReceive byte =>
      simp only [Connection.step, Connection.dispatcherReceive]
      split
      · split <;> rfl
      · rfl
  | dispatcherSend byte =>
      simp only [Connection.step, Connection.dispatcherSend]
      split
      · split_ifs <;> rfl
      · rfl
  | callStopper =>
      simp only [Connection.step, Connection.callStopper]
      split
      · split_ifs <;> rfl
      · rfl
  | workerSend | amSend | userDrop => cases blind

def Restored (connection kept : Connection Who) : Prop :=
  ∃ others ⊆ connection.dropped, kept = { connection with dropped := others }

omit [DecidableEq Uuid] in
theorem channel_open_restored {others : List (Consumer Who)} {byte : UInt8}
    (fewer : others ⊆ connection.dropped) (channel : connection.channelOpen setup byte = true) :
    { connection with dropped := others }.channelOpen setup byte = true := by
  unfold Connection.channelOpen at channel ⊢
  split_ifs at channel ⊢
  · exact channel
  · have kept := of_decide_eq_true channel
    exact decide_eq_true fun member => kept (fewer member)

theorem dropped_of_blind {label : Label Uuid Who} (blind : readsDropped label = false)
    (taken : connection.step overflowChecks setup label = some next) :
    next.dropped = connection.dropped := by
  cases moved_of_step taken with
  | userDrop => cases blind
  | _ => rfl

theorem restored_step (connection kept : Connection Who) (label : Label Uuid Who)
    (next : Connection Who) (undisturbed : Undisturbed overflowChecks setup connection label)
    (restored : Restored connection kept)
    (taken : connection.step overflowChecks setup label = some next) :
    ∃ reflected, kept.step overflowChecks setup label = some reflected ∧
      Restored next reflected := by
  obtain ⟨others, fewer, rfl⟩ := restored
  cases blind : readsDropped label with
  | false =>
      refine ⟨{ next with dropped := others }, ?_, others, ?_, rfl⟩
      · rw [step_blind connection others blind, taken]
        rfl
      · rw [dropped_of_blind blind taken]
        exact fewer
  | true =>
      cases moved_of_step taken with
      | userDrop consumer =>
          exact ⟨_, rfl, consumer :: others, List.cons_subset_cons consumer fewer, rfl⟩
      | workerSend sending rest busy channel =>
          have restored := channel_open_restored fewer channel
          exact ⟨_, worker_send_open busy restored, others, fewer, rfl⟩
      | workerFails sending rest busy closed =>
          rw [undisturbed_worker_send_iff busy, closed] at undisturbed
          cases undisturbed
      | amSend sending rest busy channel =>
          have kept : Consumer.receiver sending.1 ∉ others := fun member => channel (fewer member)
          exact ⟨_, am_send_open busy kept, others, fewer, rfl⟩
      | amFails sending rest busy closed =>
          exact absurd closed ((undisturbed_am_send_iff busy).mp undisturbed)
      | _ => cases blind

end Mirror

/-- For every run with a drop: neither worker panics and every other consumer gets what it would
have got in the same steps without the drop, if and only if no step of the run takes an event that
its handler refuses or sends to a consumer that has been dropped. -/
theorem others_undisturbed_iff (overflowChecks : Bool) (setup : Dispatchers Uuid Who)
    (consumer : Consumer Who) {before after : List (Label Uuid Who)} {last : Connection Who}
    (reached : run (Connection.step overflowChecks setup) .fresh
      (before ++ .userDrop consumer :: after) = some last) :
    (¬ WorkerPanicked last ∧
      ∃ kept, run (Connection.step overflowChecks setup) .fresh (before ++ after) = some kept ∧
        SameForOthers consumer kept last) ↔
      Meets (Connection.step overflowChecks setup) (Undisturbed overflowChecks setup) .fresh
        (before ++ .userDrop consumer :: after) := by
  have initially : ¬ WorkerPanicked (Connection.fresh : Connection Who) := not_or.mpr ⟨id, id⟩
  have running : ¬ WorkerPanicked last ↔ _ :=
    holds_iff_meets (Undisturbed overflowChecks setup)
      (fun connection => ¬ WorkerPanicked connection)
      (fun connection => ¬ WorkerPanicked connection)
      (fun _ _ _ undisturbed intact taken => still_running undisturbed intact taken)
      (fun _ intact => intact)
      (fun _ _ _ disturbed _ taken intact => intact (disturbed_panics disturbed taken))
      (fun _ _ _ panicked taken intact =>
        intact (panicked_step (not_not.mp panicked) taken))
      initially reached
  rw [running, and_iff_left_of_imp]
  intro meets
  obtain ⟨middle, begun, dropping⟩ := run_append_some.mp reached
  have dropped := (meets_append.mp meets).2 middle begun
  obtain ⟨_, ⟨⟩, remaining⟩ := run_cons_some.mp dropping
  have mirror : Restored { middle with dropped := consumer :: middle.dropped } middle :=
    ⟨middle.dropped, List.subset_cons_self _ _, rfl⟩
  obtain ⟨kept, reflected, others, _, rfl⟩ :=
    mirrored_run restored_step mirror (dropped.2 _ rfl) remaining
  exact ⟨_, run_append_some.mpr ⟨middle, begun, reflected⟩, fun _ _ => rfl, fun _ _ => rfl⟩

theorem silenced_of_run {overflowChecks : Bool} {setup : Dispatchers Uuid Who}
    {connection last : Connection Who} {labels : List (Label Uuid Who)}
    (panicked : Panicked connection.worker.life)
    (reached : run (Connection.step overflowChecks setup) connection labels = some last) :
    last.upward = connection.upward := by
  have silent (current : Connection Who) (label : Label Uuid Who) (next : Connection Who)
      (before : Panicked current.worker.life ∧ current.upward = connection.upward)
      (taken : current.step overflowChecks setup label = some next) :
      Panicked next.worker.life ∧ next.upward = connection.upward := by
    have stopped {outbox : List (UInt8 × Event Bytes)}
        (worker : current.worker = ⟨.running, outbox⟩) : False := by
      have life := before.1
      rw [worker] at life
      exact life
    cases moved_of_step taken with
    | workerReceive order event rest sends idle => exact (stopped idle).elim
    | workerRefuses order event rest message idle => exact (stopped idle).elim
    | workerSend sending rest busy => exact (stopped busy).elim
    | workerFails sending rest busy => exact (stopped busy).elim
    | workerHangUp idle => exact (stopped idle).elim
    | workerStop idle => exact (stopped idle).elim
    | _ => exact before
  exact (invariant_of_run silent ⟨panicked, rfl⟩ reached).2

def receiverAndRaw : Dispatchers Nat Nat where
  list :=
    [.am ⟨0x0001, some 0x22,
      ⟨∅, some 0, ∅, none, (∅ : HashMap Nat (AMReceiverHandle Nat)).insert 0 ⟨0⟩⟩⟩, .raw 1]
  distinct := by decide

def connecting : List (Label Nat Nat) :=
  [.transportSend .connected, .workerReceive [0, 1], .workerSend, .workerSend, .amReceive [0],
    .amSend]

def rawData : List (Label Nat Nat) :=
  [.transportSend (.data [1, 7]), .workerReceive [0, 1], .workerSend]

theorem drop_without_notice_undisturbed :
    ∃ last, run (Connection.step true receiverAndRaw) .fresh
        (connecting ++ .userDrop (.receiver 0) :: rawData) = some last ∧
      ¬ WorkerPanicked last ∧
      ∃ kept, run (Connection.step true receiverAndRaw) .fresh (connecting ++ rawData) =
          some kept ∧
        SameForOthers (.receiver 0) kept last := by
  have enabled : ∃ last, run (Connection.step true receiverAndRaw) .fresh
      (connecting ++ .userDrop (.receiver 0) :: rawData) = some last := ⟨_, rfl⟩
  obtain ⟨last, reached⟩ := enabled
  exact ⟨last, reached,
    (others_undisturbed_iff true receiverAndRaw (.receiver 0) reached).mpr (by decide)⟩

def cascade : List (Label Nat Nat) :=
  [.transportSend .connected, .transportSend .disconnected, .transportSend (.data [1, 7]),
    .workerReceive [0, 1], .workerSend, .workerSend, .amReceive [0], .amSend,
    .workerReceive [0, 1], .workerSend]

theorem dropped_receiver_silences_dispatcher :
    ∃ last kept,
      run (Connection.step true receiverAndRaw) .fresh (.userDrop (.receiver 0) :: cascade) =
        some last ∧
      Panicked last.am.life ∧ Panicked last.worker.life ∧
      (∀ labels final, run (Connection.step true receiverAndRaw) last labels = some final →
        final.upward 1 = [.connected]) ∧
      run (Connection.step true receiverAndRaw) .fresh
        (cascade ++ [.workerSend, .workerReceive [0, 1], .workerSend]) = some kept ∧
      kept.upward 1 = [.connected, .disconnected, .data [7]] := by
  refine ⟨_, _, rfl, by decide, by decide, ?_, rfl, by decide⟩
  intro labels final reached
  rw [silenced_of_run (by decide) reached]
  decide

end MoteConnection.DroppedConsumer
