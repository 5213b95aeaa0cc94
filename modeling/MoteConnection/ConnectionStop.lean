import MoteConnection.Library.BoundedRuns
import MoteConnection.ConnectionShutdown

/-!
# `stop` returns

Once `Connection::stop` has been called and the transport's thread honours its
`Stop`, nothing can keep `stop` from returning: in every reachable state some
thread can go on, whatever has panicked before, and each message of a user and
each event of the transport is worth only so many steps. What it returns tells
of two of the threads only.
-/

namespace MoteConnection.ConnectionStop

open FanOut LabeledRuns BoundedRuns
open MoteConnection.Runtime MoteConnection.ActiveMessages MoteConnection.ActiveMessageRouting
open MoteConnection.ConnectionWorkers MoteConnection.ConnectionThreads
open MoteConnection.DroppedConsumer MoteConnection.ConnectionShutdown

set_option autoImplicit false

variable {Uuid Who : Type}

/-- The steps of the connection's threads and of `stop` itself. Users and the transport act from
outside; a user who keeps the sender of a dispatcher keeps its worker from hanging up. -/
def own : Label Uuid Who → Bool
  | .userData _ _ | .userDrop _ | .transportSend _ | .transportPanic _ | .dispatcherHangUp _
  | .stop => false
  | _ => true

section Potential

variable (setup : Dispatchers Uuid Who)

/-- What an event in the queue of the ActiveMessage thread is worth: its own receive and a send to
each receiver. -/
def amWorth : Nat :=
  2 + (setup.am.map fun worker => worker.receivers.handles.keys.length).getD 0

def eventWorth : Nat := 1 + (1 + setup.worker.txs.keys.length) * (amWorth setup + 1)

def phaseWorth : Phase → Nat
  | .running => 0
  | .stoppingTransport => 3 + setup.bytes.length * (amWorth setup + 2)
  | .stoppingDispatchers order => 2 + order.length * (amWorth setup + 2)
  | .joiningDispatcher order => 3 + order.length * (amWorth setup + 2)
  | .signalled => 1
  | .stopped => 0

def lifeWorth (life : Life) : Nat := if life = .running then 1 else 0

def dispatcherWorth (connection : Connection Who) (byte : UInt8) : Nat :=
  3 * (connection.downward byte).length + (if connection.hands byte = none then 0 else 2) +
    lifeWorth (connection.dispatchers byte)

def dispatchersWorth (connection : Connection Who) : Nat :=
  ∑ index : Fin UInt8.size, dispatcherWorth connection (UInt8.ofFin index)

/-- How many steps the threads and `stop` can take at most before something comes from outside. -/
def potential (connection : Connection Who) : Nat :=
  phaseWorth setup connection.phase + lifeWorth connection.transport +
    connection.toTransport.length +
    (connection.fromTransport.length * eventWorth setup +
      connection.worker.outbox.length * (amWorth setup + 1) + lifeWorth connection.worker.life) +
    (connection.amQueue.length * amWorth setup + connection.am.outbox.length) +
    dispatchersWorth connection

def cost : Label Uuid Who → Nat
  | .userData _ _ => 3
  | .transportSend _ => eventWorth setup
  | .stop => 4 + setup.bytes.length * (amWorth setup + 2)
  | _ => 0

end Potential

section Paying

variable {overflowChecks : Bool} {setup : Dispatchers Uuid Who} {connection next : Connection Who}

theorem dispatchers_changed {byte : UInt8}
    (others : ∀ other, other ≠ byte →
      dispatcherWorth next other = dispatcherWorth connection other) :
    dispatchersWorth next + dispatcherWorth connection byte =
      dispatchersWorth connection + dispatcherWorth next byte := by
  have changed := @sum_of_changed (Fin UInt8.size) _
    (fun index => dispatcherWorth connection (UInt8.ofFin index))
    (fun index => dispatcherWorth next (UInt8.ofFin index)) byte.toFin (by
      intro index differs
      apply others
      rintro rfl
      exact differs rfl)
  simp only [UInt8.ofFin_toFin] at changed
  exact changed

theorem event_sends {order : List UInt8} {event : Event Bytes}
    {sends : List (UInt8 × Event Bytes)} (complete : order.Perm setup.worker.txs.keys)
    (handled : setup.worker.handleData order event = .returned sends) :
    sends.length ≤ 1 + setup.worker.txs.keys.length := by
  have notified (event : Event Bytes) :
      (setup.worker.notify event order).length ≤ 1 + setup.worker.txs.keys.length := by
    have visited : (values setup.worker.txs order).length ≤ order.length :=
      List.length_filterMap_le _ _
    rw [TransportWorker.notify, List.length_map]
    have sameLength := complete.length_eq
    omega
  cases event with
  | data message =>
      rw [TransportWorker.handleData, TransportWorker.send] at handled
      obtain ⟨first, _, rest⟩ := Outcome.bind_eq_returned.mp handled
      split at rest
      · obtain ⟨payload, _, single⟩ := Outcome.bind_eq_returned.mp rest
        cases single
        simp
      · cases rest
        simp
  | connected =>
      cases handled
      exact notified .connected
  | disconnected =>
      cases handled
      exact notified .disconnected
  | stop => cases handled
  | error => cases handled

theorem life_worth_running : lifeWorth .running = 1 := rfl

theorem life_worth_gone {life : Life} (gone : life ≠ .running) : lifeWorth life = 0 :=
  if_neg gone

/-- A dispatcher's step changes its own worth and perhaps the transport's queue. -/
theorem dispatcher_falls {byte : UInt8} {toTransport : List (Event Bytes)}
    {downward : UInt8 → List (Event Bytes)} {hands : UInt8 → Option (Event Bytes)}
    {dispatchers : UInt8 → Life}
    (others : ∀ other, other ≠ byte → downward other = connection.downward other ∧
      hands other = connection.hands other ∧ dispatchers other = connection.dispatchers other)
    (less : toTransport.length +
        (3 * (downward byte).length + (if hands byte = none then 0 else 2) +
          lifeWorth (dispatchers byte)) <
      connection.toTransport.length + dispatcherWorth connection byte) :
    potential setup { connection with
      toTransport := toTransport
      downward := downward
      hands := hands
      dispatchers := dispatchers } < potential setup connection := by
  have changed := @dispatchers_changed _ connection { connection with
    toTransport := toTransport
    downward := downward
    hands := hands
    dispatchers := dispatchers } byte (by
      intro other differs
      obtain ⟨one, two, three⟩ := others other differs
      simp only [dispatcherWorth, one, two, three])
  have own : dispatcherWorth { connection with
      toTransport := toTransport
      downward := downward
      hands := hands
      dispatchers := dispatchers } byte =
      3 * (downward byte).length + (if hands byte = none then 0 else 2) +
        lifeWorth (dispatchers byte) := rfl
  rw [own] at changed
  simp only [potential]
  omega

variable [DecidableEq Uuid]

theorem am_sends {worker : ActiveMessageRouting.ConnectionWorker Uuid Who} {order : List Uuid}
    {event : Event Bytes} {sends : List (Who × Event Message)} (registered : setup.am = some worker)
    (complete : order.Perm worker.receivers.handles.keys)
    (handled : worker.handleEvent overflowChecks order event = .returned (some sends)) :
    sends.length + 1 ≤ amWorth setup := by
  have worth : amWorth setup = 2 + worker.receivers.handles.keys.length := by
    rw [amWorth, registered]
    rfl
  have notified (event : Event Message) :
      (worker.notify event order).length + 1 ≤ 2 + worker.receivers.handles.keys.length := by
    have visited : (values worker.receivers.handles order).length ≤ order.length :=
      List.length_filterMap_le _ _
    rw [ConnectionWorker.notify, List.length_map]
    have sameLength := complete.length_eq
    omega
  rw [worth]
  cases event with
  | data data =>
      rw [ConnectionWorker.handleEvent] at handled
      obtain ⟨parsed, _, turn⟩ := Outcome.bind_eq_returned.mp handled
      cases parsed with
      | error error =>
          cases turn
          simp
          omega
      | ok message =>
          cases turn
          have single : (worker.handleMessage message).length ≤ 1 := by
            unfold ConnectionWorker.handleMessage
            split_ifs
            · split <;> simp
            · simp
          omega
  | connected =>
      cases handled
      exact notified .connected
  | disconnected =>
      cases handled
      exact notified .disconnected
  | stop => cases handled
  | error => cases handled

variable [DecidableEq Who]

theorem am_receive_order {order : List Uuid}
    {worker : ActiveMessageRouting.ConnectionWorker Uuid Who} (registered : setup.am = some worker)
    (taken : connection.step overflowChecks setup (.amReceive order) = some next) :
    order.Perm worker.receivers.handles.keys := by
  simp only [Connection.step, Connection.amReceive] at taken
  split at taken
  · rename_i other event rest found _ _
    rw [registered] at found
    cases found
    split_ifs at taken with complete
    exact complete
  · cases taken

theorem joined_order {order : List UInt8}
    (taken : connection.step overflowChecks setup (.transportJoined order) = some next) :
    order.Perm setup.bytes := by
  simp only [Connection.step] at taken
  split_ifs at taken with allowed
  exact allowed.2.2

theorem dispatcher_step_falls {byte : UInt8} {label : Label Uuid Who}
    (acts : label = .dispatcherReceive byte ∨ label = .dispatcherSend byte ∨
      label = .dispatcherHangUp byte ∨ label = .dispatcherStop byte)
    (taken : connection.step overflowChecks setup label = some next) :
    potential setup next < potential setup connection := by
  have elsewhere {Value : Type} (table : UInt8 → Value) (value : Value) :
      ∀ other, other ≠ byte → Function.update table byte value other = table other :=
    fun other differs => Function.update_of_ne differs _ _
  have ended (runs : connection.dispatchers byte = .running)
      (free : connection.hands byte = none) :
      potential setup (connection.dispatcherEnd byte) < potential setup connection := by
    apply @dispatcher_falls _ _ setup connection byte connection.toTransport
    · intro other differs
      exact ⟨rfl, rfl, elsewhere _ _ other differs⟩
    · have gone := @life_worth_gone .ended (by simp)
      simp only [dispatcherWorth, runs, free, Function.update_self, life_worth_running, gone]
      omega
  have moved := moved_of_step taken
  rcases acts with rfl | rfl | rfl | rfl
  · cases moved with
    | dispatcherReceive byte event packet rest runs free queue handled =>
        apply @dispatcher_falls _ _ setup connection byte connection.toTransport
        · intro other differs
          exact ⟨elsewhere _ _ other differs, elsewhere _ _ other differs, rfl⟩
        · simp only [dispatcherWorth, runs, free, queue, Function.update_self, List.length_cons,
            reduceCtorEq, if_false, if_true]
          omega
    | dispatcherRefuses byte event rest message runs free queue refused =>
        apply @dispatcher_falls _ _ setup connection byte connection.toTransport
        · intro other differs
          exact ⟨elsewhere _ _ other differs, rfl, elsewhere _ _ other differs⟩
        · have gone := @life_worth_gone (.panicked message) (by simp)
          simp only [dispatcherWorth, runs, free, queue, Function.update_self, List.length_cons,
            if_true, gone]
          omega
  · cases moved with
    | dispatcherSend byte packet runs full transport =>
        apply @dispatcher_falls _ _ setup connection byte
        · intro other differs
          exact ⟨rfl, elsewhere _ _ other differs, rfl⟩
        · simp only [dispatcherWorth, runs, full, Function.update_self, List.length_append,
            List.length_singleton, reduceCtorEq, if_false, if_true]
          omega
    | dispatcherFails byte packet runs full gone =>
        apply @dispatcher_falls _ _ setup connection byte connection.toTransport
        · intro other differs
          exact ⟨rfl, elsewhere _ _ other differs, elsewhere _ _ other differs⟩
        · have gone := @life_worth_gone unwrapFailed (by simp [unwrapFailed])
          simp only [dispatcherWorth, runs, full, Function.update_self, life_worth_running, gone,
            reduceCtorEq, if_false, if_true]
          omega
  · cases moved with
    | dispatcherHangUp byte runs free queue => exact ended runs free
  · cases moved with
    | dispatcherStop byte runs free phase => exact ended runs free

theorem worker_step_falls {label : Label Uuid Who}
    (acts : (∃ order, label = .workerReceive order) ∨ label = .workerSend ∨
      label = .workerHangUp ∨ label = .workerStop)
    (taken : connection.step overflowChecks setup label = some next) :
    potential setup next < potential setup connection := by
  have moved := moved_of_step taken
  rcases acts with ⟨order, rfl⟩ | rfl | rfl | rfl
  · cases moved with
    | workerReceive order event rest sends idle queue complete handled =>
        have bound := event_sends complete handled
        have paid := Nat.mul_le_mul_right (amWorth setup + 1) bound
        simp only [potential, dispatchersWorth, dispatcherWorth, queue, idle, List.length_cons,
          List.length_nil, Nat.succ_mul, Nat.zero_mul, eventWorth]
        omega
    | workerRefuses order event rest message idle queue complete refused =>
        simp only [potential, dispatchersWorth, dispatcherWorth, queue, idle, List.length_cons,
          List.length_nil, Nat.succ_mul, Nat.zero_mul, eventWorth, life_worth_running]
        have gone := @life_worth_gone (.panicked message) (by simp)
        omega
  · cases moved with
    | workerSend sending rest busy channel =>
        have passed : (connection.passOn setup sending).length ≤ connection.amQueue.length + 1 := by
          unfold Connection.passOn
          split_ifs
          · simp
          · omega
        have paid := Nat.mul_le_mul_right (amWorth setup) passed
        rw [Nat.succ_mul] at paid
        simp only [potential, dispatchersWorth, dispatcherWorth, busy, List.length_cons,
          Nat.succ_mul]
        omega
    | workerFails sending rest busy closed =>
        have gone := @life_worth_gone unwrapFailed (by simp [unwrapFailed])
        simp only [potential, dispatchersWorth, dispatcherWorth, busy, List.length_cons,
          List.length_nil, Nat.succ_mul, Nat.zero_mul, life_worth_running]
        omega
  · cases moved with
    | workerHangUp idle queue gone =>
        have ended := @life_worth_gone .ended (by simp)
        simp only [potential, dispatchersWorth, dispatcherWorth, idle, List.length_nil,
          life_worth_running]
        omega
  · cases moved with
    | workerStop idle phase =>
        have ended := @life_worth_gone .ended (by simp)
        simp only [potential, dispatchersWorth, dispatcherWorth, idle, List.length_nil,
          life_worth_running]
        omega

theorem am_step_falls {label : Label Uuid Who}
    (acts : (∃ order, label = .amReceive order) ∨ label = .amSend)
    (taken : connection.step overflowChecks setup label = some next) :
    potential setup next < potential setup connection := by
  have moved := moved_of_step taken
  have worth : 2 ≤ amWorth setup := Nat.le_add_right _ _
  rcases acts with ⟨order, rfl⟩ | rfl
  · cases moved with
    | amReceive order worker event rest sends registered idle queue handled =>
        have bound := am_sends registered (am_receive_order registered taken) handled
        simp only [potential, dispatchersWorth, dispatcherWorth, queue, idle, List.length_cons,
          List.length_nil, Nat.succ_mul]
        omega
    | amEnds order worker event rest registered idle queue handled =>
        simp only [potential, dispatchersWorth, dispatcherWorth, queue, idle, List.length_cons,
          List.length_nil, Nat.succ_mul]
        omega
    | amRefuses order worker event rest message registered idle queue refused =>
        simp only [potential, dispatchersWorth, dispatcherWorth, queue, idle, List.length_cons,
          List.length_nil, Nat.succ_mul]
        omega
  · cases moved with
    | amSend sending rest busy channel =>
        simp only [potential, dispatchersWorth, dispatcherWorth, busy, List.length_cons]
        omega
    | amFails sending rest busy closed =>
        simp only [potential, dispatchersWorth, dispatcherWorth, busy, List.length_cons,
          List.length_nil]
        omega

theorem stop_step_falls {label : Label Uuid Who}
    (acts : label = .transportReceive ∨ label = .transportEnd ∨
      (∃ order, label = .transportJoined order) ∨ label = .callStopper ∨ label = .amJoined ∨
      label = .signal ∨ label = .joined)
    (taken : connection.step overflowChecks setup label = some next) :
    potential setup next < potential setup connection := by
  have moved := moved_of_step taken
  rcases acts with rfl | rfl | ⟨order, rfl⟩ | rfl | rfl | rfl | rfl
  · cases moved with
    | transportReceive event rest transport queue =>
        simp only [potential, dispatchersWorth, dispatcherWorth, queue, List.length_cons]
        omega
  · cases moved with
    | transportEnd phase transport =>
        have ended := @life_worth_gone .ended (by simp)
        simp only [potential, dispatchersWorth, dispatcherWorth, transport, life_worth_running]
        omega
  · have length := (joined_order taken).length_eq
    cases moved with
    | transportJoined order phase gone =>
        simp only [potential, dispatchersWorth, dispatcherWorth, phase, phaseWorth, length]
        omega
  · cases moved with
    | callStopper byte rest phase =>
        simp only [potential, dispatchersWorth, dispatcherWorth, phase, phaseWorth,
          List.length_cons, Nat.succ_mul]
        omega
    | callAmStopper byte rest phase runs =>
        simp only [potential, dispatchersWorth, dispatcherWorth, phase, phaseWorth,
          List.length_cons, List.length_append, List.length_nil, Nat.succ_mul, Nat.zero_mul]
        omega
  · cases moved with
    | amJoined rest phase gone =>
        simp only [potential, dispatchersWorth, dispatcherWorth, phase, phaseWorth]
        omega
  · cases moved with
    | signal phase =>
        simp only [potential, dispatchersWorth, dispatcherWorth, phase, phaseWorth, List.length_nil]
        omega
  · cases moved with
    | joined phase gone =>
        simp only [potential, dispatchersWorth, dispatcherWorth, phase, phaseWorth]
        omega

theorem connection_paying : Paying (Connection.step overflowChecks setup) own (cost setup)
    (potential setup) where
  falls := by
    intro connection label next mine taken
    cases label with
    | userData byte payload => cases mine
    | userDrop consumer => cases mine
    | transportSend event => cases mine
    | transportPanic message => cases mine
    | dispatcherHangUp byte => cases mine
    | stop => cases mine
    | workerReceive order => exact worker_step_falls (.inl ⟨order, rfl⟩) taken
    | workerSend => exact worker_step_falls (.inr (.inl rfl)) taken
    | workerHangUp => exact worker_step_falls (.inr (.inr (.inl rfl))) taken
    | workerStop => exact worker_step_falls (.inr (.inr (.inr rfl))) taken
    | amReceive order => exact am_step_falls (.inl ⟨order, rfl⟩) taken
    | amSend => exact am_step_falls (.inr rfl) taken
    | dispatcherReceive byte => exact dispatcher_step_falls (.inl rfl) taken
    | dispatcherSend byte => exact dispatcher_step_falls (.inr (.inl rfl)) taken
    | dispatcherStop byte => exact dispatcher_step_falls (.inr (.inr (.inr rfl))) taken
    | transportReceive => exact stop_step_falls (.inl rfl) taken
    | transportEnd => exact stop_step_falls (.inr (.inl rfl)) taken
    | transportJoined order => exact stop_step_falls (.inr (.inr (.inl ⟨order, rfl⟩))) taken
    | callStopper => exact stop_step_falls (.inr (.inr (.inr (.inl rfl)))) taken
    | amJoined => exact stop_step_falls (.inr (.inr (.inr (.inr (.inl rfl))))) taken
    | signal => exact stop_step_falls (.inr (.inr (.inr (.inr (.inr (.inl rfl)))))) taken
    | joined => exact stop_step_falls (.inr (.inr (.inr (.inr (.inr (.inr rfl)))))) taken
  rises := by
    intro connection label next other taken
    have moved := moved_of_step taken
    cases moved with
    | userData byte payload member runs =>
        have changed := @dispatchers_changed _ connection { connection with
          downward := Function.update connection.downward byte
            (connection.downward byte ++ [.data payload])
          sent := Function.update connection.sent byte (connection.sent byte ++ [payload]) } byte
          (by
            intro other differs
            simp only [dispatcherWorth, Function.update_of_ne differs])
        simp only [dispatcherWorth, Function.update_self, List.length_append, List.length_cons,
          List.length_nil] at changed
        simp only [potential, cost]
        omega
    | userDrop consumer =>
        simp only [potential, dispatchersWorth, dispatcherWorth]
        omega
    | transportSend event transport runs =>
        simp only [potential, dispatchersWorth, dispatcherWorth, cost, List.length_append,
          List.length_cons, List.length_nil, Nat.add_mul, Nat.zero_mul]
        omega
    | transportFails event transport gone =>
        have failed := @life_worth_gone unwrapFailed (by simp [unwrapFailed])
        simp only [potential, dispatchersWorth, dispatcherWorth]
        omega
    | transportPanic message transport =>
        have gone := @life_worth_gone (.panicked message) (by simp)
        simp only [potential, dispatchersWorth, dispatcherWorth]
        omega
    | dispatcherHangUp byte runs free queue =>
        have falls := dispatcher_step_falls (.inr (.inr (.inl rfl))) taken
        omega
    | stop phase =>
        simp only [potential, dispatchersWorth, dispatcherWorth, phase, phaseWorth, cost,
          List.length_append, List.length_cons, List.length_nil]
        omega
    | _ => cases other

end Paying

section Progress

variable [DecidableEq Uuid] [DecidableEq Who] {overflowChecks : Bool}
  {setup : Dispatchers Uuid Who} {connection next : Connection Who}

/-- While `stop` waits for the ActiveMessage thread, the thread has its `Stop` to come. -/
def Joinable (setup : Dispatchers Uuid Who) (connection : Connection Who) : Prop :=
  ∀ rest, connection.phase = .joiningDispatcher rest →
    setup.am.isSome ∧ (connection.am.life = .running → .stop ∈ connection.amQueue)

theorem call_stopper_serves {byte : UInt8} {rest : List UInt8}
    (phase : connection.phase = .stoppingDispatchers (byte :: rest))
    (taken : connection.step overflowChecks setup .callStopper = some next) :
    setup.servesAm byte = true ∧ connection.am.life = .running ∧
        next = { connection with
          phase := .joiningDispatcher rest
          amQueue := connection.amQueue ++ [.stop] } ∨
      ¬ (setup.servesAm byte = true ∧ connection.am.life = .running) ∧
        next = { connection with phase := .stoppingDispatchers rest } := by
  simp only [Connection.step, Connection.callStopper, phase] at taken
  split_ifs at taken with serves
  · cases taken
    exact .inl ⟨serves.1, serves.2, rfl⟩
  · cases taken
    exact .inr ⟨serves, rfl⟩

omit [DecidableEq Uuid] [DecidableEq Who] in
theorem serves_am_some {byte : UInt8} (serves : setup.servesAm byte = true) :
    byte = 0x00 ∧ setup.am.isSome = true := by
  simpa [Dispatchers.servesAm] using serves

theorem joinable_step {label : Label Uuid Who} (joinable : Joinable setup connection)
    (taken : connection.step overflowChecks setup label = some next) : Joinable setup next := by
  have moved := moved_of_step taken
  cases moved with
  | callStopper byte rest phase =>
      intro waiting same
      cases same
  | callAmStopper byte rest phase runs =>
      rcases call_stopper_serves phase taken with ⟨serves, _, _⟩ | ⟨_, same⟩
      · intro waiting _
        exact ⟨(serves_am_some serves).2, fun _ => List.mem_append_right _ List.mem_cons_self⟩
      · have phases := congrArg Connection.phase same
        cases phases
  | amReceive order worker event rest sends registered idle queue handled =>
      intro waiting phase
      obtain ⟨present, stopping⟩ := joinable waiting phase
      refine ⟨present, fun _ => ?_⟩
      have queued := stopping (by rw [idle])
      rw [queue] at queued
      rcases List.mem_cons.mp queued with same | behind
      · rw [← same] at handled
        cases handled
      · exact behind
  | amEnds order worker event rest registered idle queue handled =>
      intro waiting phase
      exact ⟨(joinable waiting phase).1, fun running => by cases running⟩
  | amRefuses order worker event rest message registered idle queue refused =>
      intro waiting phase
      exact ⟨(joinable waiting phase).1, fun running => by cases running⟩
  | amSend sending rest busy channel =>
      intro waiting phase
      exact ⟨(joinable waiting phase).1, fun _ => (joinable waiting phase).2 (by rw [busy])⟩
  | amFails sending rest busy closed =>
      intro waiting phase
      exact ⟨(joinable waiting phase).1, fun running => by cases running⟩
  | workerSend sending rest busy channel =>
      intro waiting phase
      refine ⟨(joinable waiting phase).1, fun running => ?_⟩
      have queued := (joinable waiting phase).2 running
      simp only [Connection.passOn]
      split_ifs
      · exact List.mem_append_left _ queued
      · exact queued
  | stop phase =>
      intro waiting same
      cases same
  | transportJoined order phase gone =>
      intro waiting same
      cases same
  | amJoined rest phase gone =>
      intro waiting same
      cases same
  | signal phase =>
      intro waiting same
      cases same
  | joined phase gone =>
      intro waiting same
      cases same
  | userData | userDrop | transportSend | transportFails | transportReceive | transportPanic
  | workerReceive | workerRefuses | workerFails | workerHangUp | workerStop | dispatcherReceive
  | dispatcherRefuses | dispatcherSend | dispatcherFails | dispatcherHangUp | dispatcherStop
  | transportEnd => exact joinable

theorem called_step {label : Label Uuid Who} (called : connection.phase ≠ .running)
    (taken : connection.step overflowChecks setup label = some next) :
    next.phase ≠ .running := by
  cases moved_of_step taken with
  | stop phase => simp
  | transportJoined order phase gone => simp
  | callStopper byte rest phase => simp
  | callAmStopper byte rest phase runs => simp
  | amJoined rest phase gone => simp
  | signal phase => simp
  | joined phase gone => simp
  | userData | userDrop | transportSend | transportFails | transportReceive | transportPanic
  | workerReceive | workerRefuses | workerSend | workerFails | workerHangUp | workerStop
  | amReceive | amEnds | amRefuses | amSend | amFails | dispatcherReceive | dispatcherRefuses
  | dispatcherSend | dispatcherFails | dispatcherHangUp | dispatcherStop | transportEnd =>
      exact called

theorem goes_on (label : Label Uuid Who) (mine : own label = true)
    (enabled : (connection.step overflowChecks setup label).isSome = true) :
    ∃ label next, own label = true ∧ connection.step overflowChecks setup label = some next := by
  obtain ⟨next, taken⟩ := Option.isSome_iff_exists.mp enabled
  exact ⟨label, next, mine, taken⟩

theorem am_goes_on (present : setup.am.isSome = true) (running : connection.am.life = .running)
    (queued : connection.amQueue ≠ []) :
    ∃ label next, own label = true ∧ connection.step overflowChecks setup label = some next := by
  obtain ⟨worker, registered⟩ := Option.isSome_iff_exists.mp present
  cases am : connection.am with
  | mk life outbox =>
  rw [am] at running
  simp only at running
  rw [running] at am
  cases outbox with
  | cons sending rest =>
      apply goes_on .amSend rfl
      by_cases dropped : .receiver sending.1 ∈ connection.dropped
      · rw [am_send_closed am dropped]
        rfl
      · rw [am_send_open am dropped]
        rfl
  | nil =>
      obtain ⟨event, rest, queue⟩ := List.exists_cons_of_ne_nil queued
      have visited : worker.receivers.handles.keys.Perm worker.receivers.handles.keys := .refl _
      apply goes_on (.amReceive worker.receivers.handles.keys) rfl
      simp only [Connection.step, Connection.amReceive, registered, am, queue, if_pos visited]
      cases worker.handleEvent overflowChecks worker.receivers.handles.keys event with
      | panicked message => rfl
      | returned result => cases result <;> rfl

/-- After the signal every worker that still runs can finish what it has in hand and end. -/
theorem worker_goes_on (phase : connection.phase = .signalled)
    (running : connection.worker.life = .running) :
    ∃ label next, own label = true ∧ connection.step overflowChecks setup label = some next := by
  cases worker : connection.worker with
  | mk life outbox =>
  rw [worker] at running
  simp only at running
  rw [running] at worker
  cases outbox with
  | nil =>
      apply goes_on .workerStop rfl
      simp only [Connection.step, worker, phase, and_self, if_true, Option.isSome_some]
  | cons sending rest =>
      apply goes_on .workerSend rfl
      cases channel : connection.channelOpen setup sending.1 with
      | true =>
          rw [worker_send_open worker channel]
          rfl
      | false =>
          rw [worker_send_closed worker channel]
          rfl

theorem dispatcher_goes_on (phase : connection.phase = .signalled) {byte : UInt8}
    (running : connection.dispatchers byte = .running) :
    ∃ label next, own label = true ∧ connection.step overflowChecks setup label = some next := by
  cases hands : connection.hands byte with
  | none =>
      apply goes_on (.dispatcherStop byte) rfl
      simp only [Connection.step, running, hands, phase, and_self, if_true, Option.isSome_some]
  | some packet =>
      apply goes_on (.dispatcherSend byte) rfl
      simp only [Connection.step, Connection.dispatcherSend, running, hands]
      split_ifs <;> rfl

/-- From its call on, `stop` or a thread it waits for can always go on. -/
theorem stop_progress (joinable : Joinable setup connection)
    (called : connection.phase ≠ .running) (unfinished : connection.phase ≠ .stopped) :
    ∃ label next, own label = true ∧ connection.step overflowChecks setup label = some next := by
  cases phase : connection.phase with
  | running => exact absurd phase called
  | stopped => exact absurd phase unfinished
  | stoppingTransport =>
      by_cases transport : connection.transport = .running
      · apply goes_on .transportEnd rfl
        simp only [Connection.step, phase, transport, and_self, if_true, Option.isSome_some]
      · have complete : setup.bytes.Perm setup.bytes := .refl _
        apply goes_on (.transportJoined setup.bytes) rfl
        simp only [Connection.step, phase, ne_eq, transport, not_false_eq_true, complete,
          and_self, if_true, Option.isSome_some]
  | stoppingDispatchers order =>
      cases order with
      | nil =>
          apply goes_on .signal rfl
          simp only [Connection.step, phase, if_true, Option.isSome_some]
      | cons byte rest =>
          apply goes_on .callStopper rfl
          simp only [Connection.step, Connection.callStopper, phase]
          split_ifs <;> rfl
  | joiningDispatcher rest =>
      obtain ⟨present, stopping⟩ := joinable rest phase
      by_cases running : connection.am.life = .running
      · exact am_goes_on present running (List.ne_nil_of_mem (stopping running))
      · apply goes_on .amJoined rfl
        simp only [Connection.step, phase, Option.isSome_some]
  | signalled =>
      by_cases worker : connection.worker.life = .running
      · exact worker_goes_on phase worker
      · by_cases remaining : ∃ byte, connection.dispatchers byte = .running
        · obtain ⟨byte, running⟩ := remaining
          exact dispatcher_goes_on phase running
        · have ended : (setup.workerBytes.all fun byte =>
              decide (connection.dispatchers byte ≠ .running)) = true := by
            rw [List.all_eq_true]
            intro byte _
            exact decide_eq_true fun running => remaining ⟨byte, running⟩
          apply goes_on .joined rfl
          simp only [Connection.step, phase, ne_eq, worker, not_false_eq_true, true_and, ended,
            if_true, Option.isSome_some]

/-- From the call of `stop` on, in whatever state the connection is: its threads can lead `stop` to
its end; a run takes no more steps of theirs than the state and what comes from outside are worth;
and as long as `stop` has not returned one of them can go on. -/
theorem stop_returns (labels : List (Label Uuid Who)) (connection : Connection Who)
    (reached : run (Connection.step overflowChecks setup) .fresh labels = some connection)
    (called : connection.phase ≠ .running) :
    (∃ last, Reaches (Connection.step overflowChecks setup) (fun label => own label = true)
      connection last ∧ last.phase = .stopped) ∧
    ∀ more last, run (Connection.step overflowChecks setup) connection more = some last →
      more.countP own + potential setup last ≤
        potential setup connection + outside own (cost setup) more ∧
      (last.phase = .stopped ∨ ∃ label next, own label = true ∧
        last.step overflowChecks setup label = some next) := by
  have fresh : Joinable setup (.fresh : Connection Who) := by
    intro rest phase
    cases phase
  have joinable : Joinable setup connection :=
    invariant_of_run (fun _ _ _ joinable taken => joinable_step joinable taken) fresh reached
  have kept : ∀ state label next, Joinable setup state ∧ state.phase ≠ .running →
      Connection.step overflowChecks setup state label = some next →
        Joinable setup next ∧ next.phase ≠ .running :=
    fun _ _ _ both taken => ⟨joinable_step both.1 taken, called_step both.2 taken⟩
  constructor
  · exact connection_paying.completes kept
      (fun _ both unfinished => stop_progress both.1 both.2 unfinished) ⟨joinable, called⟩
  · intro more last continued
    have both := invariant_of_run kept ⟨joinable, called⟩ continued
    refine ⟨connection_paying.own_steps continued, ?_⟩
    by_cases finished : last.phase = .stopped
    · exact .inl finished
    · exact .inr (stop_progress both.1 both.2 finished)

def rawAndSnooper : Dispatchers Nat Nat where
  list :=
    [.raw 1, .am ⟨0x0102, none,
      ⟨∅, none, ∅, some 7, (∅ : HashMap Nat (AMReceiverHandle Nat)).insert 7 ⟨7⟩⟩⟩]
  distinct := by decide

def stopAfterDrop : List (Label Nat Nat) :=
  [.userDrop (.receiver 7), .transportSend .connected, .userData 1 [5], .stop]

theorem drop_then_stop_returns :
    ∃ connection, run (Connection.step true rawAndSnooper) .fresh stopAfterDrop =
        some connection ∧
      ∃ last, Reaches (Connection.step true rawAndSnooper) (fun label => own label = true)
        connection last ∧ last.phase = .stopped := by
  have enabled : (run (Connection.step true rawAndSnooper) .fresh stopAfterDrop).map
      (fun connection => connection.phase) = some .stoppingTransport := by
    decide +kernel
  obtain ⟨connection, reached, phase⟩ := Option.map_eq_some_iff.mp enabled
  have called : connection.phase ≠ .running := by
    rw [phase]
    simp
  exact ⟨connection, reached, (stop_returns stopAfterDrop connection reached called).1⟩

end Progress

end MoteConnection.ConnectionStop
