import Mathlib.Data.List.Infix
import MoteConnection.Multiplexing

/-!
# What a connection delivers

A connection with its history, over all runs: users may drop what they hold,
threads may panic, and `stop` may come at any time. Whatever happens, nothing
is invented, repeated or put in another order on its way between the transport
and the users, in either direction; only the end of what was sent can be
missing, and with threads that have not panicked nothing is missing that is
not still in a queue.
-/

namespace MoteConnection.ConnectionDelivery

open FanOut LabeledRuns
open MoteConnection.Runtime MoteConnection.ActiveMessages MoteConnection.ActiveMessageRouting
open MoteConnection.ConnectionWorkers MoteConnection.ConnectionThreads MoteConnection.Multiplexing
open Outcome

set_option autoImplicit false

/-- What the transport has sent to the `TransportWorker` and taken from the `DispatcherWorker`s, and
what the ActiveMessage thread has taken. -/
structure History where
  offered : List (Event Bytes)
  passed : List (Event Bytes)
  digested : List (Event Bytes)

def History.empty : History := ⟨[], [], []⟩

def record {Uuid Who : Type} (history : History) (connection : Connection Who)
    (label : ConnectionThreads.Label Uuid Who) : History :=
  match label with
  | .transportSend event =>
      if connection.worker.life = .running then
        { history with offered := history.offered ++ [event] }
      else history
  | .transportReceive =>
      { history with passed := history.passed ++ connection.toTransport.take 1 }
  | .amReceive _ => { history with digested := history.digested ++ connection.amQueue.take 1 }
  | _ => history

def Life.Intact (life : Life) : Prop := ∀ message, life ≠ .panicked message

section Threads

variable {Channel Input Content : Type} [DecidableEq Channel]
  {route : Channel → Input → List (Event Content)} {sent : Channels Channel (Event Content)}
  {thread : Thread Channel Content} {handled : List Input}

/-- A thread that panics loses what it had still to send. -/
def Accounted (route : Channel → Input → List (Event Content))
    (sent : Channels Channel (Event Content)) (thread : Thread Channel Content)
    (handled : List Input) : Prop :=
  ∃ lost, Accounts route sent (thread.outbox ++ lost) handled ∧
    (Life.Intact thread.life → lost = [])

namespace Accounted

theorem start (route : Channel → Input → List (Event Content)) :
    Accounted route (fun _ => []) ⟨.running, []⟩ [] :=
  ⟨[], Accounts.start route, fun _ => rfl⟩

theorem running_intact : Life.Intact .running := fun _ panicked => by cases panicked

theorem accounts {outbox : List (Channel × Event Content)}
    (accounted : Accounted route sent ⟨.running, outbox⟩ handled) :
    Accounts route sent outbox handled := by
  obtain ⟨lost, accounts, nothing⟩ := accounted
  rw [nothing running_intact, List.append_nil] at accounts
  exact accounts

theorem of_accounts {life : Life} {outbox : List (Channel × Event Content)}
    (accounts : Accounts route sent outbox handled) :
    Accounted route sent ⟨life, outbox⟩ handled :=
  ⟨[], by rwa [List.append_nil], fun _ => rfl⟩

theorem take (accounted : Accounted route sent ⟨.running, []⟩ handled) {input : Input}
    {life : Life} {sends : List (Channel × Event Content)}
    (routed : ∀ channel, addressed channel sends = route channel input) :
    Accounted route sent ⟨life, sends⟩ (handled ++ [input]) :=
  of_accounts (accounted.accounts.take routed)

theorem emit {sending : Channel × Event Content} {rest : List (Channel × Event Content)}
    (accounted : Accounted route sent ⟨.running, sending :: rest⟩ handled) :
    Accounted route (send sent sending) ⟨.running, rest⟩ handled :=
  of_accounts accounted.accounts.emit

theorem fail {outbox : List (Channel × Event Content)}
    (accounted : Accounted route sent ⟨.running, outbox⟩ handled) :
    Accounted route sent ⟨unwrapFailed, []⟩ handled :=
  ⟨outbox, accounted.accounts, fun intact => absurd rfl (intact _)⟩

theorem sent_beginning (accounted : Accounted route sent thread handled) (channel : Channel) :
    sent channel <+: handled.flatMap (route channel) := by
  obtain ⟨lost, accounts, _⟩ := accounted
  exact accounts.sent_prefix channel

theorem sent_of_idle (accounted : Accounted route sent thread handled)
    (intact : Life.Intact thread.life) (idle : thread.outbox = []) (channel : Channel) :
    sent channel = handled.flatMap (route channel) := by
  obtain ⟨lost, accounts, nothing⟩ := accounted
  rw [nothing intact, idle] at accounts
  exact accounts.sent_of_idle channel

end Accounted

end Threads

section Queues

variable {byte : UInt8} {got : List (Event Bytes)} {hand : Option (Event Bytes)} {life : Life}
  {queue : List (Event Bytes)} {sent : List Bytes}

/-- For one byte, what the transport has got, the packet in the hands of the `DispatcherWorker` and
the queue make up what users have sent. The packet is lost when it panics. -/
def Carries (byte : UInt8) (got : List (Event Bytes)) (hand : Option (Event Bytes)) (life : Life)
    (queue : List (Event Bytes)) (sent : List Bytes) : Prop :=
  ∃ lost, got.flatMap (carried byte) ++ hand.toList.flatMap (carried byte) ++ lost ++
    queue.flatMap payloads = sent ∧ (Life.Intact life → lost = [])

namespace Carries

theorem user (carries : Carries byte got hand life queue sent) (payload : Bytes) :
    Carries byte got hand life (queue ++ [.data payload]) (sent ++ [payload]) := by
  obtain ⟨lost, total, nothing⟩ := carries
  refine ⟨lost, ?_, nothing⟩
  rw [← total, List.flatMap_append]
  simp only [List.append_assoc]
  rfl

theorem receive {payload : Bytes}
    (carries : Carries byte got none .running (.data payload :: queue) sent) :
    Carries byte got (some (.data (byte :: payload))) .running queue sent := by
  obtain ⟨lost, total, nothing⟩ := carries
  refine ⟨[], ?_, fun _ => rfl⟩
  rw [nothing Accounted.running_intact] at total
  rw [← total]
  simp [carried, payloads]

theorem send {packet : Event Bytes} (carries : Carries byte got (some packet) life queue sent) :
    Carries byte (got ++ [packet]) none life queue sent := by
  obtain ⟨lost, total, nothing⟩ := carries
  refine ⟨lost, ?_, nothing⟩
  rw [← total, List.flatMap_append]
  simp

theorem other {event : Event Bytes} (elsewhere : carried byte event = [])
    (carries : Carries byte got hand life queue sent) :
    Carries byte (got ++ [event]) hand life queue sent := by
  obtain ⟨lost, total, nothing⟩ := carries
  refine ⟨lost, ?_, nothing⟩
  rw [← total, List.flatMap_append, List.flatMap_singleton, elsewhere, List.append_nil]

theorem fail {packet : Event Bytes}
    (carries : Carries byte got (some packet) .running queue sent) :
    Carries byte got none unwrapFailed queue sent := by
  obtain ⟨lost, total, nothing⟩ := carries
  refine ⟨carried byte packet, ?_, fun intact => absurd rfl (intact _)⟩
  rw [nothing Accounted.running_intact] at total
  rw [← total]
  simp

theorem stop (carries : Carries byte got hand .running queue sent) :
    Carries byte got hand .ended queue sent := by
  obtain ⟨lost, total, nothing⟩ := carries
  exact ⟨lost, total, fun _ => nothing Accounted.running_intact⟩

theorem got_beginning (carries : Carries byte got hand life queue sent) :
    got.flatMap (carried byte) <+: sent := by
  obtain ⟨lost, total, _⟩ := carries
  rw [← total, List.append_assoc, List.append_assoc]
  exact List.prefix_append _ _

theorem got_of_empty (carries : Carries byte got none life [] sent) (intact : Life.Intact life) :
    got.flatMap (carried byte) = sent := by
  obtain ⟨lost, total, nothing⟩ := carries
  rw [← total, nothing intact]
  simp

end Carries

end Queues

section Steps

variable {Uuid Who : Type} [DecidableEq Uuid] [DecidableEq Who] {overflowChecks : Bool}
  {setup : Dispatchers Uuid Who} {connection next : Connection Who} {history : History}

structure Upward (setup : Dispatchers Uuid Who) (connection : Connection Who)
    (history : History) : Prop where
  queue : connection.handled ++ connection.fromTransport = history.offered
  routed : Accounted (project setup) connection.upward connection.worker connection.handled

structure Downward (connection : Connection Who) (history : History) : Prop where
  carries : ∀ byte, Carries byte (history.passed ++ connection.toTransport)
    (connection.hands byte) (connection.dispatchers byte) (connection.downward byte)
    (connection.sent byte)
  prefixed : ∀ byte, ∀ packet ∈ connection.hands byte, ∃ payload, packet = .data (byte :: payload)
  queued : ∀ byte, ∀ event ∈ connection.downward byte, ∃ payload, event = .data payload

omit [DecidableEq Uuid] [DecidableEq Who] in
theorem upward_fresh : Upward setup .fresh .empty := ⟨rfl, Accounted.start _⟩

omit [DecidableEq Who] in
theorem downward_fresh : Downward (.fresh : Connection Who) .empty where
  carries := fun _ => ⟨[], rfl, fun _ => rfl⟩
  prefixed := by simp [Connection.fresh]
  queued := by simp [Connection.fresh]

omit [DecidableEq Uuid] [DecidableEq Who] in
theorem project_refused {event : Event Bytes} (refused : ¬ Dispatchable event) (byte : UInt8) :
    project setup byte event = [] := by
  cases event with
  | data data =>
      have empty : data = [] := not_not.mp refused
      rw [empty]
      rfl
  | connected | disconnected => exact absurd trivial refused
  | stop | error => rfl

theorem upward_step {label : ConnectionThreads.Label Uuid Who}
    (taken : connection.step overflowChecks setup label = some next)
    (upward : Upward setup connection history) :
    Upward setup next (record history connection label) := by
  obtain ⟨queue, routed⟩ := upward
  cases moved_of_step taken with
  | transportSend event transport runs =>
      refine ⟨?_, routed⟩
      simp only [record, if_pos runs, ← queue, List.append_assoc]
  | transportFails event transport gone =>
      simp only [record, if_neg gone]
      exact ⟨queue, routed⟩
  | workerReceive order event rest sends idle waiting complete handled =>
      rw [idle] at routed
      refine ⟨?_, routed.take (handle_data_routed complete handled)⟩
      simp only [record, ← queue, waiting, List.append_assoc, List.singleton_append]
  | workerRefuses order event rest message idle waiting complete refused =>
      rw [idle] at routed
      have nobody (byte : UInt8) : project setup byte event = [] :=
        project_refused (handle_data_refused refused) byte
      refine ⟨?_, routed.take fun byte => (nobody byte).symm⟩
      simp only [record, ← queue, waiting, List.append_assoc, List.singleton_append]
  | workerSend sending rest busy channel =>
      rw [busy] at routed
      exact ⟨queue, routed.emit⟩
  | workerFails sending rest busy closed =>
      rw [busy] at routed
      exact ⟨queue, routed.fail⟩
  | workerHangUp idle empty gone =>
      rw [idle] at routed
      exact ⟨queue, .of_accounts routed.accounts⟩
  | workerStop idle phase =>
      rw [idle] at routed
      exact ⟨queue, .of_accounts routed.accounts⟩
  | _ => exact ⟨queue, routed⟩

omit [DecidableEq Uuid] [DecidableEq Who] in
theorem carries_update {byte : UInt8} {got : List (Event Bytes)} {hand : Option (Event Bytes)}
    {life : Life} {queue : List (Event Bytes)} {sent : List Bytes}
    (own : Carries byte got hand life queue sent)
    (others : ∀ other, other ≠ byte → Carries other got (connection.hands other)
      (connection.dispatchers other) (connection.downward other) (connection.sent other)) :
    ∀ other, Carries other got (Function.update connection.hands byte hand other)
      (Function.update connection.dispatchers byte life other)
      (Function.update connection.downward byte queue other)
      (Function.update connection.sent byte sent other) := by
  intro other
  by_cases same : other = byte
  · subst same
    simp only [Function.update_self]
    exact own
  · simp only [Function.update_of_ne same]
    exact others other same

theorem prefixed_update {hands : UInt8 → Option (Event Bytes)} {byte : UInt8}
    {hand : Option (Event Bytes)}
    (own : ∀ packet ∈ hand, ∃ payload, packet = .data (byte :: payload))
    (others : ∀ byte, ∀ packet ∈ hands byte, ∃ payload, packet = .data (byte :: payload)) :
    ∀ other, ∀ packet ∈ Function.update hands byte hand other,
      ∃ payload, packet = .data (other :: payload) :=
  (Function.forall_update_iff hands fun other (hand : Option (Event Bytes)) =>
    ∀ packet ∈ hand, ∃ payload, packet = .data (other :: payload)).mpr
      ⟨own, fun other _ => others other⟩

/-- The queue of a dispatcher has no other events than data, so that none is refused. -/
theorem downward_step {label : ConnectionThreads.Label Uuid Who}
    (taken : connection.step overflowChecks setup label = some next)
    (downward : Downward connection history) :
    Downward next (record history connection label) := by
  obtain ⟨carries, prefixed, queued⟩ := downward
  have empty : ∀ packet ∈ (none : Option (Event Bytes)), ∀ byte : UInt8,
      ∃ payload, packet = .data (byte :: payload) := by
    intro packet held
    cases held
  cases moved_of_step taken with
  | userData byte payload member runs =>
      have moved := carries_update ((carries byte).user payload) fun other _ => carries other
      simp only [Function.update_eq_self] at moved
      exact ⟨moved, prefixed, only_data_update (only_data_append (queued byte) payload) queued⟩
  | transportSend event transport runs =>
      simp only [record, if_pos runs]
      exact ⟨carries, prefixed, queued⟩
  | transportFails event transport gone =>
      simp only [record, if_neg gone]
      exact ⟨carries, prefixed, queued⟩
  | transportReceive event rest transport queue =>
      refine ⟨?_, prefixed, queued⟩
      intro byte
      have before := carries byte
      simp only [record, queue, List.take_succ_cons, List.take_zero, List.append_assoc,
        List.singleton_append] at before ⊢
      exact before
  | dispatcherReceive byte event packet rest runs free queue handled =>
      obtain ⟨first, later⟩ := of_tail queue
      have remaining : ∀ event ∈ rest, ∃ payload, event = .data payload :=
        fun other member => queued byte other (later other member)
      obtain ⟨payload, data⟩ := queued byte event first
      rw [data] at handled queue
      cases handled
      have own := carries byte
      rw [free, queue, runs] at own
      have moved := carries_update own.receive fun other _ => carries other
      rw [← runs] at moved
      simp only [Function.update_eq_self] at moved
      refine ⟨moved, prefixed_update ?_ prefixed, only_data_update remaining queued⟩
      intro packet held
      cases held
      exact ⟨payload, rfl⟩
  | dispatcherRefuses byte event rest message runs free queue refused =>
      obtain ⟨payload, data⟩ := queued byte event (of_tail queue).1
      rw [data] at refused
      cases refused
  | dispatcherSend byte packet runs full alive =>
      obtain ⟨payload, rfl⟩ := prefixed byte packet full
      have own := carries byte
      rw [full] at own
      have moved := carries_update own.send fun other differs =>
        (carries other).other (carried_other differs payload)
      simp only [Function.update_eq_self, List.append_assoc] at moved
      exact ⟨moved, prefixed_update (fun packet held => empty packet held byte) prefixed, queued⟩
  | dispatcherFails byte packet runs full gone =>
      have own := carries byte
      rw [full, runs] at own
      have moved := carries_update own.fail fun other _ => carries other
      simp only [Function.update_eq_self] at moved
      exact ⟨moved, prefixed_update (fun packet held => empty packet held byte) prefixed, queued⟩
  | dispatcherHangUp byte runs free queue =>
      have own := carries byte
      rw [runs] at own
      have moved := carries_update own.stop fun other _ => carries other
      simp only [Function.update_eq_self] at moved
      exact ⟨moved, prefixed, queued⟩
  | dispatcherStop byte runs free phase =>
      have own := carries byte
      rw [runs] at own
      have moved := carries_update own.stop fun other _ => carries other
      simp only [Function.update_eq_self] at moved
      exact ⟨moved, prefixed, queued⟩
  | stop phase =>
      refine ⟨?_, prefixed, queued⟩
      intro byte
      have stopping := (carries byte).other (rfl : carried byte .stop = [])
      rw [List.append_assoc] at stopping
      exact stopping
  | _ => exact ⟨carries, prefixed, queued⟩

end Steps

section Receivers

variable {Uuid Who : Type} [DecidableEq Uuid] [DecidableEq Who] {overflowChecks : Bool}
  {setup : Dispatchers Uuid Who} {connection next : Connection Who} {history : History}
  {ids : Who → Uuid} {registrations : List (Registration Who)}
  {registry : ReceiverRegistry Uuid Who} {users : Who → AMReceiver Uuid Who}
  {addr : UInt16} {group : Option UInt8}

/-- What an event on the channel of the ActiveMessage thread has for one receiver. -/
def awaited (overflowChecks : Bool) (registrations : List (Registration Who)) (addr : UInt16)
    (group : Option UInt8) (who : Who) (event : Event Bytes) : List (Event Message) :=
  (parsed overflowChecks event).toList.flatMap (expected registrations addr group who)

omit [DecidableEq Uuid] in
theorem flat_map_awaited (events : List (Event Bytes)) (who : Who) :
    events.flatMap (awaited overflowChecks registrations addr group who) =
      (events.filterMap (parsed overflowChecks)).flatMap
        (expected registrations addr group who) := by
  induction events with
  | nil => rfl
  | cons event rest induction =>
      rw [List.flatMap_cons, List.filterMap_cons, induction, awaited]
      cases parsed overflowChecks event with
      | none => rfl
      | some incoming => simp

omit [DecidableEq Uuid] in
theorem awaited_of_unparsed {event : Event Bytes} (unparsed : parsed overflowChecks event = none)
    (who : Who) : awaited overflowChecks registrations addr group who event = [] := by
  rw [awaited, unparsed]
  rfl

theorem unparsed_of_indigestible {event : Event Bytes}
    (refused : ¬ ActiveMessageRouting.ConnectionWorker.Digestible overflowChecks event) :
    parsed overflowChecks event = none := by
  cases event with
  | data data =>
      cases result : Message.tryFrom overflowChecks data with
      | returned value => exact absurd ⟨value, result⟩ refused
      | panicked message => simp only [parsed, result]
  | connected | disconnected => exact absurd trivial refused
  | stop | error => rfl

theorem handled_awaited (consistent : Consistent ids registrations registry users)
    {event : Event Bytes} {order : List Uuid} (complete : order.Perm registry.handles.keys)
    {sends : List (Who × Event Message)}
    (handled : (ActiveMessageRouting.ConnectionWorker.mk addr group registry).handleEvent
      overflowChecks order event = returned (some sends)) (who : Who) :
    addressed who sends = awaited overflowChecks registrations addr group who event := by
  cases result : parsed overflowChecks event with
  | some incoming =>
      obtain ⟨others, turn, routed⟩ :=
        consistent.handle_event overflowChecks addr group complete result
      rw [handled] at turn
      cases turn
      rw [routed, awaited, result]
      simp
  | none =>
      rw [awaited_of_unparsed result]
      cases event with
      | data data =>
          rw [ActiveMessageRouting.ConnectionWorker.handleEvent] at handled
          obtain ⟨value, returns, turn⟩ := bind_eq_returned.mp handled
          cases value with
          | ok message => simp only [parsed, returns, reduceCtorEq] at result
          | error error =>
              cases turn
              rfl
      | connected | disconnected | stop => cases result <;> cases handled
      | error => cases handled

theorem am_receive_complete {order : List Uuid}
    {worker : ActiveMessageRouting.ConnectionWorker Uuid Who} (serves : setup.am = some worker)
    (taken : connection.step overflowChecks setup (.amReceive order) = some next) :
    order.Perm worker.receivers.handles.keys := by
  simp only [Connection.step, Connection.amReceive] at taken
  split at taken
  · rename_i other event rest registered idle queue
    rw [serves] at registered
    cases registered
    split_ifs at taken with complete
    exact complete
  · cases taken

/-- From the channel of the ActiveMessage dispatcher to the receivers; `stop` puts one more event in
its queue. -/
structure Received (overflowChecks : Bool) (registrations : List (Registration Who))
    (addr : UInt16) (group : Option UInt8) (connection : Connection Who) (history : History) :
    Prop where
  queue : (history.digested ++ connection.amQueue).filterMap (parsed overflowChecks) =
    (connection.upward 0x00).filterMap (parsed overflowChecks)
  routed : Accounted (awaited overflowChecks registrations addr group) connection.received
    connection.am history.digested

omit [DecidableEq Uuid] in
theorem received_fresh : Received overflowChecks registrations addr group .fresh .empty :=
  ⟨rfl, Accounted.start _⟩

omit [DecidableEq Uuid] in
/-- One turn of the ActiveMessage thread, whether it goes on, ends or panics. -/
theorem Received.digest
    (received : Received overflowChecks registrations addr group connection history)
    (idle : connection.am = ⟨.running, []⟩) {event : Event Bytes} {rest : List (Event Bytes)}
    (waiting : connection.amQueue = event :: rest) {life : Life}
    {sends : List (Who × Event Message)}
    (routed : ∀ who, addressed who sends =
      awaited overflowChecks registrations addr group who event) (order : List Uuid) :
    Received overflowChecks registrations addr group
      { connection with amQueue := rest, am := ⟨life, sends⟩ }
      (record history connection (.amReceive order)) := by
  have before := received.queue
  have accounted := received.routed
  rw [waiting] at before
  rw [idle] at accounted
  have recorded : record history connection (.amReceive order) =
      { history with digested := history.digested ++ [event] } := by
    simp only [record, waiting, List.take_succ_cons, List.take_zero]
  rw [recorded]
  refine ⟨?_, accounted.take routed⟩
  rw [← before, List.append_assoc]
  rfl

theorem received_step (consistent : Consistent ids registrations registry users)
    (serves : setup.am = some ⟨addr, group, registry⟩)
    {label : ConnectionThreads.Label Uuid Who}
    (taken : connection.step overflowChecks setup label = some next)
    (received : Received overflowChecks registrations addr group connection history) :
    Received overflowChecks registrations addr group next (record history connection label) := by
  have ⟨queue, routed⟩ := received
  cases moved_of_step taken with
  | transportSend event transport runs =>
      simp only [record, if_pos runs]
      exact ⟨queue, routed⟩
  | transportFails event transport gone =>
      simp only [record, if_neg gone]
      exact ⟨queue, routed⟩
  | workerSend sending rest busy channel =>
      refine ⟨?_, routed⟩
      obtain ⟨byte, event⟩ := sending
      by_cases same : byte = 0x00
      · subst same
        have passedOn : connection.passOn setup (0x00, event) = connection.amQueue ++ [event] := by
          simp [Connection.passOn, Dispatchers.servesAm, serves]
        simp only [record, passedOn, send, Function.update_self]
        rw [← List.append_assoc, List.filterMap_append, queue, List.filterMap_append]
      · have passedOn : connection.passOn setup (byte, event) = connection.amQueue := by
          simp [Connection.passOn, Dispatchers.servesAm, same]
        simp only [record, passedOn, send, Function.update_of_ne (Ne.symm same)]
        exact queue
  | amReceive order worker event rest sends registered idle waiting handled =>
      have complete := am_receive_complete serves taken
      rw [serves] at registered
      cases registered
      exact received.digest idle waiting (handled_awaited consistent complete handled) order
  | amEnds order worker event rest registered idle waiting handled =>
      have stopping := worker.handle_event_ends handled
      have nothing (who : Who) : addressed who ([] : List (Who × Event Message)) =
          awaited overflowChecks registrations addr group who event := by
        rw [stopping]
        rfl
      exact received.digest idle waiting nothing order
  | amRefuses order worker event rest message registered idle waiting refused =>
      have unparsed := unparsed_of_indigestible (worker.handle_event_refused refused)
      have nothing (who : Who) : addressed who ([] : List (Who × Event Message)) =
          awaited overflowChecks registrations addr group who event :=
        (awaited_of_unparsed unparsed who).symm
      exact received.digest idle waiting nothing order
  | amSend sending rest busy channel =>
      rw [busy] at routed
      exact ⟨queue, routed.emit⟩
  | amFails sending rest busy closed =>
      rw [busy] at routed
      exact ⟨queue, routed.fail⟩
  | callAmStopper byte rest phase runs =>
      refine ⟨?_, routed⟩
      simp only [record]
      rw [← List.append_assoc, List.filterMap_append, queue]
      exact List.append_nil _
  | _ => exact ⟨queue, routed⟩

end Receivers

section Runs

variable {Uuid Who : Type} [DecidableEq Uuid] [DecidableEq Who]

def Drained {Channel Content : Type} (thread : Thread Channel Content)
    (queue : List (Event Bytes)) : Prop :=
  Life.Intact thread.life ∧ thread.outbox = [] ∧ queue = []

def handed (overflowChecks : Bool) (setup : Dispatchers Uuid Who)
    (registrations : List (Registration Who)) (addr : UInt16) (group : Option UInt8) (who : Who)
    (event : Event Bytes) : List (Event Message) :=
  (project setup 0x00 event).flatMap (awaited overflowChecks registrations addr group who)

variable {overflowChecks : Bool} {setup : Dispatchers Uuid Who} {connection : Connection Who}
  {history : History} {labels : List (ConnectionThreads.Label Uuid Who)}

theorem kept_of_recorded
    (reached : run (recording (Connection.step overflowChecks setup) record) (.fresh, .empty)
      labels = some (connection, history)) :
    Upward setup connection history ∧ Downward connection history := by
  have preserved (state : Connection Who × History)
      (label : ConnectionThreads.Label Uuid Who) (next : Connection Who × History)
      (kept : Upward setup state.1 state.2 ∧ Downward state.1 state.2)
      (taken : recording (Connection.step overflowChecks setup) record state label = some next) :
      Upward setup next.1 next.2 ∧ Downward next.1 next.2 := by
    obtain ⟨moved, recorded⟩ := recording_some.mp taken
    rw [recorded]
    exact ⟨upward_step moved kept.1, downward_step moved kept.2⟩
  exact invariant_of_run preserved ⟨upward_fresh, downward_fresh⟩ reached

theorem received_of_recorded {ids : Who → Uuid} {registrations : List (Registration Who)}
    {registry : ReceiverRegistry Uuid Who} {users : Who → AMReceiver Uuid Who} {addr : UInt16}
    {group : Option UInt8} (consistent : Consistent ids registrations registry users)
    (serves : setup.am = some ⟨addr, group, registry⟩)
    (reached : run (recording (Connection.step overflowChecks setup) record) (.fresh, .empty)
      labels = some (connection, history)) :
    Received overflowChecks registrations addr group connection history := by
  have preserved (state : Connection Who × History)
      (label : ConnectionThreads.Label Uuid Who) (next : Connection Who × History)
      (kept : Received overflowChecks registrations addr group state.1 state.2)
      (taken : recording (Connection.step overflowChecks setup) record state label = some next) :
      Received overflowChecks registrations addr group next.1 next.2 := by
    obtain ⟨moved, recorded⟩ := recording_some.mp taken
    rw [recorded]
    exact received_step consistent serves moved kept
  exact invariant_of_run preserved received_fresh reached

omit [DecidableEq Uuid] [DecidableEq Who] in
theorem Upward.upward_beginning (upward : Upward setup connection history) (byte : UInt8) :
    connection.upward byte <+: history.offered.flatMap (project setup byte) := by
  rw [← upward.queue, List.flatMap_append]
  exact (upward.routed.sent_beginning byte).trans (List.prefix_append _ _)

omit [DecidableEq Uuid] [DecidableEq Who] in
theorem Upward.upward_of_drained (upward : Upward setup connection history)
    (drained : Drained connection.worker connection.fromTransport) (byte : UInt8) :
    connection.upward byte = history.offered.flatMap (project setup byte) := by
  obtain ⟨intact, idle, empty⟩ := drained
  rw [← upward.queue, empty, List.append_nil]
  exact upward.routed.sent_of_idle intact idle byte

section Handed

variable {registrations : List (Registration Who)} {addr : UInt16} {group : Option UInt8}
  {who : Who}

omit [DecidableEq Uuid] in
theorem flat_map_handed (events : List (Event Bytes)) :
    events.flatMap (handed overflowChecks setup registrations addr group who) =
      ((events.flatMap (project setup 0x00)).filterMap (parsed overflowChecks)).flatMap
        (expected registrations addr group who) := by
  rw [← flat_map_awaited, List.flatMap_assoc]
  rfl

omit [DecidableEq Uuid] in
theorem Received.received_beginning
    (received : Received overflowChecks registrations addr group connection history)
    (upward : Upward setup connection history) :
    connection.received who <+:
      history.offered.flatMap (handed overflowChecks setup registrations addr group who) := by
  have taken := received.routed.sent_beginning who
  have queued : history.digested.filterMap (parsed overflowChecks) <+:
      (connection.upward 0x00).filterMap (parsed overflowChecks) := by
    rw [← received.queue, List.filterMap_append]
    exact List.prefix_append _ _
  rw [flat_map_awaited] at taken
  rw [flat_map_handed]
  have passedOn := queued.trans ((upward.upward_beginning 0x00).filterMap (parsed overflowChecks))
  exact taken.trans (List.IsPrefix.flatMap passedOn _)

omit [DecidableEq Uuid] in
theorem Received.received_of_drained
    (received : Received overflowChecks registrations addr group connection history)
    (upward : Upward setup connection history)
    (drained : Drained connection.worker connection.fromTransport)
    (drainedAm : Drained connection.am connection.amQueue) :
    connection.received who =
      history.offered.flatMap (handed overflowChecks setup registrations addr group who) := by
  obtain ⟨intact, idle, empty⟩ := drainedAm
  have queue := received.queue
  rw [empty, List.append_nil, upward.upward_of_drained drained] at queue
  rw [received.routed.sent_of_idle intact idle, flat_map_awaited, queue, flat_map_handed]

end Handed

/-- In every run of a connection, whoever drops what and whenever `stop` comes: each dispatcher and
each receiver has a beginning of what the transport has sent for it, the transport has for each byte
a beginning of what users have sent, and threads that have not panicked and have nothing left to do
have passed everything on. -/
theorem connection_delivers (overflowChecks : Bool) (setup : Dispatchers Uuid Who)
    (labels : List (ConnectionThreads.Label Uuid Who)) (connection : Connection Who)
    (reached : run (Connection.step overflowChecks setup) .fresh labels = some connection) :
    ∃ history,
      run (recording (Connection.step overflowChecks setup) record) (.fresh, .empty) labels =
        some (connection, history) ∧
      (∀ byte,
        connection.upward byte <+: history.offered.flatMap (project setup byte) ∧
        (Drained connection.worker connection.fromTransport →
          connection.upward byte = history.offered.flatMap (project setup byte))) ∧
      (∀ byte,
        (history.passed ++ connection.toTransport).flatMap (carried byte) <+:
          connection.sent byte ∧
        (Life.Intact (connection.dispatchers byte) → connection.hands byte = none →
          connection.downward byte = [] →
            (history.passed ++ connection.toTransport).flatMap (carried byte) =
              connection.sent byte)) ∧
      ∀ (ids : Who → Uuid) (registrations : List (Registration Who))
        (registry : ReceiverRegistry Uuid Who) (users : Who → AMReceiver Uuid Who)
        (addr : UInt16) (group : Option UInt8), Function.Injective ids →
        registerAll ids registrations = returned (registry, users) →
        setup.am = some ⟨addr, group, registry⟩ → ∀ who,
          connection.received who <+:
            history.offered.flatMap (handed overflowChecks setup registrations addr group who) ∧
          (Drained connection.worker connection.fromTransport →
            Drained connection.am connection.amQueue →
              connection.received who = history.offered.flatMap
                (handed overflowChecks setup registrations addr group who)) := by
  obtain ⟨history, recorded⟩ := recorded_run record reached History.empty
  obtain ⟨upward, downward⟩ := kept_of_recorded recorded
  refine ⟨history, recorded, ?_, ?_, ?_⟩
  · intro byte
    exact ⟨upward.upward_beginning byte, fun drained => upward.upward_of_drained drained byte⟩
  · intro byte
    refine ⟨(downward.carries byte).got_beginning, ?_⟩
    intro intact free empty
    have carries := downward.carries byte
    rw [free, empty] at carries
    exact carries.got_of_empty intact
  · intro ids registrations registry users addr group distinct registered serves who
    obtain ⟨_, _, same, consistent⟩ := register_all_returns distinct registrations
    rw [registered] at same
    cases same
    have received := received_of_recorded consistent serves recorded
    exact ⟨received.received_beginning upward, received.received_of_drained upward⟩

end Runs

def lonelyRegistry : ReceiverRegistry Nat Nat :=
  ⟨∅, some 0, ∅, none, (∅ : HashMap Nat (AMReceiverHandle Nat)).insert 0 ⟨0⟩⟩

def lonelySetup : Dispatchers Nat Nat :=
  ⟨[.am ⟨0x0001, some 0x22, lonelyRegistry⟩, .raw 5], by decide⟩

def droppedEarly : List (ConnectionThreads.Label Nat Nat) :=
  [.transportSend .connected, .userData 5 [0x0A], .userDrop (.raw 5), .workerReceive [0, 5],
    .workerSend, .workerSend, .amReceive [0], .dispatcherReceive 5, .dispatcherSend 5,
    .transportReceive, .amSend, .transportSend .disconnected]

theorem early_drop_delivers :
    ∃ connection history,
      run (Connection.step true lonelySetup) .fresh droppedEarly = some connection ∧
      run (recording (Connection.step true lonelySetup) record) (.fresh, .empty) droppedEarly =
        some (connection, history) ∧
      connection.upward 5 <+: history.offered.flatMap (project lonelySetup 5) ∧
      connection.received 0 <+: history.offered.flatMap
        (handed true lonelySetup [⟨.receiver, none, 0⟩] 0x0001 (some 0x22) 0) := by
  have enabled : (run (Connection.step true lonelySetup) .fresh droppedEarly).isSome = true := by
    decide +kernel
  obtain ⟨connection, reached⟩ := Option.isSome_iff_exists.mp enabled
  obtain ⟨history, recorded, upward, _, received⟩ :=
    connection_delivers true lonelySetup droppedEarly connection reached
  have distinct : Function.Injective (fun who : Nat => who) := fun _ _ same => same
  have handedOn := received (fun who => who) [⟨.receiver, none, 0⟩] lonelyRegistry
    (Function.update (fun who => AMReceiver.new who who) 0 ⟨0, none⟩) 0x0001 (some 0x22) distinct
    rfl rfl 0
  exact ⟨connection, history, reached, recorded, (upward 5).1, handedOn.1⟩

end MoteConnection.ConnectionDelivery
