import MoteConnection.ConnectionSetup
import MoteConnection.ConnectionDelivery
import MoteConnection.MessageText

/-!
# The listener

The example that listens: one receiver for every message on the air, whatever
its address and group, and a line for each event that it gets. The times in
front of the lines are a parameter.
-/

namespace MoteConnection.AmListener

open FanOut LabeledRuns
open MoteConnection.Runtime MoteConnection.ActiveMessages MoteConnection.ActiveMessageRouting
open MoteConnection.ConnectionWorkers MoteConnection.ConnectionThreads
open MoteConnection.ConnectionDelivery MoteConnection.MessageText
open MoteConnection.ConnectionSetup (AMDispatcherBuilder)
open Outcome

set_option autoImplicit false

section Listening

variable {Uuid : Type} [DecidableEq Uuid]

/-- The dispatcher that `main` creates, for its one receiver. -/
def listener (id : Uuid) : Outcome (Dispatcher Uuid Unit) := do
  let receiver := AMReceiver.new id ()
  let builder := (AMDispatcherBuilder.new 0x0000).setGroup none
  let (builder, receiver) ← builder.registerDefaultReceiver receiver
  let (builder, _) ← builder.registerDefaultSnooper receiver
  return .am builder.create

def connectionOf (dispatcher : Dispatcher Uuid Unit) : Dispatchers Uuid Unit :=
  ⟨[dispatcher], List.nodup_singleton _⟩

def textOf : Event Message → String
  | .data message => listenerText message
  | .connected => "Connected."
  | .disconnected => "Disconnected."
  | event => "Unknown event " ++ event.debugName

def lineOf (time : String) : Event Message → String
  | .stop => textOf .stop
  | .error => textOf .error
  | event => time ++ " " ++ textOf event

/-- The lines of the loop. -/
def printed (times : Nat → String) (events : List (Event Message)) : List String :=
  events.mapIdx fun place event => lineOf (times place) event

def heard (overflowChecks : Bool) : Event Bytes → Option (Event Message)
  | .data (first :: packet) =>
      if first = 0x00 then parsed overflowChecks (.data packet) else none
  | .connected => some .connected
  | .disconnected => some .disconnected
  | _ => none

def everything : List (Registration Unit) := [⟨.receiver, none, ()⟩, ⟨.snooper, none, ()⟩]

theorem registered_twice (id : Uuid) :
    ∃ first second : ReceiverRegistry Uuid Unit,
      ReceiverRegistry.default.registerDefaultReceiver (AMReceiver.new id ()) =
        returned (first, ⟨id, none⟩) ∧
      first.registerDefaultSnooper ⟨id, none⟩ = returned (second, ⟨id, none⟩) := by
  let handles : HashMap Uuid (AMReceiverHandle Unit) := (∅ : HashMap _ _).insert id ⟨()⟩
  let first : ReceiverRegistry Uuid Unit :=
    ⟨∅, some id, ∅, none, handles⟩
  have found : first.handles.lookup id = some ⟨()⟩ := AList.lookup_insert _
  have again : first.insertHandle ⟨id, none⟩ = returned (handles, ⟨id, none⟩) := by
    simp only [ReceiverRegistry.insertHandle, found]
    rfl
  refine ⟨first, { first with handles := handles, defaultSnooper := some id }, rfl, ?_⟩
  rw [ReceiverRegistry.registerDefaultSnooper, again]
  rfl

theorem listener_registered (id : Uuid) :
    ∃ registry users, registerAll (fun _ => id) everything = returned (registry, users) ∧
      listener id = returned (.am ⟨0x0000, none, registry⟩) := by
  obtain ⟨first, second, receiving, snooping⟩ := registered_twice id
  let users : Unit → AMReceiver Uuid Unit := fun who => AMReceiver.new id who
  refine ⟨second, Function.update (Function.update users () ⟨id, none⟩) () ⟨id, none⟩, ?_, ?_⟩
  · simp only [registerAll, everything, List.foldlM_cons, List.foldlM_nil, register, receiving,
      returned_bind, pure_eq, Function.update_self, snooping]
    rfl
  · simp only [listener, AMDispatcherBuilder.new, AMDispatcherBuilder.withGroup,
      AMDispatcherBuilder.setGroup, AMDispatcherBuilder.registerDefaultReceiver, receiving,
      returned_bind, pure_eq, AMDispatcherBuilder.registerDefaultSnooper, snooping]
    rfl

theorem everything_expected (incoming : Event Message) :
    expected everything 0x0000 none () incoming = [incoming] := by
  have all (role : Role) (id : UInt8) : chosen everything role id = some () := by
    cases role <;> rfl
  have enrolled : Enrolled everything () := List.mem_cons_self
  cases incoming with
  | data message => simp only [expected, all, true_or, true_and, if_true]
  | connected | disconnected | stop | error => simp only [expected, if_pos enrolled]

omit [DecidableEq Uuid] in
theorem handed_heard (overflowChecks : Bool)
    (worker : ActiveMessageRouting.ConnectionWorker Uuid Unit) (event : Event Bytes) :
    handed overflowChecks (connectionOf (.am worker)) everything 0x0000 none () event =
      (heard overflowChecks event).toList := by
  have awaits (event : Event Bytes) : awaited overflowChecks everything 0x0000 none () event =
      (parsed overflowChecks event).toList := by
    rw [awaited]
    cases parsed overflowChecks event with
    | none => rfl
    | some incoming => simp [everything_expected]
  have served : (0x00 : UInt8) ∈ (connectionOf (.am worker)).bytes := List.mem_cons_self
  cases event with
  | data data =>
      cases data with
      | nil => rfl
      | cons first packet =>
          by_cases same : first = 0x00
          · simp [handed, project, same, served, awaits, heard]
          · simp [handed, project, same, heard]
  | connected | disconnected =>
      simp only [handed, project, if_pos served, List.flatMap_singleton, awaits]
      rfl
  | stop | error => rfl

omit [DecidableEq Uuid] in
theorem flat_map_heard (overflowChecks : Bool)
    (worker : ActiveMessageRouting.ConnectionWorker Uuid Unit) (events : List (Event Bytes)) :
    events.flatMap (handed overflowChecks (connectionOf (.am worker)) everything 0x0000 none ()) =
      events.filterMap (heard overflowChecks) := by
  induction events with
  | nil => rfl
  | cons event rest induction =>
      rw [List.flatMap_cons, induction, handed_heard, List.filterMap_cons]
      cases heard overflowChecks event with
      | none => rfl
      | some incoming => rfl

end Listening

section Lines

variable {overflowChecks : Bool} {event other : Event Bytes} {incoming following : Event Message}

theorem heard_cases (hears : heard overflowChecks event = some incoming) :
    incoming = .connected ∨ incoming = .disconnected ∨
      ∃ packet message, event = .data (0x00 :: packet) ∧ incoming = .data message ∧
        Message.tryFrom overflowChecks packet = returned (.ok message) := by
  cases event with
  | data data =>
      cases data with
      | nil => cases hears
      | cons first packet =>
          by_cases same : first = 0x00
          · subst same
            have parses : parsed overflowChecks (.data packet) = some incoming := hears
            cases result : Message.tryFrom overflowChecks packet with
            | panicked message => simp only [parsed, result, reduceCtorEq] at parses
            | returned value =>
                cases value with
                | error error => simp only [parsed, result, reduceCtorEq] at parses
                | ok message =>
                    simp only [parsed, result, Option.some.injEq] at parses
                    exact .inr (.inr ⟨packet, message, rfl, parses.symm, result⟩)
          · rw [heard, if_neg same] at hears
            cases hears
  | connected =>
      cases hears
      exact .inl rfl
  | disconnected =>
      cases hears
      exact .inr (.inl rfl)
  | stop | error => cases hears

theorem text_first (message : Message) : (textOf (.data message)).toList.head? = some '\x7b' := by
  simp [textOf, listenerText, formatted, heading]

theorem line_of_injective (hears : heard overflowChecks event = some incoming)
    (alsoHears : heard overflowChecks other = some following) {time : String}
    (same : lineOf time incoming = lineOf time following) : incoming = following := by
  have line {event : Event Bytes} {incoming : Event Message}
      (hears : heard overflowChecks event = some incoming) :
      lineOf time incoming = time ++ " " ++ textOf incoming := by
    rcases heard_cases hears with connected | disconnected | ⟨_, message, _, data, _⟩
    · rw [connected]
      rfl
    · rw [disconnected]
      rfl
    · rw [data]
      rfl
  rw [line hears, line alsoHears] at same
  have texts := congrArg String.toList same
  simp only [String.toList_append, List.append_assoc, List.append_cancel_left_eq] at texts
  have differs {notice : Event Message} (silent : notice = .connected ∨ notice = .disconnected)
      (message : Message) : (textOf notice).toList ≠ (textOf (.data message)).toList := by
    intro equal
    have heads := congrArg List.head? equal
    rw [text_first] at heads
    rcases silent with connected | disconnected
    · rw [connected] at heads
      exact absurd heads (by decide)
    · rw [disconnected] at heads
      exact absurd heads (by decide)
  have notices : (textOf .connected).toList ≠ (textOf .disconnected).toList := by
    decide
  rcases heard_cases hears with rfl | rfl | ⟨packet, message, _, rfl, parses⟩
  · rcases heard_cases alsoHears with rfl | rfl | ⟨_, message, _, rfl, _⟩
    · rfl
    · exact absurd texts notices
    · exact absurd texts (differs (.inl rfl) message)
  · rcases heard_cases alsoHears with rfl | rfl | ⟨_, message, _, rfl, _⟩
    · exact absurd texts.symm notices
    · rfl
    · exact absurd texts (differs (.inr rfl) message)
  · rcases heard_cases alsoHears with rfl | rfl | ⟨otherPacket, otherMessage, _, rfl, otherParses⟩
    · exact absurd texts.symm (differs (.inl rfl) message)
    · exact absurd texts.symm (differs (.inr rfl) message)
    · have alike := listener_text_eq_iff.mp (String.toList_inj.mp texts)
      have packets := (alike_iff_packets parses otherParses).mp alike
      rw [packets, otherParses] at parses
      cases parses
      rfl

/-- What is printed, place by place, tells what was heard. -/
theorem printed_injective {times : Nat → String} {events others : List (Event Bytes)}
    (same : printed times (events.filterMap (heard overflowChecks)) =
      printed times (others.filterMap (heard overflowChecks))) :
    events.filterMap (heard overflowChecks) = others.filterMap (heard overflowChecks) := by
  have lengths := congrArg List.length same
  rw [printed, printed, List.length_mapIdx, List.length_mapIdx] at lengths
  apply List.ext_getElem lengths
  intro place within alsoWithin
  have lines := congrArg (fun lines => lines[place]?) same
  simp only [printed, List.getElem?_mapIdx, List.getElem?_eq_getElem within,
    List.getElem?_eq_getElem alsoWithin, Option.map_some, Option.some.injEq] at lines
  obtain ⟨event, _, hears⟩ := List.mem_filterMap.mp (List.getElem_mem within)
  obtain ⟨other, _, alsoHears⟩ := List.mem_filterMap.mp (List.getElem_mem alsoWithin)
  exact line_of_injective hears alsoHears lines

theorem printed_beginning {times : Nat → String} {events others : List (Event Message)}
    (beginning : events <+: others) : printed times events <+: printed times others := by
  obtain ⟨rest, rfl⟩ := beginning
  rw [printed, printed, List.mapIdx_append]
  exact List.prefix_append _ _

end Lines

section Listened

variable {Uuid : Type} [DecidableEq Uuid]

/-- In every run of the listener's connection its lines are a beginning of the lines of all that
there was to hear, and all of them once the threads that have not panicked have nothing left to do;
and whatever the times are, different things heard are printed as different lines. -/
theorem listener_prints_all (overflowChecks : Bool) (id : Uuid) (times : Nat → String) :
    ∃ dispatcher, listener id = returned dispatcher ∧
      (∀ labels connection,
        run (Connection.step overflowChecks (connectionOf dispatcher)) .fresh labels =
          some connection →
        ∃ history,
          run (recording (Connection.step overflowChecks (connectionOf dispatcher)) record)
            (.fresh, .empty) labels = some (connection, history) ∧
          printed times (connection.received ()) <+:
            printed times (history.offered.filterMap (heard overflowChecks)) ∧
          (Drained connection.worker connection.fromTransport →
            Drained connection.am connection.amQueue →
              printed times (connection.received ()) =
                printed times (history.offered.filterMap (heard overflowChecks)))) ∧
      ∀ events others : List (Event Bytes),
        printed times (events.filterMap (heard overflowChecks)) =
            printed times (others.filterMap (heard overflowChecks)) ↔
          events.filterMap (heard overflowChecks) = others.filterMap (heard overflowChecks) := by
  obtain ⟨registry, users, registered, listens⟩ := listener_registered id
  have distinct : Function.Injective (fun _ : Unit => id) := fun _ _ _ => rfl
  obtain ⟨_, _, same, consistent⟩ := register_all_returns distinct everything
  rw [registered] at same
  cases same
  refine ⟨_, listens, ?_, ?_⟩
  · intro labels connection reached
    obtain ⟨history, recorded⟩ := recorded_run record reached History.empty
    have received := received_of_recorded consistent rfl recorded
    have upward := (kept_of_recorded recorded).1
    have beginning : connection.received () <+:
        history.offered.filterMap (heard overflowChecks) := by
      rw [← flat_map_heard overflowChecks ⟨0x0000, none, registry⟩]
      exact received.received_beginning upward
    refine ⟨history, recorded, printed_beginning beginning, ?_⟩
    intro drained drainedAm
    rw [received.received_of_drained upward drained drainedAm, flat_map_heard]
  · intro events others
    exact ⟨printed_injective, fun equal => by rw [equal]⟩

def broadcast : List (ConnectionThreads.Label Nat Unit) :=
  [.transportSend .connected, .workerReceive [0x00], .workerSend, .amReceive [7],
    .transportSend (.data [0x00, 0xFF, 0xFF, 0, 1, 1, 0x22, 6, 0x0A, 0x7F, 0xC4]), .amSend,
    .workerReceive [0x00], .workerSend, .amReceive [7], .amSend]

theorem broadcast_printed :
    ∃ dispatcher connection history, listener 7 = returned dispatcher ∧
      run (Connection.step true (connectionOf dispatcher)) .fresh broadcast = some connection ∧
      run (recording (Connection.step true (connectionOf dispatcher)) record) (.fresh, .empty)
        broadcast = some (connection, history) ∧
      printed (fun _ => "12:00") (connection.received ()) <+:
        printed (fun _ => "12:00") (history.offered.filterMap (heard true)) := by
  obtain ⟨dispatcher, listens, prints, _⟩ := listener_prints_all true 7 fun _ => "12:00"
  have known : listener 7 = returned
      (.am ⟨0x0000, none, ⟨∅, some 7, ∅, some 7, (∅ : HashMap Nat _).insert 7 ⟨()⟩⟩⟩) := rfl
  rw [known] at listens
  cases listens
  have enabled : (run (Connection.step true (connectionOf (.am ⟨0x0000, none,
      ⟨∅, some 7, ∅, some 7, (∅ : HashMap Nat _).insert 7 ⟨()⟩⟩⟩))) .fresh broadcast).isSome =
        true := by
    decide +kernel
  obtain ⟨connection, reached⟩ := Option.isSome_iff_exists.mp enabled
  obtain ⟨history, recorded, beginning, _⟩ := prints broadcast connection reached
  exact ⟨_, connection, history, known, reached, recorded, beginning⟩

example : printed (fun _ => "12:00")
    [.connected, .data ⟨0xFFFF, 1, 1, 0x22, 6, [0x0A], [0x7F, 0xC4]⟩] =
      ["12:00 Connected.", "12:00 \x7b22\x7d0001->FFFF[06]  1: 0A 7F:-60"] := by
  decide +kernel

end Listened

end MoteConnection.AmListener
