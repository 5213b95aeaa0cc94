import MoteConnection.ConnectionThreads

/-!
# Two connections that share a transport

The dispatchers of one side put their payloads on one transport, each behind
its own byte, and the `TransportWorker` of the other side takes them apart
again. The transport keeps the order of what it is given and may put notices
of its own between.

The threads behind the dispatchers' channels do not take part; the receivers
of these channels are alive.
-/

namespace MoteConnection.Multiplexing

open FanOut LabeledRuns
open MoteConnection.Runtime MoteConnection.ConnectionWorkers MoteConnection.ConnectionThreads

set_option autoImplicit false

/-- The steps of the users, the `DispatcherWorker`s and the `TransportWorker`. -/
def takesPart {Uuid Who : Type} : ConnectionThreads.Label Uuid Who → Bool
  | .userData _ _ | .workerReceive _ | .workerSend | .dispatcherReceive _ | .dispatcherSend _
  | .dispatcherHangUp _ => true
  | _ => false

inductive Label (Uuid Who : Type)
  | thread (side : Side) (label : ConnectionThreads.Label Uuid Who)
  | deliver (sender : Side)
  | notice (receiver : Side) (connected : Bool)
  deriving DecidableEq, Repr

section Steps

variable {Uuid Who : Type} [DecidableEq Uuid] [DecidableEq Who]

def step (overflowChecks : Bool) (setups : Side → Dispatchers Uuid Who)
    (joined : Side → Connection Who) : Label Uuid Who → Option (Side → Connection Who)
  | .thread side label =>
      if takesPart label then
        ((joined side).step overflowChecks (setups side) label).map fun next =>
          Function.update joined side next
      else none
  | .deliver sender =>
      match (joined sender).toTransport with
      | event :: rest =>
          let receiver := joined sender.other
          let joined := Function.update joined sender { joined sender with toTransport := rest }
          some (Function.update joined sender.other { receiver with
            fromTransport := receiver.fromTransport ++ [event] })
      | [] => none
  | .notice receiver connected =>
      let event : Event Bytes := if connected then .connected else .disconnected
      some (Function.update joined receiver { joined receiver with
        fromTransport := (joined receiver).fromTransport ++ [event] })

end Steps

/-- The payload of a packet on the transport, when it is for the byte. -/
def carried (byte : UInt8) : Event Bytes → List Bytes
  | .data (first :: payload) => if first = byte then [payload] else []
  | _ => []

def payloads : Event Bytes → List Bytes
  | .data payload => [payload]
  | _ => []

section Payloads

theorem carried_other {byte other : UInt8} (differs : other ≠ byte) (payload : Bytes) :
    carried other (.data (byte :: payload)) = [] := if_neg (Ne.symm differs)

variable {Uuid Who : Type} (setup : Dispatchers Uuid Who) {byte : UInt8}

theorem project_payloads (member : byte ∈ setup.bytes) (event : Event Bytes) :
    (project setup byte event).flatMap payloads = carried byte event := by
  cases event with
  | data data =>
      cases data with
      | nil => rfl
      | cons first payload =>
          simp only [project, carried, and_iff_left member]
          split_ifs <;> rfl
  | connected | disconnected => simp [project, member, carried, payloads]
  | stop | error => rfl

theorem project_absent (absent : byte ∉ setup.bytes) (event : Event Bytes) :
    project setup byte event = [] := by
  cases event with
  | data data =>
      cases data with
      | nil => rfl
      | cons first payload => simp [project, absent]
  | connected | disconnected => simp [project, absent]
  | stop | error => rfl

end Payloads

section Directions

variable {Uuid Who : Type} {overflowChecks : Bool} {setup : Dispatchers Uuid Who}
  {connection next : Connection Who}

/-- The receiving half: nothing that has been handled is lost or mixed up. -/
structure Inbound [DecidableEq Who] (setup : Dispatchers Uuid Who)
    (connection : Connection Who) : Prop where
  accounts : Accounts (project setup) connection.upward connection.worker.outbox
    connection.handled
  runs : connection.worker.life = .running
  channels : ∀ byte, connection.channelOpen setup byte = true
  dispatchable : ∀ event ∈ connection.fromTransport, Dispatchable event

/-- The sending half. For each byte, what the other side has got of the transport, what the
transport and the `DispatcherWorker` hold and what is queued make up what users have sent. -/
structure Outbound (got : List (Event Bytes)) (connection : Connection Who) : Prop where
  carries : ∀ byte, (got ++ connection.toTransport).flatMap (carried byte) ++
      (connection.hands byte).toList.flatMap (carried byte) ++
      (connection.downward byte).flatMap payloads = connection.sent byte
  transport : connection.transport = .running
  prefixed : ∀ byte packet, connection.hands byte = some packet →
    ∃ payload, packet = .data (byte :: payload)
  queued : ∀ byte, ∀ event ∈ connection.downward byte, ∃ payload, event = .data payload
  packets : ∀ event ∈ connection.toTransport, Dispatchable event
  runs : ∀ byte message, connection.dispatchers byte ≠ .panicked message

theorem inbound_fresh [DecidableEq Who] (setup : Dispatchers Uuid Who) :
    Inbound setup .fresh where
  accounts := Accounts.start _
  runs := rfl
  channels := by
    intro byte
    unfold Connection.channelOpen
    split <;> rfl
  dispatchable := by simp [Connection.fresh]

theorem outbound_fresh : Outbound [] (.fresh : Connection Who) where
  carries := fun _ => rfl
  transport := rfl
  prefixed := by simp [Connection.fresh]
  queued := by simp [Connection.fresh]
  packets := by simp [Connection.fresh]
  runs := by simp [Connection.fresh]

variable [DecidableEq Uuid] [DecidableEq Who]

/-- The steps of one side, seen from what comes in there: what has arrived stays the same. -/
theorem inbound_step {label : ConnectionThreads.Label Uuid Who} (part : takesPart label = true)
    (taken : connection.step overflowChecks setup label = some next)
    (inbound : Inbound setup connection) :
    Inbound setup next ∧
      next.handled ++ next.fromTransport = connection.handled ++ connection.fromTransport := by
  obtain ⟨accounts, runs, channels, dispatchable⟩ := inbound
  cases moved_of_step taken with
  | workerReceive order event rest sends idle queue complete handled =>
      rw [idle] at accounts
      have taking := accounts.take (handle_data_routed complete handled)
      refine ⟨⟨taking, rfl, channels, ?_⟩, ?_⟩
      · intro other later
        exact dispatchable other ((of_tail queue).2 other later)
      · rw [queue, List.append_assoc]
        rfl
  | workerRefuses order event rest message idle queue complete refused =>
      have first := dispatchable event (of_tail queue).1
      exact absurd first (handle_data_refused refused)
  | workerSend sending rest busy channel =>
      rw [busy] at accounts
      exact ⟨⟨accounts.emit, rfl, channels, dispatchable⟩, rfl⟩
  | workerFails sending rest busy closed =>
      have alive := channels sending.1
      rw [closed] at alive
      cases alive
  | userData | dispatcherReceive | dispatcherRefuses | dispatcherSend | dispatcherFails
  | dispatcherHangUp => exact ⟨⟨accounts, runs, channels, dispatchable⟩, rfl⟩
  | _ => cases part

theorem outbound_step {label : ConnectionThreads.Label Uuid Who} (part : takesPart label = true)
    (taken : connection.step overflowChecks setup label = some next)
    {got : List (Event Bytes)} (outbound : Outbound got connection) : Outbound got next := by
  obtain ⟨carries, transport, prefixed, queued, packets, runs⟩ := outbound
  cases moved_of_step taken with
  | userData byte payload member running =>
      have appended := only_data_append (queued byte) payload
      refine ⟨?_, transport, prefixed, only_data_update appended queued, packets, runs⟩
      intro other
      by_cases same : other = byte
      · have before := carries byte
        simp only [same, Function.update_self, List.flatMap_append, ← before, List.append_assoc]
        rfl
      · simp only [Function.update_of_ne same]
        exact carries other
  | workerReceive | workerRefuses | workerSend | workerFails =>
      exact ⟨carries, transport, prefixed, queued, packets, runs⟩
  | dispatcherReceive byte event packet rest running free queue handled =>
      obtain ⟨first, later⟩ := of_tail queue
      have remaining : ∀ event ∈ rest, ∃ payload, event = .data payload :=
        fun other member => queued byte other (later other member)
      obtain ⟨payload, data⟩ := queued byte event first
      rw [data] at handled
      cases handled
      refine ⟨?_, transport, ?_, only_data_update remaining queued, packets, runs⟩
      · intro other
        by_cases same : other = byte
        · have before := carries byte
          rw [free, queue, data] at before
          have own : (Option.some (DispatcherWorker.mk byte |>.send payload)).toList.flatMap
              (carried byte) = [payload] := by
            simp [DispatcherWorker.send, carried]
          simp only [same, Function.update_self, own, ← before]
          simp [payloads]
        · simp only [Function.update_of_ne same]
          exact carries other
      · intro other packet full
        by_cases same : other = byte
        · simp only [same, Function.update_self, Option.some.injEq] at full ⊢
          exact ⟨payload, full.symm⟩
        · simp only [Function.update_of_ne same] at full
          exact prefixed other packet full
  | dispatcherRefuses byte event rest message running free queue refused =>
      obtain ⟨payload, data⟩ := queued byte event (of_tail queue).1
      rw [data] at refused
      cases refused
  | dispatcherSend byte packet running full alive =>
      obtain ⟨payload, rfl⟩ := prefixed byte packet full
      refine ⟨?_, transport, ?_, queued, ?_, runs⟩
      · intro other
        have before := carries other
        by_cases same : other = byte
        · rw [same] at before ⊢
          rw [full] at before
          simp only [Function.update_self, ← before]
          simp [carried]
        · simp only [Function.update_of_ne same, ← before]
          simp [carried_other same]
      · intro other packet held
        by_cases same : other = byte
        · simp only [same, Function.update_self, reduceCtorEq] at held
        · simp only [Function.update_of_ne same] at held
          exact prefixed other packet held
      · intro event member
        rcases List.mem_append.mp member with earlier | new
        · exact packets event earlier
        · rw [List.mem_singleton.mp new]
          exact List.cons_ne_nil _ _
  | dispatcherFails byte packet running full gone => exact absurd transport gone
  | dispatcherHangUp byte running free queue =>
      refine ⟨carries, transport, prefixed, queued, packets, ?_⟩
      intro other message
      by_cases same : other = byte
      · simp [Connection.dispatcherEnd, same]
      · simp only [Connection.dispatcherEnd, Function.update_of_ne same]
        exact runs other message
  | _ => cases part

end Directions

section Runs

variable {Uuid Who : Type} [DecidableEq Who] {overflowChecks : Bool}
  {setups : Side → Dispatchers Uuid Who} {joined next : Side → Connection Who}

def Keeps (setups : Side → Dispatchers Uuid Who) (joined : Side → Connection Who) (side : Side) :
    Prop :=
  Inbound (setups side) (joined side) ∧
    Outbound ((joined side.other).handled ++ (joined side.other).fromTransport) (joined side)

theorem Side.both (holds : Side → Prop) (side : Side) (own : holds side)
    (opposite : holds side.other) : ∀ other, holds other := by
  cases side with
  | left =>
      intro other
      cases other with
      | left => exact own
      | right => exact opposite
  | right =>
      intro other
      cases other with
      | left => exact opposite
      | right => exact own

theorem Inbound.arrive {setup : Dispatchers Uuid Who} {connection : Connection Who}
    (inbound : Inbound setup connection) {event : Event Bytes}
    (dispatchable : Dispatchable event) :
    Inbound setup { connection with
      fromTransport := connection.fromTransport ++ [event] } := by
  refine ⟨inbound.accounts, inbound.runs, inbound.channels, ?_⟩
  intro other member
  rcases List.mem_append.mp member with earlier | new
  · exact inbound.dispatchable other earlier
  · rw [List.mem_singleton.mp new]
    exact dispatchable

theorem keeps_thread [DecidableEq Uuid] {side : Side} {label : ConnectionThreads.Label Uuid Who}
    (part : takesPart label = true) {moved : Connection Who}
    (taken : (joined side).step overflowChecks (setups side) label = some moved)
    (keeps : ∀ side, Keeps setups joined side) :
    ∀ other, Keeps setups (Function.update joined side moved) other := by
  obtain ⟨inbound, arrived⟩ := inbound_step part taken (keeps side).1
  have outbound := outbound_step part taken (keeps side).2
  have opposite := keeps side.other
  rw [Keeps, side.other_other] at opposite
  refine Side.both (Keeps setups _) side ?_ ?_
  · rw [Keeps, Function.update_self, Function.update_of_ne side.other_ne]
    exact ⟨inbound, outbound⟩
  · rw [Keeps, Function.update_of_ne side.other_ne, side.other_other, Function.update_self,
      arrived]
    exact opposite

/-- A delivery moves a packet from the one end of what the other side has got to the other. -/
theorem keeps_deliver {sender : Side} {event : Event Bytes} {rest : List (Event Bytes)}
    (queue : (joined sender).toTransport = event :: rest)
    (keeps : ∀ side, Keeps setups joined side) :
    ∀ other, Keeps setups
      (Function.update (Function.update joined sender { joined sender with toTransport := rest })
        sender.other { joined sender.other with
          fromTransport := (joined sender.other).fromTransport ++ [event] }) other := by
  obtain ⟨inbound, outbound⟩ := keeps sender
  obtain ⟨receiving, returning⟩ := keeps sender.other
  rw [sender.other_other] at returning
  obtain ⟨member, later⟩ := of_tail queue
  have first := outbound.packets event member
  refine Side.both (Keeps setups _) sender ?_ ?_
  · rw [Keeps, Function.update_of_ne sender.other_ne.symm, Function.update_self,
      Function.update_self]
    refine ⟨⟨inbound.accounts, inbound.runs, inbound.channels, inbound.dispatchable⟩, ?_⟩
    refine ⟨?_, outbound.transport, outbound.prefixed, outbound.queued, ?_, outbound.runs⟩
    · intro byte
      have before := outbound.carries byte
      rw [queue] at before
      simp only [List.append_assoc, List.singleton_append] at before ⊢
      exact before
    · exact fun other member => outbound.packets other (later other member)
  · rw [Keeps, Function.update_self, sender.other_other,
      Function.update_of_ne sender.other_ne.symm, Function.update_self]
    refine ⟨receiving.arrive first, ?_⟩
    exact ⟨returning.carries, returning.transport, returning.prefixed, returning.queued,
      returning.packets, returning.runs⟩

theorem keeps_notice (receiver : Side) {event : Event Bytes} (dispatchable : Dispatchable event)
    (empty : ∀ byte, carried byte event = []) (keeps : ∀ side, Keeps setups joined side) :
    ∀ other, Keeps setups
      (Function.update joined receiver { joined receiver with
        fromTransport := (joined receiver).fromTransport ++ [event] }) other := by
  obtain ⟨inbound, outbound⟩ := keeps receiver
  obtain ⟨receiving, returning⟩ := keeps receiver.other
  rw [receiver.other_other] at returning
  refine Side.both (Keeps setups _) receiver ?_ ?_
  · rw [Keeps, Function.update_self, Function.update_of_ne receiver.other_ne]
    refine ⟨inbound.arrive dispatchable, ?_⟩
    exact ⟨outbound.carries, outbound.transport, outbound.prefixed, outbound.queued,
      outbound.packets, outbound.runs⟩
  · rw [Keeps, Function.update_of_ne receiver.other_ne, receiver.other_other,
      Function.update_self]
    refine ⟨receiving, ?_, returning.transport, returning.prefixed, returning.queued,
      returning.packets, returning.runs⟩
    intro byte
    rw [← returning.carries byte]
    simp [List.flatMap_append, empty byte]

theorem keeps_step [DecidableEq Uuid] (joined : Side → Connection Who) (label : Label Uuid Who)
    (next : Side → Connection Who) (keeps : ∀ side, Keeps setups joined side)
    (taken : step overflowChecks setups joined label = some next) :
    ∀ side, Keeps setups next side := by
  cases label with
  | thread side label =>
      simp only [step] at taken
      split_ifs at taken with part
      obtain ⟨moved, moves, rfl⟩ := Option.map_eq_some_iff.mp taken
      exact keeps_thread part moves keeps
  | deliver sender =>
      simp only [step] at taken
      split at taken
      · rename_i event rest queue
        cases taken
        exact keeps_deliver queue keeps
      · cases taken
  | notice receiver connected =>
      cases taken
      cases connected with
      | true => exact keeps_notice receiver trivial (fun _ => rfl) keeps
      | false => exact keeps_notice receiver trivial (fun _ => rfl) keeps

theorem keeps_of_run [DecidableEq Uuid] {labels : List (Label Uuid Who)}
    (reached : run (step overflowChecks setups) (fun _ => .fresh) labels = some next) :
    ∀ side, Keeps setups next side := by
  have initially : ∀ side, Keeps setups (fun _ => .fresh) side :=
    fun side => ⟨inbound_fresh (setups side), outbound_fresh⟩
  exact invariant_of_run keeps_step initially reached

/-- For each byte and each direction, in every state that is reached: the peer's dispatcher has got
a prefix of what was sent for the byte. With what is about to be sent on its channel it has got its
part of every event that the `TransportWorker` has handled, notices included, and a packet for a
byte without a dispatcher has no part. Neither worker panics. -/
theorem dispatchers_kept_apart [DecidableEq Uuid] {labels : List (Label Uuid Who)}
    {last : Side → Connection Who}
    (reached : run (step overflowChecks setups) (fun _ => .fresh) labels = some last)
    (sender : Side) (byte : UInt8) :
    ((last sender.other).upward byte).flatMap payloads <+: (last sender).sent byte ∧
    (last sender.other).upward byte ++ addressed byte (last sender.other).worker.outbox =
      (last sender.other).handled.flatMap (project (setups sender.other) byte) ∧
    (byte ∉ (setups sender.other).bytes → ∀ other payload,
      project (setups sender.other) other (.data (byte :: payload)) = []) ∧
    (last sender.other).worker.life = .running ∧
    ∀ message, (last sender).dispatchers byte ≠ .panicked message := by
  have keeps := keeps_of_run reached
  have inbound := (keeps sender.other).1
  have outbound := (keeps sender).2
  refine ⟨?_, inbound.accounts byte, ?_, inbound.runs, outbound.runs byte⟩
  · obtain ⟨later, total⟩ := inbound.accounts.sent_prefix byte
    by_cases member : byte ∈ (setups sender.other).bytes
    · have handled : (last sender.other).handled.flatMap (carried byte) =
          ((last sender.other).upward byte).flatMap payloads ++ later.flatMap payloads := by
        rw [← List.flatMap_append, total, List.flatMap_assoc]
        simp only [project_payloads _ member]
      have sent := outbound.carries byte
      rw [List.flatMap_append, List.flatMap_append, handled] at sent
      simp only [List.append_assoc] at sent
      exact ⟨_, sent⟩
    · have none : (last sender.other).upward byte = [] := by
        have empty : (last sender.other).handled.flatMap
            (project (setups sender.other) byte) = [] := by
          simp [project_absent _ member]
        rw [empty] at total
        exact (List.append_eq_nil_iff.mp total).1
      rw [none]
      exact List.nil_prefix
  · intro absent other payload
    simp only [project]
    apply if_neg
    rintro ⟨same, member⟩
    rw [same] at absent
    exact absent member

def twoToOne : Side → Dispatchers Nat Nat
  | .left => ⟨[.raw 1, .raw 2], by decide⟩
  | .right => ⟨[.raw 1], by decide⟩

def mergedRun : List (Label Nat Nat) :=
  [.thread .left (.userData 1 [10]), .thread .left (.userData 2 [20]),
    .thread .left (.userData 1 []), .thread .left (.dispatcherReceive 2),
    .thread .left (.dispatcherReceive 1), .thread .left (.dispatcherSend 2),
    .thread .left (.dispatcherSend 1), .thread .left (.dispatcherReceive 1),
    .thread .left (.dispatcherSend 1), .deliver .left, .notice .right true,
    .deliver .left, .deliver .left, .thread .right (.workerReceive [1]),
    .thread .right (.workerReceive [1]), .thread .right .workerSend,
    .thread .right (.workerReceive [1]), .thread .right .workerSend]

theorem two_dispatchers_kept_apart :
    ∃ last, run (step true twoToOne) (fun _ => .fresh) mergedRun = some last ∧
      (last .right).upward 1 = [.connected, .data [10]] ∧
      (last .left).sent 1 = [[10], []] ∧
      ((last .right).upward 1).flatMap payloads <+: (last .left).sent 1 := by
  have enabled : ∃ last, run (step true twoToOne) (fun _ => .fresh) mergedRun = some last ∧
      (last .right).upward 1 = [.connected, .data [10]] ∧
      (last .left).sent 1 = [[10], []] := ⟨_, rfl, by decide, by decide⟩
  obtain ⟨last, reached, received, sent⟩ := enabled
  exact ⟨last, reached, received, sent, (dispatchers_kept_apart reached .left 1).1⟩

end Runs

end MoteConnection.Multiplexing
