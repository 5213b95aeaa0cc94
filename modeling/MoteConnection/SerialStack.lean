import MoteConnection.ConnectionDelivery
import MoteConnection.SerialTraffic

/-!
# Two connections over a serial link

The threads of two connections together with the serial transports below them
and the wires between these. A `DispatcherWorker` sends on the queue of its
transport, and a `SerialWorker` on the channel of its connection's
`TransportWorker`, so that each of these sends is one step of both. Frames may
be lost, consumers dropped, reads and writes of the ports fail, threads may
panic, and either side may stop. Both ports stay open for one session, and when
a write thread announces it is left open.

The two threads of a transport fall one by one. A read thread that sends to
nobody panics alone, and the write thread sees it when it tells the read thread
to end, or joins it; the panic of the write thread leaves the read thread
running.
-/

namespace MoteConnection.SerialStack

open FanOut LabeledRuns
open MoteConnection.Runtime MoteConnection.ActiveMessages MoteConnection.ActiveMessageRouting
open MoteConnection.ConnectionWorkers MoteConnection.ConnectionThreads
open MoteConnection.ConnectionDelivery
open MoteConnection.SerialPackets MoteConnection.SerialReceiving
open MoteConnection.SerialEndpoint MoteConnection.SerialLink MoteConnection.SerialTraffic
open Outcome

set_option autoImplicit false

/-- `reader` is what has become of a read thread, apart from its panics over a packet, and
`signalled` that it has been told to end. -/
structure Stack (Who : Type) where
  connection : Side → Connection Who
  link : Link
  reader : Side → Life
  signalled : Side → Bool

def Stack.fresh {Who : Type} : Stack Who :=
  ⟨fun _ => .fresh, .fresh, fun _ => .running, fun _ => false⟩

inductive Label (Uuid Who : Type)
  | thread (side : Side) (label : ConnectionThreads.Label Uuid Who)
  | link (label : LinkLabel)
  | enqueue (side : Side) (byte : UInt8)
  | access (side : Side)
  | readFails (side : Side)
  | notice (side : Side) (connected : Bool)
  | stop (side : Side)
  | writerPanicked (side : Side)
  | signal (side : Side)
  | join (side : Side)
  deriving DecidableEq, Repr

namespace Stack

variable {Uuid Who : Type} [DecidableEq Uuid] [DecidableEq Who]

def readerRuns (stack : Stack Who) (side : Side) : Bool :=
  stack.reader side = .running && (stack.link.endpoint side).readerPanic = none

/-- Every packet of the last read is handled, so that the read thread looks at its stop channel or
reads again. -/
def readerIdle (stack : Stack Who) (side : Side) : Bool :=
  (stack.link.endpoint side).packets = [] && (stack.link.endpoint side).accesses = []

/-- The steps of one thread of a transport, or of a wire, that no connection takes part in. -/
def unshared (stack : Stack Who) : LinkLabel → Bool
  | .endpoint _ (.user _ _) | .endpoint _ .stop | .endpoint _ .access => false
  | .endpoint side (.read _) | .endpoint side (.handle _) => stack.readerRuns side
  | .endpoint side _ => (stack.connection side).transport = .running
  | .deliver _ | .lose _ => true

def along (stack : Stack Who) (side : Side) (connection : Connection Who) : Stack Who :=
  { stack with connection := Function.update stack.connection side connection }

def readerFails (stack : Stack Who) (side : Side) : Stack Who :=
  { stack with reader := Function.update stack.reader side unwrapFailed }

def step (overflowChecks : Bool) (setups : Side → Dispatchers Uuid Who) (stack : Stack Who) :
    Label Uuid Who → Option (Stack Who)
  | .thread side label =>
      if separate label then
        ((stack.connection side).step overflowChecks (setups side) label).map (stack.along side)
      else none
  | .link label =>
      if stack.unshared label then
        (stack.link.step label).map fun next => { stack with link := next }
      else none
  | .enqueue side byte => do
      let connection := stack.connection side
      let next ← connection.step overflowChecks (setups side) (.dispatcherSend byte)
      match connection.transport, connection.hands byte with
      | .running, some (.data (first :: message)) =>
          let link ← stack.link.step (.endpoint side (.user first message))
          return { stack.along side next with link := link }
      | _, _ => return stack.along side next
  | .access side =>
      let connection := stack.connection side
      let linked := (stack.link.step (.endpoint side .access)).map fun link =>
        { stack with link := link }
      if stack.readerRuns side then
        match (stack.link.endpoint side).accesses with
        | .sendTx event :: _ =>
            if connection.worker.life = .running then do
              let next ← connection.step overflowChecks (setups side) (.transportSend event)
              let link ← stack.link.step (.endpoint side .access)
              return { stack.along side next with link := link }
            else some (stack.readerFails side)
        | .sendLoopback _ :: _ =>
            if connection.transport = .running then linked else some (stack.readerFails side)
        | .removeUnacked _ :: _ => linked
        | [] => none
      else none
  | .readFails side =>
      if stack.readerRuns side ∧ stack.readerIdle side then
        some { stack with reader := Function.update stack.reader side .ended }
      else none
  | .notice side connected =>
      let event : Event Bytes := if connected then .connected else .disconnected
      if (stack.connection side).transport = .running then
        ((stack.connection side).step overflowChecks (setups side) (.transportSend event)).map
          (stack.along side)
      else none
  | .stop side => do
      let next ← (stack.connection side).step overflowChecks (setups side) .stop
      let link ← stack.link.step (.endpoint side .stop)
      return { stack.along side next with link := link }
  | .writerPanicked side =>
      match (stack.link.endpoint side).session.worker.position with
      | .panicked message =>
          ((stack.connection side).step overflowChecks (setups side)
            (.transportPanic message)).map (stack.along side)
      | _ => none
  | .signal side =>
      if (stack.link.endpoint side).session.worker.position = .stopped ∧
          (stack.connection side).transport = .running ∧ stack.signalled side = false then
        if stack.readerRuns side then
          some { stack with signalled := Function.update stack.signalled side true }
        else
          -- The read thread has dropped the receiver of its stop channel.
          ((stack.connection side).step overflowChecks (setups side)
            (.transportPanic sendFailed)).map (stack.along side)
      else none
  | .join side =>
      if stack.signalled side ∧ (stack.connection side).transport = .running then
        if stack.reader side = .ended ∨ stack.readerRuns side ∧ stack.readerIdle side then
          ((stack.connection side).step overflowChecks (setups side) .transportEnd).map
            fun next => { stack.along side next with
              reader := Function.update stack.reader side .ended }
        else if stack.readerRuns side then none
        else
          ((stack.connection side).step overflowChecks (setups side)
            (.transportPanic joinFailed)).map (stack.along side)
      else none

end Stack

section Endpoints

variable {endpoint after : Endpoint} {link next : Link}

theorem delivered_grows {label : SerialEndpoint.Label} (taken : endpoint.step label = some after) :
    endpoint.delivered ⊆ after.delivered := by
  cases SerialEndpoint.moved_of_step taken with
  | access access rest head =>
      cases access with
      | sendTx event => exact List.subset_append_left _ _
      | sendLoopback event | removeUnacked seqNum => exact List.Subset.refl _
  | _ => exact List.Subset.refl _

theorem user_data_kept {label : SerialEndpoint.Label} (taken : endpoint.step label = some after)
    (silent : ∀ byte message, label ≠ .user byte message) :
    after.userData = endpoint.userData := by
  cases SerialEndpoint.moved_of_step taken with
  | user byte message => exact absurd rfl (silent byte message)
  | access access rest head => cases access <;> rfl
  | _ => rfl

theorem delivered_of_access (taken : endpoint.step .access = some after) {event : Event Bytes}
    {rest : List SharedAccess} (waiting : endpoint.accesses = .sendTx event :: rest) :
    event ∈ after.delivered := by
  cases SerialEndpoint.moved_of_step taken with
  | access access others head =>
      rw [waiting] at head
      cases head
      exact List.mem_append_right _ List.mem_cons_self

/-- A step of the link leaves an endpoint as it is, or is a step of the endpoint. -/
theorem endpoint_of_link_step {label : LinkLabel} (taken : link.step label = some next)
    (side : Side) :
    next.endpoint side = link.endpoint side ∨
      ∃ own, (link.endpoint side).step own = some (next.endpoint side) ∧
        (label = .endpoint side own ∨ ∃ bytes, own = .arrive bytes) := by
  unfold Link.step at taken
  split at taken
  · cases taken
  · rename_i mover label _
    obtain ⟨endpoint, moved, rfl⟩ := Option.map_eq_some_iff.mp taken
    by_cases same : side = mover
    · subst same
      simp only [Function.update_self]
      exact .inr ⟨label, moved, .inl rfl⟩
    · simp only [Function.update_of_ne same]
      exact .inl trivial
  · rename_i sender
    split at taken
    · cases taken
    · rename_i write rest head
      cases taken
      by_cases same : side = sender.other
      · subst same
        simp only [Function.update_self]
        exact .inr ⟨.arrive write.frame, rfl, .inr ⟨write.frame, rfl⟩⟩
      · simp only [Function.update_of_ne same]
        exact .inl trivial
  · split at taken
    · cases taken
    · cases taken
      exact .inl rfl

theorem link_delivered_grows {label : LinkLabel} (taken : link.step label = some next)
    (side : Side) : (link.endpoint side).delivered ⊆ (next.endpoint side).delivered := by
  rcases endpoint_of_link_step taken side with same | ⟨own, moved, _⟩
  · rw [same]
    exact List.Subset.refl _
  · exact delivered_grows moved

theorem link_user_data_kept {label : LinkLabel} (taken : link.step label = some next)
    {side : Side} (silent : ∀ byte message, label ≠ .endpoint side (.user byte message)) :
    (next.endpoint side).userData = (link.endpoint side).userData := by
  rcases endpoint_of_link_step taken side with same | ⟨own, moved, which⟩
  · rw [same]
  · apply user_data_kept moved
    intro byte message isUser
    rcases which with own | ⟨bytes, arrival⟩
    · exact silent byte message (isUser ▸ own)
    · rw [isUser] at arrival
      cases arrival

theorem endpoint_step {side : Side} {own : SerialEndpoint.Label}
    (taken : link.step (.endpoint side own) = some next) :
    (link.endpoint side).step own = some (next.endpoint side) ∧
      next.endpoint side.other = link.endpoint side.other := by
  unfold Link.step at taken
  split at taken
  · cases taken
  · rename_i mover label _ same
    cases same
    obtain ⟨endpoint, moved, rfl⟩ := Option.map_eq_some_iff.mp taken
    simp only [Function.update_self, Function.update_of_ne side.other_ne]
    exact ⟨moved, trivial⟩
  · rename_i same
    cases same
  · rename_i same
    cases same

end Endpoints

section Queues

variable {Uuid Who : Type} [DecidableEq Uuid] [DecidableEq Who] {overflowChecks : Bool}
  {setup : Dispatchers Uuid Who} {connection next : Connection Who} {history : History}
  {label : ConnectionThreads.Label Uuid Who}

theorem to_transport_grows (taken : connection.step overflowChecks setup label = some next)
    (silent : label ≠ .transportReceive) : connection.toTransport ⊆ next.toTransport := by
  cases ConnectionThreads.moved_of_step taken with
  | transportReceive event rest transport queue => exact absurd rfl silent
  | dispatcherSend | stop => exact List.subset_append_left _ _
  | _ => exact List.Subset.refl _

omit [DecidableEq Uuid] [DecidableEq Who] in
theorem passed_kept (silent : label ≠ .transportReceive) :
    (record history connection label).passed = history.passed := by
  cases label with
  | transportReceive => exact absurd rfl silent
  | transportSend event =>
      rw [record]
      split_ifs <;> rfl
  | _ => rfl

omit [DecidableEq Uuid] [DecidableEq Who] in
theorem offered_kept (silent : ∀ event, label ≠ .transportSend event) :
    (record history connection label).offered = history.offered := by
  cases label with
  | transportSend event => exact absurd rfl (silent event)
  | _ => rfl

end Queues

section Invariant

variable {Uuid Who : Type} [DecidableEq Uuid] [DecidableEq Who] {overflowChecks : Bool}
  {setups : Side → Dispatchers Uuid Who} {stack next : Stack Who} {history : Side → History}

/-- What the `TransportWorker` of a side was offered, its `SerialWorker` has handed up, and what the
transport of a side was given, its `DispatcherWorker`s have sent. -/
structure StackInv (overflowChecks : Bool) (setups : Side → Dispatchers Uuid Who)
    (stack : Stack Who) (history : Side → History) : Prop where
  traffic : TrafficInv stack.link
  upward : ∀ side, Upward (setups side) (stack.connection side) (history side)
  downward : ∀ side, Downward (stack.connection side) (history side)
  received : ∀ side (ids : Who → Uuid) (registrations : List (Registration Who))
    (registry : ReceiverRegistry Uuid Who) (users : Who → AMReceiver Uuid Who) (addr : UInt16)
    (group : Option UInt8), Consistent ids registrations registry users →
      (setups side).am = some ⟨addr, group, registry⟩ →
      Received overflowChecks registrations addr group (stack.connection side) (history side)
  offered : ∀ side data, .data data ∈ (history side).offered →
    .data data ∈ (stack.link.endpoint side).delivered
  queued : ∀ side, ∀ data ∈ (stack.link.endpoint side).userData,
    .data data ∈ (history side).passed ++ (stack.connection side).toTransport

theorem stack_inv_fresh : StackInv overflowChecks setups .fresh fun _ => .empty where
  traffic := traffic_inv_fresh
  upward := fun _ => upward_fresh
  downward := fun _ => downward_fresh
  received := fun _ _ _ _ _ _ _ _ _ => received_fresh
  offered := by
    intro side data member
    cases member
  queued := by
    intro side data member
    cases member

theorem StackInv.linked (inv : StackInv overflowChecks setups stack history) {label : LinkLabel}
    {link : Link} (taken : stack.link.step label = some link)
    (silent : ∀ side byte message, label ≠ .endpoint side (.user byte message)) :
    StackInv overflowChecks setups { stack with link := link } history :=
  { inv with
    traffic := traffic_inv_step inv.traffic taken
    offered := fun side data member =>
      link_delivered_grows taken side (inv.offered side data member)
    queued := by
      intro side data member
      rw [link_user_data_kept taken (silent side)] at member
      exact inv.queued side data member }

theorem StackInv.moved (inv : StackInv overflowChecks setups stack history) {side : Side}
    {reader : Side → Life} {signalled : Side → Bool}
    {label : ConnectionThreads.Label Uuid Who} {connection : Connection Who}
    (taken : (stack.connection side).step overflowChecks (setups side) label = some connection)
    {link : Link} (traffic : TrafficInv link)
    (offered : ∀ data,
      .data data ∈ (record (history side) (stack.connection side) label).offered →
        .data data ∈ (link.endpoint side).delivered)
    (queued : ∀ data ∈ (link.endpoint side).userData, .data data ∈
      (record (history side) (stack.connection side) label).passed ++ connection.toTransport)
    (opposite : link.endpoint side.other = stack.link.endpoint side.other) :
    StackInv overflowChecks setups
      ⟨Function.update stack.connection side connection, link, reader, signalled⟩
      (Function.update history side (record (history side) (stack.connection side) label)) := by
  have others {Value : Type} (values : Side → Value) (value : Value) :
      Function.update values side value side.other = values side.other :=
    Function.update_of_ne side.other_ne ..
  have itself {Value : Type} (values : Side → Value) (value : Value) :
      Function.update values side value side = value := Function.update_self ..
  constructor
  · exact traffic
  · refine both_sides side ?_ ?_
    · simp only [itself]
      exact upward_step taken (inv.upward side)
    · simp only [others]
      exact inv.upward side.other
  · refine both_sides side ?_ ?_
    · simp only [itself]
      exact downward_step taken (inv.downward side)
    · simp only [others]
      exact inv.downward side.other
  · refine both_sides side ?_ ?_
    · simp only [itself]
      intro ids registrations registry users addr group consistent serves
      exact received_step consistent serves taken
        (inv.received side ids registrations registry users addr group consistent serves)
    · simp only [others]
      exact inv.received side.other
  · refine both_sides side ?_ ?_
    · simp only [itself]
      exact offered
    · simp only [others, opposite]
      exact inv.offered side.other
  · refine both_sides side ?_ ?_
    · simp only [itself]
      exact queued
    · simp only [others, opposite]
      exact inv.queued side.other

/-- What the transport was given it keeps, unless the connection takes it back. -/
theorem StackInv.kept (inv : StackInv overflowChecks setups stack history) {side : Side}
    {label : ConnectionThreads.Label Uuid Who} {connection : Connection Who}
    (taken : (stack.connection side).step overflowChecks (setups side) label = some connection)
    (silent : label ≠ .transportReceive) {data : Bytes}
    (member : data ∈ (stack.link.endpoint side).userData) : .data data ∈
      (record (history side) (stack.connection side) label).passed ++ connection.toTransport := by
  rw [passed_kept silent]
  rcases List.mem_append.mp (inv.queued side data member) with before | waiting
  · exact List.mem_append_left _ before
  · exact List.mem_append_right _ (to_transport_grows taken silent waiting)

theorem StackInv.alone (inv : StackInv overflowChecks setups stack history) {side : Side}
    {reader : Side → Life} {signalled : Side → Bool}
    {label : ConnectionThreads.Label Uuid Who} {connection : Connection Who}
    (taken : (stack.connection side).step overflowChecks (setups side) label = some connection)
    (unsent : ∀ event, label ≠ .transportSend event) (untaken : label ≠ .transportReceive) :
    ∃ after, StackInv overflowChecks setups
      ⟨Function.update stack.connection side connection, stack.link, reader, signalled⟩
        after := by
  refine ⟨_, inv.moved taken inv.traffic ?_ (fun data member => ?_) rfl⟩
  · intro data member
    rw [offered_kept unsent] at member
    exact inv.offered side data member
  · exact inv.kept taken untaken member

theorem stack_inv_enqueue (inv : StackInv overflowChecks setups stack history) {side : Side}
    {byte : UInt8} (taken : stack.step overflowChecks setups (.enqueue side byte) = some next) :
    ∃ after, StackInv overflowChecks setups next after := by
  obtain ⟨connection, moved, turn⟩ := Option.bind_eq_some_iff.mp taken
  dsimp only at turn
  split at turn
  · rename_i first message running hand
    obtain ⟨link, linked, same⟩ := Option.bind_eq_some_iff.mp turn
    cases same
    obtain ⟨own, opposite⟩ := endpoint_step linked
    cases ConnectionThreads.moved_of_step moved with
    | dispatcherFails _ packet runs full gone => exact absurd running gone
    | dispatcherSend _ packet runs full transport =>
        rw [hand] at full
        cases full
        have grown : (link.endpoint side).userData =
            (stack.link.endpoint side).userData ++ [first :: message] := by
          rw [← Option.some.inj own]
          rfl
        refine ⟨_, inv.moved moved (traffic_inv_step inv.traffic linked) ?_ ?_ opposite⟩
        · intro data member
          exact link_delivered_grows linked side (inv.offered side data member)
        · intro data member
          rw [grown] at member
          rcases List.mem_append.mp member with before | new
          · exact inv.kept moved (by simp) before
          · rw [List.mem_singleton.mp new]
            exact List.mem_append_right _ (List.mem_append_right _ List.mem_cons_self)
  · cases turn
    exact inv.alone moved (by simp) (by simp)

theorem stack_inv_hand_up (inv : StackInv overflowChecks setups stack history) {side : Side}
    {event : Event Bytes} {rest : List SharedAccess}
    (waiting : (stack.link.endpoint side).accesses = .sendTx event :: rest)
    (runs : (stack.connection side).worker.life = .running) {connection : Connection Who}
    (moved : (stack.connection side).step overflowChecks (setups side) (.transportSend event) =
      some connection)
    {link : Link} (linked : stack.link.step (.endpoint side .access) = some link) :
    ∃ after, StackInv overflowChecks setups { stack.along side connection with link := link }
      after := by
  obtain ⟨own, opposite⟩ := endpoint_step linked
  have userData : (link.endpoint side).userData = (stack.link.endpoint side).userData :=
    user_data_kept own (by simp)
  refine ⟨_, inv.moved moved (traffic_inv_step inv.traffic linked) ?_ ?_ opposite⟩
  · intro data member
    simp only [record, if_pos runs] at member
    rcases List.mem_append.mp member with before | new
    · exact link_delivered_grows linked side (inv.offered side data before)
    · rw [List.mem_singleton.mp new]
      exact delivered_of_access own waiting
  · intro data member
    rw [userData] at member
    exact inv.kept moved (by simp) member

theorem stack_inv_access (inv : StackInv overflowChecks setups stack history) {side : Side}
    (taken : stack.step overflowChecks setups (.access side) = some next) :
    ∃ after, StackInv overflowChecks setups next after := by
  have silent : ∀ other byte message,
      LinkLabel.endpoint side .access ≠ .endpoint other (.user byte message) := by simp
  have alone (linked : (stack.link.step (.endpoint side .access)).map
      (fun link => { stack with link := link }) = some next) :
      ∃ after, StackInv overflowChecks setups next after := by
    obtain ⟨link, moved, rfl⟩ := Option.map_eq_some_iff.mp linked
    exact ⟨history, inv.linked moved silent⟩
  simp only [Stack.step] at taken
  split at taken
  case isFalse gone => cases taken
  split at taken
  · rename_i event rest waiting
    split at taken
    · rename_i runs
      obtain ⟨connection, moved, turn⟩ := Option.bind_eq_some_iff.mp taken
      obtain ⟨link, linked, same⟩ := Option.bind_eq_some_iff.mp turn
      cases same
      exact stack_inv_hand_up inv waiting runs moved linked
    · cases taken
      exact ⟨history, { inv with }⟩
  · split at taken
    · exact alone taken
    · cases taken
      exact ⟨history, { inv with }⟩
  · exact alone taken
  · cases taken

theorem stack_inv_notice (inv : StackInv overflowChecks setups stack history) {side : Side}
    {connected : Bool}
    (taken : stack.step overflowChecks setups (.notice side connected) = some next) :
    ∃ after, StackInv overflowChecks setups next after := by
  simp only [Stack.step] at taken
  split at taken
  case isFalse gone => cases taken
  obtain ⟨connection, moved, rfl⟩ := Option.map_eq_some_iff.mp taken
  refine ⟨_, inv.moved moved inv.traffic ?_
    (fun data member => inv.kept moved (by simp) member) rfl⟩
  intro data member
  apply inv.offered side data
  by_cases runs : (stack.connection side).worker.life = .running
  · simp only [record, if_pos runs] at member
    rcases List.mem_append.mp member with before | new
    · exact before
    · have notice := List.mem_singleton.mp new
      cases connected <;> cases notice
  · simp only [record, if_neg runs] at member
    exact member

/-- The write thread tells the read thread to end and joins it; either may find it gone. -/
theorem stack_inv_ending (inv : StackInv overflowChecks setups stack history) {side : Side}
    {label : Label Uuid Who} (ending : label = .signal side ∨ label = .join side)
    (taken : stack.step overflowChecks setups label = some next) :
    ∃ after, StackInv overflowChecks setups next after := by
  rcases ending with rfl | rfl
  · simp only [Stack.step] at taken
    split_ifs at taken
    · cases taken
      exact ⟨history, { inv with }⟩
    · obtain ⟨connection, moved, rfl⟩ := Option.map_eq_some_iff.mp taken
      exact inv.alone moved (by simp) (by simp)
  · simp only [Stack.step] at taken
    split_ifs at taken
    · obtain ⟨connection, moved, rfl⟩ := Option.map_eq_some_iff.mp taken
      exact inv.alone moved (by simp) (by simp)
    · obtain ⟨connection, moved, rfl⟩ := Option.map_eq_some_iff.mp taken
      exact inv.alone moved (by simp) (by simp)

theorem stack_inv_step (inv : StackInv overflowChecks setups stack history)
    {label : Label Uuid Who} (taken : stack.step overflowChecks setups label = some next) :
    ∃ after, StackInv overflowChecks setups next after := by
  cases label with
  | thread side own =>
      simp only [Stack.step] at taken
      split_ifs at taken with apart
      obtain ⟨connection, moved, rfl⟩ := Option.map_eq_some_iff.mp taken
      refine inv.alone moved ?_ ?_
      · rintro event rfl
        cases apart
      · rintro rfl
        cases apart
  | link own =>
      simp only [Stack.step] at taken
      split_ifs at taken with apart
      obtain ⟨link, moved, rfl⟩ := Option.map_eq_some_iff.mp taken
      refine ⟨history, inv.linked moved ?_⟩
      rintro side byte message rfl
      cases apart
  | enqueue side byte => exact stack_inv_enqueue inv taken
  | access side => exact stack_inv_access inv taken
  | readFails side =>
      simp only [Stack.step] at taken
      split_ifs at taken
      cases taken
      exact ⟨history, { inv with }⟩
  | notice side connected => exact stack_inv_notice inv taken
  | stop side =>
      obtain ⟨connection, moved, turn⟩ := Option.bind_eq_some_iff.mp taken
      obtain ⟨link, linked, same⟩ := Option.bind_eq_some_iff.mp turn
      cases same
      obtain ⟨own, opposite⟩ := endpoint_step linked
      refine ⟨_, inv.moved moved (traffic_inv_step inv.traffic linked) ?_ ?_ opposite⟩
      · intro data member
        exact link_delivered_grows linked side (inv.offered side data member)
      · intro data member
        rw [user_data_kept own (by simp)] at member
        exact inv.kept moved (by simp) member
  | writerPanicked side =>
      simp only [Stack.step] at taken
      split at taken
      · obtain ⟨connection, moved, rfl⟩ := Option.map_eq_some_iff.mp taken
        exact inv.alone moved (by simp) (by simp)
      · cases taken
  | signal side => exact stack_inv_ending inv (.inl rfl) taken
  | join side => exact stack_inv_ending inv (.inr rfl) taken

end Invariant

section Provenance

variable {Uuid Who : Type} [DecidableEq Uuid] [DecidableEq Who] {overflowChecks : Bool}
  {setups : Side → Dispatchers Uuid Who} {stack : Stack Who} {history : Side → History}

omit [DecidableEq Uuid] [DecidableEq Who] in
theorem data_of_project {setup : Dispatchers Uuid Who} {byte : UInt8} {event : Event Bytes}
    {payload : Bytes} (member : .data payload ∈ project setup byte event) :
    event = .data (byte :: payload) := by
  cases event with
  | data data =>
      cases data with
      | nil => cases member
      | cons first rest =>
          rw [project] at member
          split_ifs at member with same
          · cases List.mem_singleton.mp member
            rw [same.1]
          · cases member
  | connected | disconnected =>
      rw [project] at member
      split_ifs at member
      · cases List.mem_singleton.mp member
      · cases member
  | stop | error => cases member

omit [DecidableEq Uuid] in
theorem message_of_handed {setup : Dispatchers Uuid Who} {registrations : List (Registration Who)}
    {addr : UInt16} {group : Option UInt8} {who : Who} {event : Event Bytes} {message : Message}
    (member : .data message ∈
      handed overflowChecks setup registrations addr group who event) :
    .data message.intoBytes ∈ project setup 0x00 event ∧
      chosen registrations (roleOf addr message.dest) message.id = some who := by
  obtain ⟨projected, within, awaits⟩ := List.mem_flatMap.mp member
  obtain ⟨incoming, parses, expects⟩ := List.mem_flatMap.mp awaits
  have fromPacket : incoming = .data message ∧
      chosen registrations (roleOf addr message.dest) message.id = some who := by
    cases incoming with
    | data other =>
        rw [expected] at expects
        split_ifs at expects with chooses
        · cases List.mem_singleton.mp expects
          exact ⟨rfl, chooses.2⟩
        · cases expects
    | connected | disconnected | stop | error =>
        simp only [expected] at expects
        split_ifs at expects
        · cases List.mem_singleton.mp expects
        · cases expects
  obtain ⟨rfl, choice⟩ := fromPacket
  refine ⟨?_, choice⟩
  cases projected with
  | data packet =>
      cases result : Message.tryFrom overflowChecks packet with
      | panicked panic => simp [parsed, result] at parses
      | returned value =>
          cases value with
          | error error => simp [parsed, result] at parses
          | ok other =>
              simp only [parsed, result, Option.mem_toList, Option.some.injEq,
                Event.data.injEq] at parses
              rw [parses] at result
              rw [← ((try_from_ok overflowChecks packet message).mp result).1]
              exact within
  | connected | disconnected | stop | error => simp [parsed] at parses

theorem StackInv.sent (inv : StackInv overflowChecks setups stack history) {side : Side}
    {byte : UInt8} {payload : Bytes}
    (offered : .data (byte :: payload) ∈ (history side).offered) :
    payload ∈ (stack.connection side.other).sent byte ∨
      ∃ seqNum, byte :: payload = (Ack.new seqNum).intoBytes := by
  have delivered := inv.offered side _ offered
  obtain ⟨content, mixed, same⟩ := (inv.traffic.received side).delivered _ delivered
  cases same
  rcases List.mem_append.mp mixed with user | acknowledgement
  · left
    have given := inv.queued side.other _ user
    apply ((inv.downward side.other).carries byte).got_beginning.subset
    apply List.mem_flatMap.mpr ⟨_, given, _⟩
    rw [MoteConnection.Multiplexing.carried, if_pos rfl]
    exact List.mem_cons_self
  · exact .inr ((mem_acknowledgements _).mp acknowledgement)

/-- In every run of two connections over a serial link, though acknowledgements are handed up like
data: what a dispatcher gets was sent by a user of the same byte on the other side, unless the byte
is the one that acknowledgements begin with; and a message that a receiver gets was sent as it is on
the other side's ActiveMessage dispatcher, and is for this receiver. -/
theorem stack_invents_nothing (overflowChecks : Bool) (setups : Side → Dispatchers Uuid Who)
    (labels : List (Label Uuid Who)) (stack : Stack Who)
    (reached : run (Stack.step overflowChecks setups) .fresh labels = some stack) (side : Side) :
    (∀ byte payload, .data payload ∈ (stack.connection side).upward byte →
      payload ∈ (stack.connection side.other).sent byte ∨
        byte = ackByte ∧ ∃ seqNum, byte :: payload = (Ack.new seqNum).intoBytes) ∧
    ∀ (ids : Who → Uuid) (registrations : List (Registration Who))
      (registry : ReceiverRegistry Uuid Who) (users : Who → AMReceiver Uuid Who)
      (addr : UInt16) (group : Option UInt8), Function.Injective ids →
      registerAll ids registrations = returned (registry, users) →
      (setups side).am = some ⟨addr, group, registry⟩ →
      ∀ who message, .data message ∈ (stack.connection side).received who →
        message.intoBytes ∈ (stack.connection side.other).sent 0x00 ∧
          chosen registrations (roleOf addr message.dest) message.id = some who := by
  have preserved (stack : Stack Who) (label : Label Uuid Who) (next : Stack Who)
      (inv : ∃ history, StackInv overflowChecks setups stack history)
      (taken : stack.step overflowChecks setups label = some next) :
      ∃ history, StackInv overflowChecks setups next history := by
    obtain ⟨history, inv⟩ := inv
    exact stack_inv_step inv taken
  obtain ⟨history, inv⟩ := invariant_of_run preserved ⟨_, stack_inv_fresh⟩ reached
  have begins (seqNum : UInt8) {byte : UInt8} {payload : Bytes}
      (same : byte :: payload = (Ack.new seqNum).intoBytes) : byte = ackByte :=
    (List.cons.inj same).1
  constructor
  · intro byte payload member
    have offered := ((inv.upward side).upward_beginning byte).subset member
    obtain ⟨event, within, projected⟩ := List.mem_flatMap.mp offered
    rw [data_of_project projected] at within
    rcases inv.sent within with sent | ⟨seqNum, same⟩
    · exact .inl sent
    · exact .inr ⟨begins seqNum same, seqNum, same⟩
  · intro ids registrations registry users addr group distinct registered serves who message member
    obtain ⟨_, _, same, consistent⟩ := register_all_returns distinct registrations
    rw [registered] at same
    cases same
    have receives := inv.received side ids registrations registry users addr group consistent serves
    have handedOn := (receives.received_beginning (inv.upward side)).subset member
    obtain ⟨event, within, isHanded⟩ := List.mem_flatMap.mp handedOn
    obtain ⟨projected, choice⟩ := message_of_handed isHanded
    rw [data_of_project projected] at within
    refine ⟨?_, choice⟩
    rcases inv.sent within with sent | ⟨seqNum, same⟩
    · exact sent
    · exact absurd (begins seqNum same) (by decide)

end Provenance

def broadcast : List (Label Nat Nat) :=
  [.thread .left (.userData 0x00 [0xFF, 0xFF, 0, 1, 0, 0x22, 6]),
    .thread .left (.dispatcherReceive 0x00), .enqueue .left 0x00,
    .link (.endpoint .left .receive), .link (.endpoint .left (.work (.write true))),
    .link (.deliver .left), .link (.endpoint .right (.read 255)),
    .link (.endpoint .right (.handle 0)), .access .right, .access .right,
    .thread .right (.workerReceive [0, 5]), .thread .right .workerSend,
    .thread .right (.amReceive [0]), .thread .right .amSend]

theorem broadcast_was_sent :
    ∃ stack, run (Stack.step true fun _ => lonelySetup) .fresh broadcast = some stack ∧
      .data ⟨0xFFFF, 1, 0, 0x22, 6, [], []⟩ ∈ (stack.connection .right).received 0 ∧
      [0xFF, 0xFF, 0, 1, 0, 0x22, 6] ∈ (stack.connection .left).sent 0x00 := by
  have heard : ((run (Stack.step true fun _ => lonelySetup) .fresh broadcast).map fun stack =>
      (stack.connection .right).received 0) = some [.data ⟨0xFFFF, 1, 0, 0x22, 6, [], []⟩] := by
    decide +kernel
  obtain ⟨stack, reached, all⟩ := Option.map_eq_some_iff.mp heard
  have member : .data ⟨0xFFFF, 1, 0, 0x22, 6, [], []⟩ ∈ (stack.connection .right).received 0 := by
    rw [all]
    exact List.mem_cons_self
  have distinct : Function.Injective (fun who : Nat => who) := fun _ _ same => same
  have sent := (stack_invents_nothing true (fun _ => lonelySetup) broadcast stack reached .right).2
    (fun who => who) [⟨.receiver, none, 0⟩] lonelyRegistry
    (Function.update (fun who => AMReceiver.new who who) 0 ⟨0, none⟩) 0x0001 (some 0x22)
    distinct rfl rfl 0 _ member
  exact ⟨stack, reached, member, sent.1⟩

end MoteConnection.SerialStack
