import Mathlib.Data.List.Induction
import MoteConnection.Library.FanOut
import MoteConnection.ActiveMessages

/-!
# Routing of ActiveMessages

`AMReceiver`, the `ReceiverRegistry` and the `ConnectionWorker` of the
ActiveMessage dispatcher. The registry keeps one table of handles for its four
kinds of registration, and a receiver gives its handle away only once.

A channel is named by the receiver that was created with it. The handlers
return their sends in program order; in this module every channel has its
receiver, so that no send fails.
-/

namespace MoteConnection.ActiveMessageRouting

open FanOut
open MoteConnection.Runtime MoteConnection.ActiveMessages
open Outcome

set_option autoImplicit false

variable {Uuid Channel : Type} [DecidableEq Uuid]

structure AMReceiverHandle (Channel : Type) where
  tx : Channel

structure AMReceiver (Uuid Channel : Type) where
  id : Uuid
  handle : Option (AMReceiverHandle Channel)

def AMReceiver.new (id : Uuid) (channel : Channel) : AMReceiver Uuid Channel :=
  ⟨id, some ⟨channel⟩⟩

/-- `self.handle.take().unwrap()` -/
def AMReceiver.getHandle (receiver : AMReceiver Uuid Channel) :
    Outcome (AMReceiverHandle Channel × AMReceiver Uuid Channel) :=
  match receiver.handle with
  | some handle => returned (handle, { receiver with handle := none })
  | none => panicked "called `Option::unwrap()` on a `None` value"

structure ReceiverRegistry (Uuid Channel : Type) where
  receivers : HashMap UInt8 Uuid
  defaultReceiver : Option Uuid
  snoopers : HashMap UInt8 Uuid
  defaultSnooper : Option Uuid
  handles : HashMap Uuid (AMReceiverHandle Channel)

namespace ReceiverRegistry

def default : ReceiverRegistry Uuid Channel := ⟨∅, none, ∅, none, ∅⟩

variable (registry : ReceiverRegistry Uuid Channel)

/-- `self.handles.entry(receiver.id()).or_insert_with(|| receiver.get_handle())` -/
def insertHandle (receiver : AMReceiver Uuid Channel) :
    Outcome (HashMap Uuid (AMReceiverHandle Channel) × AMReceiver Uuid Channel) :=
  match registry.handles.lookup receiver.id with
  | some _ => returned (registry.handles, receiver)
  | none => do
      let (handle, receiver) ← receiver.getHandle
      return (registry.handles.insert receiver.id handle, receiver)

def registerReceiver (receiver : AMReceiver Uuid Channel) (id : UInt8) :
    Outcome (ReceiverRegistry Uuid Channel × AMReceiver Uuid Channel) := do
  let (handles, receiver) ← registry.insertHandle receiver
  return ({ registry with
    handles := handles
    receivers := registry.receivers.insert id receiver.id }, receiver)

def registerDefaultReceiver (receiver : AMReceiver Uuid Channel) :
    Outcome (ReceiverRegistry Uuid Channel × AMReceiver Uuid Channel) := do
  let (handles, receiver) ← registry.insertHandle receiver
  return ({ registry with
    handles := handles
    defaultReceiver := some receiver.id }, receiver)

def registerSnooper (receiver : AMReceiver Uuid Channel) (id : UInt8) :
    Outcome (ReceiverRegistry Uuid Channel × AMReceiver Uuid Channel) := do
  let (handles, receiver) ← registry.insertHandle receiver
  return ({ registry with
    handles := handles
    snoopers := registry.snoopers.insert id receiver.id }, receiver)

def registerDefaultSnooper (receiver : AMReceiver Uuid Channel) :
    Outcome (ReceiverRegistry Uuid Channel × AMReceiver Uuid Channel) := do
  let (handles, receiver) ← registry.insertHandle receiver
  return ({ registry with
    handles := handles
    defaultSnooper := some receiver.id }, receiver)

def selectReceiver (addr dest : UInt16) (amId : UInt8) : Option (AMReceiverHandle Channel) :=
  let id :=
    if dest ∈ [0xFFFF, addr] then
      (registry.receivers.lookup amId).or registry.defaultReceiver
    else (registry.snoopers.lookup amId).or registry.defaultSnooper
  match id with
  | some id => registry.handles.lookup id
  | none => none

end ReceiverRegistry

structure ConnectionWorker (Uuid Channel : Type) where
  addr : UInt16
  group : Option UInt8
  receivers : ReceiverRegistry Uuid Channel

namespace ConnectionWorker

variable (worker : ConnectionWorker Uuid Channel)

def handleMessage (message : Message) : List (Channel × Event Message) :=
  if worker.group = none ∨ some message.group = worker.group then
    match worker.receivers.selectReceiver worker.addr message.dest message.id with
    | some receiver => [(receiver.tx, .data message)]
    | none => []
  else []

def notify (event : Event Message) (order : List Uuid) : List (Channel × Event Message) :=
  (values worker.receivers.handles order).map fun receiver => (receiver.tx, event)

/-- One turn of the loop; nothing when it ends. -/
def handleEvent (overflowChecks : Bool) (order : List Uuid) (event : Event Bytes) :
    Outcome (Option (List (Channel × Event Message))) :=
  match event with
  | .data data => do
      match ← Message.tryFrom overflowChecks data with
      | .ok message => return some (worker.handleMessage message)
      | .error _ => return some []
  | .connected => returned (some (worker.notify .connected order))
  | .disconnected => returned (some (worker.notify .disconnected order))
  | .stop => returned none
  | .error => panicked s!"Unexpected event {(Event.error : Event Bytes).debugName}"

/-- What the loop takes without a panic. -/
def Digestible (overflowChecks : Bool) : Event Bytes → Prop
  | .data data => (Message.tryFrom overflowChecks data).Returns
  | .connected | .disconnected | .stop => True
  | .error => False

instance (overflowChecks : Bool) : DecidablePred (Digestible overflowChecks)
  | .data data => inferInstanceAs (Decidable (Message.tryFrom overflowChecks data).Returns)
  | .connected | .disconnected | .stop => .isTrue trivial
  | .error => .isFalse fun absurd => absurd

theorem handle_event_returns_iff (overflowChecks : Bool) (order : List Uuid)
    (event : Event Bytes) :
    (worker.handleEvent overflowChecks order event).Returns ↔ Digestible overflowChecks event := by
  cases event with
  | data data =>
      rw [handleEvent, Digestible]
      cases Message.tryFrom overflowChecks data with
      | panicked message => simp
      | returned result =>
          cases result with
          | ok message => simp
          | error error => simp
  | connected | disconnected | stop => exact iff_of_true (returned_returns _) trivial
  | error => exact iff_of_false (panicked_not_returns _) id

theorem handle_event_digestible {overflowChecks : Bool} {order : List Uuid} {event : Event Bytes}
    {result : Option (List (Channel × Event Message))}
    (handled : worker.handleEvent overflowChecks order event = returned result) :
    Digestible overflowChecks event :=
  (worker.handle_event_returns_iff overflowChecks order event).mp ⟨result, handled⟩

theorem handle_event_refused {overflowChecks : Bool} {order : List Uuid} {event : Event Bytes}
    {message : String}
    (refused : worker.handleEvent overflowChecks order event = panicked message) :
    ¬ Digestible overflowChecks event := by
  rw [← worker.handle_event_returns_iff overflowChecks order event, refused]
  exact panicked_not_returns message

theorem handle_event_ends {overflowChecks : Bool} {order : List Uuid} {event : Event Bytes}
    (ends : worker.handleEvent overflowChecks order event = returned none) : event = .stop := by
  cases event with
  | data data =>
      rw [handleEvent] at ends
      obtain ⟨result, _, turn⟩ := bind_eq_returned.mp ends
      cases result with
      | ok message => cases turn
      | error error => cases turn
  | stop => rfl
  | connected | disconnected | error => cases ends

/-- The loop of `start`, on the events it receives and its orders of iteration. -/
def start [DecidableEq Channel] (overflowChecks : Bool) :
    List (Event Bytes × List Uuid) → Channels Channel (Event Message) →
      Outcome (Channels Channel (Event Message))
  | [], channels => returned channels
  | (event, order) :: rest, channels => do
      match ← worker.handleEvent overflowChecks order event with
      | some sends => start overflowChecks rest (sends.foldl send channels)
      | none => return channels

end ConnectionWorker

inductive Role
  | receiver
  | snooper
  deriving DecidableEq, Repr

/-- One of the four calls; without an `id` it registers a default. -/
structure Registration (Channel : Type) where
  role : Role
  id : Option UInt8
  who : Channel

def register [DecidableEq Channel]
    (state : ReceiverRegistry Uuid Channel × (Channel → AMReceiver Uuid Channel))
    (registration : Registration Channel) :
    Outcome (ReceiverRegistry Uuid Channel × (Channel → AMReceiver Uuid Channel)) := do
  let (registry, users) := state
  let receiver := users registration.who
  let (registry, receiver) ←
    match registration.role, registration.id with
    | .receiver, some id => registry.registerReceiver receiver id
    | .receiver, none => registry.registerDefaultReceiver receiver
    | .snooper, some id => registry.registerSnooper receiver id
    | .snooper, none => registry.registerDefaultSnooper receiver
  return (registry, Function.update users registration.who receiver)

def registerAll [DecidableEq Channel] (ids : Channel → Uuid)
    (registrations : List (Registration Channel)) :
    Outcome (ReceiverRegistry Uuid Channel × (Channel → AMReceiver Uuid Channel)) :=
  registrations.foldlM register (.default, fun who => AMReceiver.new (ids who) who)

section Specification

variable (registrations : List (Registration Channel))

def lastRegistered (role : Role) (id : Option UInt8) : Option Channel :=
  (registrations.reverse.find? fun registration =>
    registration.role = role ∧ registration.id = id).map (·.who)

/-- The last one registered for the id or, without one, the last default. -/
def chosen (role : Role) (id : UInt8) : Option Channel :=
  (lastRegistered registrations role (some id)).or (lastRegistered registrations role none)

def roleOf (addr dest : UInt16) : Role :=
  if dest = addr ∨ dest = 0xFFFF then .receiver else .snooper

def Enrolled (who : Channel) : Prop := who ∈ registrations.map (·.who)

instance [DecidableEq Channel] (who : Channel) : Decidable (Enrolled registrations who) :=
  inferInstanceAs (Decidable (who ∈ registrations.map (·.who)))

/-- What an event has for the channel of one receiver. -/
def expected [DecidableEq Channel] (addr : UInt16) (group : Option UInt8) (who : Channel) :
    Event Message → List (Event Message)
  | .data message =>
      if (group = none ∨ some message.group = group) ∧
          chosen registrations (roleOf addr message.dest) message.id = some who then
        [.data message]
      else []
  | event => if Enrolled registrations who then [event] else []

theorem last_registered_append (registration : Registration Channel) (role : Role)
    (id : Option UInt8) :
    lastRegistered (registrations ++ [registration]) role id =
      if registration.role = role ∧ registration.id = id then some registration.who
      else lastRegistered registrations role id := by
  rw [lastRegistered, List.reverse_append, List.reverse_singleton, List.singleton_append]
  by_cases same : registration.role = role ∧ registration.id = id
  · rw [List.find?_cons_of_pos (by simpa using same), if_pos same]
    rfl
  · rw [List.find?_cons_of_neg (by simpa using same), if_neg same]
    rfl

theorem enrolled_append (registration : Registration Channel) (who : Channel) :
    Enrolled (registrations ++ [registration]) who ↔
      Enrolled registrations who ∨ who = registration.who := by
  rw [Enrolled, List.map_append, List.mem_append, List.map_singleton, List.mem_singleton]
  rfl

variable {registrations}

theorem last_registered_enrolled {role : Role} {id : Option UInt8} {who : Channel}
    (last : lastRegistered registrations role id = some who) : Enrolled registrations who := by
  obtain ⟨registration, found, same⟩ := Option.map_eq_some_iff.mp last
  have member := List.mem_reverse.mp (List.mem_of_find?_eq_some found)
  exact List.mem_map.mpr ⟨registration, member, same⟩

theorem chosen_enrolled {role : Role} {id : UInt8} {who : Channel}
    (choice : chosen registrations role id = some who) : Enrolled registrations who := by
  rcases Option.or_eq_some_iff.mp choice with own | ⟨_, default⟩
  · exact last_registered_enrolled own
  · exact last_registered_enrolled default

end Specification

def parsed (overflowChecks : Bool) : Event Bytes → Option (Event Message)
  | .data data =>
      match Message.tryFrom overflowChecks data with
      | returned (.ok message) => some (.data message)
      | _ => none
  | .connected => some .connected
  | .disconnected => some .disconnected
  | .stop | .error => none

def ReceiverRegistry.registered (registry : ReceiverRegistry Uuid Channel) :
    Role → Option UInt8 → Option Uuid
  | .receiver, some id => registry.receivers.lookup id
  | .receiver, none => registry.defaultReceiver
  | .snooper, some id => registry.snoopers.lookup id
  | .snooper, none => registry.defaultSnooper

theorem select_receiver_registered (registry : ReceiverRegistry Uuid Channel) (addr dest : UInt16)
    (amId : UInt8) :
    registry.selectReceiver addr dest amId =
      ((registry.registered (roleOf addr dest) (some amId)).or
        (registry.registered (roleOf addr dest) none)).bind registry.handles.lookup := by
  have sameDestination : dest ∈ [0xFFFF, addr] ↔ dest = addr ∨ dest = 0xFFFF := by
    rw [List.mem_cons, List.mem_singleton, or_comm]
  simp only [ReceiverRegistry.selectReceiver, sameDestination, roleOf]
  split_ifs
  · simp only [ReceiverRegistry.registered]
    cases (registry.receivers.lookup amId).or registry.defaultReceiver <;> rfl
  · simp only [ReceiverRegistry.registered]
    cases (registry.snoopers.lookup amId).or registry.defaultSnooper <;> rfl

section Registering

variable [DecidableEq Channel] {ids : Channel → Uuid} {registrations : List (Registration Channel)}
  {registry : ReceiverRegistry Uuid Channel} {users : Channel → AMReceiver Uuid Channel}

theorem register_of_inserted {registration : Registration Channel}
    {handles : HashMap Uuid (AMReceiverHandle Channel)} {receiver : AMReceiver Uuid Channel}
    (inserted : registry.insertHandle (users registration.who) = returned (handles, receiver)) :
    ∃ next, register (registry, users) registration =
        returned (next, Function.update users registration.who receiver) ∧
      next.handles = handles ∧
      ∀ role id, next.registered role id =
        if registration.role = role ∧ registration.id = id then some receiver.id
        else registry.registered role id := by
  obtain ⟨callRole, callId, who⟩ := registration
  unfold register
  cases callRole with
  | receiver =>
      cases callId with
      | some key =>
          simp only [ReceiverRegistry.registerReceiver, inserted, returned_bind, pure_eq]
          refine ⟨_, rfl, rfl, ?_⟩
          rintro (_ | _) (_ | id) <;>
            simp [ReceiverRegistry.registered, lookup_insert, eq_comm]
      | none =>
          simp only [ReceiverRegistry.registerDefaultReceiver, inserted, returned_bind, pure_eq]
          refine ⟨_, rfl, rfl, ?_⟩
          rintro (_ | _) (_ | id) <;> simp [ReceiverRegistry.registered]
  | snooper =>
      cases callId with
      | some key =>
          simp only [ReceiverRegistry.registerSnooper, inserted, returned_bind, pure_eq]
          refine ⟨_, rfl, rfl, ?_⟩
          rintro (_ | _) (_ | id) <;>
            simp [ReceiverRegistry.registered, lookup_insert, eq_comm]
      | none =>
          simp only [ReceiverRegistry.registerDefaultSnooper, inserted, returned_bind, pure_eq]
          refine ⟨_, rfl, rfl, ?_⟩
          rintro (_ | _) (_ | id) <;> simp [ReceiverRegistry.registered]

/-- After the registrations: every id in a table has its handle in the one handle table, and a
receiver without its handle is one whose handle is there. -/
structure Consistent (ids : Channel → Uuid) (registrations : List (Registration Channel))
    (registry : ReceiverRegistry Uuid Channel) (users : Channel → AMReceiver Uuid Channel) :
    Prop where
  recorded : ∀ role id,
    registry.registered role id = (lastRegistered registrations role id).map ids
  handles : ∀ key handle, registry.handles.lookup key = some handle ↔
    key = ids handle.tx ∧ Enrolled registrations handle.tx
  users : ∀ who, users who =
    ⟨ids who, if Enrolled registrations who then none else some ⟨who⟩⟩

theorem consistent_default (ids : Channel → Uuid) :
    Consistent ids [] .default fun who => AMReceiver.new (ids who) who where
  recorded := by
    rintro (_ | _) (_ | id) <;> rfl
  handles := by
    intro key handle
    simp [ReceiverRegistry.default, Enrolled]
  users := by
    intro who
    simp [AMReceiver.new, Enrolled]

theorem Consistent.lookup_none (consistent : Consistent ids registrations registry users)
    (distinct : Function.Injective ids) {who : Channel} (absent : ¬ Enrolled registrations who) :
    registry.handles.lookup (ids who) = none := by
  cases found : registry.handles.lookup (ids who) with
  | none => rfl
  | some handle =>
      have owner := (consistent.handles _ _).mp found
      have same := distinct owner.1
      rw [same] at absent
      exact absurd owner.2 absent

theorem Consistent.insert_handle (consistent : Consistent ids registrations registry users)
    (distinct : Function.Injective ids) (who : Channel) :
    ∃ handles, registry.insertHandle (users who) = returned (handles, ⟨ids who, none⟩) ∧
      ∀ key handle, handles.lookup key = some handle ↔
        key = ids handle.tx ∧ (Enrolled registrations handle.tx ∨ handle.tx = who) := by
  rw [consistent.users who]
  by_cases enrolled : Enrolled registrations who
  · have found : registry.handles.lookup (ids who) = some ⟨who⟩ :=
      (consistent.handles _ _).mpr ⟨rfl, enrolled⟩
    refine ⟨registry.handles, ?_, ?_⟩
    · simp only [ReceiverRegistry.insertHandle, found, if_pos enrolled]
    · intro key handle
      rw [consistent.handles, or_iff_left_of_imp]
      intro same
      rw [same]
      exact enrolled
  · have absent := consistent.lookup_none distinct enrolled
    refine ⟨registry.handles.insert (ids who) ⟨who⟩, ?_, ?_⟩
    · simp only [ReceiverRegistry.insertHandle, absent, if_neg enrolled, AMReceiver.getHandle,
        returned_bind, pure_eq]
    · intro key handle
      rw [lookup_insert]
      split_ifs with same
      · constructor
        · intro taken
          cases taken
          exact ⟨same, .inr rfl⟩
        · rintro ⟨owner, _⟩
          have sameOwner := distinct (same.symm.trans owner)
          rw [sameOwner]
      · rw [consistent.handles]
        constructor
        · rintro ⟨owner, member⟩
          exact ⟨owner, .inl member⟩
        · rintro ⟨owner, member | other⟩
          · exact ⟨owner, member⟩
          · rw [other] at owner
            exact absurd owner same

theorem register_step (consistent : Consistent ids registrations registry users)
    (distinct : Function.Injective ids) (registration : Registration Channel) :
    ∃ next others, register (registry, users) registration = returned (next, others) ∧
      Consistent ids (registrations ++ [registration]) next others := by
  obtain ⟨handles, inserted, table⟩ := consistent.insert_handle distinct registration.who
  obtain ⟨next, registered, sameHandles, recorded⟩ := register_of_inserted inserted
  refine ⟨next, _, registered, ?_, ?_, ?_⟩
  · intro role id
    rw [recorded, last_registered_append, consistent.recorded]
    split_ifs <;> rfl
  · intro key handle
    rw [sameHandles, table, enrolled_append]
  · intro who
    by_cases same : who = registration.who
    · have enrolled : Enrolled (registrations ++ [registration]) who :=
        (enrolled_append registrations registration who).mpr (.inr same)
      rw [if_pos enrolled, same, Function.update_self]
    · have unchanged : Enrolled (registrations ++ [registration]) who ↔
          Enrolled registrations who := by
        rw [enrolled_append, or_iff_left same]
      rw [Function.update_of_ne same, consistent.users]
      simp only [unchanged]

theorem register_all_returns (distinct : Function.Injective ids)
    (registrations : List (Registration Channel)) :
    ∃ registry users, registerAll ids registrations = returned (registry, users) ∧
      Consistent ids registrations registry users := by
  induction registrations using List.reverseRecOn with
  | nil => exact ⟨_, _, rfl, consistent_default ids⟩
  | append_singleton registrations registration induction =>
      obtain ⟨registry, users, registered, consistent⟩ := induction
      obtain ⟨next, others, taken, after⟩ := register_step consistent distinct registration
      refine ⟨next, others, ?_, after⟩
      rw [registerAll] at registered ⊢
      rw [List.foldlM_append, registered, returned_bind, List.foldlM_cons, taken]
      rfl

end Registering

section Dispatching

variable [DecidableEq Channel] {ids : Channel → Uuid} {registrations : List (Registration Channel)}
  {registry : ReceiverRegistry Uuid Channel} {users : Channel → AMReceiver Uuid Channel}

theorem Consistent.select_receiver (consistent : Consistent ids registrations registry users)
    (addr dest : UInt16) (amId : UInt8) :
    registry.selectReceiver addr dest amId =
      (chosen registrations (roleOf addr dest) amId).map AMReceiverHandle.mk := by
  rw [select_receiver_registered, consistent.recorded, consistent.recorded, ← Option.map_or,
    ← chosen]
  cases choice : chosen registrations (roleOf addr dest) amId with
  | none => rfl
  | some who => exact (consistent.handles _ _).mpr ⟨rfl, chosen_enrolled choice⟩

theorem Consistent.notify_addressed (consistent : Consistent ids registrations registry users)
    (addr : UInt16) (group : Option UInt8) {order : List Uuid}
    (complete : order.Perm registry.handles.keys) (event : Event Message) (who : Channel) :
    addressed who ((ConnectionWorker.mk addr group registry).notify event order) =
      if Enrolled registrations who then [event] else [] := by
  have distinct : (values registry.handles order).Nodup := by
    apply values_nodup complete
    intro first second handle foundFirst foundSecond
    rw [((consistent.handles _ _).mp foundFirst).1, ((consistent.handles _ _).mp foundSecond).1]
  have distinctChannels : ((values registry.handles order).map AMReceiverHandle.tx).Nodup := by
    apply distinct.map
    rintro ⟨first⟩ ⟨second⟩ same
    exact congrArg AMReceiverHandle.mk same
  have listed : who ∈ (values registry.handles order).map AMReceiverHandle.tx ↔
      Enrolled registrations who := by
    rw [List.mem_map]
    constructor
    · rintro ⟨handle, member, rfl⟩
      obtain ⟨key, found⟩ := (mem_values complete handle).mp member
      exact ((consistent.handles _ _).mp found).2
    · intro enrolled
      have found := (consistent.handles (ids who) ⟨who⟩).mpr ⟨rfl, enrolled⟩
      exact ⟨⟨who⟩, (mem_values complete _).mpr ⟨_, found⟩, rfl⟩
  have broadcast := addressed_broadcast distinctChannels event who
  rw [List.map_map] at broadcast
  simp only [listed] at broadcast
  exact broadcast

theorem Consistent.message_addressed (consistent : Consistent ids registrations registry users)
    (addr : UInt16) (group : Option UInt8) (message : Message) (who : Channel) :
    addressed who ((ConnectionWorker.mk addr group registry).handleMessage message) =
      expected registrations addr group who (.data message) := by
  simp only [ConnectionWorker.handleMessage, expected, consistent.select_receiver]
  by_cases passes : group = none ∨ some message.group = group
  · rw [if_pos passes]
    cases chosen registrations (roleOf addr message.dest) message.id with
    | none => simp
    | some other =>
        by_cases same : other = who
        · simp [same, passes, addressed]
        · simp [same, addressed]
  · rw [if_neg passes, if_neg (fun both => passes both.1)]
    rfl

theorem Consistent.handle_event (consistent : Consistent ids registrations registry users)
    (overflowChecks : Bool) (addr : UInt16) (group : Option UInt8) {event : Event Bytes}
    {order : List Uuid} (complete : order.Perm registry.handles.keys) {incoming : Event Message}
    (accepted : parsed overflowChecks event = some incoming) :
    ∃ sends, (ConnectionWorker.mk addr group registry).handleEvent overflowChecks order event =
        returned (some sends) ∧
      ∀ who, addressed who sends = expected registrations addr group who incoming := by
  cases event with
  | data data =>
      cases result : Message.tryFrom overflowChecks data with
      | panicked message => simp only [parsed, result, reduceCtorEq] at accepted
      | returned value =>
          cases value with
          | error error => simp only [parsed, result, reduceCtorEq] at accepted
          | ok message =>
              simp only [parsed, result, Option.some.injEq] at accepted
              subst accepted
              refine ⟨_, ?_, consistent.message_addressed addr group message⟩
              simp only [ConnectionWorker.handleEvent, result, returned_bind, pure_eq]
  | connected =>
      cases accepted
      exact ⟨_, rfl, consistent.notify_addressed addr group complete .connected⟩
  | disconnected =>
      cases accepted
      exact ⟨_, rfl, consistent.notify_addressed addr group complete .disconnected⟩
  | stop => cases accepted
  | error => cases accepted

/-- The loop, from any channels that account for the events before. -/
theorem Consistent.start_accounts (consistent : Consistent ids registrations registry users)
    (overflowChecks : Bool) (addr : UInt16) (group : Option UInt8)
    {events : List (Event Bytes × List Uuid)} {incoming : List (Event Message)}
    (accepted : (events.map fun entry => parsed overflowChecks entry.1) = incoming.map some)
    (complete : ∀ entry ∈ events, entry.2.Perm registry.handles.keys)
    {handled : List (Event Message)} {channels : Channels Channel (Event Message)}
    (accounts : Accounts (expected registrations addr group) channels [] handled) :
    ∃ last, (ConnectionWorker.mk addr group registry).start overflowChecks events channels =
        returned last ∧
      Accounts (expected registrations addr group) last [] (handled ++ incoming) := by
  induction events generalizing incoming handled channels with
  | nil =>
      have empty : incoming = [] := List.map_eq_nil_iff.mp accepted.symm
      rw [empty, List.append_nil]
      exact ⟨channels, rfl, accounts⟩
  | cons entry rest induction =>
      cases incoming with
      | nil => cases accepted
      | cons first later =>
          have heads := List.cons.inj accepted
          obtain ⟨sends, turn, routed⟩ := consistent.handle_event overflowChecks addr group
            (complete entry List.mem_cons_self) heads.1
          have after := (accounts.take routed).emitAll
          obtain ⟨last, reached, total⟩ := induction heads.2
            (fun other member => complete other (List.mem_cons_of_mem _ member)) after
          refine ⟨last, ?_, ?_⟩
          · rw [ConnectionWorker.start, turn]
            exact reached
          · rw [List.append_assoc] at total
            exact total

end Dispatching

/-- Registrations never panic, and a worker on the registry they leave gives every receiver what
the last registrations expect for it. -/
theorem messages_routed [DecidableEq Channel] (ids : Channel → Uuid)
    (distinct : Function.Injective ids) (registrations : List (Registration Channel)) :
    ∃ registry users, registerAll ids registrations = returned (registry, users) ∧
      ∀ (overflowChecks : Bool) (addr : UInt16) (group : Option UInt8),
        (∀ (events : List (Event Bytes × List Uuid)) (incoming : List (Event Message)),
          (events.map fun entry => parsed overflowChecks entry.1) = incoming.map some →
          (∀ entry ∈ events, entry.2.Perm registry.handles.keys) →
            ∃ channels,
              (ConnectionWorker.mk addr group registry).start overflowChecks events
                (fun _ => []) = returned channels ∧
              ∀ who, channels who = incoming.flatMap (expected registrations addr group who)) ∧
        ∀ message who other,
          expected registrations addr group who (.data message) ≠ [] →
          expected registrations addr group other (.data message) ≠ [] → who = other := by
  obtain ⟨registry, users, registered, consistent⟩ :=
    register_all_returns distinct registrations
  refine ⟨registry, users, registered, ?_⟩
  intro overflowChecks addr group
  constructor
  · intro events incoming accepted complete
    obtain ⟨channels, reached, total⟩ := consistent.start_accounts overflowChecks addr group
      accepted complete (Accounts.start _)
    exact ⟨channels, reached, total.sent_of_idle⟩
  · intro message who other first second
    simp only [expected, ne_eq, ite_eq_right_iff, List.cons_ne_self, imp_false, not_not]
      at first second
    exact Option.some.inj (first.2.symm.trans second.2)

/-- Receiver 1 takes the id 5 over from receiver 0, which keeps the default snooper's role. -/
theorem overwritten_receiver_routed :
    ∃ registry users,
      registerAll (fun who : Nat => who)
          [⟨.receiver, some 5, 0⟩, ⟨.snooper, none, 0⟩, ⟨.receiver, some 5, 1⟩] =
        returned (registry, users) ∧
      ∃ channels,
        (ConnectionWorker.mk 0x0001 (some 0x22) registry).start true
            [(.connected, registry.handles.keys),
              (.data [0x00, 0x01, 0x00, 0x02, 0x00, 0x22, 0x05], registry.handles.keys),
              (.data [0x00, 0x03, 0x00, 0x02, 0x00, 0x22, 0x05], registry.handles.keys)]
            (fun _ => []) = returned channels ∧
          channels 0 = [.connected, .data ⟨0x0003, 0x0002, 0x00, 0x22, 0x05, [], []⟩] ∧
          channels 1 = [.connected, .data ⟨0x0001, 0x0002, 0x00, 0x22, 0x05, [], []⟩] := by
  have distinct : Function.Injective (fun who : Nat => who) := fun _ _ same => same
  obtain ⟨registry, users, registered, routed⟩ := messages_routed (fun who : Nat => who) distinct
    [⟨.receiver, some 5, 0⟩, ⟨.snooper, none, 0⟩, ⟨.receiver, some 5, 1⟩]
  have run := (routed true 0x0001 (some 0x22)).1
    [(.connected, registry.handles.keys),
      (.data [0x00, 0x01, 0x00, 0x02, 0x00, 0x22, 0x05], registry.handles.keys),
      (.data [0x00, 0x03, 0x00, 0x02, 0x00, 0x22, 0x05], registry.handles.keys)]
    [.connected, .data ⟨0x0001, 0x0002, 0x00, 0x22, 0x05, [], []⟩,
      .data ⟨0x0003, 0x0002, 0x00, 0x22, 0x05, [], []⟩]
    (by simp only [List.map_cons, List.map_nil]; decide) (by simp)
  obtain ⟨channels, reached, total⟩ := run
  refine ⟨registry, users, registered, channels, reached, ?_, ?_⟩
  · rw [total]
    decide
  · rw [total]
    decide

end MoteConnection.ActiveMessageRouting
