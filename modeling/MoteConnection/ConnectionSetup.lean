import MoteConnection.Library.LabeledRuns
import MoteConnection.ConnectionWorkers

/-!
# Setting up connections

The calls with which an application registers receivers with its ActiveMessage
dispatchers and dispatchers with its connections, in any order. A receiver and
a dispatcher give their handle away once, and ask for it with an `unwrap`.

Every object has a name. An ActiveMessage dispatcher goes by the name of its
builder, which is gone when `create` has consumed it; a call on an object that
is not there does not compile, so that it is no step.
-/

namespace MoteConnection.ConnectionSetup

open FanOut LabeledRuns
open MoteConnection.Runtime MoteConnection.ActiveMessageRouting
open MoteConnection.ConnectionWorkers hiding registerDispatcher
open Outcome

set_option autoImplicit false

structure AMDispatcherBuilder (Uuid Channel : Type) where
  addr : UInt16
  group : Option UInt8
  receivers : ReceiverRegistry Uuid Channel

namespace AMDispatcherBuilder

variable {Uuid Channel : Type}

def withGroup (addr : UInt16) (group : Option UInt8) : AMDispatcherBuilder Uuid Channel :=
  ⟨addr, group, .default⟩

def new (addr : UInt16) : AMDispatcherBuilder Uuid Channel := withGroup addr (some 0x22)

variable (builder : AMDispatcherBuilder Uuid Channel)

def setGroup (group : Option UInt8) : AMDispatcherBuilder Uuid Channel :=
  { builder with group := group }

def create : ActiveMessageRouting.ConnectionWorker Uuid Channel :=
  ⟨builder.addr, builder.group, builder.receivers⟩

variable [DecidableEq Uuid]

def registerReceiver (receiver : AMReceiver Uuid Channel) (id : UInt8) :
    Outcome (AMDispatcherBuilder Uuid Channel × AMReceiver Uuid Channel) := do
  let (receivers, receiver) ← builder.receivers.registerReceiver receiver id
  return ({ builder with receivers := receivers }, receiver)

def registerDefaultReceiver (receiver : AMReceiver Uuid Channel) :
    Outcome (AMDispatcherBuilder Uuid Channel × AMReceiver Uuid Channel) := do
  let (receivers, receiver) ← builder.receivers.registerDefaultReceiver receiver
  return ({ builder with receivers := receivers }, receiver)

def registerSnooper (receiver : AMReceiver Uuid Channel) (id : UInt8) :
    Outcome (AMDispatcherBuilder Uuid Channel × AMReceiver Uuid Channel) := do
  let (receivers, receiver) ← builder.receivers.registerSnooper receiver id
  return ({ builder with receivers := receivers }, receiver)

def registerDefaultSnooper (receiver : AMReceiver Uuid Channel) :
    Outcome (AMDispatcherBuilder Uuid Channel × AMReceiver Uuid Channel) := do
  let (receivers, receiver) ← builder.receivers.registerDefaultSnooper receiver
  return ({ builder with receivers := receivers }, receiver)

def register (receiver : AMReceiver Uuid Channel) :
    Role → Option UInt8 → Outcome (AMDispatcherBuilder Uuid Channel × AMReceiver Uuid Channel)
  | .receiver, some id => builder.registerReceiver receiver id
  | .receiver, none => builder.registerDefaultReceiver receiver
  | .snooper, some id => builder.registerSnooper receiver id
  | .snooper, none => builder.registerDefaultSnooper receiver

end AMDispatcherBuilder

section Dispatchers

variable {Channel : Type}

structure RawDispatcher (Channel : Type) where
  dispatch : UInt8
  rx : Channel
  tx : Channel
  handle : Option (DispatcherHandle Channel)

structure AMDispatcher (Channel : Type) where
  dispatchByte : UInt8
  tx : Channel
  handle : Option (DispatcherHandle Channel)

def RawDispatcher.new (dispatch : UInt8) (channel : Channel) : RawDispatcher Channel :=
  ⟨dispatch, channel, channel, some ⟨channel, channel⟩⟩

def AMDispatcher.new (dispatchByte : UInt8) (channel : Channel) : AMDispatcher Channel :=
  ⟨dispatchByte, channel, some ⟨channel, channel⟩⟩

/-- `handle.take().unwrap()` -/
def takeHandle {Handle : Type} : Option Handle → Outcome Handle
  | some handle => returned handle
  | none => panicked "called `Option::unwrap()` on a `None` value"

def RawDispatcher.getHandle (dispatcher : RawDispatcher Channel) :
    Outcome (DispatcherHandle Channel × RawDispatcher Channel) := do
  let handle ← takeHandle dispatcher.handle
  return (handle, { dispatcher with handle := none })

def AMDispatcher.getHandle (dispatcher : AMDispatcher Channel) :
    Outcome (DispatcherHandle Channel × AMDispatcher Channel) := do
  let handle ← takeHandle dispatcher.handle
  return (handle, { dispatcher with handle := none })

/-- `dyn Dispatcher`, with the two dispatchers of the crate. -/
inductive AnyDispatcher (Channel : Type)
  | raw (dispatcher : RawDispatcher Channel)
  | am (dispatcher : AMDispatcher Channel)

namespace AnyDispatcher

def dispatchByte : AnyDispatcher Channel → UInt8
  | raw dispatcher => dispatcher.dispatch
  | am dispatcher => dispatcher.dispatchByte

def getHandle :
    AnyDispatcher Channel → Outcome (DispatcherHandle Channel × AnyDispatcher Channel)
  | raw dispatcher => do
      let (handle, dispatcher) ← dispatcher.getHandle
      return (handle, raw dispatcher)
  | am dispatcher => do
      let (handle, dispatcher) ← dispatcher.getHandle
      return (handle, am dispatcher)

def handle : AnyDispatcher Channel → Option (DispatcherHandle Channel)
  | raw dispatcher => dispatcher.handle
  | am dispatcher => dispatcher.handle

def withoutHandle : AnyDispatcher Channel → AnyDispatcher Channel
  | raw dispatcher => raw { dispatcher with handle := none }
  | am dispatcher => am { dispatcher with handle := none }

end AnyDispatcher

def registerDispatcher (dispatchers : HashMap UInt8 (DispatcherHandle Channel))
    (dispatcher : AnyDispatcher Channel) :
    Outcome (HashMap UInt8 (DispatcherHandle Channel) × AnyDispatcher Channel) := do
  let (handle, registered) ← dispatcher.getHandle
  return (dispatchers.insert dispatcher.dispatchByte handle, registered)

theorem register_dispatcher_some (dispatchers : HashMap UInt8 (DispatcherHandle Channel))
    {dispatcher : AnyDispatcher Channel} {handle : DispatcherHandle Channel}
    (held : dispatcher.handle = some handle) :
    registerDispatcher dispatchers dispatcher =
      returned (dispatchers.insert dispatcher.dispatchByte handle, dispatcher.withoutHandle) := by
  cases dispatcher with
  | raw dispatcher =>
      simp only [registerDispatcher, AnyDispatcher.getHandle, RawDispatcher.getHandle,
        show dispatcher.handle = some handle from held]
      rfl
  | am dispatcher =>
      simp only [registerDispatcher, AnyDispatcher.getHandle, AMDispatcher.getHandle,
        show dispatcher.handle = some handle from held]
      rfl

theorem register_dispatcher_none (dispatchers : HashMap UInt8 (DispatcherHandle Channel))
    {dispatcher : AnyDispatcher Channel} (given : dispatcher.handle = none) :
    ∃ message, registerDispatcher dispatchers dispatcher = panicked message := by
  cases dispatcher with
  | raw dispatcher =>
      simp only [registerDispatcher, AnyDispatcher.getHandle, RawDispatcher.getHandle,
        show dispatcher.handle = none from given]
      exact ⟨_, rfl⟩
  | am dispatcher =>
      simp only [registerDispatcher, AnyDispatcher.getHandle, AMDispatcher.getHandle,
        show dispatcher.handle = none from given]
      exact ⟨_, rfl⟩

end Dispatchers

/-- The objects of an application and the threads of its ActiveMessage dispatchers. -/
structure Application (Uuid Who Name Link : Type) where
  receivers : Who → AMReceiver Uuid Who
  builders : Name → Option (AMDispatcherBuilder Uuid Who)
  threads : Name → Option (ActiveMessageRouting.ConnectionWorker Uuid Who)
  dispatchers : Name → Option (AnyDispatcher Name)
  connections : Link → HashMap UInt8 (DispatcherHandle Name)

/-- The arguments of `RawDispatcher::new` and `AMDispatcherBuilder::with_group`. -/
inductive Kind
  | raw (dispatch : UInt8)
  | am (addr : UInt16) (group : Option UInt8)
  deriving DecidableEq

def Kind.dispatchByte : Kind → UInt8
  | raw dispatch => dispatch
  | am _ _ => 0x00

inductive Call (Who Name Link : Type)
  | register (builder : Name) (registration : Registration Who)
  | create (builder : Name)
  | registerDispatcher (dispatcher : Name) (connection : Link)

namespace Application

variable {Uuid Who Name Link : Type}

def fresh (ids : Who → Uuid) (kinds : Name → Kind) : Application Uuid Who Name Link where
  receivers who := AMReceiver.new (ids who) who
  builders name :=
    match kinds name with
    | .raw _ => none
    | .am addr group => some (.withGroup addr group)
  threads _ := none
  dispatchers name :=
    match kinds name with
    | .raw dispatch => some (.raw (.new dispatch name))
    | .am _ _ => none
  connections _ := ∅

variable [DecidableEq Uuid] [DecidableEq Who] [DecidableEq Name] [DecidableEq Link]

/-- An insertion into the table drops the handle that was there. It held both senders of the
queue that the thread reads, which ends without them and drops its registry. -/
def perform (application : Application Uuid Who Name Link) :
    Call Who Name Link → Option (Outcome (Application Uuid Who Name Link))
  | .register name registration => do
      let builder ← application.builders name
      return do
        let (builder, receiver) ← builder.register (application.receivers registration.who)
          registration.role registration.id
        return { application with
          builders := Function.update application.builders name (some builder)
          receivers := Function.update application.receivers registration.who receiver }
  | .create name => do
      let builder ← application.builders name
      return returned { application with
        builders := Function.update application.builders name none
        threads := Function.update application.threads name (some builder.create)
        dispatchers := Function.update application.dispatchers name
          (some (.am (.new 0x00 name))) }
  | .registerDispatcher name connection => do
      let dispatcher ← application.dispatchers name
      let handles := application.connections connection
      return do
        let (next, registered) ← registerDispatcher handles dispatcher
        return { application with
          dispatchers := Function.update application.dispatchers name (some registered)
          connections := Function.update application.connections connection next
          threads :=
            match handles.lookup dispatcher.dispatchByte with
            | some dropped => Function.update application.threads dropped.tx none
            | none => application.threads }

def step : Outcome (Application Uuid Who Name Link) → Call Who Name Link →
    Option (Outcome (Application Uuid Who Name Link))
  | returned application, call => application.perform call
  | panicked _, _ => none

end Application

section Specification

variable {Uuid Who Name Link : Type} [DecidableEq Name] [DecidableEq Link]

def registrationsWith (calls : List (Call Who Name Link)) (name : Name) :
    List (Registration Who) :=
  calls.filterMap fun
    | .register builder registration => if builder = name then some registration else none
    | _ => none

omit [DecidableEq Name] [DecidableEq Link] in
def Registered (calls : List (Call Who Name Link)) (who : Who) : Prop :=
  ∃ name registration, Call.register name registration ∈ calls ∧ registration.who = who

def attachments (calls : List (Call Who Name Link)) : List Name :=
  calls.filterMap fun
    | .registerDispatcher dispatcher _ => some dispatcher
    | _ => none

def attachedTo (calls : List (Call Who Name Link)) (connection : Link) : List Name :=
  calls.filterMap fun
    | .registerDispatcher dispatcher other => if other = connection then some dispatcher else none
    | _ => none

def lastAttached (kinds : Name → Kind) (calls : List (Call Who Name Link)) (connection : Link)
    (byte : UInt8) : Option Name :=
  (attachedTo calls connection).reverse.find? fun name => (kinds name).dispatchByte = byte

/-- Another dispatcher was registered after it, with the same connection and the same byte. -/
def Displaced (kinds : Name → Kind) (calls : List (Call Who Name Link)) (name : Name) : Prop :=
  ∃ connection, name ∈ attachedTo calls connection ∧
    lastAttached kinds calls connection (kinds name).dispatchByte ≠ some name

/-- No receiver is registered with two builders, and no dispatcher twice. -/
structure OneOwner (calls : List (Call Who Name Link)) : Prop where
  receivers : ∀ who name other, Enrolled (registrationsWith calls name) who →
    Enrolled (registrationsWith calls other) who → name = other
  dispatchers : (attachments calls).Nodup

variable {kinds : Name → Kind} {calls next : List (Call Who Name Link)} {name other : Name}

omit [DecidableEq Link] in
theorem registrations_append (calls : List (Call Who Name Link)) (call : Call Who Name Link)
    (name : Name) : registrationsWith (calls ++ [call]) name =
      registrationsWith calls name ++ registrationsWith [call] name := List.filterMap_append

omit [DecidableEq Name] [DecidableEq Link] in
theorem attachments_append (calls : List (Call Who Name Link)) (call : Call Who Name Link) :
    attachments (calls ++ [call]) = attachments calls ++ attachments [call] :=
  List.filterMap_append

omit [DecidableEq Name] in
theorem attached_to_append (calls : List (Call Who Name Link)) (call : Call Who Name Link)
    (connection : Link) : attachedTo (calls ++ [call]) connection =
      attachedTo calls connection ++ attachedTo [call] connection := List.filterMap_append

omit [DecidableEq Name] [DecidableEq Link] in
theorem registered_append (calls : List (Call Who Name Link)) (name : Name)
    (registration : Registration Who) (who : Who) :
    Registered (calls ++ [.register name registration]) who ↔
      Registered calls who ∨ registration.who = who := by
  constructor
  · rintro ⟨other, earlier, member, same⟩
    rcases List.mem_append.mp member with before | now
    · exact .inl ⟨other, earlier, before, same⟩
    · cases List.mem_singleton.mp now
      exact .inr same
  · rintro (⟨other, earlier, before, same⟩ | same)
    · exact ⟨other, earlier, List.mem_append_left _ before, same⟩
    · exact ⟨name, registration, List.mem_append_right _ List.mem_cons_self, same⟩

omit [DecidableEq Link] in
theorem mem_registrations_with {registration : Registration Who} :
    registration ∈ registrationsWith calls name ↔ .register name registration ∈ calls := by
  rw [registrationsWith, List.mem_filterMap]
  constructor
  · rintro ⟨call, member, picked⟩
    cases call with
    | register builder made =>
        obtain ⟨rfl, same⟩ := Option.ite_none_right_eq_some.mp picked
        cases same
        exact member
    | create builder => cases picked
    | registerDispatcher dispatcher connection => cases picked
  · intro member
    exact ⟨_, member, if_pos rfl⟩

omit [DecidableEq Name] in
theorem mem_attached_to {connection : Link} :
    name ∈ attachedTo calls connection ↔ .registerDispatcher name connection ∈ calls := by
  rw [attachedTo, List.mem_filterMap]
  constructor
  · rintro ⟨call, member, picked⟩
    cases call with
    | registerDispatcher dispatcher other =>
        obtain ⟨rfl, same⟩ := Option.ite_none_right_eq_some.mp picked
        cases same
        exact member
    | register builder registration => cases picked
    | create builder => cases picked
  · intro member
    exact ⟨_, member, if_pos rfl⟩

omit [DecidableEq Name] [DecidableEq Link] in
theorem mem_attachments :
    name ∈ attachments calls ↔ ∃ connection, .registerDispatcher name connection ∈ calls := by
  rw [attachments, List.mem_filterMap]
  constructor
  · rintro ⟨call, member, picked⟩
    cases call with
    | registerDispatcher dispatcher connection =>
        cases picked
        exact ⟨connection, member⟩
    | register builder registration => cases picked
    | create builder => cases picked
  · rintro ⟨connection, member⟩
    exact ⟨_, member, rfl⟩

omit [DecidableEq Link] in
theorem registered_iff_enrolled {who : Who} :
    Registered calls who ↔ ∃ name, Enrolled (registrationsWith calls name) who := by
  simp only [Registered, Enrolled, List.mem_map, mem_registrations_with]

omit [DecidableEq Link] in
theorem registered_congr
    (same : ∀ name, registrationsWith next name = registrationsWith calls name) (who : Who) :
    Registered next who ↔ Registered calls who := by
  simp only [registered_iff_enrolled, same]

omit [DecidableEq Name] in
theorem attached_to_attachments {connection : Link}
    (attached : name ∈ attachedTo calls connection) : name ∈ attachments calls :=
  mem_attachments.mpr ⟨connection, mem_attached_to.mp attached⟩

omit [DecidableEq Name] in
theorem last_attached_mem {connection : Link} {byte : UInt8}
    (last : lastAttached kinds calls connection byte = some name) :
    name ∈ attachedTo calls connection ∧ (kinds name).dispatchByte = byte := by
  have kind := List.find?_some last
  exact ⟨List.mem_reverse.mp (List.mem_of_find?_eq_some last), of_decide_eq_true kind⟩

omit [DecidableEq Name] in
theorem last_attached_append (kinds : Name → Kind) (calls : List (Call Who Name Link))
    (name : Name) (connection other : Link) (byte : UInt8) :
    lastAttached kinds (calls ++ [.registerDispatcher name connection]) other byte =
      if connection = other ∧ (kinds name).dispatchByte = byte then some name
      else lastAttached kinds calls other byte := by
  rw [lastAttached, attached_to_append, lastAttached]
  by_cases here : connection = other
  · have single : attachedTo [(.registerDispatcher name connection : Call Who Name Link)] other =
        [name] := by
      simp [attachedTo, here]
    rw [single, List.reverse_append, List.reverse_singleton, List.singleton_append]
    by_cases same : (kinds name).dispatchByte = byte
    · rw [List.find?_cons_of_pos (by simpa using same), if_pos ⟨here, same⟩]
    · rw [List.find?_cons_of_neg (by simpa using same), if_neg fun both => same both.2]
  · have empty : attachedTo [(.registerDispatcher name connection : Call Who Name Link)] other =
        [] := by
      simp [attachedTo, here]
    rw [empty, List.append_nil, if_neg fun both => here both.1]

omit [DecidableEq Name] in
theorem displaced_congr
    (same : ∀ connection, attachedTo next connection = attachedTo calls connection) :
    Displaced kinds next name ↔ Displaced kinds calls name := by
  simp only [Displaced, lastAttached, same]

/-- A dispatcher that was not registered before displaces the last one with its byte. -/
theorem displaced_append (unregistered : name ∉ attachments calls) (connection : Link) :
    Displaced kinds (calls ++ [.registerDispatcher name connection]) other ↔
      Displaced kinds calls other ∨
        lastAttached kinds calls connection (kinds name).dispatchByte = some other := by
  constructor
  · rintro ⟨link, attached, displaced⟩
    rw [mem_attached_to, List.mem_append, List.mem_singleton] at attached
    rw [last_attached_append] at displaced
    split_ifs at displaced with last
    · obtain ⟨rfl, same⟩ := last
      rcases attached with before | now
      · by_cases latest : lastAttached kinds calls connection (kinds name).dispatchByte = some other
        · exact .inr latest
        · rw [same] at latest
          exact .inl ⟨connection, mem_attached_to.mpr before, latest⟩
      · cases now
        exact absurd rfl displaced
    · rcases attached with before | now
      · exact .inl ⟨link, mem_attached_to.mpr before, displaced⟩
      · cases now
        exact absurd ⟨rfl, rfl⟩ last
  · have distinct (registered : other ∈ attachments calls) : some name ≠ some other := by
      rintro ⟨rfl⟩
      exact unregistered registered
    rintro (⟨link, attached, displaced⟩ | latest)
    · refine ⟨link, ?_, ?_⟩
      · exact mem_attached_to.mpr (List.mem_append_left _ (mem_attached_to.mp attached))
      · rw [last_attached_append]
        split_ifs
        · exact distinct (attached_to_attachments attached)
        · exact displaced
    · have ⟨attached, same⟩ := last_attached_mem latest
      refine ⟨connection, ?_, ?_⟩
      · exact mem_attached_to.mpr (List.mem_append_left _ (mem_attached_to.mp attached))
      · rw [last_attached_append, if_pos ⟨rfl, same.symm⟩]
        exact distinct (attached_to_attachments attached)

end Specification

section Registering

variable {Uuid Channel : Type} [DecidableEq Uuid] [DecidableEq Channel]

theorem register_eq (builder : AMDispatcherBuilder Uuid Channel)
    (users : Channel → AMReceiver Uuid Channel) (registration : Registration Channel)
    {registry : ReceiverRegistry Uuid Channel} {others : Channel → AMReceiver Uuid Channel}
    (registered : ActiveMessageRouting.register (builder.receivers, users) registration =
      returned (registry, others)) :
    builder.register (users registration.who) registration.role registration.id =
      returned ({ builder with receivers := registry }, others registration.who) := by
  obtain ⟨role, id, who⟩ := registration
  cases role <;> cases id
  -- The four calls differ only in the table that they write.
  all_goals
    obtain ⟨⟨next, receiver⟩, call, same⟩ := bind_eq_returned.mp registered
    cases same
    simp only [AMDispatcherBuilder.register, AMDispatcherBuilder.registerReceiver,
      AMDispatcherBuilder.registerDefaultReceiver, AMDispatcherBuilder.registerSnooper,
      AMDispatcherBuilder.registerDefaultSnooper, call, Function.update_self]
    rfl

omit [DecidableEq Channel] in
/-- A receiver that has given its handle to another builder has none for this one. -/
theorem register_panics (builder : AMDispatcherBuilder Uuid Channel) {id : Uuid}
    (absent : builder.receivers.handles.lookup id = none) (role : Role) (key : Option UInt8) :
    ∃ message, builder.register ⟨id, none⟩ role key = panicked message := by
  have inserted : builder.receivers.insertHandle ⟨id, none⟩ =
      panicked "called `Option::unwrap()` on a `None` value" := by
    simp only [ReceiverRegistry.insertHandle, absent]
    rfl
  cases role <;> cases key
  all_goals
    simp only [AMDispatcherBuilder.register, AMDispatcherBuilder.registerReceiver,
      AMDispatcherBuilder.registerDefaultReceiver, AMDispatcherBuilder.registerSnooper,
      AMDispatcherBuilder.registerDefaultSnooper, ReceiverRegistry.registerReceiver,
      ReceiverRegistry.registerDefaultReceiver, ReceiverRegistry.registerSnooper,
      ReceiverRegistry.registerDefaultSnooper, inserted]
    exact ⟨_, rfl⟩

end Registering

section Ownership

variable {Uuid Who Name Link : Type} [DecidableEq Uuid] [DecidableEq Who] [DecidableEq Name]
  [DecidableEq Link]

def handleOf (calls : List (Call Who Name Link)) (name : Name) : Option (DispatcherHandle Name) :=
  if name ∈ attachments calls then none else some ⟨name, name⟩

/-- One dispatcher after the calls. An ActiveMessage dispatcher has the registry that the
registrations with its own builder make, whatever the others are. -/
inductive Stands (ids : Who → Uuid) (kinds : Name → Kind) (calls : List (Call Who Name Link))
    (application : Application Uuid Who Name Link) (name : Name) : Prop
  | raw (dispatch : UInt8) (kind : kinds name = .raw dispatch)
      (unregistered : registrationsWith calls name = [])
      (builder : application.builders name = none)
      (thread : application.threads name = none)
      (dispatcher : application.dispatchers name =
        some (.raw ⟨dispatch, name, name, handleOf calls name⟩))
  | building (addr : UInt16) (group : Option UInt8) (registry : ReceiverRegistry Uuid Who)
      (users : Who → AMReceiver Uuid Who) (kind : kinds name = .am addr group)
      (registered : registerAll ids (registrationsWith calls name) = returned (registry, users))
      (builder : application.builders name = some ⟨addr, group, registry⟩)
      (thread : application.threads name = none)
      (dispatcher : application.dispatchers name = none)
      (unattached : name ∉ attachments calls)
  | created (addr : UInt16) (group : Option UInt8) (registry : ReceiverRegistry Uuid Who)
      (users : Who → AMReceiver Uuid Who) (kind : kinds name = .am addr group)
      (registered : registerAll ids (registrationsWith calls name) = returned (registry, users))
      (builder : application.builders name = none)
      (runs : ¬ Displaced kinds calls name →
        application.threads name = some ⟨addr, group, registry⟩)
      (ended : Displaced kinds calls name → application.threads name = none)
      (dispatcher : application.dispatchers name =
        some (.am ⟨0x00, name, handleOf calls name⟩))

structure Established (ids : Who → Uuid) (kinds : Name → Kind)
    (calls : List (Call Who Name Link)) (application : Application Uuid Who Name Link) :
    Prop where
  given : ∀ who, Registered calls who → application.receivers who = ⟨ids who, none⟩
  kept : ∀ who, ¬ Registered calls who → application.receivers who = ⟨ids who, some ⟨who⟩⟩
  stands : ∀ name, Stands ids kinds calls application name
  tables : ∀ connection byte, (application.connections connection).lookup byte =
    (lastAttached kinds calls connection byte).map fun name => ⟨name, name⟩

variable {ids : Who → Uuid} {kinds : Name → Kind} {calls next : List (Call Who Name Link)}
  {application later : Application Uuid Who Name Link} {name other : Name}

theorem established_fresh (ids : Who → Uuid) (kinds : Name → Kind) :
    Established ids kinds ([] : List (Call Who Name Link)) (.fresh ids kinds) where
  given := by
    rintro who ⟨name, registration, member, same⟩
    cases member
  kept _ _ := rfl
  stands name := by
    cases kind : kinds name with
    | raw dispatch =>
        refine .raw dispatch kind rfl ?_ rfl ?_
        · simp only [Application.fresh, kind]
        · simp only [Application.fresh, kind]
          rfl
    | am addr group =>
        refine .building addr group .default _ kind rfl ?_ rfl ?_ List.not_mem_nil
        · simp only [Application.fresh, kind]
          rfl
        · simp only [Application.fresh, kind]
  tables _ _ := rfl

omit [DecidableEq Uuid] [DecidableEq Who] [DecidableEq Link] in
theorem one_owner_nil : OneOwner ([] : List (Call Who Name Link)) where
  receivers := by
    rintro who name other ⟨⟩
  dispatchers := List.nodup_nil

/-- A dispatcher that the call does not concern. -/
theorem Stands.frame (stands : Stands ids kinds calls application name)
    (sameRegistrations : registrationsWith next name = registrationsWith calls name)
    (sameAttachment : name ∈ attachments next ↔ name ∈ attachments calls)
    (sameDisplaced : Displaced kinds next name ↔ Displaced kinds calls name)
    (sameBuilder : later.builders name = application.builders name)
    (sameThread : later.threads name = application.threads name)
    (sameDispatcher : later.dispatchers name = application.dispatchers name) :
    Stands ids kinds next later name := by
  have sameHandle : handleOf next name = handleOf calls name := by
    simp only [handleOf, sameAttachment]
  cases stands with
  | raw dispatch kind unregistered builder thread dispatcher =>
      refine .raw dispatch kind ?_ (sameBuilder.trans builder) (sameThread.trans thread) ?_
      · rw [sameRegistrations, unregistered]
      · rw [sameDispatcher, dispatcher, sameHandle]
  | building addr group registry users kind registered builder thread dispatcher unattached =>
      refine .building addr group registry users kind ?_ (sameBuilder.trans builder)
        (sameThread.trans thread) (sameDispatcher.trans dispatcher) ?_
      · rw [sameRegistrations, registered]
      · rw [sameAttachment]
        exact unattached
  | created addr group registry users kind registered builder runs ended dispatcher =>
      refine .created addr group registry users kind ?_ (sameBuilder.trans builder) ?_ ?_ ?_
      · rw [sameRegistrations, registered]
      · rw [sameDisplaced, sameThread]
        exact runs
      · rw [sameDisplaced, sameThread]
        exact ended
      · rw [sameDispatcher, dispatcher, sameHandle]

section Owners

omit [DecidableEq Uuid] [DecidableEq Who] [DecidableEq Link]

theorem enrolled_register (registration : Registration Who) (who : Who) :
    Enrolled (registrationsWith (calls ++ [.register name registration]) other) who ↔
      Enrolled (registrationsWith calls other) who ∨ name = other ∧ registration.who = who := by
  rw [registrations_append]
  by_cases same : name = other
  · have single : registrationsWith [(.register name registration : Call Who Name Link)] other =
        [registration] := by
      simp [registrationsWith, same]
    rw [single, enrolled_append, eq_comm, and_iff_right same]
  · have empty : registrationsWith [(.register name registration : Call Who Name Link)] other =
        [] := by
      simp [registrationsWith, same]
    rw [empty, List.append_nil, or_iff_left fun both => same both.1]

theorem one_owner_register (owners : OneOwner calls) (registration : Registration Who) :
    OneOwner (calls ++ [.register name registration]) ↔
      (Registered calls registration.who →
        Enrolled (registrationsWith calls name) registration.who) := by
  constructor
  · intro both registered
    obtain ⟨other, enrolled⟩ := registered_iff_enrolled.mp registered
    have same := both.receivers registration.who name other
      ((enrolled_register registration _).mpr (.inr ⟨rfl, rfl⟩))
      ((enrolled_register registration _).mpr (.inl enrolled))
    rw [same]
    exact enrolled
  · intro owned
    have again (other : Name) (enrolled : Enrolled (registrationsWith calls other)
        registration.who) : name = other :=
      owners.receivers _ _ _ (owned (registered_iff_enrolled.mpr ⟨other, enrolled⟩)) enrolled
    constructor
    · intro who first second enrolled enrolledToo
      rw [enrolled_register] at enrolled enrolledToo
      rcases enrolled with before | ⟨rfl, rfl⟩
      · rcases enrolledToo with beforeToo | ⟨rfl, rfl⟩
        · exact owners.receivers _ _ _ before beforeToo
        · exact (again _ before).symm
      · rcases enrolledToo with before | ⟨rfl, _⟩
        · exact again _ before
        · rfl
    · rw [attachments_append]
      exact owners.dispatchers.append List.nodup_nil (List.disjoint_nil_right _)

theorem one_owner_create (owners : OneOwner calls) (name : Name) :
    OneOwner (calls ++ [.create name]) where
  receivers := by
    intro who first second enrolled enrolledToo
    rw [registrations_append] at enrolled enrolledToo
    exact owners.receivers who first second (by simpa [registrationsWith] using enrolled)
      (by simpa [registrationsWith] using enrolledToo)
  dispatchers := by
    rw [attachments_append]
    exact owners.dispatchers.append List.nodup_nil (List.disjoint_nil_right _)

theorem one_owner_attach (owners : OneOwner calls) (connection : Link) :
    OneOwner (calls ++ [.registerDispatcher name connection]) ↔ name ∉ attachments calls := by
  have all : attachments (calls ++ [.registerDispatcher name connection]) =
      attachments calls ++ [name] := attachments_append calls _
  constructor
  · intro both member
    have distinct := both.dispatchers
    rw [all, List.nodup_append] at distinct
    exact distinct.2.2 name member name List.mem_cons_self rfl
  · intro unattached
    constructor
    · intro who first second enrolled enrolledToo
      rw [registrations_append] at enrolled enrolledToo
      exact owners.receivers who first second (by simpa [registrationsWith] using enrolled)
        (by simpa [registrationsWith] using enrolledToo)
    · rw [all]
      apply owners.dispatchers.append (List.nodup_singleton name)
      rw [List.disjoint_singleton]
      exact unattached

end Owners

/-- The calls return when every handle has one owner, and leave the application as established. -/
structure Decided (ids : Who → Uuid) (kinds : Name → Kind) (calls : List (Call Who Name Link))
    (outcome : Outcome (Application Uuid Who Name Link)) : Prop where
  returns : outcome.Returns ↔ OneOwner calls
  established : ∀ application, outcome = returned application →
    Established ids kinds calls application

theorem decided_returned (owners : OneOwner calls)
    (established : Established ids kinds calls application) :
    Decided ids kinds calls (returned application) where
  returns := iff_of_true (returned_returns _) owners
  established := by
    rintro _ ⟨⟩
    exact established

theorem decided_panicked (unowned : ¬ OneOwner calls) (message : String) :
    Decided ids kinds calls (panicked message) where
  returns := iff_of_false (panicked_not_returns message) unowned
  established := by
    rintro _ ⟨⟩

theorem Established.registered (established : Established ids kinds calls application)
    {registration : Registration Who} {addr : UInt16} {group : Option UInt8}
    {registry next : ReceiverRegistry Uuid Who} {users others : Who → AMReceiver Uuid Who}
    (kind : kinds name = .am addr group)
    (registered : registerAll ids (registrationsWith calls name) = returned (registry, users))
    (taken : ActiveMessageRouting.register (registry, users) registration =
      returned (next, others))
    (thread : application.threads name = none) (dispatcher : application.dispatchers name = none)
    (unattached : name ∉ attachments calls) :
    Established ids kinds (calls ++ [.register name registration]) { application with
      builders := Function.update application.builders name (some ⟨addr, group, next⟩)
      receivers := Function.update application.receivers registration.who
        ⟨ids registration.who, none⟩ } where
  given who registeredNow := by
    by_cases same : who = registration.who
    · rw [same]
      exact Function.update_self ..
    · apply (Function.update_of_ne same ..).trans
      apply established.given
      exact ((registered_append calls name registration who).mp registeredNow).resolve_right
        (Ne.symm same)
  kept who unregistered := by
    rw [registered_append, not_or] at unregistered
    apply (Function.update_of_ne (Ne.symm unregistered.2) ..).trans
    exact established.kept who unregistered.1
  stands other := by
    by_cases same : other = name
    · rw [same]
      refine .building addr group next others kind ?_ (Function.update_self ..) thread
        dispatcher ?_
      · have registrations : registrationsWith (calls ++ [.register name registration]) name =
            registrationsWith calls name ++ [registration] := by
          simp [registrationsWith]
        rw [registrations, registerAll, List.foldlM_append, ← registerAll, registered,
          returned_bind, List.foldlM_cons, taken]
        rfl
      · rw [attachments_append]
        simpa [attachments] using unattached
    · apply (established.stands other).frame
      · simp [registrationsWith, Ne.symm same]
      · simp [attachments]
      · apply displaced_congr
        simp [attachedTo]
      · exact Function.update_of_ne same ..
      · rfl
      · rfl
  tables connection byte := by
    apply (established.tables connection byte).trans
    rw [lastAttached, lastAttached, attached_to_append]
    simp [attachedTo]

theorem Established.register (established : Established ids kinds calls application)
    (owners : OneOwner calls) (distinct : Function.Injective ids)
    (registration : Registration Who) {outcome : Outcome (Application Uuid Who Name Link)}
    (performed : application.perform (.register name registration) = some outcome) :
    Decided ids kinds (calls ++ [.register name registration]) outcome := by
  obtain ⟨builder, found, rest⟩ := Option.bind_eq_some_iff.mp performed
  obtain rfl := Option.some.inj rest
  cases established.stands name with
  | raw dispatch kind unregistered noBuilder => rw [noBuilder] at found; cases found
  | created addr group registry users kind registered noBuilder =>
      rw [noBuilder] at found; cases found
  | building addr group registry users kind registered present thread dispatcher unattached =>
      obtain rfl := Option.some.inj (present.symm.trans found)
      obtain ⟨_, _, again, consistent⟩ :=
        register_all_returns distinct (registrationsWith calls name)
      obtain ⟨rfl, rfl⟩ := Prod.mk.inj (returned.inj (registered.symm.trans again))
      by_cases owned : Registered calls registration.who →
          Enrolled (registrationsWith calls name) registration.who
      · have sameUser : application.receivers registration.who = users registration.who := by
          rw [consistent.users]
          by_cases enrolled : Enrolled (registrationsWith calls name) registration.who
          · rw [if_pos enrolled]
            exact established.given _ (registered_iff_enrolled.mpr ⟨name, enrolled⟩)
          · rw [if_neg enrolled]
            exact established.kept _ (enrolled ∘ owned)
        obtain ⟨next, others, taken, after⟩ := register_step consistent distinct registration
        have call := register_eq ⟨addr, group, registry⟩ users registration taken
        have sent : others registration.who = ⟨ids registration.who, none⟩ := by
          rw [after.users, if_pos ((enrolled_append _ registration _).mpr (.inr rfl))]
        rw [sameUser, call, sent]
        apply decided_returned ((one_owner_register owners registration).mpr owned)
        exact established.registered kind registered taken thread dispatcher unattached
      · have ⟨given, absent⟩ := Classical.not_imp.mp owned
        have missing := consistent.lookup_none distinct absent
        obtain ⟨message, panics⟩ := register_panics (⟨addr, group, registry⟩ :
          AMDispatcherBuilder Uuid Who) missing registration.role registration.id
        rw [established.given _ given, panics]
        exact decided_panicked (mt (one_owner_register owners registration).mp owned) message

theorem Established.create (established : Established ids kinds calls application)
    (owners : OneOwner calls) {outcome : Outcome (Application Uuid Who Name Link)}
    (performed : application.perform (.create name) = some outcome) :
    Decided ids kinds (calls ++ [.create name]) outcome := by
  obtain ⟨builder, found, rest⟩ := Option.bind_eq_some_iff.mp performed
  obtain rfl := Option.some.inj rest
  apply decided_returned (one_owner_create owners name)
  have sameAttached (connection : Link) :
      attachedTo (calls ++ [.create name]) connection = attachedTo calls connection := by
    simp [attachedTo]
  have sameRegistrations (other : Name) :
      registrationsWith (calls ++ [.create name]) other = registrationsWith calls other := by
    simp [registrationsWith]
  have sameAttachments : attachments (calls ++ [.create name]) = attachments calls := by
    simp [attachments]
  have sameRegistered := registered_congr sameRegistrations
  constructor
  · intro who registered
    exact established.given who ((sameRegistered who).mp registered)
  · intro who unregistered
    exact established.kept who (mt (sameRegistered who).mpr unregistered)
  · intro other
    by_cases same : other = name
    · rw [same]
      cases established.stands name with
      | raw dispatch kind unregistered noBuilder => rw [noBuilder] at found; cases found
      | created addr group registry users kind registered noBuilder =>
          rw [noBuilder] at found; cases found
      | building addr group registry users kind registered present thread dispatcher unattached =>
          obtain rfl := Option.some.inj (present.symm.trans found)
          refine .created addr group registry users kind ?_ (Function.update_self ..)
            (fun _ => Function.update_self ..) ?_ ?_
          · rw [sameRegistrations, registered]
          · rintro ⟨connection, attached, _⟩
            rw [sameAttached] at attached
            exact absurd (attached_to_attachments attached) unattached
          · apply (Function.update_self ..).trans
            rw [handleOf, sameAttachments, if_neg unattached]
            rfl
    · apply (established.stands other).frame
      · exact sameRegistrations other
      · rw [sameAttachments]
      · exact displaced_congr sameAttached
      · exact Function.update_of_ne same ..
      · exact Function.update_of_ne same ..
      · exact Function.update_of_ne same ..
  · intro connection byte
    apply (established.tables connection byte).trans
    rw [lastAttached, lastAttached, sameAttached]

theorem Stands.attached (stands : Stands ids kinds calls application other)
    {connection : Link} {dispatcher : AnyDispatcher Name} (unattached : name ∉ attachments calls)
    (present : application.dispatchers name = some dispatcher)
    (sameBuilder : later.builders other = application.builders other)
    (thread : later.threads other =
      if lastAttached kinds calls connection (kinds name).dispatchByte = some other then none
      else application.threads other)
    (dispatchers : later.dispatchers =
      Function.update application.dispatchers name (some dispatcher.withoutHandle)) :
    Stands ids kinds (calls ++ [.registerDispatcher name connection]) later other := by
  have sameRegistrations :
      registrationsWith (calls ++ [.registerDispatcher name connection]) other =
        registrationsWith calls other := by
    simp [registrationsWith]
  have attached (other : Name) :
      other ∈ attachments (calls ++ [.registerDispatcher name connection]) ↔
        other ∈ attachments calls ∨ other = name := by
    simp [attachments]
  have sameHandle (different : other ≠ name) :
      handleOf (calls ++ [.registerDispatcher name connection]) other = handleOf calls other := by
    simp only [handleOf, attached, different, or_false]
  have goneHandle : handleOf (calls ++ [.registerDispatcher name connection]) name = none :=
    if_pos ((attached name).mpr (.inr rfl))
  cases stands with
  | raw dispatch kind unregistered builder idle standing =>
      rw [idle, ite_self] at thread
      refine .raw dispatch kind ?_ (sameBuilder.trans builder) thread ?_
      · rw [sameRegistrations, unregistered]
      · rw [dispatchers]
        by_cases same : other = name
        · subst same
          cases present.symm.trans standing
          rw [Function.update_self, goneHandle]
          rfl
        · rw [Function.update_of_ne same, standing, sameHandle same]
  | building addr group registry users kind registered builder idle missing unattachedYet =>
      have different : other ≠ name := by
        rintro rfl
        rw [missing] at present
        cases present
      rw [idle, ite_self] at thread
      refine .building addr group registry users kind ?_ (sameBuilder.trans builder) thread ?_ ?_
      · rw [sameRegistrations, registered]
      · rw [dispatchers, Function.update_of_ne different, missing]
      · rw [attached]
        exact not_or.mpr ⟨unattachedYet, different⟩
  | created addr group registry users kind registered builder runs ends standing =>
      refine .created addr group registry users kind ?_ (sameBuilder.trans builder) ?_ ?_ ?_
      · rw [sameRegistrations, registered]
      · intro remains
        rw [displaced_append unattached, not_or] at remains
        rw [thread, if_neg remains.2, runs remains.1]
      · intro displaced
        rw [thread]
        split_ifs with latest
        · rfl
        · apply ends
          exact ((displaced_append unattached connection).mp displaced).resolve_right latest
      · rw [dispatchers]
        by_cases same : other = name
        · subst same
          cases present.symm.trans standing
          rw [Function.update_self, goneHandle]
          rfl
        · rw [Function.update_of_ne same, standing, sameHandle same]

theorem Established.attached (established : Established ids kinds calls application)
    {connection : Link} {dispatcher : AnyDispatcher Name}
    (unattached : name ∉ attachments calls)
    (present : application.dispatchers name = some dispatcher) :
    Established ids kinds (calls ++ [.registerDispatcher name connection]) { application with
      dispatchers := Function.update application.dispatchers name (some dispatcher.withoutHandle)
      connections := Function.update application.connections connection
        ((application.connections connection).insert (kinds name).dispatchByte ⟨name, name⟩)
      threads :=
        match (application.connections connection).lookup (kinds name).dispatchByte with
        | some dropped => Function.update application.threads dropped.tx none
        | none => application.threads } := by
  have sameRegistrations (other : Name) :
      registrationsWith (calls ++ [.registerDispatcher name connection]) other =
        registrationsWith calls other := by
    simp [registrationsWith]
  have sameRegistered := registered_congr sameRegistrations
  constructor
  · intro who registered
    exact established.given who ((sameRegistered who).mp registered)
  · intro who unregistered
    exact established.kept who (mt (sameRegistered who).mpr unregistered)
  · intro other
    apply (established.stands other).attached unattached present
    · rfl
    · rw [established.tables]
      cases lastAttached kinds calls connection (kinds name).dispatchByte with
      | none => rfl
      | some dropped =>
          simp only [Option.map_some, Function.update_apply, Option.some.injEq, eq_comm]
    · rfl
  · intro other byte
    change (Function.update application.connections connection _ other).lookup byte = _
    rw [last_attached_append]
    by_cases here : other = connection
    · rw [here, Function.update_self, lookup_insert, established.tables]
      by_cases same : byte = (kinds name).dispatchByte
      · rw [if_pos same, if_pos ⟨rfl, same.symm⟩]
        rfl
      · rw [if_neg same, if_neg fun both => same both.2.symm]
    · rw [Function.update_of_ne here, established.tables, if_neg fun both => here both.1.symm]

theorem Established.registerDispatcher (established : Established ids kinds calls application)
    (owners : OneOwner calls) {connection : Link}
    {outcome : Outcome (Application Uuid Who Name Link)}
    (performed : application.perform (.registerDispatcher name connection) = some outcome) :
    Decided ids kinds (calls ++ [.registerDispatcher name connection]) outcome := by
  obtain ⟨dispatcher, present, rest⟩ := Option.bind_eq_some_iff.mp performed
  obtain rfl := Option.some.inj rest
  have ⟨sameByte, handle⟩ : dispatcher.dispatchByte = (kinds name).dispatchByte ∧
      dispatcher.handle = handleOf calls name := by
    cases established.stands name with
    | raw dispatch kind unregistered builder idle standing =>
        obtain rfl := Option.some.inj (present.symm.trans standing)
        rw [kind]
        exact ⟨rfl, rfl⟩
    | building addr group registry users kind registered builder idle missing =>
        rw [missing] at present
        cases present
    | created addr group registry users kind registered builder runs ends standing =>
        obtain rfl := Option.some.inj (present.symm.trans standing)
        rw [kind]
        exact ⟨rfl, rfl⟩
  by_cases before : name ∈ attachments calls
  · rw [handleOf, if_pos before] at handle
    obtain ⟨message, panics⟩ := register_dispatcher_none (application.connections connection) handle
    rw [panics]
    exact decided_panicked (mt (one_owner_attach owners connection).mp (not_not.mpr before)) message
  · rw [handleOf, if_neg before] at handle
    rw [register_dispatcher_some _ handle, sameByte]
    apply decided_returned ((one_owner_attach owners connection).mpr before)
    exact established.attached before present

theorem decided_of_run (distinct : Function.Injective ids)
    {outcome : Outcome (Application Uuid Who Name Link)}
    (made : run Application.step (returned (.fresh ids kinds)) calls = some outcome) :
    Decided ids kinds calls outcome := by
  induction calls using List.reverseRecOn generalizing outcome with
  | nil =>
      cases made
      exact decided_returned one_owner_nil (established_fresh ids kinds)
  | append_singleton calls call induction =>
      obtain ⟨middle, before, rest⟩ := run_append_some.mp made
      obtain ⟨last, taken, done⟩ := run_cons_some.mp rest
      obtain rfl := Option.some.inj done
      have decided := induction before
      cases middle with
      | panicked message => cases taken
      | returned application =>
          have owners := decided.returns.mp (returned_returns application)
          have established := decided.established application rfl
          cases call with
          | register name registration =>
              exact established.register owners distinct registration taken
          | create name => exact established.create owners taken
          | registerDispatcher name connection => exact established.registerDispatcher owners taken

/-- The sending end of a receiver's channel: with the receiver, with a builder, or with a thread
that runs. -/
def Application.Holds (application : Application Uuid Who Name Link) (who : Who) : Prop :=
  (application.receivers who).handle = some ⟨who⟩ ∨
    (∃ name builder, application.builders name = some builder ∧
      ∃ id, builder.receivers.handles.lookup id = some ⟨who⟩) ∨
    ∃ name worker, application.threads name = some worker ∧
      ∃ id, worker.receivers.handles.lookup id = some ⟨who⟩

def Application.behind (application : Application Uuid Who Name Link) (name : Name) :
    Option (Dispatcher Uuid Who) :=
  match application.dispatchers name with
  | some (.raw dispatcher) => some (.raw dispatcher.dispatch)
  | some (.am _) => (application.threads name).map .am
  | none => none

/-- A raw dispatcher, or an ActiveMessage dispatcher with the receivers of its own builder. -/
def Serves (ids : Who → Uuid) (calls : List (Call Who Name Link)) (name : Name) :
    Kind → Dispatcher Uuid Who → Prop
  | .raw dispatch, dispatcher => dispatcher = .raw dispatch
  | .am addr group, dispatcher => ∃ registry users,
      registerAll ids (registrationsWith calls name) = returned (registry, users) ∧
        dispatcher = .am ⟨addr, group, registry⟩

omit [DecidableEq Link] [DecidableEq Name] in
theorem registry_handles (distinct : Function.Injective ids)
    {registrations : List (Registration Who)} {registry : ReceiverRegistry Uuid Who}
    {users : Who → AMReceiver Uuid Who}
    (registered : registerAll ids registrations = returned (registry, users)) (who : Who) :
    (∃ id, registry.handles.lookup id = some ⟨who⟩) ↔ Enrolled registrations who := by
  obtain ⟨_, _, again, consistent⟩ := register_all_returns distinct registrations
  obtain ⟨rfl, rfl⟩ := Prod.mk.inj (returned.inj (registered.symm.trans again))
  simp [consistent.handles]

theorem Established.holds_iff (established : Established ids kinds calls application)
    (owners : OneOwner calls) (distinct : Function.Injective ids) (who : Who) :
    application.Holds who ↔
      ¬ ∃ name, Enrolled (registrationsWith calls name) who ∧ Displaced kinds calls name := by
  constructor
  · rintro holds ⟨name, enrolled, displaced⟩
    have registered := registered_iff_enrolled.mpr ⟨name, enrolled⟩
    have ⟨connection, attachedTo, _⟩ := displaced
    have attached := attached_to_attachments attachedTo
    rcases holds with own | ⟨other, builder, present, held⟩ | ⟨other, worker, present, held⟩
    · rw [established.given who registered] at own
      cases own
    · cases established.stands other with
      | raw dispatch kind unregistered noBuilder => rw [noBuilder] at present; cases present
      | created addr group registry users kind registered noBuilder =>
          rw [noBuilder] at present; cases present
      | building addr group registry users kind made here thread dispatcher unattached =>
          obtain rfl := Option.some.inj (here.symm.trans present)
          have enrolledToo := (registry_handles distinct made who).mp held
          obtain rfl := owners.receivers who name other enrolled enrolledToo
          exact unattached attached
    · cases established.stands other with
      | raw dispatch kind unregistered builder idle => rw [idle] at present; cases present
      | building addr group registry users kind made here idle =>
          rw [idle] at present; cases present
      | created addr group registry users kind made builder runs ends =>
          by_cases displacedToo : Displaced kinds calls other
          · rw [ends displacedToo] at present
            cases present
          · obtain rfl := Option.some.inj ((runs displacedToo).symm.trans present)
            have enrolledToo := (registry_handles distinct made who).mp held
            obtain rfl := owners.receivers who name other enrolled enrolledToo
            exact displacedToo displaced
  · intro safe
    by_cases registered : Registered calls who
    · obtain ⟨name, enrolled⟩ := registered_iff_enrolled.mp registered
      have remains : ¬ Displaced kinds calls name := fun displaced =>
        safe ⟨name, enrolled, displaced⟩
      cases established.stands name with
      | raw dispatch kind unregistered =>
          rw [unregistered] at enrolled
          cases enrolled
      | building addr group registry users kind made here =>
          exact .inr (.inl ⟨name, _, here, (registry_handles distinct made who).mpr enrolled⟩)
      | created addr group registry users kind made builder runs =>
          exact .inr (.inr ⟨name, _, runs remains,
            (registry_handles distinct made who).mpr enrolled⟩)
    · left
      rw [established.kept who registered]

omit [DecidableEq Uuid] [DecidableEq Who] [DecidableEq Name] [DecidableEq Link] in
theorem attached_once (distinct : (attachments calls).Nodup) {first second : Link}
    (here : .registerDispatcher name first ∈ calls)
    (there : .registerDispatcher name second ∈ calls) : first = second := by
  induction calls with
  | nil => cases here
  | cons call rest induction =>
      have split : attachments (call :: rest) = attachments [call] ++ attachments rest :=
        List.filterMap_append (l := [call])
      rw [split, List.nodup_append] at distinct
      have apart (connection : Link) (now : call = .registerDispatcher name connection) :
          name ∉ attachments rest := by
        intro later
        refine distinct.2.2 name ?_ name later rfl
        exact mem_attachments.mpr ⟨connection, List.mem_singleton.mpr now.symm⟩
      rcases List.mem_cons.mp here with now | later
      · rcases List.mem_cons.mp there with nowToo | later
        · cases now.trans nowToo.symm
          rfl
        · exact absurd (mem_attachments.mpr ⟨second, later⟩) (apart first now.symm)
      · rcases List.mem_cons.mp there with now | laterToo
        · exact absurd (mem_attachments.mpr ⟨first, later⟩) (apart second now.symm)
        · exact induction distinct.2.1 later laterToo

omit [DecidableEq Uuid] [DecidableEq Who] in
/-- Whoever is in the table of a connection has not been displaced. -/
theorem not_displaced_of_last (owners : OneOwner calls) {connection : Link} {byte : UInt8}
    (last : lastAttached kinds calls connection byte = some name) :
    ¬ Displaced kinds calls name := by
  have ⟨attached, sameByte⟩ := last_attached_mem last
  rintro ⟨other, attachedThere, displaced⟩
  have same := attached_once owners.dispatchers (mem_attached_to.mp attached)
    (mem_attached_to.mp attachedThere)
  rw [← same, sameByte] at displaced
  exact displaced last

theorem Established.behind (established : Established ids kinds calls application)
    (owners : OneOwner calls) {connection : Link} {byte : UInt8}
    (last : lastAttached kinds calls connection byte = some name) :
    ∃ dispatcher, application.behind name = some dispatcher ∧ dispatcher.dispatchByte = byte ∧
      Serves ids calls name (kinds name) dispatcher := by
  have ⟨attached, sameByte⟩ := last_attached_mem last
  rw [← sameByte]
  unfold Application.behind
  cases established.stands name with
  | raw dispatch kind unregistered builder idle standing =>
      rw [standing, kind]
      exact ⟨_, rfl, rfl, rfl⟩
  | building addr group registry users kind made here idle missing unattached =>
      exact absurd (attached_to_attachments attached) unattached
  | created addr group registry users kind made builder runs ends standing =>
      rw [standing, kind, runs (not_displaced_of_last owners last)]
      exact ⟨_, rfl, rfl, registry, users, made, rfl⟩

theorem Established.dispatchers (established : Established ids kinds calls application)
    (owners : OneOwner calls) (connection : Link) :
    ∃ dispatchers : Dispatchers Uuid Who, ∀ dispatcher, dispatcher ∈ dispatchers.list ↔
      ∃ name, lastAttached kinds calls connection dispatcher.dispatchByte = some name ∧
        application.behind name = some dispatcher := by
  let table := application.connections connection
  let serving (byte : UInt8) : Option (Dispatcher Uuid Who) :=
    (table.lookup byte).bind fun handle => application.behind handle.tx
  have serves (byte : UInt8) : serving byte =
      (lastAttached kinds calls connection byte).bind application.behind := by
    simp only [serving, table, established.tables, Option.bind_map]
    rfl
  have sameByte {byte : UInt8} {dispatcher : Dispatcher Uuid Who}
      (behind : serving byte = some dispatcher) : dispatcher.dispatchByte = byte := by
    rw [serves] at behind
    obtain ⟨name, last, runs⟩ := Option.bind_eq_some_iff.mp behind
    obtain ⟨_, found, same, _⟩ := established.behind owners last
    rw [← Option.some.inj (found.symm.trans runs), same]
  have bytes : (table.keys.filterMap serving).map Dispatcher.dispatchByte = table.keys := by
    rw [List.map_filterMap]
    apply (List.filterMap_congr ?_).trans List.filterMap_some
    intro byte member
    obtain ⟨handle, found⟩ :=
      Option.isSome_iff_exists.mp (AList.lookup_isSome.mpr (AList.mem_keys.mpr member))
    obtain ⟨name, last, _⟩ := Option.map_eq_some_iff.mp
      ((established.tables connection byte).symm.trans found)
    obtain ⟨dispatcher, runs, same, _⟩ := established.behind owners last
    rw [serves, last, Option.bind_some, runs, Option.map_some, same]
  refine ⟨⟨table.keys.filterMap serving, ?_⟩, ?_⟩
  · rw [bytes]
    exact table.nodupKeys
  · intro dispatcher
    rw [List.mem_filterMap]
    constructor
    · rintro ⟨byte, _, behind⟩
      rw [sameByte behind]
      exact Option.bind_eq_some_iff.mp ((serves byte).symm.trans behind)
    · rintro ⟨name, last, runs⟩
      refine ⟨dispatcher.dispatchByte, ?_, ?_⟩
      · apply AList.mem_keys.mp
        rw [← AList.lookup_isSome, established.tables, last]
        rfl
      · rw [serves, last, Option.bind_some, runs]

def twoAndRaw : Nat → Kind
  | 0 => .am 0x0001 none
  | 1 => .am 0x0002 (some 0x22)
  | _ => .raw 0x00

def displacing : List (Call Nat Nat Nat) :=
  [.register 0 ⟨.receiver, none, 7⟩, .create 0, .registerDispatcher 0 3, .registerDispatcher 2 3]

/-- In every order of the calls: they panic as soon as a receiver is registered with a second
builder or a dispatcher is registered again, and never before. -/
theorem set_up_returns_iff (distinct : Function.Injective ids)
    {outcome : Outcome (Application Uuid Who Name Link)}
    (made : run Application.step (returned (.fresh ids kinds)) calls = some outcome) :
    outcome.Returns ↔ OneOwner calls :=
  (decided_of_run distinct made).returns

/-- The receiver 7 is registered with two builders. -/
theorem second_builder_panics :
    ∃ outcome, run Application.step (returned (.fresh (fun who : Nat => who) twoAndRaw))
        [(.register 0 ⟨.receiver, none, 7⟩ : Call Nat Nat Nat),
          .register 1 ⟨.snooper, none, 7⟩] = some outcome ∧ ¬ outcome.Returns := by
  obtain ⟨outcome, made⟩ : ∃ outcome,
      run Application.step (returned (.fresh (fun who : Nat => who) twoAndRaw))
        [(.register 0 ⟨.receiver, none, 7⟩ : Call Nat Nat Nat),
          .register 1 ⟨.snooper, none, 7⟩] = some outcome := ⟨_, rfl⟩
  refine ⟨outcome, made, ?_⟩
  rw [set_up_returns_iff (fun _ _ same => same) made]
  intro owners
  exact absurd (owners.receivers 7 0 1 (by decide) (by decide)) (by decide)

/-- A connection runs the dispatchers that were registered last for their bytes, and each of them
serves the receivers of its own builder, whatever else the application has set up. -/
theorem connections_serve_last (distinct : Function.Injective ids)
    (made : run Application.step (returned (.fresh ids kinds)) calls = some (returned application))
    (connection : Link) :
    (∀ byte, (application.connections connection).lookup byte =
      (lastAttached kinds calls connection byte).map fun name => ⟨name, name⟩) ∧
    ∃ dispatchers : Dispatchers Uuid Who, ∀ dispatcher, dispatcher ∈ dispatchers.list ↔
      ∃ name, lastAttached kinds calls connection dispatcher.dispatchByte = some name ∧
        application.behind name = some dispatcher ∧
        Serves ids calls name (kinds name) dispatcher := by
  have decided := decided_of_run distinct made
  have owners := decided.returns.mp (returned_returns application)
  have established := decided.established application rfl
  refine ⟨established.tables connection, ?_⟩
  obtain ⟨dispatchers, listed⟩ := established.dispatchers owners connection
  refine ⟨dispatchers, ?_⟩
  intro dispatcher
  rw [listed]
  refine exists_congr fun name => and_congr_right fun last => ?_
  constructor
  · intro runs
    obtain ⟨other, runsToo, _, serves⟩ := established.behind owners last
    obtain rfl := Option.some.inj (runs.symm.trans runsToo)
    exact ⟨runs, serves⟩
  · exact And.left

theorem displacing_returns :
    ∃ application, run Application.step (returned (.fresh (fun who : Nat => who) twoAndRaw))
      displacing = some (returned application) := ⟨_, rfl⟩

theorem displacing_served :
    ∃ application, run Application.step (returned (.fresh (fun who : Nat => who) twoAndRaw))
        displacing = some (returned application) ∧
      (application.connections 3).lookup 0x00 = some ⟨2, 2⟩ := by
  obtain ⟨application, made⟩ := displacing_returns
  refine ⟨application, made, ?_⟩
  rw [(connections_serve_last (fun _ _ same => same) made 3).1 0x00]
  rfl

/-- A receiver is cut off when another dispatcher takes the place of its own in a connection, and
only then. -/
theorem cut_off_iff_displaced (distinct : Function.Injective ids)
    (made : run Application.step (returned (.fresh ids kinds)) calls = some (returned application))
    (who : Who) :
    ¬ application.Holds who ↔
      ∃ name, Enrolled (registrationsWith calls name) who ∧ Displaced kinds calls name := by
  have decided := decided_of_run distinct made
  have owners := decided.returns.mp (returned_returns application)
  rw [(decided.established application rfl).holds_iff owners distinct, not_not]

theorem displaced_by_raw :
    ∃ application, run Application.step (returned (.fresh (fun who : Nat => who) twoAndRaw))
        displacing = some (returned application) ∧ ¬ application.Holds 7 := by
  obtain ⟨application, made⟩ := displacing_returns
  refine ⟨application, made, ?_⟩
  rw [cut_off_iff_displaced (fun _ _ same => same) made]
  exact ⟨0, by decide, 3, by decide, by decide⟩

end Ownership

end MoteConnection.ConnectionSetup
