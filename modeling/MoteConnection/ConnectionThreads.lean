import MoteConnection.Library.LabeledRuns
import MoteConnection.ConnectionWorkers

/-!
# The threads of a connection

What `Connection::new` spawns and `Connection::stop` tears down: the
`TransportWorker`, a `DispatcherWorker` for each dispatcher, and the thread of
the ActiveMessage dispatcher. Every receive and every send is a step of its
own, so that a run is any interleaving of the threads with the calls of the
users and with `stop`.

Of the transport only its ends of the two channels are here: it may send
anything upward while it runs, it may panic at any time, and it ends in order
after `stop` has asked it to. A read thread may outlive the transport's own
thread when that panics, and go on to send upward; when it has gone is left
open. A thread that ends or panics drops its receivers, and a send without a
receiver panics. Waiting with a timeout and finding nothing is no step.
-/

namespace MoteConnection.ConnectionThreads

open FanOut LabeledRuns
open MoteConnection.Runtime MoteConnection.ActiveMessages MoteConnection.ConnectionWorkers

set_option autoImplicit false

inductive Life
  | running
  | ended
  | panicked (message : String)
  deriving DecidableEq, Repr

/-- `unwrap` on the result of a send without a receiver. -/
def unwrapFailed : Life := .panicked sendFailed

structure Thread (Channel Content : Type) where
  life : Life
  outbox : List (Channel × Event Content)
  deriving DecidableEq

/-- The owner of a `RawDispatcher` or of an `AMReceiver`. -/
inductive Consumer (Who : Type)
  | raw (byte : UInt8)
  | receiver (who : Who)
  deriving DecidableEq, Repr

/-- Where `stop` stands; the lists are the stoppers it has still to call. -/
inductive Phase
  | running
  | stoppingTransport
  | stoppingDispatchers (order : List UInt8)
  | joiningDispatcher (order : List UInt8)
  | signalled
  | stopped
  deriving DecidableEq, Repr

/-- The channels of the dispatchers are named by their bytes. `upward` and `received` are what was
sent on a channel, `handled` what the `TransportWorker` has taken and `sent` what users have sent;
no step looks at these four. -/
structure Connection (Who : Type) where
  phase : Phase
  transport : Life
  toTransport : List (Event Bytes)
  fromTransport : List (Event Bytes)
  worker : Thread UInt8 Bytes
  handled : List (Event Bytes)
  upward : Channels UInt8 (Event Bytes)
  amQueue : List (Event Bytes)
  am : Thread Who Message
  received : Channels Who (Event Message)
  downward : UInt8 → List (Event Bytes)
  hands : UInt8 → Option (Event Bytes)
  dispatchers : UInt8 → Life
  sent : UInt8 → List Bytes
  dropped : List (Consumer Who)

inductive Label (Uuid Who : Type)
  | userData (byte : UInt8) (payload : Bytes)
  | userDrop (consumer : Consumer Who)
  | transportSend (event : Event Bytes)
  | transportReceive
  | transportPanic (message : String)
  | workerReceive (order : List UInt8)
  | workerSend
  | workerHangUp
  | workerStop
  | amReceive (order : List Uuid)
  | amSend
  | dispatcherReceive (byte : UInt8)
  | dispatcherSend (byte : UInt8)
  | dispatcherHangUp (byte : UInt8)
  | dispatcherStop (byte : UInt8)
  | stop
  | transportEnd
  | transportJoined (order : List UInt8)
  | callStopper
  | amJoined
  | signal
  | joined
  deriving DecidableEq, Repr

/-- The steps of a connection that its transport takes no part in. -/
def separate {Uuid Who : Type} : Label Uuid Who → Bool
  | .transportSend _ | .transportReceive | .transportPanic _ | .dispatcherSend _ | .stop
  | .transportEnd => false
  | _ => true

namespace Connection

variable {Uuid Who : Type} [DecidableEq Uuid] [DecidableEq Who]

def fresh : Connection Who where
  phase := .running
  transport := .running
  toTransport := []
  fromTransport := []
  worker := ⟨.running, []⟩
  handled := []
  upward := fun _ => []
  amQueue := []
  am := ⟨.running, []⟩
  received := fun _ => []
  downward := fun _ => []
  hands := fun _ => none
  dispatchers := fun _ => .running
  sent := fun _ => []
  dropped := []

variable (overflowChecks : Bool) (setup : Dispatchers Uuid Who) (connection : Connection Who)

def channelOpen (byte : UInt8) : Bool :=
  if setup.servesAm byte then connection.am.life = .running
  else Consumer.raw byte ∉ connection.dropped

def passOn (sending : UInt8 × Event Bytes) : List (Event Bytes) :=
  if setup.servesAm sending.1 then connection.amQueue ++ [sending.2]
  else connection.amQueue

def workerReceive (order : List UInt8) : Option (Connection Who) :=
  match connection.worker, connection.fromTransport with
  | ⟨.running, []⟩, event :: rest =>
      if order.Perm setup.worker.txs.keys then
        let taken := { connection with
          fromTransport := rest
          handled := connection.handled ++ [event] }
        match setup.worker.handleData order event with
        | .returned sends => some { taken with worker := ⟨.running, sends⟩ }
        | .panicked message => some { taken with worker := ⟨.panicked message, []⟩ }
      else none
  | _, _ => none

def workerSend : Option (Connection Who) :=
  match connection.worker with
  | ⟨.running, sending :: rest⟩ =>
      if connection.channelOpen setup sending.1 then
        some { connection with
          worker := ⟨.running, rest⟩
          upward := send connection.upward sending
          amQueue := connection.passOn setup sending }
      else some { connection with worker := ⟨unwrapFailed, []⟩ }
  | _ => none

def amReceive (order : List Uuid) : Option (Connection Who) :=
  match setup.am, connection.am, connection.amQueue with
  | some worker, ⟨.running, []⟩, event :: rest =>
      if order.Perm worker.receivers.handles.keys then
        let taken := { connection with amQueue := rest }
        match worker.handleEvent overflowChecks order event with
        | .returned (some sends) => some { taken with am := ⟨.running, sends⟩ }
        | .returned none => some { taken with am := ⟨.ended, []⟩ }
        | .panicked message => some { taken with am := ⟨.panicked message, []⟩ }
      else none
  | _, _, _ => none

def amSend : Option (Connection Who) :=
  match connection.am with
  | ⟨.running, sending :: rest⟩ =>
      if .receiver sending.1 ∉ connection.dropped then
        some { connection with
          am := ⟨.running, rest⟩
          received := send connection.received sending }
      else some { connection with am := ⟨unwrapFailed, []⟩ }
  | _ => none

def dispatcherReceive (byte : UInt8) : Option (Connection Who) :=
  match connection.dispatchers byte, connection.hands byte, connection.downward byte with
  | .running, none, event :: rest =>
      let taken := { connection with
        downward := Function.update connection.downward byte rest }
      match (DispatcherWorker.mk byte).handleData event with
      | .returned packet =>
          some { taken with hands := Function.update connection.hands byte (some packet) }
      | .panicked message =>
          some { taken with
            dispatchers := Function.update connection.dispatchers byte (.panicked message) }
  | _, _, _ => none

def dispatcherSend (byte : UInt8) : Option (Connection Who) :=
  match connection.dispatchers byte, connection.hands byte with
  | .running, some packet =>
      let taken := { connection with hands := Function.update connection.hands byte none }
      if connection.transport = .running then
        some { taken with toTransport := connection.toTransport ++ [packet] }
      else
        some { taken with
          dispatchers := Function.update connection.dispatchers byte unwrapFailed }
  | _, _ => none

def dispatcherEnd (byte : UInt8) : Connection Who :=
  { connection with dispatchers := Function.update connection.dispatchers byte .ended }

/-- The next of the stoppers; the one of a raw dispatcher does nothing. -/
def callStopper : Option (Connection Who) :=
  match connection.phase with
  | .stoppingDispatchers (byte :: rest) =>
      if setup.servesAm byte ∧ connection.am.life = .running then
        some { connection with
          phase := .joiningDispatcher rest
          amQueue := connection.amQueue ++ [.stop] }
      else some { connection with phase := .stoppingDispatchers rest }
  | _ => none

def step (label : Label Uuid Who) : Option (Connection Who) :=
  match label with
  | .userData byte payload =>
      if byte ∈ setup.workerBytes ∧ connection.dispatchers byte = .running then
        some { connection with
          downward := Function.update connection.downward byte
            (connection.downward byte ++ [.data payload])
          sent := Function.update connection.sent byte (connection.sent byte ++ [payload]) }
      else none
  | .userDrop consumer => some { connection with dropped := consumer :: connection.dropped }
  | .transportSend event =>
      if connection.transport = .ended then none
      else if connection.worker.life = .running then
        some { connection with fromTransport := connection.fromTransport ++ [event] }
      else if connection.transport = .running then
        some { connection with transport := unwrapFailed }
      else none
  | .transportReceive =>
      match connection.transport, connection.toTransport with
      | .running, _ :: rest => some { connection with toTransport := rest }
      | _, _ => none
  | .transportPanic message =>
      if connection.transport = .running then
        some { connection with transport := .panicked message }
      else none
  | .workerReceive order => connection.workerReceive setup order
  | .workerSend => connection.workerSend setup
  | .workerHangUp =>
      if connection.worker.life = .running ∧ connection.worker.outbox = [] ∧
          connection.fromTransport = [] ∧ connection.transport ≠ .running then
        some { connection with worker := ⟨.ended, []⟩ }
      else none
  | .workerStop =>
      if connection.worker.life = .running ∧ connection.worker.outbox = [] ∧
          connection.phase = .signalled then
        some { connection with worker := ⟨.ended, []⟩ }
      else none
  | .amReceive order => connection.amReceive overflowChecks setup order
  | .amSend => connection.amSend
  | .dispatcherReceive byte => connection.dispatcherReceive byte
  | .dispatcherSend byte => connection.dispatcherSend byte
  | .dispatcherHangUp byte =>
      -- The users have dropped the senders of the channel.
      if connection.dispatchers byte = .running ∧ connection.hands byte = none ∧
          connection.downward byte = [] then
        some (connection.dispatcherEnd byte)
      else none
  | .dispatcherStop byte =>
      if connection.dispatchers byte = .running ∧ connection.hands byte = none ∧
          connection.phase = .signalled then
        some (connection.dispatcherEnd byte)
      else none
  | .stop =>
      if connection.phase = .running then
        some { connection with
          phase := .stoppingTransport
          toTransport := connection.toTransport ++ [.stop] }
      else none
  | .transportEnd =>
      if connection.phase = .stoppingTransport ∧ connection.transport = .running then
        some { connection with transport := .ended }
      else none
  | .transportJoined order =>
      if connection.phase = .stoppingTransport ∧ connection.transport ≠ .running ∧
          order.Perm setup.bytes then
        some { connection with phase := .stoppingDispatchers order }
      else none
  | .callStopper => connection.callStopper setup
  | .amJoined =>
      match connection.phase, connection.am.life with
      | .joiningDispatcher _, .running => none
      | .joiningDispatcher rest, _ =>
          some { connection with phase := .stoppingDispatchers rest }
      | _, _ => none
  | .signal =>
      if connection.phase = .stoppingDispatchers [] then
        some { connection with phase := .signalled }
      else none
  | .joined =>
      if connection.phase = .signalled ∧ connection.worker.life ≠ .running ∧
          setup.workerBytes.all fun byte => connection.dispatchers byte ≠ .running then
        some { connection with phase := .stopped }
      else none

end Connection

section Moves

variable {Uuid Who : Type} [DecidableEq Uuid] [DecidableEq Who]

/-- What one label can do. -/
inductive Moved (overflowChecks : Bool) (setup : Dispatchers Uuid Who)
    (connection : Connection Who) : Label Uuid Who → Connection Who → Prop
  | userData (byte : UInt8) (payload : Bytes) (member : byte ∈ setup.workerBytes)
      (runs : connection.dispatchers byte = .running) :
      Moved overflowChecks setup connection (.userData byte payload)
        { connection with
          downward := Function.update connection.downward byte
            (connection.downward byte ++ [.data payload])
          sent := Function.update connection.sent byte (connection.sent byte ++ [payload]) }
  | userDrop (consumer : Consumer Who) :
      Moved overflowChecks setup connection (.userDrop consumer)
        { connection with dropped := consumer :: connection.dropped }
  | transportSend (event : Event Bytes) (transport : connection.transport ≠ .ended)
      (runs : connection.worker.life = .running) :
      Moved overflowChecks setup connection (.transportSend event)
        { connection with fromTransport := connection.fromTransport ++ [event] }
  | transportFails (event : Event Bytes) (transport : connection.transport = .running)
      (gone : connection.worker.life ≠ .running) :
      Moved overflowChecks setup connection (.transportSend event)
        { connection with transport := unwrapFailed }
  | transportReceive (event : Event Bytes) (rest : List (Event Bytes))
      (transport : connection.transport = .running)
      (queue : connection.toTransport = event :: rest) :
      Moved overflowChecks setup connection .transportReceive
        { connection with toTransport := rest }
  | transportPanic (message : String) (transport : connection.transport = .running) :
      Moved overflowChecks setup connection (.transportPanic message)
        { connection with transport := .panicked message }
  | workerReceive (order : List UInt8) (event : Event Bytes) (rest : List (Event Bytes))
      (sends : List (UInt8 × Event Bytes)) (idle : connection.worker = ⟨.running, []⟩)
      (queue : connection.fromTransport = event :: rest)
      (complete : order.Perm setup.worker.txs.keys)
      (handled : setup.worker.handleData order event = .returned sends) :
      Moved overflowChecks setup connection (.workerReceive order)
        { connection with
          fromTransport := rest
          handled := connection.handled ++ [event]
          worker := ⟨.running, sends⟩ }
  | workerRefuses (order : List UInt8) (event : Event Bytes) (rest : List (Event Bytes))
      (message : String) (idle : connection.worker = ⟨.running, []⟩)
      (queue : connection.fromTransport = event :: rest)
      (complete : order.Perm setup.worker.txs.keys)
      (refused : setup.worker.handleData order event = .panicked message) :
      Moved overflowChecks setup connection (.workerReceive order)
        { connection with
          fromTransport := rest
          handled := connection.handled ++ [event]
          worker := ⟨.panicked message, []⟩ }
  | workerSend (sending : UInt8 × Event Bytes) (rest : List (UInt8 × Event Bytes))
      (busy : connection.worker = ⟨.running, sending :: rest⟩)
      (channel : connection.channelOpen setup sending.1 = true) :
      Moved overflowChecks setup connection .workerSend
        { connection with
          worker := ⟨.running, rest⟩
          upward := send connection.upward sending
          amQueue := connection.passOn setup sending }
  | workerFails (sending : UInt8 × Event Bytes) (rest : List (UInt8 × Event Bytes))
      (busy : connection.worker = ⟨.running, sending :: rest⟩)
      (closed : connection.channelOpen setup sending.1 = false) :
      Moved overflowChecks setup connection .workerSend
        { connection with worker := ⟨unwrapFailed, []⟩ }
  | workerHangUp (idle : connection.worker = ⟨.running, []⟩)
      (queue : connection.fromTransport = []) (gone : connection.transport ≠ .running) :
      Moved overflowChecks setup connection .workerHangUp
        { connection with worker := ⟨.ended, []⟩ }
  | workerStop (idle : connection.worker = ⟨.running, []⟩)
      (phase : connection.phase = .signalled) :
      Moved overflowChecks setup connection .workerStop
        { connection with worker := ⟨.ended, []⟩ }
  | amReceive (order : List Uuid) (worker : ActiveMessageRouting.ConnectionWorker Uuid Who)
      (event : Event Bytes) (rest : List (Event Bytes)) (sends : List (Who × Event Message))
      (registered : setup.am = some worker) (idle : connection.am = ⟨.running, []⟩)
      (queue : connection.amQueue = event :: rest)
      (handled : worker.handleEvent overflowChecks order event = .returned (some sends)) :
      Moved overflowChecks setup connection (.amReceive order)
        { connection with amQueue := rest, am := ⟨.running, sends⟩ }
  | amEnds (order : List Uuid) (worker : ActiveMessageRouting.ConnectionWorker Uuid Who)
      (event : Event Bytes) (rest : List (Event Bytes)) (registered : setup.am = some worker)
      (idle : connection.am = ⟨.running, []⟩) (queue : connection.amQueue = event :: rest)
      (handled : worker.handleEvent overflowChecks order event = .returned none) :
      Moved overflowChecks setup connection (.amReceive order)
        { connection with amQueue := rest, am := ⟨.ended, []⟩ }
  | amRefuses (order : List Uuid) (worker : ActiveMessageRouting.ConnectionWorker Uuid Who)
      (event : Event Bytes) (rest : List (Event Bytes)) (message : String)
      (registered : setup.am = some worker) (idle : connection.am = ⟨.running, []⟩)
      (queue : connection.amQueue = event :: rest)
      (refused : worker.handleEvent overflowChecks order event = .panicked message) :
      Moved overflowChecks setup connection (.amReceive order)
        { connection with amQueue := rest, am := ⟨.panicked message, []⟩ }
  | amSend (sending : Who × Event Message) (rest : List (Who × Event Message))
      (busy : connection.am = ⟨.running, sending :: rest⟩)
      (channel : .receiver sending.1 ∉ connection.dropped) :
      Moved overflowChecks setup connection .amSend
        { connection with
          am := ⟨.running, rest⟩
          received := send connection.received sending }
  | amFails (sending : Who × Event Message) (rest : List (Who × Event Message))
      (busy : connection.am = ⟨.running, sending :: rest⟩)
      (closed : .receiver sending.1 ∈ connection.dropped) :
      Moved overflowChecks setup connection .amSend
        { connection with am := ⟨unwrapFailed, []⟩ }
  | dispatcherReceive (byte : UInt8) (event packet : Event Bytes) (rest : List (Event Bytes))
      (runs : connection.dispatchers byte = .running) (free : connection.hands byte = none)
      (queue : connection.downward byte = event :: rest)
      (handled : (DispatcherWorker.mk byte).handleData event = .returned packet) :
      Moved overflowChecks setup connection (.dispatcherReceive byte)
        { connection with
          downward := Function.update connection.downward byte rest
          hands := Function.update connection.hands byte (some packet) }
  | dispatcherRefuses (byte : UInt8) (event : Event Bytes) (rest : List (Event Bytes))
      (message : String) (runs : connection.dispatchers byte = .running)
      (free : connection.hands byte = none) (queue : connection.downward byte = event :: rest)
      (refused : (DispatcherWorker.mk byte).handleData event = .panicked message) :
      Moved overflowChecks setup connection (.dispatcherReceive byte)
        { connection with
          downward := Function.update connection.downward byte rest
          dispatchers := Function.update connection.dispatchers byte (.panicked message) }
  | dispatcherSend (byte : UInt8) (packet : Event Bytes)
      (runs : connection.dispatchers byte = .running)
      (full : connection.hands byte = some packet)
      (transport : connection.transport = .running) :
      Moved overflowChecks setup connection (.dispatcherSend byte)
        { connection with
          hands := Function.update connection.hands byte none
          toTransport := connection.toTransport ++ [packet] }
  | dispatcherFails (byte : UInt8) (packet : Event Bytes)
      (runs : connection.dispatchers byte = .running)
      (full : connection.hands byte = some packet)
      (gone : connection.transport ≠ .running) :
      Moved overflowChecks setup connection (.dispatcherSend byte)
        { connection with
          hands := Function.update connection.hands byte none
          dispatchers := Function.update connection.dispatchers byte unwrapFailed }
  | dispatcherHangUp (byte : UInt8) (runs : connection.dispatchers byte = .running)
      (free : connection.hands byte = none) (queue : connection.downward byte = []) :
      Moved overflowChecks setup connection (.dispatcherHangUp byte)
        (connection.dispatcherEnd byte)
  | dispatcherStop (byte : UInt8) (runs : connection.dispatchers byte = .running)
      (free : connection.hands byte = none) (phase : connection.phase = .signalled) :
      Moved overflowChecks setup connection (.dispatcherStop byte)
        (connection.dispatcherEnd byte)
  | stop (phase : connection.phase = .running) :
      Moved overflowChecks setup connection .stop
        { connection with
          phase := .stoppingTransport
          toTransport := connection.toTransport ++ [.stop] }
  | transportEnd (phase : connection.phase = .stoppingTransport)
      (transport : connection.transport = .running) :
      Moved overflowChecks setup connection .transportEnd
        { connection with transport := .ended }
  | transportJoined (order : List UInt8) (phase : connection.phase = .stoppingTransport)
      (gone : connection.transport ≠ .running) :
      Moved overflowChecks setup connection (.transportJoined order)
        { connection with phase := .stoppingDispatchers order }
  | callStopper (byte : UInt8) (rest : List UInt8)
      (phase : connection.phase = .stoppingDispatchers (byte :: rest)) :
      Moved overflowChecks setup connection .callStopper
        { connection with phase := .stoppingDispatchers rest }
  | callAmStopper (byte : UInt8) (rest : List UInt8)
      (phase : connection.phase = .stoppingDispatchers (byte :: rest))
      (runs : connection.am.life = .running) :
      Moved overflowChecks setup connection .callStopper
        { connection with
          phase := .joiningDispatcher rest
          amQueue := connection.amQueue ++ [.stop] }
  | amJoined (rest : List UInt8) (phase : connection.phase = .joiningDispatcher rest)
      (gone : connection.am.life ≠ .running) :
      Moved overflowChecks setup connection .amJoined
        { connection with phase := .stoppingDispatchers rest }
  | signal (phase : connection.phase = .stoppingDispatchers []) :
      Moved overflowChecks setup connection .signal { connection with phase := .signalled }
  | joined (phase : connection.phase = .signalled)
      (gone : connection.worker.life ≠ .running) :
      Moved overflowChecks setup connection .joined { connection with phase := .stopped }

variable {overflowChecks : Bool} {setup : Dispatchers Uuid Who} {connection next : Connection Who}

theorem worker_receive_cases {order : List UInt8}
    (taken : connection.workerReceive setup order = some next) :
    Moved overflowChecks setup connection (.workerReceive order) next := by
  unfold Connection.workerReceive at taken
  split at taken
  · rename_i event rest idle queue
    split_ifs at taken with complete
    dsimp only at taken
    split at taken
    · rename_i sends handled
      cases taken
      exact .workerReceive order event rest sends idle queue complete handled
    · rename_i message refused
      cases taken
      exact .workerRefuses order event rest message idle queue complete refused
  · cases taken

theorem worker_send_cases (taken : connection.workerSend setup = some next) :
    Moved overflowChecks setup connection .workerSend next := by
  unfold Connection.workerSend at taken
  split at taken
  · rename_i sending rest busy
    split_ifs at taken with channel
    · cases taken
      exact .workerSend sending rest busy channel
    · cases taken
      exact .workerFails sending rest busy (Bool.not_eq_true _ ▸ channel)
  · cases taken

theorem am_receive_cases {order : List Uuid}
    (taken : connection.amReceive overflowChecks setup order = some next) :
    Moved overflowChecks setup connection (.amReceive order) next := by
  unfold Connection.amReceive at taken
  split at taken
  · rename_i worker event rest registered idle queue
    split_ifs at taken
    dsimp only at taken
    split at taken
    · rename_i sends handled
      cases taken
      exact .amReceive order worker event rest sends registered idle queue handled
    · rename_i handled
      cases taken
      exact .amEnds order worker event rest registered idle queue handled
    · rename_i message refused
      cases taken
      exact .amRefuses order worker event rest message registered idle queue refused
  · cases taken

theorem am_send_cases (taken : connection.amSend = some next) :
    Moved overflowChecks setup connection .amSend next := by
  unfold Connection.amSend at taken
  split at taken
  · rename_i sending rest busy
    split_ifs at taken with closed
    · cases taken
      exact .amFails sending rest busy closed
    · cases taken
      exact .amSend sending rest busy closed
  · cases taken

theorem dispatcher_receive_cases {byte : UInt8}
    (taken : connection.dispatcherReceive byte = some next) :
    Moved overflowChecks setup connection (.dispatcherReceive byte) next := by
  unfold Connection.dispatcherReceive at taken
  split at taken
  · rename_i event rest runs free queue
    dsimp only at taken
    split at taken
    · rename_i packet handled
      cases taken
      exact .dispatcherReceive byte event packet rest runs free queue handled
    · rename_i message refused
      cases taken
      exact .dispatcherRefuses byte event rest message runs free queue refused
  · cases taken

theorem dispatcher_send_cases {byte : UInt8}
    (taken : connection.dispatcherSend byte = some next) :
    Moved overflowChecks setup connection (.dispatcherSend byte) next := by
  unfold Connection.dispatcherSend at taken
  split at taken
  · rename_i packet runs full
    dsimp only at taken
    split_ifs at taken with transport
    · cases taken
      exact .dispatcherSend byte packet runs full transport
    · cases taken
      exact .dispatcherFails byte packet runs full transport
  · cases taken

theorem call_stopper_cases (taken : connection.callStopper setup = some next) :
    Moved overflowChecks setup connection .callStopper next := by
  unfold Connection.callStopper at taken
  split at taken
  · rename_i byte rest phase
    split_ifs at taken with serves
    · cases taken
      exact .callAmStopper byte rest phase serves.2
    · cases taken
      exact .callStopper byte rest phase
  · cases taken

theorem moved_of_step {label : Label Uuid Who}
    (taken : connection.step overflowChecks setup label = some next) :
    Moved overflowChecks setup connection label next := by
  have idle (runs : connection.worker.life = .running) (empty : connection.worker.outbox = []) :
      connection.worker = ⟨.running, []⟩ := by
    rw [← runs, ← empty]
  cases label with
  | userData byte payload =>
      simp only [Connection.step] at taken
      split_ifs at taken with allowed
      cases taken
      exact .userData byte payload allowed.1 allowed.2
  | userDrop consumer =>
      cases taken
      exact .userDrop consumer
  | transportSend event =>
      simp only [Connection.step] at taken
      split_ifs at taken with ended runs transport
      · cases taken
        exact .transportSend event ended runs
      · cases taken
        exact .transportFails event transport runs
  | transportReceive =>
      simp only [Connection.step] at taken
      split at taken
      · rename_i event rest transport queue
        cases taken
        exact .transportReceive event rest transport queue
      · cases taken
  | transportPanic message =>
      simp only [Connection.step] at taken
      split_ifs at taken with transport
      cases taken
      exact .transportPanic message transport
  | workerReceive order => exact worker_receive_cases taken
  | workerSend => exact worker_send_cases taken
  | workerHangUp =>
      simp only [Connection.step] at taken
      split_ifs at taken with allowed
      cases taken
      exact .workerHangUp (idle allowed.1 allowed.2.1) allowed.2.2.1 allowed.2.2.2
  | workerStop =>
      simp only [Connection.step] at taken
      split_ifs at taken with allowed
      cases taken
      exact .workerStop (idle allowed.1 allowed.2.1) allowed.2.2
  | amReceive order => exact am_receive_cases taken
  | amSend => exact am_send_cases taken
  | dispatcherReceive byte => exact dispatcher_receive_cases taken
  | dispatcherSend byte => exact dispatcher_send_cases taken
  | dispatcherHangUp byte =>
      simp only [Connection.step] at taken
      split_ifs at taken with allowed
      cases taken
      exact .dispatcherHangUp byte allowed.1 allowed.2.1 allowed.2.2
  | dispatcherStop byte =>
      simp only [Connection.step] at taken
      split_ifs at taken with allowed
      cases taken
      exact .dispatcherStop byte allowed.1 allowed.2.1 allowed.2.2
  | stop =>
      simp only [Connection.step] at taken
      split_ifs at taken with phase
      cases taken
      exact .stop phase
  | transportEnd =>
      simp only [Connection.step] at taken
      split_ifs at taken with allowed
      cases taken
      exact .transportEnd allowed.1 allowed.2
  | transportJoined order =>
      simp only [Connection.step] at taken
      split_ifs at taken with allowed
      cases taken
      exact .transportJoined order allowed.1 allowed.2.1
  | callStopper => exact call_stopper_cases taken
  | amJoined =>
      simp only [Connection.step] at taken
      split at taken
      · cases taken
      · rename_i rest phase gone
        cases taken
        exact .amJoined rest phase gone
      · cases taken
  | signal =>
      simp only [Connection.step] at taken
      split_ifs at taken with phase
      cases taken
      exact .signal phase
  | joined =>
      simp only [Connection.step] at taken
      split_ifs at taken with allowed
      cases taken
      exact .joined allowed.1 allowed.2.1

end Moves

section Queues

theorem only_data_append {queue : List (Event Bytes)}
    (only : ∀ event ∈ queue, ∃ payload, event = .data payload) (payload : Bytes) :
    ∀ event ∈ queue ++ [.data payload], ∃ payload, event = .data payload := by
  intro event member
  rcases List.mem_append.mp member with earlier | new
  · exact only event earlier
  · exact ⟨payload, List.mem_singleton.mp new⟩

theorem only_data_update {downward : UInt8 → List (Event Bytes)} {byte : UInt8}
    {queue : List (Event Bytes)} (own : ∀ event ∈ queue, ∃ payload, event = .data payload)
    (others : ∀ byte, ∀ event ∈ downward byte, ∃ payload, event = .data payload) :
    ∀ other, ∀ event ∈ Function.update downward byte queue other,
      ∃ payload, event = .data payload :=
  (Function.forall_update_iff downward fun _ (queue : List (Event Bytes)) =>
    ∀ event ∈ queue, ∃ payload, event = .data payload).mpr ⟨own, fun other _ => others other⟩

end Queues

section Sends

variable {Uuid Who : Type} [DecidableEq Uuid] [DecidableEq Who] {overflowChecks : Bool}
  {setup : Dispatchers Uuid Who} {connection : Connection Who}

theorem worker_send_open {sending : UInt8 × Event Bytes} {rest : List (UInt8 × Event Bytes)}
    (busy : connection.worker = ⟨.running, sending :: rest⟩)
    (channel : connection.channelOpen setup sending.1 = true) :
    connection.step overflowChecks setup .workerSend = some { connection with
      worker := ⟨.running, rest⟩
      upward := send connection.upward sending
      amQueue := connection.passOn setup sending } := by
  simp only [Connection.step, Connection.workerSend]
  split
  · rename_i first others same
    rw [busy] at same
    cases same
    exact if_pos channel
  · rename_i different
    exact absurd busy (different _ _)

theorem worker_send_closed {sending : UInt8 × Event Bytes} {rest : List (UInt8 × Event Bytes)}
    (busy : connection.worker = ⟨.running, sending :: rest⟩)
    (closed : connection.channelOpen setup sending.1 = false) :
    connection.step overflowChecks setup .workerSend =
      some { connection with worker := ⟨unwrapFailed, []⟩ } := by
  simp only [Connection.step, Connection.workerSend]
  split
  · rename_i first others same
    rw [busy] at same
    cases same
    exact if_neg (Bool.eq_false_iff.mp closed)
  · rename_i different
    exact absurd busy (different _ _)

theorem am_send_open {sending : Who × Event Message} {rest : List (Who × Event Message)}
    (busy : connection.am = ⟨.running, sending :: rest⟩)
    (channel : .receiver sending.1 ∉ connection.dropped) :
    connection.step overflowChecks setup .amSend = some { connection with
      am := ⟨.running, rest⟩
      received := send connection.received sending } := by
  simp only [Connection.step, Connection.amSend, busy]
  exact if_pos channel

theorem am_send_closed {sending : Who × Event Message} {rest : List (Who × Event Message)}
    (busy : connection.am = ⟨.running, sending :: rest⟩)
    (closed : .receiver sending.1 ∈ connection.dropped) :
    connection.step overflowChecks setup .amSend =
      some { connection with am := ⟨unwrapFailed, []⟩ } := by
  simp only [Connection.step, Connection.amSend, busy]
  exact if_neg (not_not.mpr closed)

end Sends

end MoteConnection.ConnectionThreads
