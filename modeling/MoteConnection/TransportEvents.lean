import MoteConnection.ConnectionEvents
import MoteConnection.ForwarderTransport
import MoteConnection.SerialTransport

/-!
# The sessions that the two transports report

Both transports announce the end of a session before they join its read thread,
which may hand up data until then; the serial-forwarder transport also
announces the end of a session that never began. Apart from that their events
are those of one session after the other, as long as streams and ports can be
shut down and cloned and threads spawned.
-/

namespace MoteConnection.TransportEvents

open LabeledRuns
open MoteConnection.Runtime MoteConnection.ConnectionEvents

set_option autoImplicit false

section SerialForwarder

open MoteConnection.ForwarderTransport

variable {forwarder next : Forwarder}

/-- No handshake fails, and no packet is handed up between the announcement of the end of a session
and the end of its read thread. -/
def ForwarderOrderly (forwarder : Forwarder) : Label → Prop
  | .handshake accepted => accepted = true
  | .read (some data) => data = [] ∨ forwarder.position ≠ .joining
  | _ => True

instance (forwarder : Forwarder) : (label : Label) → Decidable (ForwarderOrderly forwarder label)
  | .handshake accepted => inferInstanceAs (Decidable (accepted = true))
  | .read (some data) => inferInstanceAs (Decidable (data = [] ∨ forwarder.position ≠ .joining))
  | .userData _ | .userStop | .connect _ | .receive | .write _ | .shutdown | .announce | .join
  | .drain | .timeUp | .read none | .post => .isTrue trivial

/-- Where the events stand, by the place of the write thread. -/
def ForwarderPlaced (forwarder : Forwarder) : Prop :=
  match forwarder.position with
  | .serving | .writing _ | .shuttingDown | .announcing =>
      status forwarder.upward = some .inside
  | .joining => status forwarder.upward = some .outside
  | .connecting | .handshaking | .draining | .finished =>
      status forwarder.upward = some .outside ∧ forwarder.reader = .absent
  | .panicked _ =>
      status forwarder.upward = some .inside ∨
        status forwarder.upward = some .outside ∧ forwarder.reader = .absent

theorem forwarder_placed_fresh : ForwarderPlaced .fresh := ⟨rfl, rfl⟩

theorem ForwarderPlaced.well_formed (placed : ForwarderPlaced forwarder) :
    WellFormed forwarder.upward := by
  rw [well_formed_iff]
  cases place : forwarder.position with
  | serving | writing | shuttingDown | announcing | joining =>
      simp only [ForwarderPlaced, place] at placed
      rw [placed]
      rfl
  | connecting | handshaking | draining | finished =>
      simp only [ForwarderPlaced, place] at placed
      rw [placed.1]
      rfl
  | panicked message =>
      simp only [ForwarderPlaced, place] at placed
      rcases placed with inside | outside
      · rw [inside]
        rfl
      · rw [outside.1]
        rfl

theorem ForwarderPlaced.inside (placed : ForwarderPlaced forwarder)
    (session : forwarder.InSession) : status forwarder.upward = some .inside := by
  rcases session with place | ⟨bytes, place⟩ <;>
  · simp only [ForwarderPlaced, place] at placed
    exact placed

theorem forwarder_placed_serve (forwarder : Forwarder) (placed : ForwarderPlaced forwarder)
    (place : forwarder.position = .serving) (event : Event Bytes) (poster : Option Nat) :
    ForwarderPlaced (forwarder.serve event poster) := by
  have inside := placed.inside (.inl place)
  cases event with
  | data data =>
      simp only [Forwarder.serve]
      split
      · exact inside
      · exact placed
  | disconnected => exact inside
  | stop => exact inside
  | connected => exact .inl inside
  | error => exact .inl inside

theorem forwarder_placed_drop (forwarder : Forwarder) (placed : ForwarderPlaced forwarder)
    (place : forwarder.position = .draining) (event : Event Bytes) :
    ForwarderPlaced (forwarder.drop event) := by
  have outside : status forwarder.upward = some .outside ∧ forwarder.reader = .absent := by
    simp only [ForwarderPlaced, place] at placed
    exact placed
  cases event with
  | data data => exact placed
  | stop => exact outside
  | disconnected => exact .inr outside
  | connected => exact .inr outside
  | error => exact .inr outside

/-- A read thread that still reads belongs to a session whose end may have been announced. -/
theorem ForwarderPlaced.reading (placed : ForwarderPlaced forwarder)
    (reader : forwarder.reader = .reading) :
    forwarder.position = .joining ∧ status forwarder.upward = some .outside ∨
      forwarder.position ≠ .joining ∧ status forwarder.upward = some .inside := by
  cases place : forwarder.position with
  | serving | writing | shuttingDown | announcing =>
      simp only [ForwarderPlaced, place] at placed
      exact .inr ⟨by simp, placed⟩
  | joining =>
      simp only [ForwarderPlaced, place] at placed
      exact .inl ⟨rfl, placed⟩
  | connecting | handshaking | draining | finished =>
      simp [ForwarderPlaced, place, reader] at placed
  | panicked message =>
      simp only [ForwarderPlaced, place, reader] at placed
      rcases placed with inside | ⟨_, absent⟩
      · exact .inr ⟨by simp, inside⟩
      · cases absent

theorem ForwarderPlaced.reader_moves (placed : ForwarderPlaced forwarder) {reader : Reader}
    (present : forwarder.reader ≠ .absent) (upward : List (Event Bytes))
    (same : status upward = status forwarder.upward)
    (queue : List (Event Bytes × Option Nat)) (posted : List Nat) :
    ForwarderPlaced { forwarder with
      reader := reader
      upward := upward
      queue := queue
      posted := posted } := by
  unfold ForwarderPlaced at placed ⊢
  simp only [same]
  cases place : forwarder.position with
  | serving | writing | shuttingDown | announcing | joining =>
      rw [place] at placed
      exact placed
  | connecting | handshaking | draining | finished =>
      rw [place] at placed
      exact absurd placed.2 present
  | panicked message =>
      rw [place] at placed
      exact .inl (placed.resolve_right fun outside => present outside.2)

theorem forwarder_placed_step (forwarder : Forwarder) (label : Label) (next : Forwarder)
    (orderly : ForwarderOrderly forwarder label) (placed : ForwarderPlaced forwarder)
    (taken : forwarder.step label = some next) : ForwarderPlaced next := by
  have before := placed
  cases moved_of_step taken with
  | userData data => exact placed
  | userStop => exact placed
  | receive event poster rest place queue =>
      exact forwarder_placed_serve { forwarder with queue := rest } placed place event poster
  | drain event poster rest place queue =>
      exact forwarder_placed_drop { forwarder with queue := rest } placed place event
  | connected place | connectFails place | written _ place | writeFails _ _ place
  | shutdown place | timeUp place =>
      simp only [ForwarderPlaced, place] at before
      exact before
  | established place =>
      simp only [ForwarderPlaced, place] at before
      simp only [ForwarderPlaced, status_append, before.1]
      rfl
  | handshakeFails place => cases orderly
  | announce place =>
      simp only [ForwarderPlaced, place] at before
      simp only [ForwarderPlaced, status_append, before]
      rfl
  | finish place stopped | join place running =>
      simp only [ForwarderPlaced, place] at before
      exact ⟨before, rfl⟩
  | read data reading =>
      have present : forwarder.reader ≠ .absent := by simp [reading]
      refine placed.reader_moves present _ ?_ forwarder.queue forwarder.posted
      rcases orderly with rfl | notJoining
      · simp
      · have inside := (placed.reading reading).resolve_left fun joining => notJoining joining.1
        cases data with
        | nil => simp
        | cons byte rest =>
            rw [List.isEmpty_cons, if_neg Bool.false_ne_true, status_append, inside.2]
            rfl
  | readFails reading =>
      exact placed.reader_moves (by simp [reading]) forwarder.upward rfl forwarder.queue
        forwarder.posted
  | post posting =>
      exact placed.reader_moves (by simp [posting]) forwarder.upward rfl _ _

theorem forwarder_upward_grows {label : Label} (taken : forwarder.step label = some next) :
    ∃ later, next.upward = forwarder.upward ++ later := by
  cases moved_of_step taken with
  | established place | handshakeFails place | announce place | read data reading => exact ⟨_, rfl⟩
  | receive event poster rest place queue => exact ⟨[], by rw [serve_upward, List.append_nil]⟩
  | drain event poster rest place queue => exact ⟨[], by rw [drop_upward, List.append_nil]⟩
  | _ => exact ⟨[], (List.append_nil _).symm⟩

theorem forwarder_disorder {label : Label} (disorderly : ¬ ForwarderOrderly forwarder label)
    (placed : ForwarderPlaced forwarder) (taken : forwarder.step label = some next) :
    ¬ WellFormed next.upward := by
  rw [well_formed_iff]
  cases moved_of_step taken with
  | handshakeFails place =>
      simp only [ForwarderPlaced, place] at placed
      rw [status_append, placed.1]
      simp [follow]
  | read data reading =>
      simp only [ForwarderOrderly, not_or, not_not] at disorderly
      have outside := (placed.reading reading).resolve_right fun other => other.1 disorderly.2
      cases data with
      | nil => exact absurd rfl disorderly.1
      | cons byte rest =>
          rw [List.isEmpty_cons, if_neg Bool.false_ne_true, status_append, outside.2]
          simp [follow]
  | established place => exact absurd rfl disorderly
  | _ => exact absurd trivial disorderly

theorem forwarder_well_formed_iff {labels : List Label} {last : Forwarder}
    (reached : run Forwarder.step .fresh labels = some last) :
    WellFormed last.upward ↔ Meets Forwarder.step ForwarderOrderly .fresh labels := by
  apply holds_iff_meets ForwarderOrderly ForwarderPlaced
    (fun forwarder => WellFormed forwarder.upward) forwarder_placed_step _ _ _
    forwarder_placed_fresh reached
  · intro forwarder placed
    exact placed.well_formed
  · intro forwarder label next disorderly placed taken
    exact forwarder_disorder disorderly placed taken
  · intro forwarder label next broken taken
    obtain ⟨later, grown⟩ := forwarder_upward_grows taken
    rw [grown]
    exact not_well_formed_append broken

end SerialForwarder

section Serial

open MoteConnection.SerialReceiving MoteConnection.SerialTransport

variable {transport next : Transport}

def handsUp : Reader → Bool
  | .handling _ (.sendTx _ :: _) => true
  | _ => false

/-- No packet is handed up between the announcement of the end of a session and the end of its read
thread. -/
def SerialOrderly (transport : Transport) : Label → Prop
  | .access => handsUp transport.reader = false ∨ transport.position ≠ .joining
  | _ => True

instance (transport : Transport) : (label : Label) → Decidable (SerialOrderly transport label)
  | .access => inferInstanceAs
      (Decidable (handsUp transport.reader = false ∨ transport.position ≠ .joining))
  | .userData _ | .userStop | .openPort _ | .receive | .work _ | .signal | .announce | .join
  | .drain | .timeUp | .read _ | .handle _ | .check => .isTrue trivial

def Quiet (transport : Transport) : Prop :=
  transport.reader = .absent ∨ transport.reader = .ended ∨
    ∃ message, transport.reader = .panicked message

def SerialPlaced (transport : Transport) : Prop :=
  match transport.position with
  | .serving | .signalling | .announcing => status transport.upward = some .inside
  | .connecting | .joining | .draining | .finished => status transport.upward = some .outside
  | .panicked _ =>
      status transport.upward = some .inside ∨
        status transport.upward = some .outside ∧ Quiet transport

structure SerialInv (transport : Transport) : Prop where
  regular : TransportInv transport
  placed : SerialPlaced transport

theorem serial_inv_fresh : SerialInv .fresh := ⟨transport_inv_fresh, rfl⟩

theorem SerialPlaced.well_formed (placed : SerialPlaced transport) :
    WellFormed transport.upward := by
  rw [well_formed_iff]
  cases place : transport.position with
  | panicked message =>
      simp only [SerialPlaced, place] at placed
      rcases placed with inside | outside
      · rw [inside]
        rfl
      · rw [outside.1]
        rfl
  | _ =>
      simp only [SerialPlaced, place] at placed
      rw [placed]
      rfl

/-- A read thread with work to do belongs to a session whose end may have been announced. -/
theorem SerialInv.handling (inv : SerialInv transport) (working : ¬ Quiet transport) :
    transport.position = .joining ∧ status transport.upward = some .outside ∨
      transport.position ≠ .joining ∧ status transport.upward = some .inside := by
  have placed := inv.placed
  cases place : transport.position with
  | serving | signalling | announcing =>
      simp only [SerialPlaced, place] at placed
      exact .inr ⟨by simp, placed⟩
  | joining =>
      simp only [SerialPlaced, place] at placed
      exact .inl ⟨rfl, placed⟩
  | connecting => exact absurd (.inl (inv.regular.idle (.inl place))) working
  | draining => exact absurd (.inl (inv.regular.idle (.inr (.inl place)))) working
  | finished => exact absurd (.inl (inv.regular.idle (.inr (.inr place)))) working
  | panicked message =>
      simp only [SerialPlaced, place] at placed
      exact .inr ⟨by simp, placed.resolve_right fun outside => working outside.2⟩

theorem SerialInv.reader_moves (inv : SerialInv transport) (working : ¬ Quiet transport)
    {other : Transport} (position : other.position = transport.position)
    (upward : status other.upward = status transport.upward) : SerialPlaced other := by
  have placed := inv.placed
  unfold SerialPlaced at placed ⊢
  rw [position, upward]
  cases place : transport.position with
  | panicked message =>
      rw [place] at placed
      exact .inl (placed.resolve_right fun outside => working outside.2)
  | _ =>
      rw [place] at placed
      exact placed

theorem serial_placed_continue (transport : Transport) (worker : SerialSending.ConnectionWorker)
    (place : transport.position = .serving) (inside : status transport.upward = some .inside) :
    SerialPlaced (transport.continueWith worker) := by
  unfold Transport.continueWith
  split
  · exact inside
  · exact .inl inside
  · simp only [SerialPlaced, place]
    exact inside

theorem serial_placed_drop (transport : Transport) (event : Event Bytes)
    (place : transport.position = .draining) (absent : transport.reader = .absent)
    (outside : status transport.upward = some .outside) :
    SerialPlaced (transport.drop event) := by
  cases event with
  | data data =>
      simp only [SerialPlaced, Transport.drop, place]
      exact outside
  | stop => exact outside
  | disconnected => exact .inr ⟨outside, .inl absent⟩
  | connected => exact .inr ⟨outside, .inl absent⟩
  | error => exact .inr ⟨outside, .inl absent⟩

theorem serial_inv_step (transport : Transport) (label : Label) (next : Transport)
    (orderly : SerialOrderly transport label) (inv : SerialInv transport)
    (taken : transport.step label = some next) : SerialInv next := by
  refine ⟨transport_inv_step transport label next inv.regular taken, ?_⟩
  have placed := inv.placed
  cases moved_of_step taken with
  | userData data => exact placed
  | userStop => exact placed
  | opened place =>
      simp only [SerialPlaced, place] at placed
      simp only [SerialPlaced, status_append, placed]
      rfl
  | openFails place | timeUp place =>
      simp only [SerialPlaced, place] at placed
      exact placed
  | receive event rest worker place queue moved =>
      simp only [SerialPlaced, place] at placed
      exact serial_placed_continue { transport with queue := rest } worker place placed
  | work action worker place enabled moved =>
      simp only [SerialPlaced, place] at placed
      exact serial_placed_continue { transport with
        port := transport.port ++ Transport.frameOf transport.worker action } worker place placed
  | signal place =>
      simp only [SerialPlaced, place] at placed
      unfold Transport.signalReader
      split
      · exact .inl placed
      · exact .inl placed
      · exact placed
  | announce place =>
      simp only [SerialPlaced, place] at placed
      simp only [SerialPlaced, status_append, placed]
      rfl
  | join place reader =>
      simp only [SerialPlaced, place] at placed
      unfold SerialPlaced
      simp only
      cases transport.stop with
      | true => exact placed
      | false => exact placed
  | joinPanics message place reader =>
      simp only [SerialPlaced, place] at placed
      exact .inr ⟨placed, .inr (.inr ⟨message, reader⟩)⟩
  | drain event rest place queue =>
      have absent := inv.regular.idle (.inr (.inl place))
      simp only [SerialPlaced, place] at placed
      exact serial_placed_drop { transport with queue := rest } event place absent placed
  | read result serialWorker packets reader | readFails serialWorker reader
  | stopped reader signal | notStopped reader =>
      exact inv.reader_moves (by simp [Quiet, reader]) rfl rfl
  | handle now data rest serialWorker accesses reader handled =>
      exact inv.reader_moves (by simp [Quiet, reader]) rfl rfl
  | handlePanics now message packets reader =>
      exact inv.reader_moves (by simp [Quiet, reader]) rfl rfl
  | access packets access rest reader =>
      have working : ¬ Quiet transport := by simp [Quiet, reader]
      have owed := inv.regular.owed packets (access :: rest) reader access List.mem_cons_self
      refine inv.reader_moves working (perform_position _ access) ?_
      rw [perform_upward]
      cases access with
      | sendLoopback event => rw [upwardOf, List.append_nil]
      | sendTx event =>
          obtain ⟨data, rfl⟩ := owed
          have notJoining := orderly.resolve_left (by simp [handsUp, reader])
          have inside := (inv.handling working).resolve_left
            fun joining => notJoining joining.1
          simp only [upwardOf, status_append, inside.2]
          rfl
      | removeUnacked seqNum => rw [upwardOf, List.append_nil]

theorem serial_upward_grows {label : Label} (taken : transport.step label = some next) :
    ∃ later, next.upward = transport.upward ++ later := by
  cases moved_of_step taken with
  | opened place | announce place => exact ⟨_, rfl⟩
  | receive event rest worker place queue moved =>
      exact ⟨[], by rw [continue_upward, List.append_nil]⟩
  | work action worker place enabled moved =>
      exact ⟨[], by rw [continue_upward, List.append_nil]⟩
  | signal place => exact ⟨[], by rw [signal_upward, List.append_nil]⟩
  | drain event rest place queue => exact ⟨[], by rw [drop_upward, List.append_nil]⟩
  | access packets access rest reader => exact ⟨_, perform_upward _ access⟩
  | _ => exact ⟨[], (List.append_nil _).symm⟩

theorem serial_disorder {label : Label} (disorderly : ¬ SerialOrderly transport label)
    (inv : SerialInv transport) (taken : transport.step label = some next) :
    ¬ WellFormed next.upward := by
  rw [well_formed_iff]
  cases moved_of_step taken with
  | access packets access rest reader =>
      have working : ¬ Quiet transport := by simp [Quiet, reader]
      have owed := inv.regular.owed packets (access :: rest) reader access List.mem_cons_self
      simp only [SerialOrderly, not_or, not_not] at disorderly
      have outside := (inv.handling working).resolve_right fun other => other.1 disorderly.2
      cases access with
      | sendTx event =>
          obtain ⟨data, rfl⟩ := owed
          simp only [Transport.perform, status_append, outside.2]
          simp [follow]
      | sendLoopback event => simp [handsUp, reader] at disorderly
      | removeUnacked seqNum => simp [handsUp, reader] at disorderly
  | _ => exact absurd trivial disorderly

theorem serial_well_formed_iff {labels : List Label} {last : Transport}
    (reached : run Transport.step .fresh labels = some last) :
    WellFormed last.upward ↔ Meets Transport.step SerialOrderly .fresh labels := by
  apply holds_iff_meets SerialOrderly SerialInv (fun transport => WellFormed transport.upward)
    serial_inv_step _ _ _ serial_inv_fresh reached
  · intro transport inv
    exact inv.placed.well_formed
  · intro transport label next disorderly inv taken
    exact serial_disorder disorderly inv taken
  · intro transport label next broken taken
    obtain ⟨later, grown⟩ := serial_upward_grows taken
    rw [grown]
    exact not_well_formed_append broken

end Serial

/-- The events of either transport are well formed in exactly those runs in which no handshake
fails, and no read thread hands up a packet after the end of its session was announced. -/
theorem events_well_formed_iff (forwarderLabels : List ForwarderTransport.Label)
    (serialLabels : List SerialTransport.Label) :
    (∀ last,
      run ForwarderTransport.Forwarder.step .fresh forwarderLabels = some last →
        (WellFormed last.upward ↔
          Meets ForwarderTransport.Forwarder.step ForwarderOrderly .fresh forwarderLabels)) ∧
    ∀ last,
      run SerialTransport.Transport.step .fresh serialLabels = some last →
        (WellFormed last.upward ↔
          Meets SerialTransport.Transport.step SerialOrderly .fresh serialLabels) :=
  ⟨fun _ reached => forwarder_well_formed_iff reached,
    fun _ reached => serial_well_formed_iff reached⟩

def stoppedSession : List SerialTransport.Label :=
  [.openPort true, .read .timedOut, .check, .userStop, .receive, .signal, .read .timedOut, .check,
    .announce, .join]

theorem orderly_sessions_well_formed :
    (∃ last, run ForwarderTransport.Forwarder.step .fresh ForwarderTransport.twoSessions =
      some last ∧ WellFormed last.upward) ∧
    ∃ last, run SerialTransport.Transport.step .fresh stoppedSession = some last ∧
      WellFormed last.upward := by
  have forwarderReached : run ForwarderTransport.Forwarder.step .fresh
      ForwarderTransport.twoSessions = some _ := rfl
  have serialReached : run SerialTransport.Transport.step .fresh stoppedSession = some _ := rfl
  have exactly := events_well_formed_iff ForwarderTransport.twoSessions stoppedSession
  exact ⟨⟨_, forwarderReached, (exactly.1 _ forwarderReached).mpr (by decide)⟩,
    ⟨_, serialReached, (exactly.2 _ serialReached).mpr (by decide)⟩⟩

/-- A handshake that fails is reported as two ends of a session that never began. -/
theorem failed_handshake_malformed :
    ¬ ∀ labels last,
      run ForwarderTransport.Forwarder.step .fresh labels = some last →
        WellFormed last.upward := by
  intro all
  have reached : run ForwarderTransport.Forwarder.step .fresh
      [.connect true, .handshake false, .shutdown, .announce] = some _ := rfl
  have wellFormed := all _ _ reached
  revert wellFormed
  decide

/-- A packet that the read thread has read before the end of its session and hands up after it. -/
example : (run ForwarderTransport.Forwarder.step .fresh
    [.connect true, .handshake true, .userStop, .receive, .shutdown, .announce,
      .read (some [0x2A])]).map (·.upward) =
        some [.connected, .disconnected, .data [0x2A]] := by
  decide

example : ((run SerialTransport.Transport.step .fresh
    [.openPort true, .userStop, .receive, .signal,
      .read (.received [0x7E, 0x45, 0x2A, 0x11, 0x77, 0x7E]),
      .announce, .handle 0, .access]).map (·.upward)) =
        some [.connected, .disconnected, .data [0x2A]] := by
  decide +kernel

end MoteConnection.TransportEvents
