import MoteConnection.SerialTransport

/-!
# A serial port that fails

What ends the write thread: a port write that fails anywhere in a session, a
read thread that is gone when the write thread tells it to end, and a read
thread that panicked. A read that fails while a session is served is not
noticed: the session goes on, and cannot be ended any more. Until one of these
happens the sessions end in an orderly way, whatever else the port and the
users do.
-/

namespace MoteConnection.SerialPortFailure

open LabeledRuns
open MoteConnection.Runtime MoteConnection.SerialTransport
open MoteConnection.SerialReceiving (SharedAccess)

set_option autoImplicit false

/-- The read thread has returned or panicked, and dropped the receiver of its stop channel. -/
def exited : Reader → Bool
  | .ended | .panicked _ => true
  | _ => false

def hasPanicked : Reader → Bool
  | .panicked _ => true
  | _ => false

/-- No port write fails, the read thread is there to be told to end, and it has not panicked when it
is joined. -/
def Survives (transport : Transport) : Label → Prop
  | .work (.write accepted) => accepted = true
  | .signal => exited transport.reader = false
  | .join => hasPanicked transport.reader = false
  | _ => True

instance (transport : Transport) : (label : Label) → Decidable (Survives transport label)
  | .work (.write accepted) => inferInstanceAs (Decidable (accepted = true))
  | .signal => inferInstanceAs (Decidable (exited transport.reader = false))
  | .join => inferInstanceAs (Decidable (hasPanicked transport.reader = false))
  | .work (.receive _) | .work .timeout | .work .hangUp | .work .mark | .work .bump
  | .work (.collect _) | .work .loop | .userData _ | .userStop | .openPort _ | .receive
  | .announce | .drain | .timeUp | .read _ | .handle _ | .access | .check => .isTrue trivial

def served : Position → Bool
  | .serving | .signalling => true
  | _ => false

/-- No port read fails before the read thread is told to end. -/
def ReadsWhileServed (transport : Transport) : Label → Prop
  | .read .failed => served transport.position = false
  | _ => True

instance (transport : Transport) : (label : Label) →
    Decidable (ReadsWhileServed transport label)
  | .read .failed => inferInstanceAs (Decidable (served transport.position = false))
  | .read (.received _) | .read .timedOut | .work _ | .signal | .join | .userData _ | .userStop
  | .openPort _ | .receive | .announce | .drain | .timeUp | .handle _ | .access | .check =>
      .isTrue trivial

def Intact (transport : Transport) (label : Label) : Prop :=
  Survives transport label ∧ ReadsWhileServed transport label

instance (transport : Transport) (label : Label) : Decidable (Intact transport label) :=
  inferInstanceAs (Decidable (_ ∧ _))

def ofWriteThread : Label → Bool
  | .userData _ | .userStop | .read _ | .handle _ | .access | .check => false
  | _ => true

/-- The write thread can end its session by itself: every `Connected` has its `Disconnected`, and
the thread goes on to connect again, or finishes after a `Stop`. -/
def CanEnd (transport : Transport) : Prop :=
  ∃ labels later, (∀ label ∈ labels, ofWriteThread label = true) ∧
    run Transport.step transport labels = some later ∧
    later.upward.count .connected = later.upward.count .disconnected ∧
    (later.position = .connecting ∨ later.position = .finished ∧ later.stopSent = true)

/-- `Connected` has been sent for a session, and `Disconnected` has not. -/
def inSession : Position → Bool
  | .serving | .signalling | .announcing => true
  | _ => false

/-- The write thread has not panicked, every session it is done with has had its `Disconnected`, it
has not given up reconnecting without a `Stop`, and a session whose read thread has left comes to
its end. -/
structure EndsCleanly (transport : Transport) : Prop where
  running : ∀ message, transport.position ≠ .panicked message
  ends : transport.reader = .ended → CanEnd transport
  announced : transport.upward.count .connected =
    transport.upward.count .disconnected + if inSession transport.position then 1 else 0
  reconnects : transport.position = .finished → transport.stopSent = true

/-- The bookkeeping of notices and of the one `Stop`, which a panic ends. -/
structure SessionInv (transport : Transport) : Prop where
  regular : TransportInv transport
  announced : ¬ transport.hungUp = true → transport.upward.count .connected =
    transport.upward.count .disconnected + if inSession transport.position then 1 else 0
  requested : .stop ∈ transport.queue ∨ transport.stop = true → transport.stopSent = true

variable {transport next : Transport}

theorem session_inv_fresh : SessionInv .fresh where
  regular := transport_inv_fresh
  announced := fun _ => rfl
  requested := by
    rintro (member | stop)
    · cases member
    · cases stop

theorem hung_up_iff :
    transport.hungUp = true ↔ ∃ message, transport.position = .panicked message := by
  unfold Transport.hungUp
  split
  · rename_i message place
    exact iff_of_true rfl ⟨message, place⟩
  · rename_i other
    exact iff_of_false (by simp) fun ⟨message, place⟩ => other message place

/-- Nothing is left of the write thread after a panic but its place. -/
theorem hung_up_permanent {label : Label} (hungUp : transport.hungUp = true)
    (taken : transport.step label = some next) : next.hungUp = true := by
  obtain ⟨message, dead⟩ := hung_up_iff.mp hungUp
  have stays (other : Transport) (same : other.position = transport.position) :
      other.hungUp = true := hung_up_iff.mpr ⟨message, same.trans dead⟩
  cases moved_of_step taken with
  | opened place | openFails place | receive _ _ _ place | work _ _ place | signal place
  | announce place | join place | joinPanics _ place | drain _ _ place | timeUp place =>
      rw [dead] at place
      cases place
  | access packets access rest reader => exact stays _ (perform_position _ access)
  | _ => exact stays _ rfl

/-- The write thread panics in the steps that the condition excludes and in no others. -/
theorem panics_iff {label : Label} (inv : TransportInv transport)
    (running : ¬ transport.hungUp = true) (taken : transport.step label = some next) :
    next.hungUp = true ↔ ¬ Survives transport label := by
  have alive (other : Transport) (found : ∀ message, other.position ≠ .panicked message)
      (survives : Survives transport label) : other.hungUp = true ↔ ¬ Survives transport label := by
    refine iff_of_false ?_ (not_not.mpr survives)
    rw [hung_up_iff]
    rintro ⟨message, dead⟩
    exact found message dead
  have goesOn (other : Transport) (same : other.position = transport.position)
      (survives : Survives transport label) : other.hungUp = true ↔ ¬ Survives transport label := by
    apply alive other _ survives
    intro message dead
    exact running (hung_up_iff.mpr ⟨message, same.symm.trans dead⟩)
  cases moved_of_step taken with
  | opened place | openFails place | announce place | timeUp place =>
      exact alive _ (by simp) trivial
  | receive event rest worker place queue moved =>
      obtain ⟨kind, _⟩ := inv.taken queue
      rcases kind with rfl | ⟨data, rfl⟩
      · rw [receive_stop moved]
        exact alive _ (by simp [Transport.continueWith]) trivial
      · rw [continue_with_running (receive_data moved).1]
        exact goesOn _ rfl trivial
  | work action worker place enabled moved =>
      obtain ⟨_, goesOnUnless, fails⟩ := inv.worked enabled moved
      by_cases failing : action = .write false
      · obtain ⟨message, panicked⟩ := fails failing
        rw [failing, Transport.continueWith, panicked]
        exact iff_of_true rfl (by simp [Survives])
      · rw [continue_with_running (goesOnUnless failing)]
        refine goesOn _ rfl ?_
        cases action with
        | write accepted =>
            cases accepted with
            | true => rfl
            | false => exact absurd rfl failing
        | _ => trivial
  | signal place =>
      cases reader : transport.reader with
      | ended =>
          rw [Transport.signalReader, reader]
          exact iff_of_true rfl (by simp [Survives, exited, reader])
      | panicked message =>
          rw [Transport.signalReader, reader]
          exact iff_of_true rfl (by simp [Survives, exited, reader])
      | absent | reading | handling =>
          rw [Transport.signalReader, reader]
          exact alive _ (by simp) (by simp [Survives, exited, reader])
  | join place reader =>
      refine alive _ ?_ (by simp [Survives, hasPanicked, reader])
      intro message
      simp only
      split_ifs <;> simp
  | joinPanics message place reader =>
      exact iff_of_true rfl (by simp [Survives, hasPanicked, reader])
  | drain event rest place queue =>
      obtain ⟨kind, _⟩ := inv.taken queue
      rcases kind with rfl | ⟨data, rfl⟩
      · exact alive _ (by simp [Transport.drop]) trivial
      · exact goesOn _ rfl trivial
  | access packets access rest reader => exact goesOn _ (perform_position _ access) trivial
  | _ => exact goesOn _ rfl trivial

theorem SessionInv.kept (inv : SessionInv transport) {other : Transport}
    (regular : TransportInv other)
    (running : ¬ other.hungUp = true → ¬ transport.hungUp = true)
    (upward : other.upward.count .connected = transport.upward.count .connected ∧
      other.upward.count .disconnected = transport.upward.count .disconnected)
    (place : ¬ other.hungUp = true → inSession other.position = inSession transport.position)
    (requested : .stop ∈ other.queue ∨ other.stop = true → other.stopSent = true) :
    SessionInv other where
  regular := regular
  announced := by
    intro alive
    rw [upward.1, upward.2, place alive]
    exact inv.announced (running alive)
  requested := requested

theorem SessionInv.requested_of_queue (inv : SessionInv transport) {event : Event Bytes}
    {rest : List (Event Bytes)} (queue : transport.queue = event :: rest) :
    (event = .stop → transport.stopSent = true) ∧
      (.stop ∈ rest ∨ transport.stop = true → transport.stopSent = true) := by
  obtain ⟨first, later⟩ := of_tail queue
  constructor
  · intro stop
    rw [stop] at first
    exact inv.requested (.inl first)
  · rintro (member | stop)
    · exact inv.requested (.inl (later _ member))
    · exact inv.requested (.inr stop)

theorem SessionInv.read_access (inv : SessionInv transport) {packets : List Bytes}
    {access : SharedAccess} {rest : List SharedAccess}
    (reader : transport.reader = .handling packets (access :: rest))
    (regular : TransportInv
      ({ transport with reader := .handling packets rest }.perform access)) :
    SessionInv ({ transport with reader := .handling packets rest }.perform access) := by
  have owed := inv.regular.owed packets (access :: rest) reader access List.mem_cons_self
  have running : ¬ transport.hungUp = true → ¬ transport.hungUp = true := id
  cases access with
  | sendLoopback event =>
      obtain ⟨data, rfl⟩ := owed
      unfold Transport.perform at regular ⊢
      simp only at regular ⊢
      split_ifs at regular ⊢
      · exact inv.kept regular running ⟨rfl, rfl⟩ (fun _ => rfl) inv.requested
      · refine inv.kept regular running ⟨rfl, rfl⟩ (fun _ => rfl) ?_
        simpa using inv.requested
  | sendTx event =>
      obtain ⟨data, rfl⟩ := owed
      refine inv.kept regular running ?_ (fun _ => rfl) inv.requested
      simp [Transport.perform]
  | removeUnacked seqNum =>
      exact inv.kept regular running ⟨rfl, rfl⟩ (fun _ => rfl) inv.requested

theorem session_inv_step (transport : Transport) (label : Label) (next : Transport)
    (inv : SessionInv transport) (taken : transport.step label = some next) :
    SessionInv next := by
  have regular := transport_inv_step transport label next inv.regular taken
  have running : ¬ next.hungUp = true → ¬ transport.hungUp = true := by
    intro alive hungUp
    exact alive (hung_up_permanent hungUp taken)
  have same : transport.upward.count .connected = transport.upward.count .connected ∧
      transport.upward.count .disconnected = transport.upward.count .disconnected := ⟨rfl, rfl⟩
  cases moved_of_step taken with
  | userData data =>
      refine inv.kept regular running same (fun _ => rfl) ?_
      simpa using inv.requested
  | userStop => exact inv.kept regular running same (fun _ => rfl) fun _ => rfl
  | opened place =>
      refine ⟨regular, ?_, inv.requested⟩
      intro alive
      have balance := inv.announced (running alive)
      rw [place] at balance
      simp only [List.count_append, balance]
      rfl
  | openFails place =>
      refine inv.kept regular running same (fun _ => ?_) inv.requested
      rw [place]
      rfl
  | receive event rest worker place queue moved =>
      have inside : inSession transport.position = true := by
        rw [place]
        rfl
      have alive : ¬ transport.hungUp = true := by
        rw [hung_up_iff, place]
        simp
      obtain ⟨kind, _⟩ := inv.regular.taken queue
      obtain ⟨ofStop, ofRest⟩ := inv.requested_of_queue queue
      rcases kind with rfl | ⟨data, rfl⟩
      · rw [receive_stop moved] at regular running ⊢
        exact inv.kept regular running same (fun _ => inside.symm) fun _ => ofStop rfl
      · rw [continue_with_running (receive_data moved).1] at regular running ⊢
        exact inv.kept regular running same (fun _ => rfl) ofRest
  | work action worker place enabled moved =>
      obtain ⟨_, goesOn, fails⟩ := inv.regular.worked enabled moved
      by_cases failing : action = .write false
      · obtain ⟨message, panicked⟩ := fails failing
        rw [Transport.continueWith, panicked] at regular running ⊢
        exact inv.kept regular running same (fun alive => absurd rfl alive) inv.requested
      · rw [continue_with_running (goesOn failing)] at regular running ⊢
        exact inv.kept regular running same (fun _ => rfl) inv.requested
  | signal place =>
      cases reader : transport.reader with
      | ended | panicked =>
          rw [Transport.signalReader, reader] at regular running ⊢
          exact inv.kept regular running same (fun alive => absurd rfl alive) inv.requested
      | absent | reading | handling =>
          rw [Transport.signalReader, reader] at regular running ⊢
          refine inv.kept regular running same (fun _ => ?_) inv.requested
          rw [place]
          rfl
  | announce place =>
      refine ⟨regular, ?_, inv.requested⟩
      intro alive
      have balance := inv.announced (running alive)
      rw [place] at balance
      simp only [List.count_append, balance]
      rfl
  | join place reader =>
      refine inv.kept regular running same (fun _ => ?_) inv.requested
      rw [place]
      simp only
      split_ifs <;> rfl
  | joinPanics message place reader =>
      exact inv.kept regular running same (fun alive => absurd rfl alive) inv.requested
  | drain event rest place queue =>
      obtain ⟨kind, _⟩ := inv.regular.taken queue
      obtain ⟨ofStop, ofRest⟩ := inv.requested_of_queue queue
      rcases kind with rfl | ⟨data, rfl⟩
      · refine inv.kept regular running same (fun _ => ?_) fun _ => ofStop rfl
        rw [place]
        rfl
      · exact inv.kept regular running same (fun _ => rfl) ofRest
  | timeUp place =>
      refine inv.kept regular running same (fun _ => ?_) inv.requested
      rw [place]
      rfl
  | access packets access rest reader => exact inv.read_access reader regular
  | _ => exact inv.kept regular running same (fun _ => rfl) inv.requested

/-- The read thread leaves only a session that is being ended. -/
structure LeavingInv (transport : Transport) : Prop where
  signalled : transport.stopSignal = true → transport.position = .announcing ∨
    transport.position = .joining ∨ transport.position = .finished
  left : transport.reader = .ended →
    transport.position = .announcing ∨ transport.position = .joining

theorem leaving_inv_fresh : LeavingInv .fresh where
  signalled := by
    intro same
    cases same
  left := by
    intro same
    cases same

theorem LeavingInv.elsewhere (leaving : LeavingInv transport) {position : Position}
    (place : transport.position = position)
    (other : position ≠ .announcing ∧ position ≠ .joining ∧ position ≠ .finished) :
    transport.stopSignal = false ∧ transport.reader ≠ .ended := by
  constructor
  · rw [Bool.eq_false_iff]
    intro signal
    rcases leaving.signalled signal with same | same | same
    · exact other.1 (place.symm.trans same)
    · exact other.2.1 (place.symm.trans same)
    · exact other.2.2 (place.symm.trans same)
  · intro reader
    rcases leaving.left reader with same | same
    · exact other.1 (place.symm.trans same)
    · exact other.2.1 (place.symm.trans same)

theorem LeavingInv.moved (leaving : LeavingInv transport) {position : Position}
    (place : transport.position = position)
    (other : position ≠ .announcing ∧ position ≠ .joining ∧ position ≠ .finished)
    {after : Transport} (signal : after.stopSignal = transport.stopSignal)
    (reader : after.reader = transport.reader) : LeavingInv after := by
  obtain ⟨unsignalled, present⟩ := leaving.elsewhere place other
  constructor
  · intro same
    rw [signal, unsignalled] at same
    cases same
  · intro same
    exact absurd (reader.symm.trans same) present

theorem session_of_reader (regular : TransportInv transport)
    (running : ¬ transport.hungUp = true) (reader : transport.reader ≠ .absent) :
    served transport.position = true ∨ transport.position = .announcing ∨
      transport.position = .joining := by
  cases place : transport.position with
  | serving | signalling => exact .inl rfl
  | announcing => exact .inr (.inl rfl)
  | joining => exact .inr (.inr rfl)
  | connecting => exact absurd (regular.idle (.inl place)) reader
  | draining => exact absurd (regular.idle (.inr (.inl place))) reader
  | finished => exact absurd (regular.idle (.inr (.inr place))) reader
  | panicked message => exact absurd (hung_up_iff.mpr ⟨message, place⟩) running

theorem leaving_step {label : Label} (regular : TransportInv transport)
    (leaving : LeavingInv transport) (running : ¬ transport.hungUp = true)
    (intact : Intact transport label) (taken : transport.step label = some next) :
    LeavingInv next := by
  obtain ⟨survives, reads⟩ := intact
  cases moved_of_step taken with
  | userData | userStop => exact ⟨leaving.signalled, leaving.left⟩
  | opened place =>
      constructor
      · intro same
        cases same
      · intro same
        cases same
  | openFails place | timeUp place => exact leaving.moved place (by simp) rfl rfl
  | receive event rest worker place queue moved =>
      exact leaving.moved place (by simp) (continue_stop_signal _ _) (continue_reader _ _)
  | work action worker place enabled moved =>
      exact leaving.moved place (by simp) (continue_stop_signal _ _) (continue_reader _ _)
  | signal place =>
      have present := (leaving.elsewhere place (by simp)).2
      cases reader : transport.reader with
      | ended => exact absurd reader present
      | panicked message => simp [Survives, exited, reader] at survives
      | absent | reading | handling =>
          rw [Transport.signalReader, reader]
          refine ⟨fun _ => .inl rfl, ?_⟩
          intro same
          cases same
  | announce place => exact ⟨fun _ => .inr (.inl rfl), fun _ => .inr rfl⟩
  | join place reader =>
      have stop := regular.stopped (.inr (.inr (.inl place)))
      constructor
      · intro _
        exact .inr (.inr (if_pos stop))
      · intro same
        cases same
  | joinPanics message place reader => simp [Survives, hasPanicked, reader] at survives
  | drain event rest place queue =>
      exact leaving.moved place (by simp) (drop_stop_signal _ _) (drop_reader _ _)
  | readFails serialWorker reader =>
      have inside := session_of_reader regular running (by simp [reader])
      refine ⟨leaving.signalled, fun _ => inside.resolve_left ?_⟩
      exact Bool.eq_false_iff.mp reads
  | read _ _ _ reader | handle _ _ _ _ _ reader _ | handlePanics _ _ _ reader
  | notStopped reader =>
      refine ⟨leaving.signalled, ?_⟩
      intro same
      cases same
  | access packets access rest reader =>
      refine ⟨?_, ?_⟩
      · rw [perform_stop_signal, perform_position]
        exact leaving.signalled
      · intro same
        exact absurd same (perform_reader _ access (by simp))
  | stopped reader signal =>
      have inside := session_of_reader regular running (by simp [reader])
      constructor
      · intro same
        cases same
      intro _
      rcases leaving.signalled signal with same | same | same
      · exact .inl same
      · exact .inr same
      · rcases inside with one | other
        · rw [same] at one
          cases one
        · exact other

/-- The write thread has panicked, or the session goes on that has lost its read thread. -/
def Broken (transport : Transport) : Prop :=
  transport.hungUp = true ∨ served transport.position = true ∧ transport.reader = .ended

theorem broken_continue (inside : served transport.position = true)
    (left : transport.reader = .ended) (worker : SerialSending.ConnectionWorker) :
    Broken (transport.continueWith worker) := by
  unfold Transport.continueWith
  split
  · exact .inr ⟨rfl, left⟩
  · exact .inl rfl
  · exact .inr ⟨inside, left⟩

theorem broken_permanent {label : Label} (broken : Broken transport)
    (taken : transport.step label = some next) : Broken next := by
  rcases broken with hungUp | ⟨inside, left⟩
  · exact .inl (hung_up_permanent hungUp taken)
  · have outside {position : Position} (place : transport.position = position)
        (other : served position = false) : False := by
      rw [place, other] at inside
      cases inside
    have busy {reader : Reader} (place : transport.reader = reader)
        (other : reader ≠ .ended) : False := other (place.symm.trans left)
    cases moved_of_step taken with
    | userData | userStop => exact .inr ⟨inside, left⟩
    | receive event rest worker place queue moved =>
        exact @broken_continue { transport with queue := rest } inside left worker
    | work action worker place enabled moved =>
        exact @broken_continue { transport with
          port := transport.port ++ Transport.frameOf transport.worker action } inside left worker
    | signal place =>
        rw [Transport.signalReader, left]
        exact .inl rfl
    | opened place | openFails place | announce place | join place _ | joinPanics _ place _
    | drain _ _ place _ | timeUp place => exact (outside place rfl).elim
    | read _ _ _ reader | readFails _ reader | handle _ _ _ _ _ reader _
    | handlePanics _ _ _ reader | access _ _ _ reader | stopped reader _ | notStopped reader =>
        exact (busy reader (by simp)).elim

theorem Broken.not_ends_cleanly (broken : Broken transport) : ¬ EndsCleanly transport := by
  intro clean
  have endless {later : Transport} (broken : Broken later) :
      ¬ (later.position = .connecting ∨ later.position = .finished ∧ later.stopSent = true) := by
    rcases broken with hungUp | ⟨inside, _⟩
    · obtain ⟨message, dead⟩ := hung_up_iff.mp hungUp
      simp [dead]
    · rintro (place | ⟨place, _⟩) <;>
      · rw [place] at inside
        cases inside
  rcases broken with hungUp | lost
  · obtain ⟨message, dead⟩ := hung_up_iff.mp hungUp
    exact clean.running message dead
  · obtain ⟨labels, later, _, reached, _, ended⟩ := clean.ends lost.2
    have still : Broken later :=
      invariant_of_run (fun _ _ _ broken taken => broken_permanent broken taken) (.inr lost) reached
    exact endless still ended

theorem breaks_iff {label : Label} (regular : TransportInv transport)
    (leaving : LeavingInv transport) (running : ¬ transport.hungUp = true)
    (taken : transport.step label = some next) : Broken next ↔ ¬ Intact transport label := by
  constructor
  · intro broken intact
    have alive : ¬ next.hungUp = true := fun hungUp =>
      (panics_iff regular running taken).mp hungUp intact.1
    obtain ⟨inside, left⟩ := broken.resolve_left alive
    rcases (leaving_step regular leaving running intact taken).left left with place | place <;>
    · rw [place] at inside
      cases inside
  · intro violated
    by_cases survives : Survives transport label
    · have fails : ¬ ReadsWhileServed transport label := fun reads => violated ⟨survives, reads⟩
      cases moved_of_step taken with
      | readFails serialWorker reader =>
          exact .inr ⟨by simpa [ReadsWhileServed] using fails, rfl⟩
      | read result serialWorker packets reader works =>
          cases result with
          | failed => exact absurd rfl works
          | received bytes | timedOut => exact absurd trivial fails
      | _ => exact absurd trivial fails
    · exact .inl ((panics_iff regular running taken).mpr survives)

/-- A session that is being ended comes to its end. -/
theorem LeavingInv.can_end (leaving : LeavingInv transport) (inv : SessionInv transport)
    (running : ¬ transport.hungUp = true) (left : transport.reader = .ended) :
    CanEnd transport := by
  have balance := inv.announced running
  rcases leaving.left left with place | place
  · have stop := inv.regular.stopped (.inr (.inl place))
    have announced : transport.step .announce = some { transport with
        position := .joining
        upward := transport.upward ++ [.disconnected] } := by
      simp [Transport.step, place]
    have ended : run Transport.step transport [.announce, .join] = some { transport with
        position := .finished
        upward := transport.upward ++ [.disconnected]
        reader := .absent } := by
      rw [run_cons_of_step announced]
      simp [run_cons, Transport.step, left, stop]
    refine ⟨[.announce, .join], _, by simp [ofWriteThread], ended, ?_,
      .inr ⟨rfl, inv.requested (.inr stop)⟩⟩
    rw [place] at balance
    simp only [List.count_append, balance]
    rfl
  · have stop := inv.regular.stopped (.inr (.inr (.inl place)))
    have joined : transport.step .join =
        some { transport with position := .finished, reader := .absent } := by
      simp [Transport.step, place, left, stop]
    have ended : run Transport.step transport [.join] = some _ := run_cons_of_step joined
    refine ⟨[.join], _, by simp [ofWriteThread], ended, ?_,
      .inr ⟨rfl, inv.requested (.inr stop)⟩⟩
    rw [place] at balance
    exact balance

/-- A run ends cleanly, in every state it reaches, exactly when no port write fails, no port read
fails before the read thread is told to end, and the read thread has not panicked when it is told to
end or joined. -/
theorem ends_cleanly_iff {labels : List Label} {last : Transport}
    (reached : run Transport.step .fresh labels = some last) :
    EndsCleanly last ↔ Meets Transport.step Intact .fresh labels := by
  have running : ¬ Transport.fresh.hungUp = true := by simp [Transport.fresh, hung_up_iff]
  have preserved (transport : Transport) (label : Label) (next : Transport)
      (intact : Intact transport label)
      (before : SessionInv transport ∧ LeavingInv transport ∧ ¬ transport.hungUp = true)
      (taken : transport.step label = some next) :
      SessionInv next ∧ LeavingInv next ∧ ¬ next.hungUp = true := by
    obtain ⟨inv, leaving, running⟩ := before
    exact ⟨session_inv_step transport label next inv taken,
      leaving_step inv.regular leaving running intact taken,
      fun hungUp => (panics_iff inv.regular running taken).mp hungUp intact.1⟩
  have whole_iff : ¬ Broken last ↔ Meets Transport.step Intact .fresh labels := by
    apply holds_iff_meets Intact _ (fun transport => ¬ Broken transport) preserved _ _ _
      ⟨session_inv_fresh, leaving_inv_fresh, running⟩ reached
    · rintro transport ⟨_, leaving, running⟩ broken
      obtain ⟨inside, left⟩ := broken.resolve_left running
      rcases leaving.left left with place | place <;>
      · rw [place] at inside
        cases inside
    · intro transport label next violated before taken
      exact not_not.mpr ((breaks_iff before.1.regular before.2.1 before.2.2 taken).mpr violated)
    · intro transport label next broken taken
      exact not_not.mpr (broken_permanent (not_not.mp broken) taken)
  constructor
  · intro clean
    exact whole_iff.mp fun broken => broken.not_ends_cleanly clean
  · intro intact
    obtain ⟨inv, leaving, alive⟩ := invariant_of_meets preserved intact
      ⟨session_inv_fresh, leaving_inv_fresh, running⟩ reached
    refine ⟨?_, leaving.can_end inv alive, inv.announced alive, ?_⟩
    · intro message dead
      exact alive (hung_up_iff.mpr ⟨message, dead⟩)
    · intro finished
      exact inv.requested (.inr (inv.regular.stopped (.inr (.inr (.inr finished)))))

def stoppedSession : List Label :=
  [.openPort true, .userData [0x2A], .receive, .work (.write true), .read .timedOut, .check,
    .work .mark, .work .bump, .work (.collect [0x00]), .work (.write true), .work .loop, .userStop,
    .receive, .signal, .read .timedOut, .check, .announce, .join]

theorem stopped_session_ends_cleanly :
    ∃ last, run Transport.step .fresh stoppedSession = some last ∧ last.position = .finished ∧
      (EndsCleanly last ↔ Meets Transport.step Intact .fresh stoppedSession) ∧
      Meets Transport.step Intact .fresh stoppedSession := by
  have reached : run Transport.step .fresh stoppedSession = some _ := rfl
  exact ⟨_, reached, rfl, ends_cleanly_iff reached, by decide +kernel⟩

/-- The first write of a packet fails. -/
theorem failing_write_panics :
    ¬ ∀ labels last, run Transport.step .fresh labels = some last → EndsCleanly last := by
  intro all
  have reached : run Transport.step .fresh
      [.openPort true, .userData [0x2A], .receive, .work (.write false)] = some _ := rfl
  exact (all _ _ reached).running _ rfl

/-- The read thread leaves when a read fails, and nobody notices until `Stop`. -/
example : (run Transport.step .fresh
    [.openPort true, .read .failed, .userStop, .receive, .signal]).map (·.position) =
      some (.panicked sendFailed) := by
  decide

end MoteConnection.SerialPortFailure
