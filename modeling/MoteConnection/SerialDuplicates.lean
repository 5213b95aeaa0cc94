import MoteConnection.Library.Cooldowns
import MoteConnection.Library.LabeledRuns
import MoteConnection.SerialReceiving

/-!
# Duplicates at the serial read thread

The packets that one `SerialWorker` handles, with their times and all it did
for them. Its cache holds the time of the last packet that caused output, for
each sequence number, so the data of a packet goes up once in a cooldown and
nothing else touches the cache.

The acknowledgement of a packet is sent in the branch that also sends its data.
A copy that arrives within the cooldown is therefore not acknowledged, although
the sender repeats a packet only because it has seen no acknowledgement.
-/

namespace MoteConnection.SerialDuplicates

open MoteConnection.Runtime MoteConnection.HdlcFraming MoteConnection.SerialPackets
open MoteConnection.SerialReceiving
open Cooldowns LabeledRuns Outcome

set_option autoImplicit false

structure Arrival where
  now : Instant
  data : Bytes

/-- One call of `handle_data`: the worker before it and after it, and what it did outside. -/
structure Turn where
  arrival : Arrival
  before : SerialWorker
  after : SerialWorker
  accesses : List SharedAccess

structure Received where
  worker : SerialWorker
  turns : List Turn

def Received.start (worker : SerialWorker) : Received := ⟨worker, []⟩

def step (received : Received) (arrival : Arrival) : Option Received :=
  match received.worker.handleData arrival.now arrival.data with
  | returned (after, accesses) =>
      some ⟨after, received.turns ++ [⟨arrival, received.worker, after, accesses⟩]⟩
  | panicked _ => none

def ackPacketOf (data : Bytes) : Option AckPacket :=
  match AckPacket.tryFrom data with
  | returned (.ok packet) => some packet
  | _ => none

def Turn.admission (turn : Turn) : Option (Admission UInt8) :=
  if turn.accesses = [] then none
  else (ackPacketOf turn.arrival.data).map fun packet => ⟨packet.seqNum, turn.arrival.now⟩

def admissions (turns : List Turn) : List (Admission UInt8) := turns.filterMap Turn.admission

def outputOf (packet : AckPacket) : List SharedAccess :=
  [.sendLoopback (.data (Ack.fromPacket packet).intoBytes), .sendTx (.data packet.data)]

/-- An `AckPacket` with the sequence number caused output at most `timeout` before now. -/
def OnCooldown (timeout : Duration) (earlier : List Turn) (now : Instant) (seqNum : UInt8) : Prop :=
  ∃ turn ∈ earlier, turn.accesses ≠ [] ∧ now - turn.arrival.now ≤ timeout ∧
    ∃ packet, AckPacket.tryFrom turn.arrival.data = returned (.ok packet) ∧ packet.seqNum = seqNum

/-- What the worker does for a packet, in terms of the packets before it. -/
structure AtMostOnce (timeout : Duration) (earlier : List Turn) (turn : Turn) : Prop where
  output_iff : turn.accesses ≠ [] ↔
    ∃ packet, AckPacket.tryFrom turn.arrival.data = returned (.ok packet) ∧
      ¬ OnCooldown timeout earlier turn.arrival.now packet.seqNum
  output : ∀ packet, AckPacket.tryFrom turn.arrival.data = returned (.ok packet) →
    turn.accesses ≠ [] → turn.accesses = outputOf packet
  silent : turn.accesses = [] → turn.after.seqNumCache = turn.before.seqNumCache
  apart : ∀ packet, AckPacket.tryFrom turn.arrival.data = returned (.ok packet) →
    ∀ other, other ≠ packet.seqNum → turn.after.seqNumCache.seqNums.lookup other =
      turn.before.seqNumCache.seqNums.lookup other

theorem ack_packet_of_eq_some {data : Bytes} {packet : AckPacket} :
    ackPacketOf data = some packet ↔ AckPacket.tryFrom data = returned (.ok packet) := by
  unfold ackPacketOf
  constructor
  · intro same
    split at same
    · rename_i parsed found
      cases same
      exact found
    · cases same
  · intro parsed
    rw [parsed]

theorem ack_packet_of_encoded (seqNum : UInt8) {data : Bytes} (nonempty : data ≠ []) :
    AckPacket.tryFrom (AckPacket.new seqNum data).intoBytes =
      returned (.ok (AckPacket.new seqNum data)) :=
  (ack_packet_try_from_ok _ _).mpr ⟨seqNum, data, nonempty, rfl, rfl⟩

theorem mem_admissions {turns : List Turn} {admission : Admission UInt8} :
    admission ∈ admissions turns ↔
      ∃ turn ∈ turns, turn.accesses ≠ [] ∧ turn.arrival.now = admission.time ∧
        ∃ packet, AckPacket.tryFrom turn.arrival.data = returned (.ok packet) ∧
          packet.seqNum = admission.key := by
  simp only [admissions, List.mem_filterMap, Turn.admission]
  constructor
  · intro ⟨turn, member, found⟩
    split at found
    · cases found
    · rename_i output
      obtain ⟨packet, parsed, same⟩ := Option.map_eq_some_iff.mp found
      refine ⟨turn, member, output, ?_, packet, ack_packet_of_eq_some.mp parsed, ?_⟩
      · rw [← same]
      · rw [← same]
  · intro ⟨turn, member, output, sameTime, packet, parsed, sameKey⟩
    refine ⟨turn, member, ?_⟩
    rw [if_neg output, ack_packet_of_eq_some.mpr parsed, Option.map_some, sameTime, sameKey]

theorem on_cooldown_iff (timeout : Duration) (earlier : List Turn) (now : Instant)
    (seqNum : UInt8) :
    OnCooldown timeout earlier now seqNum ↔ Cooling timeout (admissions earlier) now seqNum := by
  constructor
  · intro ⟨turn, member, output, recent, carried⟩
    exact ⟨⟨seqNum, turn.arrival.now⟩, mem_admissions.mpr ⟨turn, member, output, rfl, carried⟩,
      rfl, recent⟩
  · intro ⟨admission, member, sameKey, recent⟩
    obtain ⟨turn, present, output, sameTime, carried⟩ := mem_admissions.mp member
    rw [sameKey] at carried
    rw [← sameTime] at recent
    exact ⟨turn, present, output, recent, carried⟩

/-- A call on a packet that the parser of `AckPacket` accepts. -/
theorem handle_data_parsed (worker : SerialWorker) (now : Instant) {data : Bytes}
    {packet : AckPacket} (parsed : AckPacket.tryFrom data = returned (.ok packet)) :
    worker.handleData now data =
      match worker.seqNumCache.insert now packet.seqNum with
      | (cache, .ok ()) => returned ({ worker with seqNumCache := cache }, outputOf packet)
      | (cache, .error ()) => returned ({ worker with seqNumCache := cache }, []) := by
  obtain ⟨seqNum, content, nonempty, encoded, same⟩ := (ack_packet_try_from_ok _ _).mp parsed
  rw [encoded, same, handle_data_ack_packet worker now seqNum nonempty]
  rfl

theorem worker_of_not_parsed {worker after : SerialWorker} {now : Instant} {data : Bytes}
    {accesses : List SharedAccess} (rejected : ackPacketOf data = none)
    (handled : worker.handleData now data = returned (after, accesses)) : after = worker := by
  cases valid : validPacket data with
  | false =>
      rcases (handle_data_returns_iff worker now data).mp ⟨_, handled⟩ with empty | known
      · rw [empty] at handled
        cases handled
        rfl
      · rw [handle_data_refused worker now known valid] at handled
        cases handled
        rfl
  | true =>
      rcases (valid_packet_iff data).mp valid with ⟨seqNum, content, nonempty, encoded⟩ |
        ⟨seqNum, encoded⟩ | ⟨content, nonempty, encoded⟩
      · rw [encoded, ack_packet_of_eq_some.mpr (ack_packet_of_encoded seqNum nonempty)] at rejected
        cases rejected
      · rw [encoded, handle_data_ack] at handled
        cases handled
        rfl
      · rw [encoded, handle_data_no_ack_packet worker now nonempty] at handled
        cases handled
        rfl

theorem silent_of_not_parsed {worker after : SerialWorker} {now : Instant} {data : Bytes}
    {accesses : List SharedAccess} (typed : data.head? = some ackpacketByte)
    (rejected : ackPacketOf data = none)
    (handled : worker.handleData now data = returned (after, accesses)) : accesses = [] := by
  rcases accesses_of_handle_data handled with empty | ⟨seqNum, content, nonempty, encoded, _⟩ |
    ⟨seqNum, encoded, _⟩ | ⟨content, _, encoded, _⟩
  · exact empty
  · rw [encoded, ack_packet_of_eq_some.mpr (ack_packet_of_encoded seqNum nonempty)] at rejected
    cases rejected
  · rw [encoded] at typed
    cases typed
  · rw [encoded] at typed
    cases typed

theorem step_eq_some {received next : Received} {arrival : Arrival} :
    step received arrival = some next ↔
      ∃ after accesses,
        received.worker.handleData arrival.now arrival.data = returned (after, accesses) ∧
        next = ⟨after, received.turns ++ [⟨arrival, received.worker, after, accesses⟩]⟩ := by
  unfold step
  constructor
  · intro taken
    split at taken
    · rename_i after accesses handled
      cases taken
      exact ⟨after, accesses, handled, rfl⟩
    · cases taken
  · intro ⟨after, accesses, handled, same⟩
    rw [handled, same]

/-- The cache has the last packet of each sequence number that caused output. -/
structure Remembers (timeout : Duration) (received : Received) : Prop where
  timeout : received.worker.seqNumCache.timeout = timeout
  records : Records (fun seqNum => received.worker.seqNumCache.seqNums.lookup seqNum)
    (admissions received.turns)

theorem remembers_start (timeout : Duration) (decoder : HdlcCodec) :
    Remembers timeout (.start ⟨SeqNumCache.new timeout, decoder⟩) where
  timeout := rfl
  records := Records.empty

section Step

variable {timeout : Duration} {received : Received} {arrival : Arrival} {after : SerialWorker}
  {accesses : List SharedAccess}

theorem on_cooldown_iff_recorded (remembers : Remembers timeout received) (now : Instant)
    (seqNum : UInt8) :
    OnCooldown timeout received.turns now seqNum ↔
      ∃ instant, received.worker.seqNumCache.seqNums.lookup seqNum = some instant ∧
        now - instant ≤ timeout :=
  (on_cooldown_iff timeout received.turns now seqNum).trans
    (remembers.records.cooling_iff timeout now seqNum)

theorem handled_cool {packet : AckPacket} (remembers : Remembers timeout received)
    (parsed : AckPacket.tryFrom arrival.data = returned (.ok packet))
    (cool : ¬ OnCooldown timeout received.turns arrival.now packet.seqNum)
    (handled : received.worker.handleData arrival.now arrival.data = returned (after, accesses)) :
    accesses = outputOf packet ∧
      after.seqNumCache = { received.worker.seqNumCache with
        seqNums := received.worker.seqNumCache.seqNums.insert packet.seqNum arrival.now } := by
  have expired : ∀ instant,
      received.worker.seqNumCache.seqNums.lookup packet.seqNum = some instant →
        instant < arrival.now - received.worker.seqNumCache.timeout := by
    intro instant found
    have passed : ¬ arrival.now - instant ≤ timeout := fun recent =>
      cool ((on_cooldown_iff_recorded remembers _ _).mpr ⟨instant, found, recent⟩)
    rw [remembers.timeout]
    apply Nat.lt_sub_of_add_lt
    rw [Nat.add_comm]
    exact Nat.add_lt_of_lt_sub (Nat.not_le.mp passed)
  rw [handle_data_parsed _ _ parsed, insert_accepts expired] at handled
  cases handled
  exact ⟨rfl, rfl⟩

theorem handled_on_cooldown {packet : AckPacket} (remembers : Remembers timeout received)
    (parsed : AckPacket.tryFrom arrival.data = returned (.ok packet))
    (cooling : OnCooldown timeout received.turns arrival.now packet.seqNum)
    (handled : received.worker.handleData arrival.now arrival.data = returned (after, accesses)) :
    accesses = [] ∧ after = received.worker := by
  obtain ⟨instant, found, recent⟩ := (on_cooldown_iff_recorded remembers _ _).mp cooling
  have warm : arrival.now - received.worker.seqNumCache.timeout ≤ instant := by
    rw [remembers.timeout]
    apply Nat.sub_le_of_le_add
    rw [Nat.add_comm]
    exact Nat.le_add_of_sub_le recent
  rw [handle_data_parsed _ _ parsed, insert_refuses found warm] at handled
  cases handled
  exact ⟨rfl, rfl⟩

theorem admissions_concat (turns : List Turn) (turn : Turn) :
    admissions (turns ++ [turn]) = admissions turns ++ turn.admission.toList := by
  rw [admissions, List.filterMap_append, ← admissions]
  cases found : turn.admission with
  | none => rw [List.filterMap_cons_none found]; rfl
  | some admission => rw [List.filterMap_cons_some found]; rfl

theorem remembers_step {next : Received} (remembers : Remembers timeout received)
    (taken : step received arrival = some next) : Remembers timeout next := by
  obtain ⟨after, accesses, handled, same⟩ := step_eq_some.mp taken
  have unrecorded (unchanged : after = received.worker)
      (none : Turn.admission ⟨arrival, received.worker, after, accesses⟩ = none) :
      Remembers timeout next := by
    rw [same, unchanged]
    refine ⟨remembers.timeout, ?_⟩
    rw [unchanged] at none
    rw [admissions_concat, none, Option.toList_none, List.append_nil]
    exact remembers.records
  cases parse : ackPacketOf arrival.data with
  | none =>
      apply unrecorded (worker_of_not_parsed parse handled)
      rw [Turn.admission, parse, Option.map_none, ite_self]
  | some packet =>
      have parsed := ack_packet_of_eq_some.mp parse
      by_cases cooling : OnCooldown timeout received.turns arrival.now packet.seqNum
      · obtain ⟨silent, unchanged⟩ := handled_on_cooldown remembers parsed cooling handled
        exact unrecorded unchanged (if_pos silent)
      · obtain ⟨output, recorded⟩ := handled_cool remembers parsed cooling handled
        have admission : Turn.admission ⟨arrival, received.worker, after, accesses⟩ =
            some ⟨packet.seqNum, arrival.now⟩ := by
          rw [Turn.admission, if_neg (by rw [output]; exact List.cons_ne_nil _ _), parse]
          rfl
        rw [same]
        constructor
        · rw [recorded]
          exact remembers.timeout
        · rw [admissions_concat, admission, Option.toList_some]
          rw [on_cooldown_iff] at cooling
          apply remembers.records.admit cooling
          · rw [recorded, AList.lookup_insert]
          · intro other different
            rw [recorded, AList.lookup_insert_ne different]

theorem at_most_once_step (remembers : Remembers timeout received)
    (typed : arrival.data.head? = some ackpacketByte)
    (handled : received.worker.handleData arrival.now arrival.data = returned (after, accesses)) :
    AtMostOnce timeout received.turns ⟨arrival, received.worker, after, accesses⟩ := by
  cases parse : ackPacketOf arrival.data with
  | none =>
      have unchanged := worker_of_not_parsed parse handled
      have silent := silent_of_not_parsed typed parse handled
      have rejected {packet : AckPacket} :
          AckPacket.tryFrom arrival.data ≠ returned (.ok packet) := by
        intro parsed
        rw [ack_packet_of_eq_some.mpr parsed] at parse
        cases parse
      constructor
      · apply iff_of_false
        · exact fun output => output silent
        · intro ⟨packet, parsed, _⟩
          exact rejected parsed
      · intro packet parsed
        exact absurd parsed rejected
      · intro _
        rw [unchanged]
      · intro packet parsed
        exact absurd parsed rejected
  | some packet =>
      have parsed := ack_packet_of_eq_some.mp parse
      have only {other : AckPacket}
          (also : AckPacket.tryFrom arrival.data = returned (.ok other)) : other = packet := by
        rw [ack_packet_of_eq_some.mpr also] at parse
        exact Option.some.inj parse
      by_cases cooling : OnCooldown timeout received.turns arrival.now packet.seqNum
      · obtain ⟨silent, unchanged⟩ := handled_on_cooldown remembers parsed cooling handled
        constructor
        · apply iff_of_false
          · exact fun output => output silent
          · intro ⟨other, also, cool⟩
            rw [only also] at cool
            exact cool cooling
        · intro _ _ output
          exact absurd silent output
        · intro _
          rw [unchanged]
        · intro _ _ _ _
          rw [unchanged]
      · obtain ⟨output, recorded⟩ := handled_cool remembers parsed cooling handled
        have loud : accesses ≠ [] := by
          rw [output]
          exact List.cons_ne_nil _ _
        constructor
        · exact iff_of_true loud ⟨packet, parsed, cooling⟩
        · intro other also _
          rw [only also]
          exact output
        · intro silent
          exact absurd silent loud
        · intro other also key different
          rw [only also] at different
          rw [recorded, AList.lookup_insert_ne different]

end Step

section Run

variable {timeout : Duration} {received last : Received} {arrivals : List Arrival}

theorem remembers_of_run (remembers : Remembers timeout received)
    (reached : run step received arrivals = some last) : Remembers timeout last :=
  invariant_of_run (fun _ _ _ before taken => remembers_step before taken) remembers reached

theorem arrivals_of_run (reached : run step received arrivals = some last) :
    last.turns.map Turn.arrival = received.turns.map Turn.arrival ++ arrivals := by
  induction arrivals generalizing received with
  | nil =>
      cases reached
      rw [List.append_nil]
  | cons arrival rest induction =>
      obtain ⟨next, taken, remaining⟩ := run_cons_some.mp reached
      obtain ⟨after, accesses, _, same⟩ := step_eq_some.mp taken
      rw [induction remaining, same, List.map_append, List.append_assoc]
      rfl

theorem run_of_known (received : Received)
    (known : ∀ arrival ∈ arrivals, KnownType arrival.data) :
    ∃ last, run step received arrivals = some last := by
  induction arrivals generalizing received with
  | nil => exact ⟨received, rfl⟩
  | cons arrival rest induction =>
      obtain ⟨⟨after, accesses⟩, handled⟩ :=
        (handle_data_returns_iff received.worker arrival.now arrival.data).mpr
          (.inr (known arrival List.mem_cons_self))
      have taken := step_eq_some.mpr ⟨after, accesses, handled, rfl⟩
      rw [run_cons_of_step taken]
      exact induction _ fun other member => known other (List.mem_cons_of_mem _ member)

/-- The worker remembers, and has suppressed the duplicates so far. -/
structure Suppresses (timeout : Duration) (received : Received) : Prop where
  remembers : Remembers timeout received
  sofar : Throughout (AtMostOnce timeout) received.turns

theorem suppresses_step (received : Received) (arrival : Arrival) (next : Received)
    (typed : True ∧ arrival.data.head? = some ackpacketByte)
    (suppresses : Suppresses timeout received) (taken : step received arrival = some next) :
    Suppresses timeout next := by
  refine ⟨remembers_step suppresses.remembers taken, ?_⟩
  obtain ⟨after, accesses, handled, same⟩ := step_eq_some.mp taken
  have once := at_most_once_step suppresses.remembers typed.2 handled
  rw [same]
  exact throughout_concat.mpr ⟨suppresses.sofar, once⟩

def carries (seqNum : UInt8) (arrival : Arrival) : Bool :=
  (ackPacketOf arrival.data).any fun packet => packet.seqNum = seqNum

def doneFor (seqNum : UInt8) (turns : List Turn) : List (List SharedAccess) :=
  (turns.filter fun turn => carries seqNum turn.arrival).map Turn.accesses

/-- Two workers that treat the packets of one sequence number alike, and have done so. -/
structure Agree (seqNum : UInt8) (received alone : Received) : Prop where
  timeout : received.worker.seqNumCache.timeout = alone.worker.seqNumCache.timeout
  instant : received.worker.seqNumCache.seqNums.lookup seqNum =
    alone.worker.seqNumCache.seqNums.lookup seqNum
  done : doneFor seqNum received.turns = alone.turns.map Turn.accesses

theorem done_for_concat (seqNum : UInt8) (turns : List Turn) (turn : Turn) :
    doneFor seqNum (turns ++ [turn]) = doneFor seqNum turns ++
      if carries seqNum turn.arrival = true then [turn.accesses] else [] := by
  rw [doneFor, List.filter_append, List.map_append, ← doneFor, List.filter_cons, List.filter_nil]
  split <;> rfl

theorem agree_step_other {seqNum : UInt8} {received alone next : Received} {arrival : Arrival}
    (agree : Agree seqNum received alone) (other : carries seqNum arrival = false)
    (taken : step received arrival = some next) : Agree seqNum next alone := by
  obtain ⟨after, accesses, handled, same⟩ := step_eq_some.mp taken
  have done : doneFor seqNum next.turns = alone.turns.map Turn.accesses := by
    rw [same, done_for_concat, other, if_neg Bool.false_ne_true, List.append_nil]
    exact agree.done
  have unchanged (kept : after.seqNumCache.timeout = received.worker.seqNumCache.timeout ∧
      after.seqNumCache.seqNums.lookup seqNum =
        received.worker.seqNumCache.seqNums.lookup seqNum) : Agree seqNum next alone := by
    rw [same] at done ⊢
    exact ⟨kept.1.trans agree.timeout, kept.2.trans agree.instant, done⟩
  apply unchanged
  cases parse : ackPacketOf arrival.data with
  | none =>
      rw [worker_of_not_parsed parse handled]
      exact ⟨rfl, rfl⟩
  | some packet =>
      have different : seqNum ≠ packet.seqNum := by
        intro equal
        rw [carries, parse, Option.any_some, decide_eq_false_iff_not] at other
        exact other equal.symm
      rw [handle_data_parsed _ _ (ack_packet_of_eq_some.mp parse)] at handled
      rcases insert_cases received.worker.seqNumCache arrival.now packet.seqNum with
        accepted | refused
      · rw [accepted] at handled
        cases handled
        exact ⟨rfl, AList.lookup_insert_ne different⟩
      · rw [refused] at handled
        cases handled
        exact ⟨rfl, rfl⟩

theorem agree_step_same {seqNum : UInt8} {received alone next : Received} {arrival : Arrival}
    (agree : Agree seqNum received alone) (carried : carries seqNum arrival = true)
    (taken : step received arrival = some next) :
    ∃ after, step alone arrival = some after ∧ Agree seqNum next after := by
  obtain ⟨packet, parse, equal⟩ := (Option.any_eq_true _ _).mp carried
  have parsed := ack_packet_of_eq_some.mp parse
  have key : packet.seqNum = seqNum := of_decide_eq_true equal
  obtain ⟨after, accesses, handled, same⟩ := step_eq_some.mp taken
  rw [handle_data_parsed _ _ parsed, key] at handled
  have handledAlone := handle_data_parsed alone.worker arrival.now parsed
  rw [key] at handledAlone
  -- What `insert` answers depends on the timeout and on the one entry.
  by_cases cool : ∀ instant, received.worker.seqNumCache.seqNums.lookup seqNum = some instant →
      instant < arrival.now - received.worker.seqNumCache.timeout
  · rw [insert_accepts cool] at handled
    rw [agree.instant, agree.timeout] at cool
    rw [insert_accepts cool] at handledAlone
    refine ⟨_, step_eq_some.mpr ⟨_, _, handledAlone, rfl⟩, ?_⟩
    cases handled
    rw [same]
    constructor
    · exact agree.timeout
    · dsimp only
      rw [AList.lookup_insert, AList.lookup_insert]
    · rw [done_for_concat, carried, if_pos rfl, agree.done, List.map_append]
      rfl
  · simp only [not_forall, Nat.not_lt] at cool
    obtain ⟨instant, found, warm⟩ := cool
    rw [insert_refuses found warm] at handled
    rw [agree.instant] at found
    rw [agree.timeout] at warm
    rw [insert_refuses found warm] at handledAlone
    refine ⟨_, step_eq_some.mpr ⟨_, _, handledAlone, rfl⟩, ?_⟩
    cases handled
    rw [same]
    constructor
    · exact agree.timeout
    · exact agree.instant
    · rw [done_for_concat, carried, if_pos rfl, agree.done, List.map_append]
      rfl

/-- The packets of one sequence number are treated as if there were no others. -/
theorem agree_of_run {seqNum : UInt8} {alone : Received} (agree : Agree seqNum received alone)
    (reached : run step received arrivals = some last) :
    ∃ final, run step alone (arrivals.filter (carries seqNum)) =
      some final ∧ Agree seqNum last final := by
  induction arrivals generalizing received alone with
  | nil =>
      cases reached
      exact ⟨alone, rfl, agree⟩
  | cons arrival rest induction =>
      obtain ⟨next, taken, remaining⟩ := run_cons_some.mp reached
      cases carried : carries seqNum arrival with
      | false =>
          rw [List.filter_cons_of_neg (by rw [carried]; exact Bool.false_ne_true)]
          exact induction (agree_step_other agree carried taken) remaining
      | true =>
          obtain ⟨after, taking, agreeing⟩ := agree_step_same agree carried taken
          rw [List.filter_cons_of_pos carried, run_cons_of_step taking]
          exact induction agreeing remaining

/-- Duplicate suppression is at most once and atomic. The clock may be any. -/
theorem duplicates_suppressed (timeout : Duration) (decoder : HdlcCodec) (arrivals : List Arrival)
    (typed : ∀ arrival ∈ arrivals, arrival.data.head? = some ackpacketByte) :
    ∃ last, run step (.start ⟨SeqNumCache.new timeout, decoder⟩) arrivals = some last ∧
      last.turns.map Turn.arrival = arrivals ∧
      Throughout (AtMostOnce timeout) last.turns ∧
      ∀ seqNum, ∃ alone,
        run step (.start ⟨SeqNumCache.new timeout, decoder⟩)
          (arrivals.filter (carries seqNum)) = some alone ∧
        doneFor seqNum last.turns = alone.turns.map Turn.accesses := by
  obtain ⟨last, reached⟩ := run_of_known (.start ⟨SeqNumCache.new timeout, decoder⟩)
    fun arrival member => Or.inl (typed arrival member)
  refine ⟨last, reached, arrivals_of_run reached, ?_, ?_⟩
  · have initially : Suppresses timeout (.start ⟨SeqNumCache.new timeout, decoder⟩) :=
      ⟨remembers_start timeout decoder, throughout_nil _⟩
    exact (invariant_of_meets suppresses_step (meets_and_of_mem (meets_trivial _ _) typed)
      initially reached).sofar
  · intro seqNum
    have agree : Agree seqNum (.start ⟨SeqNumCache.new timeout, decoder⟩)
        (.start ⟨SeqNumCache.new timeout, decoder⟩) := ⟨rfl, rfl, rfl⟩
    obtain ⟨alone, remaining, agreeing⟩ := agree_of_run agree reached
    exact ⟨alone, remaining, agreeing.done⟩

theorem copy_suppressed :
    let packet := (AckPacket.new 7 [0x2A]).intoBytes
    let arrivals := [⟨0, packet⟩, ⟨fromSecs 10, packet⟩, ⟨fromSecs 11, packet⟩]
    ∃ last, run step (.start ⟨SeqNumCache.new (fromSecs 10), HdlcCodec.new⟩) arrivals = some last ∧
      last.turns.map Turn.arrival = arrivals ∧
      Throughout (AtMostOnce (fromSecs 10)) last.turns ∧
      ∀ seqNum, ∃ alone,
        run step (.start ⟨SeqNumCache.new (fromSecs 10), HdlcCodec.new⟩)
          (arrivals.filter (carries seqNum)) = some alone ∧
        doneFor seqNum last.turns = alone.turns.map Turn.accesses := by
  apply duplicates_suppressed
  intro arrival member
  simp only [List.mem_cons, List.not_mem_nil, or_false] at member
  rcases member with same | same | same <;> rw [same] <;> rfl

def acks (accesses : List SharedAccess) : List Bytes :=
  accesses.filterMap fun
    | .sendLoopback (.data ack) => some ack
    | _ => none

def delivered (accesses : List SharedAccess) : List Bytes :=
  accesses.filterMap fun
    | .sendTx (.data data) => some data
    | _ => none

def Acknowledged (turn : Turn) : Prop :=
  ∀ packet, AckPacket.tryFrom turn.arrival.data = returned (.ok packet) →
    acks turn.accesses = [(Ack.fromPacket packet).intoBytes]

def Spaced (timeout : Duration) (earlier later : Arrival) : Prop :=
  ∀ first second, AckPacket.tryFrom earlier.data = returned (.ok first) →
    AckPacket.tryFrom later.data = returned (.ok second) → first.seqNum = second.seqNum →
    earlier.now + timeout < later.now

/-- Each valid `AckPacket` gets an `Ack`, and its data goes up once in a cooldown. -/
structure Recovers (timeout : Duration) (turns : List Turn) : Prop where
  acknowledged : ∀ turn ∈ turns, Acknowledged turn
  once : turns.Pairwise fun earlier later =>
    delivered earlier.accesses ≠ [] → delivered later.accesses ≠ [] →
      Spaced timeout earlier.arrival later.arrival

theorem acknowledged_iff {arrival : Arrival} {after : SerialWorker}
    {accesses : List SharedAccess} (remembers : Remembers timeout received)
    (handled : received.worker.handleData arrival.now arrival.data = returned (after, accesses)) :
    Acknowledged ⟨arrival, received.worker, after, accesses⟩ ↔
      ∀ packet, AckPacket.tryFrom arrival.data = returned (.ok packet) →
        ¬ OnCooldown timeout received.turns arrival.now packet.seqNum := by
  constructor
  · intro acknowledged packet parsed cooling
    have silent := (handled_on_cooldown remembers parsed cooling handled).1
    have ack := acknowledged packet parsed
    rw [silent] at ack
    cases ack
  · intro cool packet parsed
    have output := (handled_cool remembers parsed (cool packet parsed) handled).1
    rw [output]
    rfl

/-- When all packets so far got their acknowledgements, they all count for the cooldown. -/
theorem on_cooldown_of_acknowledged (acknowledged : ∀ turn ∈ received.turns, Acknowledged turn)
    (now : Instant) (seqNum : UInt8) :
    OnCooldown timeout received.turns now seqNum ↔
      ∃ arrival ∈ received.turns.map Turn.arrival, now - arrival.now ≤ timeout ∧
        ∃ packet, AckPacket.tryFrom arrival.data = returned (.ok packet) ∧
          packet.seqNum = seqNum := by
  constructor
  · intro ⟨turn, member, _, recent, carried⟩
    exact ⟨turn.arrival, List.mem_map_of_mem member, recent, carried⟩
  · intro ⟨arrival, member, recent, packet, parsed, same⟩
    obtain ⟨turn, present, fromTurn⟩ := List.mem_map.mp member
    rw [← fromTurn] at recent parsed
    refine ⟨turn, present, ?_, recent, packet, parsed, same⟩
    intro silent
    have ack := acknowledged turn present packet parsed
    rw [silent] at ack
    cases ack

theorem off_cooldown_iff_spaced (acknowledged : ∀ turn ∈ received.turns, Acknowledged turn)
    (arrival : Arrival) :
    (∀ packet, AckPacket.tryFrom arrival.data = returned (.ok packet) →
        ¬ OnCooldown timeout received.turns arrival.now packet.seqNum) ↔
      ∀ earlier ∈ received.turns.map Turn.arrival, Spaced timeout earlier arrival := by
  constructor
  · intro cool earlier member first second parsedFirst parsedSecond same
    apply Nat.add_lt_of_lt_sub'
    apply Nat.not_le.mp
    intro recent
    exact cool second parsedSecond ((on_cooldown_of_acknowledged acknowledged _ _).mpr
      ⟨earlier, member, recent, first, parsedFirst, same⟩)
  · intro spaced packet parsed cooling
    obtain ⟨earlier, member, recent, first, parsedFirst, same⟩ :=
      (on_cooldown_of_acknowledged acknowledged _ _).mp cooling
    have later := spaced earlier member first packet parsedFirst parsed same
    exact absurd (Nat.le_add_of_sub_le recent) (Nat.not_le.mpr (by rw [Nat.add_comm]; exact later))

theorem acknowledged_iff_spaced (decoder : HdlcCodec)
    (reached : run step (.start ⟨SeqNumCache.new timeout, decoder⟩) arrivals = some last) :
    (∀ turn ∈ last.turns, Acknowledged turn) ↔ arrivals.Pairwise (Spaced timeout) := by
  induction arrivals using List.reverseRecOn generalizing last with
  | nil =>
      cases reached
      exact iff_of_true (fun turn member => by cases member) List.Pairwise.nil
  | append_singleton earlier arrival induction =>
      obtain ⟨middle, before, ending⟩ := run_append_some.mp reached
      obtain ⟨next, taken, done⟩ := run_cons_some.mp ending
      cases done
      obtain ⟨after, accesses, handled, same⟩ := step_eq_some.mp taken
      have remembers := remembers_of_run (remembers_start timeout decoder) before
      have seen : middle.turns.map Turn.arrival = earlier := arrivals_of_run before
      rw [same, List.pairwise_append, ← induction before]
      simp only [List.mem_append, List.mem_singleton, or_imp, forall_and, forall_eq,
        List.pairwise_singleton, true_and]
      apply and_congr_right
      intro acknowledged
      rw [acknowledged_iff remembers handled, off_cooldown_iff_spaced acknowledged, seen]

/-- Every `AckPacket` of a run is acknowledged exactly when those with equal sequence numbers come
more than the cooldown apart, so that none of them is a prompt retransmission. -/
theorem acks_recovered_iff (timeout : Duration) (decoder : HdlcCodec) (arrivals : List Arrival)
    (last : Received)
    (reached : run step (.start ⟨SeqNumCache.new timeout, decoder⟩) arrivals = some last) :
    Recovers timeout last.turns ↔ arrivals.Pairwise (Spaced timeout) := by
  constructor
  · intro recovers
    exact (acknowledged_iff_spaced decoder reached).mp recovers.acknowledged
  · intro spaced
    have seen : last.turns.map Turn.arrival = arrivals := arrivals_of_run reached
    refine ⟨(acknowledged_iff_spaced decoder reached).mpr spaced, ?_⟩
    rw [← seen, List.pairwise_map] at spaced
    exact spaced.imp fun apart _ _ => apart

def copies (apart : Duration) : List Arrival :=
  [⟨0, (AckPacket.new 7 [0x2A]).intoBytes⟩, ⟨apart, (AckPacket.new 7 [0x2A]).intoBytes⟩]

theorem run_of_copies (apart : Duration) :
    ∃ last, run step (.start SerialWorker.new) (copies apart) = some last := by
  apply run_of_known
  intro arrival member
  simp only [copies, List.mem_cons, List.not_mem_nil, or_false] at member
  rcases member with same | same <;> rw [same] <;> exact .inl rfl

theorem copies_spaced_iff (timeout apart : Duration) :
    (copies apart).Pairwise (Spaced timeout) ↔ timeout < apart := by
  have parsed := ack_packet_of_encoded 7 (List.cons_ne_nil 0x2A [])
  rw [copies, List.pairwise_pair]
  constructor
  · intro spaced
    have later : 0 + timeout < apart := spaced _ _ parsed parsed rfl
    rw [Nat.zero_add] at later
    exact later
  · intro later _ _ _ _ _
    dsimp only
    rw [Nat.zero_add]
    exact later

/-- The acknowledgement of the first copy is lost, and the retransmission after a tenth of a
second gets none. -/
theorem retransmission_unacknowledged :
    ∃ last, run step (.start SerialWorker.new) (copies 100000000) = some last ∧
      ¬ ∀ turn ∈ last.turns, Acknowledged turn := by
  obtain ⟨last, reached⟩ := run_of_copies 100000000
  refine ⟨last, reached, ?_⟩
  intro acknowledged
  have spaced := (acknowledged_iff_spaced HdlcCodec.new reached).mp acknowledged
  exact absurd ((copies_spaced_iff _ _).mp spaced) (by decide)

theorem late_retransmission_acknowledged :
    ∃ last, run step (.start SerialWorker.new) (copies (fromSecs 11)) = some last ∧
      (Recovers (fromSecs 10) last.turns ↔ (copies (fromSecs 11)).Pairwise (Spaced (fromSecs 10))) ∧
      Recovers (fromSecs 10) last.turns := by
  obtain ⟨last, reached⟩ := run_of_copies (fromSecs 11)
  have recovered := acks_recovered_iff (fromSecs 10) HdlcCodec.new _ last reached
  refine ⟨last, reached, recovered, ?_⟩
  exact recovered.mpr ((copies_spaced_iff _ _).mpr (by decide))

end Run

end MoteConnection.SerialDuplicates
