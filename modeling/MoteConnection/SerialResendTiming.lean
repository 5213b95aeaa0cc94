import MoteConnection.Library.ClockedRuns
import MoteConnection.SerialRetransmission

/-!
# When the serial write thread repeats a packet

The session against a clock: `recv_timeout` gives up no earlier than the
timeout after the thread came to it, and every write to the port and every
acknowledgement has its time.

`handle_unacked_data` is called in every turn of the loop, also in the one that
has just written the packet. So a packet is repeated at once unless its
acknowledgement has been handled by then, and the timeout does not come into it.
-/

namespace MoteConnection.SerialResendTiming

open LabeledRuns ClockedRuns SequenceNumbers
open MoteConnection.Runtime MoteConnection.SerialReceiving MoteConnection.SerialSending
open MoteConnection.SerialRetransmission

set_option autoImplicit false

/-- An acknowledgement has the number of packets that had been written when it was handled. -/
inductive Logged
  | write (entry : PortWrite)
  | ack (sent : Nat) (seqNum : UInt8)
  deriving DecidableEq, Repr

def logs (session next : Session) : List Logged :=
  (next.portLog.drop session.portLog.length).map .write ++
    (next.acks.drop session.acks.length).map fun ack => .ack ack.1 ack.2

def timedSession : WaitingSystem Session Label Logged where
  step := Session.step
  waits session := session.worker.position = .receiving
  expires label := label = .worker .timeout
  logs := logs

abbrev TimedSession := Clocked Session Logged

def timedStep (timeout : Duration) : TimedSession → Instant × Label → Option TimedSession :=
  timedSession.clockedStep timeout

def written (entry : Instant × Logged) : Option (Instant × PortWrite) :=
  match entry.2 with
  | .write write => some (entry.1, write)
  | .ack _ _ => none

def writesOf (log : List (Instant × Logged)) : List (Instant × PortWrite) :=
  log.filterMap written

def Apart (timeout : Duration) (first second : Instant × PortWrite) : Prop :=
  first.2.packet = second.2.packet → first.1 + timeout ≤ second.1

def Answers (packet sent : Nat) (seqNum : UInt8) : Prop :=
  packet < sent ∧ sent ≤ packet + 256 ∧ seqNum.toNat = packet % 256

/-- Retransmission waits for the timeout, and a packet acknowledged within the timeout is written
exactly once. -/
structure Patient (timeout : Duration) (log : List (Instant × Logged)) : Prop where
  apart : (writesOf log).Pairwise (Apart timeout)
  once : ∀ first ∈ writesOf log, first.2.resend = false →
    ∀ time sent seqNum, (time, .ack sent seqNum) ∈ log → Answers first.2.packet sent seqNum →
      first.1 ≤ time → time < first.1 + timeout →
      copiesIn ((writesOf log).map Prod.snd) first.2.packet = 1

/-- When `handle_unacked_data` looks at the map, no packet waits for its acknowledgement. -/
def NothingWaits (session : Session) (label : Label) : Prop :=
  ∀ order, label = .worker (.collect order) → session.worker.waitingForAck.keys = []

/-- The worker has nothing to repeat, and all packets in its map have their three retries. -/
structure Unhurried (worker : ConnectionWorker) : Prop where
  idle : ∀ writes, worker.position = .resending writes → writes = []
  fresh : ∀ seqNum entry, worker.waitingForAck.lookup seqNum = some entry → entry.1 = 3

structure Calm (session : Session) : Prop where
  firsts : ∀ write ∈ session.portLog, write.resend = false ∧
    session.sentRounds[write.packet]? = some write.round
  worker : Unhurried session.worker

theorem calm_fresh : Calm .fresh where
  firsts := by
    intro write none
    cases none
  worker := by
    constructor
    · intro writes place
      cases place
    · intro seqNum entry none
      cases none

variable {session next : Session} {label : Label}

theorem Calm.wrote (calm : Calm session) (taken : session.step label = some next) :
    next.portLog = session.portLog ∧ next.sentRounds = session.sentRounds ∨
    ∃ data, next.portLog = session.portLog ++
        [⟨session.sentRounds.length, session.rounds, false, writeToStream data⟩] ∧
      next.sentRounds = session.sentRounds ++ [session.rounds] := by
  cases label with
  | handleAck data =>
      have untouched := untouched_of_handle_ack taken
      exact .inl ⟨untouched.portLog, untouched.sentRounds⟩
  | worker action =>
      obtain ⟨worker, moved, same⟩ := Option.map_eq_some_iff.mp taken
      rw [← same]
      unfold Session.record
      split
      · exact .inl ⟨rfl, rfl⟩
      · rename_i data _
        exact .inr ⟨data, rfl, rfl⟩
      · exact .inl ⟨rfl, rfl⟩
      · rename_i data rest place
        cases calm.worker.idle _ place
      · exact .inl ⟨rfl, rfl⟩

theorem Calm.firsts_step (calm : Calm session) (taken : session.step label = some next) :
    ∀ write ∈ next.portLog, write.resend = false ∧
      next.sentRounds[write.packet]? = some write.round := by
  intro write member
  rcases calm.wrote taken with ⟨sameLog, sameRounds⟩ | ⟨data, log, rounds⟩
  · rw [sameLog] at member
    rw [sameRounds]
    exact calm.firsts write member
  · rw [log] at member
    rw [rounds]
    rcases List.mem_append.mp member with old | new
    · obtain ⟨first, tagged⟩ := calm.firsts write old
      have inside := (List.getElem?_eq_some_iff.mp tagged).1
      exact ⟨first, (List.getElem?_append_left inside).trans tagged⟩
    · rw [List.mem_singleton.mp new]
      exact ⟨rfl, List.getElem?_concat_length⟩

theorem collect_nothing {guard left : WaitingForAck} {order : List UInt8} {writes : List Bytes}
    (visited : order.Perm guard.keys) (empty : guard.keys = [])
    (collected : collectUnacked guard order = .returned (left, writes)) :
    writes = [] ∧ ∀ seqNum, left.lookup seqNum = none := by
  have none (seqNum : UInt8) : guard.lookup seqNum = none := by
    rw [AList.lookup_eq_none, AList.mem_keys, empty]
    exact List.not_mem_nil
  have noOrder : order = [] := by
    rw [empty] at visited
    exact visited.eq_nil
  obtain ⟨found, reached, entries⟩ := collect_unacked_spec visited (by
    intro seqNum entry present
    rw [none seqNum] at present
    cases present)
  rw [collected] at reached
  cases reached
  constructor
  · rw [noOrder]
    rfl
  · intro seqNum
    rw [entries seqNum, none seqNum]
    rfl

theorem unhurried_step {worker after : ConnectionWorker} {action : Action}
    (unhurried : Unhurried worker)
    (nothing : ∀ order, action = .collect order → worker.waitingForAck.keys = [])
    (taken : SerialSending.step worker action = some after) : Unhurried after := by
  cases taken_of_step taken with
  | mark data place =>
      constructor
      · intro writes elsewhere
        cases elsewhere
      · intro seqNum entry found
        rw [lookup_insert] at found
        split_ifs at found
        · cases found
          rfl
        · exact unhurried.fresh seqNum entry found
  | collect order guard writes place visited collected =>
      obtain ⟨noWrites, noEntries⟩ := collect_nothing visited (nothing order rfl) collected
      constructor
      · intro others same
        cases same
        exact noWrites
      · intro seqNum entry found
        rw [noEntries seqNum] at found
        cases found
  | resend data rest place => cases unhurried.idle _ place
  | _ =>
      constructor
      · intro writes elsewhere
        cases elsewhere
      · exact unhurried.fresh

theorem record_worker (session : Session) (action : Action) (after : ConnectionWorker) :
    (session.record action after).worker = after := by
  unfold Session.record
  split <;> rfl

theorem calm_step (calm : Calm session) (nothing : NothingWaits session label)
    (taken : session.step label = some next) : Calm next := by
  refine ⟨calm.firsts_step taken, ?_⟩
  cases label with
  | handleAck data =>
      rcases step_handle_ack taken with same | ⟨seqNum, _, same⟩
      · rw [same]
        exact calm.worker
      · rw [same]
        refine ⟨calm.worker.idle, ?_⟩
        intro other entry found
        rw [Session.removeUnacked, lookup_remove_unacked] at found
        split_ifs at found
        exact calm.worker.fresh other entry found
  | worker action =>
      obtain ⟨after, moved, same⟩ := Option.map_eq_some_iff.mp taken
      rw [← same, record_worker]
      apply unhurried_step calm.worker _ moved
      intro order isCollect
      exact nothing order (congrArg Label.worker isCollect)

section Clock

variable {timeout : Duration} {clocked : TimedSession}

theorem writes_of_append (first second : List (Instant × Logged)) :
    writesOf (first ++ second) = writesOf first ++ writesOf second := List.filterMap_append

theorem writes_of_logs (time : Instant) (session next : Session) :
    writesOf ((logs session next).map fun entry => (time, entry)) =
      (next.portLog.drop session.portLog.length).map fun write => (time, write) := by
  have writes (log : List PortWrite) :
      writesOf ((log.map Logged.write).map fun entry => (time, entry)) =
        log.map fun write => (time, write) := by
    induction log with
    | nil => rfl
    | cons write rest induction =>
        rw [List.map_cons, List.map_cons, List.map_cons, ← induction]
        rfl
  have acks (acknowledgements : List (Nat × UInt8)) :
      writesOf ((acknowledgements.map fun ack => Logged.ack ack.1 ack.2).map
        fun entry => (time, entry)) = [] := by
    induction acknowledgements with
    | nil => rfl
    | cons ack rest induction => exact induction
  rw [logs, List.map_append, writes_of_append, writes, acks, List.append_nil]

theorem writes_of_follow (clocked : TimedSession) (time : Instant) {next : Session}
    {later : List PortWrite} (grown : next.portLog = clocked.state.portLog ++ later) :
    writesOf (timedSession.follow clocked time next).log =
      writesOf clocked.log ++ later.map fun write => (time, write) := by
  have new := writes_of_logs time clocked.state next
  rw [grown, List.drop_left] at new
  rw [← new]
  exact writes_of_append _ _

theorem writes_kept (clocked : TimedSession) (time : Instant) (next : Session) :
    ∃ later, writesOf (timedSession.follow clocked time next).log =
      writesOf clocked.log ++ later :=
  ⟨_, writes_of_append _ _⟩

structure Booked (clocked : TimedSession) : Prop where
  inv : SessionInv clocked.state
  calm : Calm clocked.state
  logged : (writesOf clocked.log).map Prod.snd = clocked.state.portLog

theorem booked_start : Booked (.start .fresh) where
  inv := inv_fresh
  calm := calm_fresh
  logged := rfl

theorem booked_follow (booked : Booked clocked) (time : Instant)
    (nothing : NothingWaits clocked.state label)
    (moved : clocked.state.step label = some next) :
    Booked (timedSession.follow clocked time next) := by
  refine ⟨inv_step label booked.inv moved, calm_step booked.calm nothing moved, ?_⟩
  obtain ⟨later, grown⟩ := booked.inv.port_log_grows moved
  rw [writes_of_follow clocked time grown, List.map_append, booked.logged, List.map_map]
  have same : (Prod.snd ∘ fun write : PortWrite => (time, write)) = id := rfl
  rw [same, List.map_id]
  exact grown.symm

theorem booked_step (clocked : TimedSession) (timed : Instant × Label) (after : TimedSession)
    (nothing : NothingWaits clocked.state timed.2) (booked : Booked clocked)
    (taken : timedStep timeout clocked timed = some after) : Booked after := by
  obtain ⟨_, _, next, moved, same⟩ := WaitingSystem.clocked_step_some.mp taken
  rw [same]
  exact booked_follow booked timed.1 nothing moved

theorem packets_of_firsts (inv : SessionInv session)
    (firsts : ∀ write ∈ session.portLog, write.resend = false) :
    session.portLog.map (·.packet) = List.range session.sentRounds.length := by
  rw [← inv.firsts, List.filter_eq_self.mpr]
  intro write member
  rw [firsts write member]
  rfl

/-- A packet that is never repeated is written once, whenever that is. -/
theorem patient_of_booked (booked : Booked clocked) : Patient timeout clocked.log := by
  have packets := packets_of_firsts booked.inv
    fun write member => (booked.calm.firsts write member).1
  have distinct : (clocked.state.portLog.map (·.packet)).Nodup := by
    rw [packets]
    exact List.nodup_range
  constructor
  · rw [← booked.logged, List.map_map, List.Nodup, List.pairwise_map] at distinct
    exact distinct.imp fun different same => absurd same different
  · intro first member _ _ _ _ _ _ _ _
    have present : first.2 ∈ clocked.state.portLog := by
      rw [← booked.logged]
      exact List.mem_map_of_mem member
    have counted : copiesIn clocked.state.portLog first.2.packet =
        (clocked.state.portLog.map (·.packet)).count first.2.packet := by
      rw [copiesIn, List.count, List.countP_map]
      apply List.countP_congr
      intro write _
      simp
    rw [booked.logged, counted]
    exact List.count_eq_one_of_mem distinct (List.mem_map_of_mem present)

theorem time_of_written {entry : Instant × Logged} {write : Instant × PortWrite}
    (same : written entry = some write) : write.1 = entry.1 := by
  unfold written at same
  split at same
  · cases same
    rfl
  · cases same

theorem patient_of_zero {log : List (Instant × Logged)}
    (sorted : log.Pairwise fun earlier later => earlier.1 ≤ later.1) : Patient 0 log := by
  constructor
  · rw [writesOf, List.pairwise_filterMap]
    apply sorted.imp
    intro first second ordered left leftWritten right rightWritten _
    rw [time_of_written leftWritten, time_of_written rightWritten]
    exact ordered
  · intro first _ _ time _ _ _ _ after before
    exact absurd before (Nat.not_lt.mpr after)

theorem prompt_time_now (clocked : TimedSession) (other : label ≠ .worker .timeout) :
    timedSession.promptTime timeout clocked label = clocked.now := by
  have running : timedSession.expires label = false := decide_eq_false other
  rw [WaitingSystem.promptTime, running]
  rfl

/-- A calm session on a prompt clock: what was written in the turn under way was written now. -/
structure Paced (clocked : TimedSession) : Prop where
  booked : Booked clocked
  started : WaitingSystem.Started clocked
  current : ∀ write ∈ writesOf clocked.log,
    write.2.round = clocked.state.rounds → write.1 = clocked.now

theorem paced_start : Paced (.start .fresh) where
  booked := booked_start
  started := Nat.le_refl 0
  current := by
    intro write none
    cases none

theorem rounds_step (taken : session.step label = some next) :
    next.rounds = session.rounds ∨ next.rounds = session.rounds + 1 := by
  cases label with
  | handleAck data =>
      left
      exact (untouched_of_handle_ack taken).rounds
  | worker action =>
      obtain ⟨worker, moved, same⟩ := Option.map_eq_some_iff.mp taken
      rw [← same]
      unfold Session.record
      split
      · exact .inl rfl
      · exact .inl rfl
      · exact .inr rfl
      · exact .inl rfl
      · exact .inl rfl

theorem waiting_rounds (inv : SessionInv session) (calm : Calm session)
    (taken : session.step (.worker .timeout) = some next) :
    ∀ write ∈ session.portLog, write.round < session.rounds := by
  obtain ⟨worker, moved, _⟩ := Option.map_eq_some_iff.mp taken
  cases taken_of_step moved with
  | timeout place =>
      have counters := inv.place
      simp only [InPlace, place] at counters
      intro write member
      have tagged := (calm.firsts write member).2
      exact counters.2.2 write.round (List.mem_of_getElem? tagged)

theorem paced_step (paced : Paced clocked) (nothing : NothingWaits clocked.state label)
    {after : TimedSession} (taken : timedSession.promptStep timeout clocked label = some after) :
    Paced after := by
  obtain ⟨next, moved, same⟩ := (WaitingSystem.prompt_step_some paced.started).mp taken
  have inv := paced.booked.inv
  rw [same]
  refine ⟨booked_follow paced.booked _ nothing moved, ?_, ?_⟩
  · have started := WaitingSystem.started_step clocked _ after paced.started taken
    rw [same] at started
    exact started
  · intro write member round
    obtain ⟨later, grown⟩ := inv.port_log_grows moved
    rw [writes_of_follow clocked _ grown] at member
    rcases List.mem_append.mp member with old | new
    · have logged : write.2 ∈ clocked.state.portLog := by
        rw [← paced.booked.logged]
        exact List.mem_map_of_mem old
      have tagged := (paced.booked.calm.firsts write.2 logged).2
      have bounded := inv.bounded write.2.round (List.mem_of_getElem? tagged)
      have sameRound : write.2.round = next.rounds := round
      rcases rounds_step moved with unchanged | increased
      · rw [unchanged] at sameRound
        have written := paced.current write old sameRound
        rw [written]
        -- The clock stands still, except where the worker waits between two turns.
        have running : label ≠ .worker .timeout := by
          intro expires
          rw [expires] at moved
          have earlier := waiting_rounds inv paced.booked.calm moved write.2 logged
          omega
        rw [WaitingSystem.follow, prompt_time_now clocked running]
      · omega
    · obtain ⟨_, _, made⟩ := List.mem_map.mp new
      rw [← made]
      rfl

/-- The retransmission is bound to come at once, or has come. -/
def Doomed (timeout : Duration) (clocked : TimedSession) : Prop :=
  (∃ message, clocked.state.worker.position = .panicked message) ∨
  (¬ (writesOf clocked.log).Pairwise (Apart timeout)) ∨
  ∃ data rest, clocked.state.worker.position = .resending (data :: rest) ∧
    ∃ write ∈ writesOf clocked.log, write.1 = clocked.now ∧
      write.2.packet = carriedBy clocked.state.sentRounds.length data

theorem Paced.written_now (paced : Paced clocked) {seqNum : UInt8} {entry : UInt8 × Bytes}
    (found : clocked.state.worker.waitingForAck.lookup seqNum = some entry) :
    ∃ write ∈ writesOf clocked.log, write.1 = clocked.now ∧
      write.2.packet = carriedBy clocked.state.sentRounds.length entry.2 := by
  have inv := paced.booked.inv
  obtain ⟨packet, round, belongs⟩ := inv.entries seqNum entry found
  have carried := inv.entry_carried belongs
  obtain ⟨_, sent, age, _, _⟩ := belongs
  have three : entry.1.toNat = 3 := by
    rw [paced.booked.calm.worker.fresh seqNum entry found]
    rfl
  have thisRound : round = clocked.state.rounds := by omega
  have listed : packet ∈ clocked.state.portLog.map (·.packet) := by
    rw [packets_of_firsts inv fun write member => (paced.booked.calm.firsts write member).1]
    exact List.mem_range.mpr (List.getElem?_eq_some_iff.mp sent).1
  obtain ⟨first, logged, samePacket⟩ := List.mem_map.mp listed
  have tagged := (paced.booked.calm.firsts first logged).2
  rw [samePacket, sent] at tagged
  rw [← paced.booked.logged] at logged
  obtain ⟨write, member, same⟩ := List.mem_map.mp logged
  refine ⟨write, member, paced.current write member ?_, ?_⟩
  · rw [same, ← thisRound]
    exact (Option.some.inj tagged).symm
  · rw [same, carried]
    exact samePacket

theorem doomed_of_collect (paced : Paced clocked) (waiting : ¬ NothingWaits clocked.state label)
    {after : TimedSession} (taken : timedSession.promptStep timeout clocked label = some after) :
    Doomed timeout after := by
  simp only [NothingWaits, not_forall] at waiting
  obtain ⟨order, isCollect, nonempty⟩ := waiting
  rw [isCollect] at taken
  obtain ⟨next, moved, same⟩ := (WaitingSystem.prompt_step_some paced.started).mp taken
  obtain ⟨worker, stepped, recorded⟩ := Option.map_eq_some_iff.mp moved
  have position : next.worker = worker := by rw [← recorded, record_worker]
  rw [same]
  cases taken_of_step stepped with
  | collectPanics _ message place visited collected =>
      exact .inl ⟨message, congrArg ConnectionWorker.position position⟩
  | collect _ guard writes place visited collected =>
      have sameRounds : next.sentRounds = clocked.state.sentRounds := by
        rw [← recorded]
        simp only [Session.record, place]
      obtain ⟨left, reached, _⟩ := collect_unacked_spec visited paced.booked.inv.positive
      rw [collected] at reached
      cases reached
      obtain ⟨first, listed⟩ := List.exists_mem_of_ne_nil _ nonempty
      have present : (clocked.state.worker.waitingForAck.lookup first).isSome := by
        rw [AList.lookup_isSome, AList.mem_keys]
        exact listed
      obtain ⟨entry, found⟩ := Option.isSome_iff_exists.mp present
      have pending : entry.2 ∈ order.filterMap fun seqNum =>
          (clocked.state.worker.waitingForAck.lookup seqNum).map (·.2) :=
        List.mem_filterMap.mpr ⟨first, visited.mem_iff.mpr listed, by rw [found]; rfl⟩
      obtain ⟨data, rest, split⟩ := List.exists_cons_of_ne_nil (List.ne_nil_of_mem pending)
      obtain ⟨seqNum, _, ofEntry⟩ := List.mem_filterMap.mp (split ▸ List.mem_cons_self)
      obtain ⟨owner, recordedOwner, sameData⟩ := Option.map_eq_some_iff.mp ofEntry
      obtain ⟨write, member, now, packet⟩ := paced.written_now recordedOwner
      obtain ⟨later, grown⟩ := writes_kept clocked
        (timedSession.promptTime timeout clocked (.worker (.collect order))) next
      refine .inr (.inr ⟨data, rest, ?_, write, ?_, ?_, ?_⟩)
      · rw [WaitingSystem.follow, position, split]
      · rw [grown]
        exact List.mem_append_left _ member
      · rw [WaitingSystem.follow, prompt_time_now clocked (by intro other; cases other)]
        exact now
      · rw [WaitingSystem.follow, sameRounds, packet, sameData]

theorem panicked_step {message : String} (taken : session.step label = some next)
    (place : session.worker.position = .panicked message) :
    next.worker.position = .panicked message := by
  cases label with
  | handleAck data => exact (untouched_of_handle_ack taken).position.trans place
  | worker action =>
      obtain ⟨worker, stepped, _⟩ := Option.map_eq_some_iff.mp taken
      unfold SerialSending.step at stepped
      rw [place] at stepped
      cases stepped

/-- A pending copy is written next, or the worker panics. -/
theorem pending_copy_step {data : Bytes} {rest : List Bytes}
    (taken : session.step label = some next)
    (place : session.worker.position = .resending (data :: rest)) :
    (next.worker.position = session.worker.position ∧ next.sentRounds = session.sentRounds ∧
        label ≠ .worker .timeout) ∨
    (∃ message, next.worker.position = .panicked message) ∨
    label ≠ .worker .timeout ∧ next.portLog = session.portLog ++
      [⟨carriedBy session.sentRounds.length data, session.rounds - 1, true,
        writeToStream data⟩] := by
  cases label with
  | handleAck bytes =>
      have untouched := untouched_of_handle_ack taken
      have running : Label.handleAck bytes ≠ .worker .timeout := by
        intro other
        cases other
      left
      exact ⟨untouched.position, untouched.sentRounds, running⟩
  | worker action =>
      obtain ⟨worker, stepped, recorded⟩ := Option.map_eq_some_iff.mp taken
      cases action with
      | write accepted =>
          simp only [SerialSending.step, place, Option.some.injEq] at stepped
          right
          cases accepted with
          | false =>
              left
              refine ⟨writeFailed, ?_⟩
              rw [← recorded, record_worker, ← stepped]
              rfl
          | true =>
              right
              constructor
              · intro other
                cases other
              · rw [← recorded]
                simp only [Session.record, place]
      | _ => simp [SerialSending.step, place] at stepped

theorem doomed_step (positive : 0 < timeout) (clocked : TimedSession) (label : Label)
    (after : TimedSession) (doomed : Doomed timeout clocked)
    (taken : timedSession.promptStep timeout clocked label = some after) :
    Doomed timeout after := by
  obtain ⟨_, _, next, moved, same⟩ := WaitingSystem.clocked_step_some.mp taken
  obtain ⟨later, grown⟩ := writes_kept clocked (timedSession.promptTime timeout clocked label) next
  rw [same]
  rcases doomed with ⟨message, place⟩ | crowded | ⟨data, rest, place, write, member, now, packet⟩
  · exact .inl ⟨message, panicked_step moved place⟩
  · refine .inr (.inl ?_)
    rw [grown]
    intro apart
    exact crowded (List.pairwise_append.mp apart).1
  · rcases pending_copy_step moved place with
      ⟨position, sentRounds, running⟩ | ⟨message, panicked⟩ | ⟨running, logged⟩
    · refine .inr (.inr ⟨data, rest, position.trans place, write, ?_, ?_, ?_⟩)
      · rw [grown]
        exact List.mem_append_left _ member
      · rw [WaitingSystem.follow, prompt_time_now clocked running]
        exact now
      · rw [WaitingSystem.follow, sentRounds]
        exact packet
    · exact .inl ⟨message, panicked⟩
    · -- The copy comes at the time of the first write.
      right
      left
      rw [writes_of_follow clocked _ logged, prompt_time_now clocked running]
      intro apart
      have late := (List.pairwise_append.mp apart).2.2 write member _
        (List.mem_singleton.mpr rfl) packet
      rw [now] at late
      exact absurd late (Nat.not_le.mpr (Nat.lt_add_of_pos_right positive))

/-- If no two writes are too close on the prompt clock, nothing waited at any round. -/
theorem meets_of_apart (positive : 0 < timeout) {labels : List Label} {final : TimedSession}
    (paced : Paced clocked)
    (reached : run (timedSession.promptStep timeout) clocked labels = some final)
    (settled : final.state.worker.position = .receiving)
    (apart : (writesOf final.log).Pairwise (Apart timeout)) :
    Meets (timedSession.promptStep timeout)
      (fun clocked label => NothingWaits clocked.state label) clocked labels := by
  induction labels generalizing clocked with
  | nil => trivial
  | cons label rest induction =>
      obtain ⟨next, taken, remaining⟩ := run_cons_some.mp reached
      by_cases nothing : NothingWaits clocked.state label
      · refine ⟨nothing, ?_⟩
        intro other same
        rw [taken] at same
        cases same
        exact induction (paced_step paced nothing taken) remaining
      · exfalso
        rcases invariant_of_run (doomed_step positive) (doomed_of_collect paced nothing taken)
          remaining with ⟨message, place⟩ | crowded | ⟨data, others, place, _⟩
        · rw [settled] at place
          cases place
        · exact crowded apart
        · rw [settled] at place
          cases place

end Clock

/-- The session is patient on every clock if the timeout is zero, or if nothing waits when
`handle_unacked_data` is called; and a session at the end of a turn is so only then. -/
theorem resends_wait_iff (timeout : Duration) (labels : List Label) (last : Session)
    (reached : run Session.step .fresh labels = some last) :
    (timeout = 0 ∨ Meets Session.step NothingWaits .fresh labels →
      ∀ timed final, timed.map Prod.snd = labels →
        run (timedStep timeout) (.start .fresh) timed = some final → Patient timeout final.log) ∧
    (last.worker.position = .receiving →
      (∀ timed final, timed.map Prod.snd = labels →
        run (timedStep timeout) (.start .fresh) timed = some final → Patient timeout final.log) →
      timeout = 0 ∨ Meets Session.step NothingWaits .fresh labels) := by
  constructor
  · intro condition timed final untimed timedReached
    rcases condition with zero | nothing
    · rw [zero]
      exact patient_of_zero
        (invariant_of_run WaitingSystem.ordered_step (WaitingSystem.ordered_start _)
          timedReached).sorted
    · rw [← untimed] at nothing
      have meets : Meets (timedStep timeout)
          (fun clocked timed => NothingWaits clocked.state timed.2) (.start .fresh) timed :=
        timedSession.meets_clocked nothing
      exact patient_of_booked (invariant_of_meets booked_step meets booked_start timedReached)
  · intro settled patient
    rcases Nat.eq_zero_or_pos timeout with zero | positive
    · exact .inl zero
    · right
      obtain ⟨timed, final, untimed, timedReached, promptReached, ended⟩ :=
        timedSession.prompt_of_run timeout paced_start.started reached
      have apart := (patient timed final untimed timedReached).apart
      rw [← ended] at settled
      exact timedSession.meets_of_prompt paced_start.started
        (meets_of_apart positive paced_start promptReached settled apart)

def oneTurn : List Label :=
  [.worker (.receive (.data [0x2A])), .worker (.write true), .worker .mark, .worker .bump,
    .worker (.collect [0]), .worker (.write true), .worker .loop]

theorem resends_of_one_turn :
    let timeout := 100000000
    ∃ last, run Session.step .fresh oneTurn = some last ∧
      ((timeout = 0 ∨ Meets Session.step NothingWaits .fresh oneTurn) ↔
        ∀ timed final, timed.map Prod.snd = oneTurn →
          run (timedStep timeout) (.start .fresh) timed = some final →
            Patient timeout final.log) := by
  intro timeout
  have ended : (run Session.step .fresh oneTurn).map (fun last => last.worker.position) =
      some .receiving := by
    decide +kernel
  obtain ⟨last, reached, settled⟩ := Option.map_eq_some_iff.mp ended
  have both := resends_wait_iff timeout oneTurn last reached
  exact ⟨last, reached, both.1, both.2 settled⟩

/-- With a timeout of a tenth of a second and a clock that stands still, the packet is written
twice. -/
theorem repeated_at_once :
    ∃ final, run (timedStep 100000000) (.start .fresh) (oneTurn.map fun label => (0, label)) =
        some final ∧
      ¬ Patient 100000000 final.log := by
  have twice : (run (timedStep 100000000) (.start .fresh)
      (oneTurn.map fun label => (0, label))).map
        (fun final => (writesOf final.log).map fun write => (write.1, write.2.packet)) =
      some [(0, 0), (0, 0)] := by
    decide +kernel
  obtain ⟨final, reached, writes⟩ := Option.map_eq_some_iff.mp twice
  refine ⟨final, reached, ?_⟩
  intro patient
  have apart : ((writesOf final.log).map fun write => (write.1, write.2.packet)).Pairwise
      fun first second => first.2 = second.2 → first.1 + 100000000 ≤ second.1 :=
    List.pairwise_map.mpr patient.apart
  rw [writes, List.pairwise_pair] at apart
  exact absurd (apart rfl) (by decide)

end MoteConnection.SerialResendTiming
