import MoteConnection.Library.LabeledRuns
import MoteConnection.Library.SequenceNumbers
import MoteConnection.SerialSending

/-!
# Retransmission bookkeeping

The write thread of one session with the acknowledgements its read thread
handles, in any interleaving, and a ledger beside them: the payloads received,
the round in which each packet was first written, every write to the port, and
every acknowledgement. The ledger only records; no step looks at it.

Packets are counted from zero. A copy is booked to the newest packet with the
sequence number the copy carries, and the invariant shows that it is a copy of
that packet.
-/

namespace MoteConnection.SerialRetransmission

open LabeledRuns SequenceNumbers
open MoteConnection.Runtime MoteConnection.HdlcFraming MoteConnection.SerialPackets
open MoteConnection.SerialReceiving MoteConnection.SerialSending
open Outcome

set_option autoImplicit false

structure PortWrite where
  packet : Nat
  round : Nat
  resend : Bool
  frame : Bytes
  deriving DecidableEq, Repr

/-- `rounds` counts the calls of `handle_unacked_data`, one for each turn of the loop;
`sentRounds` has, for each packet, the round at the end of the turn that first wrote it; `acks`
has, for each acknowledgement, how many packets had been written and its sequence number. -/
structure Session where
  worker : ConnectionWorker
  payloads : List Bytes
  sentRounds : List Nat
  rounds : Nat
  portLog : List PortWrite
  acks : List (Nat × UInt8)

def Session.fresh : Session := ⟨.new, [], [], 0, [], []⟩

def carriedBy (count : Nat) (data : Bytes) : Nat := newest 256 count (data.getD 1 0).toNat

def copiesIn (log : List PortWrite) (packet : Nat) : Nat :=
  log.countP fun write => write.packet = packet

theorem copies_in_concat (log : List PortWrite) (write : PortWrite) (packet : Nat) :
    copiesIn (log ++ [write]) packet =
      copiesIn log packet + if write.packet = packet then 1 else 0 := by
  rw [copiesIn, List.countP_append, List.countP_singleton]
  simp only [copiesIn, decide_eq_true_eq]

inductive Label
  | worker (action : Action)
  | handleAck (data : Bytes)
  deriving DecidableEq, Repr

namespace Session

def record (session : Session) (action : Action) (next : ConnectionWorker) : Session :=
  match session.worker.position, action with
  | .receiving, .receive (.data payload) =>
      { session with worker := next, payloads := session.payloads ++ [payload] }
  | .writing data, .write true =>
      { session with
        worker := next
        sentRounds := session.sentRounds ++ [session.rounds]
        portLog := session.portLog ++
          [⟨session.sentRounds.length, session.rounds, false, writeToStream data⟩] }
  | .collecting, .collect _ => { session with worker := next, rounds := session.rounds + 1 }
  | .resending (data :: _), .write true =>
      { session with
        worker := next
        portLog := session.portLog ++
          [⟨carriedBy session.sentRounds.length data, session.rounds - 1, true,
            writeToStream data⟩] }
  | _, _ => { session with worker := next }

def removeUnacked (session : Session) (seqNum : UInt8) : Session :=
  { session with
    worker := { session.worker with
      waitingForAck := SerialReceiving.removeUnacked session.worker.waitingForAck seqNum }
    acks := session.acks ++ [(session.sentRounds.length, seqNum)] }

/-- Of the read thread's accesses, those that reach the map. -/
def perform (session : Session) : SharedAccess → Session
  | .removeUnacked seqNum => session.removeUnacked seqNum
  | _ => session

def step (session : Session) : Label → Option Session
  | .worker action => (SerialSending.step session.worker action).map (session.record action)
  | .handleAck data =>
      match SerialWorker.new.handleAck data with
      | returned (_, accesses) => some (accesses.foldl perform session)
      | panicked _ => none

/-- An acknowledgement with the packet's sequence number was handled while the packet was the
newest one written with it. -/
def Acknowledged (session : Session) (packet : Nat) : Prop :=
  ∃ ack ∈ session.acks, packet < ack.1 ∧ ack.1 ≤ packet + 256 ∧ ack.2.toNat = packet % 256

def pendingWrites (session : Session) : List Bytes :=
  match session.worker.position with
  | .resending writes => writes
  | _ => []

def Running (session : Session) : Prop :=
  ∀ message, session.worker.position ≠ .panicked message

def copies (session : Session) (packet : Nat) : Nat := copiesIn session.portLog packet

/-- The writes of a packet that the current round has still to make. -/
def copiesPending (session : Session) (packet : Nat) : Nat :=
  session.pendingWrites.countP fun data => carriedBy session.sentRounds.length data = packet

end Session

/-- The packet's sequence number is its count modulo 256. -/
def seqNumOf (packet : Nat) : UInt8 := UInt8.ofNat (packet % 256)

theorem seq_num_of_toNat (packet : Nat) : (seqNumOf packet).toNat = packet % 256 := by
  rw [seqNumOf, UInt8.toNat_ofNat']
  omega

theorem seq_num_of_inj {first second : Nat} :
    seqNumOf first = seqNumOf second ↔ first % 256 = second % 256 := by
  rw [← UInt8.toNat_inj, seq_num_of_toNat, seq_num_of_toNat]

theorem seq_num_of_succ (packet : Nat) : bumpSeqNum (seqNumOf packet) = seqNumOf (packet + 1) := by
  rw [← UInt8.toNat_inj, bump_seq_num_toNat, seq_num_of_toNat, seq_num_of_toNat]
  omega

def Carries (payloads : List Bytes) (packet : Nat) (data : Bytes) : Prop :=
  ∃ payload, payloads[packet]? = some payload ∧
    data = (AckPacket.new (seqNumOf packet) payload).intoBytes

theorem Carries.append {payloads : List Bytes} {packet : Nat} {data : Bytes}
    (carries : Carries payloads packet data) (later : List Bytes) :
    Carries (payloads ++ later) packet data := by
  obtain ⟨payload, found, same⟩ := carries
  refine ⟨payload, ?_, same⟩
  rw [List.getElem?_append_left (List.getElem?_eq_some_iff.mp found).1]
  exact found

theorem Carries.carried_by {payloads : List Bytes} {packet count : Nat} {data : Bytes}
    (carries : Carries payloads packet data) (sent : packet < count)
    (current : count ≤ packet + 256) : carriedBy count data = packet := by
  obtain ⟨payload, _, rfl⟩ := carries
  have second : ((AckPacket.new (seqNumOf packet) payload).intoBytes.getD 1 0) =
      seqNumOf packet := rfl
  rw [carriedBy, second, seq_num_of_toNat]
  exact newest_of_current sent current

def InPlace (session : Session) : Prop :=
  let sent := session.sentRounds.length
  match session.worker.position with
  | .receiving | .stopped | .resending _ =>
      session.payloads.length = sent ∧ session.worker.seqNum = seqNumOf sent ∧
        ∀ round ∈ session.sentRounds, round < session.rounds
  | .writing data =>
      session.payloads.length = sent + 1 ∧ session.worker.seqNum = seqNumOf sent ∧
        (∀ round ∈ session.sentRounds, round < session.rounds) ∧
        Carries session.payloads sent data
  | .marking data =>
      ∃ packet, sent = packet + 1 ∧ session.payloads.length = sent ∧
        session.worker.seqNum = seqNumOf packet ∧
        session.sentRounds[packet]? = some session.rounds ∧
        Carries session.payloads packet data ∧
        session.worker.waitingForAck.lookup session.worker.seqNum = none
  | .bumping =>
      ∃ packet, sent = packet + 1 ∧ session.payloads.length = sent ∧
        session.worker.seqNum = seqNumOf packet
  | .collecting => session.payloads.length = sent ∧ session.worker.seqNum = seqNumOf sent
  | .panicked _ => True

/-- An entry belongs to a packet first written in round `round`, and its retries tell its age. -/
def Entry (session : Session) (seqNum : UInt8) (entry : UInt8 × Bytes) (packet round : Nat) :
    Prop :=
  seqNum = seqNumOf packet ∧ session.sentRounds[packet]? = some round ∧
    entry.1.toNat + session.rounds = 3 + round ∧ 1 ≤ entry.1.toNat ∧
    Carries session.payloads packet entry.2

structure SessionInv (session : Session) : Prop where
  place : InPlace session
  increasing : session.sentRounds.Pairwise (· < ·)
  bounded : ∀ round ∈ session.sentRounds, round ≤ session.rounds
  entries : ∀ seqNum entry, session.worker.waitingForAck.lookup seqNum = some entry →
    ∃ packet round, Entry session seqNum entry packet round
  logged : ∀ write ∈ session.portLog, write.packet < session.sentRounds.length ∧
    (write.resend = true → write.round < session.rounds) ∧
    ∃ data, Carries session.payloads write.packet data ∧ write.frame = writeToStream data
  firsts : (session.portLog.filter fun write => !write.resend).map (·.packet) =
    List.range session.sentRounds.length
  pending : ∀ data ∈ session.pendingWrites, ∃ packet round,
    session.sentRounds[packet]? = some round ∧ session.rounds ≤ round + 3 ∧
      Carries session.payloads packet data
  atMost : ∀ packet round, session.sentRounds[packet]? = some round →
    session.copies packet + session.copiesPending packet ≤ 1 + min (session.rounds - round) 3
  atLeast : session.Running → ∀ packet round, session.sentRounds[packet]? = some round →
    ¬ session.Acknowledged packet →
    1 + min (session.rounds - round) 3 ≤ session.copies packet + session.copiesPending packet
  kept : session.Running → ∀ packet round, session.sentRounds[packet]? = some round →
    session.rounds < round + 3 → ¬ session.Acknowledged packet →
    (session.worker.waitingForAck.lookup (seqNumOf packet)).isSome ∨
      (packet + 1 = session.sentRounds.length ∧
        ∃ data, session.worker.position = .marking data)

theorem inv_fresh : SessionInv .fresh where
  place := by
    refine ⟨rfl, rfl, ?_⟩
    intro round member
    cases member
  increasing := List.Pairwise.nil
  bounded := by
    intro round member
    cases member
  entries := by
    intro seqNum entry found
    cases found
  logged := by
    intro write member
    cases member
  firsts := rfl
  pending := by
    intro data member
    cases member
  atMost := by
    intro packet round sent
    cases sent
  atLeast := by
    intro _ packet round sent
    cases sent
  kept := by
    intro _ packet round sent
    cases sent

variable {session : Session}

/-- A packet whose copies may still be about is one of the newest four. -/
theorem SessionInv.young (inv : SessionInv session) {packet round : Nat}
    (sent : session.sentRounds[packet]? = some round) (recent : session.rounds ≤ round + 3) :
    packet < session.sentRounds.length ∧ session.sentRounds.length ≤ packet + 4 := by
  have inside : packet < session.sentRounds.length := (List.getElem?_eq_some_iff.mp sent).1
  obtain ⟨last, member, gap⟩ := increasing_gap_last inv.increasing sent
  have bound := inv.bounded last member
  omega

theorem SessionInv.entry_young (inv : SessionInv session) {seqNum : UInt8} {entry : UInt8 × Bytes}
    {packet round : Nat} (belongs : Entry session seqNum entry packet round) :
    packet < session.sentRounds.length ∧ session.sentRounds.length ≤ packet + 4 := by
  obtain ⟨_, sent, age, positive, _⟩ := belongs
  exact inv.young sent (by omega)

theorem SessionInv.entry_unique (inv : SessionInv session) {seqNum : UInt8} {entry : UInt8 × Bytes}
    {packet other round otherRound : Nat} (belongs : Entry session seqNum entry packet round)
    (sent : session.sentRounds[other]? = some otherRound)
    (recent : session.rounds ≤ otherRound + 3) (same : seqNum = seqNumOf other) :
    packet = other ∧ round = otherRound := by
  have ⟨inside, current⟩ := inv.entry_young belongs
  have ⟨otherInside, otherCurrent⟩ := inv.young sent recent
  have samePacket : packet = other := by
    apply @current_unique 256 session.sentRounds.length
    · exact inside
    · omega
    · exact otherInside
    · omega
    · exact seq_num_of_inj.mp (belongs.1.symm.trans same)
  rw [samePacket] at belongs
  exact ⟨samePacket, Option.some.inj (belongs.2.1.symm.trans sent)⟩

theorem SessionInv.positive (inv : SessionInv session) (seqNum : UInt8) (entry : UInt8 × Bytes)
    (found : session.worker.waitingForAck.lookup seqNum = some entry) : 1 ≤ entry.1.toNat := by
  obtain ⟨_, _, _, _, _, enough, _⟩ := inv.entries seqNum entry found
  exact enough

theorem SessionInv.entry_carried (inv : SessionInv session) {seqNum : UInt8}
    {entry : UInt8 × Bytes} {packet round : Nat}
    (belongs : Entry session seqNum entry packet round) :
    carriedBy session.sentRounds.length entry.2 = packet := by
  have ⟨inside, current⟩ := inv.entry_young belongs
  exact belongs.2.2.2.2.carried_by inside (by omega)

/-- The packet to which a write of the current round is booked is the one it carries. -/
theorem SessionInv.pending_carried (inv : SessionInv session) {data : Bytes}
    (member : data ∈ session.pendingWrites) :
    ∃ packet round, carriedBy session.sentRounds.length data = packet ∧
      session.sentRounds[packet]? = some round ∧ packet < session.sentRounds.length ∧
      session.sentRounds.length ≤ packet + 4 ∧ Carries session.payloads packet data := by
  obtain ⟨packet, round, sent, recent, carries⟩ := inv.pending data member
  have ⟨inside, current⟩ := inv.young sent recent
  exact ⟨packet, round, carries.carried_by inside (by omega), sent, inside, current, carries⟩

theorem SessionInv.copies_le (inv : SessionInv session) (quiet : session.pendingWrites = [])
    {packet round : Nat} (sent : session.sentRounds[packet]? = some round) :
    session.copies packet ≤ 1 + min (session.rounds - round) 3 := by
  have bound := inv.atMost packet round sent
  rw [Session.copiesPending, quiet] at bound
  exact bound

theorem SessionInv.le_copies (inv : SessionInv session) (quiet : session.pendingWrites = [])
    (running : session.Running) {packet round : Nat}
    (sent : session.sentRounds[packet]? = some round)
    (unacknowledged : ¬ session.Acknowledged packet) :
    1 + min (session.rounds - round) 3 ≤ session.copies packet := by
  have bound := inv.atLeast running packet round sent unacknowledged
  rw [Session.copiesPending, quiet] at bound
  exact bound

/-- Unless it is about to be marked, a recent packet that was not acknowledged has its entry. -/
theorem SessionInv.present (inv : SessionInv session) (running : session.Running)
    (unmarked : ∀ data, session.worker.position ≠ .marking data) {packet round : Nat}
    (sent : session.sentRounds[packet]? = some round) (recent : session.rounds < round + 3)
    (unacknowledged : ¬ session.Acknowledged packet) :
    (session.worker.waitingForAck.lookup (seqNumOf packet)).isSome := by
  rcases inv.kept running packet round sent recent unacknowledged with present |
    ⟨_, data, marking⟩
  · exact present
  · exact absurd marking (unmarked data)

section Steps

theorem SessionInv.failed (inv : SessionInv session) (message : String) :
    SessionInv { session with worker := { session.worker with position := .panicked message } } :=
  { inv with
    place := trivial
    pending := by
      intro data member
      cases member
    atMost := by
      intro packet round sent
      have bound := inv.atMost packet round sent
      exact Nat.le_trans (Nat.le_add_right _ _) bound
    atLeast := fun running => (running message rfl).elim
    kept := fun running => (running message rfl).elim }

theorem SessionInv.moved (inv : SessionInv session) (position : Position)
    (running : session.Running)
    (unmarked : ∀ data, session.worker.position ≠ .marking data)
    (before : session.pendingWrites = [])
    (after : Session.pendingWrites
      { session with worker := { session.worker with position := position } } = [])
    (place : InPlace { session with worker := { session.worker with position := position } }) :
    SessionInv { session with worker := { session.worker with position := position } } := by
  have samePending (packet : Nat) : Session.copiesPending
      { session with worker := { session.worker with position := position } } packet = 0 := by
    rw [Session.copiesPending, after]
    rfl
  exact { inv with
    place := place
    pending := by
      intro data member
      rw [after] at member
      cases member
    atMost := by
      intro packet round sent
      rw [samePending]
      exact inv.copies_le before sent
    atLeast := by
      intro _ packet round sent unacknowledged
      rw [samePending]
      exact inv.le_copies before running sent unacknowledged
    kept := fun _ packet round sent recent unacknowledged =>
      .inl (inv.present running unmarked sent recent unacknowledged) }

theorem SessionInv.receive_data (inv : SessionInv session)
    (place : session.worker.position = .receiving) (payload : Bytes) :
    SessionInv { session with
      worker := { session.worker with
        position := .writing (AckPacket.new session.worker.seqNum payload).intoBytes }
      payloads := session.payloads ++ [payload] } := by
  have counters := inv.place
  simp only [InPlace, place] at counters
  obtain ⟨received, numbered, earlier⟩ := counters
  have running : session.Running := by simp [Session.Running, place]
  have quiet : session.pendingWrites = [] := by simp [Session.pendingWrites, place]
  exact { inv with
    place := by
      refine ⟨by simp [received], numbered, earlier, payload, ?_, by rw [numbered]⟩
      rw [← received]
      exact List.getElem?_concat_length
    entries := by
      intro seqNum entry found
      obtain ⟨packet, round, same, sent, age, positive, carries⟩ := inv.entries seqNum entry found
      exact ⟨packet, round, same, sent, age, positive, carries.append [payload]⟩
    logged := by
      intro write member
      obtain ⟨inside, tagged, data, carries, written⟩ := inv.logged write member
      exact ⟨inside, tagged, data, carries.append [payload], written⟩
    pending := by
      intro data member
      cases member
    atMost := fun packet round sent => inv.copies_le quiet sent
    atLeast := fun _ packet round sent unacknowledged =>
      inv.le_copies quiet running sent unacknowledged
    kept := fun _ packet round sent recent unacknowledged =>
      .inl (inv.present running (by simp [place]) sent recent unacknowledged) }

theorem SessionInv.write (inv : SessionInv session) {data : Bytes}
    (place : session.worker.position = .writing data) :
    SessionInv { session with
      worker := { session.worker with position := .marking data }
      sentRounds := session.sentRounds ++ [session.rounds]
      portLog := session.portLog ++
        [⟨session.sentRounds.length, session.rounds, false, writeToStream data⟩] } := by
  have counters := inv.place
  simp only [InPlace, place] at counters
  obtain ⟨received, numbered, earlier, carries⟩ := counters
  have running : session.Running := by simp [Session.Running, place]
  have quiet : session.pendingWrites = [] := by simp [Session.pendingWrites, place]
  have newest : (session.sentRounds ++ [session.rounds])[session.sentRounds.length]? =
      some session.rounds := List.getElem?_concat_length
  have older {packet round : Nat}
      (sent : (session.sentRounds ++ [session.rounds])[packet]? = some round) :
      session.sentRounds[packet]? = some round ∧ packet ≠ session.sentRounds.length ∨
        packet = session.sentRounds.length ∧ round = session.rounds := by
    have inside := (List.getElem?_eq_some_iff.mp sent).1
    rw [List.length_append, List.length_singleton] at inside
    by_cases last : packet = session.sentRounds.length
    · rw [last, newest] at sent
      exact .inr ⟨last, (Option.some.inj sent).symm⟩
    · rw [List.getElem?_append_left (by omega)] at sent
      exact .inl ⟨sent, last⟩
  have copiesBefore : copiesIn session.portLog session.sentRounds.length = 0 := by
    rw [copiesIn, List.countP_eq_zero]
    intro write member
    have inside := (inv.logged write member).1
    simp only [decide_eq_true_eq]
    omega
  constructor
  · refine ⟨session.sentRounds.length, by simp, by simp [received], numbered, newest, carries, ?_⟩
    cases found : session.worker.waitingForAck.lookup session.worker.seqNum with
    | none => rfl
    | some entry =>
        obtain ⟨packet, round, belongs⟩ := inv.entries _ entry found
        have ⟨inside, current⟩ := inv.entry_young belongs
        have same := seq_num_of_inj.mp (numbered.symm.trans belongs.1)
        omega
  · rw [List.pairwise_append]
    refine ⟨inv.increasing, List.pairwise_singleton _ _, ?_⟩
    intro round member last lastMember
    rw [List.mem_singleton] at lastMember
    rw [lastMember]
    exact earlier round member
  · intro round member
    rw [List.mem_append, List.mem_singleton] at member
    rcases member with before | same
    · exact inv.bounded round before
    · exact Nat.le_of_eq same
  · intro seqNum entry found
    obtain ⟨packet, round, same, sent, age, positive, carried⟩ := inv.entries seqNum entry found
    have inside := (List.getElem?_eq_some_iff.mp sent).1
    refine ⟨packet, round, same, ?_, age, positive, carried⟩
    rw [List.getElem?_append_left inside]
    exact sent
  · intro write member
    rw [List.mem_append, List.mem_singleton] at member
    rcases member with before | same
    · obtain ⟨inside, tagged, others⟩ := inv.logged write before
      exact ⟨by rw [List.length_append]; omega, tagged, others⟩
    · rw [same]
      exact ⟨by simp, by simp, data, carries, rfl⟩
  · rw [List.filter_append, List.map_append, inv.firsts, List.length_append, List.length_singleton,
      List.range_succ]
    rfl
  · intro bytes member
    cases member
  · intro packet round sent
    have total := copies_in_concat session.portLog
      ⟨session.sentRounds.length, session.rounds, false, writeToStream data⟩ packet
    rcases older sent with ⟨before, notLast⟩ | ⟨last, same⟩
    · rw [if_neg (Ne.symm notLast)] at total
      exact Nat.le_trans (Nat.le_of_eq total) (inv.copies_le quiet before)
    · rw [last, copiesBefore, if_pos rfl] at total
      rw [last]
      exact Nat.le_trans (Nat.le_of_eq total) (Nat.le_add_right _ _)
  · intro _ packet round sent unacknowledged
    have total := copies_in_concat session.portLog
      ⟨session.sentRounds.length, session.rounds, false, writeToStream data⟩ packet
    rcases older sent with ⟨before, notLast⟩ | ⟨last, same⟩
    · rw [if_neg (Ne.symm notLast)] at total
      exact Nat.le_trans (inv.le_copies quiet running before unacknowledged)
        (Nat.le_of_eq total.symm)
    · rw [last, copiesBefore, if_pos rfl] at total
      rw [last, same, Nat.sub_self]
      exact Nat.le_of_eq total.symm
  · intro _ packet round sent recent unacknowledged
    rcases older sent with ⟨before, notLast⟩ | ⟨last, same⟩
    · exact .inl (inv.present running (by simp [place]) before recent unacknowledged)
    · exact .inr ⟨by simp [last], data, rfl⟩

theorem SessionInv.mark (inv : SessionInv session) {data : Bytes}
    (place : session.worker.position = .marking data) :
    SessionInv { session with
      worker := { session.worker with
        waitingForAck := session.worker.waitingForAck.insert session.worker.seqNum (3, data)
        position := .bumping } } := by
  have counters := inv.place
  simp only [InPlace, place] at counters
  obtain ⟨newest, length, received, numbered, sentNow, carries, absent⟩ := counters
  have running : session.Running := by simp [Session.Running, place]
  have quiet : session.pendingWrites = [] := by simp [Session.pendingWrites, place]
  exact { inv with
    place := ⟨newest, length, received, numbered⟩
    entries := by
      intro seqNum entry found
      by_cases same : seqNum = session.worker.seqNum
      · rw [same, AList.lookup_insert] at found
        cases found
        have threeLeft : 1 ≤ (3 : UInt8).toNat := by decide
        exact ⟨newest, session.rounds, same.trans numbered, sentNow, rfl, threeLeft, carries⟩
      · rw [AList.lookup_insert_ne same] at found
        exact inv.entries seqNum entry found
    pending := by
      intro bytes member
      cases member
    atMost := fun packet round sent => inv.copies_le quiet sent
    atLeast := fun _ packet round sent unacknowledged =>
      inv.le_copies quiet running sent unacknowledged
    kept := by
      intro _ packet round sent recent unacknowledged
      by_cases same : seqNumOf packet = session.worker.seqNum
      · rw [same, AList.lookup_insert]
        exact .inl rfl
      · rw [AList.lookup_insert_ne same]
        rcases inv.kept running packet round sent recent unacknowledged with present | ⟨last, _⟩
        · exact .inl present
        · have samePacket : packet = newest := by omega
          rw [samePacket, numbered] at same
          exact (same rfl).elim }

theorem SessionInv.bump (inv : SessionInv session) (place : session.worker.position = .bumping) :
    SessionInv { session with worker := { session.worker with
      seqNum := bumpSeqNum session.worker.seqNum
      position := .collecting } } := by
  have counters := inv.place
  simp only [InPlace, place] at counters
  obtain ⟨newest, length, received, numbered⟩ := counters
  have running : session.Running := by simp [Session.Running, place]
  have quiet : session.pendingWrites = [] := by simp [Session.pendingWrites, place]
  exact { inv with
    place := by
      refine ⟨received, ?_⟩
      simp only [numbered, length, seq_num_of_succ]
    pending := by
      intro bytes member
      cases member
    atMost := fun packet round sent => inv.copies_le quiet sent
    atLeast := fun _ packet round sent unacknowledged =>
      inv.le_copies quiet running sent unacknowledged
    kept := fun _ packet round sent recent unacknowledged =>
      .inl (inv.present running (by simp [place]) sent recent unacknowledged) }

theorem SessionInv.collected_copies (inv : SessionInv session) {order : List UInt8}
    (visited : order.Perm session.worker.waitingForAck.keys) {packet round : Nat}
    (sent : session.sentRounds[packet]? = some round) :
    (order.filterMap fun seqNum =>
        (session.worker.waitingForAck.lookup seqNum).map (·.2)).countP
      (fun data => carriedBy session.sentRounds.length data = packet) =
      if session.rounds < round + 3 ∧
          (session.worker.waitingForAck.lookup (seqNumOf packet)).isSome then 1 else 0 := by
  have distinct : order.Nodup :=
    visited.nodup_iff.mpr session.worker.waitingForAck.keys_nodup
  have carried {seqNum : UInt8} {entry : UInt8 × Bytes}
      (found : session.worker.waitingForAck.lookup seqNum = some entry) :
      carriedBy session.sentRounds.length entry.2 = packet ↔
        session.rounds < round + 3 ∧ seqNum = seqNumOf packet := by
    obtain ⟨owner, ownerRound, belongs⟩ := inv.entries seqNum entry found
    rw [inv.entry_carried belongs]
    constructor
    · intro same
      obtain ⟨ownNumber, ownerSent, age, positive, _⟩ := belongs
      rw [same, sent] at ownerSent
      have sameRound := Option.some.inj ownerSent
      rw [← same]
      exact ⟨by omega, ownNumber⟩
    · intro ⟨recent, same⟩
      exact (inv.entry_unique belongs sent (Nat.le_of_lt recent) same).1
  rw [List.countP_filterMap]
  by_cases present : session.rounds < round + 3 ∧
      (session.worker.waitingForAck.lookup (seqNumOf packet)).isSome
  · rw [if_pos present]
    have member : seqNumOf packet ∈ order := by
      rw [visited.mem_iff, ← AList.mem_keys, ← AList.lookup_isSome]
      exact present.2
    have once : order.count (seqNumOf packet) = 1 :=
      List.count_eq_one_of_mem distinct member
    rw [← once, List.count]
    apply List.countP_congr
    intro seqNum inside
    cases found : session.worker.waitingForAck.lookup seqNum with
    | none =>
        have key : seqNum ∈ session.worker.waitingForAck.keys := visited.mem_iff.mp inside
        rw [← AList.mem_keys, ← AList.lookup_isSome, found] at key
        cases key
    | some entry =>
        simp [carried found, present.1]
  · rw [if_neg present, List.countP_eq_zero]
    intro seqNum _
    cases found : session.worker.waitingForAck.lookup seqNum with
    | none => simp
    | some entry =>
        simp only [Option.map_some, Option.getD_some, decide_eq_true_eq, carried found]
        intro ⟨recent, same⟩
        apply present
        rw [← same, found]
        exact ⟨recent, rfl⟩

theorem SessionInv.collect (inv : SessionInv session) {order : List UInt8} {guard : WaitingForAck}
    {writes : List Bytes} (place : session.worker.position = .collecting)
    (visited : order.Perm session.worker.waitingForAck.keys)
    (collected : collectUnacked session.worker.waitingForAck order = returned (guard, writes)) :
    SessionInv { session with
      worker := { session.worker with waitingForAck := guard, position := .resending writes }
      rounds := session.rounds + 1 } := by
  have counters := inv.place
  simp only [InPlace, place] at counters
  obtain ⟨received, numbered⟩ := counters
  have running : session.Running := by simp [Session.Running, place]
  have quiet : session.pendingWrites = [] := by simp [Session.pendingWrites, place]
  obtain ⟨left, reached, after⟩ := collect_unacked_spec visited inv.positive
  rw [reached] at collected
  cases collected
  have round_bounded {packet round : Nat} (sent : session.sentRounds[packet]? = some round) :
      round ≤ session.rounds := inv.bounded round (List.mem_of_getElem? sent)
  constructor
  · refine ⟨received, numbered, ?_⟩
    intro round member
    exact Nat.lt_succ_of_le (inv.bounded round member)
  · exact inv.increasing
  · intro round member
    exact Nat.le_succ_of_le (inv.bounded round member)
  · intro seqNum entry found
    have before := after seqNum
    rw [found] at before
    obtain ⟨old, oldFound, aged⟩ := Option.bind_eq_some_iff.mp before.symm
    obtain ⟨packet, round, same, sent, age, enough, carries⟩ := inv.entries seqNum old oldFound
    have bound := round_bounded sent
    rw [decremented] at aged
    split_ifs at aged with last
    cases aged
    have retries : (UInt8.ofNat (old.1.toNat - 1)).toNat = old.1.toNat - 1 := by
      rw [UInt8.toNat_ofNat']
      omega
    refine ⟨packet, round, same, sent, ?_, ?_, carries⟩
    · simp only [retries]
      omega
    · simp only [retries]
      omega
  · intro write member
    obtain ⟨inside, tagged, others⟩ := inv.logged write member
    exact ⟨inside, fun resent => Nat.lt_succ_of_lt (tagged resent), others⟩
  · exact inv.firsts
  · intro data member
    obtain ⟨seqNum, _, mapped⟩ := List.mem_filterMap.mp member
    obtain ⟨entry, found, rfl⟩ := Option.map_eq_some_iff.mp mapped
    obtain ⟨packet, round, _, sent, age, enough, carries⟩ := inv.entries seqNum entry found
    refine ⟨packet, round, sent, ?_, carries⟩
    simp only
    omega
  · intro packet round sent
    have bound := inv.copies_le quiet sent
    have inRound := inv.collected_copies visited sent
    have earlier := round_bounded sent
    refine Nat.le_trans (Nat.le_of_eq (congrArg (session.copies packet + ·) inRound)) ?_
    simp only
    split_ifs with present
    · omega
    · omega
  · intro _ packet round sent unacknowledged
    have bound := inv.le_copies quiet running sent unacknowledged
    have inRound := inv.collected_copies visited sent
    have earlier := round_bounded sent
    refine Nat.le_trans ?_ (Nat.le_of_eq (congrArg (session.copies packet + ·) inRound).symm)
    simp only
    by_cases recent : session.rounds < round + 3
    · have present := inv.present running (by simp [place]) sent recent unacknowledged
      rw [if_pos ⟨recent, present⟩]
      omega
    · rw [if_neg fun both => recent both.1]
      omega
  · intro _ packet round sent recent unacknowledged
    simp only at recent
    have present := inv.present running (by simp [place]) sent (by omega) unacknowledged
    obtain ⟨entry, found⟩ := Option.isSome_iff_exists.mp present
    obtain ⟨owner, ownerRound, belongs⟩ := inv.entries _ entry found
    have sameRound := (inv.entry_unique belongs sent (by omega) rfl).2
    have age := belongs.2.2.1
    have more : entry.1.toNat ≠ 1 := by omega
    apply Or.inl
    simp only [after, found, Option.bind_some, decremented, if_neg more]
    rfl

theorem SessionInv.resend (inv : SessionInv session) {data : Bytes} {rest : List Bytes}
    (place : session.worker.position = .resending (data :: rest)) :
    SessionInv { session with
      worker := { session.worker with position := .resending rest }
      portLog := session.portLog ++
        [⟨carriedBy session.sentRounds.length data, session.rounds - 1, true,
          writeToStream data⟩] } := by
  have counters := inv.place
  simp only [InPlace, place] at counters
  have running : session.Running := by simp [Session.Running, place]
  have pendingNow : session.pendingWrites = data :: rest := by
    simp [Session.pendingWrites, place]
  obtain ⟨owner, ownerRound, ofOwner, ownerSent, inside, _, carries⟩ :=
    inv.pending_carried (of_tail pendingNow).1
  have moved (packet : Nat) : copiesIn (session.portLog ++
      [⟨carriedBy session.sentRounds.length data, session.rounds - 1, true,
        writeToStream data⟩]) packet +
      rest.countP (fun data => carriedBy session.sentRounds.length data = packet) =
      session.copies packet + session.copiesPending packet := by
    rw [copies_in_concat, Session.copiesPending, pendingNow, List.countP_cons, Session.copies]
    simp only [decide_eq_true_eq]
    omega
  constructor
  · exact counters
  · exact inv.increasing
  · exact inv.bounded
  · exact inv.entries
  · intro write member
    rw [List.mem_append, List.mem_singleton] at member
    rcases member with before | same
    · exact inv.logged write before
    · have earlier := counters.2.2 ownerRound (List.mem_of_getElem? ownerSent)
      rw [same]
      simp only [ofOwner]
      exact ⟨inside, fun _ => by omega, data, carries, rfl⟩
  · rw [List.filter_append, List.map_append, inv.firsts]
    exact List.append_nil _
  · intro bytes member
    exact inv.pending bytes ((of_tail pendingNow).2 bytes member)
  · intro packet round sent
    exact Nat.le_trans (Nat.le_of_eq (moved packet)) (inv.atMost packet round sent)
  · intro _ packet round sent unacknowledged
    exact Nat.le_trans (inv.atLeast running packet round sent unacknowledged)
      (Nat.le_of_eq (moved packet).symm)
  · intro _ packet round sent recent unacknowledged
    exact .inl (inv.present running (by simp [place]) sent recent unacknowledged)

theorem lookup_remove_unacked (unacked : WaitingForAck) (removed seqNum : UInt8) :
    (SerialReceiving.removeUnacked unacked removed).lookup seqNum =
      if seqNum = removed then none else unacked.lookup seqNum := by
  unfold SerialReceiving.removeUnacked
  by_cases same : seqNum = removed
  · rw [if_pos same, same]
    split_ifs with present
    · exact AList.lookup_erase removed unacked
    · exact AList.lookup_eq_none.mpr present
  · rw [if_neg same]
    split_ifs
    · exact AList.lookup_erase_ne same
    · rfl

theorem SessionInv.remove_unacked (inv : SessionInv session) (removed : UInt8) :
    SessionInv (session.removeUnacked removed) := by
  have entryBefore {seqNum : UInt8} {entry : UInt8 × Bytes}
      (found : (session.removeUnacked removed).worker.waitingForAck.lookup seqNum = some entry) :
      session.worker.waitingForAck.lookup seqNum = some entry := by
    simp only [Session.removeUnacked, lookup_remove_unacked] at found
    split_ifs at found
    exact found
  have before {packet : Nat}
      (unacknowledged : ¬ (session.removeUnacked removed).Acknowledged packet) :
      ¬ session.Acknowledged packet := by
    intro ⟨ack, member, window⟩
    exact unacknowledged ⟨ack, List.mem_append_left _ member, window⟩
  exact { inv with
    place := by
      have counters := inv.place
      unfold InPlace at counters ⊢
      simp only [Session.removeUnacked]
      cases place : session.worker.position with
      | marking data =>
          simp only [place] at counters ⊢
          obtain ⟨newest, length, received, numbered, sentNow, carries, absent⟩ := counters
          refine ⟨newest, length, received, numbered, sentNow, carries, ?_⟩
          rw [lookup_remove_unacked, absent, ite_self]
      | receiving => simpa only [place] using counters
      | writing data => simpa only [place] using counters
      | bumping => simpa only [place] using counters
      | collecting => simpa only [place] using counters
      | resending writes => simpa only [place] using counters
      | stopped => simpa only [place] using counters
      | panicked message => trivial
    entries := fun seqNum entry found => inv.entries seqNum entry (entryBefore found)
    atLeast := fun running packet round sent unacknowledged =>
      inv.atLeast running packet round sent (before unacknowledged)
    kept := by
      intro running packet round sent recent unacknowledged
      rcases inv.kept running packet round sent recent (before unacknowledged) with present |
        marking
      · have ⟨inside, current⟩ := inv.young sent (Nat.le_of_lt recent)
        have other : seqNumOf packet ≠ removed := by
          intro same
          apply unacknowledged
          refine ⟨(session.sentRounds.length, removed), ?_, inside, ?_, ?_⟩
          · exact List.mem_append_right _ (List.mem_singleton.mpr rfl)
          · simp only
            omega
          · rw [← same]
            exact seq_num_of_toNat packet
        apply Or.inl
        simp only [Session.removeUnacked, lookup_remove_unacked, if_neg other]
        exact present
      · exact .inr marking }

end Steps

def booked : Action → Bool
  | .receive (.data _) | .write true | .collect _ => true
  | _ => false

theorem record_unbooked {action : Action} (next : ConnectionWorker)
    (unbooked : booked action = false) :
    session.record action next = { session with worker := next } := by
  unfold Session.record
  split
  · cases unbooked
  · cases unbooked
  · cases unbooked
  · cases unbooked
  · rfl

theorem unexpected_unbooked {event : Event Bytes} (other : ∀ data, event ≠ .data data) :
    booked (.receive event) = false := by
  cases event with
  | data data => exact absurd rfl (other data)
  | disconnected => rfl
  | connected => rfl
  | stop => rfl
  | error => rfl

theorem payloads_of_receive {session next : Session} {payload : Bytes}
    (taken : session.step (.worker (.receive (.data payload))) = some next) :
    next.payloads = session.payloads ++ [payload] := by
  obtain ⟨worker, moved, rfl⟩ := Option.map_eq_some_iff.mp taken
  cases taken_of_step moved with
  | data _ place => simp only [Session.record, place]
  | unexpected _ message place other => exact (other payload rfl).elim

theorem payloads_of_other {session next : Session} {action : Action}
    (notData : ∀ data, action ≠ .receive (.data data))
    (taken : session.step (.worker action) = some next) :
    next.payloads = session.payloads := by
  obtain ⟨worker, moved, rfl⟩ := Option.map_eq_some_iff.mp taken
  unfold Session.record
  split
  · rename_i payload _
    exact (notData payload rfl).elim
  all_goals rfl

theorem SessionInv.worker_step (inv : SessionInv session) {action : Action}
    {next : ConnectionWorker} (taken : SerialSending.step session.worker action = some next) :
    SessionInv (session.record action next) := by
  have counters := inv.place
  cases taken_of_step taken with
  | data payload place =>
      simp only [Session.record, place]
      exact inv.receive_data place payload
  | stop place =>
      rw [record_unbooked _ rfl]
      simp only [InPlace, place] at counters
      apply inv.moved .stopped
      · simp [Session.Running, place]
      · simp [place]
      · simp [Session.pendingWrites, place]
      · rfl
      · exact counters
  | unexpected event message place other =>
      rw [record_unbooked _ (unexpected_unbooked other)]
      exact inv.failed message
  | timeout place =>
      rw [record_unbooked _ rfl]
      simp only [InPlace, place] at counters
      apply inv.moved .collecting
      · simp [Session.Running, place]
      · simp [place]
      · simp [Session.pendingWrites, place]
      · rfl
      · exact ⟨counters.1, counters.2.1⟩
  | hangUp message place =>
      rw [record_unbooked _ rfl]
      exact inv.failed message
  | write data place =>
      simp only [Session.record, place]
      exact inv.write place
  | writeFails message =>
      rw [record_unbooked _ rfl]
      exact inv.failed message
  | mark data place =>
      rw [record_unbooked _ rfl]
      exact inv.mark place
  | bump place =>
      rw [record_unbooked _ rfl]
      exact inv.bump place
  | collect order guard writes place visited collected =>
      simp only [Session.record, place]
      exact inv.collect place visited collected
  | collectPanics order message place visited collected =>
      obtain ⟨left, reached, _⟩ := collect_unacked_spec visited inv.positive
      rw [reached] at collected
      cases collected
  | resend data rest place =>
      simp only [Session.record, place]
      exact inv.resend place
  | loop place =>
      rw [record_unbooked _ rfl]
      simp only [InPlace, place] at counters
      apply inv.moved .receiving
      · simp [Session.Running, place]
      · simp [place]
      · simp [Session.pendingWrites, place]
      · rfl
      · exact counters

theorem step_ack (session : Session) (seqNum : UInt8) :
    session.step (.handleAck (Ack.new seqNum).intoBytes) =
      some (session.removeUnacked seqNum) := by
  rw [Session.step, handle_ack_encoded]
  rfl

theorem step_handle_ack {session next : Session} {data : Bytes}
    (taken : session.step (.handleAck data) = some next) :
    next = session ∨
      ∃ seqNum, data = (Ack.new seqNum).intoBytes ∧ next = session.removeUnacked seqNum := by
  rw [Session.step] at taken
  rcases handle_ack_cases .new data with ignored | ⟨seqNum, encoded, removed⟩
  · rw [ignored] at taken
    cases taken
    exact .inl rfl
  · rw [removed] at taken
    cases taken
    exact .inr ⟨seqNum, encoded, rfl⟩

structure Untouched (session next : Session) : Prop where
  position : next.worker.position = session.worker.position
  payloads : next.payloads = session.payloads
  sentRounds : next.sentRounds = session.sentRounds
  rounds : next.rounds = session.rounds
  portLog : next.portLog = session.portLog

theorem untouched_of_handle_ack {session next : Session} {data : Bytes}
    (taken : session.step (.handleAck data) = some next) : Untouched session next := by
  rcases step_handle_ack taken with same | ⟨seqNum, _, same⟩
  · rw [same]
    exact ⟨rfl, rfl, rfl, rfl, rfl⟩
  · rw [same]
    exact ⟨rfl, rfl, rfl, rfl, rfl⟩

theorem SessionInv.framed (inv : SessionInv session) {write : PortWrite}
    (member : write ∈ session.portLog) :
    write.packet < session.sentRounds.length ∧
      ∃ payload, session.payloads[write.packet]? = some payload ∧
        write.frame = writeToStream (AckPacket.new (seqNumOf write.packet) payload).intoBytes := by
  obtain ⟨inside, _, data, ⟨payload, found, encoded⟩, written⟩ := inv.logged write member
  exact ⟨inside, payload, found, by rw [written, encoded]⟩

theorem SessionInv.sent_le (inv : SessionInv session) :
    session.sentRounds.length ≤ session.payloads.length := by
  by_cases none : session.sentRounds.length = 0
  · omega
  · have last : session.sentRounds.length - 1 ∈
        (session.portLog.filter fun write => !write.resend).map (·.packet) := by
      rw [inv.firsts, List.mem_range]
      omega
    obtain ⟨write, member, same⟩ := List.mem_map.mp last
    obtain ⟨_, payload, found, _⟩ := inv.framed (List.mem_filter.mp member).1
    have inside := (List.getElem?_eq_some_iff.mp found).1
    omega

/-- A step writes nothing, the first copy of the next packet, or another copy of a recent one. -/
inductive Wrote (session next : Session) : Prop
  | nothing (log : next.portLog = session.portLog) (sent : next.sentRounds = session.sentRounds)
  | first (data : Bytes)
      (log : next.portLog = session.portLog ++
        [⟨session.sentRounds.length, session.rounds, false, writeToStream data⟩])
      (sent : next.sentRounds = session.sentRounds ++ [session.rounds])
  | copy (packet : Nat) (data : Bytes)
      (log : next.portLog = session.portLog ++
        [⟨packet, session.rounds - 1, true, writeToStream data⟩])
      (sent : next.sentRounds = session.sentRounds)
      (recent : session.sentRounds.length ≤ packet + 4)

theorem SessionInv.wrote {session next : Session} {label : Label} (inv : SessionInv session)
    (taken : session.step label = some next) : Wrote session next := by
  cases label with
  | handleAck data =>
      have untouched := untouched_of_handle_ack taken
      exact .nothing untouched.portLog untouched.sentRounds
  | worker action =>
      obtain ⟨worker, moved, rfl⟩ := Option.map_eq_some_iff.mp taken
      unfold Session.record
      split
      · exact .nothing rfl rfl
      · rename_i data _
        exact .first data rfl rfl
      · exact .nothing rfl rfl
      · rename_i data rest place
        have pendingNow : session.pendingWrites = data :: rest := by
          simp [Session.pendingWrites, place]
        obtain ⟨owner, _, ofOwner, _, _, current, _⟩ :=
          inv.pending_carried (of_tail pendingNow).1
        rw [← ofOwner] at current
        exact .copy (carriedBy session.sentRounds.length data) data rfl rfl current
      · exact .nothing rfl rfl

theorem SessionInv.port_log_grows {session next : Session} {label : Label}
    (inv : SessionInv session) (taken : session.step label = some next) :
    ∃ later, next.portLog = session.portLog ++ later := by
  cases inv.wrote taken with
  | nothing log _ => exact ⟨[], by rw [log, List.append_nil]⟩
  | first data log _ => exact ⟨_, log⟩
  | copy packet data log _ _ => exact ⟨_, log⟩

theorem SessionInv.sent_rounds_grow {session next : Session} {label : Label}
    (inv : SessionInv session) (taken : session.step label = some next) :
    session.sentRounds.length ≤ next.sentRounds.length := by
  cases inv.wrote taken with
  | nothing _ sent => exact Nat.le_of_eq (congrArg List.length sent.symm)
  | first _ _ sent => simp [sent]
  | copy _ _ _ sent _ => exact Nat.le_of_eq (congrArg List.length sent.symm)

theorem payloads_grow {session next : Session} {label : Label}
    (taken : session.step label = some next) :
    ∃ later, next.payloads = session.payloads ++ later := by
  cases label with
  | handleAck data =>
      refine ⟨[], ?_⟩
      rw [(untouched_of_handle_ack taken).payloads, List.append_nil]
  | worker action =>
      obtain ⟨worker, moved, rfl⟩ := Option.map_eq_some_iff.mp taken
      unfold Session.record
      split
      · exact ⟨_, rfl⟩
      all_goals exact ⟨[], (List.append_nil _).symm⟩

theorem inv_step {session next : Session} (label : Label) (inv : SessionInv session)
    (taken : session.step label = some next) : SessionInv next := by
  cases label with
  | worker action =>
      obtain ⟨worker, moved, rfl⟩ := Option.map_eq_some_iff.mp taken
      exact inv.worker_step moved
  | handleAck data =>
      rcases step_handle_ack taken with rfl | ⟨seqNum, _, rfl⟩
      · exact inv
      · exact inv.remove_unacked seqNum

theorem inv_of_run {labels : List Label} {last : Session}
    (reached : run Session.step .fresh labels = some last) : SessionInv last :=
  invariant_of_run (fun _ label _ inv taken => inv_step label inv taken) inv_fresh reached

theorem SessionInv.collect_enabled (inv : SessionInv session)
    (place : session.worker.position = .collecting) {order : List UInt8}
    (visited : order.Perm session.worker.waitingForAck.keys) :
    ∃ guard, session.step (.worker (.collect order)) =
      some { session with
        worker := { session.worker with
          waitingForAck := guard
          position := .resending (order.filterMap fun seqNum =>
            (session.worker.waitingForAck.lookup seqNum).map (·.2)) }
        rounds := session.rounds + 1 } := by
  obtain ⟨guard, collected, _⟩ := collect_unacked_spec visited inv.positive
  refine ⟨guard, ?_⟩
  simp only [Session.step, SerialSending.step, place, if_pos visited, collected, Option.map_some,
    Session.record]

/-- The writes of a round, all taken by the port, lead back to the receive. -/
theorem resend_all {writes : List Bytes} (place : session.worker.position = .resending writes) :
    ∃ labels last, run Session.step session labels = some last ∧
      last.worker.position = .receiving ∧ last.payloads = session.payloads := by
  induction writes generalizing session with
  | nil =>
      refine ⟨[.worker .loop],
        { session with worker := { session.worker with position := .receiving } }, ?_, rfl, rfl⟩
      simp [run_cons, Session.step, SerialSending.step, Session.record, place]
  | cons data rest induction =>
      let next : Session :=
        { session with
          worker := { session.worker with position := .resending rest }
          portLog := session.portLog ++
            [⟨carriedBy session.sentRounds.length data, session.rounds - 1, true,
              writeToStream data⟩] }
      have first : session.step (.worker (.write true)) = some next := by
        simp [Session.step, SerialSending.step, Session.record, place, next]
      obtain ⟨later, last, reached, ended, same⟩ := @induction next rfl
      refine ⟨.worker (.write true) :: later, last, ?_, ended, same⟩
      exact run_cons_some.mpr ⟨next, first, reached⟩

theorem SessionInv.turn (inv : SessionInv session)
    (place : session.worker.position = .receiving) (payload : Bytes) :
    ∃ labels last, run Session.step session labels = some last ∧
      last.worker.position = .receiving ∧ last.payloads = session.payloads ++ [payload] := by
  let data := (AckPacket.new session.worker.seqNum payload).intoBytes
  let received : Session :=
    { session with
      worker := { session.worker with position := .writing data }
      payloads := session.payloads ++ [payload] }
  let written : Session :=
    { received with
      worker := { received.worker with position := .marking data }
      sentRounds := session.sentRounds ++ [session.rounds]
      portLog := session.portLog ++
        [⟨session.sentRounds.length, session.rounds, false, writeToStream data⟩] }
  let marked : Session :=
    { written with
      worker := { written.worker with
        waitingForAck := session.worker.waitingForAck.insert session.worker.seqNum (3, data)
        position := .bumping } }
  let bumped : Session :=
    { marked with
      worker := { marked.worker with
        seqNum := bumpSeqNum session.worker.seqNum
        position := .collecting } }
  have firstStep : session.step (.worker (.receive (.data payload))) = some received := by
    simp [Session.step, SerialSending.step, Session.record, place, received, data]
  have secondStep : received.step (.worker (.write true)) = some written := rfl
  have thirdStep : written.step (.worker .mark) = some marked := rfl
  have fourthStep : marked.step (.worker .bump) = some bumped := rfl
  have bumpedInv : SessionInv bumped :=
    inv_step _ (inv_step _ (inv_step _ (inv_step _ inv firstStep) secondStep) thirdStep) fourthStep
  obtain ⟨guard, fifthStep⟩ := bumpedInv.collect_enabled rfl (List.Perm.refl _)
  let collected : Session :=
    { bumped with
      worker := { bumped.worker with
        waitingForAck := guard
        position := .resending (bumped.worker.waitingForAck.keys.filterMap fun seqNum =>
          (bumped.worker.waitingForAck.lookup seqNum).map (·.2)) }
      rounds := bumped.rounds + 1 }
  obtain ⟨later, last, remaining, ended, same⟩ := @resend_all collected _ rfl
  refine ⟨.worker (.receive (.data payload)) :: .worker (.write true) :: .worker .mark ::
    .worker .bump :: .worker (.collect bumped.worker.waitingForAck.keys) :: later, last, ?_, ended,
    same⟩
  rw [run_cons, firstStep, Option.bind_some, run_cons, secondStep, Option.bind_some, run_cons,
    thirdStep, Option.bind_some, run_cons, fourthStep, Option.bind_some, run_cons, fifthStep]
  exact remaining

theorem SessionInv.turns (inv : SessionInv session)
    (place : session.worker.position = .receiving) (payloads : List Bytes) :
    ∃ labels last, run Session.step session labels = some last ∧
      last.worker.position = .receiving ∧ last.payloads = session.payloads ++ payloads := by
  induction payloads generalizing session with
  | nil => exact ⟨[], session, rfl, place, (List.append_nil _).symm⟩
  | cons payload rest induction =>
      obtain ⟨first, middle, turned, back, grown⟩ := inv.turn place payload
      have middleInv : SessionInv middle :=
        invariant_of_run (fun _ label _ inv taken => inv_step label inv taken) inv turned
      obtain ⟨later, last, reached, ended, all⟩ := induction middleInv back
      refine ⟨first ++ later, last, run_append_some.mpr ⟨middle, turned, reached⟩, ended, ?_⟩
      rw [all, grown, List.append_assoc]
      rfl

/-- What the ledger shows at any moment. A turn of the loop is complete where `rounds` has counted
its call of `handle_unacked_data` and the thread is back at its receive, or has stopped there; by
then it has sent all that it received. -/
structure Bookkeeping (session : Session) : Prop where
  everything : session.worker.position = .receiving ∨ session.worker.position = .stopped →
    session.sentRounds.length = session.payloads.length
  numbered : (session.portLog.filter fun write => !write.resend).map (·.packet) =
    List.range session.sentRounds.length
  carried : ∀ write ∈ session.portLog, ∃ payload,
    session.payloads[write.packet]? = some payload ∧
      write.frame = writeToStream
        (AckPacket.new (UInt8.ofNat (write.packet % 256)) payload).intoBytes
  pending : ∀ seqNum retries data,
    session.worker.waitingForAck.lookup seqNum = some (retries, data) →
      1 ≤ retries.toNat ∧ retries.toNat ≤ 3 ∧ ∃ packet payload,
        packet < session.sentRounds.length ∧ session.sentRounds.length ≤ packet + 256 ∧
        seqNum.toNat = packet % 256 ∧ session.payloads[packet]? = some payload ∧
        data = (AckPacket.new seqNum payload).intoBytes
  noUnderflow : ∀ order, order.Perm session.worker.waitingForAck.keys →
    (collectUnacked session.worker.waitingForAck order).Returns
  noOverwrite : ∀ data, session.worker.position = .marking data →
    session.worker.waitingForAck.lookup session.worker.seqNum = none
  few : session.worker.position = .receiving → session.worker.waitingForAck.keys.length ≤ 2
  atMost : ∀ packet, session.copies packet ≤ 4
  exactly : session.worker.position = .receiving ∨ session.worker.position = .stopped →
    ∀ packet round, session.sentRounds[packet]? = some round → round + 3 ≤ session.rounds →
      ¬ session.Acknowledged packet → session.copies packet = 4

theorem SessionInv.keys_young (inv : SessionInv session)
    (place : session.worker.position = .receiving) {seqNum : UInt8}
    (key : seqNum ∈ session.worker.waitingForAck.keys) :
    seqNum ∈
      [seqNumOf (session.sentRounds.length - 1), seqNumOf (session.sentRounds.length - 2)] := by
  have counters := inv.place
  simp only [InPlace, place] at counters
  rw [← AList.mem_keys, ← AList.lookup_isSome] at key
  obtain ⟨entry, found⟩ := Option.isSome_iff_exists.mp key
  obtain ⟨packet, round, same, sent, age, positive, _⟩ := inv.entries seqNum entry found
  have inside := (List.getElem?_eq_some_iff.mp sent).1
  obtain ⟨last, member, gap⟩ := increasing_gap_last inv.increasing sent
  have earlier := counters.2.2 last member
  have two : packet = session.sentRounds.length - 1 ∨ packet = session.sentRounds.length - 2 := by
    omega
  rcases two with newest | previous
  · rw [same, newest]
    exact List.mem_cons_self
  · rw [same, previous]
    exact List.mem_cons_of_mem _ List.mem_cons_self

theorem bookkeeping_of_inv (inv : SessionInv session) : Bookkeeping session where
  everything := by
    have counters := inv.place
    rintro (place | place) <;>
    · simp only [InPlace, place] at counters
      exact counters.1.symm
  numbered := inv.firsts
  carried := by
    intro write member
    obtain ⟨_, payload, found, framed⟩ := inv.framed member
    exact ⟨payload, found, framed⟩
  pending := by
    intro seqNum retries data found
    obtain ⟨packet, round, belongs⟩ := inv.entries seqNum _ found
    have ⟨inside, current⟩ := inv.entry_young belongs
    obtain ⟨same, sent, age, positive, payload, received, encoded⟩ := belongs
    have bound := inv.bounded round (List.mem_of_getElem? sent)
    have three : retries.toNat + session.rounds = 3 + round := age
    refine ⟨positive, by omega, packet, payload, inside, by omega, ?_, received, ?_⟩
    · rw [same, seq_num_of_toNat]
    · rw [same]
      exact encoded
  noUnderflow := by
    intro order visited
    obtain ⟨left, reached, _⟩ := collect_unacked_spec visited inv.positive
    exact ⟨_, reached⟩
  noOverwrite := by
    intro data place
    have counters := inv.place
    simp only [InPlace, place] at counters
    obtain ⟨_, _, _, _, _, _, absent⟩ := counters
    exact absent
  few := by
    intro place
    have subset : session.worker.waitingForAck.keys ⊆
        [seqNumOf (session.sentRounds.length - 1), seqNumOf (session.sentRounds.length - 2)] :=
      fun seqNum key => inv.keys_young place key
    exact (session.worker.waitingForAck.keys_nodup.subperm subset).length_le
  atMost := by
    intro packet
    by_cases inside : packet < session.sentRounds.length
    · have bound := inv.atMost packet _ (List.getElem?_eq_getElem inside)
      omega
    · have none : session.copies packet = 0 := by
        rw [Session.copies, copiesIn, List.countP_eq_zero]
        intro write member
        have below := (inv.logged write member).1
        simp only [decide_eq_true_eq]
        omega
      omega
  exactly := by
    intro place packet round sent old unacknowledged
    have quiet : session.pendingWrites = [] := by
      rcases place with place | place <;> simp [Session.pendingWrites, place]
    have running : session.Running := by
      rcases place with place | place <;> simp [Session.Running, place]
    have atMost := inv.copies_le quiet sent
    have atLeast := inv.le_copies quiet running sent unacknowledged
    omega

/-- Under every interleaving of the write thread with acknowledgements, and every order in which
the map is iterated, the books are kept. -/
theorem retransmission_bookkeeping (labels : List Label) (last : Session)
    (reached : run Session.step .fresh labels = some last) : Bookkeeping last :=
  bookkeeping_of_inv (inv_of_run reached)

theorem bookkeeping_of_one_packet :
    ∃ last, run Session.step .fresh
        [.worker (.receive (.data [0x2A])), .worker (.write true), .worker .mark, .worker .bump,
          .worker (.collect [0]), .worker (.write true), .worker .loop] = some last ∧
      Bookkeeping last := by
  have enabled : (run Session.step .fresh
      [.worker (.receive (.data [0x2A])), .worker (.write true), .worker .mark, .worker .bump,
        .worker (.collect [0]), .worker (.write true), .worker .loop]).isSome = true := by
    decide +kernel
  obtain ⟨last, reached⟩ := Option.isSome_iff_exists.mp enabled
  exact ⟨last, reached, retransmission_bookkeeping _ last reached⟩

end MoteConnection.SerialRetransmission
