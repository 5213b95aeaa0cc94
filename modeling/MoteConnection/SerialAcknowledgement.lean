import MoteConnection.SerialRetransmission

/-!
# What an acknowledgement stops

An acknowledgement removes the entry of its packet, and no later round writes
the packet again. The packet is on the wire before it has an entry, though: an
acknowledgement that is handled between the write and the insertion removes
nothing, and the packet is retransmitted as if it had never been acknowledged.
-/

namespace MoteConnection.SerialAcknowledgement

open LabeledRuns
open MoteConnection.Runtime MoteConnection.SerialPackets MoteConnection.SerialReceiving
open MoteConnection.SerialSending MoteConnection.SerialRetransmission
open Outcome

set_option autoImplicit false

/-- The packet has no entry and will have none; `begun` rounds had been started before. -/
structure Settled (packet begun : Nat) (session : Session) : Prop where
  inv : SessionInv session
  written : packet < session.sentRounds.length
  later : begun ≤ session.rounds
  silent : ∀ write ∈ session.portLog, write.packet = packet → write.resend = true →
    write.round < begun
  absent : session.sentRounds.length ≤ packet + 256 →
    session.worker.waitingForAck.lookup (seqNumOf packet) = none
  unmarked : ∀ data, session.worker.position = .marking data →
    packet + 1 ≠ session.sentRounds.length
  uncollected : begun < session.rounds → ∀ data ∈ session.pendingWrites,
    carriedBy session.sentRounds.length data ≠ packet

variable {packet begun : Nat} {session : Session}

theorem Settled.moved (settled : Settled packet begun session) {next : Session}
    (inv : SessionInv next) (sameSent : next.sentRounds = session.sentRounds)
    (sameLog : next.portLog = session.portLog) (later : session.rounds ≤ next.rounds)
    (sameMap : next.worker.waitingForAck = session.worker.waitingForAck)
    (unmarked : ∀ data, next.worker.position ≠ .marking data)
    (quiet : next.pendingWrites = []) : Settled packet begun next := by
  constructor
  · exact inv
  · rw [sameSent]
    exact settled.written
  · exact Nat.le_trans settled.later later
  · rw [sameLog]
    exact settled.silent
  · rw [sameSent, sameMap]
    exact settled.absent
  · intro data marking
    exact absurd marking (unmarked data)
  · rw [quiet]
    intro _ data member
    cases member

theorem Settled.write (settled : Settled packet begun session) {data : Bytes}
    (inv : SessionInv { session with
      worker := { session.worker with position := .marking data }
      sentRounds := session.sentRounds ++ [session.rounds]
      portLog := session.portLog ++
        [⟨session.sentRounds.length, session.rounds, false, writeToStream data⟩] }) :
    Settled packet begun { session with
      worker := { session.worker with position := .marking data }
      sentRounds := session.sentRounds ++ [session.rounds]
      portLog := session.portLog ++
        [⟨session.sentRounds.length, session.rounds, false, writeToStream data⟩] } := by
  have before := settled.written
  have length : (session.sentRounds ++ [session.rounds]).length =
      session.sentRounds.length + 1 := by simp
  constructor
  · exact inv
  · exact Nat.lt_of_lt_of_le before (by rw [length]; exact Nat.le_succ _)
  · exact settled.later
  · intro write member same resent
    rw [List.mem_append, List.mem_singleton] at member
    rcases member with earlier | new
    · exact settled.silent write earlier same resent
    · rw [new] at resent
      cases resent
  · intro current
    rw [length] at current
    exact settled.absent (by omega)
  · intro _ _
    rw [length]
    omega
  · intro _ bytes member
    cases member

theorem Settled.mark (settled : Settled packet begun session) {data : Bytes}
    (place : session.worker.position = .marking data)
    (inv : SessionInv { session with
      worker := { session.worker with
        waitingForAck := session.worker.waitingForAck.insert session.worker.seqNum (3, data)
        position := .bumping } }) :
    Settled packet begun { session with
      worker := { session.worker with
        waitingForAck := session.worker.waitingForAck.insert session.worker.seqNum (3, data)
        position := .bumping } } := by
  have counters := settled.inv.place
  simp only [InPlace, place] at counters
  obtain ⟨newest, length, _, numbered, _⟩ := counters
  have notNewest := settled.unmarked data place
  have before := settled.written
  exact { settled with
    inv := inv
    absent := by
      intro current
      have other : seqNumOf packet ≠ session.worker.seqNum := by
        intro same
        have sameNumber := seq_num_of_inj.mp (same.trans numbered)
        have inside : session.sentRounds.length ≤ packet + 256 := current
        omega
      rw [AList.lookup_insert_ne other]
      exact settled.absent current
    unmarked := by
      intro _ elsewhere
      cases elsewhere
    uncollected := by
      intro _ bytes member
      cases member }

theorem Settled.collect (settled : Settled packet begun session) {order : List UInt8}
    {guard : WaitingForAck} {writes : List Bytes}
    (visited : order.Perm session.worker.waitingForAck.keys)
    (collected : collectUnacked session.worker.waitingForAck order = returned (guard, writes))
    (inv : SessionInv { session with
      worker := { session.worker with waitingForAck := guard, position := .resending writes }
      rounds := session.rounds + 1 }) :
    Settled packet begun { session with
      worker := { session.worker with waitingForAck := guard, position := .resending writes }
      rounds := session.rounds + 1 } := by
  obtain ⟨left, reached, after⟩ := collect_unacked_spec visited settled.inv.positive
  rw [reached] at collected
  cases collected
  constructor
  · exact inv
  · exact settled.written
  · exact Nat.le_succ_of_le settled.later
  · exact settled.silent
  · intro current
    rw [after, settled.absent current]
    rfl
  · intro _ elsewhere
    cases elsewhere
  · intro _ data member sameCarrier
    obtain ⟨seqNum, _, mapped⟩ := List.mem_filterMap.mp member
    obtain ⟨entry, found, rfl⟩ := Option.map_eq_some_iff.mp mapped
    obtain ⟨owner, round, belongs⟩ := settled.inv.entries seqNum entry found
    have ⟨inside, current⟩ := settled.inv.entry_young belongs
    have samePacket : owner = packet := (settled.inv.entry_carried belongs).symm.trans sameCarrier
    have absent := settled.absent (by omega)
    rw [← samePacket, ← belongs.1, found] at absent
    cases absent

theorem Settled.resend (settled : Settled packet begun session) {data : Bytes}
    {rest : List Bytes} (place : session.worker.position = .resending (data :: rest))
    (inv : SessionInv { session with
      worker := { session.worker with position := .resending rest }
      portLog := session.portLog ++
        [⟨carriedBy session.sentRounds.length data, session.rounds - 1, true,
          writeToStream data⟩] }) :
    Settled packet begun { session with
      worker := { session.worker with position := .resending rest }
      portLog := session.portLog ++
        [⟨carriedBy session.sentRounds.length data, session.rounds - 1, true,
          writeToStream data⟩] } := by
  have counters := settled.inv.place
  simp only [InPlace, place] at counters
  have pendingNow : session.pendingWrites = data :: rest := by
    simp [Session.pendingWrites, place]
  exact { settled with
    inv := inv
    silent := by
      intro write member same resent
      rw [List.mem_append, List.mem_singleton] at member
      rcases member with earlier | new
      · exact settled.silent write earlier same resent
      · rw [new] at same ⊢
        have notAfter : ¬ begun < session.rounds := by
          intro after
          apply settled.uncollected after data _ same
          rw [pendingNow]
          exact List.mem_cons_self
        have started := counters.2.2 _ (List.getElem_mem settled.written)
        simp only
        omega
    unmarked := by
      intro _ elsewhere
      cases elsewhere
    uncollected := by
      intro after bytes member
      apply settled.uncollected after bytes
      rw [pendingNow]
      exact List.mem_cons_of_mem _ member }

theorem Settled.remove_unacked (settled : Settled packet begun session) (removed : UInt8) :
    Settled packet begun (session.removeUnacked removed) :=
  { settled with
    inv := settled.inv.remove_unacked removed
    absent := by
      intro current
      simp only [Session.removeUnacked, lookup_remove_unacked, settled.absent current, ite_self] }

theorem settled_step {next : Session} (label : Label) (settled : Settled packet begun session)
    (taken : session.step label = some next) : Settled packet begun next := by
  have inv := inv_step label settled.inv taken
  cases label with
  | handleAck data =>
      rcases step_handle_ack taken with rfl | ⟨seqNum, _, rfl⟩
      · exact settled
      · exact settled.remove_unacked seqNum
  | worker action =>
      obtain ⟨worker, moved, rfl⟩ := Option.map_eq_some_iff.mp taken
      cases taken_of_step moved with
      | data payload place =>
          simp only [Session.record, place] at inv ⊢
          exact settled.moved inv rfl rfl (Nat.le_refl _) rfl (by simp) rfl
      | stop place =>
          rw [record_unbooked _ rfl] at inv ⊢
          exact settled.moved inv rfl rfl (Nat.le_refl _) rfl (by simp) rfl
      | unexpected event message place other =>
          rw [record_unbooked _ (unexpected_unbooked other)] at inv ⊢
          exact settled.moved inv rfl rfl (Nat.le_refl _) rfl (by simp) rfl
      | timeout place =>
          rw [record_unbooked _ rfl] at inv ⊢
          exact settled.moved inv rfl rfl (Nat.le_refl _) rfl (by simp) rfl
      | hangUp message place =>
          rw [record_unbooked _ rfl] at inv ⊢
          exact settled.moved inv rfl rfl (Nat.le_refl _) rfl (by simp) rfl
      | write data place =>
          simp only [Session.record, place] at inv ⊢
          exact settled.write inv
      | writeFails message =>
          rw [record_unbooked _ rfl] at inv ⊢
          exact settled.moved inv rfl rfl (Nat.le_refl _) rfl (by simp) rfl
      | mark data place =>
          rw [record_unbooked _ rfl] at inv ⊢
          exact settled.mark place inv
      | bump place =>
          rw [record_unbooked _ rfl] at inv ⊢
          exact settled.moved inv rfl rfl (Nat.le_refl _) rfl (by simp) rfl
      | collect order guard writes place visited collected =>
          simp only [Session.record, place] at inv ⊢
          exact settled.collect visited collected inv
      | collectPanics order message place visited collected =>
          simp only [Session.record, place] at inv ⊢
          exact settled.moved inv rfl rfl (Nat.le_succ _) rfl (by simp) rfl
      | resend data rest place =>
          simp only [Session.record, place] at inv ⊢
          exact settled.resend place inv
      | loop place =>
          rw [record_unbooked _ rfl] at inv ⊢
          exact settled.moved inv rfl rfl (Nat.le_refl _) rfl (by simp) rfl

/-- From the place between write and insertion, the next round writes the packet. -/
theorem resent_from_marking (inv : SessionInv session) {data : Bytes}
    (place : session.worker.position = .marking data)
    (newest : packet + 1 = session.sentRounds.length) :
    ∃ later last, run Session.step session later = some last ∧
      ∃ write ∈ last.portLog, write.packet = packet ∧ write.resend = true ∧
        session.rounds ≤ write.round := by
  have counters := inv.place
  simp only [InPlace, place] at counters
  obtain ⟨marked, length, received, numbered, sentNow, carries, absent⟩ := counters
  have samePacket : marked = packet := by omega
  let map := session.worker.waitingForAck.insert session.worker.seqNum (3, data)
  let inserted : Session :=
    { session with worker := { session.worker with waitingForAck := map, position := .bumping } }
  let bumped : Session :=
    { inserted with worker := { inserted.worker with
        seqNum := bumpSeqNum session.worker.seqNum
        position := .collecting } }
  have invBumped : SessionInv bumped := (inv.mark place).bump rfl
  have present : map.lookup session.worker.seqNum = some (3, data) := AList.lookup_insert _
  have key : session.worker.seqNum ∈ map.keys := by
    rw [← AList.mem_keys, ← AList.lookup_isSome, present]
    rfl
  let order := session.worker.seqNum :: map.keys.erase session.worker.seqNum
  have visited : order.Perm map.keys := (List.perm_cons_erase key).symm
  obtain ⟨left, thirdStep⟩ := invBumped.collect_enabled rfl visited
  have writes : order.filterMap (fun seqNum => (map.lookup seqNum).map (·.2)) =
      data :: (map.keys.erase session.worker.seqNum).filterMap
        fun seqNum => (map.lookup seqNum).map (·.2) := by
    rw [List.filterMap_cons, present]
    rfl
  have firstStep : session.step (.worker .mark) = some inserted := by
    simp [Session.step, SerialSending.step, Session.record, place, inserted, map]
  have secondStep : inserted.step (.worker .bump) = some bumped := rfl
  let collecting : Session :=
    { bumped with
      worker := { bumped.worker with
        waitingForAck := left
        position := .resending (data :: (map.keys.erase session.worker.seqNum).filterMap
          fun seqNum => (map.lookup seqNum).map (·.2)) }
      rounds := session.rounds + 1 }
  let resent : Session :=
    { collecting with
      worker := { collecting.worker with
        position := .resending ((map.keys.erase session.worker.seqNum).filterMap
          fun seqNum => (map.lookup seqNum).map (·.2)) }
      portLog := session.portLog ++
        [⟨carriedBy session.sentRounds.length data, session.rounds, true, writeToStream data⟩] }
  have collected : bumped.step (.worker (.collect order)) = some collecting := by
    rw [thirdStep]
    simp only [collecting, ← writes]
    rfl
  have fourthStep : collecting.step (.worker (.write true)) = some resent := rfl
  refine ⟨[.worker .mark, .worker .bump, .worker (.collect order), .worker (.write true)], resent,
    ?_, ⟨carriedBy session.sentRounds.length data, session.rounds, true, writeToStream data⟩,
    ?_, ?_, rfl, Nat.le_refl _⟩
  · rw [run_cons, firstStep, Option.bind_some, run_cons, secondStep, Option.bind_some, run_cons,
      collected, Option.bind_some, run_cons, fourthStep]
    rfl
  · exact List.mem_append_right _ (List.mem_singleton.mpr rfl)
  · rw [samePacket] at carries
    exact carries.carried_by (by omega) (by omega)

/-- Let the acknowledgement of a packet be handled at any time after its frame has been written. No
round that starts afterwards writes the packet again, on any continuation, if and only if the write
thread was not between the write and the insertion. -/
theorem acknowledged_not_resent_iff (labels : List Label) (session : Session)
    (reached : run Session.step .fresh labels = some session) (packet : Nat)
    (written : packet < session.sentRounds.length) :
    (∀ acknowledged later last,
      session.step (.handleAck (Ack.new (seqNumOf packet)).intoBytes) = some acknowledged →
      run Session.step acknowledged later = some last →
      ∀ write ∈ last.portLog, write.packet = packet → write.resend = true →
        write.round < session.rounds) ↔
    ∀ data, session.worker.position = .marking data →
      packet + 1 ≠ session.sentRounds.length := by
  have inv := inv_of_run reached
  rw [step_ack]
  constructor
  · intro stopped data place newest
    obtain ⟨later, last, continued, write, member, same, resent, after⟩ :=
      resent_from_marking (inv.remove_unacked (seqNumOf packet)) place newest
    have before := stopped _ later last rfl continued write member same resent
    exact absurd after (Nat.not_le.mpr before)
  · intro unmarked acknowledged later last handled continued
    cases handled
    have settled : Settled packet session.rounds (session.removeUnacked (seqNumOf packet)) := by
      constructor
      · exact inv.remove_unacked (seqNumOf packet)
      · exact written
      · exact Nat.le_refl _
      · intro write member _ resent
        exact (inv.logged write member).2.1 resent
      · intro _
        simp only [Session.removeUnacked, lookup_remove_unacked, if_true]
      · exact unmarked
      · intro after
        exact absurd after (Nat.lt_irrefl _)
    exact (invariant_of_run (fun _ label _ settled taken => settled_step label settled taken)
      settled continued).silent

/-- After one turn of the loop the packet has its entry, and an acknowledgement ends it. -/
theorem acknowledged_after_one_turn :
    ∃ session, run Session.step .fresh
        [.worker (.receive (.data [0x2A])), .worker (.write true), .worker .mark, .worker .bump,
          .worker (.collect [0]), .worker (.write true), .worker .loop] = some session ∧
      ∀ acknowledged later last,
        session.step (.handleAck (Ack.new (seqNumOf 0)).intoBytes) = some acknowledged →
        run Session.step acknowledged later = some last →
        ∀ write ∈ last.portLog, write.packet = 0 → write.resend = true →
          write.round < session.rounds := by
  have enabled : ((run Session.step .fresh
      [.worker (.receive (.data [0x2A])), .worker (.write true), .worker .mark, .worker .bump,
        .worker (.collect [0]), .worker (.write true), .worker .loop]).map fun session =>
        (session.worker.position, session.sentRounds.length)) = some (.receiving, 1) := by
    decide +kernel
  obtain ⟨session, reached, same⟩ := Option.map_eq_some_iff.mp enabled
  have ⟨place, count⟩ := Prod.mk.inj same
  refine ⟨session, reached, ?_⟩
  apply (acknowledged_not_resent_iff _ session reached 0 (by omega)).mpr
  intro data marking
  rw [place] at marking
  cases marking

/-- The acknowledgement of the first packet is handled right after its frame was written; the round
that follows writes the packet again. -/
theorem acknowledged_packet_resent :
    ∃ session acknowledged last,
      run Session.step .fresh [.worker (.receive (.data [0x2A])), .worker (.write true)] =
        some session ∧
      session.step (.handleAck (Ack.new 0).intoBytes) = some acknowledged ∧
      run Session.step acknowledged
        [.worker .mark, .worker .bump, .worker (.collect [0]), .worker (.write true)] =
          some last ∧
      ∃ write ∈ last.portLog, write.packet = 0 ∧ write.resend = true ∧
        session.rounds ≤ write.round := by
  have start : ((run Session.step .fresh
      [.worker (.receive (.data [0x2A])), .worker (.write true)]).map (·.rounds)) = some 0 := by
    decide +kernel
  obtain ⟨session, reached, noRounds⟩ := Option.map_eq_some_iff.mp start
  have whole : ((run Session.step .fresh
      [.worker (.receive (.data [0x2A])), .worker (.write true),
        .handleAck (Ack.new 0).intoBytes,
        .worker .mark, .worker .bump, .worker (.collect [0]), .worker (.write true)]).map
          fun last => last.portLog.any fun write => write.packet = 0 && write.resend) =
      some true := by
    decide +kernel
  obtain ⟨last, reachedLast, resent⟩ := Option.map_eq_some_iff.mp whole
  obtain ⟨middle, reachedMiddle, continued⟩ := (@run_append_some _ _ Session.step _ _
    [.worker (.receive (.data [0x2A])), .worker (.write true)] _).mp reachedLast
  rw [reached] at reachedMiddle
  cases reachedMiddle
  obtain ⟨acknowledged, handled, remaining⟩ := run_cons_some.mp continued
  obtain ⟨write, member, isResent⟩ := List.any_eq_true.mp resent
  refine ⟨session, acknowledged, last, reached, handled, remaining, write, member, ?_⟩
  simp only [Bool.and_eq_true, decide_eq_true_eq] at isResent
  exact ⟨isResent.1, isResent.2, by omega⟩

end MoteConnection.SerialAcknowledgement
