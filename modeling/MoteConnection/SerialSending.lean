import MoteConnection.SerialReceiving

/-!
# The serial write thread

`ConnectionWorker` of `serial/mod.rs`, cut into the steps at which another
thread can come in between: a receive, a port write, and each access to the map
under its mutex. An action carries what the worker does not decide itself: the
event that arrives, whether the port takes a write, and the order in which the
map is iterated.
-/

namespace MoteConnection.SerialSending

open MoteConnection.Runtime MoteConnection.HdlcFraming MoteConnection.SerialPackets
open MoteConnection.SerialReceiving
open Outcome

set_option autoImplicit false

/-- Where the thread stands in `start`, `handle_data` and `handle_unacked_data`. -/
inductive Position
  | receiving
  | writing (data : Bytes)
  | marking (data : Bytes)
  | bumping
  | collecting
  | resending (writes : List Bytes)
  | stopped
  | panicked (message : String)
  deriving DecidableEq, Repr

/-- `waitingForAck` is shared with the read thread of the session. -/
structure ConnectionWorker where
  seqNum : UInt8
  waitingForAck : WaitingForAck
  position : Position

def ConnectionWorker.new : ConnectionWorker := ⟨0x00, ∅, .receiving⟩

def writeToStream (data : Bytes) : Bytes := HdlcCodec.encode data

def bumpSeqNum (seqNum : UInt8) : UInt8 := if seqNum < 0xff then seqNum + 1 else 0

/-- One turn of the loop over the map: the map, the writes and the keys to remove so far. -/
def decrementRetries (state : WaitingForAck × List Bytes × List UInt8) (seqNum : UInt8) :
    Outcome (WaitingForAck × List Bytes × List UInt8) :=
  let (guard, writes, remove) := state
  match guard.lookup seqNum with
  | none => returned state
  | some (retries, data) => do
      let retries ← checkedSub retries.toNat 1
      return (guard.insert seqNum (UInt8.ofNat retries, data), writes ++ [data],
        if retries = 0 then remove ++ [seqNum] else remove)

/-- The part of `handle_unacked_data` under the lock, for one order of iteration. -/
def collectUnacked (guard : WaitingForAck) (order : List UInt8) :
    Outcome (WaitingForAck × List Bytes) := do
  let (guard, writes, remove) ← order.foldlM decrementRetries (guard, [], [])
  return (remove.foldl (fun guard seqNum => guard.erase seqNum) guard, writes)

inductive Action
  | receive (event : Event Bytes)
  | timeout
  | hangUp
  | write (accepted : Bool)
  | mark
  | bump
  | collect (order : List UInt8)
  | loop
  deriving DecidableEq, Repr

/-- Without the text of the error. -/
def writeFailed : String := "called `Result::unwrap()` on an `Err` value"

def step (worker : ConnectionWorker) (action : Action) : Option ConnectionWorker :=
  match worker.position, action with
  | .receiving, .receive event =>
      match event with
      | .data data =>
          let packet := AckPacket.new worker.seqNum data
          some { worker with position := .writing packet.intoBytes }
      | .stop => some { worker with position := .stopped }
      | other =>
          some { worker with position := .panicked s!"Unexpected event {other.debugName}" }
  | .receiving, .timeout => some { worker with position := .collecting }
  | .receiving, .hangUp =>
      some { worker with position := .panicked "Receive error! Disconnected" }
  | .writing data, .write accepted =>
      some { worker with position := if accepted then .marking data else .panicked writeFailed }
  | .marking data, .mark =>
      some { worker with
        waitingForAck := worker.waitingForAck.insert worker.seqNum (3, data)
        position := .bumping }
  | .bumping, .bump =>
      some { worker with seqNum := bumpSeqNum worker.seqNum, position := .collecting }
  | .collecting, .collect order =>
      if order.Perm worker.waitingForAck.keys then
        match collectUnacked worker.waitingForAck order with
        | returned (guard, writes) =>
            some { worker with waitingForAck := guard, position := .resending writes }
        | panicked message => some { worker with position := .panicked message }
      else none
  | .resending (_ :: rest), .write accepted =>
      some { worker with
        position := if accepted then .resending rest else .panicked writeFailed }
  | .resending [], .loop => some { worker with position := .receiving }
  | _, _ => none

/-- What one action can do, by the place where it is taken. -/
inductive Taken (worker : ConnectionWorker) : Action → ConnectionWorker → Prop
  | data (data : Bytes) (place : worker.position = .receiving) :
      Taken worker (.receive (.data data))
        { worker with position := .writing (AckPacket.new worker.seqNum data).intoBytes }
  | stop (place : worker.position = .receiving) :
      Taken worker (.receive .stop) { worker with position := .stopped }
  | unexpected (event : Event Bytes) (message : String) (place : worker.position = .receiving)
      (other : ∀ data, event ≠ .data data) :
      Taken worker (.receive event) { worker with position := .panicked message }
  | timeout (place : worker.position = .receiving) :
      Taken worker .timeout { worker with position := .collecting }
  | hangUp (message : String) (place : worker.position = .receiving) :
      Taken worker .hangUp { worker with position := .panicked message }
  | write (data : Bytes) (place : worker.position = .writing data) :
      Taken worker (.write true) { worker with position := .marking data }
  | writeFails (message : String) :
      Taken worker (.write false) { worker with position := .panicked message }
  | mark (data : Bytes) (place : worker.position = .marking data) :
      Taken worker .mark { worker with
        waitingForAck := worker.waitingForAck.insert worker.seqNum (3, data)
        position := .bumping }
  | bump (place : worker.position = .bumping) :
      Taken worker .bump
        { worker with seqNum := bumpSeqNum worker.seqNum, position := .collecting }
  | collect (order : List UInt8) (guard : WaitingForAck) (writes : List Bytes)
      (place : worker.position = .collecting) (visited : order.Perm worker.waitingForAck.keys)
      (collected : collectUnacked worker.waitingForAck order = returned (guard, writes)) :
      Taken worker (.collect order)
        { worker with waitingForAck := guard, position := .resending writes }
  | collectPanics (order : List UInt8) (message : String)
      (place : worker.position = .collecting) (visited : order.Perm worker.waitingForAck.keys)
      (collected : collectUnacked worker.waitingForAck order = panicked message) :
      Taken worker (.collect order) { worker with position := .panicked message }
  | resend (data : Bytes) (rest : List Bytes)
      (place : worker.position = .resending (data :: rest)) :
      Taken worker (.write true) { worker with position := .resending rest }
  | loop (place : worker.position = .resending []) :
      Taken worker .loop { worker with position := .receiving }

theorem taken_of_step {worker next : ConnectionWorker} {action : Action}
    (taken : step worker action = some next) : Taken worker action next := by
  unfold step at taken
  split at taken
  · rename_i event place
    split at taken
    · cases taken
      exact .data _ place
    · cases taken
      exact .stop place
    · rename_i notData notStop
      cases taken
      exact .unexpected event _ place notData
  · rename_i place
    cases taken
    exact .timeout place
  · rename_i place
    cases taken
    exact .hangUp _ place
  · rename_i data accepted place
    cases taken
    cases accepted with
    | true => exact .write data place
    | false => exact .writeFails _
  · rename_i data place
    cases taken
    exact .mark data place
  · rename_i place
    cases taken
    exact .bump place
  · rename_i order place
    split_ifs at taken with visited
    split at taken
    · rename_i guard writes collected
      cases taken
      exact .collect order guard writes place visited collected
    · rename_i message collected
      cases taken
      exact .collectPanics order message place visited collected
  · rename_i data rest accepted place
    cases taken
    cases accepted with
    | true => exact .resend data rest place
    | false => exact .writeFails _
  · rename_i place
    cases taken
    exact .loop place
  · cases taken

theorem bump_seq_num_toNat (seqNum : UInt8) :
    (bumpSeqNum seqNum).toNat = (seqNum.toNat + 1) % 256 := by
  have bounded := seqNum.toNat_lt
  unfold bumpSeqNum
  split_ifs with below
  · rw [UInt8.toNat_add]
    rfl
  · have last : ¬ seqNum.toNat < 255 := below
    have full : seqNum.toNat = 255 := by omega
    rw [full]
    rfl

def decremented (entry : UInt8 × Bytes) : Option (UInt8 × Bytes) :=
  if entry.1.toNat = 1 then none else some (UInt8.ofNat (entry.1.toNat - 1), entry.2)

theorem lookup_after_removal (guard : WaitingForAck) (remove : List UInt8) (seqNum : UInt8) :
    (remove.foldl (fun guard seqNum => guard.erase seqNum) guard).lookup seqNum =
      if seqNum ∈ remove then none else guard.lookup seqNum := by
  induction remove generalizing guard with
  | nil => rfl
  | cons first rest induction =>
      rw [List.foldl_cons, induction]
      by_cases same : seqNum = first
      · rw [same, AList.lookup_erase]
        simp
      · rw [AList.lookup_erase_ne same]
        simp only [List.mem_cons, same, false_or]

theorem decrement_all {guard : WaitingForAck} {order : List UInt8} (writes : List Bytes)
    (remove : List UInt8) (distinct : order.Nodup)
    (positive : ∀ seqNum ∈ order, ∀ entry, guard.lookup seqNum = some entry →
      1 ≤ entry.1.toNat) :
    ∃ left, order.foldlM decrementRetries (guard, writes, remove) =
        returned (left, writes ++ order.filterMap (fun seqNum => (guard.lookup seqNum).map (·.2)),
          remove ++ order.filter fun seqNum =>
            (guard.lookup seqNum).any fun entry => entry.1.toNat = 1) ∧
      ∀ seqNum, left.lookup seqNum =
        if seqNum ∈ order then
          (guard.lookup seqNum).map fun entry => (UInt8.ofNat (entry.1.toNat - 1), entry.2)
        else guard.lookup seqNum := by
  induction order generalizing guard writes remove with
  | nil => exact ⟨guard, by simp, by simp⟩
  | cons first rest induction =>
      have ⟨notInRest, restDistinct⟩ := List.nodup_cons.mp distinct
      rw [List.foldlM_cons]
      cases found : guard.lookup first with
      | none =>
          have turn : decrementRetries (guard, writes, remove) first =
              returned (guard, writes, remove) := by simp only [decrementRetries, found]
          rw [turn, returned_bind]
          obtain ⟨left, reached, entries⟩ := induction writes remove restDistinct
            fun seqNum member => positive seqNum (List.mem_cons_of_mem _ member)
          refine ⟨left, ?_, ?_⟩
          · rw [reached]
            simp [found]
          · intro seqNum
            rw [entries seqNum]
            by_cases same : seqNum = first
            · rw [same, found]
              simp
            · simp only [List.mem_cons, same, false_or]
      | some entry =>
          obtain ⟨retries, data⟩ := entry
          have enough : 1 ≤ retries.toNat :=
            positive first List.mem_cons_self (retries, data) found
          have turn : decrementRetries (guard, writes, remove) first =
              returned (guard.insert first (UInt8.ofNat (retries.toNat - 1), data),
                writes ++ [data],
                if retries.toNat - 1 = 0 then remove ++ [first] else remove) := by
            simp only [decrementRetries, found, checked_sub_of_le enough, returned_bind, pure_eq]
          have others : ∀ seqNum ∈ rest,
              (guard.insert first (UInt8.ofNat (retries.toNat - 1), data)).lookup seqNum =
                guard.lookup seqNum := by
            intro seqNum member
            apply AList.lookup_insert_ne
            intro same
            exact notInRest (same ▸ member)
          rw [turn, returned_bind]
          obtain ⟨left, reached, entries⟩ := induction (writes ++ [data])
            (if retries.toNat - 1 = 0 then remove ++ [first] else remove) restDistinct
            fun seqNum member entry recorded =>
              positive seqNum (List.mem_cons_of_mem _ member) entry
                ((others seqNum member).symm.trans recorded)
          have sameWrites : rest.filterMap (fun seqNum =>
              ((guard.insert first (UInt8.ofNat (retries.toNat - 1), data)).lookup seqNum).map
                (·.2)) = rest.filterMap fun seqNum => (guard.lookup seqNum).map (·.2) := by
            apply List.filterMap_congr
            intro seqNum member
            rw [others seqNum member]
          have sameRemoved : (rest.filter fun seqNum =>
              ((guard.insert first (UInt8.ofNat (retries.toNat - 1), data)).lookup seqNum).any
                fun entry => entry.1.toNat = 1) = rest.filter fun seqNum =>
              (guard.lookup seqNum).any fun entry => entry.1.toNat = 1 := by
            apply List.filter_congr
            intro seqNum member
            rw [others seqNum member]
          refine ⟨left, ?_, ?_⟩
          · rw [reached, sameWrites, sameRemoved, List.filterMap_cons, List.filter_cons, found]
            by_cases last : retries.toNat = 1
            · simp [last]
            · have remaining : retries.toNat - 1 ≠ 0 := by omega
              simp [last, remaining]
          · intro seqNum
            rw [entries seqNum]
            by_cases same : seqNum = first
            · rw [same, if_neg notInRest, AList.lookup_insert, found, if_pos List.mem_cons_self]
              rfl
            · have kept := @AList.lookup_insert_ne UInt8 (fun _ => UInt8 × Bytes) _ seqNum first
                (UInt8.ofNat (retries.toNat - 1), data) guard same
              rw [kept]
              simp only [List.mem_cons, same, false_or]

/-- A round over a map without a zero count does not panic, writes every entry once in the order
of the iteration, and takes one retry off each. -/
theorem collect_unacked_spec {guard : WaitingForAck} {order : List UInt8}
    (visited : order.Perm guard.keys)
    (positive : ∀ seqNum entry, guard.lookup seqNum = some entry → 1 ≤ entry.1.toNat) :
    ∃ left, collectUnacked guard order =
        returned (left, order.filterMap fun seqNum => (guard.lookup seqNum).map (·.2)) ∧
      ∀ seqNum, left.lookup seqNum = (guard.lookup seqNum).bind decremented := by
  have distinct : order.Nodup := visited.nodup_iff.mpr guard.keys_nodup
  obtain ⟨left, reached, entries⟩ := decrement_all [] [] distinct
    fun seqNum _ entry => positive seqNum entry
  rw [List.nil_append, List.nil_append] at reached
  refine ⟨_, by rw [collectUnacked, reached, returned_bind]; rfl, ?_⟩
  intro seqNum
  rw [lookup_after_removal, entries seqNum]
  simp only [List.mem_filter]
  cases found : guard.lookup seqNum with
  | none => simp
  | some entry =>
      have key : seqNum ∈ guard.keys := by
        rw [← AList.mem_keys, ← AList.lookup_isSome, found]
        rfl
      have member : seqNum ∈ order := visited.mem_iff.mpr key
      by_cases last : entry.1.toNat = 1
      · simp [member, last, decremented]
      · simp [member, last, decremented]

end MoteConnection.SerialSending
