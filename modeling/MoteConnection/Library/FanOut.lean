import Mathlib.Data.List.Nodup
import Mathlib.Logic.Function.Basic

/-!
# Sending on many channels

A handler lists what it sends on which channel, and a thread makes the sends
one at a time. What a single channel has got, together with what the thread
still has to send on it, follows from the inputs that were handled: no send of
another channel comes between, and none is left out.
-/

namespace FanOut

set_option autoImplicit false

variable {Channel Input Message : Type*} [DecidableEq Channel]

abbrev Channels (Channel Message : Type*) := Channel → List Message

def send (channels : Channels Channel Message) (sending : Channel × Message) :
    Channels Channel Message :=
  Function.update channels sending.1 (channels sending.1 ++ [sending.2])

def addressed (channel : Channel) (sends : List (Channel × Message)) : List Message :=
  (sends.filter fun sending => sending.1 = channel).map fun sending => sending.2

@[simp] theorem addressed_nil (channel : Channel) :
    addressed channel ([] : List (Channel × Message)) = [] := rfl

theorem mem_addressed {channel : Channel} {message : Message}
    {sends : List (Channel × Message)} :
    message ∈ addressed channel sends ↔ (channel, message) ∈ sends := by
  simp [addressed]

theorem send_append_addressed (channels : Channels Channel Message) (sending : Channel × Message)
    (rest : List (Channel × Message)) (channel : Channel) :
    send channels sending channel ++ addressed channel rest =
      channels channel ++ addressed channel (sending :: rest) := by
  by_cases same : sending.1 = channel
  · have taken : addressed channel (sending :: rest) = sending.2 :: addressed channel rest := by
      rw [addressed, List.filter_cons_of_pos (by simpa using same)]
      rfl
    rw [send, same, Function.update_self, taken, List.append_assoc, List.singleton_append]
  · have skipped : addressed channel (sending :: rest) = addressed channel rest := by
      rw [addressed, List.filter_cons_of_neg (by simpa using same)]
      rfl
    rw [send, Function.update_of_ne (Ne.symm same), skipped]

theorem addressed_broadcast {listed : List Channel} (distinct : listed.Nodup) (message : Message)
    (channel : Channel) :
    addressed channel (listed.map fun other => (other, message)) =
      if channel ∈ listed then [message] else [] := by
  have own : (listed.map fun other => (other, message)).filter
      (fun sending => sending.1 = channel) =
        (listed.filter fun other => other = channel).map fun other => (other, message) := by
    rw [List.filter_map]
    rfl
  rw [addressed, own, List.filter_eq]
  split_ifs with member
  · rw [List.count_eq_one_of_mem distinct member]
    rfl
  · rw [List.count_eq_zero_of_not_mem member]
    rfl

/-- What each channel has got, and what is still to be sent on it, is what the handled inputs have
for it. -/
def Accounts (route : Channel → Input → List Message) (sent : Channels Channel Message)
    (outbox : List (Channel × Message)) (handled : List Input) : Prop :=
  ∀ channel, sent channel ++ addressed channel outbox = handled.flatMap (route channel)

namespace Accounts

variable {route : Channel → Input → List Message} {sent : Channels Channel Message}
  {outbox : List (Channel × Message)} {handled : List Input}

theorem start (route : Channel → Input → List Message) :
    Accounts route (fun _ => []) [] [] := fun _ => rfl

theorem take (accounts : Accounts route sent [] handled) {input : Input}
    {sends : List (Channel × Message)}
    (routed : ∀ channel, addressed channel sends = route channel input) :
    Accounts route sent sends (handled ++ [input]) := by
  intro channel
  have before := accounts channel
  rw [addressed_nil, List.append_nil] at before
  rw [before, routed, List.flatMap_append, List.flatMap_singleton]

theorem emit {sending : Channel × Message}
    (accounts : Accounts route sent (sending :: outbox) handled) :
    Accounts route (send sent sending) outbox handled := by
  intro channel
  rw [send_append_addressed]
  exact accounts channel

theorem emitAll (accounts : Accounts route sent outbox handled) :
    Accounts route (outbox.foldl send sent) [] handled := by
  induction outbox generalizing sent with
  | nil => exact accounts
  | cons sending rest induction => exact induction accounts.emit

theorem sent_of_idle (accounts : Accounts route sent [] handled) (channel : Channel) :
    sent channel = handled.flatMap (route channel) := by
  have total := accounts channel
  rwa [addressed_nil, List.append_nil] at total

/-- Nothing is lost before the end of what a channel has got. -/
theorem sent_prefix (accounts : Accounts route sent outbox handled) (channel : Channel) :
    sent channel <+: handled.flatMap (route channel) := ⟨_, accounts channel⟩

end Accounts

end FanOut
