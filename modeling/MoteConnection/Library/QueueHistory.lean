import MoteConnection.Library.LabeledRuns

/-!
# The history of a queue that outlives its connections

A system takes entries from a queue, some to serve them to a connection and
some to throw them away. The log has every entry that was ever put in the
queue, in order, and whether the system was disconnected then. It changes
nothing; an entry is known by its place in it, so that equal entries are told
apart.

When no entry put during a disconnection is left in the queue at the moment a
connection begins, no such entry is ever served.
-/

namespace QueueHistory

open LabeledRuns

set_option autoImplicit false

/-- A system and its use of a queue, by how many of all its `entries` were out of it when the
connection began, when the connection was served its last one, and are out of it now. -/
structure QueueSystem (State Label Content : Type*) where
  step : State → Label → Option State
  entries : State → List Content
  begun : State → Nat
  served : State → Nat
  gone : State → Nat
  connected : State → Bool
  disconnected : State → Bool
  apart : ∀ state, connected state = true → disconnected state = false

structure Logged (State Content : Type*) where
  state : State
  log : List (Content × Bool)

variable {State Label Content : Type*}

def Logged.start (state : State) : Logged State Content := ⟨state, []⟩

namespace QueueSystem

variable (system : QueueSystem State Label Content)

def fresh (state next : State) : List (Content × Bool) :=
  ((system.entries next).drop (system.entries state).length).map fun entry =>
    (entry, system.disconnected state)

def loggedStep (logged : Logged State Content) (label : Label) : Option (Logged State Content) :=
  (system.step logged.state label).map fun next =>
    ⟨next, logged.log ++ system.fresh logged.state next⟩

def servedOf (logged : Logged State Content) : List (Content × Bool) :=
  (logged.log.drop (system.begun logged.state)).take
    (system.served logged.state - system.begun logged.state)

/-- When a connection begins, every entry put during the disconnection is out of the queue. -/
def Clean (logged : Logged State Content) (label : Label) : Prop :=
  ∀ next ∈ system.step logged.state label,
    system.connected logged.state = false → system.connected next = true →
      ∀ entry ∈ logged.log.drop (system.gone logged.state), entry.2 = false

instance decidableClean (logged : Logged State Content) (label : Label) :
    Decidable (system.Clean logged label) :=
  inferInstanceAs (Decidable (∀ next ∈ system.step logged.state label, _ → _ → _))

inductive Turn (state next : State) : Prop
  | rest (begun : system.begun next = system.begun state)
      (served : system.served next = system.served state)
      (connected : system.connected next = true → system.connected state = true)
  | serve (connected : system.connected state = true)
      (begun : system.begun next = system.begun state)
  | clear (disconnected : system.connected next = false)
      (nothing : system.served next = system.begun next)
  | begins (disconnected : system.connected state = false)
      (entries : system.entries next = system.entries state)
      (begun : system.begun next = system.gone state)
      (served : system.served next = system.gone state)

structure InOrder (invariant : State → Prop) : Prop where
  preserved : ∀ state label next, invariant state →
    system.step state label = some next → invariant next
  grows : ∀ state label next, system.step state label = some next →
    system.entries state <+: system.entries next
  within : ∀ state, invariant state → system.served state ≤ (system.entries state).length
  turn : ∀ state label next, invariant state → system.step state label = some next →
    system.Turn state next

theorem logged_step_some {logged last : Logged State Content} {label : Label} :
    system.loggedStep logged label = some last ↔
      ∃ next, system.step logged.state label = some next ∧
        last = ⟨next, logged.log ++ system.fresh logged.state next⟩ := by
  rw [loggedStep, Option.map_eq_some_iff]
  constructor <;>
  · rintro ⟨next, taken, same⟩
    exact ⟨next, taken, same.symm⟩

theorem logged_run {state last : State} {labels : List Label}
    (reached : run system.step state labels = some last) (log : List (Content × Bool)) :
    ∃ total, run system.loggedStep ⟨state, log⟩ labels = some ⟨last, total⟩ := by
  induction labels generalizing state log with
  | nil =>
      cases reached
      exact ⟨log, rfl⟩
  | cons label rest induction =>
      obtain ⟨next, taken, remaining⟩ := run_cons_some.mp reached
      obtain ⟨total, later⟩ := induction remaining (log ++ system.fresh state next)
      exact ⟨total, run_cons_some.mpr
        ⟨_, system.logged_step_some.mpr ⟨next, taken, rfl⟩, later⟩⟩

/-- The log has what was put in the queue, and a connection is served nothing that was put there
during a disconnection. -/
structure Unspoilt (logged : Logged State Content) : Prop where
  log : logged.log.map Prod.fst = system.entries logged.state
  ahead : system.connected logged.state = true →
    ∀ entry ∈ logged.log.drop (system.begun logged.state), entry.2 = false
  served : ∀ entry ∈ system.servedOf logged, entry.2 = false

variable {system}

theorem log_step {invariant : State → Prop} (order : system.InOrder invariant)
    {logged : Logged State Content} {label : Label} {next : State}
    (log : logged.log.map Prod.fst = system.entries logged.state)
    (taken : system.step logged.state label = some next) :
    (logged.log ++ system.fresh logged.state next).map Prod.fst = system.entries next := by
  obtain ⟨more, grown⟩ := order.grows logged.state label next taken
  rw [List.map_append, log, fresh, ← grown, List.drop_left, List.map_map]
  exact congrArg (system.entries logged.state ++ ·) (List.map_id _)

theorem log_of_run {invariant : State → Prop} (order : system.InOrder invariant) {state : State}
    (empty : system.entries state = []) {labels : List Label} {last : Logged State Content}
    (reached : run system.loggedStep (.start state) labels = some last) :
    last.log.map Prod.fst = system.entries last.state := by
  have preserved (logged : Logged State Content) (label : Label) (next : Logged State Content)
      (log : logged.log.map Prod.fst = system.entries logged.state)
      (taken : system.loggedStep logged label = some next) :
      next.log.map Prod.fst = system.entries next.state := by
    obtain ⟨moved, moves, rfl⟩ := system.logged_step_some.mp taken
    exact log_step order log moves
  have initially : (Logged.start state : Logged State Content).log.map Prod.fst =
      system.entries state := empty.symm
  exact invariant_of_run preserved initially reached

theorem served_of_ahead {logged : Logged State Content}
    (ahead : ∀ entry ∈ logged.log.drop (system.begun logged.state), entry.2 = false) :
    ∀ entry ∈ system.servedOf logged, entry.2 = false :=
  fun entry member => ahead entry (List.mem_of_mem_take member)

theorem Unspoilt.step {invariant : State → Prop} (order : system.InOrder invariant)
    {logged next : Logged State Content} {label : Label} (holds : invariant logged.state)
    (unspoilt : system.Unspoilt logged) (clean : system.Clean logged label)
    (taken : system.loggedStep logged label = some next) : system.Unspoilt next := by
  obtain ⟨state, moves, rfl⟩ := system.logged_step_some.mp taken
  have log := log_step order unspoilt.log moves
  have inside : system.served logged.state ≤ logged.log.length := by
    rw [← List.length_map, unspoilt.log]
    exact order.within _ holds
  have put (connected : system.connected logged.state = true) :
      ∀ entry ∈ system.fresh logged.state state, entry.2 = false := by
    intro entry member
    obtain ⟨content, _, rfl⟩ := List.mem_map.mp member
    exact system.apart _ connected
  -- While the connection goes on, nothing that is put in the queue is put there too early.
  have goesOn (begun : system.begun state = system.begun logged.state)
      (connected : system.connected logged.state = true) :
      ∀ entry ∈ (logged.log ++ system.fresh logged.state state).drop (system.begun state),
        entry.2 = false := by
    intro entry member
    rw [begun, List.drop_append] at member
    rcases List.mem_append.mp member with earlier | new
    · exact unspoilt.ahead connected entry earlier
    · exact put connected entry (List.mem_of_mem_drop new)
  cases order.turn logged.state label state holds moves with
  | rest begun served connected =>
      refine ⟨log, fun now => goesOn begun (connected now), ?_⟩
      intro entry member
      apply unspoilt.served
      simp only [servedOf, begun, served] at member ⊢
      rw [List.drop_append, List.take_append] at member
      rcases List.mem_append.mp member with earlier | new
      · exact earlier
      · have nothing : system.served logged.state - system.begun logged.state -
            (logged.log.drop (system.begun logged.state)).length = 0 := by
          rw [List.length_drop]
          omega
        rw [nothing] at new
        cases new
  | serve connected begun =>
      have ahead := goesOn begun connected
      exact ⟨log, fun _ => ahead, served_of_ahead ahead⟩
  | clear disconnected nothing =>
      refine ⟨log, fun connected => ?_, ?_⟩
      · rw [disconnected] at connected
        cases connected
      · intro entry member
        simp only [servedOf, nothing, Nat.sub_self, List.take_zero] at member
        cases member
  | begins disconnected entries begun served =>
      refine ⟨log, fun connected => ?_, ?_⟩
      · have out := clean state moves disconnected connected
        have nothing : system.fresh logged.state state = [] := by
          rw [fresh, entries, List.drop_length]
          rfl
        simp only [nothing, List.append_nil, begun]
        exact out
      · intro entry member
        simp only [servedOf, begun, served, Nat.sub_self, List.take_zero] at member
        cases member

/-- The rule for runs: when its connections begin clean, a system that serves its queue in order
serves nothing that was put there during a disconnection. -/
theorem unspoilt_of_meets {invariant : State → Prop} (order : system.InOrder invariant)
    {state : State} (initially : invariant state) (empty : system.entries state = [])
    {labels : List Label} {last : Logged State Content}
    (clean : Meets system.loggedStep system.Clean (.start state) labels)
    (reached : run system.loggedStep (.start state) labels = some last) :
    system.Unspoilt last := by
  have preserved : ∀ logged label next, system.Clean logged label →
      invariant logged.state ∧ system.Unspoilt logged →
      system.loggedStep logged label = some next →
      invariant next.state ∧ system.Unspoilt next := by
    intro logged label next clean before taken
    obtain ⟨moved, moves, same⟩ := system.logged_step_some.mp taken
    refine ⟨?_, before.2.step order before.1 clean taken⟩
    rw [same]
    exact order.preserved _ _ _ before.1 moves
  have fresh : system.Unspoilt (.start state) := by
    refine ⟨empty.symm, ?_, ?_⟩
    · intro _ entry member
      rw [Logged.start, List.drop_nil] at member
      cases member
    · intro entry member
      rw [servedOf, Logged.start, List.drop_nil, List.take_nil] at member
      cases member
  exact (invariant_of_meets preserved clean ⟨initially, fresh⟩ reached).2

end QueueSystem

end QueueHistory
