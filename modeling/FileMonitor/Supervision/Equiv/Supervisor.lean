import FileMonitor.Supervision.Supervisor
import Mathlib.Data.List.Nodup

/-!
# Steps of the supervisor

`SupervisorStep` lists what a step of the supervisor can be, and `supervisorStep_of_step` says that it
makes no other.  `handleExit_cases` is the specification of the end of an iteration of
`_supervise_child`.
-/

namespace FileMonitor

open ProcessSupervisor

/-- The child with this number and its task. -/
structure ChildAt (supervisor : ProcessSupervisor) (state : SupervisorState) (index : ℕ)
    (spec : ChildSpec) (child : Child) : Prop where
  spec : supervisor.specs[index]? = some spec
  child : state.children[index]? = some child

/-- What one step does to the supervisor, its tasks and the processes, and its events. -/
inductive SupervisorStep (supervisor : ProcessSupervisor) (state : SupervisorState) :
    SupervisorAction → List SupervisorEvent → SupervisorState → Prop where
  | tick {seconds} (nonneg : 0 ≤ seconds) :
    SupervisorStep supervisor state (.tick seconds) [] { state with now := state.now + seconds }
  | loopEnds {index spec child} (current : ChildAt supervisor state index spec child)
    (ready : child.phase = .ready) (stopping : state.stopping = true) :
    SupervisorStep supervisor state (.run index) []
      (setChild state index { child with phase := .returned })
  | spawnStarted {index spec child} (current : ChildAt supervisor state index spec child)
    (ready : child.phase = .ready) (running : state.stopping = false) :
    SupervisorStep supervisor state (.run index) [.spawnStarted spec]
      (setChild state index { child with phase := .spawning state.now })
  | spawnReturned {index spec child startedAt} (current : ChildAt supervisor state index spec child)
    (spawning : child.phase = .spawning startedAt) :
    SupervisorStep supervisor state (.spawnReturns index) [.spawnReturned spec.name state.started]
      { setChild state index { child with phase := .waiting state.started startedAt } with
        processes := state.processes.set spec.name state.started
        started := state.started + 1
        alive := state.alive ++ [state.started] }
  | spawnFailed {index spec child startedAt} (current : ChildAt supervisor state index spec child)
    (spawning : child.phase = .spawning startedAt) :
    SupervisorStep supervisor state (.spawnFails index)
      (supervisor.handleExit state index spec.name child startedAt).2
      (supervisor.handleExit state index spec.name child startedAt).1
  | exited {process} (alive : process ∈ state.alive) :
    SupervisorStep supervisor state (.exits process) [.exited process]
      { state with alive := state.alive.erase process }
  | waitReturned {index spec child process startedAt}
    (current : ChildAt supervisor state index spec child)
    (waiting : child.phase = .waiting process startedAt) (dead : process ∉ state.alive) :
    SupervisorStep supervisor state (.waitReturns index)
      (supervisor.handleExit { state with processes := state.processes.erase spec.name } index
        spec.name child startedAt).2
      (supervisor.handleExit { state with processes := state.processes.erase spec.name } index
        spec.name child startedAt).1
  | backoffEnded {index spec child delay since} (current : ChildAt supervisor state index spec child)
    (backoff : child.phase = .backoff delay since)
    (expired : state.stopping = true ∨ since + delay ≤ state.now) :
    SupervisorStep supervisor state (.backoffEnds index) []
      (setChild state index { child with phase := .ready })
  | cancelled {index spec child} (current : ChildAt supervisor state index spec child)
    (notSpawning : ∀ startedAt, child.phase ≠ .spawning startedAt) :
    SupervisorStep supervisor state (.cancel index) []
      (setChild state index { child with phase := .cancelled })
  | shutdownCalled (notCalled : state.shutdown = .notCalled) :
    SupervisorStep supervisor state .shutdown (callShutdown state).2 (callShutdown state).1
  | graceEnded {processes since} (grace : state.shutdown = .grace processes since)
    (expired : (∀ process ∈ processes, process ∉ state.alive) ∨
      since + supervisor.shutdownTimeoutSeconds ≤ state.now) :
    SupervisorStep supervisor state .graceEnds [] { state with shutdown := .yielding }
  | remainingKilled (yielding : state.shutdown = .yielding) :
    SupervisorStep supervisor state .killRemaining (killRemaining state).2 (killRemaining state).1
  | reaped {process remaining} (reaping : state.shutdown = .reaping (process :: remaining))
    (dead : process ∉ state.alive) (more : remaining ≠ []) :
    SupervisorStep supervisor state .reap [] { state with shutdown := .reaping remaining }
  | shutdownReturned {process} (reaping : state.shutdown = .reaping [process])
    (dead : process ∉ state.alive) :
    SupervisorStep supervisor state .reap [.shutdownReturned] { state with shutdown := .returned }

variable {supervisor : ProcessSupervisor} {state state' : SupervisorState}

theorem supervisorStep_of_stepChild {action : SupervisorAction} {es : List SupervisorEvent}
    {index : ℕ} {spec : ChildSpec} {child : Child} (hat : ChildAt supervisor state index spec child)
    (haction : action = .run index ∨ action = .spawnReturns index ∨ action = .spawnFails index ∨
      action = .waitReturns index ∨ action = .backoffEnds index ∨ action = .cancel index)
    (h : supervisor.stepChild state index spec child action = some (state', es)) :
    SupervisorStep supervisor state action es state' := by
  rcases haction with rfl | rfl | rfl | rfl | rfl | rfl
  · rw [stepChild] at h
    split_ifs at h with hready hstopping
    · obtain ⟨rfl, rfl⟩ := Prod.mk.inj (Option.some.inj h)
      exact .loopEnds hat (not_not.mp hready) hstopping
    · obtain ⟨rfl, rfl⟩ := Prod.mk.inj (Option.some.inj h)
      exact .spawnStarted hat (not_not.mp hready) (Bool.eq_false_iff.mpr hstopping)
  · unfold stepChild at h
    dsimp only at h
    split at h
    · rename_i startedAt hphase
      obtain ⟨rfl, rfl⟩ := Prod.mk.inj (Option.some.inj h)
      exact .spawnReturned hat hphase
    · cases h
  · unfold stepChild at h
    dsimp only at h
    split at h
    · rename_i startedAt hphase
      obtain ⟨rfl, rfl⟩ := Prod.mk.inj (Option.some.inj h)
      exact .spawnFailed hat hphase
    · cases h
  · unfold stepChild at h
    dsimp only at h
    split at h
    · rename_i process startedAt hphase
      split_ifs at h with hdead
      obtain ⟨rfl, rfl⟩ := Prod.mk.inj (Option.some.inj h)
      exact .waitReturned hat hphase hdead
    · cases h
  · unfold stepChild at h
    dsimp only at h
    split at h
    · rename_i delay since hphase
      split_ifs at h with hover
      obtain ⟨rfl, rfl⟩ := Prod.mk.inj (Option.some.inj h)
      exact .backoffEnded hat hphase hover
    · cases h
  · unfold stepChild at h
    dsimp only at h
    split at h
    all_goals cases h
    all_goals exact .cancelled hat (by simp [*])

/-- **The supervisor makes no other steps.** -/
theorem supervisorStep_of_step {action : SupervisorAction} {es : List SupervisorEvent}
    (h : supervisor.step state action = some (state', es)) :
    SupervisorStep supervisor state action es state' := by
  have hchild {index : ℕ}
      (haction : action = .run index ∨ action = .spawnReturns index ∨ action = .spawnFails index ∨
        action = .waitReturns index ∨ action = .backoffEnds index ∨ action = .cancel index)
      (h : (supervisor.specs[index]?.bind fun spec => state.children[index]?.bind fun child =>
        supervisor.stepChild state index spec child action) = some (state', es)) :
      SupervisorStep supervisor state action es state' := by
    obtain ⟨spec, hspec, h⟩ := Option.bind_eq_some_iff.mp h
    obtain ⟨child, hchild, h⟩ := Option.bind_eq_some_iff.mp h
    exact supervisorStep_of_stepChild ⟨hspec, hchild⟩ haction h
  cases action with
  | tick seconds =>
    rw [ProcessSupervisor.step] at h
    split_ifs at h with hnonneg
    obtain ⟨rfl, rfl⟩ := Prod.mk.inj (Option.some.inj h)
    exact .tick hnonneg
  | exits process =>
    rw [ProcessSupervisor.step] at h
    split_ifs at h with halive
    obtain ⟨rfl, rfl⟩ := Prod.mk.inj (Option.some.inj h)
    exact .exited halive
  | shutdown =>
    rw [ProcessSupervisor.step] at h
    split_ifs at h with hnotCalled
    obtain ⟨rfl, rfl⟩ := Prod.mk.inj (Option.some.inj h)
    exact .shutdownCalled hnotCalled
  | graceEnds =>
    unfold ProcessSupervisor.step at h
    dsimp only at h
    split at h
    · rename_i processes since hgrace
      split_ifs at h with hover
      obtain ⟨rfl, rfl⟩ := Prod.mk.inj (Option.some.inj h)
      exact .graceEnded hgrace hover
    · cases h
  | killRemaining =>
    rw [ProcessSupervisor.step] at h
    split_ifs at h with hyielding
    obtain ⟨rfl, rfl⟩ := Prod.mk.inj (Option.some.inj h)
    exact .remainingKilled hyielding
  | reap =>
    unfold ProcessSupervisor.step at h
    dsimp only at h
    split at h
    · rename_i process remaining hreaping
      split_ifs at h with hdead hlast
      · obtain ⟨rfl, rfl⟩ := Prod.mk.inj (Option.some.inj h)
        exact .shutdownReturned (hlast ▸ hreaping) hdead
      · obtain ⟨rfl, rfl⟩ := Prod.mk.inj (Option.some.inj h)
        exact .reaped hreaping hdead hlast
    · cases h
  | run index => exact hchild (.inl rfl) h
  | spawnReturns index => exact hchild (.inr (.inl rfl)) h
  | spawnFails index => exact hchild (.inr (.inr (.inl rfl))) h
  | waitReturns index => exact hchild (.inr (.inr (.inr (.inl rfl)))) h
  | backoffEnds index => exact hchild (.inr (.inr (.inr (.inr (.inl rfl))))) h
  | cancel index => exact hchild (.inr (.inr (.inr (.inr (.inr rfl))))) h

/-- **The end of an iteration** of `_supervise_child`: the task returns because the supervisor stops, or
because the child is degraded, or it waits to start the child again. -/
theorem handleExit_cases (supervisor : ProcessSupervisor) (state : SupervisorState) (index : ℕ)
    (name : String) (child : Child) (startedAt : ℚ) :
    let uptime := floatSub state.now startedAt
    let failures := supervisor.failuresAfter child.consecutiveFailures uptime
    let timestamps := supervisor.appendExit child.exitTimestamps state.now
    (state.stopping = true ∧ supervisor.handleExit state index name child startedAt
      = (setChild state index { child with phase := .returned }, [])) ∨
    (state.stopping = false ∧ supervisor.inCrashLoop timestamps state.now = true ∧
      supervisor.handleExit state index name child startedAt
        = ({ setChild state index ⟨.returned, failures, timestamps⟩ with
              degraded := insert name state.degraded },
            [.childExited name startedAt state.now, .degraded name])) ∨
    (state.stopping = false ∧ supervisor.inCrashLoop timestamps state.now = false ∧
      supervisor.handleExit state index name child startedAt
        = (setChild state index
              ⟨.backoff (supervisor.delay failures) state.now, failures + 1, timestamps⟩,
            [.childExited name startedAt state.now, .backingOff name (supervisor.delay failures)])) := by
  intro uptime failures timestamps
  unfold handleExit
  by_cases hstopping : state.stopping = true
  · exact .inl ⟨hstopping, if_pos hstopping⟩
  · rw [if_neg hstopping]
    have hrunning : state.stopping = false := Bool.eq_false_iff.mpr hstopping
    by_cases hloop : supervisor.inCrashLoop timestamps state.now = true
    · exact .inr (.inl ⟨hrunning, hloop, if_pos hloop⟩)
    · exact .inr (.inr ⟨hrunning, Bool.eq_false_iff.mpr hloop, if_neg hloop⟩)

/-- The second half of `shutdown` changes nothing but where `shutdown` stands. -/
theorem killRemaining_spec (state : SupervisorState) :
    ∃ shutdown, (killRemaining state).1 = { state with shutdown := shutdown } ∧
      (∀ spec, .spawnStarted spec ∉ (killRemaining state).2) ∧
      .shutdownCalled ∉ (killRemaining state).2 := by
  unfold killRemaining
  dsimp only
  split_ifs
  · exact ⟨.returned, rfl, by simp, by simp⟩
  · exact ⟨.reaping state.processes.values, rfl, by simp, by simp⟩

end FileMonitor
