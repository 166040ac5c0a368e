import FileMonitor.Supervision.Equiv.Shutdown

/-!
# Steps around a shutdown

What the steps of the tasks leave to `shutdown`, and what its own steps do: `callShutdown_cases` and
`killRemaining_cases` are the specifications of its two halves, `SupervisorStep.signals` says which
processes they send a signal to.
-/

namespace FileMonitor

open ProcessSupervisor

/-- A step of the task of one child. -/
def SupervisorAction.OfChild : SupervisorAction → Prop
  | .run _ | .spawnReturns _ | .spawnFails _ | .waitReturns _ | .backoffEnds _ | .cancel _ => True
  | _ => False

section

variable {supervisor : ProcessSupervisor} {state state' : SupervisorState} {action : SupervisorAction}
  {es : List SupervisorEvent} {process : ProcessId}

theorem tableInv_initial : TableInv supervisor supervisor.initial where
  recorded index spec child h := by
    have hchild := h.child
    rw [ProcessSupervisor.initial, List.getElem?_map, h.spec] at hchild
    obtain rfl := Option.some.inj hchild
    rfl
  started := nofun

/-! ### The tasks of the children -/

/-- The events of the end of an iteration. -/
theorem mem_handleExit {index : ℕ} {name : String} {child : Child} {startedAt : ℚ}
    {event : SupervisorEvent} (h : event ∈ (supervisor.handleExit state index name child startedAt).2) :
    event = .childExited name startedAt state.now ∨ event = .degraded name ∨
      ∃ delay, event = .backingOff name delay := by
  rcases handleExit_cases supervisor state index name child startedAt with
    ⟨-, heq⟩ | ⟨-, -, heq⟩ | ⟨-, -, heq⟩
  all_goals
    rw [heq] at h
    simp at h
  · exact h.imp_right .inl
  · exact h.imp_right fun h => .inr ⟨_, h⟩

theorem handleExit_now (supervisor : ProcessSupervisor) (state : SupervisorState) (index : ℕ)
    (name : String) (child : Child) (startedAt : ℚ) :
    (supervisor.handleExit state index name child startedAt).1.now = state.now := by
  rcases handleExit_cases supervisor state index name child startedAt with ⟨-, h⟩ | ⟨-, -, h⟩ | ⟨-, -, h⟩
  all_goals
    rw [h]
    rfl

/-- The task of a child has no part in `shutdown`. -/
theorem SupervisorStep.of_ofChild (step : SupervisorStep supervisor state action es state')
    (h : action.OfChild) : state'.shutdown = state.shutdown ∧
      ∃ index child, state'.children = state.children.set index child := by
  cases step with
  | loopEnds => exact ⟨rfl, _, _, rfl⟩
  | spawnStarted => exact ⟨rfl, _, _, rfl⟩
  | spawnReturned => exact ⟨rfl, _, _, rfl⟩
  | spawnFailed =>
    obtain ⟨⟨child', hchildren, -⟩, -, -, -, hshutdown, -⟩ := handleExit_spec supervisor state _ _ _ _
    exact ⟨hshutdown, _, child', hchildren⟩
  | @waitReturned index spec child process startedAt =>
    obtain ⟨⟨child', hchildren, -⟩, -, -, -, hshutdown, -⟩ := handleExit_spec supervisor
      { state with processes := state.processes.erase spec.name } index spec.name child startedAt
    exact ⟨hshutdown, _, child', hchildren⟩
  | backoffEnded => exact ⟨rfl, _, _, rfl⟩
  | cancelled => exact ⟨rfl, _, _, rfl⟩
  | _ => cases h

theorem SupervisorStep.children_eq (step : SupervisorStep supervisor state action es state')
    (h : ¬ action.OfChild) : state'.children = state.children := by
  cases step with
  | tick => rfl
  | exited => rfl
  | shutdownCalled =>
    obtain ⟨shutdown, hstate, -⟩ := callShutdown_spec state
    rw [hstate]
  | graceEnded => rfl
  | remainingKilled =>
    obtain ⟨shutdown, hstate, -⟩ := killRemaining_spec state
    rw [hstate]
  | reaped => rfl
  | shutdownReturned => rfl
  | _ => exact absurd trivial h

/-! ### The two halves of `shutdown` -/

theorem killRemaining_cases (state : SupervisorState) :
    (state.processes.values = [] ∧
      killRemaining state = ({ state with shutdown := .returned }, [.shutdownReturned])) ∨
    (state.processes.values ≠ [] ∧ killRemaining state
      = ({ state with shutdown := .reaping state.processes.values },
          state.processes.values.map .killed)) := by
  unfold killRemaining
  dsimp only
  split_ifs with hempty
  · exact .inl ⟨hempty, rfl⟩
  · exact .inr ⟨hempty, rfl⟩

theorem callShutdown_cases (state : SupervisorState) :
    (state.processes.values = [] ∧ callShutdown state
      = ({ state with stopping := true, shutdown := .returned }, [.shutdownCalled, .shutdownReturned])) ∨
    (state.processes.values ≠ [] ∧ callShutdown state
      = ({ state with stopping := true, shutdown := .grace state.processes.values state.now },
          .shutdownCalled :: state.processes.values.map .terminated)) := by
  unfold callShutdown killRemaining
  dsimp only
  split_ifs with hempty
  · exact .inl ⟨hempty, rfl⟩
  · exact .inr ⟨hempty, rfl⟩

theorem callShutdown_ne_notCalled (state : SupervisorState) :
    (callShutdown state).1.shutdown ≠ .notCalled := by
  rcases callShutdown_cases state with ⟨-, h⟩ | ⟨-, h⟩
  all_goals
    rw [h]
    exact nofun

/-- Only a call of `shutdown` begins it. -/
theorem SupervisorStep.notCalled_iff (step : SupervisorStep supervisor state action es state')
    (hshutdown : action ≠ .shutdown) : state'.shutdown = .notCalled ↔ state.shutdown = .notCalled := by
  by_cases hchild : action.OfChild
  · rw [(step.of_ofChild hchild).1]
  · cases step with
    | tick => exact Iff.rfl
    | exited => exact Iff.rfl
    | shutdownCalled => exact absurd rfl hshutdown
    | graceEnded hgrace => exact ⟨nofun, fun h => by cases h.symm.trans hgrace⟩
    | remainingKilled hyielding =>
      refine ⟨fun h => ?_, fun h => by cases h.symm.trans hyielding⟩
      rcases killRemaining_cases state with ⟨-, heq⟩ | ⟨-, heq⟩
      all_goals
        rw [heq] at h
        cases h
    | reaped hreaping => exact ⟨nofun, fun h => by cases h.symm.trans hreaping⟩
    | shutdownReturned hreaping => exact ⟨nofun, fun h => by cases h.symm.trans hreaping⟩
    | _ => exact absurd trivial hchild

/-- A call of `shutdown` is never taken back. -/
theorem SupervisorStep.notCalled (step : SupervisorStep supervisor state action es state')
    (h : state'.shutdown = .notCalled) : state.shutdown = .notCalled := by
  by_cases hshutdown : action = .shutdown
  · cases step with
    | shutdownCalled hnotCalled => exact hnotCalled
    | _ => cases hshutdown
  · exact (step.notCalled_iff hshutdown).mp h

/-- `shutdown` waits for processes only where there are some. -/
theorem SupervisorStep.reaping_ne_nil (step : SupervisorStep supervisor state action es state')
    (h : state.shutdown ≠ .reaping []) : state'.shutdown ≠ .reaping [] := by
  by_cases hchild : action.OfChild
  · rw [(step.of_ofChild hchild).1]
    exact h
  · cases step with
    | tick => exact h
    | exited => exact h
    | shutdownCalled =>
      rcases callShutdown_cases state with ⟨-, heq⟩ | ⟨-, heq⟩
      all_goals
        rw [heq]
        exact nofun
    | graceEnded => exact nofun
    | remainingKilled =>
      rcases killRemaining_cases state with ⟨-, heq⟩ | ⟨hsome, heq⟩
      · rw [heq]
        exact nofun
      · rw [heq]
        exact fun hnil => hsome (ShutdownPhase.reaping.inj hnil)
    | reaped _ _ hmore => exact fun heq => hmore (ShutdownPhase.reaping.inj heq)
    | shutdownReturned => exact nofun
    | _ => exact absurd trivial hchild

/-! ### Processes -/

/-- Processes appear where `spawn` returns them, and disappear where they exit. -/
theorem SupervisorStep.alive (step : SupervisorStep supervisor state action es state') :
    (∀ name process, .spawnReturned name process ∈ es → process ∈ state'.alive) ∧
      ∀ process ∈ state.alive, process ∈ state'.alive ∨ .exited process ∈ es := by
  have hexit {state : SupervisorState} {index : ℕ} {name : String} {child : Child} {startedAt : ℚ}
      {process : ProcessId} (name' : String)
      (h : .spawnReturned name' process ∈ (supervisor.handleExit state index name child startedAt).2) :
      process ∈ (supervisor.handleExit state index name child startedAt).1.alive := by
    rcases mem_handleExit h with h | h | ⟨_, h⟩ <;> cases h
  cases step with
  | spawnReturned =>
    refine ⟨fun name process hmem => ?_, fun process hmem => .inl (List.mem_append_left _ hmem)⟩
    obtain ⟨-, rfl⟩ := SupervisorEvent.spawnReturned.inj (List.mem_singleton.mp hmem)
    exact List.mem_append_right _ List.mem_cons_self
  | spawnFailed =>
    obtain ⟨-, -, -, halive, -⟩ := handleExit_spec supervisor state _ _ _ _
    exact ⟨fun name process => hexit name, fun _ h => .inl (halive ▸ h)⟩
  | @exited process halive =>
    refine ⟨by simp, fun other hmem => ?_⟩
    by_cases heq : other = process
    · exact .inr (by rw [heq]; exact List.mem_cons_self)
    · exact .inl ((List.mem_erase_of_ne heq).mpr hmem)
  | @waitReturned index spec child process startedAt =>
    obtain ⟨-, -, -, halive, -⟩ := handleExit_spec supervisor
      { state with processes := state.processes.erase spec.name } index spec.name child startedAt
    refine ⟨fun name process => hexit name, fun process' h => .inl ?_⟩
    rw [halive]
    exact h
  | shutdownCalled =>
    rcases callShutdown_cases state with ⟨-, heq⟩ | ⟨-, heq⟩
    all_goals
      rw [heq]
      exact ⟨by simp, fun _ h => .inl h⟩
  | remainingKilled =>
    rcases killRemaining_cases state with ⟨-, heq⟩ | ⟨-, heq⟩
    all_goals
      rw [heq]
      exact ⟨by simp, fun _ h => .inl h⟩
  | _ => exact ⟨by simp, fun _ h => .inl h⟩

/-! ### Signals -/

/-- The step that calls `shutdown`. -/
theorem SupervisorStep.called (step : SupervisorStep supervisor state action es state')
    (h : .shutdownCalled ∈ es) : state.shutdown = .notCalled ∧
      ∃ rest, es = .shutdownCalled :: rest ∧ .shutdownCalled ∉ rest ∧
        ∀ process ∈ state.processes.values, .terminated process ∈ rest := by
  cases step with
  | spawnFailed =>
    obtain ⟨-, -, -, -, -, -, -, hnotCalled⟩ := handleExit_spec supervisor _ _ _ _ _
    exact absurd h hnotCalled
  | waitReturned =>
    obtain ⟨-, -, -, -, -, -, -, hnotCalled⟩ := handleExit_spec supervisor _ _ _ _ _
    exact absurd h hnotCalled
  | shutdownCalled hnotCalled =>
    refine ⟨hnotCalled, ?_⟩
    rcases callShutdown_cases state with ⟨hempty, heq⟩ | ⟨-, heq⟩
    · rw [heq]
      exact ⟨[.shutdownReturned], rfl, by simp, by simp [hempty]⟩
    · rw [heq]
      exact ⟨_, rfl, by simp, fun process hmem => List.mem_map_of_mem hmem⟩
  | remainingKilled => exact absurd h (killRemaining_spec state).choose_spec.2.2
  | _ => simp at h

/-- Processes are asked to terminate in the call, and killed in the second half. -/
theorem SupervisorStep.signals (step : SupervisorStep supervisor state action es state') :
    (.terminated process ∈ es → es = .shutdownCalled :: state.processes.values.map .terminated) ∧
    (.killed process ∈ es → state.shutdown = .yielding ∧ process ∈ state.processes.values) := by
  have hexit {state : SupervisorState} {index : ℕ} {name : String} {child : Child} {startedAt : ℚ}
      {event : SupervisorEvent} {P : Prop}
      (hevent : event = .terminated process ∨ event = .killed process)
      (hmem : event ∈ (supervisor.handleExit state index name child startedAt).2) : P := by
    rcases hevent with rfl | rfl
    all_goals rcases mem_handleExit hmem with h | h | ⟨_, h⟩ <;> cases h
  cases step with
  | spawnFailed => exact ⟨hexit (.inl rfl), hexit (.inr rfl)⟩
  | waitReturned => exact ⟨hexit (.inl rfl), hexit (.inr rfl)⟩
  | shutdownCalled =>
    rcases callShutdown_cases state with ⟨-, h⟩ | ⟨-, h⟩
    all_goals
      rw [h]
      simp
  | remainingKilled hyielding =>
    rcases killRemaining_cases state with ⟨-, h⟩ | ⟨-, h⟩
    · rw [h]
      simp
    · rw [h]
      simpa using fun hmem => ⟨hyielding, hmem⟩
  | _ => simp

end

end FileMonitor
