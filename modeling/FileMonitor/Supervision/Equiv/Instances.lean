import FileMonitor.Supervision.Equiv.ShutdownSteps

/-!
# Processes of one child

A child has at most one living process: `_supervise_child` starts the next only where `wait` has returned
for the last, and a task that was cancelled starts no more.  `InstanceInv` says it for the processes that
were spawned so far, and is kept by every step (`InstanceInv.step`), also by that which cancels a call of
`spawn` (`InstanceInv.cancelSpawn`); `InstanceInv.length_le` counts them.
-/

namespace FileMonitor

open ProcessSupervisor

/-- The child with its task here may have this living process. -/
def ChildPhase.MayHold (process : ProcessId) : ChildPhase → Prop
  | .waiting process' _ => process = process'
  | .cancelled => True
  | _ => False

/-- What holds of the processes that were spawned, each under the name of its child. -/
structure InstanceInv (supervisor : ProcessSupervisor) (spawned : String → ProcessId → Prop)
    (state : SupervisorState) : Prop where
  started : ∀ name process, spawned name process → process < state.started
  owned : ∀ process ∈ state.alive, ∃ spec ∈ supervisor.specs, spawned spec.name process
  current : ∀ index spec child, ChildAt supervisor state index spec child →
    ∀ process ∈ state.alive, spawned spec.name process → child.phase.MayHold process
  unique : ∀ name, ∀ process ∈ state.alive, ∀ process' ∈ state.alive, spawned name process →
    spawned name process' → process = process'
  nodup : state.alive.Nodup

section

variable {supervisor : ProcessSupervisor} {spawned spawned' : String → ProcessId → Prop}
  {state state' : SupervisorState} {action : SupervisorAction} {es : List SupervisorEvent}

theorem InstanceInv.initial (hnone : ∀ name process, ¬ spawned name process) :
    InstanceInv supervisor spawned supervisor.initial where
  started name process h := absurd h (hnone name process)
  owned := nofun
  current _ _ _ _ := nofun
  unique _ := nofun
  nodup := List.nodup_nil

theorem InstanceInv.congr (hinv : InstanceInv supervisor spawned state)
    (h : ∀ name process, spawned' name process ↔ spawned name process) :
    InstanceInv supervisor spawned' state := by
  obtain rfl : spawned' = spawned := funext fun name => funext fun process => propext (h name process)
  exact hinv

/-- A step that spawns nothing. -/
theorem InstanceInv.of_current (hinv : InstanceInv supervisor spawned state)
    (hstarted : state'.started = state.started) (halive : state'.alive.Sublist state.alive)
    (hcurrent : ∀ index spec child, ChildAt supervisor state' index spec child →
      ∀ process ∈ state'.alive, spawned spec.name process → child.phase.MayHold process) :
    InstanceInv supervisor spawned state' where
  started name process h := by
    rw [hstarted]
    exact hinv.started name process h
  owned process hmem := hinv.owned process (halive.subset hmem)
  current := hcurrent
  unique name process hmem process' hmem' :=
    hinv.unique name process (halive.subset hmem) process' (halive.subset hmem')
  nodup := hinv.nodup.sublist halive

/-- A step that spawns nothing and leaves the tasks alone. -/
theorem InstanceInv.frame (hinv : InstanceInv supervisor spawned state)
    (hchildren : state'.children = state.children) (hstarted : state'.started = state.started)
    (halive : state'.alive.Sublist state.alive) : InstanceInv supervisor spawned state' := by
  refine hinv.of_current hstarted halive fun index spec child hat process hmem => ?_
  exact hinv.current index spec child ⟨hat.spec, hchildren ▸ hat.child⟩ process (halive.subset hmem)

/-- A step of one task that spawns nothing. -/
theorem InstanceInv.setChild (hinv : InstanceInv supervisor spawned state) {index : ℕ} {spec : ChildSpec}
    {child child' : Child} (hat : ChildAt supervisor state index spec child)
    (hchildren : state'.children = state.children.set index child')
    (hstarted : state'.started = state.started) (halive : state'.alive = state.alive)
    (hhold : ∀ process ∈ state.alive, spawned spec.name process → child'.phase.MayHold process) :
    InstanceInv supervisor spawned state' := by
  refine hinv.of_current hstarted (halive ▸ .refl _) fun j spec' other hother process hmem hspawned => ?_
  rw [halive] at hmem
  rcases hat.of_set hchildren hother with ⟨-, rfl, rfl⟩ | ⟨-, hbefore⟩
  · exact hhold process hmem hspawned
  · exact hinv.current j spec' other hbefore process hmem hspawned

theorem InstanceInv.cancelSpawn (hinv : InstanceInv supervisor spawned state) {index : ℕ}
    {spec : ChildSpec} {child : Child} (hat : ChildAt supervisor state index spec child) :
    InstanceInv supervisor spawned
      (ProcessSupervisor.setChild state index { child with phase := .cancelled }) :=
  hinv.setChild hat rfl rfl rfl fun _ _ _ => trivial

theorem InstanceInv.spawnReturned (hinv : InstanceInv supervisor spawned state)
    (hnames : (supervisor.specs.map ChildSpec.name).Nodup) {index : ℕ} {spec : ChildSpec} {child : Child}
    {startedAt : ℚ} (hat : ChildAt supervisor state index spec child)
    (hspawning : child.phase = .spawning startedAt) (processes : Dict String ProcessId) :
    InstanceInv supervisor
      (fun name process => spawned name process ∨ name = spec.name ∧ process = state.started)
      { ProcessSupervisor.setChild state index
          { child with phase := .waiting state.started startedAt } with
        processes := processes
        started := state.started + 1
        alive := state.alive ++ [state.started] } := by
  -- the child that is being spawned has no living process yet
  have hnone (process : ProcessId) (hmem : process ∈ state.alive) : ¬ spawned spec.name process := by
    intro hspawned
    have hhold := hinv.current index spec child hat process hmem hspawned
    rwa [hspawning] at hhold
  have hne {process : ProcessId} (hmem : process ∈ state.alive) : process ≠ state.started := by
    obtain ⟨owner, -, howned⟩ := hinv.owned process hmem
    exact (hinv.started _ _ howned).ne
  have hold {name : String} {process : ProcessId} (hmem : process ∈ state.alive)
      (h : spawned name process ∨ name = spec.name ∧ process = state.started) : spawned name process :=
    h.resolve_right fun hnew => hne hmem hnew.2
  have hnew {name : String}
      (h : spawned name state.started ∨ name = spec.name ∧ state.started = state.started) :
      name = spec.name :=
    (h.resolve_left fun hspawned => absurd (hinv.started _ _ hspawned) (lt_irrefl _)).1
  refine ⟨fun name process h => ?_, fun process hmem => ?_, fun j spec' other hother process hmem h => ?_,
    fun name process hmem process' hmem' h h' => ?_, ?_⟩
  · rcases h with h | ⟨-, rfl⟩
    · exact Nat.lt_succ_of_lt (hinv.started name process h)
    · exact Nat.lt_succ_self _
  · rcases List.mem_append.mp hmem with hmem | hmem
    · exact (hinv.owned process hmem).imp fun _ h => ⟨h.1, .inl h.2⟩
    · exact ⟨spec, List.mem_of_getElem? hat.spec, .inr ⟨rfl, List.mem_singleton.mp hmem⟩⟩
  · rcases hat.of_set rfl hother with ⟨-, rfl, rfl⟩ | ⟨hindex, hbefore⟩
    · rcases List.mem_append.mp hmem with hmem | hmem
      · exact absurd (hold hmem h) (hnone process hmem)
      · exact List.mem_singleton.mp hmem
    · rcases List.mem_append.mp hmem with hmem | hmem
      · exact hinv.current j spec' other hbefore process hmem (hold hmem h)
      · obtain rfl := List.mem_singleton.mp hmem
        exact absurd (hbefore.index_eq hnames hat (hnew h)) hindex
  · rcases List.mem_append.mp hmem with hmem | hmem
    all_goals rcases List.mem_append.mp hmem' with hmem' | hmem'
    · exact hinv.unique name process hmem process' hmem' (hold hmem h) (hold hmem' h')
    · obtain rfl := List.mem_singleton.mp hmem'
      obtain rfl := hnew h'
      exact absurd (hold hmem h) (hnone process hmem)
    · obtain rfl := List.mem_singleton.mp hmem
      obtain rfl := hnew h
      exact absurd (hold hmem' h') (hnone process' hmem')
    · exact (List.mem_singleton.mp hmem).trans (List.mem_singleton.mp hmem').symm
  · rw [List.nodup_append]
    refine ⟨hinv.nodup, List.nodup_singleton _, fun process hmem other hother => ?_⟩
    rw [List.mem_singleton.mp hother]
    exact hne hmem

/-- The end of an iteration, of a task that has no living process. -/
theorem InstanceInv.handleExit (hinv : InstanceInv supervisor spawned state) {index : ℕ}
    {spec : ChildSpec} {child : Child} (hat : ChildAt supervisor state index spec child)
    (processes : Dict String ProcessId) (startedAt : ℚ)
    (hnone : ∀ process ∈ state.alive, ¬ spawned spec.name process) :
    InstanceInv supervisor spawned (supervisor.handleExit
      { state with processes := processes } index spec.name child startedAt).1 := by
  obtain ⟨⟨child', hchildren, -⟩, -, hstarted, halive, -⟩ := handleExit_spec supervisor
    { state with processes := processes } index spec.name child startedAt
  exact hinv.setChild hat hchildren hstarted halive fun process hmem h => absurd h (hnone process hmem)

theorem InstanceInv.step (hinv : InstanceInv supervisor spawned state)
    (hnames : (supervisor.specs.map ChildSpec.name).Nodup)
    (step : SupervisorStep supervisor state action es state')
    (hspawned : ∀ name process, spawned' name process ↔
      spawned name process ∨ .spawnReturned name process ∈ es) :
    InstanceInv supervisor spawned' state' := by
  refine InstanceInv.congr ?_ hspawned
  -- a task between two processes has none alive
  have hnone {index : ℕ} {spec : ChildSpec} {child : Child}
      (hat : ChildAt supervisor state index spec child)
      (hbetween : ∀ process ∈ state.alive, ¬ child.phase.MayHold process) :
      ∀ process ∈ state.alive, ¬ spawned spec.name process :=
    fun process hmem h => hbetween process hmem (hinv.current index spec child hat process hmem h)
  have hsame {state' : SupervisorState} {es : List SupervisorEvent}
      (h : InstanceInv supervisor spawned state')
      (hes : ∀ name process, .spawnReturned name process ∉ es) :
      InstanceInv supervisor (fun name process => spawned name process ∨ .spawnReturned name process ∈ es)
        state' :=
    h.congr fun name process => or_iff_left (hes name process)
  have hexit {state : SupervisorState} {index : ℕ} {name : String} {child : Child} {startedAt : ℚ}
      (name' : String) (process : ProcessId) :
      .spawnReturned name' process ∉ (supervisor.handleExit state index name child startedAt).2 := by
    intro h
    rcases mem_handleExit h with h | h | ⟨_, h⟩ <;> cases h
  cases step with
  | tick => exact hsame (hinv.frame rfl rfl (.refl _)) (by simp)
  | loopEnds hat hready =>
    refine hsame (hinv.setChild hat rfl rfl rfl fun process hmem h => ?_) (by simp)
    exact absurd h (hnone hat (by rw [hready]; exact fun _ _ => id) process hmem)
  | spawnStarted hat hready =>
    refine hsame (hinv.setChild hat rfl rfl rfl fun process hmem h => ?_) (by simp)
    exact absurd h (hnone hat (by rw [hready]; exact fun _ _ => id) process hmem)
  | spawnReturned hat hspawning =>
    exact (hinv.spawnReturned hnames hat hspawning _).congr fun name process => by simp
  | spawnFailed hat hspawning =>
    refine hsame (hinv.handleExit hat state.processes _ ?_) hexit
    exact hnone hat (by rw [hspawning]; exact fun _ _ => id)
  | exited => exact hsame (hinv.frame rfl rfl List.erase_sublist) (by simp)
  | waitReturned hat hwaiting hdead =>
    refine hsame (hinv.handleExit hat _ _ (hnone hat ?_)) hexit
    rw [hwaiting]
    rintro process hmem rfl
    exact hdead hmem
  | backoffEnded hat hbackoff =>
    refine hsame (hinv.setChild hat rfl rfl rfl fun process hmem h => ?_) (by simp)
    exact absurd h (hnone hat (by rw [hbackoff]; exact fun _ _ => id) process hmem)
  | cancelled hat => exact hsame (hinv.setChild hat rfl rfl rfl fun _ _ _ => trivial) (by simp)
  | shutdownCalled =>
    rcases callShutdown_cases state with ⟨-, h⟩ | ⟨-, h⟩
    all_goals
      rw [h]
      exact hsame (hinv.frame rfl rfl (.refl _)) (by simp)
  | graceEnded => exact hsame (hinv.frame rfl rfl (.refl _)) (by simp)
  | remainingKilled =>
    rcases killRemaining_cases state with ⟨-, h⟩ | ⟨-, h⟩
    all_goals
      rw [h]
      exact hsame (hinv.frame rfl rfl (.refl _)) (by simp)
  | reaped => exact hsame (hinv.frame rfl rfl (.refl _)) (by simp)
  | shutdownReturned => exact hsame (hinv.frame rfl rfl (.refl _)) (by simp)

/-- A process is started for a child that has none alive. -/
theorem InstanceInv.of_spawnStarted (hinv : InstanceInv supervisor spawned state)
    (step : SupervisorStep supervisor state action es state') {spec : ChildSpec}
    (h : .spawnStarted spec ∈ es) :
    spec ∈ supervisor.specs ∧ ∀ process ∈ state.alive, ¬ spawned spec.name process := by
  cases step with
  | spawnStarted hat hready =>
    obtain rfl := SupervisorEvent.spawnStarted.inj (List.mem_singleton.mp h)
    refine ⟨List.mem_of_getElem? hat.spec, fun process hmem hspawned => ?_⟩
    have hhold := hinv.current _ _ _ hat process hmem hspawned
    rwa [hready] at hhold
  | spawnFailed => rcases mem_handleExit h with h | h | ⟨_, h⟩ <;> cases h
  | waitReturned => rcases mem_handleExit h with h | h | ⟨_, h⟩ <;> cases h
  | shutdownCalled => exact absurd h ((callShutdown_spec state).choose_spec.2 spec)
  | remainingKilled => exact absurd h ((killRemaining_spec state).choose_spec.2.1 spec)
  | _ => simp at h

/-- **No more living processes than children.** -/
theorem InstanceInv.length_le (hinv : InstanceInv supervisor spawned state) :
    state.alive.length ≤ supervisor.specs.length := by
  choose owner howner using hinv.owned
  have hnodup : (state.alive.attach.map fun process => (owner process.1 process.2).name).Nodup := by
    refine (List.nodup_attach.mpr hinv.nodup).map_on fun process _ process' _ heq => Subtype.ext ?_
    refine hinv.unique (owner process.1 process.2).name _ process.2 _ process'.2 (howner _ process.2).2 ?_
    rw [heq]
    exact (howner _ process'.2).2
  have hsubset : (state.alive.attach.map fun process => (owner process.1 process.2).name) ⊆
      supervisor.specs.map ChildSpec.name := by
    intro name hmem
    obtain ⟨process, -, rfl⟩ := List.mem_map.mp hmem
    exact List.mem_map_of_mem (howner _ process.2).1
  simpa using (hnodup.subperm hsubset).length_le

end

end FileMonitor
