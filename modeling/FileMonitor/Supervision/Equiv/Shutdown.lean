import FileMonitor.Supervision.Equiv.Supervisor

/-!
# Shutdown

* `shutdown_leaves_nothing_alive`: no spawn attempt begins after `shutdown` was called; and where no
  call of `spawn` returns a process after `shutdown` has taken its last look at the table, no process
  is alive once it has returned.
* `shutdown_misses_late_spawn`: a process that `spawn` returns after that stays alive.
-/

namespace FileMonitor

open ProcessSupervisor

/-! ### The table of processes -/

/-- What the table has for a child whose task stands here. -/
def ChildPhase.Recorded : ChildPhase → Option ProcessId → Prop
  | .waiting process _, entry => entry = some process
  | .cancelled, _ => True
  | _, entry => entry = none

/-- The table has the process of each child that is waited for, and nothing of a child between two
processes. -/
structure TableInv (supervisor : ProcessSupervisor) (state : SupervisorState) : Prop where
  recorded : ∀ index spec child, ChildAt supervisor state index spec child →
    child.phase.Recorded (state.processes.lookup spec.name)
  started : ∀ process ∈ state.alive, process < state.started

/-- `shutdown` has taken its last look at the table. -/
def ShutdownPhase.Reaping : ShutdownPhase → Prop
  | .reaping _ | .returned => True
  | _ => False

instance : DecidablePred ShutdownPhase.Reaping := fun phase => by
  unfold ShutdownPhase.Reaping
  split <;> infer_instance

/-- Every living process is in the table until `shutdown` takes its last look, then among those it waits
for. -/
def Covered (state : SupervisorState) : Prop :=
  match state.shutdown with
  | .reaping remaining => ∀ process ∈ state.alive, process ∈ remaining
  | .returned => state.alive = []
  | _ => ∀ process ∈ state.alive, ∃ name, state.processes.lookup name = some process

/-- No call of `spawn` returns a process after `shutdown` has taken its last look at the table. -/
def SpawnsInTime (state : SupervisorState) : SupervisorAction → Prop
  | .spawnReturns _ => ¬ state.shutdown.Reaping
  | _ => True

instance (state : SupervisorState) : DecidablePred (SpawnsInTime state) := fun action => by
  unfold SpawnsInTime
  split <;> infer_instance

section

variable {supervisor : ProcessSupervisor} {state state' : SupervisorState}

/-- With distinct names a name tells the child. -/
theorem ChildAt.index_eq (hnames : (supervisor.specs.map ChildSpec.name).Nodup)
    {i j : ℕ} {spec spec' : ChildSpec} {child child' : Child}
    (h : ChildAt supervisor state i spec child) (h' : ChildAt supervisor state' j spec' child')
    (heq : spec.name = spec'.name) : i = j := by
  have hi : (supervisor.specs.map ChildSpec.name)[i]? = some spec.name := by
    rw [List.getElem?_map, h.spec]
    rfl
  have hj : (supervisor.specs.map ChildSpec.name)[j]? = some spec.name := by
    rw [List.getElem?_map, h'.spec, heq]
    rfl
  obtain ⟨hilt, hieq⟩ := List.getElem?_eq_some_iff.mp hi
  obtain ⟨hjlt, hjeq⟩ := List.getElem?_eq_some_iff.mp hj
  exact (hnames.getElem_inj_iff).mp (hieq.trans hjeq.symm)

/-- A child after the task of one child has been replaced. -/
theorem ChildAt.of_set {index : ℕ} {spec : ChildSpec} {child child' : Child}
    (hat : ChildAt supervisor state index spec child)
    (hchildren : state'.children = state.children.set index child') {j : ℕ} {spec' : ChildSpec}
    {other : Child} (h : ChildAt supervisor state' j spec' other) :
    (j = index ∧ spec' = spec ∧ other = child') ∨ j ≠ index ∧ ChildAt supervisor state j spec' other := by
  have hother := h.child
  rw [hchildren] at hother
  by_cases heq : j = index
  · subst heq
    rw [List.getElem?_set_self (List.getElem?_eq_some_iff.mp hat.child).1] at hother
    refine .inl ⟨rfl, ?_, (Option.some.inj hother).symm⟩
    exact Option.some.inj (h.spec.symm.trans hat.spec)
  · rw [List.getElem?_set_ne (Ne.symm heq)] at hother
    exact .inr ⟨heq, h.spec, hother⟩

/-- A step of one task, which may change the table under the name of its child alone. -/
theorem TableInv.setChild (hinv : TableInv supervisor state)
    (hnames : (supervisor.specs.map ChildSpec.name).Nodup) {index : ℕ} {spec : ChildSpec}
    {child child' : Child} (hat : ChildAt supervisor state index spec child)
    (hchildren : state'.children = state.children.set index child')
    (hrecorded : child'.phase.Recorded (state'.processes.lookup spec.name))
    (htable : ∀ name, name ≠ spec.name → state'.processes.lookup name = state.processes.lookup name)
    (hstarted : ∀ process ∈ state'.alive, process < state'.started) : TableInv supervisor state' where
  recorded j spec' other h := by
    rcases hat.of_set hchildren h with ⟨rfl, rfl, rfl⟩ | ⟨hne, hother⟩
    · exact hrecorded
    · have hname : spec'.name ≠ spec.name := fun heq => hne (hother.index_eq hnames hat heq)
      rw [htable _ hname]
      exact hinv.recorded j spec' other hother
  started := hstarted

/-- A step that leaves the tasks and the table alone. -/
theorem TableInv.frame (hinv : TableInv supervisor state) (hchildren : state'.children = state.children)
    (hprocesses : state'.processes = state.processes) (hstarted : state'.started = state.started)
    (halive : ∀ process ∈ state'.alive, process ∈ state.alive) : TableInv supervisor state' where
  recorded index spec child h := by
    rw [hprocesses]
    exact hinv.recorded index spec child ⟨h.spec, hchildren ▸ h.child⟩
  started process h := by
    rw [hstarted]
    exact hinv.started process (halive process h)

/-- The end of an iteration replaces the task by one between two processes. -/
theorem handleExit_spec (supervisor : ProcessSupervisor) (state : SupervisorState) (index : ℕ)
    (name : String) (child : Child) (startedAt : ℚ) :
    let result := supervisor.handleExit state index name child startedAt
    (∃ child', result.1.children = state.children.set index child' ∧
      ∀ entry, child'.phase.Recorded entry ↔ entry = none) ∧
    result.1.processes = state.processes ∧ result.1.started = state.started ∧
    result.1.alive = state.alive ∧ result.1.shutdown = state.shutdown ∧
    result.1.stopping = state.stopping ∧ (∀ spec, .spawnStarted spec ∉ result.2) ∧
    .shutdownCalled ∉ result.2 := by
  intro result
  rcases handleExit_cases supervisor state index name child startedAt with ⟨-, h⟩ | ⟨-, -, h⟩ | ⟨-, -, h⟩
  · rw [show result = _ from h]
    exact ⟨⟨_, rfl, fun _ => Iff.rfl⟩, rfl, rfl, rfl, rfl, rfl, by simp, by simp⟩
  · rw [show result = _ from h]
    exact ⟨⟨_, rfl, fun _ => Iff.rfl⟩, rfl, rfl, rfl, rfl, rfl, by simp, by simp⟩
  · rw [show result = _ from h]
    exact ⟨⟨_, rfl, fun _ => Iff.rfl⟩, rfl, rfl, rfl, rfl, rfl, by simp, by simp⟩

theorem callShutdown_spec (state : SupervisorState) :
    ∃ shutdown, (callShutdown state).1 = { state with stopping := true, shutdown := shutdown } ∧
      (∀ spec, .spawnStarted spec ∉ (callShutdown state).2) := by
  unfold callShutdown
  dsimp only
  split_ifs
  · obtain ⟨shutdown, hstate, hevents, -⟩ := killRemaining_spec { state with stopping := true }
    refine ⟨shutdown, hstate, fun spec hmem => ?_⟩
    rcases List.mem_cons.mp hmem with hmem | hmem
    · cases hmem
    · exact hevents spec hmem
  · exact ⟨.grace state.processes.values state.now, rfl, by simp⟩

theorem TableInv.step (hinv : TableInv supervisor state)
    (hnames : (supervisor.specs.map ChildSpec.name).Nodup) {action : SupervisorAction}
    {es : List SupervisorEvent} (step : SupervisorStep supervisor state action es state') :
    TableInv supervisor state' := by
  cases step with
  | tick => exact hinv.frame rfl rfl rfl fun _ h => h
  | loopEnds hat hready =>
    have hnone := hinv.recorded _ _ _ hat
    rw [hready] at hnone
    exact hinv.setChild hnames hat rfl hnone (fun _ _ => rfl) hinv.started
  | spawnStarted hat hready =>
    have hnone := hinv.recorded _ _ _ hat
    rw [hready] at hnone
    exact hinv.setChild hnames hat rfl hnone (fun _ _ => rfl) hinv.started
  | @spawnReturned index spec child startedAt hat hspawning =>
    refine hinv.setChild hnames hat rfl ?_ (fun name hne => ?_) fun process hmem => ?_
    · exact (Dict.lookup_set_eq_ite ..).trans (if_pos rfl)
    · exact (Dict.lookup_set_eq_ite ..).trans (if_neg hne)
    · show process < state.started + 1
      rcases List.mem_append.mp hmem with hmem | hmem
      · exact Nat.lt_succ_of_lt (hinv.started process hmem)
      · rw [List.mem_singleton.mp hmem]
        exact Nat.lt_succ_self _
  | @spawnFailed index spec child startedAt hat hspawning =>
    have hnone := hinv.recorded _ _ _ hat
    rw [hspawning] at hnone
    obtain ⟨⟨child', hchildren, hrecorded⟩, hprocesses, hstarted, halive, -⟩ :=
      handleExit_spec supervisor state index spec.name child startedAt
    refine hinv.setChild hnames hat hchildren ?_ (fun name _ => by rw [hprocesses]) ?_
    · rw [hprocesses]
      exact (hrecorded _).mpr hnone
    · rw [halive, hstarted]
      exact hinv.started
  -- the table keeps a process that has exited until its task notices
  | exited => exact hinv.frame rfl rfl rfl fun _ h => List.mem_of_mem_erase h
  | @waitReturned index spec child process startedAt hat hwaiting hdead =>
    obtain ⟨⟨child', hchildren, hrecorded⟩, hprocesses, hstarted, halive, -⟩ :=
      handleExit_spec supervisor { state with processes := state.processes.erase spec.name } index
        spec.name child startedAt
    refine hinv.setChild hnames hat hchildren ?_ (fun name hne => ?_) ?_
    · rw [hprocesses]
      exact (hrecorded _).mpr (AList.lookup_erase ..)
    · rw [hprocesses]
      exact AList.lookup_erase_ne hne
    · rw [halive, hstarted]
      exact hinv.started
  | backoffEnded hat hbackoff =>
    have hnone := hinv.recorded _ _ _ hat
    rw [hbackoff] at hnone
    exact hinv.setChild hnames hat rfl hnone (fun _ _ => rfl) hinv.started
  | cancelled hat =>
    exact hinv.setChild hnames hat rfl trivial (fun _ _ => rfl) hinv.started
  | shutdownCalled =>
    obtain ⟨shutdown, hstate, -⟩ := callShutdown_spec state
    rw [hstate]
    exact hinv.frame rfl rfl rfl fun _ h => h
  | graceEnded => exact hinv.frame rfl rfl rfl fun _ h => h
  | remainingKilled =>
    obtain ⟨shutdown, hstate, -⟩ := killRemaining_spec state
    rw [hstate]
    exact hinv.frame rfl rfl rfl fun _ h => h
  | reaped => exact hinv.frame rfl rfl rfl fun _ h => h
  | shutdownReturned => exact hinv.frame rfl rfl rfl fun _ h => h

/-! ### Living processes -/

/-- The table has every living process. -/
def TableCovers (state : SupervisorState) : Prop :=
  ∀ process ∈ state.alive, ∃ name, state.processes.lookup name = some process

theorem covered_killRemaining (h : TableCovers state) : Covered (killRemaining state).1 := by
  unfold killRemaining
  dsimp only
  have hvalues (process : ProcessId) (hmem : process ∈ state.alive) :
      process ∈ state.processes.values := Dict.mem_values.mpr (h process hmem)
  split_ifs with hempty
  · show state.alive = []
    rw [List.eq_nil_iff_forall_not_mem]
    intro process hmem
    have hvalue := hvalues process hmem
    rw [hempty] at hvalue
    cases hvalue
  · exact hvalues

theorem covered_callShutdown (h : TableCovers state) : Covered (callShutdown state).1 := by
  unfold callShutdown
  dsimp only
  split_ifs
  · exact covered_killRemaining h
  · exact h

/-- Fewer living processes are still covered. -/
theorem Covered.frame (h : Covered state) (hshutdown : state'.shutdown = state.shutdown)
    (halive : ∀ process ∈ state'.alive, process ∈ state.alive)
    (htable : TableCovers state → TableCovers state') : Covered state' := by
  unfold Covered at h ⊢
  rw [hshutdown]
  split at h
  · exact fun process hmem => h process (halive process hmem)
  · rw [List.eq_nil_iff_forall_not_mem] at h ⊢
    exact fun process hmem => h process (halive process hmem)
  · exact htable h

/-- Before its last look, `shutdown` relies on the table. -/
theorem covered_iff_tableCovers (hreaping : ¬ state.shutdown.Reaping) :
    Covered state ↔ TableCovers state := by
  unfold Covered
  split
  · rename_i remaining hshutdown
    rw [hshutdown] at hreaping
    exact absurd trivial hreaping
  · rename_i hshutdown
    rw [hshutdown] at hreaping
    exact absurd trivial hreaping
  · exact Iff.rfl

theorem Covered.handleExit (h : Covered state) (index : ℕ) (name : String) (child : Child)
    (startedAt : ℚ) : Covered (supervisor.handleExit state index name child startedAt).1 := by
  obtain ⟨-, hprocesses, -, halive, hshutdown, -⟩ :=
    handleExit_spec supervisor state index name child startedAt
  refine h.frame hshutdown (fun _ h => halive ▸ h) fun hcovers => ?_
  unfold TableCovers
  rw [halive, hprocesses]
  exact hcovers

theorem Covered.step (h : Covered state) (hinv : TableInv supervisor state)
    {action : SupervisorAction} {es : List SupervisorEvent}
    (step : SupervisorStep supervisor state action es state') (hintime : SpawnsInTime state action) :
    Covered state' := by
  cases step with
  | tick => exact h.frame rfl (fun _ h => h) id
  | loopEnds => exact h.frame rfl (fun _ h => h) id
  | spawnStarted => exact h.frame rfl (fun _ h => h) id
  | @spawnReturned index spec child startedAt hat hspawning =>
    apply (covered_iff_tableCovers ?_).mpr
    swap
    · exact hintime
    intro process hmem
    rcases List.mem_append.mp hmem with hmem | hmem
    · obtain ⟨name, hname⟩ := (covered_iff_tableCovers hintime).mp h process hmem
      -- the table has nothing under the name of a child that is being spawned
      have hnone := hinv.recorded _ _ _ hat
      rw [hspawning] at hnone
      have hne : name ≠ spec.name := by
        rintro rfl
        rw [show state.processes.lookup spec.name = none from hnone] at hname
        cases hname
      exact ⟨name, (Dict.lookup_set_eq_ite ..).trans ((if_neg hne).trans hname)⟩
    · rw [List.mem_singleton.mp hmem]
      exact ⟨spec.name, (Dict.lookup_set_eq_ite ..).trans (if_pos rfl)⟩
  | spawnFailed => exact h.handleExit ..
  | exited =>
    refine h.frame rfl (fun _ h => List.mem_of_mem_erase h) fun hcovers process hmem => ?_
    exact hcovers process (List.mem_of_mem_erase hmem)
  | @waitReturned index spec child process startedAt hat hwaiting hdead =>
    have herased : Covered { state with processes := state.processes.erase spec.name } := by
      refine h.frame rfl (fun _ h => h) fun hcovers other hmem => ?_
      obtain ⟨name, hname⟩ := hcovers other hmem
      have hentry := hinv.recorded _ _ _ hat
      rw [hwaiting] at hentry
      have hne : name ≠ spec.name := by
        rintro rfl
        have hsame : other = process := Option.some.inj (hname.symm.trans hentry)
        exact hdead (hsame ▸ hmem)
      exact ⟨name, (AList.lookup_erase_ne hne).trans hname⟩
    exact herased.handleExit ..
  | backoffEnded => exact h.frame rfl (fun _ h => h) id
  | cancelled => exact h.frame rfl (fun _ h => h) id
  | shutdownCalled hnotCalled =>
    have hreaping : ¬ state.shutdown.Reaping := by rw [hnotCalled]; exact id
    exact covered_callShutdown ((covered_iff_tableCovers hreaping).mp h)
  | graceEnded hgrace =>
    have hreaping : ¬ state.shutdown.Reaping := by rw [hgrace]; exact id
    exact (covered_iff_tableCovers hreaping).mp h
  | remainingKilled hyielding =>
    have hreaping : ¬ state.shutdown.Reaping := by rw [hyielding]; exact id
    exact covered_killRemaining ((covered_iff_tableCovers hreaping).mp h)
  | @reaped process remaining hreaping hdead =>
    unfold Covered at h
    rw [hreaping] at h
    intro other hmem
    rcases List.mem_cons.mp (h other hmem) with rfl | hother
    · exact absurd hmem hdead
    · exact hother
  | @shutdownReturned process hreaping hdead =>
    unfold Covered at h
    rw [hreaping] at h
    show state.alive = []
    rw [List.eq_nil_iff_forall_not_mem]
    intro other hmem
    obtain rfl := List.mem_singleton.mp (h other hmem)
    exact hdead hmem

/-! ### Spawn attempts -/

theorem SupervisorStep.stopping {action : SupervisorAction} {es : List SupervisorEvent}
    (step : SupervisorStep supervisor state action es state')
    (h : state.stopping = true ∨ .shutdownCalled ∈ es) : state'.stopping = true := by
  have hexit (state : SupervisorState) (index : ℕ) (name : String) (child : Child) (startedAt : ℚ)
      (h : state.stopping = true ∨
        .shutdownCalled ∈ (supervisor.handleExit state index name child startedAt).2) :
      (supervisor.handleExit state index name child startedAt).1.stopping = true := by
    obtain ⟨-, -, -, -, -, hstopping, -, hnotCalled⟩ :=
      handleExit_spec supervisor state index name child startedAt
    rw [hstopping]
    exact h.resolve_right hnotCalled
  cases step with
  | spawnFailed => exact hexit _ _ _ _ _ h
  | waitReturned => exact hexit _ _ _ _ _ h
  | shutdownCalled =>
    obtain ⟨shutdown, hstate, -⟩ := callShutdown_spec state
    rw [hstate]
  | remainingKilled =>
    obtain ⟨shutdown, hstate, -, hnotCalled⟩ := killRemaining_spec state
    rw [hstate]
    exact h.resolve_right hnotCalled
  | _ => exact h.resolve_right (by simp)

/-- A supervisor that stops starts no process. -/
theorem SupervisorStep.running_of_spawnStarted {action : SupervisorAction} {es : List SupervisorEvent}
    (step : SupervisorStep supervisor state action es state') {spec : ChildSpec}
    (h : .spawnStarted spec ∈ es) : state.stopping = false ∧ es = [.spawnStarted spec] := by
  cases step with
  | spawnStarted _ _ hrunning =>
    obtain rfl := SupervisorEvent.spawnStarted.inj (List.mem_singleton.mp h)
    exact ⟨hrunning, rfl⟩
  | spawnFailed =>
    obtain ⟨-, -, -, -, -, -, hnone, -⟩ := handleExit_spec supervisor _ _ _ _ _
    exact absurd h (hnone spec)
  | waitReturned =>
    obtain ⟨-, -, -, -, -, -, hnone, -⟩ := handleExit_spec supervisor _ _ _ _ _
    exact absurd h (hnone spec)
  | shutdownCalled => exact absurd h ((callShutdown_spec state).choose_spec.2 spec)
  | remainingKilled => exact absurd h ((killRemaining_spec state).choose_spec.2.1 spec)
  | _ => simp at h

theorem stopping_of_shutdownCalled {tr : List SupervisorEvent}
    (run : supervisor.machine.Runs tr state) (h : .shutdownCalled ∈ tr) : state.stopping = true := by
  refine run.invariant (I := fun tr state => .shutdownCalled ∈ tr → state.stopping = true) nofun
    (fun tr state action state' es _ hinv _ hstep hmem => ?_) h
  apply (supervisorStep_of_step hstep).stopping
  rcases List.mem_append.mp hmem with hmem | hmem
  · exact .inl (hinv hmem)
  · exact .inr hmem

/-- **No spawn attempt begins after `shutdown` was called.** -/
theorem notMem_of_spawnStarted {tr pre post : List SupervisorEvent} {spec : ChildSpec}
    (run : supervisor.machine.Runs tr state) (htr : tr = pre ++ .spawnStarted spec :: post) :
    .shutdownCalled ∉ pre := by
  obtain ⟨state₀, _, _, run₀, -, hstep⟩ := run.exists_step_of_alone htr fun _ _ _ _ hstep hmem =>
    ((supervisorStep_of_step hstep).running_of_spawnStarted hmem).2
  have hrunning := ((supervisorStep_of_step hstep).running_of_spawnStarted List.mem_cons_self).1
  intro hcalled
  rw [stopping_of_shutdownCalled run₀.runs hcalled] at hrunning
  cases hrunning

/-! ### Shutdown -/

/-- **Shutdown.**  With distinct names, no spawn attempt begins after `shutdown` was called, in any run;
and once it has returned no process is alive, in every run in which no call of `spawn` returns a process
after `shutdown` has taken its last look at the table. -/
theorem shutdown_leaves_nothing_alive (hnames : (supervisor.specs.map ChildSpec.name).Nodup) :
    (∀ tr state, supervisor.machine.Runs tr state → ∀ pre spec post,
      tr = pre ++ .spawnStarted spec :: post → .shutdownCalled ∉ pre) ∧
    (∀ tr state, supervisor.machine.RunsUnder (fun _ state action => SpawnsInTime state action) tr state →
      state.shutdown = .returned → state.alive = []) := by
  refine ⟨fun tr state run pre spec post htr => notMem_of_spawnStarted run htr, ?_⟩
  intro tr state run hreturned
  have hinv : TableInv supervisor state ∧ Covered state := by
    refine run.invariant (I := fun _ state => TableInv supervisor state ∧ Covered state) ?_ ?_
    · refine ⟨⟨fun index spec child h => ?_, nofun⟩, nofun⟩
      have hchild := h.child
      rw [show supervisor.machine.init = supervisor.initial from rfl, ProcessSupervisor.initial,
        List.getElem?_map, h.spec] at hchild
      obtain rfl := Option.some.inj hchild
      rfl
    · intro tr state action state' es _ hinv hintime hstep
      have hstep := supervisorStep_of_step hstep
      exact ⟨hinv.1.step hnames hstep, hinv.2.step hinv.1 hstep hintime⟩
  have hcovered := hinv.2
  unfold Covered at hcovered
  rw [hreturned] at hcovered
  exact hcovered

end

/-! ### Two runs -/

def oneSender : ProcessSupervisor :=
  .ofSpecs [⟨"sender-0", ["/bin/sender", "--sender-id", "0"], none⟩]

/-- The process ignores `terminate`, so that it is killed after the timeout. -/
def killedActions : List SupervisorAction :=
  [.run 0, .spawnReturns 0, .shutdown, .tick 5, .graceEnds, .killRemaining, .exits 0, .reap]

theorem shutdown_leaves_nothing_alive_killed :
    ∃ tr state, oneSender.machine.Runs tr state ∧ state.shutdown = .returned ∧ state.alive = [] ∧
      .killed 0 ∈ tr := by
  obtain ⟨state, run, hexec⟩ := EventMachine.exists_runsUnder_of_map_eq
    (show (oneSender.machine.runUnder (fun _ state action => SpawnsInTime state action) []
        oneSender.machine.init killedActions).map Prod.fst
      = some [.spawnStarted ⟨"sender-0", ["/bin/sender", "--sender-id", "0"], none⟩,
          .spawnReturned "sender-0" 0, .shutdownCalled, .terminated 0, .killed 0, .exited 0,
          .shutdownReturned] by decide +kernel)
  have hreturned : (oneSender.machine.runUnder (fun _ state action => SpawnsInTime state action) []
      oneSender.machine.init killedActions).map (fun result => result.2.shutdown)
    = some .returned := by decide +kernel
  rw [hexec, Option.map_some, Option.some.injEq] at hreturned
  have hnames : (oneSender.specs.map ChildSpec.name).Nodup := by decide
  exact ⟨_, state, run.runs, hreturned, (shutdown_leaves_nothing_alive hnames).2 _ state run hreturned,
    by decide⟩

/-- `shutdown` is called while the process is being spawned. -/
def lateActions : List SupervisorAction := [.run 0, .shutdown, .spawnReturns 0]

theorem shutdown_misses_late_spawn :
    (oneSender.specs.map ChildSpec.name).Nodup ∧
    ∃ tr state, oneSender.machine.Runs tr state ∧ state.shutdown = .returned ∧
      (∀ child ∈ state.children, ∀ startedAt, child.phase ≠ .spawning startedAt) ∧
      state.alive = [0] := by
  refine ⟨by decide, ?_⟩
  obtain ⟨state, run, hexec⟩ := EventMachine.exists_runsUnder_of_map_eq
    (show (oneSender.machine.runUnder (fun _ _ _ => True) [] oneSender.machine.init
        lateActions).map Prod.fst
      = some [.spawnStarted ⟨"sender-0", ["/bin/sender", "--sender-id", "0"], none⟩, .shutdownCalled,
          .shutdownReturned, .spawnReturned "sender-0" 0] by decide +kernel)
  have hstate : (oneSender.machine.runUnder (fun _ _ _ => True) [] oneSender.machine.init
      lateActions).map (fun result => (result.2.shutdown, result.2.children.map Child.phase, result.2.alive))
    = some (.returned, [.waiting 0 0], [0]) := by decide +kernel
  rw [hexec, Option.map_some, Option.some.injEq, Prod.mk.injEq, Prod.mk.injEq] at hstate
  obtain ⟨hreturned, hphases, halive⟩ := hstate
  refine ⟨_, state, run, hreturned, fun child hmem startedAt hspawning => ?_, halive⟩
  have hphase : child.phase ∈ state.children.map Child.phase := List.mem_map_of_mem hmem
  rw [hphases, hspawning] at hphase
  cases List.mem_singleton.mp hphase

end FileMonitor
