import FileMonitor.Supervision.Equiv.ShutdownSteps
import Mathlib.Tactic.Linarith

/-!
# The grace period

`shutdown` asks every process in the table to terminate and gives them `shutdownTimeoutSeconds` to do so.
`no_process_is_killed_early` says what this comes to in a run whose events carry the times at which they
happen: what runs when `shutdown` is called is asked at that time, and only what was asked that long ago
is killed.  The exceptions are a process that has already exited, whose entry is still in the table, and
one that `spawn` returned after the call.
-/

namespace FileMonitor

open ProcessSupervisor

/-! ### What may be killed -/

def ShutdownCalled (tr : List (ℚ × SupervisorEvent)) : Prop := ∃ u, (u, .shutdownCalled) ∈ tr

def Exited (process : ProcessId) (tr : List (ℚ × SupervisorEvent)) : Prop :=
  ∃ u, (u, .exited process) ∈ tr

/-- `spawn` has returned the process after `shutdown` was called. -/
def SpawnedLate (process : ProcessId) (tr : List (ℚ × SupervisorEvent)) : Prop :=
  ∃ pre u name post, tr = pre ++ (u, .spawnReturned name process) :: post ∧ ShutdownCalled pre

/-- At the time `now` the grace period of the process is over, or it has none. -/
def GraceOver (supervisor : ProcessSupervisor) (now : ℚ) (process : ProcessId)
    (tr : List (ℚ × SupervisorEvent)) : Prop :=
  (∃ u, (u, .terminated process) ∈ tr ∧ u + supervisor.shutdownTimeoutSeconds ≤ now) ∨
    Exited process tr ∨ SpawnedLate process tr

/-- What `shutdown` relies on while it waits. -/
def GraceOf (supervisor : ProcessSupervisor) (tr : List (ℚ × SupervisorEvent)) (state : SupervisorState) :
    Prop :=
  match state.shutdown with
  | .grace processes since => ∀ process ∈ state.processes.values,
      process ∈ processes ∧ (since, .terminated process) ∈ tr ∨ SpawnedLate process tr
  | .yielding => ∀ process ∈ state.processes.values, GraceOver supervisor state.now process tr
  | _ => True

structure GraceInv (supervisor : ProcessSupervisor) (tr : List (ℚ × SupervisorEvent))
    (state : SupervisorState) : Prop where
  spawned : ∀ u name process, (u, .spawnReturned name process) ∈ tr → process < state.started
  started : ∀ process < state.started, process ∈ state.alive ∨ Exited process tr
  table : ∀ process ∈ state.processes.values, process < state.started
  called : state.shutdown ≠ .notCalled → ShutdownCalled tr
  grace : GraceOf supervisor tr state

section

variable {supervisor : ProcessSupervisor} {state state' : SupervisorState} {process : ProcessId}
  {tr tes : List (ℚ × SupervisorEvent)} {now now' : ℚ}

theorem ShutdownCalled.append (h : ShutdownCalled tr) : ShutdownCalled (tr ++ tes) :=
  h.imp fun _ => List.mem_append_left _

theorem Exited.append (h : Exited process tr) : Exited process (tr ++ tes) :=
  h.imp fun _ => List.mem_append_left _

theorem SpawnedLate.append (h : SpawnedLate process tr) : SpawnedLate process (tr ++ tes) := by
  obtain ⟨pre, u, name, post, rfl, hcalled⟩ := h
  exact ⟨pre, u, name, post ++ tes, by simp, hcalled⟩

theorem GraceOver.append (h : GraceOver supervisor now process tr) (hnow : now ≤ now') :
    GraceOver supervisor now' process (tr ++ tes) := by
  rcases h with ⟨u, hmem, hover⟩ | hexited | hlate
  · exact .inl ⟨u, List.mem_append_left _ hmem, hover.trans hnow⟩
  · exact .inr (.inl hexited.append)
  · exact .inr (.inr hlate.append)

/-- Time passes, and what enters the table once `shutdown` was called enters it late. -/
theorem GraceOf.frame (h : GraceOf supervisor tr state) (hshutdown : state'.shutdown = state.shutdown)
    (hnow : state.now ≤ state'.now)
    (htable : ∀ process ∈ state'.processes.values, process ∈ state.processes.values ∨
      (state.shutdown ≠ .notCalled → SpawnedLate process (tr ++ tes))) :
    GraceOf supervisor (tr ++ tes) state' := by
  unfold GraceOf at h ⊢
  rw [hshutdown]
  split at h
  · rename_i processes since hphase
    intro process hmem
    rcases htable process hmem with hmem | hlate
    · refine (h process hmem).imp ?_ SpawnedLate.append
      exact fun hasked => ⟨hasked.1, List.mem_append_left _ hasked.2⟩
    · exact .inr (hlate (by rw [hphase]; exact fun h => by cases h))
  · rename_i hphase
    intro process hmem
    rcases htable process hmem with hmem | hlate
    · exact (h process hmem).append hnow
    · exact .inr (.inr (hlate (by rw [hphase]; exact fun h => by cases h)))
  · trivial

theorem GraceInv.frame (hinv : GraceInv supervisor tr state)
    (hspawned : ∀ u name process, (u, .spawnReturned name process) ∉ tes)
    (hshutdown : state'.shutdown = state.shutdown) (hnow : state.now ≤ state'.now)
    (htable : ∀ process ∈ state'.processes.values, process ∈ state.processes.values)
    (hstarted : state'.started = state.started)
    (halive : ∀ process ∈ state.alive, process ∈ state'.alive ∨ Exited process tes) :
    GraceInv supervisor (tr ++ tes) state' where
  spawned u name process hmem := by
    rw [hstarted]
    exact hinv.spawned u name process ((List.mem_append.mp hmem).resolve_right (hspawned u name process))
  started process hlt := by
    rw [hstarted] at hlt
    rcases hinv.started process hlt with hmem | hexited
    · refine (halive process hmem).imp_right ?_
      exact Exists.imp fun _ => List.mem_append_right _
    · exact .inr hexited.append
  table process hmem := by
    rw [hstarted]
    exact hinv.table process (htable process hmem)
  called h := (hinv.called (hshutdown ▸ h)).append
  grace := hinv.grace.frame hshutdown hnow fun process hmem => .inl (htable process hmem)

theorem mem_values_of_erase {processes : Dict String ProcessId} {name : String}
    (h : process ∈ Dict.values (processes.erase name)) : process ∈ processes.values := by
  obtain ⟨name', hlookup⟩ := Dict.mem_values.mp h
  rw [Dict.lookup_erase_eq_ite] at hlookup
  split_ifs at hlookup
  exact Dict.mem_values.mpr ⟨name', hlookup⟩

theorem mem_values_of_set {processes : Dict String ProcessId} {name : String} {process' : ProcessId}
    (h : process ∈ (processes.set name process').values) :
    process = process' ∨ process ∈ processes.values := by
  obtain ⟨name', hlookup⟩ := Dict.mem_values.mp h
  rw [Dict.lookup_set_eq_ite] at hlookup
  split_ifs at hlookup
  · exact .inl (Option.some.inj hlookup).symm
  · exact .inr (Dict.mem_values.mpr ⟨name', hlookup⟩)

theorem GraceInv.handleExit (hinv : GraceInv supervisor tr state) (processes : Dict String ProcessId)
    (htable : ∀ process ∈ processes.values, process ∈ state.processes.values) (index : ℕ) (name : String)
    (child : Child) (startedAt : ℚ) :
    let result := supervisor.handleExit { state with processes := processes } index name child startedAt
    GraceInv supervisor (tr ++ result.2.map (Prod.mk state.now)) result.1 := by
  intro result
  obtain ⟨-, hprocesses, hstarted, halive, hshutdown, -⟩ :=
    handleExit_spec supervisor { state with processes := processes } index name child startedAt
  refine hinv.frame (fun u name' process hmem => ?_) hshutdown (handleExit_now ..).ge ?_ hstarted ?_
  · obtain ⟨event, hevent, heq⟩ := List.mem_map.mp hmem
    obtain ⟨-, rfl⟩ := Prod.mk.inj heq
    rcases mem_handleExit hevent with h | h | ⟨_, h⟩ <;> cases h
  · rw [hprocesses]
    exact htable
  · rw [halive]
    exact fun process hmem => .inl hmem

/-- A step of `shutdown` that leaves the table and the processes alone. -/
theorem GraceInv.setShutdown (hinv : GraceInv supervisor tr state)
    (hspawned : ∀ u name process, (u, .spawnReturned name process) ∉ tes)
    (htable : state'.processes = state.processes) (hstarted : state'.started = state.started)
    (halive : state'.alive = state.alive) (hcalled : ShutdownCalled (tr ++ tes))
    (hgrace : GraceOf supervisor (tr ++ tes) state') : GraceInv supervisor (tr ++ tes) state' where
  spawned u name process hmem := by
    rw [hstarted]
    exact hinv.spawned u name process ((List.mem_append.mp hmem).resolve_right (hspawned u name process))
  started process hlt := by
    rw [hstarted] at hlt
    rw [halive]
    exact (hinv.started process hlt).imp_right Exited.append
  table process hmem := by
    rw [hstarted]
    exact hinv.table process (htable ▸ hmem)
  called _ := hcalled
  grace := hgrace

theorem GraceInv.step (hinv : GraceInv supervisor tr state) {action : SupervisorAction}
    {es : List SupervisorEvent} (step : SupervisorStep supervisor state action es state') :
    GraceInv supervisor (tr ++ es.map (Prod.mk state.now)) state' := by
  -- a step of one task that starts no process
  have htask {index : ℕ} {child : Child} {es : List SupervisorEvent}
      (hspawned : ∀ name process, .spawnReturned name process ∉ es) :
      GraceInv supervisor (tr ++ es.map (Prod.mk state.now)) (setChild state index child) := by
    refine hinv.frame (fun u name process hmem => ?_) rfl le_rfl (fun _ h => h) rfl fun _ h => .inl h
    obtain ⟨event, hevent, heq⟩ := List.mem_map.mp hmem
    exact hspawned name process ((Prod.mk.inj heq).2 ▸ hevent)
  cases step with
  | tick hnonneg =>
    refine hinv.frame (by simp) rfl ?_ (fun _ h => h) rfl fun _ h => .inl h
    exact le_add_of_nonneg_right hnonneg
  | loopEnds => exact htask (by simp)
  | spawnStarted => exact htask (by simp)
  | @spawnReturned index spec child startedAt hat hspawning =>
    refine ⟨fun u name process hmem => ?_, fun process hlt => ?_, fun process hmem => ?_,
      fun h => (hinv.called h).append, ?_⟩
    · show process < state.started + 1
      rcases List.mem_append.mp hmem with hmem | hmem
      · exact Nat.lt_succ_of_lt (hinv.spawned u name process hmem)
      · obtain ⟨-, heq⟩ := Prod.mk.inj (List.mem_singleton.mp hmem)
        obtain ⟨-, rfl⟩ := SupervisorEvent.spawnReturned.inj heq
        exact Nat.lt_succ_self _
    · rcases Nat.lt_succ_iff_lt_or_eq.mp hlt with hlt | rfl
      · exact (hinv.started process hlt).imp (List.mem_append_left _) Exited.append
      · exact .inl (List.mem_append_right _ List.mem_cons_self)
    · rcases mem_values_of_set hmem with rfl | hmem
      · exact Nat.lt_succ_self _
      · exact Nat.lt_succ_of_lt (hinv.table process hmem)
    · refine hinv.grace.frame rfl le_rfl fun process hmem => ?_
      rcases mem_values_of_set hmem with rfl | hmem
      -- the one process that enters the table
      · exact .inr fun hcalled => ⟨tr, state.now, spec.name, [], rfl, hinv.called hcalled⟩
      · exact .inl hmem
  | spawnFailed => exact hinv.handleExit state.processes (fun _ h => h) ..
  | @exited process halive =>
    refine hinv.frame (by simp) rfl le_rfl (fun _ h => h) rfl fun other hmem => ?_
    by_cases heq : other = process
    · exact .inr ⟨state.now, by simp [heq]⟩
    · exact .inl ((List.mem_erase_of_ne heq).mpr hmem)
  | waitReturned => exact hinv.handleExit _ (fun _ h => mem_values_of_erase h) ..
  | backoffEnded => exact htask (by simp)
  | cancelled => exact htask (by simp)
  | shutdownCalled hnotCalled =>
    rcases callShutdown_cases state with ⟨hempty, h⟩ | ⟨hsome, h⟩
    · rw [h]
      exact hinv.setShutdown (by simp) rfl rfl rfl ⟨state.now, by simp⟩ trivial
    · rw [h]
      refine hinv.setShutdown (by simp) rfl rfl rfl ⟨state.now, by simp⟩ fun process hmem => ?_
      exact .inl ⟨hmem, by simpa using .inr hmem⟩
  | @graceEnded processes since hgrace hexpired =>
    refine hinv.setShutdown (by simp) rfl rfl rfl
      (hinv.called (by rw [hgrace]; exact fun h => by cases h)).append fun process hmem => ?_
    have hof := hinv.grace
    unfold GraceOf at hof
    rw [hgrace] at hof
    rcases hof process hmem with ⟨hwaited, hasked⟩ | hlate
    · rcases hexpired with hdead | hover
      · have hstarted := hinv.started process (hinv.table process hmem)
        exact .inr (.inl (hstarted.resolve_left (hdead process hwaited)).append)
      · exact .inl ⟨since, List.mem_append_left _ hasked, hover⟩
    · exact .inr (.inr hlate.append)
  | remainingKilled hyielding =>
    have hcalled : ShutdownCalled tr := hinv.called (by rw [hyielding]; exact fun h => by cases h)
    rcases killRemaining_cases state with ⟨-, h⟩ | ⟨-, h⟩
    · rw [h]
      exact hinv.setShutdown (by simp) rfl rfl rfl hcalled.append trivial
    · rw [h]
      exact hinv.setShutdown (by simp) rfl rfl rfl hcalled.append trivial
  | reaped hreaping =>
    exact hinv.setShutdown (by simp) rfl rfl rfl
      (hinv.called (by rw [hreaping]; exact fun h => by cases h)).append trivial
  | shutdownReturned hreaping =>
    exact hinv.setShutdown (by simp) rfl rfl rfl
      (hinv.called (by rw [hreaping]; exact fun h => by cases h)).append trivial

theorem GraceInv.of_runs (run : (supervisor.machine.stamped SupervisorState.now).Runs tr state) :
    GraceInv supervisor tr state := by
  refine run.invariant (I := GraceInv supervisor) ?_ fun tr state action state' tes _ hinv _ hstep => ?_
  · exact ⟨nofun, nofun, nofun, fun h => absurd rfl h, trivial⟩
  · obtain ⟨es, htaken, rfl⟩ := EventMachine.stamped_step_eq_some hstep
    exact hinv.step (supervisorStep_of_step htaken)

/-! ### The signals -/

/-- **Only what is due is killed.** -/
theorem graceOver_of_killed (run : (supervisor.machine.stamped SupervisorState.now).Runs tr state)
    {pre post : List (ℚ × SupervisorEvent)} {t : ℚ} (htr : tr = pre ++ (t, .killed process) :: post) :
    GraceOver supervisor t process pre := by
  obtain ⟨tr₀, state₀, action, state₁, es, before, after, run₀, hstep, rfl, hevent, -, rfl⟩ :=
    run.exists_stamped_step_of_split htr
  obtain ⟨hyielding, htable⟩ := (supervisorStep_of_step hstep).signals.2 hevent
  have hgrace := (GraceInv.of_runs run₀).grace
  unfold GraceOf at hgrace
  rw [hyielding] at hgrace
  exact (hgrace process htable).append le_rfl

/-- Processes are asked to terminate at the time of the call. -/
theorem called_of_terminated (run : (supervisor.machine.stamped SupervisorState.now).Runs tr state)
    {pre post : List (ℚ × SupervisorEvent)} {t : ℚ} (htr : tr = pre ++ (t, .terminated process) :: post) :
    (t, .shutdownCalled) ∈ pre := by
  obtain ⟨tr₀, state₀, action, state₁, es, before, after, -, hstep, rfl, hevent, hes, rfl⟩ :=
    run.exists_stamped_step_of_split htr
  rw [(supervisorStep_of_step hstep).signals.1 hevent, List.map_cons] at hes
  -- the call comes first in its step
  cases before with
  | nil => cases (List.cons.inj hes).1
  | cons first before =>
    rw [← (List.cons.inj hes).1]
    exact List.mem_append_right _ List.mem_cons_self

/-! ### What runs when `shutdown` is called -/

/-- Until `shutdown` is called, the table has every living process. -/
theorem tableCovers_of_notCalled (hnames : (supervisor.specs.map ChildSpec.name).Nodup)
    (run : (supervisor.machine.stamped SupervisorState.now).Runs tr state)
    (hnotCalled : state.shutdown = .notCalled) : TableCovers state := by
  have hreaping {state : SupervisorState} (h : state.shutdown = .notCalled) :
      ¬ state.shutdown.Reaping := by
    rw [h]
    exact id
  have hinv : TableInv supervisor state ∧ (state.shutdown = .notCalled → Covered state) := by
    refine run.invariant_state (I := fun state =>
      TableInv supervisor state ∧ (state.shutdown = .notCalled → Covered state)) ?_ ?_
    · exact ⟨tableInv_initial, fun _ => nofun⟩
    · intro state action state' tes hinv hstep
      obtain ⟨es, htaken, -⟩ := EventMachine.stamped_step_eq_some hstep
      have step := supervisorStep_of_step htaken
      refine ⟨hinv.1.step hnames step, fun h => ?_⟩
      have hbefore := step.notCalled h
      refine (hinv.2 hbefore).step hinv.1 step ?_
      cases action <;> first | trivial | exact hreaping hbefore
  exact (covered_iff_tableCovers (hreaping hnotCalled)).mp (hinv.2 hnotCalled)

/-- What has been started and has not exited when `shutdown` is called is asked to terminate then. -/
theorem terminated_of_called (hnames : (supervisor.specs.map ChildSpec.name).Nodup)
    (run : (supervisor.machine.stamped SupervisorState.now).Runs tr state)
    {pre post : List (ℚ × SupervisorEvent)} {t u : ℚ} {name : String}
    (htr : tr = pre ++ (t, .shutdownCalled) :: post) (hspawned : (u, .spawnReturned name process) ∈ pre)
    (hrunning : ¬ Exited process pre) : (t, .terminated process) ∈ post := by
  revert pre post
  refine run.invariant (I := fun tr _ => ∀ {pre post : List (ℚ × SupervisorEvent)},
    tr = pre ++ (t, .shutdownCalled) :: post → (u, .spawnReturned name process) ∈ pre →
    ¬ Exited process pre → (t, .terminated process) ∈ post) ?_ ?_
  · intro pre post htr
    cases pre <;> cases htr
  · intro tr state action state' tes run₀ hinv _ hstep pre post htr hspawned hrunning
    obtain ⟨es, htaken, rfl⟩ := EventMachine.stamped_step_eq_some hstep
    have step := supervisorStep_of_step htaken
    -- the call is made in this step
    have hnew (mid : List (ℚ × SupervisorEvent)) (hpre : pre = tr ++ mid)
        (hes : es.map (Prod.mk state.now) = mid ++ (t, .shutdownCalled) :: post) :
        (t, .terminated process) ∈ post := by
      have hmem : (t, SupervisorEvent.shutdownCalled) ∈ es.map (Prod.mk state.now) := by
        rw [hes]
        exact List.mem_append_right _ List.mem_cons_self
      obtain ⟨event, hevent, heq⟩ := List.mem_map.mp hmem
      obtain ⟨rfl, rfl⟩ := Prod.mk.inj heq
      obtain ⟨hnotCalled, rest, rfl, hrest, hasked⟩ := step.called hevent
      rw [List.map_cons] at hes
      cases mid with
      | nil =>
        rw [List.append_nil] at hpre
        subst hpre
        rw [← (List.cons.inj hes).2]
        have hkept := GraceInv.of_runs run₀
        have hstarted := hkept.started process (hkept.spawned u name process hspawned)
        obtain ⟨name', hlookup⟩ :=
          tableCovers_of_notCalled hnames run₀ hnotCalled process (hstarted.resolve_right hrunning)
        exact List.mem_map_of_mem (hasked process (Dict.mem_values.mpr ⟨name', hlookup⟩))
      | cons first mid =>
        have hmem : (state.now, SupervisorEvent.shutdownCalled) ∈ rest.map (Prod.mk state.now) := by
          rw [(List.cons.inj hes).2]
          exact List.mem_append_right _ List.mem_cons_self
        obtain ⟨event, hagain, heq⟩ := List.mem_map.mp hmem
        exact absurd ((Prod.mk.inj heq).2 ▸ hagain) hrest
    rcases List.append_eq_append_iff.mp htr with ⟨mid, hpre, hes⟩ | ⟨mid, hold, hrest⟩
    · exact hnew mid hpre hes
    · cases mid with
      | nil =>
        refine hnew [] ?_ hrest.symm
        rw [List.append_nil] at hold ⊢
        exact hold.symm
      | cons first mid =>
        obtain ⟨rfl, rfl⟩ := List.cons.inj hrest
        exact List.mem_append_left _ (hinv hold hspawned hrunning)

/-- **No process is killed early.**  With distinct names, what has been started and has not exited when
`shutdown` is called is asked to terminate at that time, and nothing is asked at any other.  A process
that is killed was asked at least `shutdownTimeoutSeconds` before, unless it has exited, or was returned
by `spawn` after the call. -/
theorem no_process_is_killed_early (hnames : (supervisor.specs.map ChildSpec.name).Nodup)
    (run : (supervisor.machine.stamped SupervisorState.now).Runs tr state)
    {pre post : List (ℚ × SupervisorEvent)} {t : ℚ} {event : SupervisorEvent}
    (htr : tr = pre ++ (t, event) :: post) :
    (event = .shutdownCalled → ∀ u name process, (u, .spawnReturned name process) ∈ pre →
      ¬ Exited process pre → (t, .terminated process) ∈ post) ∧
    (event = .terminated process → (t, .shutdownCalled) ∈ pre) ∧
    (event = .killed process →
      (∃ u, (u, .terminated process) ∈ pre ∧ u + supervisor.shutdownTimeoutSeconds ≤ t) ∨
      Exited process pre ∨ SpawnedLate process pre) := by
  refine ⟨?_, ?_, ?_⟩
  · rintro rfl u name process hspawned hrunning
    exact terminated_of_called hnames run htr hspawned hrunning
  · rintro rfl
    exact called_of_terminated run htr
  · rintro rfl
    exact graceOver_of_killed run htr

end

/-- The process that ignores `terminate` is killed after 5 seconds. -/
def killedTrace : List (ℚ × SupervisorEvent) :=
  [(0, .spawnStarted ⟨"sender-0", ["/bin/sender", "--sender-id", "0"], none⟩),
    (0, .spawnReturned "sender-0" 0), (0, .shutdownCalled), (0, .terminated 0), (5, .killed 0),
    (5, .exited 0), (5, .shutdownReturned)]

theorem no_process_is_killed_early_ignoring :
    ∃ state, (oneSender.machine.stamped SupervisorState.now).Runs killedTrace state ∧
      ((∃ u, (u, .terminated 0) ∈ killedTrace.take 4 ∧ u + 5 ≤ 5) ∨ Exited 0 (killedTrace.take 4) ∨
        SpawnedLate 0 (killedTrace.take 4)) := by
  obtain ⟨state, run, -⟩ := EventMachine.exists_runsUnder_of_map_eq
    (show ((oneSender.machine.stamped SupervisorState.now).run killedActions).map Prod.fst
      = some killedTrace by decide +kernel)
  have hnames : (oneSender.specs.map ChildSpec.name).Nodup := by decide
  have htr : killedTrace = killedTrace.take 4 ++ (5, .killed 0) :: killedTrace.drop 5 := rfl
  exact ⟨state, run, (no_process_is_killed_early hnames run htr).2.2 rfl⟩

end FileMonitor
