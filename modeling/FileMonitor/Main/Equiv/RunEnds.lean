import FileMonitor.Library.Settles
import FileMonitor.Main.Equiv.Run

/-!
# The end of a run

`run_comes_to_its_end`: once a signal was received or a task has raised, the steps that end the run come
to an end, in whatever order they are taken.

`Run.stepsLeft` counts what is left to do: tasks of the group, connections, children, processes, and the
steps of `shutdown`.  Each of the steps makes it smaller (`RunStep.stepsLeft_lt`), and while `run` is not
over there is one (`exists_ending_step`), unless `shutdown` waits for a process.
-/

namespace FileMonitor

open Run UdsIpcServer

/-! ### What is left to do -/

/-- A step that brings a run to its end: of a task that was asked to end, of a handler that is cancelled,
of the task that has seen the signal, or of `shutdown`. -/
def RunAction.Ending : RunAction → Prop
  | .ends _ | .stopAccepting | .cancelSpawn _ | .leaveGroup | .returns | .unlinkFails
  | .monitor (.service (.peer _ .cancel))
  | .supervisor (.cancel _) | .supervisor .graceEnds | .supervisor .killRemaining
  | .supervisor .reap => True
  | _ => False

/-- Such a step, or the exit of a process. -/
def RunAction.EndingOrExit (action : RunAction) : Prop :=
  action.Ending ∨ ∃ process, action = .supervisor (.exits process)

/-- `shutdown` waits for a living process: one that it has terminated less than the timeout ago, or one
that it has killed. -/
def Run.WaitsForProcess (config : RunConfig) (run : Run) : Prop :=
  match run.supervisor.shutdown with
  | .grace processes since =>
    run.supervisor.now < since + config.supervisor.shutdownTimeoutSeconds ∧
      ∃ process ∈ processes, process ∈ run.supervisor.alive
  | .reaping (process :: _) => process ∈ run.supervisor.alive
  | _ => False

/-- `run` has returned or raised. -/
def Run.Over (run : Run) : Prop := (∃ exitCode, run.phase = .returned exitCode) ∨ run.phase = .raised

/-- The connections with a handler that has not ended. -/
def UdsIpcServer.openConnections (ipc : UdsIpcServer) : Finset ConnectionId :=
  (Finset.range ipc.accepted).filter fun connection =>
    ∃ handler ∈ ipc.handlers connection, handler.phase ≠ .closed

/-- The steps that are left to `shutdown`, where so many processes are in the table. -/
def ShutdownPhase.stepsLeft (processes : ℕ) : ShutdownPhase → ℕ
  | .notCalled => processes + 4
  | .grace .. => processes + 3
  | .yielding => processes + 2
  | .reaping remaining => remaining.length + 1
  | .returned => 0

/-- The steps that are left to the supervisor. -/
def SupervisorState.stepsLeft (state : SupervisorState) : ℕ :=
  state.children.countP (fun child => ¬ child.phase.Over) + state.alive.length +
    state.shutdown.stepsLeft state.processes.values.length

/-- The steps of `run` itself. -/
def RunPhase.stepsLeft : RunPhase → ℕ
  | .inGroup => 2
  | .stopping _ => 1
  | _ => 0

/-- A bound for the steps that bring a run to its end. -/
def Run.stepsLeft (run : Run) : ℕ :=
  run.phase.stepsLeft + run.group.remaining + run.accepting.toNat +
    run.monitor.service.ipc.openConnections.card + run.supervisor.stepsLeft

section Supervisor

variable {supervisor : ProcessSupervisor} {state state' : SupervisorState} {action : SupervisorAction}
  {es : List SupervisorEvent}

theorem countP_set_lt {α : Type*} {p : α → Bool} {l : List α} {i : ℕ} {x y : α} (hget : l[i]? = some x)
    (hx : p x) (hy : ¬ p y) : (l.set i y).countP p < l.countP p := by
  obtain ⟨hlt, rfl⟩ := List.getElem?_eq_some_iff.mp hget
  have hpos : 0 < l.countP p := List.countP_pos_iff.mpr ⟨_, List.getElem_mem hlt, hx⟩
  rw [List.countP_set hlt, if_pos hx, if_neg hy]
  omega

/-- The task of a child ends. -/
theorem stepsLeft_setChild_lt {index : ℕ} {child child' : Child}
    (hget : state.children[index]? = some child) (hover : ¬ child.phase.Over)
    (hover' : child'.phase.Over) :
    (ProcessSupervisor.setChild state index child').stepsLeft < state.stepsLeft := by
  have hcount : (state.children.set index child').countP (fun child => ¬ child.phase.Over)
      < state.children.countP (fun child => ¬ child.phase.Over) :=
    countP_set_lt hget (by simpa using hover) (by simpa using hover')
  unfold SupervisorState.stepsLeft ProcessSupervisor.setChild
  dsimp only
  omega

/-- `shutdown` starts to wait for what is left in the table. -/
theorem stepsLeft_killRemaining_le (state : SupervisorState) :
    (ProcessSupervisor.killRemaining state).1.stepsLeft
      ≤ state.children.countP (fun child => ¬ child.phase.Over) + state.alive.length +
        (state.processes.values.length + 1) := by
  unfold ProcessSupervisor.killRemaining SupervisorState.stepsLeft
  dsimp only
  split_ifs <;> simp [ShutdownPhase.stepsLeft]

/-- A cancelled child was not over. -/
theorem exists_of_step_cancel {index : ℕ}
    (hstep : supervisor.step state (.cancel index) = some (state', es)) :
    ∃ child, state.children[index]? = some child ∧ ¬ child.phase.Over ∧
      state' = ProcessSupervisor.setChild state index { child with phase := .cancelled } := by
  obtain ⟨spec, -, hstep⟩ := Option.bind_eq_some_iff.mp hstep
  obtain ⟨child, hchild, hstep⟩ := Option.bind_eq_some_iff.mp hstep
  unfold ProcessSupervisor.stepChild at hstep
  dsimp only at hstep
  refine ⟨child, hchild, ?_⟩
  split at hstep
  · rename_i hphase
    rw [hphase]
    exact ⟨id, (Prod.mk.inj (Option.some.inj hstep)).1.symm⟩
  · rename_i hphase
    rw [hphase]
    exact ⟨id, (Prod.mk.inj (Option.some.inj hstep)).1.symm⟩
  · rename_i hphase
    rw [hphase]
    exact ⟨id, (Prod.mk.inj (Option.some.inj hstep)).1.symm⟩
  · cases hstep

theorem stepsLeft_lt_of_step (hstep : supervisor.step state action = some (state', es))
    (hending : RunAction.EndingOrExit (.supervisor action)) : state'.stepsLeft < state.stepsLeft := by
  by_cases hcancel : ∃ index, action = .cancel index
  · obtain ⟨index, rfl⟩ := hcancel
    obtain ⟨child, hget, hover, rfl⟩ := exists_of_step_cancel hstep
    exact stepsLeft_setChild_lt hget hover trivial
  · have hshutdown {shutdown : ShutdownPhase} (h : shutdown.stepsLeft state.processes.values.length
        < state.shutdown.stepsLeft state.processes.values.length) :
        { state with shutdown := shutdown }.stepsLeft < state.stepsLeft :=
      Nat.add_lt_add_left h _
    cases supervisorStep_of_step hstep with
    | exited halive =>
      have hlength := List.length_erase_add_one halive
      unfold SupervisorState.stepsLeft
      dsimp only
      omega
    | graceEnded hgrace =>
      apply hshutdown
      simp [hgrace, ShutdownPhase.stepsLeft]
    | remainingKilled hyielding =>
      refine (stepsLeft_killRemaining_le state).trans_lt ?_
      simp [SupervisorState.stepsLeft, hyielding, ShutdownPhase.stepsLeft]
    | reaped hreaping =>
      apply hshutdown
      simp [hreaping, ShutdownPhase.stepsLeft]
    | shutdownReturned hreaping =>
      apply hshutdown
      simp [hreaping, ShutdownPhase.stepsLeft]
    | cancelled => exact absurd ⟨_, rfl⟩ hcancel
    | _ => rcases hending with h | ⟨process, h⟩ <;> cases h

theorem stepsLeft_callShutdown_lt (h : state.shutdown = .notCalled) :
    (ProcessSupervisor.callShutdown state).1.stepsLeft < state.stepsLeft := by
  have hleft : state.stepsLeft = state.children.countP (fun child => ¬ child.phase.Over) +
      state.alive.length + (state.processes.values.length + 4) := by
    rw [SupervisorState.stepsLeft, h, ShutdownPhase.stepsLeft]
  unfold ProcessSupervisor.callShutdown
  dsimp only
  split_ifs with hempty
  · refine (stepsLeft_killRemaining_le _).trans_lt ?_
    rw [hleft]
    exact Nat.add_lt_add_left (Nat.add_lt_add_left (by decide : 1 < 4) _) _
  · rw [hleft]
    exact Nat.add_lt_add_left (Nat.lt_succ_self _) _

end Supervisor

section Connections

variable {config : MonitorConfig} {monitor monitor' : Monitor} {connection : ConnectionId}
  {es : List MonitorEvent}

/-- A cancelled handler closes its connection. -/
theorem openConnections_lt_of_cancel
    (hfresh : ∀ connection, monitor.service.ipc.accepted ≤ connection →
      monitor.service.ipc.handlers connection = none)
    (hstep : monitor.step config (.service (.peer connection .cancel)) = some (monitor', es)) :
    monitor'.service.ipc.openConnections.card < monitor.service.ipc.openConnections.card := by
  obtain ⟨⟨service, _⟩, hservice, h⟩ := Option.bind_eq_some_iff.mp hstep
  obtain ⟨rfl, -⟩ := Prod.mk.inj (Option.some.inj h)
  obtain ⟨ipc, _, hipc, rfl, -⟩ := exists_of_stepIpc hservice
  obtain ⟨handler, hhandler, hpeer⟩ := Option.bind_eq_some_iff.mp hipc
  obtain ⟨⟨ipc', _⟩, hcleanUp, h⟩ := Option.bind_eq_some_iff.mp hpeer
  obtain ⟨rfl, -⟩ := Prod.mk.inj (Option.some.inj h)
  rw [stepPeer] at hcleanUp
  split_ifs at hcleanUp with hclosed
  obtain ⟨rfl, -⟩ := Prod.mk.inj (Option.some.inj hcleanUp)
  have hlt : connection < monitor.service.ipc.accepted := by
    by_contra hle
    rw [hfresh connection (not_lt.mp hle)] at hhandler
    cases hhandler
  have hopen : connection ∈ monitor.service.ipc.openConnections :=
    Finset.mem_filter.mpr ⟨Finset.mem_range.mpr hlt, handler, hhandler, hclosed⟩
  have herase : (monitor.service.ipc.cleanUp connection handler).openConnections
      = monitor.service.ipc.openConnections.erase connection := by
    ext other
    simp only [openConnections, Finset.mem_erase, Finset.mem_filter]
    have hhandlers : (monitor.service.ipc.cleanUp connection handler).handlers other
        = if other = connection then some { handler with phase := .closed, writer := handler.writer.cancel }
          else monitor.service.ipc.handlers other := handlers_setHandler ..
    rw [hhandlers]
    split_ifs with heq
    · simp [heq]
    · simp only [ne_eq, heq, not_false_eq_true, true_and]
      rfl
  show (monitor.service.ipc.cleanUp connection handler).openConnections.card < _
  rw [herase]
  exact Finset.card_lt_card (Finset.erase_ssubset hopen)

end Connections

/-! ### Every such step leaves less to do -/

section Steps

variable {config : RunConfig} {tr : List RunEvent} {run run' : Run} {action : RunAction}
  {es : List RunEvent}

theorem RunStep.stepsLeft_lt (step : RunStep config run action es run') (hending : action.EndingOrExit)
    (hfresh : ∀ connection, run.monitor.service.ipc.accepted ≤ connection →
      run.monitor.service.ipc.handlers connection = none)
    (hshutdown : run.phase = .inGroup → run.supervisor.shutdown = .notCalled) :
    run'.stepsLeft < run.stepsLeft := by
  have hfinish {group : TaskGroup RunTask RunError} {task : RunTask} (outcome : TaskOutcome RunError)
      (hunfinished : (group.tasks task).Unfinished) :
      (group.finish task outcome hunfinished).remaining < group.remaining :=
    Nat.lt_of_succ_le (TaskGroup.remaining_finish hunfinished).le
  have hconnections {action : MonitorAction} {es : List MonitorEvent} {monitor : Monitor}
      (hmonitor : run.monitor.step config.monitor action = some (monitor, es))
      (h : RunAction.EndingOrExit (.monitor action)) :
      monitor.service.ipc.openConnections.card < run.monitor.service.ipc.openConnections.card := by
    rcases h with h | ⟨process, h⟩
    · unfold RunAction.Ending at h
      split at h
      all_goals try contradiction
      rename_i heq
      obtain rfl := RunAction.monitor.inj heq
      exact openConnections_lt_of_cancel hfresh hmonitor
    · cases h
  unfold Run.stepsLeft
  cases step with
  | monitor _ _ hmonitor =>
    have hless := hconnections hmonitor hending
    dsimp only
    omega
  | @loopRaised _ _ _ error _ _ hmonitor _ hunfinished =>
    have hless := hconnections hmonitor hending
    have hremaining := hfinish (.raised (.message error)) hunfinished
    dsimp only
    omega
  | supervised _ _ hstep =>
    have hsupervisor := stepsLeft_lt_of_step hstep hending
    dsimp only
    omega
  | @spawnCancelled index child _ _ _ hget hspawning =>
    have hover : ¬ child.phase.Over := by
      rw [hspawning]
      exact id
    have hover' : { child with phase := .cancelled }.phase.Over := trivial
    exact Nat.add_lt_add_left (stepsLeft_setChild_lt hget hover hover') _
  | stoppedAccepting _ _ haccepting =>
    rw [haccepting]
    dsimp only [Bool.toNat, cond]
    omega
  | @ended _ _ outcome _ hunfinished =>
    have hremaining := hfinish outcome hunfinished
    dsimp only
    omega
  | workersAsked _ _ hunfinished =>
    have hremaining := hfinish .returned hunfinished
    rw [TaskGroup.remaining_cancel] at hremaining
    dsimp only
    omega
  | leftGroup hgroup _ hstep =>
    have hsupervisor : _ < run.supervisor.stepsLeft := stepsLeft_callShutdown_lt (hshutdown hgroup)
    cases hstep with
    | shutdownCalled =>
      rw [hgroup]
      dsimp only [RunPhase.stepsLeft]
      omega
  | returned hstopping =>
    rw [hstopping]
    dsimp only [RunPhase.stepsLeft]
    omega
  | unlinkFailed hstopping =>
    rw [hstopping]
    dsimp only [RunPhase.stepsLeft]
    omega
  | _ => rcases hending with h | ⟨process, h⟩ <;> cases h

end Steps

/-! ### There is such a step -/

section Progress

variable {config : RunConfig} {tr : List RunEvent} {run run' : Run}

theorem step_eq_stepActive (hactive : run.Active) (action : RunAction) :
    run.step config action = run.stepActive config action := by
  unfold Run.step
  rcases hactive with hgroup | ⟨exitCode, hstopping⟩
  · rw [hgroup]
  · rw [hstopping]

theorem isSome_endTask {task : RunTask} (hunfinished : (run.group.tasks task).Unfinished)
    (outcome : TaskOutcome RunError) : (run.endTask task outcome).isSome := by
  rw [endTask, dif_pos hunfinished]
  rfl

theorem Run.Asked.unfinished {task : RunTask} (hasked : run.Asked task) :
    (run.group.tasks task).Unfinished := by
  rw [show run.group.tasks task = _ from hasked]
  trivial

theorem isSome_step_supervisor (hactive : run.Active) {action : SupervisorAction}
    (hmay : run.MaySupervise action) (h : (config.supervisor.step run.supervisor action).isSome) :
    (run.step config (.supervisor action)).isSome := by
  obtain ⟨⟨supervisor, es⟩, hstep⟩ := Option.isSome_iff_exists.mp h
  rw [step_eq_stepActive hactive, stepActive, if_pos hmay]
  simp only [stepSupervisor, hstep, Option.bind_eq_bind, Option.bind_some]
  rfl

/-- A handler that has not ended can be cancelled. -/
theorem exists_cancel_step (config : RunConfig) {monitor : Monitor} {connection : ConnectionId}
    {handler : PeerHandler}
    (hhandler : monitor.service.ipc.handlers connection = some handler)
    (hopen : handler.phase ≠ .closed) : ∃ monitor',
      monitor.step config.monitor (.service (.peer connection .cancel))
        = some (monitor', [.service (.ipc (.peer connection .cleanedUp))]) := by
  have hpeer : monitor.service.ipc.stepPeer config.monitor.pb config.monitor.expectedProtoHash connection
      handler .cancel = some (monitor.service.ipc.cleanUp connection handler, [.cleanedUp]) := by
    rw [stepPeer, if_neg hopen]
  simp only [Monitor.step, Monitor.stepService, Service.step, Service.stepIpc, UdsIpcServer.step, hhandler,
    hpeer, Option.bind_eq_bind, Option.bind_some]
  exact ⟨_, rfl⟩

/-- A child that is not over can be cancelled. -/
theorem exists_child_step (hinv : RunInv config run) (hactive : run.Active) (hasked : run.ChildrenAsked)
    {child : Child} (hmem : child ∈ run.supervisor.children) (hover : ¬ child.phase.Over) :
    ∃ action : RunAction, action.Ending ∧ (run.step config action).isSome := by
  obtain ⟨index, hget⟩ := List.mem_iff_getElem?.mp hmem
  obtain ⟨spec, hspec⟩ : ∃ spec, config.supervisor.specs[index]? = some spec := by
    have hlt : index < config.supervisor.specs.length :=
      hinv.children ▸ (List.getElem?_eq_some_iff.mp hget).1
    exact ⟨_, List.getElem?_eq_getElem hlt⟩
  have hcancel (hspawning : ∀ startedAt, child.phase ≠ .spawning startedAt) :
      (run.step config (.supervisor (.cancel index))).isSome := by
    have hstep : config.supervisor.stepChild run.supervisor index spec child (.cancel index)
        = some (ProcessSupervisor.setChild run.supervisor index { child with phase := .cancelled }, []) := by
      unfold ProcessSupervisor.stepChild
      cases hphase : child.phase with
      | spawning startedAt => exact absurd hphase (hspawning startedAt)
      | returned => exact absurd (hphase ▸ trivial) hover
      | cancelled => exact absurd (hphase ▸ trivial) hover
      | _ => rfl
    refine isSome_step_supervisor hactive (show run.MaySupervise (.cancel index) from hasked) ?_
    simp only [ProcessSupervisor.step, hspec, hget, hstep, Option.bind_eq_bind, Option.bind_some]
    rfl
  cases hphase : child.phase with
  | spawning startedAt =>
    refine ⟨.cancelSpawn index, trivial, ?_⟩
    rw [step_eq_stepActive hactive, stepActive, if_pos hasked]
    simp only [endSpawning, hget, hphase, Option.bind_eq_bind, Option.bind_some]
    rfl
  | _ =>
    exact ⟨.supervisor (.cancel index), trivial, hcancel fun startedAt h => by cases hphase.symm.trans h⟩

/-- The task of the supervisor ends after its children. -/
theorem exists_ending_step_of_childrenAsked (hinv : RunInv config run) (hactive : run.Active)
    (hasked : run.ChildrenAsked) :
    ∃ action : RunAction, action.Ending ∧ (run.step config action).isSome := by
  by_cases hover : ∀ child ∈ run.supervisor.children, child.phase.Over
  · refine ⟨.ends .supervise, trivial, ?_⟩
    rw [step_eq_stepActive hactive, stepActive, stepEnds, if_pos hover]
    exact isSome_endTask hasked.1 _
  · push Not at hover
    obtain ⟨child, hmem, hover⟩ := hover
    exact exists_child_step hinv hactive hasked hmem hover

/-- A task that was asked to end does, or goes on with that. -/
theorem exists_ending_step_of_asked (hinv : RunInv config run) (hactive : run.Active) {task : RunTask}
    (hasked : run.Asked task) :
    ∃ action : RunAction, action.Ending ∧ (run.step config action).isSome := by
  have hends (h : run.stepEnds task = run.endTask task .cancelled) :
      ∃ action : RunAction, action.Ending ∧ (run.step config action).isSome := by
    refine ⟨.ends task, trivial, ?_⟩
    rw [step_eq_stepActive hactive, stepActive, h]
    exact isSome_endTask hasked.unfinished _
  cases task with
  | serve =>
    by_cases haccepting : run.accepting
    · refine ⟨.stopAccepting, trivial, ?_⟩
      rw [step_eq_stepActive hactive, stepActive, if_pos ⟨hasked.unfinished, haccepting⟩]
      rfl
    · by_cases hclosed : AllClosed run.monitor.service.ipc
      · apply hends
        rw [stepEnds, if_pos ⟨haccepting, hclosed⟩, if_pos hasked]
      · -- a handler is left
        unfold AllClosed at hclosed
        push Not at hclosed
        obtain ⟨connection, -, handler, hhandler, hopen⟩ := hclosed
        obtain ⟨monitor, hstep⟩ := exists_cancel_step config hhandler hopen
        refine ⟨.monitor (.service (.peer connection .cancel)), trivial, ?_⟩
        have hmay : run.MayMonitor (.service (.peer connection .cancel)) := haccepting
        rw [step_eq_stepActive hactive, stepActive, if_pos hmay]
        simp only [stepMonitor, hstep, Option.bind_eq_bind, Option.bind_some]
        rfl
  | supervise => exact exists_ending_step_of_childrenAsked hinv hactive ⟨hasked.unfinished, .inl hasked⟩
  | incoming =>
    apply hends
    rw [stepEnds, if_pos hasked]
  | detection =>
    apply hends
    rw [stepEnds, if_pos hasked]
  | cancelWorkers =>
    apply hends
    rw [stepEnds, if_pos hasked]

theorem exists_ending_step (hinv : RunInv config run) (hactive : run.Active)
    (hcause : run.shutdownEvent = true ∨ run.group.errors ≠ [] ∨ run.spawnRaised = true)
    (hwaits : ¬ run.WaitsForProcess config) :
    ∃ action : RunAction, action.Ending ∧ (run.step config action).isSome := by
  by_cases hchildren : run.ChildrenAsked
  · exact exists_ending_step_of_childrenAsked hinv hactive hchildren
  -- an exception of a child has reached the group
  have hcause : run.shutdownEvent = true ∨ run.group.errors ≠ [] := by
    refine hcause.imp_right fun hcause => hcause.elim id fun hspawn => ?_
    exact hinv.spawnRaised hspawn fun hunfinished => hchildren ⟨hunfinished, .inr hspawn⟩
  have htask {task : RunTask} (hunfinished : (run.group.tasks task).Unfinished) (hfree : ¬ run.Free task) :
      run.Asked task := by
    unfold Run.Asked
    unfold Run.Free at hfree
    cases hstate : run.group.tasks task with
    | running asked =>
      cases asked
      · exact absurd hstate hfree
      · rfl
    | done =>
      rw [hstate] at hunfinished
      exact hunfinished.elim
  rcases id hactive with hgroup | ⟨exitCode, hstopping⟩
  · by_cases hended : run.group.Ended
    · refine ⟨.leaveGroup, trivial, ?_⟩
      rw [step_eq_stepActive hactive, stepActive, if_pos ⟨hgroup, hended⟩]
      simp only [stepSupervisor, ProcessSupervisor.step, hinv.inGroup hgroup, if_true, Option.bind_eq_bind,
        Option.bind_some]
      rfl
    · by_cases hworkers : (run.group.tasks .cancelWorkers).Unfinished
      · by_cases hfree : run.Free .cancelWorkers
        · -- only a signal can have come, since an exception would have asked the task
          have hsignal : run.shutdownEvent = true :=
            hcause.resolve_right fun herrors => run.group.asked herrors _ hfree
          refine ⟨.ends .cancelWorkers, trivial, ?_⟩
          have hnot : ¬ run.Asked .cancelWorkers := fun hasked => by cases hfree.symm.trans hasked
          rw [step_eq_stepActive hactive, stepActive, stepEnds, if_neg hnot, if_pos hsignal]
          exact isSome_endTask (TaskGroup.unfinished_cancel.mpr hworkers) _
        · exact exists_ending_step_of_asked hinv hactive (htask hworkers hfree)
      · -- the task has asked all others
        unfold TaskGroup.Ended at hended
        push Not at hended
        obtain ⟨task, hunfinished⟩ := hended
        exact exists_ending_step_of_asked hinv hactive (htask hunfinished (hinv.workers hworkers task))
  · unfold Run.WaitsForProcess at hwaits
    cases hshutdown : run.supervisor.shutdown with
    | notCalled => exact absurd hshutdown (hinv.stopping exitCode hstopping).2
    | grace processes since =>
      rw [hshutdown] at hwaits
      push Not at hwaits
      refine ⟨.supervisor .graceEnds, trivial, isSome_step_supervisor hactive trivial ?_⟩
      have hexpired : (∀ process ∈ processes, process ∉ run.supervisor.alive) ∨
          since + config.supervisor.shutdownTimeoutSeconds ≤ run.supervisor.now := by
        by_cases hlt : run.supervisor.now < since + config.supervisor.shutdownTimeoutSeconds
        · exact .inl (hwaits hlt)
        · exact .inr (not_lt.mp hlt)
      simp only [ProcessSupervisor.step, hshutdown, if_pos hexpired]
      rfl
    | yielding =>
      refine ⟨.supervisor .killRemaining, trivial, isSome_step_supervisor hactive trivial ?_⟩
      rw [ProcessSupervisor.step, if_pos hshutdown]
      rfl
    | reaping remaining =>
      rw [hshutdown] at hwaits
      rcases remaining with _ | ⟨process, remaining⟩
      · exact absurd hshutdown hinv.reaping
      · refine ⟨.supervisor .reap, trivial, isSome_step_supervisor hactive trivial ?_⟩
        simp only [ProcessSupervisor.step, hshutdown, if_neg hwaits]
        split_ifs <;> rfl
    | returned =>
      refine ⟨.returns, trivial, ?_⟩
      rw [step_eq_stepActive hactive, stepActive, hstopping]
      dsimp only
      rw [if_pos hshutdown]
      rfl

/-- Nothing is seen of a run before it is in its group. -/
theorem eq_nil_of_starting (runs : (Run.machine config).Runs tr run) (hphase : run.phase = .starting) :
    tr = [] := by
  refine runs.invariant (I := fun tr run => run.phase = .starting → tr = [])
    (fun _ => rfl) (fun tr run action run' es _ _ _ hstep hphase => ?_) hphase
  have hactive (hactive : run.Active) (h : run.phase = .starting) : tr ++ es = [] :=
    absurd h hactive.ne_starting
  cases runStep_of_step hstep with
  | started => cases hphase
  | contractMissing => cases hphase
  | startFailed => cases hphase
  | leftGroup => cases hphase
  | returned => cases hphase
  | unlinkFailed => cases hphase
  | tick h => exact hactive h hphase
  | monitor h => exact hactive h hphase
  | loopRaised h => exact hactive h hphase
  | supervised h => exact hactive h hphase
  | spawnCancelled h => exact hactive h hphase
  | spawnRaised h => exact hactive h hphase
  | signalled h => exact hactive h hphase
  | stoppedAccepting h => exact hactive h hphase
  | ended h => exact hactive h hphase
  | workersAsked h => exact hactive h hphase

/-- What a run has met that brings it to its end. -/
def EndsRun (tr : List RunEvent) : Prop :=
  .shutdownSignalReceived ∈ tr ∨ (∃ task error, .ended task (.raised error) ∈ tr) ∨
    ∃ name, .spawnRaised name ∈ tr

theorem EndsRun.mono (h : EndsRun tr) (es : List RunEvent) : EndsRun (tr ++ es) := by
  refine h.imp (List.mem_append_left _) (Or.imp ?_ ?_)
  · exact fun ⟨task, error, hmem⟩ => ⟨task, error, List.mem_append_left _ hmem⟩
  · exact fun ⟨name, hmem⟩ => ⟨name, List.mem_append_left _ hmem⟩

theorem over_or_exists_ending_step (runs : (Run.machine config).Runs tr run) (hends : EndsRun tr) :
    run.Over ∨ run.Active ∧ (run.WaitsForProcess config ∨
      ∃ action : RunAction, action.Ending ∧ (run.step config action).isSome) := by
  have hne : tr ≠ [] := by
    rintro rfl
    rcases hends with h | ⟨_, _, h⟩ | ⟨_, h⟩ <;> cases h
  have htrace := RunTrace.of_runs runs
  have hcause : run.shutdownEvent = true ∨ run.group.errors ≠ [] ∨ run.spawnRaised = true := by
    rcases hends with hsignal | ⟨task, error, hraised⟩ | hspawn
    · exact .inl (htrace.signalled.mpr hsignal)
    · exact .inr (.inl (List.ne_nil_of_mem ((htrace.raised task error).mp hraised)))
    · exact .inr (.inr (htrace.spawnRaised.mpr hspawn))
  have hstep (hactive : run.Active) : run.WaitsForProcess config ∨
      ∃ action : RunAction, action.Ending ∧ (run.step config action).isSome := by
    by_cases hwaits : run.WaitsForProcess config
    · exact .inl hwaits
    · exact .inr (exists_ending_step (RunInv.of_runs runs) hactive hcause hwaits)
  cases hphase : run.phase with
  | starting => exact absurd (eq_nil_of_starting runs hphase) hne
  | raised => exact .inl (.inr hphase)
  | returned exitCode => exact .inl (.inl ⟨exitCode, hphase⟩)
  | inGroup => exact .inr ⟨.inl hphase, hstep (.inl hphase)⟩
  | stopping exitCode => exact .inr ⟨.inr ⟨exitCode, hphase⟩, hstep (.inr ⟨exitCode, hphase⟩)⟩

/-- The process that `shutdown` waits for can exit. -/
theorem exists_exit_step (hactive : run.Active) (hwaits : run.WaitsForProcess config) :
    ∃ process, (run.step config (.supervisor (.exits process))).isSome := by
  obtain ⟨process, halive⟩ : ∃ process, process ∈ run.supervisor.alive := by
    unfold Run.WaitsForProcess at hwaits
    split at hwaits
    · obtain ⟨-, process, -, halive⟩ := hwaits
      exact ⟨process, halive⟩
    · exact ⟨_, hwaits⟩
    · exact hwaits.elim
  refine ⟨process, isSome_step_supervisor hactive trivial ?_⟩
  rw [ProcessSupervisor.step, if_pos halive]
  rfl

end Progress

end FileMonitor
