import FileMonitor.Main.Equiv.Monitor
import FileMonitor.Main.Run
import FileMonitor.Supervision.Equiv.Supervisor

/-!
# Steps of a run

`RunStep` lists what a step of `run` can be, and `runStep_of_step` says that there is no other.
-/

namespace FileMonitor

open Run

/-- `run` is in its group or in `supervisor.shutdown()`. -/
def Run.Active (run : Run) : Prop := run.phase = .inGroup ∨ ∃ exitCode, run.phase = .stopping exitCode

/-- The task can end so, by what it does alone. -/
inductive Run.Ends (run : Run) : RunTask → TaskOutcome RunError → Prop where
  | serve (notAccepting : run.accepting = false) (closed : AllClosed run.monitor.service.ipc) :
    Ends run .serve (if run.Asked .serve then .cancelled else .raised .os)
  | supervise (childrenOver : ∀ child ∈ run.supervisor.children, child.phase.Over) :
    Ends run .supervise
      (if run.spawnRaised then .raised .spawn else if run.Asked .supervise then .cancelled else .returned)
  | incoming (asked : run.Asked .incoming) : Ends run .incoming .cancelled
  | detection (asked : run.Asked .detection) : Ends run .detection .cancelled
  | detectionFailed (free : run.Free .detection) (failed : run.monitor.files.phase = .ended) :
    Ends run .detection (.raised .os)
  | cancelWorkers (asked : run.Asked .cancelWorkers) : Ends run .cancelWorkers .cancelled

/-- What one step does to a run, and its events. -/
inductive RunStep (config : RunConfig) (run : Run) : RunAction → List RunEvent → Run → Prop where
  | started (starting : run.phase = .starting) :
    RunStep config run (.start true) [] { run with phase := .inGroup }
  | contractMissing (starting : run.phase = .starting) :
    RunStep config run (.start false) [.protoContractMissing, .returned 1]
      { run with phase := .returned 1 }
  | startFailed (starting : run.phase = .starting) :
    RunStep config run .startFails [] { run with phase := .raised }
  | tick {seconds monitor supervisor} (active : run.Active)
    (monitorStep : run.monitor.step config.monitor (.tick seconds) = some (monitor, []))
    (supervisorStep : SupervisorStep config.supervisor run.supervisor (.tick seconds) [] supervisor) :
    RunStep config run (.tick seconds) [] { run with monitor := monitor, supervisor := supervisor }
  | monitor {action es monitor} (active : run.Active) (may : run.MayMonitor action)
    (step : run.monitor.step config.monitor action = some (monitor, es))
    (noError : loopError (es.map .monitor) = none) :
    RunStep config run (.monitor action) (es.map .monitor) { run with monitor := monitor }
  | loopRaised {action es monitor error} (active : run.Active) (may : run.MayMonitor action)
    (step : run.monitor.step config.monitor action = some (monitor, es))
    (raises : loopError (es.map .monitor) = some error)
    (unfinished : (run.group.tasks .incoming).Unfinished) :
    RunStep config run (.monitor action)
      (es.map .monitor ++ [.ended .incoming (.raised (.message error))])
      { run with
        monitor := monitor
        group := run.group.finish .incoming (.raised (.message error)) unfinished }
  | supervised {action es supervisor} (active : run.Active) (may : run.MaySupervise action)
    (step : config.supervisor.step run.supervisor action = some (supervisor, es)) :
    RunStep config run (.supervisor action) (es.map .supervisor) { run with supervisor := supervisor }
  | spawnCancelled {index child startedAt} (active : run.Active) (asked : run.ChildrenAsked)
    (get : run.supervisor.children[index]? = some child) (spawning : child.phase = .spawning startedAt) :
    RunStep config run (.cancelSpawn index) []
      { run with
        supervisor :=
          ProcessSupervisor.setChild run.supervisor index { child with phase := .cancelled } }
  | spawnRaised {index spec child startedAt} (active : run.Active)
    (unfinished : (run.group.tasks .supervise).Unfinished)
    (hat : ChildAt config.supervisor run.supervisor index spec child)
    (spawning : child.phase = .spawning startedAt) :
    RunStep config run (.spawnRaises index) [.spawnRaised spec.name]
      { run with
        supervisor :=
          ProcessSupervisor.setChild run.supervisor index { child with phase := .cancelled }
        spawnRaised := true }
  | signalled (active : run.Active) :
    RunStep config run .signal [.shutdownSignalReceived] { run with shutdownEvent := true }
  | stoppedAccepting (active : run.Active) (unfinished : (run.group.tasks .serve).Unfinished)
    (accepting : run.accepting = true) :
    RunStep config run .stopAccepting [] { run with accepting := false }
  | ended {action task outcome} (active : run.Active)
    (unfinished : (run.group.tasks task).Unfinished) (ends : run.Ends task outcome) :
    RunStep config run action [.ended task outcome]
      { run with group := run.group.finish task outcome unfinished }
  | workersAsked (active : run.Active) (signalled : run.shutdownEvent = true)
    (unfinished : ((run.group.cancel (· ≠ RunTask.cancelWorkers)).tasks .cancelWorkers).Unfinished) :
    RunStep config run (.ends .cancelWorkers) [.ended .cancelWorkers .returned]
      { run with
        group := (run.group.cancel (· ≠ RunTask.cancelWorkers)).finish .cancelWorkers .returned
          unfinished }
  | leftGroup {es supervisor} (inGroup : run.phase = .inGroup) (ended : run.group.Ended)
    (step : SupervisorStep config.supervisor run.supervisor .shutdown es supervisor) :
    RunStep config run .leaveGroup (es.map .supervisor)
      { run with
        phase := .stopping (if run.group.errors = [] then 0 else 1)
        supervisor := supervisor }
  | returned {exitCode} (stopping : run.phase = .stopping exitCode)
    (shutdown : run.supervisor.shutdown = .returned) :
    RunStep config run .returns [.returned exitCode] { run with phase := .returned exitCode }
  | unlinkFailed {exitCode} (stopping : run.phase = .stopping exitCode)
    (shutdown : run.supervisor.shutdown = .returned) :
    RunStep config run .unlinkFails [] { run with phase := .raised }

section

variable {config : RunConfig} {run run' : Run}

theorem exists_of_stepMonitor {action : MonitorAction} {es : List RunEvent}
    (h : run.stepMonitor config action = some (run', es)) :
    ∃ monitor events, run.monitor.step config.monitor action = some (monitor, events) ∧
      run' = { run with monitor := monitor } ∧ es = events.map .monitor := by
  obtain ⟨⟨monitor, events⟩, hstep, h⟩ := Option.bind_eq_some_iff.mp h
  obtain ⟨rfl, rfl⟩ := Prod.mk.inj (Option.some.inj h)
  exact ⟨monitor, events, hstep, rfl, rfl⟩

theorem exists_of_stepSupervisor {action : SupervisorAction} {es : List RunEvent}
    (h : run.stepSupervisor config action = some (run', es)) :
    ∃ supervisor events, config.supervisor.step run.supervisor action = some (supervisor, events) ∧
      run' = { run with supervisor := supervisor } ∧ es = events.map .supervisor := by
  obtain ⟨⟨supervisor, events⟩, hstep, h⟩ := Option.bind_eq_some_iff.mp h
  obtain ⟨rfl, rfl⟩ := Prod.mk.inj (Option.some.inj h)
  exact ⟨supervisor, events, hstep, rfl, rfl⟩

theorem exists_of_endTask {task : RunTask} {outcome : TaskOutcome RunError} {es : List RunEvent}
    (h : run.endTask task outcome = some (run', es)) :
    ∃ unfinished : (run.group.tasks task).Unfinished,
      run' = { run with group := run.group.finish task outcome unfinished } ∧
        es = [.ended task outcome] := by
  unfold endTask at h
  split_ifs at h with hunfinished
  obtain ⟨rfl, rfl⟩ := Prod.mk.inj (Option.some.inj h)
  exact ⟨hunfinished, rfl, rfl⟩

theorem exists_of_endSpawning {index : ℕ} (h : run.endSpawning index = some run') :
    ∃ child startedAt, run.supervisor.children[index]? = some child ∧
      child.phase = .spawning startedAt ∧
      run' = { run with
        supervisor :=
          ProcessSupervisor.setChild run.supervisor index { child with phase := .cancelled } } := by
  obtain ⟨child, hget, h⟩ := Option.bind_eq_some_iff.mp h
  dsimp only at h
  split at h
  · rename_i startedAt hspawning
    exact ⟨child, startedAt, hget, hspawning, (Option.some.inj h).symm⟩
  · cases h

theorem runStep_of_stepEnds {task : RunTask} {es : List RunEvent} (hactive : run.Active)
    (h : run.stepEnds task = some (run', es)) : RunStep config run (.ends task) es run' := by
  have hends {outcome : TaskOutcome RunError} (hends : run.Ends task outcome)
      (h : run.endTask task outcome = some (run', es)) : RunStep config run (.ends task) es run' := by
    obtain ⟨hunfinished, rfl, rfl⟩ := exists_of_endTask h
    exact .ended hactive hunfinished hends
  cases task with
  | serve =>
    rw [stepEnds] at h
    by_cases hclosed : ¬ run.accepting ∧ AllClosed run.monitor.service.ipc
    · rw [if_pos hclosed] at h
      exact hends (.serve (Bool.eq_false_iff.mpr hclosed.1) hclosed.2) h
    · rw [if_neg hclosed] at h
      cases h
  | supervise =>
    rw [stepEnds] at h
    by_cases hover : ∀ child ∈ run.supervisor.children, child.phase.Over
    · rw [if_pos hover] at h
      exact hends (.supervise hover) h
    · rw [if_neg hover] at h
      cases h
  | incoming =>
    rw [stepEnds] at h
    split_ifs at h with hasked
    exact hends (.incoming hasked) h
  | detection =>
    rw [stepEnds] at h
    split_ifs at h with hasked
    exact hends (.detection hasked) h
  | cancelWorkers =>
    rw [stepEnds] at h
    split_ifs at h with hasked hsignalled
    · exact hends (.cancelWorkers hasked) h
    · obtain ⟨hunfinished, rfl, rfl⟩ := exists_of_endTask h
      exact .workersAsked hactive hsignalled hunfinished

theorem runStep_of_stepActive {action : RunAction} {es : List RunEvent} (hactive : run.Active)
    (h : run.stepActive config action = some (run', es)) : RunStep config run action es run' := by
  cases action with
  | start => cases h
  | startFails => cases h
  | tick seconds =>
    obtain ⟨⟨run₁, _⟩, hrun, h⟩ := Option.bind_eq_some_iff.mp h
    obtain ⟨monitor, events, hmonitor, rfl, -⟩ := exists_of_stepMonitor hrun
    obtain ⟨supervisor, events', hstep, rfl, rfl⟩ := exists_of_stepSupervisor h
    have hsupervisor := supervisorStep_of_step hstep
    have hnone : events = [] ∧ events' = [] := by
      constructor
      · cases monitorStep_of_step hmonitor
        rfl
      · cases hsupervisor
        rfl
    obtain ⟨rfl, rfl⟩ := hnone
    exact .tick hactive hmonitor hsupervisor
  | monitor action =>
    rw [stepActive] at h
    split_ifs at h with hmay
    obtain ⟨⟨run₁, es₁⟩, hrun, h⟩ := Option.bind_eq_some_iff.mp h
    obtain ⟨monitor, events, hmonitor, rfl, rfl⟩ := exists_of_stepMonitor hrun
    dsimp only at h
    split at h
    · rename_i hnone
      obtain ⟨rfl, rfl⟩ := Prod.mk.inj (Option.some.inj h)
      exact .monitor hactive hmay hmonitor hnone
    · rename_i error herror
      obtain ⟨⟨run₂, ended⟩, hend, h⟩ := Option.bind_eq_some_iff.mp h
      obtain ⟨hunfinished, rfl, rfl⟩ := exists_of_endTask hend
      obtain ⟨rfl, rfl⟩ := Prod.mk.inj (Option.some.inj h)
      exact .loopRaised hactive hmay hmonitor herror hunfinished
  | supervisor action =>
    rw [stepActive] at h
    split_ifs at h with hmay
    obtain ⟨supervisor, events, hstep, rfl, rfl⟩ := exists_of_stepSupervisor h
    exact .supervised hactive hmay hstep
  | cancelSpawn index =>
    rw [stepActive] at h
    split_ifs at h with hasked
    obtain ⟨run₁, hend, h⟩ := Option.bind_eq_some_iff.mp h
    obtain ⟨child, startedAt, hget, hspawning, rfl⟩ := exists_of_endSpawning hend
    obtain ⟨rfl, rfl⟩ := Prod.mk.inj (Option.some.inj h)
    exact .spawnCancelled hactive hasked hget hspawning
  | spawnRaises index =>
    rw [stepActive] at h
    split_ifs at h with hunfinished
    obtain ⟨spec, hspec, h⟩ := Option.bind_eq_some_iff.mp h
    obtain ⟨run₁, hend, h⟩ := Option.bind_eq_some_iff.mp h
    obtain ⟨child, startedAt, hget, hspawning, rfl⟩ := exists_of_endSpawning hend
    obtain ⟨rfl, rfl⟩ := Prod.mk.inj (Option.some.inj h)
    exact .spawnRaised hactive hunfinished ⟨hspec, hget⟩ hspawning
  | signal =>
    obtain ⟨rfl, rfl⟩ := Prod.mk.inj (Option.some.inj h)
    exact .signalled hactive
  | stopAccepting =>
    rw [stepActive] at h
    split_ifs at h with hserve
    obtain ⟨rfl, rfl⟩ := Prod.mk.inj (Option.some.inj h)
    exact .stoppedAccepting hactive hserve.1 hserve.2
  | detectionFails =>
    rw [stepActive] at h
    split at h
    · split_ifs at h with hfails
      obtain ⟨hunfinished, rfl, rfl⟩ := exists_of_endTask h
      exact .ended hactive hunfinished (.detectionFailed hfails.1 hfails.2)
    · cases h
  | ends task => exact runStep_of_stepEnds hactive h
  | leaveGroup =>
    rw [stepActive] at h
    by_cases hgroup : run.phase = .inGroup ∧ run.group.Ended
    · rw [if_pos hgroup] at h
      obtain ⟨supervisor, events, hstep, rfl, rfl⟩ := exists_of_stepSupervisor h
      exact .leftGroup hgroup.1 hgroup.2 (supervisorStep_of_step hstep)
    · rw [if_neg hgroup] at h
      cases h
  | returns =>
    rw [stepActive] at h
    split at h
    · rename_i exitCode hstopping
      split_ifs at h with hshutdown
      obtain ⟨rfl, rfl⟩ := Prod.mk.inj (Option.some.inj h)
      exact .returned hstopping hshutdown
    · cases h
  | unlinkFails =>
    rw [stepActive] at h
    split at h
    · rename_i exitCode hstopping
      split_ifs at h with hshutdown
      obtain ⟨rfl, rfl⟩ := Prod.mk.inj (Option.some.inj h)
      exact .unlinkFailed hstopping hshutdown
    · cases h

/-- **A run makes no other steps.** -/
theorem runStep_of_step {action : RunAction} {es : List RunEvent}
    (h : run.step config action = some (run', es)) : RunStep config run action es run' := by
  unfold Run.step at h
  split at h
  · rename_i hstarting
    split at h
    · obtain ⟨rfl, rfl⟩ := Prod.mk.inj (Option.some.inj h)
      exact .started hstarting
    · obtain ⟨rfl, rfl⟩ := Prod.mk.inj (Option.some.inj h)
      exact .contractMissing hstarting
    · obtain ⟨rfl, rfl⟩ := Prod.mk.inj (Option.some.inj h)
      exact .startFailed hstarting
    · cases h
  · rename_i hgroup
    exact runStep_of_stepActive (.inl hgroup) h
  · rename_i exitCode hstopping
    exact runStep_of_stepActive (.inr ⟨exitCode, hstopping⟩) h
  · cases h
  · cases h

end

end FileMonitor
