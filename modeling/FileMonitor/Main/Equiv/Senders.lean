import FileMonitor.Main.Equiv.Run
import FileMonitor.Supervision.Equiv.Instances

/-!
# The senders of a run

`one_process_per_sender`: in a run of the program no sender ever has two living processes, so that its id
tells one from the others.  `InstanceInv` is carried along the steps of the run, of which those of the
supervisor, the end of a call of `spawn` by an exception and the call of `shutdown` touch it.
-/

namespace FileMonitor

open Run

/-- The process was started for the child with this name. -/
def SpawnedIn (tr : List RunEvent) (name : String) (process : ProcessId) : Prop :=
  .supervisor (.spawnReturned name process) ∈ tr

section

variable {config : RunConfig} {run run' : Run} {action : RunAction} {tr es : List RunEvent}

theorem spawnedIn_append_supervisor {events : List SupervisorEvent} {name : String}
    {process : ProcessId} : SpawnedIn (tr ++ events.map .supervisor) name process ↔
      SpawnedIn tr name process ∨ .spawnReturned name process ∈ events := by
  unfold SpawnedIn
  rw [List.mem_append]
  exact or_congr_right (List.mem_map_of_injective fun _ _ => RunEvent.supervisor.inj)

theorem RunStep.instances (step : RunStep config run action es run') (hinv : RunInv config run)
    (h : InstanceInv config.supervisor (SpawnedIn tr) run.supervisor) :
    InstanceInv config.supervisor (SpawnedIn (tr ++ es)) run'.supervisor := by
  have hnames := nodup_names_buildSenderSpecs config.app.senders
  have hsame {es : List RunEvent} {state : SupervisorState}
      (h : InstanceInv config.supervisor (SpawnedIn tr) state)
      (hnone : ∀ name process, .supervisor (.spawnReturned name process) ∉ es) :
      InstanceInv config.supervisor (SpawnedIn (tr ++ es)) state :=
    h.congr fun name process => by simp [SpawnedIn, hnone]
  cases step with
  | tick _ _ hstep => exact h.step hnames hstep fun name process => by simp [SpawnedIn]
  | supervised _ _ hstep =>
    exact h.step hnames (supervisorStep_of_step hstep) fun _ _ => spawnedIn_append_supervisor
  | @spawnCancelled index child _ _ _ hget =>
    have hlt : index < config.supervisor.specs.length :=
      hinv.children ▸ (List.getElem?_eq_some_iff.mp hget).1
    exact hsame (h.cancelSpawn ⟨List.getElem?_eq_getElem hlt, hget⟩) (by simp)
  | spawnRaised _ _ hat => exact hsame (h.cancelSpawn hat) (by simp)
  | leftGroup _ _ hstep => exact h.step hnames hstep fun _ _ => spawnedIn_append_supervisor
  | _ => exact hsame h (by simp)

theorem instanceInv_of_runs (runs : (Run.machine config).Runs tr run) :
    InstanceInv config.supervisor (SpawnedIn tr) run.supervisor := by
  refine runs.invariant (I := fun tr run => InstanceInv config.supervisor (SpawnedIn tr) run.supervisor)
    (.initial fun _ _ => by simp [SpawnedIn]) fun tr run action run' es hruns hinv _ hstep => ?_
  exact (runStep_of_step hstep).instances (RunInv.of_runs hruns) hinv

/-- A process is started by a step of the supervisor, with no other event. -/
theorem RunStep.of_spawnStarted (step : RunStep config run action es run') {spec : ChildSpec}
    (h : .supervisor (.spawnStarted spec) ∈ es) : es = [.supervisor (.spawnStarted spec)] ∧
      ∃ action state,
        SupervisorStep config.supervisor run.supervisor action [.spawnStarted spec] state := by
  have hone {action : SupervisorAction} {events : List SupervisorEvent} {state : SupervisorState}
      (hstep : SupervisorStep config.supervisor run.supervisor action events state)
      (h : .supervisor (.spawnStarted spec) ∈ events.map RunEvent.supervisor) :
      events.map RunEvent.supervisor = [.supervisor (.spawnStarted spec)] ∧
        ∃ action state,
          SupervisorStep config.supervisor run.supervisor action [.spawnStarted spec] state := by
    obtain ⟨event, hevent, heq⟩ := List.mem_map.mp h
    obtain rfl := RunEvent.supervisor.inj heq
    obtain rfl := (hstep.running_of_spawnStarted hevent).2
    exact ⟨rfl, action, state, hstep⟩
  cases step with
  | supervised _ _ hstep => exact hone (supervisorStep_of_step hstep) h
  | leftGroup _ _ hstep => exact hone hstep h
  | _ => simp at h

/-- **One process for each sender.**  In every run of the program, a process is started only for one of
the configured senders, and only where every process it had before has exited.  So no two processes of a
sender are alive at a time, and no more processes than there are senders. -/
theorem one_process_per_sender (runs : (Run.machine config).Runs tr run) :
    (∀ pre spec post, tr = pre ++ .supervisor (.spawnStarted spec) :: post →
      spec ∈ buildSenderSpecs config.app.senders ∧
      ∀ process, SpawnedIn pre spec.name process → .supervisor (.exited process) ∈ pre) ∧
    (∀ name process process', SpawnedIn tr name process → SpawnedIn tr name process' →
      .supervisor (.exited process) ∉ tr → .supervisor (.exited process') ∉ tr → process = process') ∧
    run.supervisor.alive.length ≤ config.app.senders.senderCount.toNat := by
  have hinv := instanceInv_of_runs runs
  refine ⟨fun pre spec post htr => ?_, fun name process process' h h' hrunning hrunning' => ?_, ?_⟩
  · obtain ⟨run₀, action, run₁, runs₀, -, hstep⟩ := runs.exists_step_of_alone htr
      fun _ _ _ _ hstep hmem => ((runStep_of_step hstep).of_spawnStarted hmem).1
    obtain ⟨-, _, _, step⟩ := (runStep_of_step hstep).of_spawnStarted List.mem_cons_self
    obtain ⟨hspec, hnone⟩ := (instanceInv_of_runs runs₀).of_spawnStarted step List.mem_cons_self
    refine ⟨hspec, fun process hspawned => ?_⟩
    refine ((RunTrace.of_runs runs₀).processes spec.name process hspawned).resolve_left fun hmem => ?_
    exact hnone process hmem hspawned
  · have halive := ((RunTrace.of_runs runs).processes name process h).resolve_right hrunning
    have halive' := ((RunTrace.of_runs runs).processes name process' h').resolve_right hrunning'
    exact hinv.unique name process halive process' halive' h h'
  · refine hinv.length_le.trans (le_of_eq ?_)
    show (buildSenderSpecs config.app.senders).length = _
    rw [buildSenderSpecs, List.length_map, List.length_range]

end

/-- The sender exits and is started again. -/
def restartedActions : List RunAction :=
  [.start true, .supervisor (.run 0), .supervisor (.spawnReturns 0), .supervisor (.exits 0),
    .supervisor (.waitReturns 0), .tick 1, .supervisor (.backoffEnds 0), .supervisor (.run 0),
    .supervisor (.spawnReturns 0)]

def restartedTrace : List RunEvent :=
  [.supervisor (.spawnStarted ⟨"sender-0", ["sender", "--sender-id", "0"], none⟩),
    .supervisor (.spawnReturned "sender-0" 0), .supervisor (.exited 0),
    .supervisor (.childExited "sender-0" 0 0), .supervisor (.backingOff "sender-0" 1),
    .supervisor (.spawnStarted ⟨"sender-0", ["sender", "--sender-id", "0"], none⟩),
    .supervisor (.spawnReturned "sender-0" 1)]

theorem one_process_per_sender_restarted :
    .supervisor (.exited 0) ∈ restartedTrace.take 5 ∧
    ∃ run, (Run.machine oneSenderConfig).Runs restartedTrace run ∧ run.supervisor.alive.length ≤ 1 := by
  obtain ⟨run, runs, -⟩ := EventMachine.exists_runsUnder_of_map_eq
    (show ((Run.machine oneSenderConfig).run restartedActions).map Prod.fst = some restartedTrace
      by decide +kernel)
  have hsplit : restartedTrace = restartedTrace.take 5 ++
      .supervisor (.spawnStarted ⟨"sender-0", ["sender", "--sender-id", "0"], none⟩) ::
        restartedTrace.drop 6 := rfl
  obtain ⟨hstarted, -, hlength⟩ := one_process_per_sender runs
  refine ⟨(hstarted _ _ _ hsplit).2 0 ?_, run, runs, hlength⟩
  exact List.mem_cons_of_mem _ List.mem_cons_self

end FileMonitor
