import FileMonitor.Main.Equiv.RunSteps
import FileMonitor.Supervision.Equiv.ShutdownSteps

/-!
# Runs of the program

`run_leaves_nothing_running`: where `run` has returned, every process it started has exited and every
connection it accepted is closed.  `exit_code_says_why`: what the number it returned says about the run.

`RunInv` is kept by every step.  A child that is cancelled leaves its process in the table of the
supervisor, where `shutdown` finds it; the call comes after the group, when no task is left that could
still start one.  `RunTrace` ties the state of the group to the trace.
-/

namespace FileMonitor

open Run UdsIpcServer

/-! ### The senders -/

theorem toString_injective : Function.Injective (toString : ℕ → String) := by
  intro m n h
  have hdigits : Nat.toDigits 10 m = Nat.toDigits 10 n := by
    rwa [Nat.toString_eq_repr, Nat.toString_eq_repr, Nat.repr_eq_ofList_toDigits,
      Nat.repr_eq_ofList_toDigits, String.ofList_inj] at h
  calc m = Nat.ofDigitChars 10 (Nat.toDigits 10 m) 0 :=
        (Nat.ofDigitChars_toDigits (by decide) le_rfl).symm
    _ = Nat.ofDigitChars 10 (Nat.toDigits 10 n) 0 := by rw [hdigits]
    _ = n := Nat.ofDigitChars_toDigits (by decide) le_rfl

/-- The senders have names of their own. -/
theorem nodup_names_buildSenderSpecs (senders : SendersConfig) :
    ((buildSenderSpecs senders).map ChildSpec.name).Nodup := by
  unfold buildSenderSpecs
  rw [List.map_map]
  refine List.nodup_range.map fun i j h => ?_
  exact toString_injective ((String.append_right_inj "sender-").mp h)

/-! ### The connections in a run -/

section Connections

variable {pb : Protobuf} {expectedProtoHash : Bytes} {ipc ipc' : UdsIpcServer}

theorem PeerStep.closed {handler handler' : PeerHandler} {es : List PeerEvent}
    (step : PeerStep pb expectedProtoHash handler es handler') (h : handler.phase = .closed) :
    handler'.phase = .closed := by
  cases step with
  | stream => exact h
  | cleanUp => rfl
  | forward _ hreceiving => cases h.symm.trans hreceiving
  | handshake _ hreceiving => cases h.symm.trans hreceiving
  | refuse => rfl
  | put hsuspended => cases h.symm.trans hsuspended
  | dequeue => exact h
  | write => exact h
  | writeFails => exact h

/-- Replacing the handler of one connection by one that is closed too. -/
theorem allClosed_setHandler (h : AllClosed ipc) {connection : ConnectionId}
    {handler handler' : PeerHandler} (hhandler : ipc.handlers connection = some handler)
    (hclosed : handler.phase = .closed → handler'.phase = .closed)
    (haccepted : ipc'.accepted = ipc.accepted)
    (hhandlers : ipc'.handlers = (ipc.setHandler connection handler').handlers) : AllClosed ipc' := by
  intro other hlt otherHandler hother
  rw [haccepted] at hlt
  rw [hhandlers, handlers_setHandler] at hother
  split_ifs at hother with heq
  · obtain rfl := Option.some.inj hother
    exact hclosed (h connection (heq ▸ hlt) handler hhandler)
  · exact h other hlt otherHandler hother

theorem allClosed_of_step (h : AllClosed ipc) {action : UdsAction} {es : List UdsEvent}
    (hstep : ipc.step pb expectedProtoHash action = some (ipc', es)) (haccept : action ≠ .accept) :
    AllClosed ipc' := by
  rcases step_cases hstep with ⟨rfl, -⟩ | ⟨connection, _, handler, handler', events, -, hhandler, hpeer, -,
    rfl⟩ | ⟨senderId, payload, -, -, rfl⟩ | ⟨entry, incoming, -, -, -, rfl⟩
  · exact absurd rfl haccept
  · exact allClosed_setHandler h hhandler hpeer.closed rfl rfl
  · rcases send_cases ipc senderId payload with ⟨connection, handler, -, hhandler, hsend⟩ | ⟨_, -, hsend⟩
    · rw [hsend]
      have hclosed : handler.phase = .closed →
          { handler with sendQueue := handler.sendQueue ++ [payload] }.phase = .closed := id
      exact allClosed_setHandler h hhandler hclosed rfl rfl
    · rw [hsend]
      exact h
  · exact h

variable {dispatcher : SessionDispatcher} {service service' : Service}

theorem allClosed_of_service_step (h : AllClosed service.ipc) {action : ServiceAction}
    {es : List ServiceEvent} (haccept : action ≠ .accept)
    (hstep : service.step pb dispatcher expectedProtoHash action = some (service', es)) :
    AllClosed service'.ipc := by
  have hcore {action : CoreAction} {service service' : Service} {es : List ServiceEvent}
      (h : AllClosed service.ipc)
      (hstep : service.stepCore pb dispatcher action = some (service', es)) : AllClosed service'.ipc := by
    obtain ⟨core, events, -, rfl, -⟩ := exists_of_stepCore hstep
    exact h
  cases action with
  | accept => exact absurd rfl haccept
  | peer connection action =>
    obtain ⟨ipc, events, hipc, rfl, -⟩ := exists_of_stepIpc hstep
    exact allClosed_of_step h hipc nofun
  | process =>
    rw [Service.step] at hstep
    split at hstep
    · cases hstep
    · obtain ⟨⟨service₁, taken⟩, htake, hstep⟩ := Option.bind_eq_some_iff.mp hstep
      obtain ⟨⟨service₂, handled⟩, hhandle, hstep⟩ := Option.bind_eq_some_iff.mp hstep
      obtain ⟨rfl, -⟩ := Prod.mk.inj (Option.some.inj hstep)
      obtain ⟨ipc, events, hipc, rfl, -⟩ := exists_of_stepIpc htake
      exact hcore (allClosed_of_step h hipc fun heq => by cases heq) hhandle
  | send =>
    rw [Service.step] at hstep
    split at hstep
    · obtain ⟨⟨service₁, sent⟩, hsend, hstep⟩ := Option.bind_eq_some_iff.mp hstep
      obtain ⟨⟨service₂, ended⟩, hend, hstep⟩ := Option.bind_eq_some_iff.mp hstep
      obtain ⟨rfl, -⟩ := Prod.mk.inj (Option.some.inj hstep)
      obtain ⟨ipc, events, hipc, rfl, -⟩ := exists_of_stepIpc hsend
      exact hcore (allClosed_of_step h hipc fun heq => by cases heq) hend
    · cases hstep
  | core action =>
    cases action with
    | incoming => cases hstep
    | sendEnds => cases hstep
    | _ => exact hcore h hstep

theorem allClosed_of_monitor_step {config : MonitorConfig} {monitor monitor' : Monitor}
    (h : AllClosed monitor.service.ipc) {action : MonitorAction} {es : List MonitorEvent}
    (haccept : action ≠ .service .accept) (hstep : monitor.step config action = some (monitor', es)) :
    AllClosed monitor'.service.ipc := by
  cases monitorStep_of_step hstep with
  | service _ _ hservice =>
    exact allClosed_of_service_step h (fun heq => haccept (congrArg _ heq)) hservice
  | _ => exact h

end Connections

/-! ### What holds in every run -/

/-- What holds in every run. -/
structure RunInv (config : RunConfig) (run : Run) : Prop where
  children : run.supervisor.children.length = config.supervisor.specs.length
  table : TableInv config.supervisor run.supervisor
  covered : Covered run.supervisor
  childrenOver : ¬ (run.group.tasks .supervise).Unfinished →
    ∀ child ∈ run.supervisor.children, child.phase.Over
  closed : ¬ (run.group.tasks .serve).Unfinished → AllClosed run.monitor.service.ipc
  starting : run.phase = .starting → run.supervisor = config.supervisor.initial ∧
    run.monitor.service.ipc = .initial
  inGroup : run.phase = .inGroup → run.supervisor.shutdown = .notCalled
  stopping : ∀ exitCode, run.phase = .stopping exitCode →
    run.group.Ended ∧ run.supervisor.shutdown ≠ .notCalled
  reaping : run.supervisor.shutdown ≠ .reaping []
  /-- Only the group asks the task that waits for the signal to end. -/
  asked : run.Asked .cancelWorkers → run.group.errors ≠ []
  /-- That task does not end before all others were asked to. -/
  workers : ¬ (run.group.tasks .cancelWorkers).Unfinished → ∀ task, ¬ run.Free task
  /-- An exception of a child becomes one of the supervisor's task. -/
  spawnRaised : run.spawnRaised = true → ¬ (run.group.tasks .supervise).Unfinished →
    run.group.errors ≠ []
  returned : ∀ exitCode, run.phase = .returned exitCode →
    run.supervisor.alive = [] ∧ AllClosed run.monitor.service.ipc

section Invariant

variable {config : RunConfig} {run run' : Run} {action : RunAction} {es : List RunEvent}

theorem Run.Active.ne_starting (h : run.Active) : run.phase ≠ .starting := by
  rcases h with h | ⟨exitCode, h⟩
  · rw [h]
    nofun
  · rw [h]
    nofun

theorem Run.Active.ne_returned (h : run.Active) (exitCode : ℕ) : run.phase ≠ .returned exitCode := by
  rcases h with h | ⟨exitCode', h⟩
  · rw [h]
    nofun
  · rw [h]
    nofun

theorem RunInv.initial : RunInv config (Run.initial config) where
  children := List.length_map ..
  table := tableInv_initial
  covered := nofun
  childrenOver h := absurd trivial h
  closed h := absurd trivial h
  starting _ := ⟨rfl, rfl⟩
  inGroup := nofun
  stopping := nofun
  reaping := nofun
  asked h := nomatch h
  workers h := absurd trivial h
  spawnRaised := nofun
  returned := nofun

/-- A step that ends no task and leaves the phase, the supervisor and the connections alone. -/
theorem RunInv.frame (hinv : RunInv config run) (hphase : run'.phase = run.phase)
    (hgroup : run'.group = run.group) (hsupervisor : run'.supervisor = run.supervisor)
    (hspawn : run'.spawnRaised = run.spawnRaised) (hipc : run'.monitor = run.monitor) :
    RunInv config run' := by
  obtain ⟨hchildren, htable, hcovered, hover, hclosed, hstarting, hinGroup, hstopping, hreaping, hasked,
    hworkers, hspawnRaised, hreturned⟩ := hinv
  constructor <;> simp only [Run.Asked, Run.Free, hphase, hgroup, hsupervisor, hspawn, hipc]
  all_goals assumption

/-- The end of the task of a child, in its call of `spawn`. -/
theorem RunInv.endSpawning (hinv : RunInv config run) (hactive : run.Active)
    (hunfinished : (run.group.tasks .supervise).Unfinished) {index : ℕ} {child : Child}
    (hget : run.supervisor.children[index]? = some child) :
    RunInv config
      { run with
        supervisor :=
          ProcessSupervisor.setChild run.supervisor index { child with phase := .cancelled } } := by
  have hlt : index < config.supervisor.specs.length :=
    hinv.children ▸ (List.getElem?_eq_some_iff.mp hget).1
  have hat : ChildAt config.supervisor run.supervisor index config.supervisor.specs[index] child :=
    ⟨List.getElem?_eq_getElem hlt, hget⟩
  exact
    { hinv with
      children := (List.length_set ..).trans hinv.children
      table := hinv.table.setChild (nodup_names_buildSenderSpecs _) hat rfl trivial (fun _ _ => rfl)
        hinv.table.started
      covered := hinv.covered.frame rfl (fun _ h => h) id
      childrenOver := fun hended => absurd hunfinished hended
      starting := fun h => absurd h hactive.ne_starting
      returned := fun exitCode h => absurd h (hactive.ne_returned exitCode) }

/-- A step of the supervisor in a run. -/
theorem RunInv.supervised (hinv : RunInv config run) (hactive : run.Active)
    {action : SupervisorAction} {events : List SupervisorEvent} {supervisor : SupervisorState}
    (step : SupervisorStep config.supervisor run.supervisor action events supervisor)
    (hchild : action.OfChild → (run.group.tasks .supervise).Unfinished)
    (hshutdown : action ≠ .shutdown) : RunInv config { run with supervisor := supervisor } := by
  -- no task of a child is left where `shutdown` was called
  have hcalled (hofChild : action.OfChild) : run.supervisor.shutdown = .notCalled := by
    rcases hactive with hgroup | ⟨exitCode, hstopping⟩
    · exact hinv.inGroup hgroup
    · exact absurd (hchild hofChild) ((hinv.stopping exitCode hstopping).1 .supervise)
  have hintime : SpawnsInTime run.supervisor action := by
    unfold SpawnsInTime
    split
    · rw [hcalled trivial]
      exact id
    · trivial
  exact
    { hinv with
      children := by
        by_cases hofChild : action.OfChild
        · obtain ⟨-, index, child, hchildren⟩ := step.of_ofChild hofChild
          rw [hchildren, List.length_set]
          exact hinv.children
        · rw [step.children_eq hofChild]
          exact hinv.children
      table := hinv.table.step (nodup_names_buildSenderSpecs _) step
      covered := hinv.covered.step hinv.table step hintime
      childrenOver := fun hended => by
        rw [step.children_eq fun hofChild => hended (hchild hofChild)]
        exact hinv.childrenOver hended
      starting := fun h => absurd h hactive.ne_starting
      inGroup := fun h => (step.notCalled_iff hshutdown).mpr (hinv.inGroup h)
      stopping := fun exitCode h =>
        (hinv.stopping exitCode h).imp_right (mt (step.notCalled_iff hshutdown).mp)
      reaping := step.reaping_ne_nil hinv.reaping
      returned := fun exitCode h => absurd h (hactive.ne_returned exitCode) }

/-- A step of the monitor in a run. -/
theorem RunInv.monitored (hinv : RunInv config run) (hactive : run.Active) {action : MonitorAction}
    {events : List MonitorEvent} {monitor : Monitor}
    (hstep : run.monitor.step config.monitor action = some (monitor, events))
    (haccept : action = .service .accept → run.Free .serve) :
    RunInv config { run with monitor := monitor } :=
  { hinv with
    closed := fun hended => by
      refine allClosed_of_monitor_step (hinv.closed hended) (fun heq => hended ?_) hstep
      rw [show run.group.tasks .serve = _ from haccept heq]
      trivial
    starting := fun h => absurd h hactive.ne_starting
    returned := fun exitCode h => absurd h (hactive.ne_returned exitCode) }

/-- The end of a task in a run. -/
theorem RunInv.finish (hinv : RunInv config run) (hactive : run.Active) {task : RunTask}
    {outcome : TaskOutcome RunError} (hunfinished : (run.group.tasks task).Unfinished)
    (hserve : task = .serve → AllClosed run.monitor.service.ipc)
    (hsupervise : task = .supervise → (∀ child ∈ run.supervisor.children, child.phase.Over) ∧
      (run.spawnRaised = true → outcome.error?.isSome))
    (hworkers : task = .cancelWorkers → ∀ other, other ≠ .cancelWorkers → ¬ run.Free other) :
    RunInv config { run with group := run.group.finish task outcome hunfinished } :=
  { hinv with
    childrenOver := fun hended => by
      rw [TaskGroup.unfinished_finish, not_and_or, not_not] at hended
      exact hended.elim (fun heq => (hsupervise heq.symm).1) hinv.childrenOver
    closed := fun hended => by
      rw [TaskGroup.unfinished_finish, not_and_or, not_not] at hended
      exact hended.elim (fun heq => hserve heq.symm) hinv.closed
    starting := fun h => absurd h hactive.ne_starting
    stopping := fun exitCode h => absurd hunfinished ((hinv.stopping exitCode h).1 task)
    asked := fun hasked => by
      by_cases hraised : outcome.error?.isSome
      · obtain ⟨error, herror⟩ := Option.isSome_iff_exists.mp hraised
        rw [TaskGroup.errors_finish, herror]
        simp
      · have hother : RunTask.cancelWorkers ≠ task := by
          rintro rfl
          rw [Run.Asked, TaskGroup.tasks_finish_self] at hasked
          cases hasked
        apply List.append_ne_nil_of_left_ne_nil
        rcases TaskGroup.tasks_finish_of_ne outcome hunfinished hother with hsame | ⟨hsome, -⟩
        · exact hinv.asked (hsame.symm.trans hasked)
        · exact absurd hsome hraised
    workers := fun hended other => by
      rw [TaskGroup.unfinished_finish, not_and_or, not_not] at hended
      rcases hended with heq | hended
      · by_cases hother : other = .cancelWorkers
        · rw [Run.Free, hother, heq, TaskGroup.tasks_finish_self]
          exact nofun
        · exact TaskGroup.finish_ne_free hunfinished (hworkers heq.symm other hother)
      · exact TaskGroup.finish_ne_free hunfinished (hinv.workers hended other)
    spawnRaised := fun hspawn hended => by
      rw [TaskGroup.unfinished_finish, not_and_or, not_not] at hended
      rcases hended with heq | hended
      · obtain ⟨error, herror⟩ := Option.isSome_iff_exists.mp ((hsupervise heq.symm).2 hspawn)
        rw [TaskGroup.errors_finish, herror]
        simp
      · exact List.append_ne_nil_of_left_ne_nil (hinv.spawnRaised hspawn hended) _
    returned := fun exitCode h => absurd h (hactive.ne_returned exitCode) }

/-- Asking the workers to end. -/
theorem RunInv.cancel (hinv : RunInv config run) :
    RunInv config { run with group := run.group.cancel (· ≠ RunTask.cancelWorkers) } :=
  { hinv with
    childrenOver := fun hended => hinv.childrenOver (by rwa [TaskGroup.unfinished_cancel] at hended)
    closed := fun hended => hinv.closed (by rwa [TaskGroup.unfinished_cancel] at hended)
    stopping := fun exitCode h => (hinv.stopping exitCode h).imp_left fun hended task => by
      rw [TaskGroup.unfinished_cancel]
      exact hended task
    asked := hinv.asked
    workers := fun hended task => by
      rw [TaskGroup.unfinished_cancel] at hended
      exact TaskGroup.cancel_ne_free (.inr (hinv.workers hended task))
    spawnRaised := fun hspawn hended =>
      hinv.spawnRaised hspawn (by rwa [TaskGroup.unfinished_cancel] at hended) }

/-- **One step.** -/
theorem RunInv.step (hinv : RunInv config run) (step : RunStep config run action es run') :
    RunInv config run' := by
  cases step with
  | started hstarting =>
    exact
      { hinv with
        starting := nofun
        inGroup := fun _ => by
          rw [(hinv.starting hstarting).1]
          rfl
        stopping := nofun
        returned := nofun }
  | contractMissing hstarting =>
    obtain ⟨hsupervisor, hipc⟩ := hinv.starting hstarting
    exact
      { hinv with
        starting := nofun
        inGroup := nofun
        stopping := nofun
        returned := fun _ _ => by
          rw [hsupervisor, hipc]
          exact ⟨rfl, nofun⟩ }
  | startFailed hstarting =>
    exact { hinv with starting := nofun, inGroup := nofun, stopping := nofun, returned := nofun }
  | tick hactive hmonitor hsupervisor =>
    exact (hinv.monitored hactive hmonitor nofun).supervised hactive hsupervisor nofun nofun
  | monitor hactive hmay hmonitor =>
    refine hinv.monitored hactive hmonitor ?_
    rintro rfl
    exact hmay.1
  | loopRaised hactive hmay hmonitor hraises hunfinished =>
    refine (hinv.monitored hactive hmonitor ?_).finish hactive hunfinished nofun nofun nofun
    rintro rfl
    exact hmay.1
  | @supervised action es supervisor hactive hmay hstep =>
    refine hinv.supervised hactive (supervisorStep_of_step hstep) (fun hchild => ?_) ?_
    · cases action with
      | cancel => exact hmay.1
      | run => exact hmay
      | spawnReturns => exact hmay
      | spawnFails => exact hmay
      | waitReturns => exact hmay
      | backoffEnds => exact hmay
      | _ => cases hchild
    · rintro rfl
      exact hmay
  | spawnCancelled hactive hasked hget => exact hinv.endSpawning hactive hasked.1 hget
  | spawnRaised hactive hunfinished hat =>
    exact
      { hinv.endSpawning hactive hunfinished hat.child with
        spawnRaised := fun _ hended => absurd hunfinished hended }
  | signalled => exact hinv.frame rfl rfl rfl rfl rfl
  | stoppedAccepting => exact hinv.frame rfl rfl rfl rfl rfl
  | ended hactive hunfinished hends =>
    refine hinv.finish hactive hunfinished ?_ ?_ ?_
    · rintro rfl
      cases hends with
      | serve _ hclosed => exact hclosed
    · rintro rfl
      cases hends with
      | supervise hover => exact ⟨hover, fun hspawn => by rw [if_pos hspawn]; rfl⟩
    · rintro rfl
      cases hends with
      | cancelWorkers hasked => exact fun other _ => run.group.asked (hinv.asked hasked) other
  | workersAsked hactive _ hunfinished =>
    refine hinv.cancel.finish hactive hunfinished nofun nofun fun _ other hother => ?_
    exact TaskGroup.cancel_ne_free (.inl hother)
  | leftGroup hinGroup hended hstep =>
    exact
      { hinv with
        children := by
          rw [hstep.children_eq id]
          exact hinv.children
        table := hinv.table.step (nodup_names_buildSenderSpecs _) hstep
        covered := hinv.covered.step hinv.table hstep trivial
        childrenOver := fun hsupervise => by
          rw [hstep.children_eq id]
          exact hinv.childrenOver hsupervise
        starting := nofun
        inGroup := nofun
        stopping := fun _ _ => by
          refine ⟨hended, ?_⟩
          cases hstep with
          | shutdownCalled => exact callShutdown_ne_notCalled _
        reaping := hstep.reaping_ne_nil hinv.reaping
        returned := nofun }
  | returned hstopping hshutdown =>
    exact
      { hinv with
        starting := nofun
        inGroup := nofun
        stopping := nofun
        returned := fun _ _ => by
          refine ⟨?_, hinv.closed ((hinv.stopping _ hstopping).1 .serve)⟩
          have hcovered := hinv.covered
          unfold Covered at hcovered
          rwa [hshutdown] at hcovered }
  | unlinkFailed =>
    exact { hinv with starting := nofun, inGroup := nofun, stopping := nofun, returned := nofun }

theorem RunInv.of_runs {tr : List RunEvent} (runs : (Run.machine config).Runs tr run) :
    RunInv config run :=
  runs.invariant_state .initial fun _ _ _ _ hinv hstep => hinv.step (runStep_of_step hstep)

end Invariant

/-! ### What the trace of a run says -/

/-- The incoming loop was ended by this exception. -/
abbrev RunEvent.loopRaised (error : PyError) : RunEvent := .monitor (.service (.core (.loopRaised error)))

/-- An exception of the incoming loop is seen in its step. -/
theorem loopError_of_mem {config : MonitorConfig} {monitor monitor' : Monitor} {action : MonitorAction}
    {es : List MonitorEvent} (step : MonitorStep config monitor action es monitor') {error : PyError}
    (h : .service (.core (.loopRaised error)) ∈ es) : loopError (es.map .monitor) = some error := by
  have hcore {core core' : Core} {action : CoreAction} {events : List CoreEvent}
      (hstep : CoreStep config.pb config.dispatcher core action events core')
      (h : .loopRaised error ∈ events) : events = [.loopRaised error] := by
    cases hstep with
    | loopRaised => rw [List.mem_singleton.mp h]
    | _ => simp at h
  cases step with
  | @service _ _ es _ _ hservice =>
    have h : .core (.loopRaised error) ∈ es := by simpa using h
    cases serviceStep_of_step hservice with
    | ipc => simp at h
    | process _ hstep =>
      rw [hcore hstep (by simpa using h)]
      rfl
    | send hstep =>
      rw [hcore hstep (by simpa using h)]
      rfl
    | core _ hstep =>
      rw [hcore hstep (by simpa using h)]
      rfl
  | _ => simp at h

theorem mem_of_loopError {es : List MonitorEvent} {error : PyError}
    (h : loopError (es.map .monitor) = some error) : .service (.core (.loopRaised error)) ∈ es := by
  obtain ⟨event, hevent, heq⟩ := List.exists_of_findSome?_eq_some h
  split at heq
  · obtain rfl := Option.some.inj heq
    obtain ⟨event', hmem, hmonitor⟩ := List.mem_map.mp hevent
    rwa [RunEvent.monitor.inj hmonitor] at hmem
  · cases heq

/-- The event of the monitor, if it is one. -/
def RunEvent.monitor? : RunEvent → Option MonitorEvent
  | .monitor event => some event
  | _ => none

/-- What a task that has raised has met. -/
def RaisedFor (tr : List RunEvent) : RunTask → RunError → Prop
  | .serve, .os | .detection, .os => True
  | .supervise, .spawn => ∃ name, .spawnRaised name ∈ tr
  | .incoming, .message error => .loopRaised error ∈ tr
  | _, _ => False

/-- What the trace of a run has of its group. -/
structure RunTrace (tr : List RunEvent) (run : Run) : Prop where
  signalled : run.shutdownEvent = true ↔ .shutdownSignalReceived ∈ tr
  spawnRaised : run.spawnRaised = true ↔ ∃ name, .spawnRaised name ∈ tr
  ended : ∀ task, ¬ (run.group.tasks task).Unfinished → ∃ outcome, .ended task outcome ∈ tr
  raised : ∀ task error, .ended task (.raised error) ∈ tr ↔ (task, error) ∈ run.group.errors
  causes : ∀ task error, (task, error) ∈ run.group.errors → RaisedFor tr task error
  loopRaised : ∀ error, .loopRaised error ∈ tr → (.incoming, .message error) ∈ run.group.errors
  /-- The task that waits for the signal was asked to end by the group, or has seen the signal. -/
  waited : ¬ (run.group.tasks .cancelWorkers).Unfinished →
    run.group.errors ≠ [] ∨ run.shutdownEvent = true
  exitCode : ∀ exitCode, run.phase = .stopping exitCode →
    exitCode = if run.group.errors = [] then 0 else 1
  processes : ∀ name process, .supervisor (.spawnReturned name process) ∈ tr →
    process ∈ run.supervisor.alive ∨ .supervisor (.exited process) ∈ tr

section Trace

variable {config : RunConfig} {tr : List RunEvent} {run run' : Run} {action : RunAction}
  {es : List RunEvent}

theorem RunTrace.initial : RunTrace [] (Run.initial config) where
  signalled := ⟨nofun, nofun⟩
  spawnRaised := ⟨nofun, nofun⟩
  ended _ h := absurd trivial h
  raised _ _ := ⟨nofun, nofun⟩
  causes _ _ := nofun
  loopRaised _ := nofun
  waited h := absurd trivial h
  exitCode _ := nofun
  processes _ _ := nofun

theorem RaisedFor.mono {task : RunTask} {error : RunError} (h : RaisedFor tr task error)
    (es : List RunEvent) : RaisedFor (tr ++ es) task error := by
  unfold RaisedFor at h ⊢
  split at h
  · trivial
  · trivial
  · exact h.imp fun _ => List.mem_append_left _
  · exact List.mem_append_left _ h
  · exact h.elim

/-- What ends a task by its own steps is what it may raise. -/
theorem Run.Ends.raisedFor {task : RunTask} {outcome : TaskOutcome RunError} (h : run.Ends task outcome)
    (hspawn : run.spawnRaised = true → ∃ name, .spawnRaised name ∈ tr) {error : RunError}
    (heq : outcome.error? = some error) : RaisedFor tr task error := by
  cases h with
  | serve =>
    split_ifs at heq
    · cases heq
    · obtain rfl := Option.some.inj heq
      trivial
  | supervise =>
    split_ifs at heq with hraised
    · obtain rfl := Option.some.inj heq
      exact hspawn hraised
    · cases heq
    · cases heq
  | detectionFailed =>
    obtain rfl := Option.some.inj heq
    trivial
  | _ => cases heq

/-- The end of a task, after what the monitor has done in the same step. -/
theorem RunTrace.finish (h : RunTrace tr run) {task : RunTask} {outcome : TaskOutcome RunError}
    (events : List MonitorEvent) (monitor : Monitor) (hunfinished : (run.group.tasks task).Unfinished)
    (hcause : ∀ error, outcome.error? = some error → RaisedFor (tr ++ events.map .monitor) task error)
    (hloop : ∀ error, .service (.core (.loopRaised error)) ∈ events →
      task = .incoming ∧ outcome = .raised (.message error))
    (hwaited : task = .cancelWorkers → run.group.errors ≠ [] ∨ run.shutdownEvent = true)
    (hphase : ∀ exitCode, run.phase ≠ .stopping exitCode) :
    RunTrace (tr ++ (events.map .monitor ++ [.ended task outcome]))
      { run with monitor := monitor, group := run.group.finish task outcome hunfinished } := by
  have hne (hne : run.group.errors ≠ []) : (run.group.finish task outcome hunfinished).errors ≠ [] :=
    List.append_ne_nil_of_left_ne_nil hne _
  constructor
  · rw [List.mem_append, ← h.signalled]
    exact (or_iff_left (by simp)).symm
  · rw [h.spawnRaised]
    simp
  · intro other hended
    rw [TaskGroup.unfinished_finish, not_and_or, not_not] at hended
    rcases hended with rfl | hended
    · exact ⟨outcome, by simp⟩
    · exact (h.ended other hended).imp fun _ => List.mem_append_left _
  · intro other error
    have hnew : .ended other (.raised error) ∈ events.map RunEvent.monitor ++ [.ended task outcome] ↔
        (other, error) ∈ outcome.error?.toList.map (Prod.mk task) := by
      cases outcome <;> simp [TaskOutcome.error?, eq_comm]
    rw [List.mem_append, h.raised, hnew, TaskGroup.errors_finish, List.mem_append]
  · intro other error hmem
    rw [← List.append_assoc]
    rw [TaskGroup.errors_finish, List.mem_append] at hmem
    rcases hmem with hmem | hmem
    · exact ((h.causes other error hmem).mono _).mono _
    · obtain ⟨_, herror, hpair⟩ := List.mem_map.mp hmem
      obtain ⟨rfl, rfl⟩ := Prod.mk.inj hpair
      exact (hcause _ (Option.mem_toList.mp herror)).mono _
  · intro error hmem
    rw [TaskGroup.errors_finish, List.mem_append]
    rcases List.mem_append.mp hmem with hmem | hmem
    · exact .inl (h.loopRaised error hmem)
    · obtain ⟨rfl, rfl⟩ := hloop error (by simpa using hmem)
      exact .inr List.mem_cons_self
  · intro hended
    rw [TaskGroup.unfinished_finish, not_and_or, not_not] at hended
    rcases hended with heq | hended
    · exact (hwaited heq.symm).imp_left hne
    · exact (h.waited hended).imp_left hne
  · exact fun exitCode hstopping => absurd hstopping (hphase exitCode)
  · intro name process hmem
    have hold : .supervisor (.spawnReturned name process) ∈ tr := by simpa using hmem
    exact (h.processes name process hold).imp_right (List.mem_append_left _)

/-- A step that ends no task. -/
theorem RunTrace.frame (h : RunTrace tr run) (hgroup : run'.group = run.group)
    (hevent : run'.shutdownEvent = true ↔ run.shutdownEvent = true ∨ .shutdownSignalReceived ∈ es)
    (hspawn : run'.spawnRaised = true ↔ run.spawnRaised = true ∨ ∃ name, .spawnRaised name ∈ es)
    (hended : ∀ task outcome, .ended task outcome ∉ es) (hloop : ∀ error, .loopRaised error ∉ es)
    (hphase : ∀ exitCode, run'.phase = .stopping exitCode → run.phase = .stopping exitCode ∨
      exitCode = if run.group.errors = [] then 0 else 1)
    (hprocesses : ∀ name process, .supervisor (.spawnReturned name process) ∈ es →
      process ∈ run'.supervisor.alive)
    (halive : ∀ process ∈ run.supervisor.alive, process ∈ run'.supervisor.alive ∨
      .supervisor (.exited process) ∈ es) : RunTrace (tr ++ es) run' := by
  constructor
  · rw [hevent, h.signalled, List.mem_append]
  · rw [hspawn, h.spawnRaised, ← exists_or]
    simp only [List.mem_append]
  · intro task htask
    rw [hgroup] at htask
    exact (h.ended task htask).imp fun _ => List.mem_append_left _
  · intro task error
    rw [List.mem_append, hgroup, h.raised]
    exact or_iff_left (hended task _)
  · intro task error hmem
    rw [hgroup] at hmem
    exact (h.causes task error hmem).mono es
  · intro error hmem
    rw [hgroup]
    exact h.loopRaised error ((List.mem_append.mp hmem).resolve_right (hloop error))
  · intro htask
    rw [hgroup] at htask ⊢
    exact (h.waited htask).imp_right fun h' => hevent.mpr (.inl h')
  · intro exitCode hstopping
    rw [hgroup]
    exact (hphase exitCode hstopping).elim (h.exitCode exitCode) id
  · intro name process hmem
    rcases List.mem_append.mp hmem with hmem | hmem
    · rcases h.processes name process hmem with halive' | hexited
      · exact (halive process halive').imp_right (List.mem_append_right _)
      · exact .inr (List.mem_append_left _ hexited)
    · exact .inl (hprocesses name process hmem)

/-- A task ends in the group only. -/
theorem RunInv.ne_stopping (hinv : RunInv config run) {task : RunTask}
    (hunfinished : (run.group.tasks task).Unfinished) (exitCode : ℕ) :
    run.phase ≠ .stopping exitCode :=
  fun hstopping => (hinv.stopping exitCode hstopping).1 task hunfinished

theorem RunTrace.step (h : RunTrace tr run) (hinv : RunInv config run)
    (step : RunStep config run action es run') : RunTrace (tr ++ es) run' := by
  cases step with
  | started | contractMissing | startFailed =>
    exact h.frame rfl (by simp) (by simp) (by simp) (by simp) nofun (by simp) fun _ hmem => .inl hmem
  | tick _ _ hsupervisor =>
    refine h.frame rfl (by simp) (by simp) (by simp) (by simp) (fun _ => .inl) (by simp)
      fun process hmem => ?_
    exact (hsupervisor.alive.2 process hmem).imp_right nofun
  | monitor _ _ hmonitor hnoError =>
    refine h.frame rfl (by simp) (by simp) (by simp) (fun error hmem => ?_) (fun _ => .inl) (by simp)
      fun _ hmem => .inl hmem
    rw [loopError_of_mem (monitorStep_of_step hmonitor) (by simpa using hmem)] at hnoError
    cases hnoError
  | @loopRaised _ events monitor error _ _ hmonitor hraises hunfinished =>
    refine h.finish events monitor hunfinished ?_ ?_ nofun (hinv.ne_stopping hunfinished)
    · rintro _ ⟨⟩
      exact List.mem_append_right _ (List.mem_map_of_mem (mem_of_loopError hraises))
    · intro error' hmem
      have hsame := loopError_of_mem (monitorStep_of_step hmonitor) hmem
      obtain rfl := Option.some.inj (hraises.symm.trans hsame)
      exact ⟨rfl, rfl⟩
  | supervised _ _ hstep =>
    refine h.frame rfl (by simp) (by simp) (by simp) (by simp) (fun _ => .inl) (fun name process hmem => ?_)
      fun process hmem => ?_
    · exact (supervisorStep_of_step hstep).alive.1 name process (by simpa using hmem)
    · exact ((supervisorStep_of_step hstep).alive.2 process hmem).imp_right List.mem_map_of_mem
  | spawnCancelled | spawnRaised | signalled | stoppedAccepting =>
    exact h.frame rfl (by simp) (by simp) (by simp) (by simp) (fun _ => .inl) (by simp)
      fun _ hmem => .inl hmem
  | ended _ hunfinished hends =>
    refine h.finish [] run.monitor hunfinished ?_ nofun ?_
      (hinv.ne_stopping hunfinished)
    · refine fun error heq => hends.raisedFor (fun hspawn => ?_) heq
      exact (h.spawnRaised.mp hspawn).imp fun _ => List.mem_append_left _
    · rintro rfl
      cases hends with
      | cancelWorkers hasked => exact .inl (hinv.asked hasked)
  | workersAsked _ hsignalled hunfinished =>
    have hcancelled : RunTrace tr
        { run with group := run.group.cancel (· ≠ RunTask.cancelWorkers) } := by
      refine ⟨h.signalled, h.spawnRaised, fun task htask => ?_, h.raised, h.causes, h.loopRaised,
        fun htask => ?_, h.exitCode, h.processes⟩
      · rw [TaskGroup.unfinished_cancel] at htask
        exact h.ended task htask
      · rw [TaskGroup.unfinished_cancel] at htask
        exact h.waited htask
    refine hcancelled.finish [] run.monitor hunfinished nofun nofun (fun _ => .inr hsignalled) ?_
    rw [TaskGroup.unfinished_cancel] at hunfinished
    exact hinv.ne_stopping hunfinished
  | leftGroup _ _ hstep =>
    refine h.frame rfl (by simp) (by simp) (by simp) (by simp) (fun exitCode hstopping => ?_)
      (fun name process hmem => ?_) fun process hmem => ?_
    · exact .inr (RunPhase.stopping.inj hstopping).symm
    · exact hstep.alive.1 name process (by simpa using hmem)
    · exact (hstep.alive.2 process hmem).imp_right List.mem_map_of_mem
  | returned | unlinkFailed =>
    exact h.frame rfl (by simp) (by simp) (by simp) (by simp) nofun (by simp) fun _ hmem => .inl hmem

theorem RunTrace.of_runs (runs : (Run.machine config).Runs tr run) : RunTrace tr run :=
  runs.invariant .initial fun _ _ _ _ _ runs₀ h _ hstep =>
    h.step (RunInv.of_runs runs₀) (runStep_of_step hstep)

/-- **A run runs the monitor.** -/
theorem monitor_runs (runs : (Run.machine config).Runs tr run) :
    (Monitor.machine config.monitor).Runs (tr.filterMap RunEvent.monitor?) run.monitor := by
  have hmap (es : List MonitorEvent) : (es.map RunEvent.monitor).filterMap RunEvent.monitor? = es := by
    apply filterMap_map_eq_self
    exact fun _ => rfl
  have hnone (es : List SupervisorEvent) :
      (es.map RunEvent.supervisor).filterMap RunEvent.monitor? = [] :=
    filterMap_map_eq_nil (fun _ => rfl) es
  apply runs.project Run.monitor
  · rfl
  · intro tr run action run' es _ hstep
    cases runStep_of_step hstep with
    | @tick seconds _ _ _ hmonitor => exact .inl ⟨.tick seconds, trivial, hmonitor⟩
    | @monitor action _ _ _ _ hmonitor =>
      rw [hmap]
      exact .inl ⟨action, trivial, hmonitor⟩
    | @loopRaised action _ _ error _ _ hmonitor =>
      have hended : [RunEvent.ended .incoming (.raised (.message error))].filterMap RunEvent.monitor?
          = [] := rfl
      rw [List.filterMap_append, hmap, hended, List.append_nil]
      exact .inl ⟨action, trivial, hmonitor⟩
    | supervised => exact .inr ⟨rfl, hnone _⟩
    | leftGroup => exact .inr ⟨rfl, hnone _⟩
    | _ => exact .inr ⟨rfl, rfl⟩

/-- The two ways in which `run` returns. -/
theorem RunStep.of_returned (step : RunStep config run action es run') {before after : List RunEvent}
    {exitCode : ℕ} (hes : es = before ++ .returned exitCode :: after) :
    after = [] ∧ run'.phase = .returned exitCode ∧
      (before = [.protoContractMissing] ∧ exitCode = 1 ∨
        before = [] ∧ run.phase = .stopping exitCode) := by
  have hmem : .returned exitCode ∈ es := by
    rw [hes]
    exact List.mem_append_right _ List.mem_cons_self
  cases step with
  | contractMissing =>
    rcases before with _ | ⟨event, _ | ⟨event', before⟩⟩
    · simp at hes
    · obtain ⟨rfl, rfl, rfl⟩ : _ ∧ _ ∧ _ := by simpa using hes
      exact ⟨rfl, rfl, .inl ⟨rfl, rfl⟩⟩
    · simp at hes
  | returned hstopping =>
    rcases before with _ | ⟨event, before⟩
    · obtain ⟨rfl, rfl⟩ : _ ∧ _ := by simpa using hes
      exact ⟨rfl, rfl, .inr ⟨rfl, hstopping⟩⟩
    · simp at hes
  | _ => simp at hmem

/-- Nothing happens after `run` has returned. -/
theorem eq_nil_of_returned (runs : (Run.machine config).Runs tr run) {pre post : List RunEvent}
    {exitCode : ℕ} (htr : tr = pre ++ .returned exitCode :: post) :
    post = [] ∧ run.phase = .returned exitCode := by
  refine runs.invariant (I := fun tr run => ∀ pre exitCode post,
    tr = pre ++ .returned exitCode :: post → post = [] ∧ run.phase = .returned exitCode)
    (fun pre exitCode post h => by simp at h)
    (fun tr run action run' es _ hinv _ hstep pre exitCode post htr => ?_) pre exitCode post htr
  have step := runStep_of_step hstep
  rcases List.append_eq_append_iff.mp htr with ⟨mid, -, hes⟩ | ⟨mid, hpre, hpost⟩
  · exact (step.of_returned hes).imp_right And.left
  · rcases mid with _ | ⟨event, mid⟩
    · have hes : es = [] ++ .returned exitCode :: post := hpost.symm
      exact (step.of_returned hes).imp_right And.left
    · -- it had returned before
      obtain ⟨rfl, -⟩ := List.cons.inj hpost
      have hphase := (hinv pre exitCode mid hpre).2
      have hnone : (Run.machine config).step run action = none := by
        show Run.step config run action = none
        unfold Run.step
        rw [hphase]
      rw [hnone] at hstep
      cases hstep

/-- **Nothing is left running.**  In every run of the program that has returned, each process that was
started has exited, and each connection that was accepted is closed, however the group came to its end. -/
theorem run_leaves_nothing_running (runs : (Run.machine config).Runs tr run) {exitCode : ℕ}
    (hreturned : run.phase = .returned exitCode) :
    (∀ name process, .supervisor (.spawnReturned name process) ∈ tr →
      .supervisor (.exited process) ∈ tr) ∧
    (∀ connection handler, run.monitor.service.ipc.handlers connection = some handler →
      handler.phase = .closed) := by
  obtain ⟨halive, hclosed⟩ := (RunInv.of_runs runs).returned exitCode hreturned
  have hserver := ServerInv.of_runs (ipcTrace_runs (service_runs (monitor_runs runs)))
  constructor
  · intro name process hmem
    refine ((RunTrace.of_runs runs).processes name process hmem).resolve_left ?_
    rw [halive]
    exact List.not_mem_nil
  · intro connection handler hhandler
    refine hclosed connection ?_ handler hhandler
    by_contra hle
    rw [hserver.fresh connection (not_lt.mp hle)] at hhandler
    cases hhandler

/-- **The exit code says why.**  Where a run of the program returns, it does nothing more, and either the
contract was missing, or each task of the group has ended and the code says how:

* `0`: a signal was received and no task has raised, so that no message has ended the incoming loop;
* `1`: a task has raised, because of an `OSError`, of such a message, or of another exception of `spawn`. -/
theorem exit_code_says_why (runs : (Run.machine config).Runs tr run) {pre post : List RunEvent}
    {exitCode : ℕ} (htr : tr = pre ++ .returned exitCode :: post) :
    post = [] ∧ (.protoContractMissing ∈ pre ∧ exitCode = 1 ∨
      (∀ task, ∃ outcome, .ended task outcome ∈ pre) ∧
      (exitCode = 0 ∧ .shutdownSignalReceived ∈ pre ∧
          (∀ task error, .ended task (.raised error) ∉ pre) ∧ (∀ error, .loopRaised error ∉ pre) ∨
        exitCode = 1 ∧ ∃ task error, .ended task (.raised error) ∈ pre ∧ RaisedFor pre task error)) := by
  refine ⟨(eq_nil_of_returned runs htr).1, ?_⟩
  obtain ⟨tr₀, run₀, action, run₁, es, before, after, runs₀, -, hstep, hes, rfl⟩ :=
    runs.exists_step_of_split htr
  obtain ⟨-, -, ⟨rfl, rfl⟩ | ⟨rfl, hstopping⟩⟩ := (runStep_of_step hstep).of_returned hes
  · exact .inl ⟨by simp, rfl⟩
  · have htrace := RunTrace.of_runs runs₀
    have hended := ((RunInv.of_runs runs₀).stopping exitCode hstopping).1
    have hcode := htrace.exitCode exitCode hstopping
    rw [List.append_nil]
    refine .inr ⟨fun task => htrace.ended task (hended task), ?_⟩
    by_cases herrors : run₀.group.errors = []
    · rw [if_pos herrors] at hcode
      refine .inl ⟨hcode, ?_, fun task error hmem => ?_, fun error hmem => ?_⟩
      · exact htrace.signalled.mp ((htrace.waited (hended _)).resolve_left (absurd herrors))
      · have hmem := (htrace.raised task error).mp hmem
        rw [herrors] at hmem
        cases hmem
      · have hmem := htrace.loopRaised error hmem
        rw [herrors] at hmem
        cases hmem
    · rw [if_neg herrors] at hcode
      obtain ⟨⟨task, error⟩, hmem⟩ := List.exists_mem_of_ne_nil _ herrors
      exact .inr ⟨hcode, task, error, (htrace.raised task error).mpr hmem, htrace.causes task error hmem⟩

end Trace

/-! ### A run to its end -/

def oneSenderConfig : RunConfig where
  app :=
    { paths := ⟨inbox, .parse ['/', 's']⟩
      pacing := ⟨1, 1⟩
      fec := ⟨1, 2, 1⟩
      senders := ⟨"127.0.0.1", 9000, "sender", 1⟩ }
  pb := .ofTable [(.senderHello 7 [], [0])]
  expectedProtoHash := []
  maxQueuedEvents := 1
  entries := ∅

/-- One sender is started, and a peer says hello. -/
def startedActions : List RunAction :=
  [.start true, .supervisor (.run 0), .supervisor (.spawnReturns 0), .monitor (.service .accept),
    .monitor (.service (.peer 0 (.peerSends [0]))), .monitor (.service (.peer 0 .recv)),
    .monitor (.service .process)]

/-- A signal ends the group; the process does not exit before it is killed. -/
def signalledActions : List RunAction :=
  startedActions ++
    [.signal, .ends .cancelWorkers, .stopAccepting, .monitor (.service (.peer 0 .cancel)), .ends .serve,
      .ends .incoming, .ends .detection, .supervisor (.cancel 0), .ends .supervise, .leaveGroup,
      .tick shutdownTimeoutSeconds, .supervisor .graceEnds, .supervisor .killRemaining,
      .supervisor (.exits 0), .supervisor .reap, .returns]

/-- A message that does not parse ends the group. -/
def unparsedActions : List RunAction :=
  startedActions ++
    [.monitor (.service (.peer 0 (.peerSends [1]))), .monitor (.service (.peer 0 .recv)),
      .monitor (.service .process), .ends .cancelWorkers, .stopAccepting,
      .monitor (.service (.peer 0 .cancel)), .ends .serve, .ends .detection, .supervisor (.cancel 0),
      .ends .supervise, .leaveGroup, .supervisor (.exits 0), .supervisor .graceEnds,
      .supervisor .killRemaining, .supervisor .reap, .returns]

def startedTrace : List RunEvent :=
  [.supervisor (.spawnStarted ⟨"sender-0", ["sender", "--sender-id", "0"], none⟩),
    .supervisor (.spawnReturned "sender-0" 0), .monitor (.service (.ipc (.peer 0 (.received [0])))),
    .monitor (.service (.ipc (.peer 0 (.handshaken 7)))),
    .monitor (.service (.ipc (.peer 0 (.enqueued 7 [0])))),
    .monitor (.service (.ipc (.taken ⟨0, 7, [0]⟩))), .monitor (.service (.core (.handled 7 [0])))]

def signalledTrace : List RunEvent :=
  startedTrace ++
    [.shutdownSignalReceived, .ended .cancelWorkers .returned,
      .monitor (.service (.ipc (.peer 0 .cleanedUp))), .ended .serve .cancelled,
      .ended .incoming .cancelled, .ended .detection .cancelled, .ended .supervise .cancelled,
      .supervisor .shutdownCalled, .supervisor (.terminated 0), .supervisor (.killed 0),
      .supervisor (.exited 0), .supervisor .shutdownReturned, .returned 0]

def unparsedTrace : List RunEvent :=
  startedTrace ++
    [.monitor (.service (.ipc (.peer 0 (.received [1])))),
      .monitor (.service (.ipc (.peer 0 (.enqueued 7 [1])))),
      .monitor (.service (.ipc (.taken ⟨0, 7, [1]⟩))), .loopRaised (.protobuf "Error parsing message"),
      .ended .incoming (.raised (.message (.protobuf "Error parsing message"))),
      .ended .cancelWorkers .cancelled, .monitor (.service (.ipc (.peer 0 .cleanedUp))),
      .ended .serve .cancelled, .ended .detection .cancelled, .ended .supervise .cancelled,
      .supervisor .shutdownCalled, .supervisor (.terminated 0), .supervisor (.exited 0),
      .supervisor (.killed 0), .supervisor .shutdownReturned, .returned 1]

theorem run_leaves_nothing_running_signalled :
    .supervisor (.exited 0) ∈ signalledTrace := by
  obtain ⟨run, runs, hexec⟩ := EventMachine.exists_runsUnder_of_map_eq
    (show ((Run.machine oneSenderConfig).run signalledActions).map Prod.fst = some signalledTrace
      by decide +kernel)
  have hphase : ((Run.machine oneSenderConfig).run signalledActions).map (fun result =>
      decide (result.2.phase = .returned 0)) = some true := by decide +kernel
  have hreturned : run.phase = .returned 0 := by
    rw [EventMachine.run, hexec, Option.map_some, Option.some.injEq, decide_eq_true_iff] at hphase
    exact hphase
  exact (run_leaves_nothing_running runs hreturned).1 "sender-0" 0 (by decide +kernel)

theorem exit_code_says_why_unparsed : ∃ task error,
    .ended task (.raised error) ∈ unparsedTrace.dropLast ∧ RaisedFor unparsedTrace.dropLast task error := by
  obtain ⟨run, runs, -⟩ := EventMachine.exists_runsUnder_of_map_eq
    (show ((Run.machine oneSenderConfig).run unparsedActions).map Prod.fst = some unparsedTrace
      by decide +kernel)
  have hsplit : unparsedTrace = unparsedTrace.dropLast ++ .returned 1 :: [] := rfl
  obtain ⟨-, ⟨hmissing, -⟩ | ⟨-, ⟨hzero, -⟩ | ⟨-, hraised⟩⟩⟩ := exit_code_says_why runs hsplit
  · exact absurd hmissing (by decide +kernel)
  · exact absurd hzero (by decide)
  · exact hraised

end FileMonitor
