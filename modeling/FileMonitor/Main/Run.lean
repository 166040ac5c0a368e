import FileMonitor.Config
import FileMonitor.Library.TaskGroup
import FileMonitor.Main.Monitor
import FileMonitor.Supervision.Supervisor
import Mathlib.Data.Fintype.Basic

/-!
# A run of the program

`run` as a machine: the task group with the server, the supervisor, the two loops and the task that waits
for a signal, and, after the group, the shutdown of the supervisor.  A task that was asked to end takes no
more steps than those of its `finally` blocks.  The generator of the watcher is closed at some time after
the task of the pipeline has ended: at once, or, where that task was in a dispatch, when the event loop
gets to it.
-/

namespace FileMonitor

/-- `_build_sender_specs`. -/
def buildSenderSpecs (senders : SendersConfig) : List ChildSpec :=
  (List.range senders.senderCount.toNat).map fun index =>
    { name := "sender-" ++ toString index
      argv := [senders.binaryPath, "--sender-id", toString index]
      env := none }

/-- What a `run` is given. -/
structure RunConfig where
  app : AppConfig
  pb : Protobuf
  /-- `handshake.compute_proto_hash(proto_dir)`. -/
  expectedProtoHash : Bytes
  maxQueuedEvents : ℕ
  entries : Finset PathComponent

namespace RunConfig

variable (config : RunConfig)

/-- The arguments of the server, of the watcher and of the dispatcher. -/
def monitor : MonitorConfig where
  pb := config.pb
  dispatcher :=
    { fecParams := config.app.fec
      watchRoot := config.app.paths.watchPath
      targetHost := config.app.senders.targetHost
      basePort := config.app.senders.basePort }
  expectedProtoHash := config.expectedProtoHash
  watchPath := config.app.paths.watchPath
  debounceSeconds := debounceSeconds
  maxQueuedEvents := config.maxQueuedEvents
  entries := config.entries

/-- The arguments of the supervisor. -/
def supervisor : ProcessSupervisor := .ofSpecs (buildSenderSpecs config.app.senders)

end RunConfig

/-! ### The state -/

/-- The tasks of the group, in the order of their creation. -/
inductive RunTask where
  | serve
  | supervise
  | incoming
  | detection
  /-- `_cancel_workers_on_shutdown`. -/
  | cancelWorkers
deriving DecidableEq

instance : Fintype RunTask where
  elems := {.serve, .supervise, .incoming, .detection, .cancelWorkers}
  complete task := by cases task <;> decide

/-- What ends a task of the group. -/
inductive RunError where
  /-- An `OSError` of the socket, of the kernel's queue or of the directory.  Where the socket path has a
  NUL character it is a `ValueError`, and so is what the final `unlink` raises then. -/
  | os
  /-- What a call of `spawn` has raised other than an `OSError`, such as the `ValueError` for a NUL
  character in the path of the binary. -/
  | spawn
  /-- What the incoming loop has raised. -/
  | message (error : PyError)
deriving DecidableEq

/-- Where `run` stands. -/
inductive RunPhase where
  /-- Before the group. -/
  | starting
  | inGroup
  /-- In `supervisor.shutdown()`. -/
  | stopping (exitCode : ℕ)
  | returned (exitCode : ℕ)
  /-- An exception has ended `run`, before the group or in the final `unlink`. -/
  | raised
deriving DecidableEq

/-- A call of `_supervise_child` is over. -/
def ChildPhase.Over : ChildPhase → Prop
  | .returned | .cancelled => True
  | _ => False

instance : DecidablePred ChildPhase.Over := fun phase => by
  cases phase <;> unfold ChildPhase.Over <;> infer_instance

structure Run where
  phase : RunPhase
  group : TaskGroup RunTask RunError
  /-- `serve` has not got to its `finally` block. -/
  accepting : Bool
  monitor : Monitor
  supervisor : SupervisorState
  /-- A child has ended with an exception, so that the supervisor's own group asks the others to end. -/
  spawnRaised : Bool
  /-- `shutdown_event` is set. -/
  shutdownEvent : Bool

inductive RunAction where
  /-- `proto_dir.is_dir()` is evaluated, and `run` goes on to the group or returns. -/
  | start (protoDirExists : Bool)
  | startFails
  | tick (seconds : ℚ)
  | monitor (action : MonitorAction)
  | supervisor (action : SupervisorAction)
  /-- `spawn` is cancelled: it kills the process that it may have started, waits for it and raises. -/
  | cancelSpawn (index : ℕ)
  /-- `spawn` raises another exception than an `OSError`, which ends the task of the child. -/
  | spawnRaises (index : ℕ)
  /-- `SIGTERM` or `SIGINT`. -/
  | signal
  /-- An `OSError` or `CancelledError` gets `serve` to its `finally` block. -/
  | stopAccepting
  /-- The pipeline finds that the file events have failed. -/
  | detectionFails
  /-- A task ends in another way. -/
  | ends (task : RunTask)
  /-- All tasks have ended, and `supervisor.shutdown()` is called. -/
  | leaveGroup
  /-- `run` returns. -/
  | returns
  /-- The final `unlink` raises. -/
  | unlinkFails

inductive RunEvent where
  | protoContractMissing
  | monitor (event : MonitorEvent)
  | supervisor (event : SupervisorEvent)
  /-- `spawn` has raised another exception than an `OSError` for the child with this name. -/
  | spawnRaised (name : String)
  | shutdownSignalReceived
  | ended (task : RunTask) (outcome : TaskOutcome RunError)
  | returned (exitCode : ℕ)
deriving DecidableEq

namespace Run

variable (config : RunConfig)

def initial : Run where
  phase := .starting
  group := .start
  accepting := true
  monitor := .initial config.monitor
  supervisor := config.supervisor.initial
  spawnRaised := false
  shutdownEvent := false

/-- The task runs, and was not asked to end. -/
def Free (run : Run) (task : RunTask) : Prop := run.group.tasks task = .running false

/-- The task runs, and was asked to end. -/
def Asked (run : Run) (task : RunTask) : Prop := run.group.tasks task = .running true

instance (run : Run) (task : RunTask) : Decidable (run.Free task) :=
  inferInstanceAs (Decidable (_ = _))

instance (run : Run) (task : RunTask) : Decidable (run.Asked task) :=
  inferInstanceAs (Decidable (_ = _))

/-- The children of the supervisor were asked to end, with the task of the supervisor or by its own group.
That group ends after its children, so that its task runs. -/
def ChildrenAsked (run : Run) : Prop :=
  (run.group.tasks .supervise).Unfinished ∧ (run.Asked .supervise ∨ run.spawnRaised = true)

instance (run : Run) : Decidable run.ChildrenAsked := by
  unfold ChildrenAsked
  infer_instance

/-- No handler of a connection is left. -/
def AllClosed (ipc : UdsIpcServer) : Prop :=
  ∀ connection < ipc.accepted, ∀ handler ∈ ipc.handlers connection, handler.phase = .closed

instance (ipc : UdsIpcServer) : Decidable (AllClosed ipc) := by
  unfold AllClosed
  infer_instance

/-- The step belongs to a task that may take it, or to none of the group. -/
def MayMonitor (run : Run) : MonitorAction → Prop
  | .detect | .service .send | .service (.core _) => run.Free .detection
  | .service .process => run.Free .incoming
  | .service .accept => run.Free .serve ∧ run.accepting
  -- `serve` cancels the handlers in its `finally` block
  | .service (.peer _ .cancel) => ¬ run.accepting
  | .files _ | .debounce _ | .service (.peer ..) => True
  | .leave => ¬ (run.group.tasks .detection).Unfinished
  | .tick _ => False

instance (run : Run) : DecidablePred run.MayMonitor
  | .detect | .service .send | .service (.core _) => inferInstanceAs (Decidable (run.Free .detection))
  | .service .process => inferInstanceAs (Decidable (run.Free .incoming))
  | .service .accept => inferInstanceAs (Decidable (_ ∧ _))
  | .service (.peer _ action) => by cases action <;> unfold MayMonitor <;> infer_instance
  | .files _ | .debounce _ => .isTrue trivial
  | .leave => inferInstanceAs (Decidable (¬ _))
  | .tick _ => .isFalse id

/-- The step belongs to a task that may take it, to a process, or to `shutdown`. -/
def MaySupervise (run : Run) : SupervisorAction → Prop
  | .run _ | .spawnReturns _ | .spawnFails _ | .waitReturns _ | .backoffEnds _ =>
    (run.group.tasks .supervise).Unfinished
  | .cancel _ => run.ChildrenAsked
  | .exits _ | .graceEnds | .killRemaining | .reap => True
  | .tick _ | .shutdown => False

instance (run : Run) : DecidablePred run.MaySupervise
  | .run _ | .spawnReturns _ | .spawnFails _ | .waitReturns _ | .backoffEnds _ =>
    inferInstanceAs (Decidable (run.group.tasks .supervise).Unfinished)
  | .cancel _ => inferInstanceAs (Decidable run.ChildrenAsked)
  | .exits _ | .graceEnds | .killRemaining | .reap => .isTrue trivial
  | .tick _ | .shutdown => .isFalse id

/-! ### Steps -/

/-- A step of the monitor. -/
def stepMonitor (run : Run) (action : MonitorAction) : Option (Run × List RunEvent) := do
  let (monitor, es) ← run.monitor.step config.monitor action
  pure ({ run with monitor := monitor }, es.map .monitor)

/-- A step of the supervisor. -/
def stepSupervisor (run : Run) (action : SupervisorAction) : Option (Run × List RunEvent) := do
  let (supervisor, es) ← config.supervisor.step run.supervisor action
  pure ({ run with supervisor := supervisor }, es.map .supervisor)

/-- The end of a task. -/
def endTask (run : Run) (task : RunTask) (outcome : TaskOutcome RunError) :
    Option (Run × List RunEvent) :=
  if h : (run.group.tasks task).Unfinished then
    some ({ run with group := run.group.finish task outcome h }, [.ended task outcome])
  else none

/-- The end of the task of a child, in its call of `spawn`. -/
def endSpawning (run : Run) (index : ℕ) : Option Run := do
  let child ← run.supervisor.children[index]?
  match child.phase with
  | .spawning _ =>
    let child := { child with phase := .cancelled }
    some { run with supervisor := ProcessSupervisor.setChild run.supervisor index child }
  | _ => none

/-- What the incoming loop has raised in a step. -/
def loopError (es : List RunEvent) : Option PyError :=
  es.findSome? fun
    | .monitor (.service (.core (.loopRaised error))) => some error
    | _ => none

/-- A task ends, other than the pipeline by an `OSError`. -/
def stepEnds (run : Run) : RunTask → Option (Run × List RunEvent)
  -- in its `finally` block `serve` waits for the handlers, also where it is asked to end then
  | .serve =>
    if ¬ run.accepting ∧ AllClosed run.monitor.service.ipc then
      run.endTask .serve (if run.Asked .serve then .cancelled else .raised .os)
    else none
  -- an exception of a child goes before the cancellation of its group
  | .supervise =>
    if ∀ child ∈ run.supervisor.children, child.phase.Over then
      run.endTask .supervise
        (if run.spawnRaised then .raised .spawn
        else if run.Asked .supervise then .cancelled else .returned)
    else none
  | .incoming => if run.Asked .incoming then run.endTask .incoming .cancelled else none
  | .detection => if run.Asked .detection then run.endTask .detection .cancelled else none
  | .cancelWorkers =>
    if run.Asked .cancelWorkers then run.endTask .cancelWorkers .cancelled
    else if run.shutdownEvent then
      { run with group := run.group.cancel (· ≠ RunTask.cancelWorkers) }.endTask .cancelWorkers .returned
    else none

/-- A step after the start and before the end of `run`. -/
def stepActive (run : Run) : RunAction → Option (Run × List RunEvent)
  | .tick seconds => do
    let (run, _) ← run.stepMonitor config (.tick seconds)
    run.stepSupervisor config (.tick seconds)
  | .monitor action =>
    if run.MayMonitor action then do
      let (run, es) ← run.stepMonitor config action
      match loopError es with
      | none => pure (run, es)
      | some error =>
        -- nothing between the loop and the group catches it
        let (run, ended) ← run.endTask .incoming (.raised (.message error))
        pure (run, es ++ ended)
    else none
  | .supervisor action =>
    if run.MaySupervise action then run.stepSupervisor config action else none
  | .cancelSpawn index =>
    if run.ChildrenAsked then do
      let run ← run.endSpawning index
      pure (run, [])
    else none
  | .spawnRaises index =>
    if (run.group.tasks .supervise).Unfinished then do
      let spec ← config.supervisor.specs[index]?
      let run ← run.endSpawning index
      pure ({ run with spawnRaised := true }, [.spawnRaised spec.name])
    else none
  | .signal => some ({ run with shutdownEvent := true }, [.shutdownSignalReceived])
  | .stopAccepting =>
    if (run.group.tasks .serve).Unfinished ∧ run.accepting then
      some ({ run with accepting := false }, [])
    else none
  | .detectionFails =>
    match run.monitor.service.core.pipeline with
    | .idle =>
      if run.Free .detection ∧ run.monitor.files.phase = .ended then
        run.endTask .detection (.raised .os)
      else none
    | .dispatching .. => none
  | .ends task => run.stepEnds task
  | .leaveGroup =>
    if run.phase = .inGroup ∧ run.group.Ended then do
      let exitCode := if run.group.errors = [] then 0 else 1
      { run with phase := .stopping exitCode }.stepSupervisor config .shutdown
    else none
  | .returns =>
    match run.phase with
    | .stopping exitCode =>
      if run.supervisor.shutdown = .returned then
        some ({ run with phase := .returned exitCode }, [.returned exitCode])
      else none
    | _ => none
  | .unlinkFails =>
    match run.phase with
    | .stopping _ =>
      if run.supervisor.shutdown = .returned then some ({ run with phase := .raised }, []) else none
    | _ => none
  | .start _ | .startFails => none

def step (run : Run) (action : RunAction) : Option (Run × List RunEvent) :=
  match run.phase with
  | .starting =>
    match action with
    | .start true => some ({ run with phase := .inGroup }, [])
    | .start false =>
      some ({ run with phase := .returned 1 }, [.protoContractMissing, .returned 1])
    | .startFails => some ({ run with phase := .raised }, [])
    | _ => none
  | .inGroup | .stopping _ => run.stepActive config action
  | .returned _ | .raised => none

/-- `run` as a machine. -/
def machine : EventMachine Run RunAction RunEvent where
  init := initial config
  step := step config

end Run

end FileMonitor
