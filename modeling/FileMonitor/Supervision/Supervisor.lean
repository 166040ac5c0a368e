import FileMonitor.Library.Dict
import FileMonitor.Library.EventMachine
import FileMonitor.Library.RoundNearest
import Mathlib.Algebra.Order.Ring.Rat
import Mathlib.Data.Finset.Insert

/-!
# The process supervisor

`supervision/supervisor.py` as a machine: one task for each child, in `_supervise_child`, and one call
of `shutdown`, at the granularity of the code between two suspension points.  Processes are numbered in
the order in which `spawn` returns them; a process can exit at any time, `wait` returns only after it
has.  That `terminate` and `kill` find a process already reaped is tolerated, and so leaves no trace.
-/

namespace FileMonitor

/-! ### Constants -/

/-- `DEFAULT_BACKOFF_SCHEDULE_SECONDS`. -/
def defaultBackoffScheduleSeconds : List ℚ := [1, 2, 4, 8, 16, 30]

/-- `CRASH_LOOP_MAX_RESTARTS`. -/
def crashLoopMaxRestarts : ℕ := 5

/-- `CRASH_LOOP_WINDOW_SECONDS`. -/
def crashLoopWindowSeconds : ℚ := 60

/-- `SHUTDOWN_TIMEOUT_SECONDS`. -/
def shutdownTimeoutSeconds : ℚ := 5

/-! ### The state -/

/-- The difference of two floats, such as two readings of the clock. -/
def floatSub (a b : ℚ) : ℚ := RoundNearest.toPrecision 53 (a - b)

/-- `ChildSpec`. -/
structure ChildSpec where
  name : String
  argv : List String
  env : Option (List (String × String))
deriving DecidableEq

/-- The fields of a `ProcessSupervisor` that never change.  An empty schedule or a limit of `0` would
make the first exit of a child raise. -/
structure ProcessSupervisor where
  specs : List ChildSpec
  backoffSchedule : List ℚ
  crashLoopMaxRestarts : ℕ
  crashLoopWindowSeconds : ℚ
  shutdownTimeoutSeconds : ℚ
  schedule_ne_nil : backoffSchedule ≠ []
  maxRestarts_pos : 0 < crashLoopMaxRestarts

/-- `ProcessSupervisor.__init__` with its default arguments. -/
def ProcessSupervisor.ofSpecs (specs : List ChildSpec) : ProcessSupervisor where
  specs := specs
  backoffSchedule := defaultBackoffScheduleSeconds
  crashLoopMaxRestarts := FileMonitor.crashLoopMaxRestarts
  crashLoopWindowSeconds := FileMonitor.crashLoopWindowSeconds
  shutdownTimeoutSeconds := FileMonitor.shutdownTimeoutSeconds
  schedule_ne_nil := nofun
  maxRestarts_pos := by decide

abbrev ProcessId := ℕ

/-- Where a call of `_supervise_child` stands. -/
inductive ChildPhase where
  /-- About to run the test `not self._stopping` of its loop. -/
  | ready
  /-- In `self._spawner.spawn`, called at this time. -/
  | spawning (startedAt : ℚ)
  /-- In `self._spawner.wait`. -/
  | waiting (process : ProcessId) (startedAt : ℚ)
  /-- In `_wait_for_backoff_or_stop`, called at this time. -/
  | backoff (delay since : ℚ)
  | returned
  | cancelled
deriving DecidableEq

/-- A call of `_supervise_child` with its local variables. -/
structure Child where
  phase : ChildPhase
  consecutiveFailures : ℕ
  exitTimestamps : List ℚ
deriving DecidableEq

/-- The start of `_supervise_child`. -/
def Child.new : Child where
  phase := .ready
  consecutiveFailures := 0
  exitTimestamps := []

/-- Where the call of `shutdown` stands. -/
inductive ShutdownPhase where
  | notCalled
  /-- Waiting for the terminated processes or the timeout, since this time. -/
  | grace (processes : List ProcessId) (since : ℚ)
  /-- In `asyncio.sleep(0)`. -/
  | yielding
  /-- Waiting for the killed processes that are left. -/
  | reaping (remaining : List ProcessId)
  | returned
deriving DecidableEq

/-- The state of the supervisor, of its tasks and of the processes. -/
structure SupervisorState where
  now : ℚ
  children : List Child
  processes : Dict String ProcessId
  degraded : Finset String
  stopping : Bool
  shutdown : ShutdownPhase
  /-- The number of processes started so far. -/
  started : ℕ
  alive : List ProcessId

inductive SupervisorAction where
  | tick (seconds : ℚ)
  /-- The task runs into the loop of `_supervise_child`. -/
  | run (index : ℕ)
  | spawnReturns (index : ℕ)
  /-- `spawn` raises `OSError`. -/
  | spawnFails (index : ℕ)
  /-- A process exits. -/
  | exits (process : ProcessId)
  | waitReturns (index : ℕ)
  | backoffEnds (index : ℕ)
  /-- The task is cancelled, in no call of `spawn`. -/
  | cancel (index : ℕ)
  /-- `shutdown` is called, and runs to its first suspension. -/
  | shutdown
  /-- All terminated processes have been waited for, or the timeout is over. -/
  | graceEnds
  /-- `shutdown` goes on after `asyncio.sleep(0)`. -/
  | killRemaining
  /-- `shutdown` has waited for the next killed process. -/
  | reap
deriving DecidableEq

inductive SupervisorEvent where
  | spawnStarted (spec : ChildSpec)
  | spawnReturned (name : String) (process : ProcessId)
  | exited (process : ProcessId)
  /-- The child, started at the one time, was found to have exited at the other. -/
  | childExited (name : String) (startedAt exitedAt : ℚ)
  | degraded (name : String)
  | backingOff (name : String) (delay : ℚ)
  | shutdownCalled
  | terminated (process : ProcessId)
  | killed (process : ProcessId)
  | shutdownReturned
deriving DecidableEq

namespace ProcessSupervisor

variable (supervisor : ProcessSupervisor)

def initial : SupervisorState where
  now := 0
  children := supervisor.specs.map fun _ => .new
  processes := ∅
  degraded := ∅
  stopping := false
  shutdown := .notCalled
  started := 0
  alive := []

/-- `exit_timestamps.append(now)`, for a `deque` with `maxlen`. -/
def appendExit (timestamps : List ℚ) (now : ℚ) : List ℚ :=
  (timestamps ++ [now]).drop (timestamps.length + 1 - supervisor.crashLoopMaxRestarts)

/-- `consecutive_failures` after an exit, before it is counted. -/
def failuresAfter (consecutiveFailures : ℕ) (uptime : ℚ) : ℕ :=
  if supervisor.backoffSchedule.getLast supervisor.schedule_ne_nil < uptime then 0
  else consecutiveFailures

/-- The test for a crash loop. -/
def inCrashLoop (timestamps : List ℚ) (now : ℚ) : Bool :=
  timestamps.length = supervisor.crashLoopMaxRestarts ∧
    floatSub now (timestamps.headD 0) < supervisor.crashLoopWindowSeconds

/-- `self._backoff_schedule[delay_index]`. -/
def delay (consecutiveFailures : ℕ) : ℚ :=
  supervisor.backoffSchedule.getD
    (min consecutiveFailures (supervisor.backoffSchedule.length - 1)) 0

/-- Replace the task of one child. -/
def setChild (state : SupervisorState) (index : ℕ) (child : Child) : SupervisorState :=
  { state with children := state.children.set index child }

/-- The rest of an iteration of `_supervise_child`, from the test of `self._stopping` that follows the
end of a process or a failed spawn. -/
def handleExit (state : SupervisorState) (index : ℕ) (name : String) (child : Child)
    (startedAt : ℚ) : SupervisorState × List SupervisorEvent :=
  if state.stopping then (setChild state index { child with phase := .returned }, [])
  else
    -- the clock is read several times here, with no suspension in between
    let uptime := floatSub state.now startedAt
    let consecutiveFailures := supervisor.failuresAfter child.consecutiveFailures uptime
    let exitTimestamps := supervisor.appendExit child.exitTimestamps state.now
    let exited := SupervisorEvent.childExited name startedAt state.now
    if supervisor.inCrashLoop exitTimestamps state.now then
      ({ setChild state index ⟨.returned, consecutiveFailures, exitTimestamps⟩ with
          degraded := insert name state.degraded },
        [exited, .degraded name])
    else
      let delay := supervisor.delay consecutiveFailures
      (setChild state index ⟨.backoff delay state.now, consecutiveFailures + 1, exitTimestamps⟩,
        [exited, .backingOff name delay])

/-- A step of the task of one child. -/
def stepChild (state : SupervisorState) (index : ℕ) (spec : ChildSpec) (child : Child) :
    SupervisorAction → Option (SupervisorState × List SupervisorEvent)
  | .run _ =>
    if child.phase ≠ .ready then none
    else if state.stopping then some (setChild state index { child with phase := .returned }, [])
    else some (setChild state index { child with phase := .spawning state.now }, [.spawnStarted spec])
  | .spawnReturns _ =>
    match child.phase with
    | .spawning startedAt =>
      some
        -- no test of `self._stopping` stands between the return of `spawn` and `self._spawner.wait`
        ({ setChild state index { child with phase := .waiting state.started startedAt } with
            processes := state.processes.set spec.name state.started
            started := state.started + 1
            alive := state.alive ++ [state.started] },
          [.spawnReturned spec.name state.started])
    | _ => none
  | .spawnFails _ =>
    match child.phase with
    | .spawning startedAt => some (supervisor.handleExit state index spec.name child startedAt)
    | _ => none
  | .waitReturns _ =>
    match child.phase with
    | .waiting process startedAt =>
      if process ∈ state.alive then none
      else
        some (supervisor.handleExit { state with processes := state.processes.erase spec.name } index
          spec.name child startedAt)
    | _ => none
  | .backoffEnds _ =>
    match child.phase with
    | .backoff delay since =>
      -- `FIRST_COMPLETED`: the stop event or the sleep
      if state.stopping ∨ since + delay ≤ state.now then
        some (setChild state index { child with phase := .ready }, [])
      else none
    | _ => none
  | .cancel _ =>
    match child.phase with
    | .ready | .waiting .. | .backoff .. =>
      some (setChild state index { child with phase := .cancelled }, [])
    | _ => none
  | _ => none

/-- The second half of `shutdown`: it kills what is left in the table and starts to wait for it. -/
def killRemaining (state : SupervisorState) : SupervisorState × List SupervisorEvent :=
  let remaining := state.processes.values
  if remaining = [] then ({ state with shutdown := .returned }, [.shutdownReturned])
  else ({ state with shutdown := .reaping remaining }, remaining.map .killed)

/-- `shutdown`, up to its first suspension. -/
def callShutdown (state : SupervisorState) : SupervisorState × List SupervisorEvent :=
  let state := { state with stopping := true }
  let processes := state.processes.values
  if processes = [] then
    -- without processes `shutdown` does not suspend before its second half
    let (state, events) := killRemaining state
    (state, .shutdownCalled :: events)
  else
    ({ state with shutdown := .grace processes state.now },
      .shutdownCalled :: processes.map .terminated)

def step (state : SupervisorState) (action : SupervisorAction) :
    Option (SupervisorState × List SupervisorEvent) :=
  match action with
  | .tick seconds =>
    if 0 ≤ seconds then some ({ state with now := state.now + seconds }, []) else none
  | .exits process =>
    if process ∈ state.alive then
      some ({ state with alive := state.alive.erase process }, [.exited process])
    else none
  | .shutdown => if state.shutdown = .notCalled then some (callShutdown state) else none
  | .graceEnds =>
    match state.shutdown with
    | .grace processes since =>
      if (∀ process ∈ processes, process ∉ state.alive) ∨
          since + supervisor.shutdownTimeoutSeconds ≤ state.now then
        some ({ state with shutdown := .yielding }, [])
      else none
    | _ => none
  | .killRemaining => if state.shutdown = .yielding then some (killRemaining state) else none
  | .reap =>
    match state.shutdown with
    | .reaping (process :: remaining) =>
      if process ∈ state.alive then none
      else if remaining = [] then some ({ state with shutdown := .returned }, [.shutdownReturned])
      else some ({ state with shutdown := .reaping remaining }, [])
    | _ => none
  | .run index | .spawnReturns index | .spawnFails index | .waitReturns index | .backoffEnds index
  | .cancel index => do
    let spec ← supervisor.specs[index]?
    let child ← state.children[index]?
    supervisor.stepChild state index spec child action

/-- The supervisor as a machine. -/
def machine : EventMachine SupervisorState SupervisorAction SupervisorEvent where
  init := supervisor.initial
  step := supervisor.step

end ProcessSupervisor

end FileMonitor
