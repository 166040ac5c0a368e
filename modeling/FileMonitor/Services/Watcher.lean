import FileMonitor.Library.EventMachine
import FileMonitor.Library.PosixPath
import Mathlib.Algebra.Order.Ring.Rat
import Mathlib.Logic.Function.Basic

/-!
# The directory watcher

`services/watcher.py` as a machine: the consumer of raw events, the debounce tasks it creates, and the
listener.  A debounce task is named by its path and by its number among the tasks of that path; so the
test `self._pending.get(path) is current_task` compares numbers.
-/

namespace FileMonitor

/-- `DEBOUNCE_SECONDS`. -/
def debounceSeconds : ℚ := 1 / 5

/-- Where a call of `_emit_when_stable` stands. -/
inductive TaskPhase where
  /-- Created, but not started by the event loop yet. -/
  | created
  /-- In `self._clock.sleep`, since this time. -/
  | sleeping (since : ℚ)
  /-- Its timer has fired, but the event loop has not resumed it yet. -/
  | fired
  | finished
deriving DecidableEq

structure DebounceTask where
  phase : TaskPhase
  cancelRequested : Bool
deriving DecidableEq

namespace DebounceTask

/-- `asyncio.create_task(self._emit_when_stable(path))`. -/
def new : DebounceTask where
  phase := .created
  cancelRequested := false

/-- `task.cancel()`, which does nothing to a task that is done. -/
def cancel (task : DebounceTask) : DebounceTask :=
  if task.phase = .finished then task else { task with cancelRequested := true }

/-- The end of a task. -/
def finish (task : DebounceTask) : DebounceTask := { task with phase := .finished }

end DebounceTask

/-- `DirectoryWatcher` and its tasks. -/
structure DirectoryWatcher where
  now : ℚ
  /-- The debounce tasks of each path, in the order of their creation. -/
  tasks : PosixPath → List DebounceTask
  pending : PosixPath → Option ℕ
  stablePaths : List PosixPath
  /-- The listener has not been left. -/
  listening : Bool

inductive WatcherAction where
  /-- Time passes. -/
  | tick (seconds : ℚ)
  /-- `self._file_events` gives the consumer a path. -/
  | rawEvent (path : PosixPath)
  /-- The event loop runs a task for the first time. -/
  | start (path : PosixPath) (index : ℕ)
  /-- The timer of a sleeping task fires. -/
  | fire (path : PosixPath) (index : ℕ)
  /-- The event loop resumes a task from its sleep. -/
  | resume (path : PosixPath) (index : ℕ)
  /-- The listener gives a stable path to its consumer. -/
  | yield
  /-- The listener is left: it is closed, or the consumer of the raw events has ended. -/
  | close
deriving DecidableEq

inductive WatcherEvent where
  /-- A raw event of the path at this time, which has created the task with this number. -/
  | rawEvent (path : PosixPath) (index : ℕ) (time : ℚ)
  /-- The task has put its path on the queue at this time. -/
  | emitted (path : PosixPath) (index : ℕ) (time : ℚ)
  | yielded (path : PosixPath)
deriving DecidableEq

/-- The path of an event. -/
def WatcherEvent.path : WatcherEvent → PosixPath
  | .rawEvent path .. | .emitted path .. | .yielded path => path

namespace DirectoryWatcher

def initial : DirectoryWatcher where
  now := 0
  tasks _ := []
  pending _ := none
  stablePaths := []
  listening := true

/-- Replace the tasks of a path. -/
def setTasks (watcher : DirectoryWatcher) (path : PosixPath) (tasks : List DebounceTask) :
    DirectoryWatcher :=
  { watcher with tasks := Function.update watcher.tasks path tasks }

/-- `task.cancel()` for the task that is stored in `_pending`, if any. -/
def cancelPending (pending : Option ℕ) (tasks : List DebounceTask) : List DebounceTask :=
  match pending with
  | none => tasks
  | some index => tasks.modify index DebounceTask.cancel

/-- `_debounce`. -/
def debounce (watcher : DirectoryWatcher) (path : PosixPath) : DirectoryWatcher :=
  let tasks := cancelPending (watcher.pending path) (watcher.tasks path)
  { watcher.setTasks path (tasks ++ [.new]) with
    pending := Function.update watcher.pending path (some tasks.length) }

/-- The end of `_emit_when_stable`, after its sleep. -/
def emit (watcher : DirectoryWatcher) (path : PosixPath) (index : ℕ) : DirectoryWatcher :=
  { watcher with
    pending :=
      if watcher.pending path = some index then Function.update watcher.pending path none
      else watcher.pending
    stablePaths := watcher.stablePaths ++ [path] }

/-- The `finally` block of `_listen`. -/
def leave (watcher : DirectoryWatcher) : DirectoryWatcher :=
  { watcher with
    tasks path := cancelPending (watcher.pending path) (watcher.tasks path)
    listening := false }

/-- A step of a debounce task, with sleeps of at least `debounceSeconds`. -/
def stepTask (debounceSeconds : ℚ) (watcher : DirectoryWatcher) (path : PosixPath) (index : ℕ)
    (task : DebounceTask) : WatcherAction → Option (DirectoryWatcher × List WatcherEvent)
  | .start .. =>
    if task.phase = .created then
      -- a task that is cancelled before it starts raises at once
      let task :=
        if task.cancelRequested then task.finish else { task with phase := .sleeping watcher.now }
      some (watcher.setTasks path ((watcher.tasks path).set index task), [])
    else none
  | .fire .. =>
    match task with
    | ⟨.sleeping since, false⟩ =>
      if since + debounceSeconds ≤ watcher.now then
        some (watcher.setTasks path ((watcher.tasks path).set index { task with phase := .fired }), [])
      else none
    | _ => none
  | .resume .. =>
    match task with
    | ⟨.sleeping _, true⟩ | ⟨.fired, true⟩ =>
      -- `CancelledError`
      some (watcher.setTasks path ((watcher.tasks path).set index task.finish), [])
    | ⟨.fired, false⟩ =>
      some ((watcher.setTasks path ((watcher.tasks path).set index task.finish)).emit path index,
        [.emitted path index watcher.now])
    | _ => none
  | _ => none

def step (debounceSeconds : ℚ) (watcher : DirectoryWatcher) (action : WatcherAction) :
    Option (DirectoryWatcher × List WatcherEvent) :=
  match action with
  | .tick seconds =>
    if 0 ≤ seconds then some ({ watcher with now := watcher.now + seconds }, []) else none
  | .rawEvent path =>
    if watcher.listening then
      some (watcher.debounce path, [.rawEvent path (watcher.tasks path).length watcher.now])
    else none
  | .yield =>
    if watcher.listening then
      match watcher.stablePaths with
      | [] => none
      | path :: stablePaths => some ({ watcher with stablePaths := stablePaths }, [.yielded path])
    else none
  | .close => if watcher.listening then some (watcher.leave, []) else none
  | .start path index | .fire path index | .resume path index => do
    let task ← (watcher.tasks path)[index]?
    watcher.stepTask debounceSeconds path index task action

/-- The watcher as a machine. -/
def machine (debounceSeconds : ℚ) : EventMachine DirectoryWatcher WatcherAction WatcherEvent where
  init := initial
  step := step debounceSeconds

end DirectoryWatcher

end FileMonitor
