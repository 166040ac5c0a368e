import FileMonitor.Library.EventMachine
import FileMonitor.Library.LossyQueue
import FileMonitor.Library.PosixPath
import Mathlib.Data.Finset.Basic

/-!
# File events

`adapters/inotify_events.py` as a machine, together with what is below it: the names in the watched
directory and the kernel's queue of events.  The queue is bounded; the kernel puts an overflow event where
it has dropped others, and joins an event to an equal one that is last in the queue.  Other processes can
change the directory between any two steps, also while it is listed: a listing then has every name that
was there all the time, and none that never was.  They can also delete the watched directory; the watch is
then gone, and a directory that is made in its place has none.
-/

namespace FileMonitor

/-! ### Events of the kernel -/

/-- `flags.CLOSE_WRITE`. -/
def flagCloseWrite : BitVec 32 := 0x8

/-- `flags.MOVED_TO`. -/
def flagMovedTo : BitVec 32 := 0x80

/-- `flags.Q_OVERFLOW`. -/
def flagQOverflow : BitVec 32 := 0x4000

/-- `flags.IGNORED`, which the kernel reports of a watch that is gone. -/
def flagIgnored : BitVec 32 := 0x8000

/-- An event as `INotify.read` returns it.  One that is about no entry of the directory has no name. -/
structure InotifyEvent where
  mask : BitVec 32
  /-- Tells the renames apart. -/
  cookie : ℕ
  name : Option PathComponent
deriving DecidableEq

namespace InotifyEvent

/-- The event that stands for dropped ones. -/
def overflow : InotifyEvent := ⟨flagQOverflow, 0, none⟩

/-- The event of a removed watch. -/
def ignored : InotifyEvent := ⟨flagIgnored, 0, none⟩

/-- `event.mask & Q_OVERFLOW`. -/
def isOverflow (event : InotifyEvent) : Bool := event.mask &&& flagQOverflow ≠ 0

/-- `event.mask & (CLOSE_WRITE | MOVED_TO)`. -/
def isCompletion (event : InotifyEvent) : Bool := event.mask &&& (flagCloseWrite ||| flagMovedTo) ≠ 0

end InotifyEvent

/-! ### The state -/

/-- Where `listen` stands. -/
inductive ListenPhase where
  /-- In `asyncio.to_thread(self._inotify.read)`, and nothing has been read. -/
  | reading
  /-- The thread has read these events; `listen` has not been resumed yet. -/
  | read (batch : List InotifyEvent)
  /-- In `iterdir`, with these events left.  The first names were there all the time since it was called,
  the second ones at some time since then. -/
  | listing (lasting possible : Finset PathComponent) (batch : List InotifyEvent)
  /-- Between two items: with what is left of a listing, and of the events read. -/
  | handling (listed : List PosixPath) (batch : List InotifyEvent)
  | ended
deriving DecidableEq

/-- `INotifyEvents`, the directory and the kernel's queue. -/
structure INotifyEvents where
  entries : Finset PathComponent
  queue : LossyQueue InotifyEvent
  phase : ListenPhase
  /-- The directory that was watched is still there. -/
  present : Bool
  /-- `_closed`; the watch is then removed too. -/
  closed : Bool

inductive INotifyAction where
  /-- A name appears in the directory by a call that the watch does not report. -/
  | create (name : PathComponent)
  /-- A file is closed after writing, or moved into the directory that is watched. -/
  | complete (mask : BitVec 32) (cookie : ℕ) (name : PathComponent)
  /-- A name is deleted, or moved out of the directory. -/
  | remove (name : PathComponent)
  /-- The watched directory is deleted. -/
  | lose
  /-- The thread reads the first `n` events. -/
  | read (n : ℕ)
  /-- The event loop resumes `listen` after a read. -/
  | resume
  /-- `iterdir` returns these names. -/
  | list (names : List PathComponent)
  /-- `listen` goes on to its next item. -/
  | next
  /-- `read` or `iterdir` raises `OSError`. -/
  | fail
  | close
  /-- The task that runs `listen` is cancelled. -/
  | cancel

inductive FileEvent where
  | created (name : PathComponent)
  /-- A file was completed; it still has its name in the directory or not. -/
  | completed (name : PathComponent) (linked : Bool)
  | removed (name : PathComponent)
  | lost
  | listed (names : List PathComponent)
  | yielded (path : PosixPath)
  | closed
deriving DecidableEq

namespace ListenPhase

/-- A name has appeared. -/
def appear (name : PathComponent) : ListenPhase → ListenPhase
  | listing lasting possible batch => listing lasting (insert name possible) batch
  | phase => phase

/-- A name has disappeared. -/
def vanish (name : PathComponent) : ListenPhase → ListenPhase
  | listing lasting possible batch => listing (lasting.erase name) possible batch
  | phase => phase

/-- The event loop is free to run other tasks. -/
def Suspended : ListenPhase → Prop
  | reading | read _ | ended => True
  | _ => False

instance : DecidablePred Suspended := fun phase => by
  cases phase <;> unfold Suspended <;> infer_instance

end ListenPhase

namespace INotifyEvents

variable (watchPath : PosixPath)

/-- `self._watch_path / name`. -/
def itemPath (name : PathComponent) : PosixPath := watchPath.join ⟨false, [name]⟩

/-- `self._watch_path / event.name`. -/
def eventPath (event : InotifyEvent) : PosixPath :=
  match event.name with
  | none => watchPath
  | some name => itemPath watchPath name

/-- A watch on a directory with these entries; `listen` is about to test `self._closed`. -/
def initial (maxQueuedEvents : ℕ) (entries : Finset PathComponent) : INotifyEvents where
  entries := entries
  queue := .empty maxQueuedEvents .overflow
  phase := .handling [] []
  present := true
  closed := false

/-- The kernel reports an event while there is a watch. -/
def report (events : INotifyEvents) (event : InotifyEvent) : INotifyEvents :=
  if events.closed ∨ events.present = false then events
  else { events with queue := events.queue.push event }

/-- A name appears in the directory, or is there already. -/
def addEntry (events : INotifyEvents) (name : PathComponent) : INotifyEvents :=
  { events with entries := insert name events.entries, phase := events.phase.appear name }

/-- `listen` goes on to its next item. -/
def handleNext (events : INotifyEvents) :
    List PosixPath → List InotifyEvent → INotifyEvents × List FileEvent
  | path :: listed, batch => ({ events with phase := .handling listed batch }, [.yielded path])
  | [], event :: batch =>
    if event.isOverflow then
      ({ events with phase := .listing events.entries events.entries batch }, [])
    else if event.isCompletion then
      ({ events with phase := .handling [] batch }, [.yielded (eventPath watchPath event)])
    else ({ events with phase := .handling [] batch }, [])
  | [], [] =>
    -- `while not self._closed`
    ({ events with phase := if events.closed then .ended else .reading }, [])

def step (events : INotifyEvents) : INotifyAction → Option (INotifyEvents × List FileEvent)
  | .create name => some (events.addEntry name, [.created name])
  | .complete mask cookie name =>
    if events.present ∧ mask &&& (flagCloseWrite ||| flagMovedTo) ≠ 0 ∧ mask &&& flagQOverflow = 0 then
      let events := if mask &&& flagMovedTo ≠ 0 then events.addEntry name else events
      some (events.report ⟨mask, cookie, some name⟩, [.completed name (name ∈ events.entries)])
    else none
  | .remove name =>
    some ({ events with entries := events.entries.erase name, phase := events.phase.vanish name },
      [.removed name])
  | .lose =>
    if events.present ∧ events.entries = ∅ then
      some ({ events.report .ignored with present := false }, [.lost])
    else none
  | .read n =>
    match events.phase with
    | .reading =>
      if 0 < n ∧ events.queue.items ≠ [] then
        some ({ events with
          queue := events.queue.drop n
          phase := .read (events.queue.items.take n) }, [])
      else none
    | _ => none
  | .resume =>
    match events.phase with
    | .read batch =>
      some ({ events with phase := if events.closed then .ended else .handling [] batch }, [])
    | _ => none
  | .list names =>
    match events.phase with
    | .listing lasting possible batch =>
      if names.Nodup ∧ (∀ name ∈ lasting, name ∈ names) ∧ ∀ name ∈ names, name ∈ possible then
        some ({ events with phase := .handling (names.map (itemPath watchPath)) batch },
          [.listed names])
      else none
    | _ => none
  | .next =>
    match events.phase with
    | .handling listed batch => some (events.handleNext watchPath listed batch)
    | _ => none
  | .fail =>
    match events.phase with
    | .reading | .listing .. => some ({ events with phase := .ended }, [])
    | _ => none
  | .close =>
    -- `rm_watch` fails where the watch is gone, and nothing is reported then
    if events.phase.Suspended then
      some ({ events.report .ignored with closed := true }, [.closed])
    else none
  | .cancel =>
    match events.phase with
    | .reading | .read _ => some ({ events with phase := .ended }, [])
    | _ => none

/-- The file events as a machine. -/
def machine (maxQueuedEvents : ℕ) (entries : Finset PathComponent) :
    EventMachine INotifyEvents INotifyAction FileEvent where
  init := initial maxQueuedEvents entries
  step := step watchPath

end INotifyEvents

end FileMonitor
