import FileMonitor.Adapters.INotifyEvents
import FileMonitor.Main.Service
import FileMonitor.Services.Watcher

/-!
# The monitor

The tasks of `run` from the kernel to the sockets: the file events, the watcher that debounces them, the
pipeline that dispatches what the watcher gives out, and the service.  `_consume_raw_events` takes each
path from the file events and debounces it in the same step; the pipeline takes a stable path when it has
no dispatch under way.
-/

namespace FileMonitor

structure Monitor where
  files : INotifyEvents
  watcher : DirectoryWatcher
  service : Service

inductive MonitorAction where
  /-- Time passes. -/
  | tick (seconds : ℚ)
  /-- A step of the directory, of the kernel or of `INotifyEvents.listen`. -/
  | files (action : INotifyAction)
  /-- A step of a debounce task. -/
  | debounce (action : WatcherAction)
  /-- `DirectoryWatcher.listen` gives the pipeline a path. -/
  | detect
  /-- A step of the service. -/
  | service (action : ServiceAction)
  /-- The listener is left, with the `finally` block of `_listen`. -/
  | leave

inductive MonitorEvent where
  | file (event : FileEvent)
  | watcher (event : WatcherEvent)
  | service (event : ServiceEvent)
deriving DecidableEq

/-- The constants of a `run`. -/
structure MonitorConfig where
  pb : Protobuf
  dispatcher : SessionDispatcher
  expectedProtoHash : Bytes
  watchPath : PosixPath
  debounceSeconds : ℚ
  maxQueuedEvents : ℕ
  /-- What is in the watched directory at the start. -/
  entries : Finset PathComponent

namespace Monitor

variable (config : MonitorConfig)

def initial : Monitor where
  files := .initial config.maxQueuedEvents config.entries
  watcher := .initial
  service := .initial

/-- A step of the file events; `_debounce` is called with the path it gives out, if any. -/
def stepFiles (monitor : Monitor) (action : INotifyAction) : Option (Monitor × List MonitorEvent) := do
  let (files, es) ← monitor.files.step config.watchPath action
  let monitor := { monitor with files := files }
  match es with
  | [.yielded path] =>
    let (watcher, raw) ← monitor.watcher.step config.debounceSeconds (.rawEvent path)
    pure ({ monitor with watcher := watcher }, .file (.yielded path) :: raw.map .watcher)
  | es => pure (monitor, es.map .file)

/-- A step of the watcher alone. -/
def stepWatcher (monitor : Monitor) (action : WatcherAction) :
    Option (Monitor × List MonitorEvent) := do
  let (watcher, es) ← monitor.watcher.step config.debounceSeconds action
  pure ({ monitor with watcher := watcher }, es.map .watcher)

/-- A step of the service alone. -/
def stepService (monitor : Monitor) (action : ServiceAction) :
    Option (Monitor × List MonitorEvent) := do
  let (service, es) ←
    monitor.service.step config.pb config.dispatcher config.expectedProtoHash action
  pure ({ monitor with service := service }, es.map .service)

def step (monitor : Monitor) : MonitorAction → Option (Monitor × List MonitorEvent)
  | .tick seconds => do
    let (monitor, _) ← monitor.stepWatcher config (.tick seconds)
    monitor.stepService config (.core (.tick seconds))
  -- the consumer of the file events is cancelled, and they are closed, where the listener is left
  | .files .close => none
  | .files .cancel => if monitor.watcher.listening then none else monitor.stepFiles config .cancel
  | .files action => monitor.stepFiles config action
  | .debounce (.start path index) => monitor.stepWatcher config (.start path index)
  | .debounce (.fire path index) => monitor.stepWatcher config (.fire path index)
  | .debounce (.resume path index) => monitor.stepWatcher config (.resume path index)
  | .debounce _ => none
  | .detect =>
    match monitor.watcher.stablePaths with
    | [] => none
    | path :: _ => do
      let (monitor, yielded) ← monitor.stepWatcher config .yield
      let (monitor, detected) ← monitor.stepService config (.core (.detect path))
      pure (monitor, yielded ++ detected)
  | .service (.core (.tick _)) | .service (.core (.detect _)) => none
  | .service action => monitor.stepService config action
  | .leave => do
    let (monitor, _) ← monitor.stepWatcher config .close
    monitor.stepFiles config .close

/-- The monitor as a machine. -/
def machine : EventMachine Monitor MonitorAction MonitorEvent where
  init := initial config
  step := step config

end Monitor

end FileMonitor
