import FileMonitor.Adapters.Equiv.INotifyEvents
import FileMonitor.Main.Equiv.Service
import FileMonitor.Main.Monitor
import FileMonitor.Services.Equiv.Watcher

/-!
# From the kernel to the dispatcher

`files_runs`, `watcher_runs` and `service_runs` take a run of the monitor apart.

* `completed_file_is_dispatched`: a completed file that stays in the directory is dispatched after it was
  completed, whatever the kernel had to drop.
* `dispatches_come_from_changes`: the pipeline dispatches the emitted paths, each once and in their order;
  an emission has a change of its own, which was then the debounce time old.
-/

namespace FileMonitor

open INotifyEvents (itemPath)

/-! ### Steps -/

/-- What one step does to the monitor, and its events. -/
inductive MonitorStep (config : MonitorConfig) (monitor : Monitor) :
    MonitorAction → List MonitorEvent → Monitor → Prop where
  | tick {seconds} (nonneg : 0 ≤ seconds) :
    MonitorStep config monitor (.tick seconds) []
      { monitor with
        watcher := { monitor.watcher with now := monitor.watcher.now + seconds }
        service :=
          { monitor.service with
            core := { monitor.service.core with now := monitor.service.core.now + seconds } } }
  | files {action files es} (step : monitor.files.step config.watchPath action = some (files, es))
    (none : ∀ path, .yielded path ∉ es) :
    MonitorStep config monitor (.files action) (es.map .file) { monitor with files := files }
  | item {action files path}
    (step : monitor.files.step config.watchPath action = some (files, [.yielded path]))
    (listening : monitor.watcher.listening = true) :
    MonitorStep config monitor (.files action)
      [.file (.yielded path),
        .watcher (.rawEvent path (monitor.watcher.tasks path).length monitor.watcher.now)]
      { monitor with files := files, watcher := monitor.watcher.debounce path }
  | debounce {action watcher es} (own : ∀ path, action ≠ .rawEvent path) (notYield : action ≠ .yield)
    (notClose : action ≠ .close)
    (step : WatcherStep config.debounceSeconds monitor.watcher action es watcher) :
    MonitorStep config monitor (.debounce action) (es.map .watcher) { monitor with watcher := watcher }
  | detect {path stablePaths} (listening : monitor.watcher.listening = true)
    (head : monitor.watcher.stablePaths = path :: stablePaths)
    (idle : monitor.service.core.pipeline = .idle) :
    MonitorStep config monitor .detect
      [.watcher (.yielded path), .service (.core (.detected path))]
      { monitor with
        watcher := { monitor.watcher with stablePaths := stablePaths }
        service :=
          { monitor.service with
            core :=
              { monitor.service.core with
                pipeline := .dispatching (config.dispatcher.dispatch config.pb path) none } } }
  | service {action service es} (notDetect : ∀ path, action ≠ .core (.detect path))
    (notTick : ∀ seconds, action ≠ .core (.tick seconds))
    (step : monitor.service.step config.pb config.dispatcher config.expectedProtoHash action
      = some (service, es)) :
    MonitorStep config monitor (.service action) (es.map .service) { monitor with service := service }
  | left {files} (listening : monitor.watcher.listening = true)
    (step : monitor.files.step config.watchPath .close = some (files, [.closed])) :
    MonitorStep config monitor .leave [.file .closed]
      { monitor with files := files, watcher := monitor.watcher.leave }

section Steps

variable {config : MonitorConfig} {monitor monitor' : Monitor}

theorem exists_of_stepWatcher {action : WatcherAction} {es : List MonitorEvent}
    (h : monitor.stepWatcher config action = some (monitor', es)) :
    ∃ watcher events, WatcherStep config.debounceSeconds monitor.watcher action events watcher ∧
      monitor' = { monitor with watcher := watcher } ∧ es = events.map .watcher := by
  obtain ⟨⟨watcher, events⟩, hstep, h⟩ := Option.bind_eq_some_iff.mp h
  obtain ⟨rfl, rfl⟩ := Prod.mk.inj (Option.some.inj h)
  exact ⟨watcher, events, watcherStep_of_step hstep, rfl, rfl⟩

theorem exists_of_stepService {action : ServiceAction} {es : List MonitorEvent}
    (h : monitor.stepService config action = some (monitor', es)) :
    ∃ service events, monitor.service.step config.pb config.dispatcher config.expectedProtoHash action
        = some (service, events) ∧
      monitor' = { monitor with service := service } ∧ es = events.map .service := by
  obtain ⟨⟨service, events⟩, hstep, h⟩ := Option.bind_eq_some_iff.mp h
  obtain ⟨rfl, rfl⟩ := Prod.mk.inj (Option.some.inj h)
  exact ⟨service, events, hstep, rfl, rfl⟩

/-- A step of the file events, with the raw event that it may cause. -/
theorem exists_of_stepFiles {action : INotifyAction} {es : List MonitorEvent}
    (h : monitor.stepFiles config action = some (monitor', es)) :
    ∃ files events, monitor.files.step config.watchPath action = some (files, events) ∧
      ((∀ path, .yielded path ∉ events) ∧ monitor' = { monitor with files := files } ∧
          es = events.map .file ∨
        ∃ path, events = [.yielded path] ∧ monitor.watcher.listening = true ∧
          monitor' = { monitor with files := files, watcher := monitor.watcher.debounce path } ∧
          es = [.file (.yielded path),
            .watcher (.rawEvent path (monitor.watcher.tasks path).length monitor.watcher.now)]) := by
  obtain ⟨⟨files, events⟩, hstep, h⟩ := Option.bind_eq_some_iff.mp h
  refine ⟨files, events, hstep, ?_⟩
  dsimp only at h
  split at h
  · rename_i path
    obtain ⟨⟨watcher, raw⟩, hraw, h⟩ := Option.bind_eq_some_iff.mp h
    obtain ⟨rfl, rfl⟩ := Prod.mk.inj (Option.some.inj h)
    cases watcherStep_of_step hraw with
    | rawEvent hlistening => exact .inr ⟨path, rfl, hlistening, rfl, rfl⟩
  · rename_i hnone
    obtain ⟨rfl, rfl⟩ := Prod.mk.inj (Option.some.inj h)
    refine .inl ⟨fun path hmem => ?_, rfl, rfl⟩
    -- a step that gives out a path does nothing else
    cases inotifyStep_of_step hstep with
    | item =>
      exact hnone _ rfl
    | yielded =>
      exact hnone _ rfl
    | _ => simp at hmem

/-- **The monitor makes no other steps.** -/
theorem monitorStep_of_step {action : MonitorAction} {es : List MonitorEvent}
    (h : monitor.step config action = some (monitor', es)) :
    MonitorStep config monitor action es monitor' := by
  have hfiles {action : INotifyAction} (h : monitor.stepFiles config action = some (monitor', es)) :
      MonitorStep config monitor (.files action) es monitor' := by
    obtain ⟨files, events, hstep, ⟨hnone, rfl, rfl⟩ | ⟨path, rfl, hlistening, rfl, rfl⟩⟩ :=
      exists_of_stepFiles h
    · exact .files hstep hnone
    · exact .item hstep hlistening
  have hdebounce {action : WatcherAction} (hraw : ∀ path, action ≠ .rawEvent path)
      (hyield : action ≠ .yield) (hclose : action ≠ .close)
      (h : monitor.stepWatcher config action = some (monitor', es)) :
      MonitorStep config monitor (.debounce action) es monitor' := by
    obtain ⟨watcher, events, hstep, rfl, rfl⟩ := exists_of_stepWatcher h
    exact .debounce hraw hyield hclose hstep
  unfold Monitor.step at h
  split at h
  · obtain ⟨⟨monitor₁, es₁⟩, hwatcher, h⟩ := Option.bind_eq_some_iff.mp h
    obtain ⟨watcher, events, hstep, rfl, -⟩ := exists_of_stepWatcher hwatcher
    obtain ⟨service, events', hservice, rfl, rfl⟩ := exists_of_stepService h
    obtain ⟨core, events'', hcore, rfl, rfl⟩ := exists_of_stepCore hservice
    cases hstep with
    | tick hnonneg =>
      cases coreStep_of_step hcore with
      | tick => exact .tick hnonneg
  · cases h
  · split_ifs at h with hlistening
    exact hfiles h
  · exact hfiles h
  · exact hdebounce nofun nofun nofun h
  · exact hdebounce nofun nofun nofun h
  · exact hdebounce nofun nofun nofun h
  · cases h
  · split at h
    · cases h
    · rename_i path stablePaths hhead
      obtain ⟨⟨monitor₁, es₁⟩, hwatcher, h⟩ := Option.bind_eq_some_iff.mp h
      obtain ⟨⟨monitor₂, es₂⟩, hservice, h⟩ := Option.bind_eq_some_iff.mp h
      obtain ⟨watcher, events, hstep, rfl, rfl⟩ := exists_of_stepWatcher hwatcher
      obtain ⟨service, events', hstep', rfl, rfl⟩ := exists_of_stepService hservice
      obtain ⟨core, events'', hcore, rfl, rfl⟩ := exists_of_stepCore hstep'
      obtain ⟨rfl, rfl⟩ := Prod.mk.inj (Option.some.inj h)
      cases hstep with
      | yielded hlistening hhead' =>
        obtain ⟨rfl, rfl⟩ := List.cons.inj (hhead.symm.trans hhead')
        cases coreStep_of_step hcore with
        | detected hidle => exact .detect hlistening hhead hidle
  · cases h
  · cases h
  · rename_i action hnotTick hnotDetect
    obtain ⟨service, events, hstep, rfl, rfl⟩ := exists_of_stepService h
    exact .service (fun path heq => hnotDetect path heq) (fun seconds heq => hnotTick seconds heq) hstep
  · obtain ⟨⟨monitor₁, es₁⟩, hwatcher, h⟩ := Option.bind_eq_some_iff.mp h
    obtain ⟨watcher, events, hstep, rfl, -⟩ := exists_of_stepWatcher hwatcher
    obtain ⟨files, events', hstep', hcases⟩ := exists_of_stepFiles h
    cases hstep with
    | close hlistening =>
      cases inotifyStep_of_step hstep' with
      | closed =>
        obtain ⟨-, rfl, rfl⟩ | ⟨path, hnone, -⟩ := hcases
        · exact .left hlistening hstep'
        · cases List.cons.inj hnone |>.1

/-! ### The parts -/

/-- The event of the file events, if it is one. -/
def MonitorEvent.file? : MonitorEvent → Option FileEvent
  | .file event => some event
  | _ => none

/-- The event of the watcher, if it is one. -/
def MonitorEvent.watcher? : MonitorEvent → Option WatcherEvent
  | .watcher event => some event
  | _ => none

/-- The event of the service, if it is one. -/
def MonitorEvent.service? : MonitorEvent → Option ServiceEvent
  | .service event => some event
  | _ => none

/-- No step leaves the listener. -/
abbrev Stays : List MonitorEvent → Monitor → MonitorAction → Prop := fun _ _ action => action ≠ .leave

instance (action : MonitorAction) : Decidable (action ≠ .leave) :=
  match action with
  | .leave => isFalse fun h => h rfl
  | .tick _ | .files _ | .debounce _ | .detect | .service _ => isTrue nofun

theorem filterMap_map_eq_self {α β : Type} {f : α → β} {g : β → Option α} (h : ∀ a, g (f a) = some a)
    (l : List α) : (l.map f).filterMap g = l := by
  rw [List.filterMap_map, show g ∘ f = some from funext h, List.filterMap_some]

theorem filterMap_map_eq_nil {α β γ : Type} {f : α → β} {g : β → Option γ} (h : ∀ a, g (f a) = none)
    (l : List α) : (l.map f).filterMap g = [] := by
  rw [List.filterMap_map, show g ∘ f = fun _ => none from funext h]
  exact List.filterMap_none _

@[simp] theorem filterMap_file?_map (es : List FileEvent) :
    (es.map MonitorEvent.file).filterMap MonitorEvent.file? = es := by
  apply filterMap_map_eq_self
  exact fun _ => rfl

@[simp] theorem filterMap_watcher?_map (es : List WatcherEvent) :
    (es.map MonitorEvent.watcher).filterMap MonitorEvent.watcher? = es := by
  apply filterMap_map_eq_self
  exact fun _ => rfl

@[simp] theorem filterMap_service?_map (es : List ServiceEvent) :
    (es.map MonitorEvent.service).filterMap MonitorEvent.service? = es := by
  apply filterMap_map_eq_self
  exact fun _ => rfl

variable {C : List MonitorEvent → Monitor → MonitorAction → Prop} {tr : List MonitorEvent}

/-- **The monitor runs the file events.** -/
theorem files_runs (run : (Monitor.machine config).RunsUnder C tr monitor) :
    (INotifyEvents.machine config.watchPath config.maxQueuedEvents config.entries).Runs
      (tr.filterMap MonitorEvent.file?) monitor.files := by
  apply run.project Monitor.files
  · rfl
  · intro tr monitor action monitor' es _ hstep
    cases monitorStep_of_step hstep with
    | tick => exact .inr ⟨rfl, rfl⟩
    | @files action files es hfiles =>
      exact .inl ⟨action, trivial, by rwa [filterMap_file?_map]⟩
    | @item action _ _ hfiles => exact .inl ⟨action, trivial, hfiles⟩
    | debounce => exact .inr ⟨rfl, filterMap_map_eq_nil (fun _ => rfl) _⟩
    | detect => exact .inr ⟨rfl, rfl⟩
    | service => exact .inr ⟨rfl, filterMap_map_eq_nil (fun _ => rfl) _⟩
    | left _ hfiles => exact .inl ⟨.close, trivial, hfiles⟩

/-- **The monitor runs the watcher.** -/
theorem watcher_runs (run : (Monitor.machine config).RunsUnder C tr monitor) :
    (DirectoryWatcher.machine config.debounceSeconds).Runs
      (tr.filterMap MonitorEvent.watcher?) monitor.watcher := by
  apply run.project Monitor.watcher
  · rfl
  · intro tr monitor action monitor' es _ hstep
    cases monitorStep_of_step hstep with
    | @tick seconds hnonneg =>
      exact .inl ⟨.tick seconds, trivial,
        step_of_watcherStep (d := config.debounceSeconds) (.tick hnonneg)⟩
    | files => exact .inr ⟨rfl, filterMap_map_eq_nil (fun _ => rfl) _⟩
    | @item _ _ path _ hlistening =>
      exact .inl ⟨.rawEvent path, trivial,
        step_of_watcherStep (d := config.debounceSeconds) (.rawEvent hlistening)⟩
    | @debounce action watcher es _ _ hclose hwatcher =>
      refine .inl ⟨action, trivial, ?_⟩
      rw [filterMap_watcher?_map]
      exact step_of_watcherStep hwatcher
    | detect hlistening hhead =>
      exact .inl ⟨.yield, trivial,
        step_of_watcherStep (d := config.debounceSeconds) (.yielded hlistening hhead)⟩
    | service => exact .inr ⟨rfl, filterMap_map_eq_nil (fun _ => rfl) _⟩
    | left hlistening =>
      exact .inl ⟨.close, trivial, step_of_watcherStep (d := config.debounceSeconds) (.close hlistening)⟩

/-- The listener is there until it is left. -/
theorem listening_of_stays (run : (Monitor.machine config).RunsUnder Stays tr monitor) :
    monitor.watcher.listening = true := by
  refine run.invariant (I := fun _ monitor => monitor.watcher.listening = true) rfl
    fun tr monitor action monitor' es _ hlistening hstays hstep => ?_
  cases monitorStep_of_step hstep with
  | debounce _ _ hclose hwatcher =>
    cases hwatcher with
    | close => exact absurd rfl hclose
    | _ => exact hlistening
  | left => exact absurd rfl hstays
  | _ => exact hlistening

/-- **The monitor runs the service.** -/
theorem service_runs (run : (Monitor.machine config).RunsUnder C tr monitor) :
    (Service.machine config.pb config.dispatcher config.expectedProtoHash).Runs
      (tr.filterMap MonitorEvent.service?) monitor.service := by
  apply run.project Monitor.service
  · rfl
  · intro tr monitor action monitor' es _ hstep
    cases monitorStep_of_step hstep with
    | @tick seconds hnonneg =>
      refine .inl ⟨.core (.tick seconds), trivial, ?_⟩
      show Service.stepCore _ _ _ _ = _
      unfold Service.stepCore
      rw [Core.step, if_pos hnonneg]
      rfl
    | files => exact .inr ⟨rfl, filterMap_map_eq_nil (fun _ => rfl) _⟩
    | item => exact .inr ⟨rfl, rfl⟩
    | debounce => exact .inr ⟨rfl, filterMap_map_eq_nil (fun _ => rfl) _⟩
    | @detect path _ _ _ hidle =>
      refine .inl ⟨.core (.detect path), trivial, ?_⟩
      show Service.stepCore _ _ _ _ = _
      unfold Service.stepCore
      simp only [Core.step, hidle]
      rfl
    | @service action service es _ _ hservice =>
      refine .inl ⟨action, trivial, ?_⟩
      rwa [filterMap_service?_map]
    | left => exact .inr ⟨rfl, rfl⟩

end Steps

/-! ### The stages of a path -/

namespace MonitorEvent

/-- The path was put on the queue of stable paths. -/
def Emits (path : PosixPath) (event : MonitorEvent) : Prop :=
  ∃ index time, event = .watcher (.emitted path index time)

/-- There was a raw event of the path. -/
def IsRaw (path : PosixPath) (event : MonitorEvent) : Prop :=
  ∃ index time, event = .watcher (.rawEvent path index time)

/-- A dispatch of the path begins. -/
def Detects (path : PosixPath) (event : MonitorEvent) : Prop := event = .service (.core (.detected path))

end MonitorEvent

/-- The file events wait for the kernel, no debounce task is live, and no stable path waits. -/
def Monitor.Quiet (monitor : Monitor) : Prop :=
  monitor.files.Quiet ∧ (∀ path index, ¬ LiveAt monitor.watcher path index) ∧
    monitor.watcher.stablePaths = []

section Stages

variable {config : MonitorConfig} {monitor : Monitor} {tr : List MonitorEvent}
  {C : List MonitorEvent → Monitor → MonitorAction → Prop} {path : PosixPath}

/-- What is given out is a raw event in the same step. -/
theorem not_since_given (run : (Monitor.machine config).RunsUnder C tr monitor) :
    ¬ Since (fun event => event = .file (.yielded path)) (MonitorEvent.IsRaw path) tr := by
  refine run.invariant
    (I := fun tr _ => ¬ Since (fun event => event = .file (.yielded path)) (MonitorEvent.IsRaw path) tr)
    Since.not_since_nil fun tr monitor action monitor' es _ hinv _ hstep hsince => ?_
  have hsince := (Since.since_append.mp hsince).resolve_right fun h => hinv h.1
  obtain ⟨event, hmem, rfl⟩ := hsince.exists_event
  cases monitorStep_of_step hstep with
  | files _ hnone => exact hnone path (by simpa using hmem)
  | item =>
    obtain rfl : path = _ := by simpa using hmem
    exact Since.not_since_pair nofun ⟨_, _, rfl⟩ hsince
  | _ => simp at hmem

/-- What the watcher gives out is dispatched in the same step. -/
theorem not_since_yielded (run : (Monitor.machine config).RunsUnder C tr monitor) :
    ¬ Since (fun event => event = .watcher (.yielded path)) (MonitorEvent.Detects path) tr := by
  refine run.invariant
    (I := fun tr _ =>
      ¬ Since (fun event => event = .watcher (.yielded path)) (MonitorEvent.Detects path) tr)
    Since.not_since_nil fun tr monitor action monitor' es _ hinv _ hstep hsince => ?_
  have hsince := (Since.since_append.mp hsince).resolve_right fun h => hinv h.1
  obtain ⟨event, hmem, rfl⟩ := hsince.exists_event
  cases monitorStep_of_step hstep with
  | @debounce action watcher es _ hyield _ hwatcher =>
    have hmem : .yielded path ∈ es := by simpa using hmem
    cases hwatcher with
    | yielded => exact hyield rfl
    | _ => simp at hmem
  | detect =>
    obtain rfl : path = _ := by simpa using hmem
    have hdetects : MonitorEvent.Detects path (.service (.core (.detected path))) := rfl
    exact Since.not_since_pair nofun hdetects hsince
  | _ => simp at hmem

/-- A raw event that no emission has followed leaves a live task. -/
theorem exists_liveAt_of_since {d : ℚ} {watcher : DirectoryWatcher} {tr : List WatcherEvent}
    (run : (DirectoryWatcher.machine d).Runs tr watcher) (hlistening : watcher.listening = true)
    (h : Since (fun event => ∃ index time, event = .rawEvent path index time)
      (fun event => ∃ index time, event = .emitted path index time) tr) :
    ∃ index, LiveAt watcher path index := by
  have hinv := PathInv.of_runs run path
  have hpending : watcher.pending path ≠ none := by
    apply hinv.unsettled hlistening
    obtain ⟨pre, event, post, rfl, ⟨index, time, rfl⟩, hnone⟩ := h
    -- the latest raw event is this one, or one after it
    have hlast : (rawEventsOf path (.rawEvent path index time :: post)).getLast? ≠ none := by
      simp [rawEventsOf]
    obtain ⟨⟨index', time'⟩, hlast⟩ := Option.ne_none_iff_exists'.mp hlast
    obtain ⟨pre', post', hsplit, hraw⟩ := latestRawEvent_of_getLast? hlast
    refine ⟨pre ++ pre', index', time', post', by rw [hsplit, List.append_assoc], hraw, ?_⟩
    intro j u hmem
    have hmem : .emitted path j u ∈ WatcherEvent.rawEvent path index time :: post := by
      rw [hsplit]
      simp [hmem]
    rcases List.mem_cons.mp hmem with hmem | hmem
    · cases hmem
    · exact hnone _ hmem ⟨j, u, rfl⟩
  obtain ⟨index, hindex⟩ := Option.ne_none_iff_exists'.mp hpending
  exact ⟨index, hinv.pending hlistening index hindex⟩

/-- An emitted path waits on the queue until it is given out. -/
theorem mem_stablePaths_of_since {d : ℚ} {watcher : DirectoryWatcher} {tr : List WatcherEvent}
    (run : (DirectoryWatcher.machine d).Runs tr watcher)
    (h : Since (fun event => ∃ index time, event = .emitted path index time)
      (fun event => event = .yielded path) tr) : path ∈ watcher.stablePaths := by
  refine run.invariant (I := fun tr watcher =>
    Since (fun event => ∃ index time, event = .emitted path index time)
      (fun event => event = .yielded path) tr → path ∈ watcher.stablePaths)
    (fun h => absurd h Since.not_since_nil)
    (fun tr watcher action watcher' es _ hinv _ hstep hsince => ?_) h
  have step := watcherStep_of_step hstep
  rcases Since.since_append.mp hsince with hnew | ⟨hold, hnone⟩
  · obtain ⟨event, hmem, index, time, rfl⟩ := hnew.exists_event
    cases step with
    | emitted =>
      obtain ⟨rfl, -⟩ := WatcherEvent.emitted.inj (List.mem_singleton.mp hmem)
      exact List.mem_append_right _ List.mem_cons_self
    | _ => simp at hmem
  · have hmem := hinv hold
    cases step with
    | emitted => exact List.mem_append_left _ hmem
    | @yielded path' stablePaths _ hhead =>
      rw [hhead] at hmem
      rcases List.mem_cons.mp hmem with rfl | hmem
      · exact absurd rfl (hnone _ List.mem_cons_self)
      · exact hmem
    | _ => exact hmem

theorem eq_file_of_file? {event : MonitorEvent} {x : FileEvent} (h : event.file? = some x) :
    event = .file x := by
  cases event with
  | file => rw [Option.some.inj h]
  | _ => cases h

theorem eq_watcher_of_watcher? {event : MonitorEvent} {x : WatcherEvent} (h : event.watcher? = some x) :
    event = .watcher x := by
  cases event with
  | watcher => rw [Option.some.inj h]
  | _ => cases h

/-- **Every completed file is dispatched.**  In every run in which the listener is not left and the file
events have not failed: where the monitor has come to rest, a file that was completed and has kept its
name since has been dispatched after that. -/
theorem completed_file_is_dispatched (run : (Monitor.machine config).RunsUnder Stays tr monitor)
    (hopen : monitor.files.Open) (hquiet : monitor.Quiet) {pre post : List MonitorEvent}
    {name : PathComponent} (htr : tr = pre ++ .file (.completed name true) :: post)
    (hstays : .file (.removed name) ∉ post) :
    .service (.core (.detected (itemPath config.watchPath name))) ∈ post := by
  obtain ⟨hfiles, hlive, hstable⟩ := hquiet
  have hgiven : ¬ Since (fun event => event = .file (.completed name true))
      (fun event => event = .file (.yielded (itemPath config.watchPath name)) ∨
        event = .file (.removed name)) tr := by
    intro hsince
    refine (FileInv.of_runs (files_runs run)).not_unseen hopen hfiles name (hsince.filterMap ?_ ?_)
    · rintro _ rfl
      exact ⟨_, rfl, rfl⟩
    · intro event x hx hdischarges
      rw [eq_file_of_file? hx]
      exact hdischarges.imp (congrArg _) (congrArg _)
  have hemits : ¬ Since (MonitorEvent.IsRaw (itemPath config.watchPath name))
      (MonitorEvent.Emits (itemPath config.watchPath name)) tr := by
    intro hsince
    have hexists : ∃ index, LiveAt monitor.watcher (itemPath config.watchPath name) index := by
      refine exists_liveAt_of_since (watcher_runs run) (listening_of_stays run)
        (hsince.filterMap ?_ ?_)
      · rintro event ⟨index, time, rfl⟩
        exact ⟨_, rfl, index, time, rfl⟩
      · rintro event x hx ⟨index, time, rfl⟩
        exact ⟨index, time, eq_watcher_of_watcher? hx⟩
    obtain ⟨index, hindex⟩ := hexists
    exact hlive _ index hindex
  have hyielded : ¬ Since (MonitorEvent.Emits (itemPath config.watchPath name))
      (fun event => event = .watcher (.yielded (itemPath config.watchPath name))) tr := by
    intro hsince
    have hmem : itemPath config.watchPath name ∈ monitor.watcher.stablePaths := by
      refine mem_stablePaths_of_since (watcher_runs run) (hsince.filterMap ?_ ?_)
      · rintro event ⟨index, time, rfl⟩
        exact ⟨_, rfl, index, time, rfl⟩
      · rintro event x hx rfl
        exact eq_watcher_of_watcher? hx
    rw [hstable] at hmem
    cases hmem
  have hdetected := Since.trans (Since.trans (Since.trans (Since.trans hgiven (not_since_given run))
    hemits) hyielded) (not_since_yielded run)
  obtain ⟨event, hmem, rfl | rfl⟩ := Since.exists_mem hdetected htr rfl
  · exact hmem
  · exact absurd hmem hstays

end Stages

/-! ### Where the dispatches come from -/

/-- The paths dispatched, in order. -/
def detectedPaths (tr : List MonitorEvent) : List PosixPath :=
  tr.filterMap fun
    | .service (.core (.detected path)) => some path
    | _ => none

/-- The paths of the raw events, in order. -/
def rawPaths (tr : List WatcherEvent) : List PosixPath :=
  tr.filterMap fun
    | .rawEvent path _ _ => some path
    | _ => none

/-- The emissions of a path: the number of the task of each. -/
def emissionsOf (path : PosixPath) (tr : List WatcherEvent) : List ℕ :=
  tr.filterMap fun
    | .emitted path' index _ => if path' = path then some index else none
    | _ => none

section Origin

variable {config : MonitorConfig} {monitor : Monitor} {tr : List MonitorEvent}
  {C : List MonitorEvent → Monitor → MonitorAction → Prop} {path : PosixPath}

theorem detectedPaths_append (es : List MonitorEvent) :
    detectedPaths (tr ++ es) = detectedPaths tr ++ detectedPaths es := List.filterMap_append

theorem detectedPaths_map_file (es : List FileEvent) : detectedPaths (es.map .file) = [] := by
  unfold detectedPaths
  exact filterMap_map_eq_nil (fun _ => rfl) es

theorem detectedPaths_map_watcher (es : List WatcherEvent) : detectedPaths (es.map .watcher) = [] := by
  unfold detectedPaths
  exact filterMap_map_eq_nil (fun _ => rfl) es

/-- Only the pipeline begins dispatches. -/
theorem detectedPaths_of_service {service service' : Service} {action : ServiceAction}
    {es : List ServiceEvent} (hdetect : ∀ path, action ≠ .core (.detect path))
    (h : service.step config.pb config.dispatcher config.expectedProtoHash action
      = some (service', es)) : detectedPaths (es.map .service) = [] := by
  have hcore {action : CoreAction} {core core' : Core} {es : List CoreEvent}
      (hdetect : ∀ path, action ≠ .detect path)
      (h : CoreStep config.pb config.dispatcher core action es core') :
      detectedPaths (es.map fun event => .service (.core event)) = [] := by
    cases h with
    | detected => exact absurd rfl (hdetect _)
    | _ => rfl
  have hipc (es : List UdsEvent) : detectedPaths (es.map fun event => .service (.ipc event)) = [] := by
    unfold detectedPaths
    exact filterMap_map_eq_nil (fun _ => rfl) es
  cases serviceStep_of_step h with
  | ipc =>
    rw [List.map_map]
    exact hipc _
  | process _ hstep =>
    rw [List.map_cons, List.map_map]
    exact hcore (fun _ heq => by cases heq) hstep
  | send hstep =>
    rw [List.map_cons, List.map_map]
    exact hcore (fun _ heq => by cases heq) hstep
  | core _ hstep =>
    rw [List.map_map]
    exact hcore (fun path heq => hdetect path (by rw [heq])) hstep

/-- What the pipeline dispatches is what the watcher gives out. -/
theorem detectedPaths_eq (run : (Monitor.machine config).RunsUnder C tr monitor) :
    detectedPaths tr = yieldedPaths (tr.filterMap MonitorEvent.watcher?) := by
  refine run.invariant
    (I := fun tr _ => detectedPaths tr = yieldedPaths (tr.filterMap MonitorEvent.watcher?)) rfl
    fun tr monitor action monitor' es _ hinv _ hstep => ?_
  have happend : yieldedPaths ((tr ++ es).filterMap MonitorEvent.watcher?)
      = yieldedPaths (tr.filterMap MonitorEvent.watcher?)
        ++ yieldedPaths (es.filterMap MonitorEvent.watcher?) := by
    rw [List.filterMap_append]
    exact List.filterMap_append
  rw [detectedPaths_append, hinv, happend, List.append_cancel_left_eq]
  cases monitorStep_of_step hstep with
  | tick => rfl
  | files =>
    rw [detectedPaths_map_file, filterMap_map_eq_nil fun _ => rfl]
    rfl
  | item => rfl
  | debounce _ hyield _ hwatcher =>
    rw [detectedPaths_map_watcher, filterMap_watcher?_map]
    cases hwatcher with
    | yielded => exact absurd rfl hyield
    | _ => rfl
  | detect => rfl
  | service hdetect _ hservice =>
    rw [detectedPaths_of_service hdetect hservice, filterMap_map_eq_nil fun _ => rfl]
    rfl
  | left => rfl

/-- What the file events give out is what the watcher debounces. -/
theorem rawPaths_eq (run : (Monitor.machine config).RunsUnder C tr monitor) :
    rawPaths (tr.filterMap MonitorEvent.watcher?) = yieldedItems (tr.filterMap MonitorEvent.file?) := by
  refine run.invariant (I := fun tr _ => rawPaths (tr.filterMap MonitorEvent.watcher?)
    = yieldedItems (tr.filterMap MonitorEvent.file?)) rfl
    fun tr monitor action monitor' es _ hinv _ hstep => ?_
  have hraws : rawPaths ((tr ++ es).filterMap MonitorEvent.watcher?)
      = rawPaths (tr.filterMap MonitorEvent.watcher?)
        ++ rawPaths (es.filterMap MonitorEvent.watcher?) := by
    rw [List.filterMap_append]
    exact List.filterMap_append
  have hyielded : yieldedItems ((tr ++ es).filterMap MonitorEvent.file?)
      = yieldedItems (tr.filterMap MonitorEvent.file?)
        ++ yieldedItems (es.filterMap MonitorEvent.file?) := by
    rw [List.filterMap_append]
    exact List.filterMap_append
  rw [hraws, hyielded, hinv, List.append_cancel_left_eq]
  cases monitorStep_of_step hstep with
  | tick => rfl
  | files _ hnone =>
    rw [filterMap_file?_map, filterMap_map_eq_nil fun _ => rfl]
    refine (List.filterMap_eq_nil_iff.mpr fun event hmem => ?_).symm
    cases event with
    | yielded path => exact absurd hmem (hnone path)
    | _ => rfl
  | item => rfl
  | debounce hraw _ _ hwatcher =>
    rw [filterMap_watcher?_map, filterMap_map_eq_nil fun _ => rfl]
    cases hwatcher with
    | rawEvent => exact absurd rfl (hraw _)
    | _ => rfl
  | detect => rfl
  | service =>
    rw [filterMap_map_eq_nil fun _ => rfl, filterMap_map_eq_nil fun _ => rfl]
    rfl
  | left => rfl

/-- A path is emitted no oftener than it has raw events. -/
theorem length_emissionsOf_le {d : ℚ} {watcher : DirectoryWatcher} {tr : List WatcherEvent}
    (run : (DirectoryWatcher.machine d).Runs tr watcher) (path : PosixPath) :
    (emissionsOf path tr).length ≤ (rawEventsOf path tr).length := by
  have hmem {tr : List WatcherEvent} {index : ℕ} (h : index ∈ emissionsOf path tr) :
      ∃ time, .emitted path index time ∈ tr := by
    obtain ⟨event, hmem, hevent⟩ := List.mem_filterMap.mp h
    split at hevent
    · rename_i time
      split_ifs at hevent with hpath
      obtain rfl := Option.some.inj hevent
      exact ⟨time, hpath ▸ hmem⟩
    · cases hevent
  -- the raw events number the tasks, and no task emits twice
  have hnodup : (emissionsOf path tr).Nodup := by
    refine run.invariant (I := fun tr _ => (emissionsOf path tr).Nodup) List.nodup_nil
      fun tr watcher action watcher' es run₀ hinv _ hstep => ?_
    have happend : emissionsOf path (tr ++ es) = emissionsOf path tr ++ emissionsOf path es :=
      List.filterMap_append
    rw [happend]
    cases watcherStep_of_step hstep with
    | @emitted path' index hget =>
      by_cases heq : path' = path
      · subst heq
        have hsingle : emissionsOf path' [.emitted path' index watcher.now] = [index] := by
          simp [emissionsOf]
        rw [hsingle, List.nodup_append]
        refine ⟨hinv, List.nodup_singleton _, fun i hi j hj => ?_⟩
        obtain rfl := List.mem_singleton.mp hj
        rintro rfl
        obtain ⟨time, hi⟩ := hmem hi
        exact ((PathInv.of_runs run₀ path').of_emitted hget).choose_spec.2.2 time hi
      · simpa [emissionsOf, heq] using hinv
    | _ => simpa [emissionsOf] using hinv
  have hpath := PathInv.of_runs run path
  have hsubset : emissionsOf path tr ⊆ List.range (watcher.tasks path).length := by
    intro index hindex
    obtain ⟨time, htime⟩ := hmem hindex
    exact List.mem_range.mpr (hpath.emitted index time htime).2
  calc (emissionsOf path tr).length
      ≤ (List.range (watcher.tasks path).length).length :=
        (List.subperm_of_subset hnodup hsubset).length_le
    _ = (rawEventsOf path tr).length := by rw [← hpath.indices, List.length_map]

theorem itemPath_injective (watchPath : PosixPath) : Function.Injective (itemPath watchPath) := by
  intro name name' h
  have hcomponents := congrArg PosixPath.components h
  simpa [itemPath, PosixPath.join] using hcomponents

/-- How often a path is emitted and has raw events, as counts of the path. -/
theorem count_emittedPaths (path : PosixPath) (tr : List WatcherEvent) :
    (emittedPaths tr).count path = (emissionsOf path tr).length ∧
      (rawPaths tr).count path = (rawEventsOf path tr).length := by
  induction tr with
  | nil => exact ⟨rfl, rfl⟩
  | cons event tr ih =>
    cases event with
    | rawEvent path' =>
      by_cases heq : path' = path
      · simpa [emittedPaths, rawPaths, emissionsOf, rawEventsOf, heq] using ih
      · simpa [emittedPaths, rawPaths, emissionsOf, rawEventsOf, heq] using ih
    | emitted path' =>
      by_cases heq : path' = path
      · simpa [emittedPaths, rawPaths, emissionsOf, rawEventsOf, heq] using ih
      · simpa [emittedPaths, rawPaths, emissionsOf, rawEventsOf, heq] using ih
    | yielded path' => exact ih

/-- A dispatch begins with a path that was waiting. -/
theorem mem_stablePaths_of_detected {monitor' : Monitor} {action : MonitorAction}
    {es : List MonitorEvent} (h : (Monitor.machine config).step monitor action = some (monitor', es))
    (hmem : .service (.core (.detected path)) ∈ es) : path ∈ monitor.watcher.stablePaths := by
  have hdetected : path ∈ detectedPaths es := List.mem_filterMap.mpr ⟨_, hmem, rfl⟩
  cases monitorStep_of_step h with
  | detect _ hhead =>
    obtain rfl : path = _ := by simpa [detectedPaths] using hdetected
    rw [hhead]
    exact List.mem_cons_self
  | files =>
    rw [detectedPaths_map_file] at hdetected
    cases hdetected
  | debounce =>
    rw [detectedPaths_map_watcher] at hdetected
    cases hdetected
  | service hdetect _ hservice =>
    rw [detectedPaths_of_service hdetect hservice] at hdetected
    cases hdetected
  | _ => simp [detectedPaths] at hdetected

/-- A path that waits was emitted. -/
theorem exists_emitted (run : (Monitor.machine config).RunsUnder C tr monitor)
    (h : path ∈ monitor.watcher.stablePaths) :
    ∃ index time, .watcher (.emitted path index time) ∈ tr := by
  have hpath : path ∈ emittedPaths (tr.filterMap MonitorEvent.watcher?) := by
    rw [emittedPaths_eq (watcher_runs run)]
    exact List.mem_append_right _ h
  obtain ⟨event, hevent, heq⟩ := List.mem_filterMap.mp hpath
  obtain ⟨event', hmem, hevent'⟩ := List.mem_filterMap.mp hevent
  rw [eq_watcher_of_watcher? hevent'] at hmem
  cases event with
  | emitted path' index time =>
    obtain rfl := Option.some.inj heq
    exact ⟨index, time, hmem⟩
  | _ => cases heq

/-- An emission belongs to the latest change of its path, at least the debounce time before. -/
theorem exists_latestRawEvent (run : (Monitor.machine config).RunsUnder C tr monitor)
    {before after : List MonitorEvent} {index : ℕ} {time : ℚ}
    (htr : tr = before ++ .watcher (.emitted path index time) :: after) :
    ∃ created, LatestRawEvent path (before.filterMap MonitorEvent.watcher?) index created ∧
      created ≤ time - config.debounceSeconds := by
  have hsplit : tr.filterMap MonitorEvent.watcher? = before.filterMap MonitorEvent.watcher?
      ++ .emitted path index time :: after.filterMap MonitorEvent.watcher? := by
    rw [htr, List.filterMap_append]
    rfl
  obtain ⟨watcher₀, _, _, run₀, -, hstep⟩ :=
    (watcher_runs run).exists_step_of_alone hsplit fun _ _ _ _ hstep hmem =>
      ((watcherStep_of_step hstep).of_emitted hmem).1
  obtain ⟨-, rfl, hget⟩ := (watcherStep_of_step hstep).of_emitted List.mem_cons_self
  obtain ⟨created, hlatest, hold, -⟩ := (PathInv.of_runs run₀ path).of_emitted hget
  exact ⟨created, hlatest, hold⟩

/-- **Every dispatch comes from a change.**  In every run:

* the pipeline dispatches the emitted paths in their order, and those it has not dispatched yet wait;
* a path is dispatched no oftener than the file events have given it out, and, while they have not listed
  the directory, no oftener than its file was completed;
* each dispatch follows an emission of its path, whose latest change was then the debounce time old. -/
theorem dispatches_come_from_changes (run : (Monitor.machine config).Runs tr monitor) :
    detectedPaths tr ++ monitor.watcher.stablePaths
      = emittedPaths (tr.filterMap MonitorEvent.watcher?) ∧
    (∀ path, (detectedPaths tr).count path
      ≤ (yieldedItems (tr.filterMap MonitorEvent.file?)).count path) ∧
    ((∀ names, .file (.listed names) ∉ tr) → ∀ name,
      (detectedPaths tr).count (itemPath config.watchPath name)
        ≤ (completedNames (tr.filterMap MonitorEvent.file?)).count name) ∧
    (∀ pre path post, tr = pre ++ .service (.core (.detected path)) :: post →
      ∃ before index time after created, pre = before ++ .watcher (.emitted path index time) :: after ∧
        LatestRawEvent path (before.filterMap MonitorEvent.watcher?) index created ∧
        created ≤ time - config.debounceSeconds) := by
  have hwatcher := watcher_runs run
  have horder : detectedPaths tr ++ monitor.watcher.stablePaths
      = emittedPaths (tr.filterMap MonitorEvent.watcher?) := by
    rw [detectedPaths_eq run, emittedPaths_eq hwatcher]
  have hcount (path : PosixPath) : (detectedPaths tr).count path
      ≤ (yieldedItems (tr.filterMap MonitorEvent.file?)).count path := by
    obtain ⟨hemitted, hraw⟩ := count_emittedPaths path (tr.filterMap MonitorEvent.watcher?)
    calc (detectedPaths tr).count path
        ≤ (emittedPaths (tr.filterMap MonitorEvent.watcher?)).count path := by
          rw [← horder]
          exact (List.sublist_append_left ..).count_le path
      _ ≤ (rawPaths (tr.filterMap MonitorEvent.watcher?)).count path := by
          rw [hemitted, hraw]
          exact length_emissionsOf_le hwatcher path
      _ = (yieldedItems (tr.filterMap MonitorEvent.file?)).count path := by rw [rawPaths_eq run]
  refine ⟨horder, hcount, fun hnone name => ?_, ?_⟩
  · have hlisted : ∀ names, .listed names ∉ tr.filterMap MonitorEvent.file? := by
      intro names hmem
      obtain ⟨event, hmem, hevent⟩ := List.mem_filterMap.mp hmem
      exact hnone names (eq_file_of_file? hevent ▸ hmem)
    have hsublist := ((FileInv.of_runs (files_runs run)).order hlisted).2
    calc (detectedPaths tr).count (itemPath config.watchPath name)
        ≤ (yieldedItems (tr.filterMap MonitorEvent.file?)).count (itemPath config.watchPath name) :=
          hcount _
      _ ≤ ((completedNames (tr.filterMap MonitorEvent.file?)).map
            (itemPath config.watchPath)).count (itemPath config.watchPath name) :=
          ((List.sublist_append_left ..).trans hsublist).count_le _
      _ = (completedNames (tr.filterMap MonitorEvent.file?)).count name :=
          List.count_map_of_injective _ _ (itemPath_injective _) _
  · rintro pre path post rfl
    obtain ⟨tr₀, monitor₀, _, _, _, mid, _, run₀, -, hstep, hes, rfl⟩ := run.exists_step_of_split rfl
    have hstable : path ∈ monitor₀.watcher.stablePaths :=
      mem_stablePaths_of_detected hstep (by rw [hes]; simp)
    obtain ⟨index, time, hmem⟩ := exists_emitted run₀ hstable
    obtain ⟨before, after, rfl⟩ := List.append_of_mem hmem
    refine ⟨before, index, time, after ++ mid, ?_⟩
    obtain ⟨created, hlatest, hold⟩ := exists_latestRawEvent run₀ rfl
    exact ⟨created, by simp, hlatest, hold⟩

/-- Only a path with a raw event has tasks. -/
theorem mem_rawPaths_of_mem_tasks {d : ℚ} {watcher : DirectoryWatcher} {tr : List WatcherEvent}
    (run : (DirectoryWatcher.machine d).Runs tr watcher)
    {task : DebounceTask} (h : task ∈ watcher.tasks path) : path ∈ rawPaths tr := by
  have hindices := congrArg List.length (PathInv.of_runs run path).indices
  rw [List.length_map, List.length_range] at hindices
  have hpos : 0 < (rawEventsOf path tr).length := hindices ▸ List.length_pos_of_mem h
  obtain ⟨⟨index, time⟩, hmem⟩ := List.exists_mem_of_length_pos hpos
  exact List.mem_filterMap.mpr ⟨_, mem_rawEventsOf.mp hmem, rfl⟩

end Origin

/-! ### A full queue -/

def monitorConfig : MonitorConfig where
  pb := .ofTable []
  dispatcher := tenBlocksDispatcher
  expectedProtoHash := []
  watchPath := inbox
  debounceSeconds := debounceSeconds
  maxQueuedEvents := 1
  entries := ∅

/-- The first file is given out twice, so that its first task is cancelled; both files are gone when they
are dispatched. -/
def overflowMonitorActions : List MonitorAction :=
  overflowActions.map .files ++
    [.debounce (.start (itemPath inbox fileA) 0), .debounce (.start (itemPath inbox fileA) 1),
      .debounce (.start (itemPath inbox fileB) 0), .tick debounceSeconds,
      .debounce (.fire (itemPath inbox fileA) 1), .debounce (.fire (itemPath inbox fileB) 0),
      .debounce (.resume (itemPath inbox fileA) 1), .debounce (.resume (itemPath inbox fileB) 0),
      .detect, .service (.core (.statEnds (.error "ENOENT"))), .service (.core .resume),
      .detect, .service (.core (.statEnds (.error "ENOENT"))), .service (.core .resume)]

def overflowMonitorTrace : List MonitorEvent :=
  [.file (.created fileA), .file (.completed fileA true), .file (.completed fileB true),
    .file (.yielded (itemPath inbox fileA)), .watcher (.rawEvent (itemPath inbox fileA) 0 0),
    .file (.listed [fileA, fileB]),
    .file (.yielded (itemPath inbox fileA)), .watcher (.rawEvent (itemPath inbox fileA) 1 0),
    .file (.yielded (itemPath inbox fileB)), .watcher (.rawEvent (itemPath inbox fileB) 0 0),
    .watcher (.emitted (itemPath inbox fileA) 1 (1 / 5)),
    .watcher (.emitted (itemPath inbox fileB) 0 (1 / 5)),
    .watcher (.yielded (itemPath inbox fileA)), .service (.core (.detected (itemPath inbox fileA))),
    .service (.core (.statEnded (itemPath inbox fileA) (.error "ENOENT"))),
    .service (.core (.raised (.stat "ENOENT"))),
    .watcher (.yielded (itemPath inbox fileB)), .service (.core (.detected (itemPath inbox fileB))),
    .service (.core (.statEnded (itemPath inbox fileB) (.error "ENOENT"))),
    .service (.core (.raised (.stat "ENOENT")))]

theorem exists_overflow_monitor_run : ∃ monitor,
    (Monitor.machine monitorConfig).RunsUnder Stays overflowMonitorTrace monitor ∧
      monitor.files.Open ∧ monitor.Quiet := by
  obtain ⟨monitor, run, hexec⟩ := EventMachine.exists_runsUnder_of_map_eq
    (show ((Monitor.machine monitorConfig).runUnder Stays [] (Monitor.machine monitorConfig).init
        overflowMonitorActions).map Prod.fst = some overflowMonitorTrace by decide +kernel)
  have hstate : ((Monitor.machine monitorConfig).runUnder Stays [] (Monitor.machine monitorConfig).init
      overflowMonitorActions).map (fun result =>
        decide (result.2.files.Open ∧ result.2.files.Quiet ∧ result.2.watcher.stablePaths = [] ∧
          ∀ path ∈ rawPaths (overflowMonitorTrace.filterMap MonitorEvent.watcher?),
            result.2.watcher.pending path = none)) = some true := by decide +kernel
  rw [hexec, Option.map_some, Option.some.injEq, decide_eq_true_iff] at hstate
  obtain ⟨hopen, hquiet, hstable, hpending⟩ := hstate
  refine ⟨monitor, run, hopen, hquiet, ?_, hstable⟩
  intro path index hlive
  have hinv := PathInv.of_runs (watcher_runs run) path
  obtain ⟨task, hget, -⟩ := id hlive
  have hraw := mem_rawPaths_of_mem_tasks (watcher_runs run) (List.mem_of_getElem? hget)
  cases (hpending path hraw).symm.trans (hinv.live index hlive).1

theorem completed_file_is_dispatched_overflow :
    .service (.core (.detected (itemPath inbox fileB))) ∈ overflowMonitorTrace.drop 3 := by
  obtain ⟨monitor, run, hopen, hquiet⟩ := exists_overflow_monitor_run
  exact completed_file_is_dispatched run hopen hquiet
    (show _ = overflowMonitorTrace.take 2 ++ .file (.completed fileB true) :: overflowMonitorTrace.drop 3
      from rfl) (by decide)

theorem dispatches_come_from_changes_overflow : ∃ before index time after created,
    overflowMonitorTrace.take 17
        = before ++ .watcher (.emitted (itemPath inbox fileB) index time) :: after ∧
      LatestRawEvent (itemPath inbox fileB) (before.filterMap MonitorEvent.watcher?) index created ∧
      created ≤ time - debounceSeconds := by
  obtain ⟨monitor, run, -⟩ := exists_overflow_monitor_run
  exact (dispatches_come_from_changes run.runs).2.2.2 (overflowMonitorTrace.take 17) (itemPath inbox fileB)
    _ rfl

end FileMonitor
