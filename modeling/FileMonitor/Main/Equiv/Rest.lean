import FileMonitor.Library.Settles
import FileMonitor.Main.Equiv.Monitor
import FileMonitor.Main.Equiv.Pipeline
import Mathlib.Algebra.BigOperators.Finprod
import Mathlib.Algebra.BigOperators.Group.Finset.Piecewise

/-!
# Coming to rest

`Monitor.work` goes down with every step of the file events and of the debounce tasks, and with every
path that is taken to be dispatched; `Pipeline.After` with every step of a dispatch.  A monitor that has
such steps no more is `Resting`.

* `monitor_comes_to_rest`: in every run the steps come to an end there, and, once the debounce time has
  passed, where no path waits any more.
-/

namespace FileMonitor

open DirectoryWatcher
open INotifyEvents (itemPath)

/-! ### A measure -/

/-- The steps that a debounce task may still take, and those of its path after them. -/
def DebounceTask.work (task : DebounceTask) : ℕ :=
  match task.phase with
  | .created => 4
  | .sleeping _ => 3
  | .fired => 2
  | .finished => 0

/-- A step of a debounce task. -/
def WatcherAction.Own : WatcherAction → Prop
  | .start .. | .fire .. | .resume .. => True
  | _ => False

/-- The work of the tasks of one path. -/
def tasksWork (tasks : List DebounceTask) : ℕ := (tasks.map DebounceTask.work).sum

section Work

/-- A sum seen after one of its terms has changed. -/
theorem finsum_update_add {α : Type} [DecidableEq α] {f : α → ℕ} (hf : f.support.Finite) (a : α)
    (b : ℕ) : ∑ᶠ x, Function.update f a b x + f a = ∑ᶠ x, f x + b := by
  -- both sums run over the same finite set
  have hsupport : f.support ⊆ ↑(insert a hf.toFinset) := by
    intro x hx
    exact Finset.mem_coe.mpr (Finset.mem_insert_of_mem (hf.mem_toFinset.mpr hx))
  have hsupport' : (Function.update f a b).support ⊆ ↑(insert a hf.toFinset) := by
    intro x hx
    by_cases heq : x = a
    · exact Finset.mem_coe.mpr (heq ▸ Finset.mem_insert_self ..)
    · refine hsupport ?_
      rwa [Function.mem_support, Function.update_of_ne heq] at hx
  have hmem : a ∈ insert a hf.toFinset := Finset.mem_insert_self ..
  rw [finsum_eq_sum_of_support_subset _ hsupport, finsum_eq_sum_of_support_subset _ hsupport',
    Finset.sum_update_of_mem hmem]
  have hself := Finset.sum_update_of_mem hmem f (f a)
  rw [Function.update_eq_self] at hself
  omega

theorem tasksWork_append (tasks tasks' : List DebounceTask) :
    tasksWork (tasks ++ tasks') = tasksWork tasks + tasksWork tasks' := by
  unfold tasksWork
  rw [List.map_append, List.sum_append]

theorem tasksWork_set {tasks : List DebounceTask} {index : ℕ} {task : DebounceTask}
    (h : tasks[index]? = some task) (task' : DebounceTask) :
    tasksWork (tasks.set index task') + task.work = tasksWork tasks + task'.work := by
  obtain ⟨hlt, rfl⟩ := List.getElem?_eq_some_iff.mp h
  have hsplit : tasks = tasks.take index ++ tasks[index] :: tasks.drop (index + 1) := by
    rw [← List.drop_eq_getElem_cons hlt, List.take_append_drop]
  have hsum := congrArg tasksWork hsplit
  rw [tasksWork_append] at hsum
  rw [List.set_eq_take_append_cons_drop, if_pos hlt, tasksWork_append]
  simp only [tasksWork, List.map_cons, List.sum_cons] at hsum ⊢
  omega

/-- Asking a task to end leaves it its steps. -/
theorem tasksWork_cancelPending (pending : Option ℕ) (tasks : List DebounceTask) :
    tasksWork (cancelPending pending tasks) = tasksWork tasks := by
  cases pending with
  | none => rfl
  | some index =>
    unfold cancelPending tasksWork
    congr 1
    apply List.ext_getElem?
    intro i
    rw [List.getElem?_map, List.getElem?_map, List.getElem?_modify]
    cases tasks[i]? with
    | none => rfl
    | some task =>
      show some _ = some _
      split_ifs
      · simp only [DebounceTask.work, phase_cancel]
      · rfl

/-- The work of all tasks, and of the paths that wait. -/
noncomputable def DirectoryWatcher.work (watcher : DirectoryWatcher) : ℕ :=
  ∑ᶠ path, tasksWork (watcher.tasks path) + watcher.stablePaths.length

/-- Only finitely many paths have tasks. -/
def DirectoryWatcher.Finitary (watcher : DirectoryWatcher) : Prop :=
  {path | watcher.tasks path ≠ []}.Finite

variable {watcher watcher' : DirectoryWatcher} {d : ℚ} {action : WatcherAction} {es : List WatcherEvent}

/-- The work after the tasks of one path have changed. -/
theorem finsum_tasksWork_update (hfin : watcher.Finitary) (path : PosixPath) (tasks : List DebounceTask) :
    ∑ᶠ path', tasksWork (Function.update watcher.tasks path tasks path')
        + tasksWork (watcher.tasks path)
      = ∑ᶠ path', tasksWork (watcher.tasks path') + tasksWork tasks := by
  have hsupport : (fun path' => tasksWork (watcher.tasks path')).support.Finite := by
    refine hfin.subset fun path' h hnil => h ?_
    show tasksWork (watcher.tasks path') = 0
    rw [hnil]
    rfl
  have hupdate := finsum_update_add hsupport path (tasksWork tasks)
  have hcomp := Function.comp_update tasksWork watcher.tasks path tasks
  rw [show Function.update (fun path' => tasksWork (watcher.tasks path')) path (tasksWork tasks)
    = fun path' => tasksWork (Function.update watcher.tasks path tasks path') from hcomp.symm] at hupdate
  exact hupdate

theorem DirectoryWatcher.Finitary.update (hfin : watcher.Finitary) {path : PosixPath}
    {tasks : List DebounceTask} (htasks : watcher'.tasks = Function.update watcher.tasks path tasks) :
    watcher'.Finitary := by
  refine (hfin.insert path).subset fun path' h => ?_
  by_cases heq : path' = path
  · exact .inl heq
  · refine .inr fun hnil => h ?_
    rw [htasks, Function.update_of_ne heq, hnil]

theorem WatcherStep.finitary (step : WatcherStep d watcher action es watcher') (hclose : action ≠ .close)
    (hfin : watcher.Finitary) : watcher'.Finitary := by
  cases step with
  | tick => exact hfin
  | rawEvent => exact hfin.update rfl
  | start => exact hfin.update rfl
  | fire => exact hfin.update rfl
  | cancelled => exact hfin.update rfl
  | emitted => exact hfin.update rfl
  | yielded => exact hfin
  | close => exact absurd rfl hclose

/-- A step of one task that brings it further. -/
theorem work_setTask_lt (hfin : watcher.Finitary) {path : PosixPath} {index : ℕ}
    {task task' : DebounceTask} (hget : (watcher.tasks path)[index]? = some task) (emitted : ℕ)
    (hstable : watcher'.stablePaths.length = watcher.stablePaths.length + emitted)
    (htasks : watcher'.tasks
      = Function.update watcher.tasks path ((watcher.tasks path).set index task'))
    (hwork : task'.work + emitted < task.work) : watcher'.work < watcher.work := by
  have hupdate := finsum_tasksWork_update hfin path ((watcher.tasks path).set index task')
  have hset := tasksWork_set hget task'
  unfold DirectoryWatcher.work
  rw [htasks, hstable]
  omega

theorem WatcherStep.work_lt (step : WatcherStep d watcher action es watcher') (hfin : watcher.Finitary)
    (hown : action.Own) : watcher'.work < watcher.work := by
  cases step with
  | @start path index task hget hcreated =>
    refine work_setTask_lt hfin hget 0 rfl rfl ?_
    split_ifs
    · simp [DebounceTask.work, DebounceTask.finish, hcreated]
    · simp [DebounceTask.work, hcreated]
  | fire hget =>
    refine work_setTask_lt hfin hget 0 rfl rfl ?_
    simp [DebounceTask.work]
  | @cancelled path index task hget hsuspended =>
    refine work_setTask_lt hfin hget 0 rfl rfl ?_
    obtain ⟨phase, cancelRequested⟩ := task
    cases phase with
    | created => exact absurd rfl hsuspended.1
    | finished => exact absurd rfl hsuspended.2
    | sleeping => simp [DebounceTask.work, DebounceTask.finish]
    | fired => simp [DebounceTask.work, DebounceTask.finish]
  | emitted hget =>
    refine work_setTask_lt hfin hget 1 List.length_append rfl ?_
    simp [DebounceTask.work]
  | _ => cases hown

/-- A raw event brings one task. -/
theorem work_debounce (hfin : watcher.Finitary) (path : PosixPath) :
    (watcher.debounce path).work = watcher.work + 4 := by
  have hupdate := finsum_tasksWork_update hfin path
    (cancelPending (watcher.pending path) (watcher.tasks path) ++ [.new])
  rw [tasksWork_append, tasksWork_cancelPending] at hupdate
  have hnew : tasksWork [.new] = 4 := rfl
  unfold DirectoryWatcher.work
  show ∑ᶠ path', tasksWork (Function.update watcher.tasks path
    (cancelPending (watcher.pending path) (watcher.tasks path) ++ [.new]) path') + _ = _
  have hstable : (watcher.debounce path).stablePaths = watcher.stablePaths := rfl
  rw [hstable]
  omega

end Work

/-! ### Own steps -/

/-- A step of the file events, of a debounce task, or of the pipeline. -/
def MonitorAction.Own : MonitorAction → Prop
  | .files action => action.Own
  | .debounce action => action.Own
  | .detect => True
  | .service action => action.Own
  | _ => False

/-! ### Coming to rest -/

namespace Monitor

/-- Only time brings the monitor further: the file events wait for the kernel, every debounce task has
ended or sleeps, and no path is on its way to the dispatcher. -/
structure Resting (config : MonitorConfig) (monitor : Monitor) : Prop where
  files : monitor.files.Quiet
  tasks : ∀ path, ∀ task ∈ monitor.watcher.tasks path, task.phase = .finished ∨
    ∃ since, task = ⟨.sleeping since, false⟩ ∧ monitor.watcher.now < since + config.debounceSeconds
  stablePaths : monitor.watcher.stablePaths = []
  pipeline : monitor.service.core.pipeline = .idle

/-- What own steps keep. -/
structure OwnInv (monitor : Monitor) : Prop where
  listening : monitor.watcher.listening = true
  isOpen : monitor.files.Open
  listable : monitor.files.Listable
  finitary : monitor.watcher.Finitary

/-- What is left to do outside the dispatches. -/
noncomputable def work (monitor : Monitor) : ℕ := 5 * monitor.files.work + monitor.watcher.work

/-- Own steps go down in this order. -/
def Below (monitor' monitor : Monitor) : Prop :=
  Prod.Lex (· < ·) Pipeline.After (monitor'.work, monitor'.service.core.pipeline)
    (monitor.work, monitor.service.core.pipeline)

theorem wellFounded_below : WellFounded Below :=
  InvImage.wf (fun monitor : Monitor => (monitor.work, monitor.service.core.pipeline))
    (WellFounded.prod_lex Nat.lt_wfRel.wf wellFounded_after)

end Monitor

section Rest

variable {config : MonitorConfig} {monitor monitor' : Monitor} {action : MonitorAction}
  {es : List MonitorEvent}

/-- **One own step.** -/
theorem MonitorStep.below (step : MonitorStep config monitor action es monitor') (hown : action.Own)
    (hinv : monitor.OwnInv) : monitor'.OwnInv ∧ monitor'.Below monitor := by
  obtain ⟨hlistening, hopen, hlistable, hfin⟩ := hinv
  cases step with
  | files hfiles =>
    have hstep := inotifyStep_of_step hfiles
    have hless := hstep.work_lt hown
    refine ⟨⟨hlistening, hstep.open_of_own hown hopen, hstep.listable hlistable, hfin⟩, .left _ _ ?_⟩
    unfold Monitor.work
    dsimp only
    omega
  | @item _ _ path hfiles =>
    have hstep := inotifyStep_of_step hfiles
    have hless := hstep.work_lt hown
    have hdebounce := work_debounce hfin path
    refine ⟨⟨hlistening, hstep.open_of_own hown hopen, hstep.listable hlistable, hfin.update rfl⟩,
      .left _ _ ?_⟩
    unfold Monitor.work
    dsimp only
    omega
  | @debounce _ watcher' _ _ _ hclose hwatcher =>
    have hless := hwatcher.work_lt hfin hown
    have hkept : watcher'.listening = monitor.watcher.listening := by
      cases hwatcher with
      | close => exact absurd rfl hclose
      | _ => rfl
    refine ⟨⟨hkept.trans hlistening, hopen, hlistable, hwatcher.finitary hclose hfin⟩, .left _ _ ?_⟩
    unfold Monitor.work
    dsimp only
    omega
  | detect _ hhead =>
    refine ⟨⟨hlistening, hopen, hlistable, hfin⟩, .left _ _ ?_⟩
    unfold Monitor.work DirectoryWatcher.work
    dsimp only
    rw [hhead, List.length_cons]
    omega
  | service _ _ hservice =>
    exact ⟨⟨hlistening, hopen, hlistable, hfin⟩, .right _ (after_of_own hown hservice)⟩
  | tick => cases hown
  | left => cases hown

/-- A step of the file events is one of the monitor. -/
theorem isSome_stepFiles {action : INotifyAction} (hlistening : monitor.watcher.listening = true)
    (h : (monitor.files.step config.watchPath action).isSome) :
    (monitor.stepFiles config action).isSome := by
  obtain ⟨⟨files, es⟩, hstep⟩ := Option.isSome_iff_exists.mp h
  unfold Monitor.stepFiles
  rw [hstep]
  dsimp only [Option.bind_eq_bind, Option.bind_some]
  split
  · simp [DirectoryWatcher.step, hlistening]
  · rfl

/-- A debounce task goes on, unless it has ended or its time has not come. -/
theorem exists_own_task_step {d : ℚ} {watcher : DirectoryWatcher} {path : PosixPath} {task : DebounceTask}
    (hmem : task ∈ watcher.tasks path) : (task.phase = .finished ∨
      ∃ since, task = ⟨.sleeping since, false⟩ ∧ watcher.now < since + d) ∨
    ∃ action : WatcherAction, action.Own ∧ (watcher.step d action).isSome := by
  obtain ⟨index, hget⟩ := List.mem_iff_getElem?.mp hmem
  obtain ⟨phase, cancelRequested⟩ := task
  cases phase with
  | created =>
    refine .inr ⟨.start path index, trivial, ?_⟩
    simp [DirectoryWatcher.step, hget, stepTask]
  | finished => exact .inl (.inl rfl)
  | fired =>
    refine .inr ⟨.resume path index, trivial, ?_⟩
    cases cancelRequested <;> simp [DirectoryWatcher.step, hget, stepTask]
  | sleeping since =>
    cases cancelRequested with
    | true =>
      refine .inr ⟨.resume path index, trivial, ?_⟩
      simp [DirectoryWatcher.step, hget, stepTask]
    | false =>
      rcases lt_or_ge watcher.now (since + d) with hearly | hdue
      · exact .inl (.inr ⟨since, rfl, hearly⟩)
      · refine .inr ⟨.fire path index, trivial, ?_⟩
        simp [DirectoryWatcher.step, hget, stepTask, hdue]

/-- While the monitor is not at rest, it has a step of its own to take. -/
theorem exists_own_monitor_step (hinv : monitor.OwnInv) :
    monitor.Resting config ∨
      ∃ action : MonitorAction, action.Own ∧ ((Monitor.machine config).step monitor action).isSome := by
  obtain ⟨hlistening, hopen, hlistable, hfin⟩ := hinv
  rcases exists_own_step config.watchPath hlistable hopen.2 with hquiet | ⟨action, hown, hsome⟩
  · by_cases htask : ∃ action : WatcherAction, action.Own ∧
      (monitor.watcher.step config.debounceSeconds action).isSome
    · obtain ⟨action, hown, hsome⟩ := htask
      refine .inr ⟨.debounce action, hown, ?_⟩
      obtain ⟨⟨watcher, events⟩, hstep⟩ := Option.isSome_iff_exists.mp hsome
      cases action with
      | start => simp [Monitor.machine, Monitor.step, Monitor.stepWatcher, hstep]
      | fire => simp [Monitor.machine, Monitor.step, Monitor.stepWatcher, hstep]
      | resume => simp [Monitor.machine, Monitor.step, Monitor.stepWatcher, hstep]
      | _ => cases hown
    · by_cases hidle : monitor.service.core.pipeline = .idle
      · cases hstable : monitor.watcher.stablePaths with
        | nil =>
          refine .inl ⟨hquiet, fun path task hmem => ?_, hstable, hidle⟩
          exact (exists_own_task_step hmem).resolve_right htask
        | cons path stablePaths =>
          refine .inr ⟨.detect, trivial, ?_⟩
          simp [Monitor.machine, Monitor.step, Monitor.stepWatcher, Monitor.stepService,
            DirectoryWatcher.step, Service.step, Service.stepCore, Core.step, hstable, hlistening, hidle]
      · obtain ⟨action, hown, hsome⟩ := exists_own_service_step config.pb config.dispatcher
          config.expectedProtoHash hidle
        refine .inr ⟨.service action, hown, ?_⟩
        obtain ⟨⟨service, events⟩, hstep⟩ := Option.isSome_iff_exists.mp hsome
        have hservice : (monitor.stepService config action).isSome := by
          unfold Monitor.stepService
          rw [hstep]
          rfl
        cases action with
        | core action =>
          cases action with
          | tick => cases hown
          | detect => cases hown
          | _ => exact hservice
        | send => exact hservice
        | _ => cases hown
  · refine .inr ⟨.files action, hown, ?_⟩
    have hfiles := isSome_stepFiles hlistening hsome
    cases action with
    | close => cases hown
    | cancel => cases hown
    | _ => exact hfiles

/-! ### Time -/

/-- A task seen after one of the tasks of a path has changed. -/
theorem mem_of_mem_update_set {tasks : PosixPath → List DebounceTask} {path path' : PosixPath} {index : ℕ}
    {task task' : DebounceTask}
    (h : task' ∈ Function.update tasks path ((tasks path).set index task) path') :
    task' ∈ tasks path' ∨ task' = task := by
  by_cases heq : path' = path
  · rw [heq, Function.update_self] at h
    rw [heq]
    exact List.mem_or_eq_of_mem_set h
  · rw [Function.update_of_ne heq] at h
    exact .inl h

/-- A task seen after a raw event is one as before, perhaps asked to end, or has not started. -/
theorem phase_of_mem_debounce {watcher : DirectoryWatcher} {path path' : PosixPath} {task' : DebounceTask}
    (h : task' ∈ (watcher.debounce path).tasks path') :
    (∃ task ∈ watcher.tasks path', task'.phase = task.phase) ∨ task'.phase = .created := by
  by_cases heq : path' = path
  · subst heq
    have hmem : task' ∈ cancelPending (watcher.pending path') (watcher.tasks path') ++ [.new] := by
      rwa [← show (watcher.debounce path').tasks path' = _ from Function.update_self ..]
    rcases List.mem_append.mp hmem with hmem | hmem
    · obtain ⟨index, hget⟩ := List.mem_iff_getElem?.mp hmem
      obtain ⟨task, hold, hphase, -⟩ := getElem?_cancelPending hget
      exact .inl ⟨task, List.mem_of_getElem? hold, hphase⟩
    · rw [List.mem_singleton.mp hmem]
      exact .inr rfl
  · have htasks : (watcher.debounce path).tasks path' = watcher.tasks path' := Function.update_of_ne heq ..
    rw [htasks] at h
    exact .inl ⟨task', h, rfl⟩

/-- The file events wait for the kernel, and every debounce task has ended or is due. -/
structure Monitor.Due (config : MonitorConfig) (monitor : Monitor) : Prop where
  files : monitor.files.Quiet
  tasks : ∀ path, ∀ task ∈ monitor.watcher.tasks path, task.phase = .finished ∨ task.phase = .fired ∨
    ∃ since, task.phase = .sleeping since ∧ since + config.debounceSeconds ≤ monitor.watcher.now

/-- What is at rest is due once the debounce time has passed. -/
theorem Monitor.Resting.due (h : monitor.Resting config) {seconds : ℚ}
    (hsince : ∀ path, ∀ task ∈ monitor.watcher.tasks path, ∀ since, task.phase = .sleeping since →
      since ≤ monitor.watcher.now)
    (hlong : config.debounceSeconds ≤ seconds)
    (step : MonitorStep config monitor (.tick seconds) es monitor') : monitor'.Due config := by
  cases step with
  | tick =>
    refine ⟨h.files, fun path task hmem => ?_⟩
    rcases h.tasks path task hmem with hfinished | ⟨since, rfl, -⟩
    · exact .inl hfinished
    · refine .inr (.inr ⟨since, rfl, ?_⟩)
      show since + _ ≤ monitor.watcher.now + seconds
      linarith [hsince path _ hmem since rfl]

/-- Only a file event or a raw event brings a task that is not due. -/
theorem MonitorStep.due (step : MonitorStep config monitor action es monitor') (hown : action.Own)
    (h : monitor.Due config) : monitor'.Due config := by
  have hfiles {action : INotifyAction} {files : INotifyEvents} {events : List FileEvent}
      (hown : action.Own) (hstep : monitor.files.step config.watchPath action = some (files, events)) :
      False := by
    obtain ⟨hreading, hitems⟩ := h.files
    cases inotifyStep_of_step hstep with
    | read _ _ hnonempty => exact hnonempty hitems
    | resumed hread => cases hreading.symm.trans hread
    | listed hlisting => cases hreading.symm.trans hlisting
    | item hhandling => cases hreading.symm.trans hhandling
    | overflowed hhandling => cases hreading.symm.trans hhandling
    | yielded hhandling => cases hreading.symm.trans hhandling
    | skipped hhandling => cases hreading.symm.trans hhandling
    | looped hhandling => cases hreading.symm.trans hhandling
    | _ => cases hown
  cases step with
  | files hstep => exact (hfiles hown hstep).elim
  | item hstep => exact (hfiles hown hstep).elim
  | @debounce _ watcher' _ _ _ _ hwatcher =>
    refine ⟨h.files, fun path' task' hmem => ?_⟩
    -- one task changes, and the time stays
    have hset {path : PosixPath} {index : ℕ} {task : DebounceTask}
        (htask : task.phase = .finished ∨ task.phase = .fired)
        (hmem : task' ∈ Function.update monitor.watcher.tasks path
          ((monitor.watcher.tasks path).set index task) path') :
        task'.phase = .finished ∨ task'.phase = .fired ∨
          ∃ since, task'.phase = .sleeping since ∧
            since + config.debounceSeconds ≤ monitor.watcher.now := by
      rcases mem_of_mem_update_set hmem with hold | rfl
      · exact h.tasks path' task' hold
      · exact htask.imp_right .inl
    cases hwatcher with
    | start hget hcreated =>
      rcases h.tasks _ _ (List.mem_of_getElem? hget) with hphase | hphase | ⟨since, hphase, -⟩
      all_goals cases hcreated.symm.trans hphase
    | fire => exact hset (.inr rfl) hmem
    | cancelled => exact hset (.inl rfl) hmem
    | emitted => exact hset (.inl rfl) hmem
    | _ => cases hown
  | detect => exact ⟨h.files, h.tasks⟩
  | service => exact ⟨h.files, h.tasks⟩
  | tick => cases hown
  | left => cases hown

/-- At rest, what is due has ended. -/
theorem Monitor.Resting.quiet (h : monitor.Resting config) (hdue : monitor.Due config) :
    monitor.Quiet := by
  refine ⟨h.files, ?_, h.stablePaths⟩
  rintro path index ⟨task, hget, hphase, -⟩
  have hmem := List.mem_of_getElem? hget
  rcases h.tasks path task hmem with hfinished | ⟨since, rfl, hearly⟩
  · exact hphase hfinished
  · rcases hdue.tasks path _ hmem with hfinished | hfired | ⟨since', hsince, hlate⟩
    · cases hfinished
    · cases hfired
    · obtain rfl := TaskPhase.sleeping.inj hsince
      exact not_lt_of_ge hlate hearly

/-! ### Runs -/

variable {tr : List MonitorEvent}

/-- The listener is there; the tasks are of finitely many paths, and none went to sleep in the future. -/
structure TasksInv (watcher : DirectoryWatcher) : Prop where
  listening : watcher.listening = true
  finitary : watcher.Finitary
  since : ∀ path, ∀ task ∈ watcher.tasks path, ∀ since, task.phase = .sleeping since →
    since ≤ watcher.now

theorem TasksInv.of_runs {d : ℚ} {watcher : DirectoryWatcher} {tr : List WatcherEvent}
    (run : (DirectoryWatcher.machine d).RunsUnder (fun _ _ action => action ≠ .close) tr watcher) :
    TasksInv watcher := by
  refine run.invariant (I := fun _ watcher => TasksInv watcher)
    ⟨rfl, ?_, fun path task hmem => by cases hmem⟩
    fun tr watcher action watcher' es _ hinv hclose hstep => ?_
  · have hempty : {path | DirectoryWatcher.initial.tasks path ≠ []} = ∅ := by
      apply Set.eq_empty_of_forall_notMem
      exact fun path h => h rfl
    show {path | DirectoryWatcher.initial.tasks path ≠ []}.Finite
    rw [hempty]
    exact Set.finite_empty
  · have step := watcherStep_of_step hstep
    have hlistening : watcher'.listening = watcher.listening := by
      cases step with
      | close => exact absurd rfl hclose
      | _ => rfl
    refine ⟨hlistening.trans hinv.listening, step.finitary hclose hinv.finitary,
      fun path' task' hmem since hsince => ?_⟩
    have hset {path : PosixPath} {index : ℕ} {task : DebounceTask}
        (htask : ∀ since, task.phase = .sleeping since → since ≤ watcher.now)
        (hmem : task' ∈ Function.update watcher.tasks path ((watcher.tasks path).set index task) path') :
        since ≤ watcher.now := by
      rcases mem_of_mem_update_set hmem with hold | rfl
      · exact hinv.since path' task' hold since hsince
      · exact htask since hsince
    cases step with
    | @tick seconds hnonneg =>
      show since ≤ watcher.now + seconds
      linarith [hinv.since path' task' hmem since hsince]
    | rawEvent =>
      rcases phase_of_mem_debounce hmem with ⟨task, hold, hphase⟩ | hphase
      · exact hinv.since path' task hold since (hphase.symm.trans hsince)
      · cases hphase.symm.trans hsince
    | start =>
      refine hset (fun since h => ?_) hmem
      split_ifs at h
      · cases h
      · exact (TaskPhase.sleeping.inj h).ge
    | fire => exact hset (fun since h => by cases h) hmem
    | cancelled => exact hset (fun since h => by cases h) hmem
    | emitted => exact hset (fun since h => by cases h) hmem
    | yielded => exact hinv.since path' task' hmem since hsince
    | close => exact absurd rfl hclose

/-- **The monitor comes to rest.**  In every run in which the listener is not left and the file events
have not failed, while the directory does not change, no message comes in, and `stat` and the hasher
answer:

* the steps of the file events, of the debounce tasks and of the dispatches come to an end, in whatever
  order they are taken, where every path is dispatched or waits for its debounce time;
* after the debounce time they come to an end where no path is waiting at all. -/
theorem monitor_comes_to_rest (run : (Monitor.machine config).RunsUnder Stays tr monitor)
    (hopen : monitor.files.Open) :
    (Monitor.machine config).Settles MonitorAction.Own (Monitor.Resting config) monitor ∧
    (monitor.Resting config → ∀ seconds, config.debounceSeconds ≤ seconds → ∀ monitor' es,
      monitor.step config (.tick seconds) = some (monitor', es) →
      (Monitor.machine config).Settles MonitorAction.Own
        (fun monitor => monitor.Quiet ∧ monitor.service.core.pipeline = .idle) monitor') := by
  have hsettles {monitor : Monitor} (hinv : monitor.OwnInv) :
      (Monitor.machine config).Settles MonitorAction.Own (Monitor.Resting config) monitor := by
    refine EventMachine.settles_of_wellFounded Monitor.wellFounded_below (I := Monitor.OwnInv) ?_ ?_ hinv
    · intro monitor action monitor' es hinv hown hstep
      exact (monitorStep_of_step hstep).below hown hinv
    · exact fun monitor hinv => exists_own_monitor_step hinv
  have htasks := TasksInv.of_runs (runs_of_listening (watcher_runs run) (listening_of_stays run))
  have hinv : monitor.OwnInv :=
    ⟨htasks.listening, hopen, (FileInv.of_runs (files_runs run)).listable, htasks.finitary⟩
  refine ⟨hsettles hinv, fun hresting seconds hlong monitor' es hstep => ?_⟩
  have step := monitorStep_of_step hstep
  have hdue := hresting.due htasks.since hlong step
  have hinv' : monitor'.OwnInv := by
    cases step with
    | tick => exact ⟨hinv.listening, hinv.isOpen, hinv.listable, hinv.finitary⟩
  refine ((hsettles hinv').and_kept hdue fun monitor action monitor' es hdue hown hstep => ?_).mono ?_
  · exact (monitorStep_of_step hstep).due hown hdue
  · exact fun monitor ⟨hresting, hdue⟩ => ⟨hresting.quiet hdue, hresting.pipeline⟩

end Rest

/-- Both files of the full queue sleep. -/
def sleepingMonitorActions : List MonitorAction :=
  overflowActions.map .files ++
    [.debounce (.start (itemPath inbox fileA) 0), .debounce (.start (itemPath inbox fileA) 1),
      .debounce (.start (itemPath inbox fileB) 0)]

theorem monitor_comes_to_rest_sleeping : ∃ monitor monitor' : Monitor,
    monitor.step monitorConfig (.tick debounceSeconds) = some (monitor', []) ∧
      (Monitor.machine monitorConfig).Settles MonitorAction.Own
        (fun monitor => monitor.Quiet ∧ monitor.service.core.pipeline = .idle) monitor' := by
  obtain ⟨monitor, run, hexec⟩ := EventMachine.exists_runsUnder_of_map_eq
    (show ((Monitor.machine monitorConfig).runUnder Stays [] (Monitor.machine monitorConfig).init
        sleepingMonitorActions).map Prod.fst = some (overflowMonitorTrace.take 10) by decide +kernel)
  have hstate : ((Monitor.machine monitorConfig).runUnder Stays [] (Monitor.machine monitorConfig).init
      sleepingMonitorActions).map (fun result =>
        decide (result.2.files.Open ∧ result.2.files.Quiet ∧ result.2.watcher.stablePaths = [] ∧
          result.2.watcher.now = 0 ∧
          ∀ path ∈ rawPaths ((overflowMonitorTrace.take 10).filterMap MonitorEvent.watcher?),
            ∀ task ∈ result.2.watcher.tasks path,
              task.phase = .finished ∨ task = ⟨.sleeping 0, false⟩)) = some true := by decide +kernel
  have hidle : ((Monitor.machine monitorConfig).runUnder Stays [] (Monitor.machine monitorConfig).init
      sleepingMonitorActions).map (fun result => result.2.service.core.pipeline) = some .idle := rfl
  rw [hexec, Option.map_some, Option.some.injEq, decide_eq_true_iff] at hstate
  rw [hexec, Option.map_some, Option.some.injEq] at hidle
  obtain ⟨hopen, hquiet, hstable, hnow, htasks⟩ := hstate
  have hresting : monitor.Resting monitorConfig := by
    refine ⟨hquiet, fun path task hmem => ?_, hstable, hidle⟩
    refine (htasks path (mem_rawPaths_of_mem_tasks (watcher_runs run) hmem) task hmem).imp_right ?_
    rintro rfl
    refine ⟨0, rfl, ?_⟩
    rw [hnow]
    decide +kernel
  have hnonneg : 0 ≤ debounceSeconds := by decide +kernel
  have htick : (monitor.step monitorConfig (.tick debounceSeconds)).map Prod.snd = some [] := by
    simp only [Monitor.step, Monitor.stepWatcher, Monitor.stepService, DirectoryWatcher.step, Service.step,
      Service.stepCore, Core.step, if_pos hnonneg]
    rfl
  obtain ⟨⟨monitor', es⟩, htick, rfl⟩ := Option.map_eq_some_iff.mp htick
  exact ⟨monitor, monitor', htick,
    (monitor_comes_to_rest run hopen).2 hresting debounceSeconds le_rfl monitor' _ htick⟩

end FileMonitor
