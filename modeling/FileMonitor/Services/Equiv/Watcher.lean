import FileMonitor.Services.Watcher
import Mathlib.Tactic.Linarith

/-!
# Debouncing

* `debounce_neither_loses_nor_duplicates`: in every run in which the listener is not left, a path has a
  live debounce task while its latest raw event is not settled, only that task emits, at least the
  debounce time after that event, and no other path has a say in it.
-/

namespace FileMonitor

open DirectoryWatcher

/-! ### Steps -/

/-- What one step does to the watcher, and its events. -/
inductive WatcherStep (debounceSeconds : ℚ) (watcher : DirectoryWatcher) :
    WatcherAction → List WatcherEvent → DirectoryWatcher → Prop where
  | tick {seconds} (nonneg : 0 ≤ seconds) :
    WatcherStep debounceSeconds watcher (.tick seconds) []
      { watcher with now := watcher.now + seconds }
  | rawEvent {path} (listening : watcher.listening = true) :
    WatcherStep debounceSeconds watcher (.rawEvent path)
      [.rawEvent path (watcher.tasks path).length watcher.now] (watcher.debounce path)
  | start {path index task} (get : (watcher.tasks path)[index]? = some task)
    (created : task.phase = .created) :
    WatcherStep debounceSeconds watcher (.start path index) []
      (watcher.setTasks path ((watcher.tasks path).set index
        (if task.cancelRequested then task.finish else { task with phase := .sleeping watcher.now })))
  | fire {path index since} (get : (watcher.tasks path)[index]? = some ⟨.sleeping since, false⟩)
    (due : since + debounceSeconds ≤ watcher.now) :
    WatcherStep debounceSeconds watcher (.fire path index) []
      (watcher.setTasks path ((watcher.tasks path).set index ⟨.fired, false⟩))
  | cancelled {path index task} (get : (watcher.tasks path)[index]? = some task)
    (suspended : task.phase ≠ .created ∧ task.phase ≠ .finished)
    (requested : task.cancelRequested = true) :
    WatcherStep debounceSeconds watcher (.resume path index) []
      (watcher.setTasks path ((watcher.tasks path).set index task.finish))
  | emitted {path index} (get : (watcher.tasks path)[index]? = some ⟨.fired, false⟩) :
    WatcherStep debounceSeconds watcher (.resume path index) [.emitted path index watcher.now]
      ((watcher.setTasks path ((watcher.tasks path).set index ⟨.finished, false⟩)).emit path index)
  | yielded {path stablePaths} (listening : watcher.listening = true)
    (head : watcher.stablePaths = path :: stablePaths) :
    WatcherStep debounceSeconds watcher .yield [.yielded path]
      { watcher with stablePaths := stablePaths }
  | close (listening : watcher.listening = true) :
    WatcherStep debounceSeconds watcher .close [] watcher.leave

variable {d : ℚ} {watcher watcher' : DirectoryWatcher}

theorem watcherStep_of_step {action : WatcherAction} {es : List WatcherEvent}
    (h : watcher.step d action = some (watcher', es)) :
    WatcherStep d watcher action es watcher' := by
  cases action with
  | tick seconds =>
    rw [DirectoryWatcher.step] at h
    split_ifs at h with hnonneg
    obtain ⟨rfl, rfl⟩ := Prod.mk.inj (Option.some.inj h)
    exact .tick hnonneg
  | rawEvent path =>
    rw [DirectoryWatcher.step] at h
    split_ifs at h with hlistening
    obtain ⟨rfl, rfl⟩ := Prod.mk.inj (Option.some.inj h)
    exact .rawEvent hlistening
  | yield =>
    rw [DirectoryWatcher.step] at h
    split_ifs at h with hlistening
    split at h
    · cases h
    · rename_i path stablePaths hhead
      obtain ⟨rfl, rfl⟩ := Prod.mk.inj (Option.some.inj h)
      exact .yielded hlistening hhead
  | close =>
    rw [DirectoryWatcher.step] at h
    split_ifs at h with hlistening
    obtain ⟨rfl, rfl⟩ := Prod.mk.inj (Option.some.inj h)
    exact .close hlistening
  | start path index =>
    obtain ⟨task, hget, h⟩ := Option.bind_eq_some_iff.mp h
    by_cases hcreated : task.phase = .created
    · rw [stepTask, if_pos hcreated] at h
      obtain ⟨rfl, rfl⟩ := Prod.mk.inj (Option.some.inj h)
      exact .start hget hcreated
    · rw [stepTask, if_neg hcreated] at h
      cases h
  | fire path index =>
    obtain ⟨task, hget, h⟩ := Option.bind_eq_some_iff.mp h
    unfold stepTask at h
    dsimp only at h
    split at h
    · rename_i since
      split_ifs at h with hdue
      obtain ⟨rfl, rfl⟩ := Prod.mk.inj (Option.some.inj h)
      exact .fire hget hdue
    · cases h
  | resume path index =>
    obtain ⟨task, hget, h⟩ := Option.bind_eq_some_iff.mp h
    unfold stepTask at h
    dsimp only at h
    split at h
    · obtain ⟨rfl, rfl⟩ := Prod.mk.inj (Option.some.inj h)
      exact .cancelled hget ⟨nofun, nofun⟩ rfl
    · obtain ⟨rfl, rfl⟩ := Prod.mk.inj (Option.some.inj h)
      exact .cancelled hget ⟨nofun, nofun⟩ rfl
    · obtain ⟨rfl, rfl⟩ := Prod.mk.inj (Option.some.inj h)
      exact .emitted hget
    · cases h

theorem step_of_watcherStep {action : WatcherAction} {es : List WatcherEvent}
    (h : WatcherStep d watcher action es watcher') : watcher.step d action = some (watcher', es) := by
  cases h with
  | tick hnonneg => exact if_pos hnonneg
  | rawEvent hlistening => exact if_pos hlistening
  | start hget hcreated =>
    rw [DirectoryWatcher.step, hget]
    exact if_pos hcreated
  | fire hget hdue =>
    rw [DirectoryWatcher.step, hget]
    exact if_pos hdue
  | @cancelled path index task hget hsuspended hrequested =>
    rw [DirectoryWatcher.step, hget]
    obtain ⟨phase, cancelRequested⟩ := task
    obtain rfl : cancelRequested = true := hrequested
    cases phase with
    | created => exact absurd rfl hsuspended.1
    | finished => exact absurd rfl hsuspended.2
    | sleeping | fired => rfl
  | emitted hget =>
    rw [DirectoryWatcher.step, hget]
    rfl
  | yielded hlistening hhead =>
    rw [DirectoryWatcher.step, if_pos hlistening, hhead]
  | close hlistening => exact if_pos hlistening

/-! ### What the events say -/

/-- The raw events of a path: the number of the task each has created, and its time. -/
def rawEventsOf (path : PosixPath) (tr : List WatcherEvent) : List (ℕ × ℚ) :=
  tr.filterMap fun
    | .rawEvent path' index time => if path' = path then some (index, time) else none
    | _ => none

/-- The latest raw event of the path created this task at this time. -/
def LatestRawEvent (path : PosixPath) (tr : List WatcherEvent) (index : ℕ) (time : ℚ) : Prop :=
  ∃ pre post, tr = pre ++ .rawEvent path index time :: post ∧ ∀ j u, .rawEvent path j u ∉ post

/-- The latest raw event of the path has not been followed by an emission of it. -/
def Unsettled (path : PosixPath) (tr : List WatcherEvent) : Prop :=
  ∃ pre index time post, tr = pre ++ .rawEvent path index time :: post ∧
    (∀ j u, .rawEvent path j u ∉ post) ∧ ∀ j u, .emitted path j u ∉ post

/-- Neither finished nor requested to cancel. -/
def DebounceTask.Live (task : DebounceTask) : Prop :=
  task.phase ≠ .finished ∧ task.cancelRequested = false

/-- The path has a live task with this number. -/
def LiveAt (watcher : DirectoryWatcher) (path : PosixPath) (index : ℕ) : Prop :=
  ∃ task, (watcher.tasks path)[index]? = some task ∧ task.Live

section Events

variable {path : PosixPath} {tr : List WatcherEvent}

theorem rawEventsOf_append (es : List WatcherEvent) :
    rawEventsOf path (tr ++ es) = rawEventsOf path tr ++ rawEventsOf path es := List.filterMap_append

theorem mem_rawEventsOf {index : ℕ} {time : ℚ} :
    (index, time) ∈ rawEventsOf path tr ↔ .rawEvent path index time ∈ tr := by
  constructor
  · intro h
    obtain ⟨event, hmem, hevent⟩ := List.mem_filterMap.mp h
    split at hevent
    · split_ifs at hevent with hpath
      obtain ⟨rfl, rfl⟩ := Prod.mk.inj (Option.some.inj hevent)
      exact hpath ▸ hmem
    · cases hevent
  · intro h
    exact List.mem_filterMap.mpr ⟨_, h, if_pos rfl⟩

theorem latestRawEvent_of_getLast? {index : ℕ} {time : ℚ}
    (h : (rawEventsOf path tr).getLast? = some (index, time)) : LatestRawEvent path tr index time := by
  obtain ⟨pre, event, post, rfl, hevent, hpost⟩ :=
    EventMachine.exists_split_of_getLast?_filterMap h
  split at hevent
  · split_ifs at hevent with hpath
    obtain ⟨rfl, rfl⟩ := Prod.mk.inj (Option.some.inj hevent)
    refine ⟨pre, post, hpath ▸ rfl, fun j u hmem => ?_⟩
    have hnone := hpost _ hmem
    simp at hnone
  · cases hevent

/-- After one more event, the latest raw event is unsettled if it is that event, or if it was so before
and the event does not settle it. -/
theorem unsettled_append_singleton {event : WatcherEvent} (h : Unsettled path (tr ++ [event])) :
    (∃ index time, event = .rawEvent path index time) ∨
      Unsettled path tr ∧ ∀ index time, event ≠ .emitted path index time := by
  obtain ⟨pre, index, time, post, htr, hraw, hemitted⟩ := h
  rcases EventMachine.split_of_append_singleton htr with ⟨rfl, rfl, rfl⟩ | ⟨mid, rfl, rfl⟩
  · exact .inl ⟨index, time, rfl⟩
  · refine .inr ⟨⟨pre, index, time, mid, rfl, fun j u hmem => ?_, fun j u hmem => ?_⟩, ?_⟩
    · exact hraw j u (by simp [hmem])
    · exact hemitted j u (by simp [hmem])
    · rintro j u rfl
      exact hemitted j u (by simp)

end Events

/-! ### The invariant of one path -/

/-- A task that a raw event has created at time `created` is no further than its timer allows. -/
def DebounceTask.OnTime (d created now : ℚ) (task : DebounceTask) : Prop :=
  created ≤ now ∧
    match task.phase with
    | .sleeping since => created ≤ since
    | .fired => created + d ≤ now
    | _ => True

/-- What holds of the tasks of one path in every run. -/
structure PathInv (d : ℚ) (path : PosixPath) (tr : List WatcherEvent) (watcher : DirectoryWatcher) :
    Prop where
  /-- Each raw event has created one task. -/
  indices : (rawEventsOf path tr).map Prod.fst = List.range (watcher.tasks path).length
  live : ∀ index, LiveAt watcher path index →
    watcher.pending path = some index ∧ index + 1 = (watcher.tasks path).length
  /-- Leaving the listener keeps the entries of `_pending`, but cancels their tasks. -/
  pending : watcher.listening = true → ∀ index, watcher.pending path = some index →
    LiveAt watcher path index
  unsettled : watcher.listening = true → Unsettled path tr → watcher.pending path ≠ none
  onTime : ∀ index task time, (watcher.tasks path)[index]? = some task →
    .rawEvent path index time ∈ tr → task.OnTime d time watcher.now
  /-- A task that has emitted is there no more. -/
  emitted : ∀ index time, .emitted path index time ∈ tr → ¬ LiveAt watcher path index ∧
    index < (watcher.tasks path).length

section Invariant

variable {path : PosixPath} {tr : List WatcherEvent}

theorem PathInv.initial (d : ℚ) (path : PosixPath) : PathInv d path [] DirectoryWatcher.initial where
  indices := rfl
  live := by
    rintro index ⟨task, hget, -⟩
    cases hget
  pending _ := nofun
  unsettled := by
    rintro - ⟨pre, index, time, post, htr, -⟩
    simp at htr
  onTime := nofun
  emitted := nofun

/-- The task with number `index` belongs to the raw event that has created it. -/
theorem PathInv.lt_length (hinv : PathInv d path tr watcher) {index : ℕ} {time : ℚ}
    (h : .rawEvent path index time ∈ tr) : index < (watcher.tasks path).length := by
  have hmem : index ∈ (rawEventsOf path tr).map Prod.fst :=
    List.mem_map.mpr ⟨(index, time), mem_rawEventsOf.mpr h, rfl⟩
  rw [hinv.indices] at hmem
  exact List.mem_range.mp hmem

/-- A live task was created by the latest raw event of its path. -/
theorem PathInv.latest (hinv : PathInv d path tr watcher) {index : ℕ} (h : LiveAt watcher path index) :
    ∃ time, LatestRawEvent path tr index time := by
  obtain ⟨-, hlength⟩ := hinv.live index h
  have hlast : ((rawEventsOf path tr).map Prod.fst).getLast? = some index := by
    rw [hinv.indices, ← hlength, List.range_succ]
    simp
  rw [List.getLast?_map] at hlast
  obtain ⟨⟨index', time⟩, hraw, rfl⟩ := Option.map_eq_some_iff.mp hlast
  exact ⟨time, latestRawEvent_of_getLast? hraw⟩

theorem PathInv.length_of_latest (hinv : PathInv d path tr watcher) {index : ℕ} {time : ℚ}
    (h : LatestRawEvent path tr index time) : index + 1 = (watcher.tasks path).length := by
  obtain ⟨pre, post, rfl, hnone⟩ := h
  have hpost : rawEventsOf path post = [] := by
    rw [List.eq_nil_iff_forall_not_mem]
    rintro ⟨j, u⟩ hmem
    exact hnone j u (mem_rawEventsOf.mp hmem)
  have hcons : rawEventsOf path (.rawEvent path index time :: post)
      = (index, time) :: rawEventsOf path post := List.filterMap_cons_some (if_pos rfl)
  have hindices := hinv.indices
  rw [rawEventsOf_append, hcons, hpost, List.map_append] at hindices
  have hlast := congrArg List.getLast? hindices
  rw [List.map_singleton, List.getLast?_append_cons, List.getLast?_singleton,
    List.getLast?_range] at hlast
  split_ifs at hlast with hzero
  have hindex := Option.some.inj hlast
  omega

/-- A step that leaves the path alone, while time may pass. -/
theorem PathInv.frame (hinv : PathInv d path tr watcher) {es : List WatcherEvent}
    (htasks : watcher'.tasks path = watcher.tasks path)
    (hpending : watcher'.pending path = watcher.pending path) (hnow : watcher.now ≤ watcher'.now)
    (hlistening : watcher'.listening = watcher.listening)
    (hes : es = [] ∨ ∃ event, es = [event] ∧ (event.path ≠ path ∨ event = .yielded path)) :
    PathInv d path (tr ++ es) watcher' := by
  -- no raw event and no emission of the path
  have hraw (index : ℕ) (time : ℚ) : .rawEvent path index time ∉ es := by
    rcases hes with rfl | ⟨event, rfl, hevent⟩
    · exact List.not_mem_nil
    · rintro hmem
      obtain rfl := List.mem_singleton.mp hmem
      exact hevent.elim (fun h => h rfl) nofun
  have hemitted (index : ℕ) (time : ℚ) : .emitted path index time ∉ es := by
    rcases hes with rfl | ⟨event, rfl, hevent⟩
    · exact List.not_mem_nil
    · rintro hmem
      obtain rfl := List.mem_singleton.mp hmem
      exact hevent.elim (fun h => h rfl) nofun
  have hrawEvents : rawEventsOf path es = [] := by
    rw [List.eq_nil_iff_forall_not_mem]
    rintro ⟨index, time⟩ hmem
    exact hraw index time (mem_rawEventsOf.mp hmem)
  have hlive (index : ℕ) : LiveAt watcher' path index ↔ LiveAt watcher path index := by
    unfold LiveAt
    rw [htasks]
  constructor
  · rw [rawEventsOf_append, hrawEvents, List.append_nil, htasks]
    exact hinv.indices
  · intro index h
    rw [hpending, htasks]
    exact hinv.live index ((hlive index).mp h)
  · intro hopen index h
    rw [hlistening] at hopen
    rw [hpending] at h
    exact (hlive index).mpr (hinv.pending hopen index h)
  · intro hopen h
    rw [hlistening] at hopen
    rw [hpending]
    apply hinv.unsettled hopen
    rcases hes with rfl | ⟨event, rfl, -⟩
    · rwa [List.append_nil] at h
    · rcases unsettled_append_singleton h with ⟨index, time, rfl⟩ | ⟨h, -⟩
      · exact absurd List.mem_cons_self (hraw index time)
      · exact h
  · intro index task time hget hmem
    rw [htasks] at hget
    have hmem := (List.mem_append.mp hmem).resolve_right (hraw index time)
    obtain ⟨hcreated, hphase⟩ := hinv.onTime index task time hget hmem
    refine ⟨hcreated.trans hnow, ?_⟩
    split at hphase
    · exact hphase
    · exact hphase.trans hnow
    · trivial
  · intro index time hmem
    rw [hlive, htasks]
    exact hinv.emitted index time ((List.mem_append.mp hmem).resolve_right (hemitted index time))

@[simp] theorem tasks_setTasks (tasks : List DebounceTask) :
    (watcher.setTasks path tasks).tasks path = tasks := Function.update_self ..

theorem liveAt_setTasks_set {index : ℕ} {task task' : DebounceTask}
    (hget : (watcher.tasks path)[index]? = some task) (i : ℕ) :
    LiveAt (watcher.setTasks path ((watcher.tasks path).set index task')) path i ↔
      if i = index then task'.Live else LiveAt watcher path i := by
  have hlt : index < (watcher.tasks path).length := (List.getElem?_eq_some_iff.mp hget).1
  unfold LiveAt
  rw [tasks_setTasks]
  by_cases heq : i = index
  · subst heq
    simp [List.getElem?_set_self hlt]
  · rw [if_neg heq, List.getElem?_set_ne (Ne.symm heq)]

/-- A step of one task that leaves it live or dead, and on time. -/
theorem PathInv.setTask (hinv : PathInv d path tr watcher) {index : ℕ} {task task' : DebounceTask}
    (hget : (watcher.tasks path)[index]? = some task) (hlive : task'.Live ↔ task.Live)
    (honTime : ∀ created, task.OnTime d created watcher.now → task'.OnTime d created watcher.now) :
    PathInv d path tr (watcher.setTasks path ((watcher.tasks path).set index task')) := by
  have hsame (i : ℕ) : LiveAt (watcher.setTasks path ((watcher.tasks path).set index task')) path i ↔
      LiveAt watcher path i := by
    rw [liveAt_setTasks_set hget]
    by_cases heq : i = index
    · rw [if_pos heq, hlive, heq, LiveAt, hget]
      simp
    · rw [if_neg heq]
  have hlength : ((watcher.setTasks path ((watcher.tasks path).set index task')).tasks path).length
      = (watcher.tasks path).length := by
    rw [tasks_setTasks, List.length_set]
  constructor
  · rw [hlength]
    exact hinv.indices
  · intro i h
    rw [hlength]
    exact hinv.live i ((hsame i).mp h)
  · intro hopen i h
    exact (hsame i).mpr (hinv.pending hopen i h)
  · exact hinv.unsettled
  · intro i other time hother hmem
    rw [tasks_setTasks] at hother
    by_cases heq : i = index
    · subst heq
      rw [List.getElem?_set_self (List.getElem?_eq_some_iff.mp hget).1] at hother
      obtain rfl := Option.some.inj hother
      exact honTime time (hinv.onTime i task time hget hmem)
    · rw [List.getElem?_set_ne (Ne.symm heq)] at hother
      exact hinv.onTime i other time hother hmem
  · intro i time hmem
    rw [hlength, hsame]
    exact hinv.emitted i time hmem

/-- The tasks of a path are not those of another. -/
theorem tasks_setTasks_of_ne {path' : PosixPath} (hne : path' ≠ path) (tasks : List DebounceTask) :
    (watcher.setTasks path' tasks).tasks path = watcher.tasks path :=
  Function.update_of_ne (Ne.symm hne) ..

/-- The same for a task of any path. -/
theorem PathInv.stepTask (hinv : PathInv d path tr watcher) {path' : PosixPath} {index : ℕ}
    {task task' : DebounceTask} (hget : (watcher.tasks path')[index]? = some task)
    (hlive : task'.Live ↔ task.Live)
    (honTime : ∀ created, task.OnTime d created watcher.now → task'.OnTime d created watcher.now) :
    PathInv d path (tr ++ []) (watcher.setTasks path' ((watcher.tasks path').set index task')) := by
  by_cases heq : path' = path
  · subst heq
    rw [List.append_nil]
    exact hinv.setTask hget hlive honTime
  · exact hinv.frame (tasks_setTasks_of_ne heq _) rfl le_rfl rfl (.inl rfl)

/-- A task that emits is the live one of its path, and there is none after it. -/
theorem PathInv.emit (hinv : PathInv d path tr watcher) {index : ℕ}
    (hget : (watcher.tasks path)[index]? = some ⟨.fired, false⟩) :
    PathInv d path (tr ++ [.emitted path index watcher.now])
      ((watcher.setTasks path ((watcher.tasks path).set index ⟨.finished, false⟩)).emit path index) := by
  have hfired : LiveAt watcher path index := ⟨_, hget, nofun, rfl⟩
  have hpending := (hinv.live index hfired).1
  have hnone : ((watcher.setTasks path ((watcher.tasks path).set index ⟨.finished, false⟩)).emit
      path index).pending path = none := by
    show (if watcher.pending path = some index then Function.update watcher.pending path none
      else watcher.pending) path = none
    rw [if_pos hpending, Function.update_self]
  have hdead (i : ℕ) : ¬ LiveAt ((watcher.setTasks path
      ((watcher.tasks path).set index ⟨.finished, false⟩)).emit path index) path i := by
    show ¬ LiveAt (watcher.setTasks path ((watcher.tasks path).set index ⟨.finished, false⟩)) path i
    rw [liveAt_setTasks_set hget]
    split_ifs with heq
    · exact fun h => h.1 rfl
    · intro hother
      have hsame := (hinv.live i hother).1.symm.trans hpending
      exact heq (Option.some.inj hsame)
  have hlength : (((watcher.setTasks path ((watcher.tasks path).set index ⟨.finished, false⟩)).emit
      path index).tasks path).length = (watcher.tasks path).length := by
    show ((watcher.setTasks path _).tasks path).length = _
    rw [tasks_setTasks, List.length_set]
  constructor
  · rw [hlength, rawEventsOf_append]
    exact (congrArg _ (List.append_nil _)).trans hinv.indices
  · intro i h
    exact absurd h (hdead i)
  · intro _ i h
    rw [hnone] at h
    cases h
  · intro _ h
    rcases unsettled_append_singleton h with ⟨_, _, h⟩ | ⟨-, h⟩
    · cases h
    · exact absurd rfl (h index watcher.now)
  · intro i other time hother hmem
    have hraw : .rawEvent path i time ∈ tr := by simpa using hmem
    have hother : ((watcher.tasks path).set index ⟨.finished, false⟩)[i]? = some other := by
      rw [← hother]
      show _ = ((watcher.setTasks path _).tasks path)[i]?
      rw [tasks_setTasks]
    by_cases heq : i = index
    · subst heq
      rw [List.getElem?_set_self (List.getElem?_eq_some_iff.mp hget).1] at hother
      obtain rfl := Option.some.inj hother
      exact ⟨(hinv.onTime i _ time hget hraw).1, trivial⟩
    · rw [List.getElem?_set_ne (Ne.symm heq)] at hother
      exact hinv.onTime i other time hother hraw
  · intro i time hmem
    rw [hlength]
    refine ⟨hdead i, ?_⟩
    rcases List.mem_append.mp hmem with hmem | hmem
    · exact (hinv.emitted i time hmem).2
    · obtain ⟨-, rfl, -⟩ := WatcherEvent.emitted.inj (List.mem_singleton.mp hmem)
      exact (List.getElem?_eq_some_iff.mp hget).1

theorem length_cancelPending (pending : Option ℕ) (tasks : List DebounceTask) :
    (cancelPending pending tasks).length = tasks.length := by
  unfold cancelPending
  split
  · rfl
  · exact List.length_modify ..

theorem not_live_cancel (task : DebounceTask) : ¬ task.cancel.Live := by
  unfold DebounceTask.cancel DebounceTask.Live
  split_ifs with hfinished
  · exact fun h => h.1 hfinished
  · exact fun h => nomatch h.2

theorem phase_cancel (task : DebounceTask) : task.cancel.phase = task.phase := by
  unfold DebounceTask.cancel
  split_ifs <;> rfl

/-- A task after the pending one has been cancelled: its phase is the same, and the pending task is dead
now. -/
theorem getElem?_cancelPending {pending : Option ℕ} {tasks : List DebounceTask} {index : ℕ}
    {task' : DebounceTask} (h : (cancelPending pending tasks)[index]? = some task') :
    ∃ task, tasks[index]? = some task ∧ task'.phase = task.phase ∧
      (task'.Live → task.Live ∧ pending ≠ some index) := by
  unfold cancelPending at h
  split at h
  · exact ⟨task', h, rfl, fun hlive => ⟨hlive, nofun⟩⟩
  · rename_i current
    rw [List.getElem?_modify] at h
    obtain ⟨task, htask, rfl⟩ := Option.map_eq_some_iff.mp h
    refine ⟨task, htask, ?_, ?_⟩
    · split_ifs
      · exact phase_cancel task
      · rfl
    · split_ifs with heq
      · exact fun hlive => absurd hlive (not_live_cancel task)
      · exact fun hlive => ⟨hlive, fun h => heq (Option.some.inj h)⟩

/-- A raw event cancels the live task of its path and creates the next one. -/
theorem PathInv.debounce (hinv : PathInv d path tr watcher) :
    PathInv d path (tr ++ [.rawEvent path (watcher.tasks path).length watcher.now])
      (watcher.debounce path) := by
  have htasks : (watcher.debounce path).tasks path
      = cancelPending (watcher.pending path) (watcher.tasks path) ++ [.new] := Function.update_self ..
  have hpending : (watcher.debounce path).pending path = some (watcher.tasks path).length := by
    rw [← length_cancelPending (watcher.pending path)]
    exact Function.update_self ..
  have hlength : ((watcher.debounce path).tasks path).length = (watcher.tasks path).length + 1 := by
    rw [htasks, List.length_append, length_cancelPending, List.length_singleton]
  have hget {index : ℕ} {task' : DebounceTask}
      (h : ((watcher.debounce path).tasks path)[index]? = some task') :
      (index = (watcher.tasks path).length ∧ task' = .new) ∨
        ∃ task, (watcher.tasks path)[index]? = some task ∧ task'.phase = task.phase ∧
          (task'.Live → task.Live ∧ watcher.pending path ≠ some index) := by
    rw [htasks, List.getElem?_append, length_cancelPending, List.getElem?_singleton] at h
    split_ifs at h with hlt hlast
    · exact .inr (getElem?_cancelPending h)
    · exact .inl ⟨by omega, (Option.some.inj h).symm⟩
  -- every earlier task is dead now
  have hlive (index : ℕ) (h : LiveAt (watcher.debounce path) path index) :
      index = (watcher.tasks path).length := by
    obtain ⟨task', hget', hlive'⟩ := h
    rcases hget hget' with ⟨h, -⟩ | ⟨task, hold, -, himp⟩
    · exact h
    · obtain ⟨hwas, hne⟩ := himp hlive'
      exact absurd (hinv.live index ⟨task, hold, hwas⟩).1 hne
  constructor
  · rw [hlength, rawEventsOf_append, List.map_append, hinv.indices, List.range_succ]
    congr 1
    simp [rawEventsOf]
  · intro index h
    rw [hpending, hlength, hlive index h]
    exact ⟨rfl, rfl⟩
  · intro _ index h
    rw [hpending] at h
    obtain rfl := Option.some.inj h
    refine ⟨.new, ?_, nofun, rfl⟩
    rw [htasks, ← length_cancelPending (watcher.pending path), List.getElem?_concat_length]
  · intro _ _
    rw [hpending]
    nofun
  · intro index task' time hget' hmem
    rcases List.mem_append.mp hmem with hmem | hmem
    · rcases hget hget' with ⟨rfl, -⟩ | ⟨task, hold, hphase, -⟩
      · exact absurd (hinv.lt_length hmem) (lt_irrefl _)
      · obtain ⟨hcreated, htimer⟩ := hinv.onTime index task time hold hmem
        exact ⟨hcreated, hphase ▸ htimer⟩
    · obtain ⟨-, rfl, rfl⟩ := WatcherEvent.rawEvent.inj (List.mem_singleton.mp hmem)
      rcases hget hget' with ⟨-, rfl⟩ | ⟨task, hold, -, -⟩
      · exact ⟨le_refl _, trivial⟩
      · exact absurd (List.getElem?_eq_some_iff.mp hold).1 (lt_irrefl _)
  · intro index time hmem
    have hmem : .emitted path index time ∈ tr := by simpa using hmem
    obtain ⟨-, hlt⟩ := hinv.emitted index time hmem
    refine ⟨fun h => ?_, by omega⟩
    have heq := hlive index h
    omega

/-- Leaving the listener cancels the live task of every path. -/
theorem PathInv.leave (hinv : PathInv d path tr watcher) : PathInv d path tr watcher.leave := by
  have hlength : (watcher.leave.tasks path).length = (watcher.tasks path).length :=
    length_cancelPending ..
  have hdead (index : ℕ) : ¬ LiveAt watcher.leave path index := by
    rintro ⟨task', hget, hlive⟩
    obtain ⟨task, hold, -, himp⟩ := getElem?_cancelPending hget
    obtain ⟨hwas, hne⟩ := himp hlive
    exact hne (hinv.live index ⟨task, hold, hwas⟩).1
  constructor
  · rw [hlength]
    exact hinv.indices
  · exact fun index h => absurd h (hdead index)
  · exact nofun
  · exact nofun
  · intro index task' time hget hmem
    obtain ⟨task, hold, hphase, -⟩ := getElem?_cancelPending hget
    obtain ⟨hcreated, htimer⟩ := hinv.onTime index task time hold hmem
    exact ⟨hcreated, hphase ▸ htimer⟩
  · intro index time hmem
    rw [hlength]
    exact ⟨hdead index, (hinv.emitted index time hmem).2⟩

/-- **Every step keeps the invariant of every path.** -/
theorem PathInv.step (hinv : PathInv d path tr watcher) {action : WatcherAction}
    {es : List WatcherEvent} (step : WatcherStep d watcher action es watcher') :
    PathInv d path (tr ++ es) watcher' := by
  cases step with
  | tick hnonneg => exact hinv.frame rfl rfl (by simpa using hnonneg) rfl (.inl rfl)
  | @rawEvent path' =>
    by_cases heq : path' = path
    · subst heq
      exact hinv.debounce
    · refine hinv.frame (tasks_setTasks_of_ne heq _) ?_ le_rfl rfl (.inr ⟨_, rfl, .inl heq⟩)
      exact Function.update_of_ne (Ne.symm heq) ..
  | start hget hcreated =>
    apply hinv.stepTask hget
    · unfold DebounceTask.Live DebounceTask.finish
      split_ifs with hcancel
      · simp [hcancel]
      · simp [hcreated]
    · rintro created ⟨hle, -⟩
      unfold DebounceTask.OnTime DebounceTask.finish
      split_ifs
      · exact ⟨hle, trivial⟩
      · exact ⟨hle, hle⟩
  | @fire path' index since hget hdue =>
    apply hinv.stepTask hget
    · simp [DebounceTask.Live]
    · rintro created ⟨hle, hsince⟩
      have hsince : created ≤ since := hsince
      refine ⟨hle, ?_⟩
      show created + d ≤ watcher.now
      linarith
  | cancelled hget _ hrequested =>
    apply hinv.stepTask hget
    · simp [DebounceTask.Live, DebounceTask.finish, hrequested]
    · rintro created ⟨hle, -⟩
      exact ⟨hle, trivial⟩
  | @emitted path' index hget =>
    by_cases heq : path' = path
    · subst heq
      exact hinv.emit hget
    · refine hinv.frame (tasks_setTasks_of_ne heq _) ?_ le_rfl rfl (.inr ⟨_, rfl, .inl heq⟩)
      show (if watcher.pending path' = some index then Function.update watcher.pending path' none
        else watcher.pending) path = watcher.pending path
      split_ifs
      · exact Function.update_of_ne (Ne.symm heq) ..
      · rfl
  | @yielded path' =>
    refine hinv.frame rfl rfl le_rfl rfl (.inr ⟨_, rfl, ?_⟩)
    by_cases heq : path' = path
    · exact .inr (congrArg _ heq)
    · exact .inl heq
  | close =>
    rw [List.append_nil]
    exact hinv.leave

variable {C : List WatcherEvent → DirectoryWatcher → WatcherAction → Prop}

theorem PathInv.of_runs (run : (DirectoryWatcher.machine d).RunsUnder C tr watcher) (path : PosixPath) :
    PathInv d path tr watcher :=
  run.invariant (.initial d path) fun _ _ _ _ _ _ hinv _ hstep => hinv.step (watcherStep_of_step hstep)

/-- **Only leaving it ends the listener.** -/
theorem listening_of_runs
    (run : (DirectoryWatcher.machine d).RunsUnder (fun _ _ action => action ≠ .close) tr watcher) :
    watcher.listening = true := by
  refine run.invariant (I := fun _ watcher => watcher.listening = true) rfl
    fun tr watcher action watcher' es _ hlistening hclose hstep => ?_
  cases watcherStep_of_step hstep with
  | close => exact absurd rfl hclose
  | _ => exact hlistening

/-- A listener that is there has not been left. -/
theorem runs_of_listening (run : (DirectoryWatcher.machine d).RunsUnder C tr watcher)
    (hlistening : watcher.listening = true) :
    (DirectoryWatcher.machine d).RunsUnder (fun _ _ action => action ≠ .close) tr watcher := by
  induction run with
  | init => exact .init
  | step _ _ hstep ih =>
    have step := watcherStep_of_step hstep
    refine .step (ih ?_) ?_ hstep
    · cases step with
      | close hwas => exact hwas
      | _ => exact hlistening
    · rintro rfl
      cases step with
      | close => cases hlistening

end Invariant

/-! ### One path alone -/

/-- The part of the watcher that concerns one path. -/
def DirectoryWatcher.restrict (watcher : DirectoryWatcher) (path : PosixPath) : DirectoryWatcher :=
  { watcher with
    tasks := fun path' => if path' = path then watcher.tasks path' else []
    pending := fun path' => if path' = path then watcher.pending path' else none
    stablePaths := watcher.stablePaths.filter fun path' => path' = path }

section Restrict

variable {path : PosixPath} {tr : List WatcherEvent}

@[simp] theorem tasks_restrict : (watcher.restrict path).tasks path = watcher.tasks path := if_pos rfl

@[simp] theorem pending_restrict : (watcher.restrict path).pending path = watcher.pending path :=
  if_pos rfl

/-- An update at the path itself, seen through the restriction. -/
theorem update_ite_self {α : Type} (f : PosixPath → α) (a b : α) :
    (fun path' => if path' = path then Function.update f path a path' else b)
      = Function.update (fun path' => if path' = path then f path' else b) path a := by
  funext path'
  by_cases heq : path' = path
  · subst heq
    simp
  · simp [heq]

theorem update_ite_of_ne {α : Type} (f : PosixPath → α) (a b : α) {other : PosixPath}
    (hne : other ≠ path) :
    (fun path' => if path' = path then Function.update f other a path' else b)
      = fun path' => if path' = path then f path' else b := by
  funext path'
  by_cases heq : path' = path
  · subst heq
    simp [Ne.symm hne]
  · simp [heq]

theorem restrict_setTasks (tasks : List DebounceTask) :
    (watcher.setTasks path tasks).restrict path = (watcher.restrict path).setTasks path tasks := by
  unfold restrict setTasks
  simp only [update_ite_self]

theorem restrict_setTasks_of_ne {other : PosixPath} (hne : other ≠ path) (tasks : List DebounceTask) :
    (watcher.setTasks other tasks).restrict path = watcher.restrict path := by
  unfold restrict setTasks
  simp only [update_ite_of_ne _ _ _ hne]

theorem restrict_debounce :
    (watcher.debounce path).restrict path = (watcher.restrict path).debounce path := by
  unfold debounce
  rw [tasks_restrict, pending_restrict]
  unfold restrict setTasks
  simp only [update_ite_self]

theorem restrict_debounce_of_ne {other : PosixPath} (hne : other ≠ path) :
    (watcher.debounce other).restrict path = watcher.restrict path := by
  unfold debounce restrict setTasks
  simp only [update_ite_of_ne _ _ _ hne]

theorem restrict_emit (index : ℕ) :
    (watcher.emit path index).restrict path = (watcher.restrict path).emit path index := by
  unfold emit
  rw [pending_restrict]
  unfold restrict
  split_ifs
  · simp only [update_ite_self, List.filter_append, decide_true, List.filter_cons_of_pos,
      List.filter_nil]
  · simp only [List.filter_append, decide_true, List.filter_cons_of_pos, List.filter_nil]

theorem restrict_emit_of_ne {other : PosixPath} (hne : other ≠ path) (index : ℕ) :
    (watcher.emit other index).restrict path = watcher.restrict path := by
  unfold emit restrict
  split_ifs
  · simp [update_ite_of_ne _ _ _ hne, hne]
  · simp [hne]

/-- A step is a step of the path alone, or does not concern it. -/
theorem WatcherStep.restrict {action : WatcherAction} {es : List WatcherEvent}
    (step : WatcherStep d watcher action es watcher') (hclose : action ≠ .close) (path : PosixPath) :
    WatcherStep d (watcher.restrict path) action (es.filter fun event => event.path = path)
        (watcher'.restrict path) ∨
      (watcher'.restrict path = watcher.restrict path ∧
        es.filter (fun event => event.path = path) = []) := by
  cases step with
  | tick hnonneg => exact .inl (.tick hnonneg)
  | @rawEvent path' hlistening =>
    by_cases heq : path' = path
    · subst heq
      have hstep : WatcherStep d (watcher.restrict path') (.rawEvent path') _ _ := .rawEvent hlistening
      rw [tasks_restrict, ← restrict_debounce] at hstep
      refine .inl ?_
      simp only [WatcherEvent.path, List.filter_cons, decide_true, if_true, List.filter_nil]
      exact hstep
    · exact .inr ⟨restrict_debounce_of_ne heq, by simp [WatcherEvent.path, heq]⟩
  | @start path' index task hget hcreated =>
    by_cases heq : path' = path
    · subst heq
      rw [← tasks_restrict] at hget
      have hstep : WatcherStep d (watcher.restrict path') (.start path' index) _ _ := .start hget hcreated
      rw [tasks_restrict, ← restrict_setTasks] at hstep
      exact .inl hstep
    · exact .inr ⟨restrict_setTasks_of_ne heq _, rfl⟩
  | @fire path' index since hget hdue =>
    by_cases heq : path' = path
    · subst heq
      rw [← tasks_restrict] at hget
      have hstep : WatcherStep d (watcher.restrict path') (.fire path' index) _ _ := .fire hget hdue
      rw [tasks_restrict, ← restrict_setTasks] at hstep
      exact .inl hstep
    · exact .inr ⟨restrict_setTasks_of_ne heq _, rfl⟩
  | @cancelled path' index task hget hsuspended hrequested =>
    by_cases heq : path' = path
    · subst heq
      rw [← tasks_restrict] at hget
      have hstep : WatcherStep d (watcher.restrict path') (.resume path' index) _ _ :=
        .cancelled hget hsuspended hrequested
      rw [tasks_restrict, ← restrict_setTasks] at hstep
      exact .inl hstep
    · exact .inr ⟨restrict_setTasks_of_ne heq _, rfl⟩
  | @emitted path' index hget =>
    by_cases heq : path' = path
    · subst heq
      rw [← tasks_restrict] at hget
      have hstep : WatcherStep d (watcher.restrict path') (.resume path' index) _ _ := .emitted hget
      rw [tasks_restrict, ← restrict_setTasks, ← restrict_emit] at hstep
      refine .inl ?_
      simp only [WatcherEvent.path, List.filter_cons, decide_true, if_true, List.filter_nil]
      exact hstep
    · refine .inr ⟨?_, by simp [WatcherEvent.path, heq]⟩
      rw [restrict_emit_of_ne heq, restrict_setTasks_of_ne heq]
  | @yielded path' stablePaths hlistening hhead =>
    by_cases heq : path' = path
    · subst heq
      -- the head of the queue is also the head of the part of this path
      have hfilter : (watcher.restrict path').stablePaths
          = path' :: stablePaths.filter fun other => other = path' := by
        show List.filter _ watcher.stablePaths = _
        rw [hhead, List.filter_cons_of_pos (by simp)]
      have hstep : WatcherStep d (watcher.restrict path') .yield _ _ := .yielded hlistening hfilter
      refine .inl ?_
      simp only [WatcherEvent.path, List.filter_cons, decide_true, if_true, List.filter_nil]
      exact hstep
    · refine .inr ⟨?_, by simp [WatcherEvent.path, heq]⟩
      unfold DirectoryWatcher.restrict
      simp [hhead, heq]
  | close => exact absurd rfl hclose

/-- **One path alone**: what concerns a path is a run of the watcher without the other paths. -/
theorem restrict_runs
    (run : (DirectoryWatcher.machine d).RunsUnder (fun _ _ action => action ≠ .close) tr watcher)
    (path : PosixPath) :
    (DirectoryWatcher.machine d).RunsUnder (fun _ _ action => action ≠ .close)
      (tr.filter fun event => event.path = path) (watcher.restrict path) := by
  rw [← List.filterMap_eq_filter]
  apply run.project fun watcher => watcher.restrict path
  · unfold DirectoryWatcher.restrict
    simp [DirectoryWatcher.machine, DirectoryWatcher.initial]
  · intro tr watcher action watcher' es hclose hstep
    rw [List.filterMap_eq_filter]
    rcases (watcherStep_of_step hstep).restrict hclose path with hstep | hnone
    · exact .inl ⟨action, hclose, step_of_watcherStep hstep⟩
    · exact .inr hnone

end Restrict

/-! ### Debouncing -/

/-- The paths put on the queue, in order. -/
def emittedPaths (tr : List WatcherEvent) : List PosixPath :=
  tr.filterMap fun
    | .emitted path _ _ => some path
    | _ => none

/-- The paths given to the consumer of the listener, in order. -/
def yieldedPaths (tr : List WatcherEvent) : List PosixPath :=
  tr.filterMap fun
    | .yielded path => some path
    | _ => none

section Debounce

variable {path : PosixPath} {tr : List WatcherEvent}

theorem WatcherStep.queue {action : WatcherAction} {es : List WatcherEvent}
    (step : WatcherStep d watcher action es watcher') :
    watcher.stablePaths ++ emittedPaths es = yieldedPaths es ++ watcher'.stablePaths := by
  cases step with
  | emitted => rfl
  | yielded _ hhead =>
    rw [hhead]
    exact List.append_nil _
  | _ => exact List.append_nil _

/-- The queue is first in, first out. -/
theorem emittedPaths_eq {C : List WatcherEvent → DirectoryWatcher → WatcherAction → Prop}
    (run : (DirectoryWatcher.machine d).RunsUnder C tr watcher) :
    emittedPaths tr = yieldedPaths tr ++ watcher.stablePaths := by
  refine run.invariant (I := fun tr watcher => emittedPaths tr = yieldedPaths tr ++ watcher.stablePaths)
    rfl fun tr watcher action watcher' es _ hqueue _ hstep => ?_
  calc emittedPaths (tr ++ es) = emittedPaths tr ++ emittedPaths es := List.filterMap_append
    _ = yieldedPaths tr ++ (watcher.stablePaths ++ emittedPaths es) := by
      rw [hqueue, List.append_assoc]
    _ = yieldedPaths tr ++ (yieldedPaths es ++ watcher'.stablePaths) := by
      rw [(watcherStep_of_step hstep).queue]
    _ = yieldedPaths (tr ++ es) ++ watcher'.stablePaths := by
      rw [← List.append_assoc, yieldedPaths, yieldedPaths, yieldedPaths, List.filterMap_append]

theorem WatcherStep.of_emitted {action : WatcherAction} {es : List WatcherEvent}
    (step : WatcherStep d watcher action es watcher') {index : ℕ} {time : ℚ}
    (h : .emitted path index time ∈ es) : es = [.emitted path index time] ∧ time = watcher.now ∧
      (watcher.tasks path)[index]? = some ⟨.fired, false⟩ := by
  cases step with
  | emitted hget =>
    obtain ⟨rfl, rfl, rfl⟩ := WatcherEvent.emitted.inj (List.mem_singleton.mp h)
    exact ⟨rfl, rfl, hget⟩
  | _ => simp at h

/-- An emission belongs to the latest raw event of its path, and is its first one. -/
theorem PathInv.of_emitted (hinv : PathInv d path tr watcher) {index : ℕ}
    (hget : (watcher.tasks path)[index]? = some ⟨.fired, false⟩) :
    ∃ time, LatestRawEvent path tr index time ∧ time ≤ watcher.now - d ∧
      ∀ u, .emitted path index u ∉ tr := by
  have hlive : LiveAt watcher path index := ⟨_, hget, nofun, rfl⟩
  obtain ⟨time, hlatest⟩ := hinv.latest hlive
  refine ⟨time, hlatest, ?_, fun u hmem => (hinv.emitted index u hmem).1 hlive⟩
  obtain ⟨pre, post, rfl, -⟩ := hlatest
  -- the timer of the task has fired since its raw event
  have hfired : time + d ≤ watcher.now := (hinv.onTime index _ time hget (by simp)).2
  linarith

/-- **Debouncing.**  In every run in which the listener is not left:

* a live task is stored in `_pending` and was created by its path's latest raw event, so there is at
  most one for each path;
* while that event has not been followed by an emission of the path, its task is live;
* an emission belongs to the latest raw event of its path, which is at least the debounce time old, and
  is the only one that belongs to it; the task numbers tell the raw events of a path apart;
* events and tasks of other paths have no effect on a path: the watcher would have come to the same
  state and events of the path without them;
* the listener gives out the emitted paths in their order. -/
theorem debounce_neither_loses_nor_duplicates
    (run : (DirectoryWatcher.machine d).RunsUnder (fun _ _ action => action ≠ .close) tr watcher) :
    (∀ path index, LiveAt watcher path index → watcher.pending path = some index ∧
      (∃ time, LatestRawEvent path tr index time) ∧
      ∀ other, LiveAt watcher path other → other = index) ∧
    (∀ path pre index time post, tr = pre ++ .rawEvent path index time :: post →
      (∀ j u, .rawEvent path j u ∉ post) → (∀ j u, .emitted path j u ∉ post) →
      LiveAt watcher path index) ∧
    (∀ path pre index time post, tr = pre ++ .emitted path index time :: post →
      ∃ created, LatestRawEvent path pre index created ∧ created ≤ time - d ∧
        ∀ u, .emitted path index u ∉ pre) ∧
    (∀ path pre index time post, tr = pre ++ .rawEvent path index time :: post →
      ∀ u, .rawEvent path index u ∉ pre) ∧
    (∀ path, (DirectoryWatcher.machine d).RunsUnder (fun _ _ action => action ≠ .close)
      (tr.filter fun event => event.path = path) (watcher.restrict path)) ∧
    emittedPaths tr = yieldedPaths tr ++ watcher.stablePaths := by
  have hinv := PathInv.of_runs run
  have hlistening := listening_of_runs run
  refine ⟨?_, ?_, ?_, ?_, restrict_runs run, emittedPaths_eq run⟩
  · intro path index hlive
    have hpending := ((hinv path).live index hlive).1
    refine ⟨hpending, (hinv path).latest hlive, fun other hother => ?_⟩
    exact Option.some.inj (((hinv path).live other hother).1.symm.trans hpending)
  · rintro path pre index time post rfl hraw hemitted
    obtain ⟨current, hcurrent⟩ := Option.ne_none_iff_exists'.mp
      ((hinv path).unsettled hlistening ⟨pre, index, time, post, rfl, hraw, hemitted⟩)
    have hlive := (hinv path).pending hlistening current hcurrent
    have hlength := ((hinv path).live current hlive).2
    have hindex := (hinv path).length_of_latest ⟨pre, post, rfl, hraw⟩
    obtain rfl : current = index := by omega
    exact hlive
  · intro path pre index time post htr
    obtain ⟨watcher₀, _, _, run₀, -, hstep⟩ := run.exists_step_of_alone htr fun _ _ _ _ hstep hmem =>
      ((watcherStep_of_step hstep).of_emitted hmem).1
    obtain ⟨-, rfl, hget⟩ := (watcherStep_of_step hstep).of_emitted List.mem_cons_self
    exact (PathInv.of_runs run₀ path).of_emitted hget
  · rintro path pre index time post rfl u hmem
    have hnodup : ((rawEventsOf path (pre ++ .rawEvent path index time :: post)).map Prod.fst).Nodup := by
      rw [(hinv path).indices]
      exact List.nodup_range
    rw [rawEventsOf_append, List.map_append] at hnodup
    have hearlier : index ∈ (rawEventsOf path pre).map Prod.fst :=
      List.mem_map_of_mem (mem_rawEventsOf.mpr hmem)
    have hlater : index ∈ (rawEventsOf path (.rawEvent path index time :: post)).map Prod.fst :=
      List.mem_map_of_mem (mem_rawEventsOf.mpr List.mem_cons_self)
    exact (List.nodup_append.mp hnodup).2.2 index hearlier index hlater rfl

end Debounce

/-! ### A burst -/

def burstPath : PosixPath := .parse ['/', 'w', '/', 'a']

/-- The first task is cancelled after its timer has fired; the second one emits, and the path is taken. -/
def burstActions : List WatcherAction :=
  [.rawEvent burstPath, .start burstPath 0, .tick (1 / 5), .fire burstPath 0, .rawEvent burstPath,
    .resume burstPath 0, .start burstPath 1, .tick (1 / 4), .fire burstPath 1, .resume burstPath 1,
    .yield]

def burstTrace : List WatcherEvent :=
  [.rawEvent burstPath 0 0, .rawEvent burstPath 1 (1 / 5), .emitted burstPath 1 (9 / 20),
    .yielded burstPath]

theorem debounce_neither_loses_nor_duplicates_burst :
    ∃ watcher, (DirectoryWatcher.machine debounceSeconds).RunsUnder (fun _ _ action => action ≠ .close)
        burstTrace watcher ∧
      emittedPaths burstTrace = yieldedPaths burstTrace ++ watcher.stablePaths ∧
      ∃ created, LatestRawEvent burstPath (burstTrace.take 2) 1 created ∧
        created ≤ 9 / 20 - debounceSeconds := by
  obtain ⟨watcher, run, -⟩ := EventMachine.exists_runsUnder_of_map_eq
    (show ((DirectoryWatcher.machine debounceSeconds).runUnder (fun _ _ action => action ≠ .close) []
        (DirectoryWatcher.machine debounceSeconds).init burstActions).map Prod.fst
      = some burstTrace by decide +kernel)
  obtain ⟨-, -, hemitted, -, -, hqueue⟩ := debounce_neither_loses_nor_duplicates run
  obtain ⟨created, hlatest, hold, -⟩ := hemitted burstPath (burstTrace.take 2) 1 (9 / 20) _ rfl
  exact ⟨watcher, run, hqueue, created, hlatest, hold⟩

end FileMonitor
