import FileMonitor.Adapters.INotifyEvents

/-!
# Steps of the file events

`INotifyStep` lists what a step of the file events can be, and `inotifyStep_of_step` says that there is no
other.  `INotifyEvents.unhandled` is what is on its way from the kernel to `listen`; `unhandled_setPhase`
and `unhandled_report` say how it changes.
-/

namespace FileMonitor

open INotifyEvents

/-! ### Steps -/

/-- What one step does to the file events, and what can be seen of it. -/
inductive INotifyStep (watchPath : PosixPath) (events : INotifyEvents) :
    INotifyAction → List FileEvent → INotifyEvents → Prop where
  | created {name} :
    INotifyStep watchPath events (.create name) [.created name] (events.addEntry name)
  | completed {mask cookie name events'} (present : events.present = true)
    (completion : (InotifyEvent.mk mask cookie (some name)).isCompletion)
    (notOverflow : (InotifyEvent.mk mask cookie (some name)).isOverflow = false)
    (entry : events' = events ∨ events' = events.addEntry name) :
    INotifyStep watchPath events (.complete mask cookie name)
      [.completed name (name ∈ events'.entries)] (events'.report ⟨mask, cookie, some name⟩)
  | removed {name} :
    INotifyStep watchPath events (.remove name) [.removed name]
      { events with entries := events.entries.erase name, phase := events.phase.vanish name }
  | lost (present : events.present = true) (empty : events.entries = ∅) :
    INotifyStep watchPath events .lose [.lost] { events.report .ignored with present := false }
  | read {n} (reading : events.phase = .reading) (pos : 0 < n) (nonempty : events.queue.items ≠ []) :
    INotifyStep watchPath events (.read n) []
      { events with queue := events.queue.drop n, phase := .read (events.queue.items.take n) }
  | resumed {batch} (read : events.phase = .read batch) :
    INotifyStep watchPath events .resume []
      { events with phase := if events.closed then .ended else .handling [] batch }
  | listed {lasting possible batch names} (listing : events.phase = .listing lasting possible batch)
    (nodup : names.Nodup) (lasting_mem : ∀ name ∈ lasting, name ∈ names)
    (mem_possible : ∀ name ∈ names, name ∈ possible) :
    INotifyStep watchPath events (.list names) [.listed names]
      { events with phase := .handling (names.map (itemPath watchPath)) batch }
  | item {path listed batch} (handling : events.phase = .handling (path :: listed) batch) :
    INotifyStep watchPath events .next [.yielded path]
      { events with phase := .handling listed batch }
  | overflowed {event batch} (handling : events.phase = .handling [] (event :: batch))
    (overflow : event.isOverflow) :
    INotifyStep watchPath events .next []
      { events with phase := .listing events.entries events.entries batch }
  | yielded {event batch} (handling : events.phase = .handling [] (event :: batch))
    (notOverflow : event.isOverflow = false) (completion : event.isCompletion) :
    INotifyStep watchPath events .next [.yielded (eventPath watchPath event)]
      { events with phase := .handling [] batch }
  | skipped {event batch} (handling : events.phase = .handling [] (event :: batch))
    (notOverflow : event.isOverflow = false) (notCompletion : event.isCompletion = false) :
    INotifyStep watchPath events .next [] { events with phase := .handling [] batch }
  | looped (handling : events.phase = .handling [] []) :
    INotifyStep watchPath events .next []
      { events with phase := if events.closed then .ended else .reading }
  | failed : INotifyStep watchPath events .fail [] { events with phase := .ended }
  | closed (suspended : events.phase.Suspended) :
    INotifyStep watchPath events .close [.closed] { events.report .ignored with closed := true }
  | cancelled (suspended : events.phase.Suspended) :
    INotifyStep watchPath events .cancel [] { events with phase := .ended }

variable {watchPath : PosixPath} {events events' : INotifyEvents}

/-- **The file events make no other steps.** -/
theorem inotifyStep_of_step {action : INotifyAction} {es : List FileEvent}
    (h : events.step watchPath action = some (events', es)) :
    INotifyStep watchPath events action es events' := by
  cases action with
  | create name =>
    obtain ⟨rfl, rfl⟩ := Prod.mk.inj (Option.some.inj h)
    exact .created
  | complete mask cookie name =>
    rw [INotifyEvents.step] at h
    split_ifs at h with hmask hmoved
    all_goals obtain ⟨rfl, rfl⟩ := Prod.mk.inj (Option.some.inj h)
    · exact .completed hmask.1 (decide_eq_true hmask.2.1) (decide_eq_false (not_not.mpr hmask.2.2))
        (.inr rfl)
    · exact .completed hmask.1 (decide_eq_true hmask.2.1) (decide_eq_false (not_not.mpr hmask.2.2))
        (.inl rfl)
  | remove name =>
    obtain ⟨rfl, rfl⟩ := Prod.mk.inj (Option.some.inj h)
    exact .removed
  | lose =>
    rw [INotifyEvents.step] at h
    split_ifs at h with hlose
    obtain ⟨rfl, rfl⟩ := Prod.mk.inj (Option.some.inj h)
    exact .lost hlose.1 hlose.2
  | read n =>
    unfold INotifyEvents.step at h
    dsimp only at h
    split at h
    · rename_i hreading
      split_ifs at h with hread
      obtain ⟨rfl, rfl⟩ := Prod.mk.inj (Option.some.inj h)
      exact .read hreading hread.1 hread.2
    · cases h
  | resume =>
    unfold INotifyEvents.step at h
    dsimp only at h
    split at h
    · rename_i batch hread
      obtain ⟨rfl, rfl⟩ := Prod.mk.inj (Option.some.inj h)
      exact .resumed hread
    · cases h
  | list names =>
    unfold INotifyEvents.step at h
    dsimp only at h
    split at h
    · rename_i lasting possible batch hlisting
      split_ifs at h with hnames
      obtain ⟨rfl, rfl⟩ := Prod.mk.inj (Option.some.inj h)
      exact .listed hlisting hnames.1 hnames.2.1 hnames.2.2
    · cases h
  | next =>
    unfold INotifyEvents.step at h
    dsimp only at h
    split at h
    · rename_i listed batch hhandling
      have h := Option.some.inj h
      unfold handleNext at h
      split at h
      · obtain ⟨rfl, rfl⟩ := Prod.mk.inj h
        exact .item hhandling
      · split_ifs at h with hoverflow hcompletion
        all_goals obtain ⟨rfl, rfl⟩ := Prod.mk.inj h
        · exact .overflowed hhandling hoverflow
        · exact .yielded hhandling (Bool.eq_false_iff.mpr hoverflow) hcompletion
        · exact .skipped hhandling (Bool.eq_false_iff.mpr hoverflow) (Bool.eq_false_iff.mpr hcompletion)
      · obtain ⟨rfl, rfl⟩ := Prod.mk.inj h
        exact .looped hhandling
    · cases h
  | fail =>
    unfold INotifyEvents.step at h
    dsimp only at h
    split at h
    all_goals cases h
    all_goals exact .failed
  | close =>
    rw [INotifyEvents.step] at h
    split_ifs at h with hsuspended
    obtain ⟨rfl, rfl⟩ := Prod.mk.inj (Option.some.inj h)
    exact .closed hsuspended
  | cancel =>
    unfold INotifyEvents.step at h
    dsimp only at h
    split at h
    · rename_i hreading
      cases h
      exact .cancelled (hreading ▸ trivial)
    · rename_i batch hread
      cases h
      exact .cancelled (hread ▸ trivial)
    · cases h

section Report

variable (events : INotifyEvents) (event : InotifyEvent)

@[simp] theorem entries_report : (events.report event).entries = events.entries := by
  unfold report
  split_ifs <;> rfl

@[simp] theorem phase_report : (events.report event).phase = events.phase := by
  unfold report
  split_ifs <;> rfl

@[simp] theorem present_report : (events.report event).present = events.present := by
  unfold report
  split_ifs <;> rfl

@[simp] theorem closed_report : (events.report event).closed = events.closed := by
  unfold report
  split_ifs <;> rfl

@[simp] theorem marker_report : (events.report event).queue.marker = events.queue.marker := by
  unfold report
  split_ifs
  · rfl
  · exact LossyQueue.marker_push

@[simp] theorem capacity_report :
    (events.report event).queue.capacity = events.queue.capacity := by
  unfold report
  split_ifs
  · rfl
  · exact LossyQueue.capacity_push

end Report

/-! ### What is on its way -/

namespace ListenPhase

/-- The events that were read and not handled yet. -/
def batch : ListenPhase → List InotifyEvent
  | read batch | listing _ _ batch | handling _ batch => batch
  | reading | ended => []

/-- What is left of a listing. -/
def listed : ListenPhase → List PosixPath
  | handling listed _ => listed
  | _ => []

/-- The names that a listing under way cannot miss. -/
def lasting : ListenPhase → Finset PathComponent
  | listing lasting _ _ => lasting
  | _ => ∅

/-- The names that a listing under way can have. -/
def possible : ListenPhase → Finset PathComponent
  | listing _ possible _ => possible
  | _ => ∅

end ListenPhase

/-- The events on their way to `listen`, in their order. -/
def INotifyEvents.unhandled (events : INotifyEvents) : List InotifyEvent :=
  events.phase.batch ++ events.queue.items

theorem appear_frame (phase : ListenPhase) (name : PathComponent) :
    (phase.appear name).batch = phase.batch ∧ (phase.appear name).listed = phase.listed ∧
      (phase.appear name).lasting = phase.lasting := by
  cases phase <;> exact ⟨rfl, rfl, rfl⟩

theorem vanish_frame (phase : ListenPhase) (name : PathComponent) :
    (phase.vanish name).batch = phase.batch ∧ (phase.vanish name).listed = phase.listed ∧
      (phase.vanish name).lasting = phase.lasting.erase name := by
  cases phase with
  | listing => exact ⟨rfl, rfl, rfl⟩
  | _ => exact ⟨rfl, rfl, (Finset.erase_empty name).symm⟩

/-- Handling what was read brings no events. -/
theorem unhandled_setPhase {phase phase' : ListenPhase} (hphase : events.phase = phase)
    (hbatch : phase'.batch <:+ phase.batch) :
    { events with phase := phase' }.unhandled ⊆ events.unhandled := by
  intro event hmem
  unfold unhandled
  rw [hphase]
  exact (List.mem_append.mp hmem).elim (fun hmem => List.mem_append_left _ (hbatch.subset hmem))
    (List.mem_append_right _)

/-- A report adds the event, or the one of an overflow, or nothing. -/
theorem unhandled_report (hmarker : events.queue.marker = .overflow) (event : InotifyEvent) :
    (events.report event).unhandled = events.unhandled ∨
      (events.report event).unhandled = events.unhandled ++ [.overflow] ∨
      (events.report event).unhandled = events.unhandled ++ [event] := by
  unfold report
  split_ifs
  · exact .inl rfl
  · unfold unhandled
    rcases LossyQueue.push_cases events.queue event with ⟨-, -, heq | heq⟩ | ⟨-, -, heq | heq⟩
    all_goals simp only [heq]
    · exact .inl trivial
    · exact .inr (.inl (by rw [hmarker, List.append_assoc]))
    · exact .inl trivial
    · exact .inr (.inr (List.append_assoc ..).symm)

section

variable {es : List FileEvent}

theorem INotifyStep.marker {action : INotifyAction} (step : INotifyStep watchPath events action es events') :
    events'.queue.marker = events.queue.marker := by
  cases step with
  | completed _ _ _ hentry => rcases hentry with rfl | rfl <;> exact marker_report ..
  | lost | closed => exact marker_report ..
  | _ => rfl

theorem INotifyStep.capacity {action : INotifyAction}
    (step : INotifyStep watchPath events action es events') :
    events'.queue.capacity = events.queue.capacity := by
  cases step with
  | completed _ _ _ hentry => rcases hentry with rfl | rfl <;> exact capacity_report ..
  | lost | closed => exact capacity_report ..
  | _ => rfl

end

end FileMonitor
