import FileMonitor.Adapters.Equiv.INotifyOrder
import FileMonitor.Library.Settles
import FileMonitor.Library.Since
import Mathlib.Data.Finset.Card
import Mathlib.Tactic.Ring

/-!
# What the file events give out

* `completed_file_is_yielded`: the path of every completed file that stays in the directory is given out
  after it was completed, whatever the kernel had to drop; and `listen` comes to rest by its own steps.
* `yields_are_completions`: only names that have appeared in the directory are given out, and without a
  listing only completed files, in their order and each once; a listing needs a full queue.
* `closed_listener_ends`: after `close` nothing is given out, and `listen` comes to its end, unless it
  waits for a directory that is gone.
-/

namespace FileMonitor

open INotifyEvents

variable {watchPath : PosixPath} {events events' : INotifyEvents}

/-! ### What is still to come -/

/-- The event makes `listen` give out the path of the name: it is about the name, or it leads to a
listing. -/
def InotifyEvent.Brings (event : InotifyEvent) (name : PathComponent) : Prop :=
  event.isOverflow ∨ event.isCompletion ∧ event.name = some name

namespace INotifyEvents

/-- `listen` is going to give out the path of the name, unless the name disappears. -/
def Due (watchPath : PosixPath) (events : INotifyEvents) (name : PathComponent) : Prop :=
  (∃ event ∈ events.unhandled, event.Brings name) ∨ name ∈ events.phase.lasting ∨
    itemPath watchPath name ∈ events.phase.listed

/-- `listen` has neither been closed nor come to an end. -/
def Open (events : INotifyEvents) : Prop := events.closed = false ∧ events.phase ≠ .ended

instance : DecidablePred Open := fun _ => inferInstanceAs (Decidable (_ ∧ _))

/-- `listen` waits for the kernel, and there is nothing to read. -/
def Quiet (events : INotifyEvents) : Prop := events.phase = .reading ∧ events.queue.items = []

instance : DecidablePred Quiet := fun _ => inferInstanceAs (Decidable (_ ∧ _))

end INotifyEvents

/-- The path of the name was given out, or the name has disappeared. -/
def FileEvent.Discharges (watchPath : PosixPath) (name : PathComponent) (event : FileEvent) : Prop :=
  event = .yielded (itemPath watchPath name) ∨ event = .removed name

section Due

variable {tr es : List FileEvent} {name : PathComponent} {event : InotifyEvent}

/-- Nothing that is due gets lost where nothing is taken away. -/
theorem INotifyEvents.Due.mono (h : Due watchPath events name)
    (hunhandled : events.unhandled ⊆ events'.unhandled)
    (hlasting : events.phase.lasting ⊆ events'.phase.lasting)
    (hlisted : events.phase.listed ⊆ events'.phase.listed) : Due watchPath events' name := by
  rcases h with ⟨event, hmem, hbrings⟩ | hmem | hmem
  · exact .inl ⟨event, hunhandled hmem, hbrings⟩
  · exact .inr (.inl (hlasting hmem))
  · exact .inr (.inr (hlisted hmem))

/-- Outside a listing everything that is due is due by an event. -/
theorem INotifyEvents.Due.of_unhandled (h : Due watchPath events name)
    (hlasting : events.phase.lasting = ∅) (hlisted : events.phase.listed = [])
    (hunhandled : events.unhandled ⊆ events'.unhandled) : Due watchPath events' name := by
  refine h.mono hunhandled ?_ ?_
  · rw [hlasting]
    exact Finset.empty_subset _
  · rw [hlisted]
    exact List.nil_subset _

/-- The next event is handled, and was not the one that is going to bring the path. -/
theorem INotifyEvents.Due.tail {batch : List InotifyEvent} (h : Due watchPath events name)
    (hphase : events.phase = .handling [] (event :: batch)) (hnot : ¬ event.Brings name) :
    Due watchPath { events with phase := .handling [] batch } name := by
  rcases h with ⟨event', hmem, hbrings⟩ | hmem | hmem
  · unfold unhandled at hmem
    rw [hphase] at hmem
    rcases List.mem_cons.mp hmem with rfl | hmem
    · exact absurd hbrings hnot
    · exact .inl ⟨event', hmem, hbrings⟩
  · rw [hphase] at hmem
    cases hmem
  · rw [hphase] at hmem
    cases hmem

theorem INotifyEvents.Due.addEntry (h : Due watchPath events name) (name' : PathComponent) :
    Due watchPath (events.addEntry name') name := by
  obtain ⟨hbatch, hlisted, hlasting⟩ := appear_frame events.phase name'
  refine h.mono ?_ (subset_of_eq hlasting.symm) (by rw [← hlisted]; exact fun _ h => h)
  unfold unhandled
  show _ ⊆ (events.phase.appear name').batch ++ events.queue.items
  rw [hbatch]
  exact fun _ h => h

/-- A report adds to the events on their way. -/
theorem INotifyEvents.Due.report (h : Due watchPath events name) (event : InotifyEvent) :
    Due watchPath (events.report event) name := by
  unfold INotifyEvents.report
  split_ifs
  · exact h
  · refine h.mono ?_ (fun _ h => h) (fun _ h => h)
    intro event' hmem
    exact (List.mem_append.mp hmem).elim (List.mem_append_left _)
      fun hmem => List.mem_append_right _ (LossyQueue.mem_push_of_mem hmem)

/-- What the kernel reports is due, itself or by an overflow. -/
theorem due_report (hopen : events.closed = false) (hpresent : events.present = true)
    (hmarker : events.queue.marker = .overflow) (hbrings : event.Brings name) :
    Due watchPath (events.report event) name := by
  rw [INotifyEvents.report, if_neg (by simp [hopen, hpresent])]
  rcases LossyQueue.mem_push events.queue event with hmem | hmem
  · exact .inl ⟨event, List.mem_append_right _ hmem, hbrings⟩
  · rw [hmarker] at hmem
    exact .inl ⟨.overflow, List.mem_append_right _ hmem, .inl (by decide)⟩

/-- What is open has been open. -/
theorem INotifyStep.open_of_open {action : INotifyAction}
    (step : INotifyStep watchPath events action es events') (hopen : events'.Open) : events.Open := by
  have happear {phase : ListenPhase} {name : PathComponent} (h : phase.appear name ≠ .ended) :
      phase ≠ .ended := by
    rintro rfl
    exact h rfl
  have hvanish {phase : ListenPhase} {name : PathComponent} (h : phase.vanish name ≠ .ended) :
      phase ≠ .ended := by
    rintro rfl
    exact h rfl
  obtain ⟨hopen, hphase⟩ := hopen
  cases step with
  | created => exact ⟨hopen, happear hphase⟩
  | @completed _ _ name events' _ _ _ hentry =>
    rw [closed_report] at hopen
    rw [phase_report] at hphase
    rcases hentry with rfl | rfl
    · exact ⟨hopen, hphase⟩
    · exact ⟨hopen, happear hphase⟩
  | removed => exact ⟨hopen, hvanish hphase⟩
  | lost =>
    have hopen : (events.report .ignored).closed = false := hopen
    have hphase : (events.report .ignored).phase ≠ .ended := hphase
    rw [closed_report] at hopen
    rw [phase_report] at hphase
    exact ⟨hopen, hphase⟩
  | failed => exact absurd rfl hphase
  | closed => cases hopen
  | cancelled => exact absurd rfl hphase
  | read hreading => exact ⟨hopen, by rw [hreading]; nofun⟩
  | resumed hread => exact ⟨hopen, by rw [hread]; nofun⟩
  | listed hlisting => exact ⟨hopen, by rw [hlisting]; nofun⟩
  | item hhandling => exact ⟨hopen, by rw [hhandling]; nofun⟩
  | overflowed hhandling => exact ⟨hopen, by rw [hhandling]; nofun⟩
  | yielded hhandling => exact ⟨hopen, by rw [hhandling]; nofun⟩
  | skipped hhandling => exact ⟨hopen, by rw [hhandling]; nofun⟩
  | looped hhandling => exact ⟨hopen, by rw [hhandling]; nofun⟩

/-- The file of this name was completed, and its path was not given out since, nor has it disappeared. -/
abbrev Unseen (watchPath : PosixPath) (name : PathComponent) (tr : List FileEvent) : Prop :=
  Since (· = .completed name true) (·.Discharges watchPath name) tr

theorem unseen_singleton {event : FileEvent} :
    Unseen watchPath name [event] ↔ event = .completed name true := Since.since_singleton

/-- **One step**: what was completed and has not been given out is still due. -/
theorem INotifyStep.due {action : INotifyAction} (step : INotifyStep watchPath events action es events')
    (hmarker : events.queue.marker = .overflow) (hopen : events'.Open)
    (hdue : Unseen watchPath name tr → name ∈ events.entries ∧ Due watchPath events name)
    (hunseen : Unseen watchPath name (tr ++ es)) :
    name ∈ events'.entries ∧ Due watchPath events' name := by
  have hopen₀ := step.open_of_open hopen
  have hold (hnew : ¬ Unseen watchPath name es) :
      (name ∈ events.entries ∧ Due watchPath events name) ∧
        ∀ e ∈ es, ¬ e.Discharges watchPath name := by
    obtain ⟨hunseen, hnone⟩ := (Since.since_append.mp hunseen).resolve_left hnew
    exact ⟨hdue hunseen, hnone⟩
  cases step with
  | @created name' =>
    obtain ⟨⟨hmem, hdue⟩, -⟩ := hold (by simp [unseen_singleton])
    exact ⟨Finset.mem_insert_of_mem hmem, hdue.addEntry name'⟩
  | @completed mask cookie name' events' hpresent hcompletion hnotOverflow hentry =>
    have hpresent : events'.present = true := by rcases hentry with rfl | rfl <;> exact hpresent
    have hclosed : events'.closed = false := by rcases hentry with rfl | rfl <;> exact hopen₀.1
    have hsame : events'.queue.marker = events.queue.marker := by rcases hentry with rfl | rfl <;> rfl
    rw [entries_report]
    by_cases hnew : Unseen watchPath name [.completed name' (name' ∈ events'.entries)]
    · obtain ⟨rfl, hlinked⟩ := FileEvent.completed.inj (unseen_singleton.mp hnew)
      exact ⟨of_decide_eq_true hlinked,
        due_report hclosed hpresent (hsame.trans hmarker) (.inr ⟨hcompletion, rfl⟩)⟩
    · obtain ⟨⟨hmem, hdue⟩, -⟩ := hold hnew
      rcases hentry with rfl | rfl
      · exact ⟨hmem, hdue.report _⟩
      · exact ⟨Finset.mem_insert_of_mem hmem, (hdue.addEntry name').report _⟩
  | @removed name' =>
    obtain ⟨⟨hmem, hdue⟩, hnone⟩ := hold (by simp [unseen_singleton])
    have hne : name ≠ name' := by
      rintro rfl
      exact hnone _ List.mem_cons_self (.inr rfl)
    obtain ⟨hbatch, hlisted, hlasting⟩ := vanish_frame events.phase name'
    refine ⟨Finset.mem_erase.mpr ⟨hne, hmem⟩, ?_⟩
    rcases hdue with ⟨event, hevent, hbrings⟩ | hlast | hlist
    · refine .inl ⟨event, ?_, hbrings⟩
      show event ∈ (events.phase.vanish name').batch ++ events.queue.items
      rwa [hbatch]
    · refine .inr (.inl ?_)
      show name ∈ (events.phase.vanish name').lasting
      rw [hlasting]
      exact Finset.mem_erase.mpr ⟨hne, hlast⟩
    · refine .inr (.inr ?_)
      show _ ∈ (events.phase.vanish name').listed
      rwa [hlisted]
  | lost _ hempty =>
    -- no name is left in a directory that is deleted
    obtain ⟨⟨hmem, -⟩, -⟩ := hold (by simp [unseen_singleton])
    rw [hempty] at hmem
    cases hmem
  | @read n hreading =>
    obtain ⟨⟨hmem, hdue⟩, -⟩ := hold (by simp [Unseen])
    refine ⟨hmem, hdue.of_unhandled (by rw [hreading]; rfl) (by rw [hreading]; rfl) ?_⟩
    intro event hevent
    unfold unhandled at hevent
    rw [hreading] at hevent
    show event ∈ events.queue.items.take n ++ (events.queue.drop n).items
    rwa [LossyQueue.take_append_items_drop]
  | resumed hread =>
    obtain ⟨⟨hmem, hdue⟩, -⟩ := hold (by simp [Unseen])
    refine ⟨hmem, ?_⟩
    rw [hopen₀.1, if_neg Bool.false_ne_true]
    refine hdue.of_unhandled (by rw [hread]; rfl) (by rw [hread]; rfl) ?_
    unfold unhandled
    rw [hread]
    exact fun _ h => h
  | @listed lasting possible batch names hlisting hnodup hlasting hpossible =>
    obtain ⟨⟨hmem, hdue⟩, -⟩ := hold (by simp [unseen_singleton])
    refine ⟨hmem, ?_⟩
    rcases hdue with ⟨event, hevent, hbrings⟩ | hlast | hlist
    · unfold unhandled at hevent
      rw [hlisting] at hevent
      exact .inl ⟨event, hevent, hbrings⟩
    · rw [hlisting] at hlast
      exact .inr (.inr (List.mem_map_of_mem (hlasting name hlast)))
    · rw [hlisting] at hlist
      cases hlist
  | @item path listed batch hhandling =>
    obtain ⟨⟨hmem, hdue⟩, hnone⟩ := hold (by simp [unseen_singleton])
    refine ⟨hmem, ?_⟩
    rcases hdue with ⟨event, hevent, hbrings⟩ | hlast | hlist
    · unfold unhandled at hevent
      rw [hhandling] at hevent
      exact .inl ⟨event, hevent, hbrings⟩
    · rw [hhandling] at hlast
      cases hlast
    · rw [hhandling] at hlist
      rcases List.mem_cons.mp hlist with rfl | hlist
      · exact absurd (.inl rfl) (hnone _ List.mem_cons_self)
      · exact .inr (.inr hlist)
  | overflowed hhandling hoverflow =>
    obtain ⟨⟨hmem, hdue⟩, -⟩ := hold (by simp [Unseen])
    -- the listing cannot miss a name that is there now
    exact ⟨hmem, .inr (.inl hmem)⟩
  | @yielded event batch hhandling hnotOverflow hcompletion =>
    obtain ⟨⟨hmem, hdue⟩, hnone⟩ := hold (by simp [unseen_singleton])
    refine ⟨hmem, hdue.tail hhandling ?_⟩
    rintro (hoverflow | ⟨-, hname⟩)
    · rw [hnotOverflow] at hoverflow
      cases hoverflow
    · refine hnone _ List.mem_cons_self (.inl ?_)
      rw [eventPath, hname]
  | skipped hhandling hnotOverflow hnotCompletion =>
    obtain ⟨⟨hmem, hdue⟩, -⟩ := hold (by simp [Unseen])
    refine ⟨hmem, hdue.tail hhandling ?_⟩
    rintro (hoverflow | ⟨hcompletion, -⟩)
    · rw [hnotOverflow] at hoverflow
      cases hoverflow
    · rw [hnotCompletion] at hcompletion
      cases hcompletion
  | looped hhandling =>
    obtain ⟨⟨hmem, hdue⟩, -⟩ := hold (by simp [Unseen])
    refine ⟨hmem, ?_⟩
    rw [hopen₀.1, if_neg Bool.false_ne_true]
    refine hdue.of_unhandled (by rw [hhandling]; rfl) (by rw [hhandling]; rfl) ?_
    unfold unhandled
    rw [hhandling]
    exact fun _ h => h
  | failed => exact absurd rfl hopen.2
  | closed => cases hopen.1
  | cancelled => exact absurd rfl hopen.2

end Due

/-! ### Closing -/

/-- A closed `listen` handles no item. -/
def INotifyEvents.ClosedInv (events : INotifyEvents) : Prop := events.closed → events.phase.Suspended

section Closing

variable {es : List FileEvent}

theorem appear_of_suspended {phase : ListenPhase} (h : phase.Suspended) (name : PathComponent) :
    phase.appear name = phase := by
  cases phase with
  | listing => cases h
  | _ => rfl

theorem vanish_of_suspended {phase : ListenPhase} (h : phase.Suspended) (name : PathComponent) :
    phase.vanish name = phase := by
  cases phase with
  | listing => cases h
  | _ => rfl

theorem report_of_closed (h : events.closed = true) (event : InotifyEvent) :
    events.report event = events := by
  rw [report, if_pos (.inl h)]

theorem INotifyStep.closed_iff {action : INotifyAction}
    (step : INotifyStep watchPath events action es events') :
    events'.closed = true ↔ events.closed = true ∨ .closed ∈ es := by
  cases step with
  | completed _ _ _ hentry =>
    rw [closed_report]
    rcases hentry with rfl | rfl <;> simp [addEntry]
  | lost =>
    show (events.report .ignored).closed = true ↔ _
    simp
  | created => simp [addEntry]
  | _ => simp

theorem INotifyStep.present_iff {action : INotifyAction}
    (step : INotifyStep watchPath events action es events') :
    events'.present = true ↔ events.present = true ∧ .lost ∉ es := by
  cases step with
  | completed _ _ _ hentry =>
    rw [present_report]
    rcases hentry with rfl | rfl <;> simp [addEntry]
  | closed =>
    show (events.report .ignored).present = true ↔ _
    simp
  | created => simp [addEntry]
  | _ => simp

/-- **A step after `close`** leaves `listen` and the queue as they are, or brings `listen` closer to its
end. -/
theorem INotifyStep.of_closed {action : INotifyAction}
    (step : INotifyStep watchPath events action es events') (hclosed : events.closed = true)
    (hsuspended : events.phase.Suspended) :
    (events'.phase = events.phase ∧ events'.queue = events.queue) ∨
      events'.phase.Suspended ∧ events'.phase ≠ .reading ∧
        (¬ events.Quiet ∨ action = .fail ∨ action = .cancel) := by
  -- no item is handled
  have hnone {phase : ListenPhase} (hphase : events.phase = phase) (hnot : ¬ phase.Suspended) : False :=
    hnot (hphase ▸ hsuspended)
  cases step with
  | created => exact .inl ⟨appear_of_suspended hsuspended _, rfl⟩
  | @completed _ _ name _ _ _ _ hentry =>
    rcases hentry with rfl | rfl
    · rw [report_of_closed hclosed]
      exact .inl ⟨rfl, rfl⟩
    · have hclosed : (events.addEntry name).closed = true := hclosed
      rw [report_of_closed hclosed]
      exact .inl ⟨appear_of_suspended hsuspended name, rfl⟩
  | removed => exact .inl ⟨vanish_of_suspended hsuspended _, rfl⟩
  | lost | closed =>
    rw [report_of_closed hclosed]
    exact .inl ⟨rfl, rfl⟩
  | read _ _ hnonempty => exact .inr ⟨trivial, nofun, .inl fun hquiet => hnonempty hquiet.2⟩
  | resumed hread =>
    rw [if_pos hclosed]
    exact .inr ⟨trivial, nofun, .inl fun hquiet => by cases hread.symm.trans hquiet.1⟩
  | listed hlisting => exact (hnone hlisting id).elim
  | item hhandling => exact (hnone hhandling id).elim
  | overflowed hhandling => exact (hnone hhandling id).elim
  | yielded hhandling => exact (hnone hhandling id).elim
  | skipped hhandling => exact (hnone hhandling id).elim
  | looped hhandling => exact (hnone hhandling id).elim
  | failed => exact .inr ⟨trivial, nofun, .inr (.inl rfl)⟩
  | cancelled => exact .inr ⟨trivial, nofun, .inr (.inr rfl)⟩

theorem INotifyStep.closedInv {action : INotifyAction}
    (step : INotifyStep watchPath events action es events') (hinv : events.ClosedInv) :
    events'.ClosedInv := by
  intro hclosed
  by_cases hbefore : events.closed = true
  · rcases step.of_closed hbefore (hinv hbefore) with ⟨hphase, -⟩ | ⟨hsuspended, -⟩
    · exact hphase ▸ hinv hbefore
    · exact hsuspended
  · have hmem := (step.closed_iff.mp hclosed).resolve_left hbefore
    cases step with
    | closed hsuspended =>
      show (events.report .ignored).phase.Suspended
      rwa [phase_report]
    | _ => simp at hmem

/-- After `close` nothing makes `listen` wait for the kernel. -/
theorem INotifyStep.quiet_of_closed {action : INotifyAction}
    (step : INotifyStep watchPath events action es events') (hclosed : events.closed = true)
    (hinv : events.ClosedInv) (hquiet : events'.Quiet) : events.Quiet := by
  rcases step.of_closed hclosed (hinv hclosed) with ⟨hphase, hqueue⟩ | ⟨-, hnot, -⟩
  · exact ⟨hphase ▸ hquiet.1, hqueue ▸ hquiet.2⟩
  · exact absurd hquiet.1 hnot

/-- The event of the removed watch wakes the thread, or one that was in the queue does. -/
theorem INotifyStep.not_quiet_of_close {action : INotifyAction}
    (step : INotifyStep watchPath events action es events') (hmem : .closed ∈ es)
    (hopen : events.closed = false) (hpresent : events.present = true) : ¬ events'.Quiet := by
  cases step with
  | closed =>
    rintro ⟨-, hitems⟩
    have hpush : (events.report .ignored).queue.items = [] := hitems
    rw [report, if_neg (by simp [hopen, hpresent])] at hpush
    rcases LossyQueue.mem_push events.queue .ignored with hmem | hmem
    · exact List.ne_nil_of_mem hmem hpush
    · exact List.ne_nil_of_mem hmem hpush
  | _ => simp at hmem

/-- A closed `listen` gives nothing out. -/
theorem INotifyStep.not_yielded_of_closed {action : INotifyAction}
    (step : INotifyStep watchPath events action es events') (hinv : events.ClosedInv)
    (hclosed : events.closed = true) (path : PosixPath) : .yielded path ∉ es := by
  have hsuspended := hinv hclosed
  cases step with
  | item hhandling =>
    rw [hhandling] at hsuspended
    exact hsuspended.elim
  | yielded hhandling =>
    rw [hhandling] at hsuspended
    exact hsuspended.elim
  | _ => simp

end Closing

/-! ### Progress -/

/-- A step of `listen` and of its thread. -/
def INotifyAction.Own : INotifyAction → Prop
  | .read _ | .resume | .list _ | .next => True
  | _ => False

/-- The steps left in a phase, where an event is worth `weight` of them. -/
def ListenPhase.work (weight : ℕ) : ListenPhase → ℕ
  | reading | ended => 0
  | read batch => batch.length * weight + 2
  | listing _ possible batch => possible.card + batch.length * weight + 2
  | handling listed batch => listed.length + batch.length * weight + 1

/-- A bound on the steps of `listen` while the directory does not change: each event may stand for a
listing. -/
def INotifyEvents.work (events : INotifyEvents) : ℕ :=
  events.queue.items.length * (events.entries.card + 5) + events.phase.work (events.entries.card + 2)

section Progress

variable {es : List FileEvent}

/-- What is read counts less than in the queue. -/
theorem work_read_lt {taken left weight : ℕ} (h : 0 < taken) :
    left * (weight + 5) + (taken * (weight + 2) + 2) < (taken + left) * (weight + 5) := by
  have hsplit : (taken + left) * (weight + 5)
      = left * (weight + 5) + (taken * (weight + 2) + taken * 3) := by ring
  omega

theorem work_setPhase_lt {phase : ListenPhase}
    (h : phase.work (events.entries.card + 2) < events.phase.work (events.entries.card + 2)) :
    { events with phase := phase }.work < events.work := Nat.add_lt_add_left h _

theorem INotifyStep.work_lt {action : INotifyAction}
    (step : INotifyStep watchPath events action es events') (hown : action.Own) :
    events'.work < events.work := by
  cases step with
  | @read n hreading hpos hnonempty =>
    unfold work
    rw [hreading]
    show (events.queue.items.drop n).length * _ + ((events.queue.items.take n).length * _ + 2)
      < events.queue.items.length * _
    have hlength : (events.queue.items.take n).length + (events.queue.items.drop n).length
        = events.queue.items.length := by
      rw [← List.length_append, List.take_append_drop]
    have htaken : 0 < (events.queue.items.take n).length := by
      rw [List.length_take]
      exact Nat.lt_min.mpr ⟨hpos, List.length_pos_iff.mpr hnonempty⟩
    calc _ < ((events.queue.items.take n).length + (events.queue.items.drop n).length)
          * (events.entries.card + 5) := work_read_lt htaken
      _ = events.queue.items.length * (events.entries.card + 5) := by rw [hlength]
  | resumed hread =>
    apply work_setPhase_lt
    rw [hread]
    split_ifs <;> simp [ListenPhase.work]
  | @listed lasting possible batch names hlisting hnodup _ hpossible =>
    have hle : names.length ≤ possible.card := by
      rw [← List.toFinset_card_of_nodup hnodup]
      exact Finset.card_le_card fun name hmem => hpossible name (List.mem_toFinset.mp hmem)
    apply work_setPhase_lt
    rw [hlisting]
    simp only [ListenPhase.work, List.length_map]
    omega
  | item hhandling =>
    apply work_setPhase_lt
    rw [hhandling]
    simp only [ListenPhase.work, List.length_cons]
    omega
  | overflowed hhandling =>
    apply work_setPhase_lt
    rw [hhandling]
    simp only [ListenPhase.work, List.length_cons, Nat.succ_mul]
    omega
  | yielded hhandling =>
    apply work_setPhase_lt
    rw [hhandling]
    simp only [ListenPhase.work, List.length_cons, Nat.succ_mul]
    omega
  | skipped hhandling =>
    apply work_setPhase_lt
    rw [hhandling]
    simp only [ListenPhase.work, List.length_cons, Nat.succ_mul]
    omega
  | looped hhandling =>
    apply work_setPhase_lt
    rw [hhandling]
    split_ifs <;> simp [ListenPhase.work]
  | _ => cases hown

/-- The listing under way can be completed. -/
def INotifyEvents.Listable (events : INotifyEvents) : Prop :=
  events.phase.lasting ⊆ events.phase.possible

theorem INotifyStep.listable {action : INotifyAction}
    (step : INotifyStep watchPath events action es events') (h : events.Listable) : events'.Listable := by
  have happear {phase : ListenPhase} {name : PathComponent} (h : phase.lasting ⊆ phase.possible) :
      (phase.appear name).lasting ⊆ (phase.appear name).possible := by
    cases phase with
    | listing => exact Finset.Subset.trans h (Finset.subset_insert _ _)
    | _ => exact h
  unfold Listable at h ⊢
  cases step with
  | created => exact happear h
  | completed _ _ _ hentry =>
    rw [phase_report]
    rcases hentry with rfl | rfl
    · exact h
    · exact happear h
  | @removed name =>
    show (events.phase.vanish name).lasting ⊆ (events.phase.vanish name).possible
    cases hphase : events.phase with
    | listing =>
      rw [hphase] at h
      exact Finset.Subset.trans (Finset.erase_subset _ _) h
    | _ => exact Finset.Subset.refl _
  | read => exact Finset.Subset.refl _
  | resumed => split_ifs <;> exact Finset.Subset.refl _
  | looped => split_ifs <;> exact Finset.Subset.refl _
  | lost | closed =>
    show (events.report .ignored).phase.lasting ⊆ (events.report .ignored).phase.possible
    rwa [phase_report]
  | _ => exact Finset.Subset.refl _

/-- `listen` has a step to take, unless it has ended or waits for the kernel. -/
theorem exists_own_step (watchPath : PosixPath) (h : events.Listable) (hphase : events.phase ≠ .ended) :
    events.Quiet ∨ ∃ action, action.Own ∧ (events.step watchPath action).isSome := by
  cases hcase : events.phase with
  | ended => exact absurd hcase hphase
  | reading =>
    by_cases hitems : events.queue.items = []
    · exact .inl ⟨hcase, hitems⟩
    · refine .inr ⟨.read 1, trivial, ?_⟩
      simp [INotifyEvents.step, hcase, hitems]
  | read batch =>
    refine .inr ⟨.resume, trivial, ?_⟩
    simp [INotifyEvents.step, hcase]
  | handling listed batch =>
    refine .inr ⟨.next, trivial, ?_⟩
    simp [INotifyEvents.step, hcase]
  | listing lasting possible batch =>
    unfold Listable at h
    rw [hcase] at h
    refine .inr ⟨.list possible.toList, trivial, ?_⟩
    have hlist : possible.toList.Nodup ∧ (∀ name ∈ lasting, name ∈ possible.toList) ∧
        ∀ name ∈ possible.toList, name ∈ possible :=
      ⟨possible.nodup_toList, fun name hmem => Finset.mem_toList.mpr (h hmem),
        fun name => Finset.mem_toList.mp⟩
    simp only [INotifyEvents.step, hcase, if_pos hlist, Option.isSome_some]

/-- An own step leaves `listen` open. -/
theorem INotifyStep.open_of_own {action : INotifyAction}
    (step : INotifyStep watchPath events action es events') (hown : action.Own) (hopen : events.Open) :
    events'.Open := by
  obtain ⟨hclosed, hphase⟩ := hopen
  cases step with
  | resumed =>
    refine ⟨hclosed, ?_⟩
    rw [hclosed]
    nofun
  | looped =>
    refine ⟨hclosed, ?_⟩
    rw [hclosed]
    nofun
  | read => exact ⟨hclosed, nofun⟩
  | listed => exact ⟨hclosed, nofun⟩
  | item => exact ⟨hclosed, nofun⟩
  | overflowed => exact ⟨hclosed, nofun⟩
  | yielded => exact ⟨hclosed, nofun⟩
  | skipped => exact ⟨hclosed, nofun⟩
  | _ => cases hown

end Progress

/-! ### Runs -/

section Runs

variable {maxQueuedEvents : ℕ} {entries : Finset PathComponent} {tr : List FileEvent}

/-- What holds of the file events in every run. -/
structure FileInv (watchPath : PosixPath) (maxQueuedEvents : ℕ) (entries : Finset PathComponent)
    (tr : List FileEvent) (events : INotifyEvents) : Prop where
  marker : events.queue.marker = .overflow
  capacity : events.queue.capacity = maxQueuedEvents
  due : events.Open → ∀ name, Unseen watchPath name tr →
    name ∈ events.entries ∧ Due watchPath events name
  all : events.All watchPath (Appeared entries tr)
  order : (∀ names, .listed names ∉ tr) → events.phase.listed = [] ∧
    (yieldedItems tr ++ itemsOf watchPath events.unhandled).Sublist
      ((completedNames tr).map (itemPath watchPath))
  overflowed : events.Overflowed → WasFull watchPath maxQueuedEvents entries tr
  present : events.present = true ↔ .lost ∉ tr
  closed : events.closed = true ↔ .closed ∈ tr
  suspended : events.ClosedInv
  /-- The thread has something to read where the watch was there to be removed. -/
  woken : ∀ pre post, tr = pre ++ .closed :: post → .lost ∉ pre → ¬ events.Quiet
  listable : events.Listable

/-- **One step**: where the watch was there when `listen` was closed, the thread does not wait in vain. -/
theorem INotifyStep.woken {action : INotifyAction} {es : List FileEvent}
    (step : INotifyStep watchPath events action es events')
    (hinv : FileInv watchPath maxQueuedEvents entries tr events) (pre post : List FileEvent)
    (htr : tr ++ es = pre ++ .closed :: post) (hpre : .lost ∉ pre) : ¬ events'.Quiet := by
  have hbefore {pre' post' : List FileEvent} (h : tr = pre' ++ .closed :: post') (hpre' : .lost ∉ pre') :
      ¬ events'.Quiet := by
    have hclosed : events.closed = true := hinv.closed.mpr (by simp [h])
    exact fun hquiet => hinv.woken pre' post' h hpre' (step.quiet_of_closed hclosed hinv.suspended hquiet)
  have hnow (h : es = .closed :: post) (hlost : .lost ∉ tr) : ¬ events'.Quiet := by
    by_cases hclosed : events.closed = true
    · obtain ⟨pre', post', h'⟩ := List.append_of_mem (hinv.closed.mp hclosed)
      exact hbefore h' fun hmem => hlost (h' ▸ List.mem_append_left _ hmem)
    · exact step.not_quiet_of_close (h ▸ List.mem_cons_self) (Bool.eq_false_iff.mpr hclosed)
        (hinv.present.mpr hlost)
  rcases List.append_eq_append_iff.mp htr with ⟨mid, rfl, hes⟩ | ⟨mid, rfl, hpost⟩
  · have hmem : .closed ∈ es := hes ▸ List.mem_append_right _ List.mem_cons_self
    rw [List.mem_append, not_or] at hpre
    cases step with
    | closed =>
      rcases mid with _ | ⟨event, mid⟩
      · exact hnow hes hpre.1
      · simp at hes
    | _ => simp at hmem
  · rcases mid with _ | ⟨event, mid⟩
    · rw [List.append_nil] at hnow
      exact hnow hpost.symm hpre
    · obtain ⟨rfl, -⟩ := List.cons.inj hpost
      exact hbefore rfl hpre

theorem FileInv.of_runs
    (run : (INotifyEvents.machine watchPath maxQueuedEvents entries).Runs tr events) :
    FileInv watchPath maxQueuedEvents entries tr events := by
  refine run.invariant ?_ fun tr events action events' es run₀ hinv _ hstep => ?_
  · refine ⟨rfl, rfl, fun _ name h => absurd h Since.not_since_nil, ⟨?_, nofun, nofun, nofun⟩,
      fun _ => ⟨rfl, List.Sublist.refl _⟩, ?_, ?_, ?_, nofun, by simp, Finset.Subset.refl _⟩
    · exact fun name hmem => .inl hmem
    · rintro (⟨event, hmem, -⟩ | ⟨lasting, possible, batch, hphase⟩)
      · cases hmem
      · cases hphase
    · exact iff_of_true rfl List.not_mem_nil
    · exact iff_of_false Bool.false_ne_true List.not_mem_nil
  · have step := inotifyStep_of_step hstep
    constructor
    · rw [step.marker, hinv.marker]
    · rw [step.capacity, hinv.capacity]
    · exact fun hopen name => step.due hinv.marker hopen (hinv.due (step.open_of_open hopen) name)
    · refine step.all hinv.marker (hinv.all.mono fun name h => h.mono) fun name h => ?_
      refine .inr (h.imp (List.mem_append_right _) fun h => ?_)
      exact h.imp fun linked => List.mem_append_right _
    · intro hnone
      have hbefore : ∀ names, .listed names ∉ tr := fun names hmem =>
        hnone names (List.mem_append_left _ hmem)
      have hnow : ∀ names, .listed names ∉ es := fun names hmem =>
        hnone names (List.mem_append_right _ hmem)
      obtain ⟨hlisted, horder⟩ := hinv.order hbefore
      obtain ⟨hlisted', hstep'⟩ := step.order hinv.marker hlisted hnow
      refine ⟨hlisted', ?_⟩
      have hyielded : yieldedItems (tr ++ es) = yieldedItems tr ++ yieldedItems es := List.filterMap_append
      have hcompleted : completedNames (tr ++ es) = completedNames tr ++ completedNames es :=
        List.filterMap_append
      rw [hyielded, hcompleted, List.map_append, List.append_assoc]
      refine (hstep'.append_left _).trans ?_
      rw [← List.append_assoc]
      exact horder.append_right _
    · intro h
      rcases step.overflowed_of (.inl h) with h | hfull
      · obtain ⟨tr₀, events₀, hprefix, run₀, hfull⟩ := hinv.overflowed h
        exact ⟨tr₀, events₀, hprefix.trans (List.prefix_append ..), run₀, hfull⟩
      · exact ⟨tr, events, List.prefix_append .., run₀, hinv.capacity ▸ hfull⟩
    · rw [step.present_iff, hinv.present, List.mem_append, not_or]
    · rw [step.closed_iff, hinv.closed, List.mem_append]
    · exact step.closedInv hinv.suspended
    · exact step.woken hinv
    · exact step.listable hinv.listable

theorem Open.settles {watchPath : PosixPath} {maxQueuedEvents : ℕ} {entries : Finset PathComponent}
    (hopen : events.Open) (hlistable : events.Listable) :
    (INotifyEvents.machine watchPath maxQueuedEvents entries).Settles INotifyAction.Own Quiet events := by
  apply EventMachine.settles_of_measure INotifyEvents.work
    (I := fun events => events.Open ∧ events.Listable)
  · intro events action events' es hinv hown hstep
    have step := inotifyStep_of_step hstep
    exact ⟨⟨step.open_of_own hown hinv.1, step.listable hinv.2⟩, step.work_lt hown⟩
  · exact fun events hinv => exists_own_step watchPath hinv.2 hinv.1.2
  · exact ⟨hopen, hlistable⟩

/-- At rest nothing is due. -/
theorem FileInv.not_unseen (hinv : FileInv watchPath maxQueuedEvents entries tr events)
    (hopen : events.Open) (hquiet : events.Quiet) (name : PathComponent) :
    ¬ Unseen watchPath name tr := by
  intro hunseen
  obtain ⟨hphase, hitems⟩ := hquiet
  rcases (hinv.due hopen name hunseen).2 with ⟨event, hmem, -⟩ | hmem | hmem
  · unfold unhandled at hmem
    rw [hphase, hitems] at hmem
    cases hmem
  · rw [hphase] at hmem
    cases hmem
  · rw [hphase] at hmem
    cases hmem

/-- **No completed file is missed.**  In every run in which `listen` was neither closed nor has failed:

* a file that was completed and has kept its name since has been given out after that, once `listen`
  waits and the kernel has nothing for it, however many events the kernel had to drop;
* while the directory does not change, the steps of `listen` come to an end in such a state, in whatever
  order they are taken. -/
theorem completed_file_is_yielded
    (run : (INotifyEvents.machine watchPath maxQueuedEvents entries).Runs tr events)
    (hopen : events.Open) :
    (∀ pre name post, tr = pre ++ .completed name true :: post → .removed name ∉ post →
      events.Quiet → .yielded (itemPath watchPath name) ∈ post) ∧
    (INotifyEvents.machine watchPath maxQueuedEvents entries).Settles INotifyAction.Own Quiet events := by
  have hinv := FileInv.of_runs run
  refine ⟨fun pre name post htr hstays hquiet => ?_, Open.settles hopen hinv.listable⟩
  obtain ⟨event, hmem, rfl | rfl⟩ := Since.exists_mem (hinv.not_unseen hopen hquiet name) htr rfl
  · exact hmem
  · exact absurd hmem hstays

/-- **What is given out.**  In every run:

* a path given out is that of a name in the watched directory which was there at the start, or has
  appeared there or was completed before;
* while the directory has not been listed, the paths given out are those of completed files, in the order
  of their completion, and no oftener;
* the directory is listed only after the kernel's queue was full. -/
theorem yields_are_completions
    (run : (INotifyEvents.machine watchPath maxQueuedEvents entries).Runs tr events) :
    (∀ pre path post, tr = pre ++ .yielded path :: post →
      ∃ name, path = itemPath watchPath name ∧ Appeared entries pre name) ∧
    ((∀ names, .listed names ∉ tr) →
      (yieldedItems tr).Sublist ((completedNames tr).map (itemPath watchPath))) ∧
    (∀ pre names post, tr = pre ++ .listed names :: post →
      WasFull watchPath maxQueuedEvents entries pre) := by
  refine ⟨?_, fun hnone => ?_, ?_⟩
  · intro pre path post htr
    obtain ⟨events₀, _, _, run₀, -, hstep⟩ := run.exists_step_of_alone htr fun _ _ _ _ hstep hmem => by
      cases inotifyStep_of_step hstep with
      | item => rw [List.mem_singleton.mp hmem]
      | yielded => rw [List.mem_singleton.mp hmem]
      | _ => simp at hmem
    exact ((inotifyStep_of_step hstep).of_yielded (FileInv.of_runs run₀).all List.mem_cons_self).2
  · exact (List.sublist_append_left ..).trans ((FileInv.of_runs run).order hnone).2
  · intro pre names post htr
    obtain ⟨events₀, _, _, run₀, -, hstep⟩ := run.exists_step_of_alone htr fun _ _ _ _ hstep hmem => by
      cases inotifyStep_of_step hstep with
      | listed => rw [List.mem_singleton.mp hmem]
      | _ => simp at hmem
    have hinv := FileInv.of_runs run₀
    rcases (inotifyStep_of_step hstep).overflowed_of (.inr ⟨names, List.mem_cons_self⟩) with h | hfull
    · exact hinv.overflowed h
    · exact ⟨pre, events₀, List.prefix_refl _, run₀, hinv.capacity ▸ hfull⟩

theorem settles_of_closed {watchPath : PosixPath} {maxQueuedEvents : ℕ} {entries : Finset PathComponent}
    (hclosed : events.closed = true) (hinv : events.ClosedInv) (hlistable : events.Listable)
    (hquiet : ¬ events.Quiet) :
    (INotifyEvents.machine watchPath maxQueuedEvents entries).Settles INotifyAction.Own
      (fun events => events.phase = .ended) events := by
  apply EventMachine.settles_of_measure INotifyEvents.work
    (I := fun events => events.closed = true ∧ events.ClosedInv ∧ events.Listable ∧ ¬ events.Quiet)
  · rintro events action events' es ⟨hclosed, hinv, hlistable, hquiet⟩ hown hstep
    have step := inotifyStep_of_step hstep
    exact ⟨⟨step.closed_iff.mpr (.inl hclosed), step.closedInv hinv, step.listable hlistable,
      fun h => hquiet (step.quiet_of_closed hclosed hinv h)⟩, step.work_lt hown⟩
  · rintro events ⟨-, -, hlistable, hquiet⟩
    by_cases hphase : events.phase = .ended
    · exact .inl hphase
    · exact .inr ((exists_own_step watchPath hlistable hphase).resolve_left hquiet)
  · exact ⟨hclosed, hinv, hlistable, hquiet⟩

/-- **Closing.**  In every run:

* nothing is given out after `close`;
* where the watched directory was there when `listen` was closed, `listen` comes to its end by its own
  steps: the thread that waits in the kernel is woken by the event of the removed watch, or by one that
  was in the queue;
* where the directory was gone, `listen` comes to its end too, unless it waits already; then only a
  failure of the read or a cancellation ends the wait. -/
theorem closed_listener_ends
    (run : (INotifyEvents.machine watchPath maxQueuedEvents entries).Runs tr events) :
    (∀ pre post, tr = pre ++ .closed :: post → ∀ path, .yielded path ∉ post) ∧
    (∀ pre post, tr = pre ++ .closed :: post → .lost ∉ pre →
      (INotifyEvents.machine watchPath maxQueuedEvents entries).Settles INotifyAction.Own
        (fun events => events.phase = .ended) events) ∧
    (events.closed → ¬ events.Quiet →
      (INotifyEvents.machine watchPath maxQueuedEvents entries).Settles INotifyAction.Own
        (fun events => events.phase = .ended) events) ∧
    (events.closed → events.Quiet → ∀ action events' es,
      events.step watchPath action = some (events', es) →
      action = .fail ∨ action = .cancel ∨ events'.closed ∧ events'.Quiet) := by
  have hinv := FileInv.of_runs run
  refine ⟨fun pre post htr path hmem => ?_, fun pre post htr hpre => ?_, fun hclosed hquiet => ?_, ?_⟩
  · obtain ⟨mid, rest, rfl⟩ := List.append_of_mem hmem
    have hsplit : tr = (pre ++ .closed :: mid) ++ .yielded path :: rest := by
      rw [htr]
      simp
    obtain ⟨events₀, _, _, run₀, -, hstep⟩ := run.exists_step_of_alone hsplit
      fun _ _ _ _ hstep hmem => by
        cases inotifyStep_of_step hstep with
        | item => rw [List.mem_singleton.mp hmem]
        | yielded => rw [List.mem_singleton.mp hmem]
        | _ => simp at hmem
    have hinv₀ := FileInv.of_runs run₀
    have hclosed : events₀.closed = true := hinv₀.closed.mpr (by simp)
    exact (inotifyStep_of_step hstep).not_yielded_of_closed hinv₀.suspended hclosed path List.mem_cons_self
  · have hclosed : events.closed = true := hinv.closed.mpr (by simp [htr])
    exact settles_of_closed hclosed hinv.suspended hinv.listable (hinv.woken pre post htr hpre)
  · exact settles_of_closed hclosed hinv.suspended hinv.listable hquiet
  · intro hclosed hquiet action events' es hstep
    have step := inotifyStep_of_step hstep
    rcases step.of_closed hclosed (hinv.suspended hclosed) with
      ⟨hphase, hqueue⟩ | ⟨-, -, hwoken | hfailed | hcancelled⟩
    · refine .inr (.inr ⟨step.closed_iff.mpr (.inl hclosed), hphase.trans hquiet.1, ?_⟩)
      rw [hqueue]
      exact hquiet.2
    · exact absurd hquiet hwoken
    · exact .inl hfailed
    · exact .inr (.inl hcancelled)

end Runs

/-! ### A full queue -/

def inbox : PosixPath := .parse ['/', 'w']

def fileA : PathComponent := ⟨['a'], by decide⟩

def fileB : PathComponent := ⟨['b'], by decide⟩

/-- The kernel has room for one event, so that the second file is found by a listing. -/
def overflowActions : List INotifyAction :=
  [.next, .create fileA, .complete flagCloseWrite 0 fileA, .complete flagMovedTo 1 fileB, .read 2,
    .resume, .next, .next, .list [fileA, fileB], .next, .next, .next]

def overflowTrace : List FileEvent :=
  [.created fileA, .completed fileA true, .completed fileB true, .yielded (itemPath inbox fileA),
    .listed [fileA, fileB], .yielded (itemPath inbox fileA), .yielded (itemPath inbox fileB)]

theorem exists_overflow_run : ∃ events, (INotifyEvents.machine inbox 1 ∅).Runs overflowTrace events ∧
    events.Open ∧ events.Quiet := by
  obtain ⟨events, run, hexec⟩ := EventMachine.exists_runsUnder_of_map_eq
    (show ((INotifyEvents.machine inbox 1 ∅).runUnder (fun _ _ _ => True) []
        (INotifyEvents.machine inbox 1 ∅).init overflowActions).map Prod.fst
      = some overflowTrace by decide +kernel)
  have hstate : ((INotifyEvents.machine inbox 1 ∅).runUnder (fun _ _ _ => True) []
      (INotifyEvents.machine inbox 1 ∅).init overflowActions).map
      (fun result => decide (result.2.Open ∧ result.2.Quiet)) = some true := by decide +kernel
  rw [hexec, Option.map_some, Option.some.injEq] at hstate
  obtain ⟨hopen, hquiet⟩ := of_decide_eq_true hstate
  exact ⟨events, run, hopen, hquiet⟩

theorem completed_file_is_yielded_overflow :
    .yielded (itemPath inbox fileB) ∈ overflowTrace.drop 3 := by
  obtain ⟨events, run, hopen, hquiet⟩ := exists_overflow_run
  exact (completed_file_is_yielded run hopen).1 (overflowTrace.take 2) fileB _ rfl (by decide) hquiet

theorem yields_are_completions_overflow : WasFull inbox 1 ∅ (overflowTrace.take 4) := by
  obtain ⟨events, run, -⟩ := exists_overflow_run
  exact (yields_are_completions run).2.2 (overflowTrace.take 4) [fileA, fileB] _ rfl

theorem closed_listener_ends_unread :
    ∃ events, (INotifyEvents.machine inbox 1 ∅).Settles INotifyAction.Own
      (fun events => events.phase = .ended) events ∧ events.phase = .reading := by
  obtain ⟨events, run, hexec⟩ := EventMachine.exists_runsUnder_of_map_eq
    (show ((INotifyEvents.machine inbox 1 ∅).runUnder (fun _ _ _ => True) []
        (INotifyEvents.machine inbox 1 ∅).init [.next, .close]).map Prod.fst
      = some [.closed] by decide +kernel)
  have hstate : ((INotifyEvents.machine inbox 1 ∅).runUnder (fun _ _ _ => True) []
      (INotifyEvents.machine inbox 1 ∅).init [.next, .close]).map
      (fun result => result.2.phase) = some .reading := by decide +kernel
  rw [hexec, Option.map_some, Option.some.injEq] at hstate
  exact ⟨events, (closed_listener_ends run).2.1 [] [] rfl List.not_mem_nil, hstate⟩

/-- The directory is deleted, and `listen` waits for its next event when it is closed. -/
example : ((INotifyEvents.machine inbox 1 ∅).run
      [.next, .lose, .read 1, .resume, .next, .next, .close]).map
    (fun result => (result.1, result.2.closed, decide result.2.Quiet))
      = some ([.lost, .closed], true, true) := by
  decide +kernel

end FileMonitor
