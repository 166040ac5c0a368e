import FileMonitor.Adapters.Equiv.INotifySteps

/-!
# Where the items of the file events come from

* `INotifyStep.all`: what holds of every name that appears in the directory holds of all that `listen`
  has to do with.
* `INotifyStep.order`: without a listing, items are given out in the order of the completed files.
* `INotifyStep.overflowed_of`: a listing has its origin in a full queue.
-/

namespace FileMonitor

open INotifyEvents

variable {watchPath : PosixPath} {events events' : INotifyEvents}

/-! ### What is given out -/

/-- The paths given out, in order. -/
def yieldedItems (tr : List FileEvent) : List PosixPath :=
  tr.filterMap fun
    | .yielded path => some path
    | _ => none

/-- The names of the completed files, in order. -/
def completedNames (tr : List FileEvent) : List PathComponent :=
  tr.filterMap fun
    | .completed name _ => some name
    | _ => none

/-- The name was in the directory at the start, or has appeared there, or a file of this name was
completed. -/
def Appeared (entries : Finset PathComponent) (tr : List FileEvent) (name : PathComponent) : Prop :=
  name ∈ entries ∨ .created name ∈ tr ∨ ∃ linked, .completed name linked ∈ tr

/-- The event is about this name, if it is one that `listen` gives out. -/
def InotifyEvent.About (P : PathComponent → Prop) (event : InotifyEvent) : Prop :=
  event.isOverflow = false → event.isCompletion → ∃ name, event.name = some name ∧ P name

/-- Everything that `listen` has to do with satisfies `P`. -/
structure INotifyEvents.All (watchPath : PosixPath) (P : PathComponent → Prop) (events : INotifyEvents) :
    Prop where
  entries : ∀ name ∈ events.entries, P name
  possible : ∀ name ∈ events.phase.possible, P name
  listed : ∀ path ∈ events.phase.listed, ∃ name, path = itemPath watchPath name ∧ P name
  unhandled : ∀ event ∈ events.unhandled, event.About P

section Yielded

variable {tr es : List FileEvent} {P Q : PathComponent → Prop}

theorem Appeared.mono {entries : Finset PathComponent} {name : PathComponent}
    (h : Appeared entries tr name) : Appeared entries (tr ++ es) name := by
  rcases h with h | h | ⟨linked, h⟩
  · exact .inl h
  · exact .inr (.inl (List.mem_append_left _ h))
  · exact .inr (.inr ⟨linked, List.mem_append_left _ h⟩)

theorem INotifyEvents.All.mono (h : events.All watchPath P) (hPQ : ∀ name, P name → Q name) :
    events.All watchPath Q where
  entries name hmem := hPQ name (h.entries name hmem)
  possible name hmem := hPQ name (h.possible name hmem)
  listed path hmem := (h.listed path hmem).imp fun name h => ⟨h.1, hPQ name h.2⟩
  unhandled event hmem hoverflow hcompletion :=
    (h.unhandled event hmem hoverflow hcompletion).imp fun name h => ⟨h.1, hPQ name h.2⟩

theorem INotifyEvents.All.report (h : events.All watchPath P)
    (hmarker : events.queue.marker = .overflow) {event : InotifyEvent} (hevent : event.About P) :
    (events.report event).All watchPath P := by
  refine ⟨by simpa using h.entries, by simpa using h.possible, by simpa using h.listed,
    fun event' hmem => ?_⟩
  rcases unhandled_report hmarker event with heq | heq | heq
  all_goals rw [heq] at hmem
  · exact h.unhandled event' hmem
  · rcases List.mem_append.mp hmem with hmem | hmem
    · exact h.unhandled event' hmem
    · obtain rfl := List.mem_singleton.mp hmem
      intro hoverflow
      cases hoverflow
  · rcases List.mem_append.mp hmem with hmem | hmem
    · exact h.unhandled event' hmem
    · obtain rfl := List.mem_singleton.mp hmem
      exact hevent

theorem INotifyEvents.All.addEntry (h : events.All watchPath P) {name : PathComponent} (hname : P name) :
    (events.addEntry name).All watchPath P := by
  obtain ⟨hbatch, hlisted, -⟩ := appear_frame events.phase name
  constructor
  · intro name' hmem
    rcases Finset.mem_insert.mp hmem with rfl | hmem
    · exact hname
    · exact h.entries name' hmem
  · intro name' hmem
    rcases hphase : events.phase with _ | _ | ⟨lasting, possible, batch⟩ | _ | _
    case listing =>
      have hpossible := h.possible
      rw [hphase] at hpossible
      have hmem : name' ∈ (events.phase.appear name).possible := hmem
      rw [hphase] at hmem
      rcases Finset.mem_insert.mp hmem with rfl | hmem
      · exact hname
      · exact hpossible name' hmem
    all_goals
      have hmem : name' ∈ (events.phase.appear name).possible := hmem
      rw [hphase] at hmem
      cases hmem
  · intro path hmem
    have hmem : path ∈ (events.phase.appear name).listed := hmem
    rw [hlisted] at hmem
    exact h.listed path hmem
  · intro event hmem
    have hmem : event ∈ (events.phase.appear name).batch ++ events.queue.items := hmem
    rw [hbatch] at hmem
    exact h.unhandled event hmem

/-- The phase changes, and takes on nothing new. -/
theorem INotifyEvents.All.setPhase (h : events.All watchPath P) {phase : ListenPhase}
    (hpossible : ∀ name ∈ phase.possible, P name)
    (hlisted : ∀ path ∈ phase.listed, ∃ name, path = itemPath watchPath name ∧ P name)
    {phase₀ : ListenPhase} (hphase : events.phase = phase₀) (hbatch : phase.batch <:+ phase₀.batch) :
    { events with phase := phase }.All watchPath P where
  entries := h.entries
  possible := hpossible
  listed := hlisted
  unhandled event hmem := h.unhandled event (unhandled_setPhase hphase hbatch hmem)

theorem INotifyStep.all {action : INotifyAction} (step : INotifyStep watchPath events action es events')
    (hmarker : events.queue.marker = .overflow) (h : events.All watchPath P)
    (hes : ∀ name, .created name ∈ es ∨ (∃ linked, .completed name linked ∈ es) → P name) :
    events'.All watchPath P := by
  cases step with
  | created => exact h.addEntry (hes _ (.inl List.mem_cons_self))
  | completed _ _ _ hentry =>
    have hname := hes _ (.inr ⟨_, List.mem_cons_self⟩)
    rcases hentry with rfl | rfl
    · exact h.report hmarker fun _ _ => ⟨_, rfl, hname⟩
    · exact (h.addEntry hname).report hmarker fun _ _ => ⟨_, rfl, hname⟩
  | @removed name =>
    obtain ⟨hvbatch, hvlisted, -⟩ := vanish_frame events.phase name
    have hpossible : (events.phase.vanish name).possible = events.phase.possible := by
      cases events.phase <;> rfl
    have hvanish : { events with phase := events.phase.vanish name }.All watchPath P :=
      h.setPhase (by rw [hpossible]; exact h.possible) (by rw [hvlisted]; exact h.listed) rfl
        (by rw [hvbatch])
    exact ⟨fun name hmem => h.entries name (Finset.mem_of_mem_erase hmem), hvanish.possible,
      hvanish.listed, hvanish.unhandled⟩
  | lost | closed =>
    have hreport : (events.report .ignored).All watchPath P :=
      h.report hmarker fun _ hcompletion => absurd hcompletion (by decide)
    exact ⟨hreport.entries, hreport.possible, hreport.listed, hreport.unhandled⟩
  | @read n hreading =>
    refine ⟨h.entries, nofun, nofun, fun event hmem => h.unhandled event ?_⟩
    have hmem : event ∈ events.queue.items.take n ++ (events.queue.drop n).items := hmem
    rw [LossyQueue.take_append_items_drop] at hmem
    exact List.mem_append_right _ hmem
  | resumed hread =>
    split_ifs
    · exact h.setPhase nofun nofun rfl List.nil_suffix
    · exact h.setPhase nofun nofun hread (List.suffix_refl _)
  | listed hlisting _ _ hpossible =>
    refine h.setPhase nofun (fun path hpath => ?_) hlisting (List.suffix_refl _)
    obtain ⟨name, hmem, rfl⟩ := List.mem_map.mp hpath
    refine ⟨name, rfl, h.possible name ?_⟩
    rw [hlisting]
    exact hpossible name hmem
  | item hhandling =>
    refine h.setPhase nofun (fun path hmem => h.listed path ?_) hhandling (List.suffix_refl _)
    rw [hhandling]
    exact List.mem_cons_of_mem _ hmem
  | overflowed hhandling =>
    exact h.setPhase h.entries nofun hhandling (List.suffix_cons ..)
  | yielded hhandling =>
    exact h.setPhase nofun nofun hhandling (List.suffix_cons ..)
  | skipped hhandling =>
    exact h.setPhase nofun nofun hhandling (List.suffix_cons ..)
  | looped hhandling => split_ifs <;> exact h.setPhase nofun nofun rfl List.nil_suffix
  | failed => exact h.setPhase nofun nofun rfl List.nil_suffix
  | cancelled => exact h.setPhase nofun nofun rfl List.nil_suffix

/-- What a step gives out is the path of a name that satisfies `P`. -/
theorem INotifyStep.of_yielded {action : INotifyAction}
    (step : INotifyStep watchPath events action es events') (h : events.All watchPath P)
    {path : PosixPath} (hmem : .yielded path ∈ es) :
    es = [.yielded path] ∧ ∃ name, path = itemPath watchPath name ∧ P name := by
  cases step with
  | item hhandling =>
    obtain rfl := FileEvent.yielded.inj (List.mem_singleton.mp hmem)
    refine ⟨rfl, h.listed path ?_⟩
    rw [hhandling]
    exact List.mem_cons_self
  | @yielded event batch hhandling hnotOverflow hcompletion =>
    obtain rfl := FileEvent.yielded.inj (List.mem_singleton.mp hmem)
    have hunhandled : event ∈ events.unhandled := by
      unfold unhandled
      rw [hhandling]
      exact List.mem_cons_self
    obtain ⟨name, hname, hP⟩ := h.unhandled event hunhandled hnotOverflow hcompletion
    refine ⟨rfl, name, ?_, hP⟩
    rw [eventPath, hname]
  | _ => simp at hmem

end Yielded

/-! ### Order -/

/-- What `listen` gives out of these events, if it lists nothing. -/
def itemsOf (watchPath : PosixPath) (batch : List InotifyEvent) : List PosixPath :=
  (batch.filter fun event => !event.isOverflow && event.isCompletion).map (eventPath watchPath)

section Order

variable {tr es : List FileEvent}

theorem itemsOf_append (batch batch' : List InotifyEvent) :
    itemsOf watchPath (batch ++ batch') = itemsOf watchPath batch ++ itemsOf watchPath batch' := by
  unfold itemsOf
  rw [List.filter_append, List.map_append]

theorem itemsOf_cons_of_not {event : InotifyEvent} (h : (!event.isOverflow && event.isCompletion) = false)
    (batch : List InotifyEvent) : itemsOf watchPath (event :: batch) = itemsOf watchPath batch := by
  unfold itemsOf
  rw [List.filter_cons_of_neg (by simp [h])]

/-- A report adds at most the item of its event. -/
theorem itemsOf_report (hmarker : events.queue.marker = .overflow) (event : InotifyEvent) :
    (itemsOf watchPath (events.report event).unhandled).Sublist
      (itemsOf watchPath events.unhandled ++ itemsOf watchPath [event]) := by
  rcases unhandled_report hmarker event with heq | heq | heq
  all_goals rw [heq]
  · exact List.sublist_append_left ..
  · rw [itemsOf_append, show itemsOf watchPath [.overflow] = [] from rfl, List.append_nil]
    exact List.sublist_append_left ..
  · rw [itemsOf_append]

/-- **One step** that lists nothing: what it gives out was first in line, and only completed files join
the line. -/
theorem INotifyStep.order {action : INotifyAction} (step : INotifyStep watchPath events action es events')
    (hmarker : events.queue.marker = .overflow) (hlisted : events.phase.listed = [])
    (hes : ∀ names, .listed names ∉ es) :
    events'.phase.listed = [] ∧
      (yieldedItems es ++ itemsOf watchPath events'.unhandled).Sublist
        (itemsOf watchPath events.unhandled ++ (completedNames es).map (itemPath watchPath)) := by
  -- a step that handles nothing
  have hframe {phase : ListenPhase} (hnone : phase.listed = [])
      (hbatch : phase.batch = events.phase.batch) :
      phase.listed = [] ∧ (itemsOf watchPath (phase.batch ++ events.queue.items)).Sublist
        (itemsOf watchPath events.unhandled ++ []) := by
    rw [List.append_nil, hbatch]
    exact ⟨hnone, List.Sublist.refl _⟩
  -- a step that drops what was read
  have hdrop : (itemsOf watchPath events.queue.items).Sublist
      (itemsOf watchPath events.unhandled ++ []) := by
    rw [List.append_nil, unhandled, itemsOf_append]
    exact List.sublist_append_right ..
  cases step with
  | @created name =>
    obtain ⟨hbatch, hlist, -⟩ := appear_frame events.phase name
    exact hframe (hlist.trans hlisted) hbatch
  | @completed mask cookie name events' _ hcompletion hnotOverflow hentry =>
    have hsame : events'.phase.listed = [] ∧ events'.unhandled = events.unhandled ∧
        events'.queue.marker = .overflow := by
      obtain ⟨hbatch, hlist, -⟩ := appear_frame events.phase name
      rcases hentry with rfl | rfl
      · exact ⟨hlisted, rfl, hmarker⟩
      · refine ⟨hlist.trans hlisted, ?_, hmarker⟩
        show (events.phase.appear name).batch ++ events.queue.items = _
        rw [hbatch, unhandled]
    obtain ⟨hnone, hunhandled, hmarker⟩ := hsame
    rw [phase_report]
    refine ⟨hnone, ?_⟩
    have hitem : itemsOf watchPath [⟨mask, cookie, some name⟩] = [itemPath watchPath name] := by
      unfold itemsOf
      rw [List.filter_cons_of_pos (by simp [hcompletion, hnotOverflow])]
      rfl
    have hreport : (itemsOf watchPath (events'.report ⟨mask, cookie, some name⟩).unhandled).Sublist _ :=
      itemsOf_report hmarker _
    rwa [hunhandled, hitem] at hreport
  | @removed name =>
    obtain ⟨hbatch, hlist, -⟩ := vanish_frame events.phase name
    exact hframe (hlist.trans hlisted) hbatch
  | lost | closed =>
    refine ⟨?_, itemsOf_report hmarker .ignored⟩
    show (events.report .ignored).phase.listed = []
    rwa [phase_report]
  | @read n hreading =>
    refine ⟨rfl, ?_⟩
    show (itemsOf watchPath (events.queue.items.take n ++ (events.queue.drop n).items)).Sublist _
    rw [LossyQueue.take_append_items_drop]
    exact hdrop
  | resumed hread =>
    split_ifs
    · exact ⟨rfl, hdrop⟩
    · exact hframe rfl (by rw [hread]; rfl)
  | listed => exact absurd List.mem_cons_self (hes _)
  | item hhandling =>
    rw [hhandling] at hlisted
    cases hlisted
  | @overflowed event batch hhandling hoverflow =>
    refine ⟨rfl, ?_⟩
    unfold unhandled
    rw [hhandling]
    show (itemsOf watchPath (batch ++ _)).Sublist (itemsOf watchPath (event :: (batch ++ _)) ++ [])
    rw [itemsOf_cons_of_not (by simp [hoverflow]), List.append_nil]
  | @yielded event batch hhandling hnotOverflow hcompletion =>
    refine ⟨rfl, ?_⟩
    unfold unhandled
    rw [hhandling]
    show (eventPath watchPath event :: itemsOf watchPath (batch ++ _)).Sublist
      (itemsOf watchPath (event :: (batch ++ _)) ++ [])
    rw [List.append_nil]
    unfold itemsOf
    rw [List.filter_cons_of_pos (by simp [hcompletion, hnotOverflow])]
    exact List.Sublist.refl _
  | @skipped event batch hhandling hnotOverflow hnotCompletion =>
    refine ⟨rfl, ?_⟩
    unfold unhandled
    rw [hhandling]
    show (itemsOf watchPath (batch ++ _)).Sublist (itemsOf watchPath (event :: (batch ++ _)) ++ [])
    rw [itemsOf_cons_of_not (by simp [hnotCompletion]), List.append_nil]
  | looped hhandling =>
    split_ifs
    · exact ⟨rfl, hdrop⟩
    · exact hframe rfl (by rw [hhandling]; rfl)
  | failed => exact ⟨rfl, hdrop⟩
  | cancelled => exact ⟨rfl, hdrop⟩

end Order

/-! ### Listings -/

/-- An overflow event is on its way, or has led to a listing. -/
def INotifyEvents.Overflowed (events : INotifyEvents) : Prop :=
  (∃ event ∈ events.unhandled, event.isOverflow) ∨ ∃ lasting possible batch,
    events.phase = .listing lasting possible batch

/-- The kernel's queue was full at some time of the run. -/
def WasFull (watchPath : PosixPath) (maxQueuedEvents : ℕ) (entries : Finset PathComponent)
    (tr : List FileEvent) : Prop :=
  ∃ tr₀ events₀, tr₀ <+: tr ∧ (INotifyEvents.machine watchPath maxQueuedEvents entries).Runs tr₀ events₀ ∧
    maxQueuedEvents ≤ events₀.queue.items.length

section Listings

variable {es : List FileEvent}

/-- No overflow event is new. -/
theorem INotifyEvents.Overflowed.of_subset (h : events'.Overflowed)
    (hunhandled : events'.unhandled ⊆ events.unhandled)
    (hphase : ∀ lasting possible batch, events'.phase = .listing lasting possible batch →
      events.Overflowed) : events.Overflowed := by
  rcases h with ⟨event, hmem, hoverflow⟩ | ⟨lasting, possible, batch, hlisting⟩
  · exact .inl ⟨event, hunhandled hmem, hoverflow⟩
  · exact hphase lasting possible batch hlisting

theorem overflowed_appear {name : PathComponent} {lasting possible : Finset PathComponent}
    {batch : List InotifyEvent} (h : events.phase.appear name = .listing lasting possible batch) :
    events.Overflowed := by
  cases hphase : events.phase with
  | listing => exact .inr ⟨_, _, _, hphase⟩
  | _ =>
    rw [hphase] at h
    cases h

theorem overflowed_vanish {name : PathComponent} {lasting possible : Finset PathComponent}
    {batch : List InotifyEvent} (h : events.phase.vanish name = .listing lasting possible batch) :
    events.Overflowed := by
  cases hphase : events.phase with
  | listing => exact .inr ⟨_, _, _, hphase⟩
  | _ =>
    rw [hphase] at h
    cases h

/-- What a report brings is an overflow event only where the queue was full. -/
theorem overflowed_report {event : InotifyEvent} (h : (events.report event).Overflowed)
    (hevent : event.isOverflow = false) :
    events.Overflowed ∨ events.queue.capacity ≤ events.queue.items.length := by
  rcases h with ⟨event', hmem, hoverflow⟩ | ⟨lasting, possible, batch, hlisting⟩
  · unfold report at hmem
    split_ifs at hmem
    · exact .inl (.inl ⟨event', hmem, hoverflow⟩)
    · rcases List.mem_append.mp hmem with hmem | hmem
      · exact .inl (.inl ⟨event', List.mem_append_left _ hmem, hoverflow⟩)
      · rcases LossyQueue.of_mem_push hmem with hmem | rfl | ⟨-, hfull⟩
        · exact .inl (.inl ⟨event', List.mem_append_right _ hmem, hoverflow⟩)
        · rw [hevent] at hoverflow
          cases hoverflow
        · exact .inr hfull
  · rw [phase_report] at hlisting
    exact .inl (.inr ⟨lasting, possible, batch, hlisting⟩)

/-- **One step**: an overflow event comes from a full queue, and a listing from an overflow event. -/
theorem INotifyStep.overflowed_of {action : INotifyAction}
    (step : INotifyStep watchPath events action es events')
    (h : events'.Overflowed ∨ ∃ names, .listed names ∈ es) :
    events.Overflowed ∨ events.queue.capacity ≤ events.queue.items.length := by
  cases step with
  | @created name =>
    refine .inl ((h.resolve_right (by simp)).of_subset (fun event hmem => ?_) ?_)
    · have hmem : event ∈ (events.phase.appear name).batch ++ events.queue.items := hmem
      rwa [(appear_frame events.phase name).1] at hmem
    · exact fun _ _ _ => overflowed_appear
  | @completed mask cookie name events' _ _ hnotOverflow hentry =>
    have hreport := overflowed_report (h.resolve_right (by simp)) hnotOverflow
    rcases hentry with rfl | rfl
    · exact hreport
    · refine hreport.imp_left fun h => h.of_subset (fun event hmem => ?_) ?_
      · have hmem : event ∈ (events.phase.appear name).batch ++ events.queue.items := hmem
        rwa [(appear_frame events.phase name).1] at hmem
      · exact fun _ _ _ => overflowed_appear
  | @removed name =>
    refine .inl ((h.resolve_right (by simp)).of_subset (fun event hmem => ?_) ?_)
    · have hmem : event ∈ (events.phase.vanish name).batch ++ events.queue.items := hmem
      rwa [(vanish_frame events.phase name).1] at hmem
    · exact fun _ _ _ => overflowed_vanish
  | lost | closed => exact overflowed_report (h.resolve_right (by simp)) (by decide)
  | @read n hreading =>
    refine .inl ((h.resolve_right (by simp)).of_subset (fun event hmem => ?_) nofun)
    have hmem : event ∈ events.queue.items.take n ++ (events.queue.drop n).items := hmem
    rw [LossyQueue.take_append_items_drop] at hmem
    exact List.mem_append_right _ hmem
  | resumed hread =>
    refine .inl ((h.resolve_right (by simp)).of_subset (unhandled_setPhase hread ?_) ?_)
    · split_ifs
      · exact List.nil_suffix
      · exact List.suffix_refl _
    · intro _ _ _ hlisting
      dsimp only at hlisting
      split_ifs at hlisting
  | listed hlisting => exact .inl (.inr ⟨_, _, _, hlisting⟩)
  | item hhandling =>
    exact .inl ((h.resolve_right (by simp)).of_subset
      (unhandled_setPhase hhandling (List.suffix_refl _)) nofun)
  | @overflowed event batch hhandling hoverflow =>
    refine .inl (.inl ⟨event, ?_, hoverflow⟩)
    unfold unhandled
    rw [hhandling]
    exact List.mem_cons_self
  | yielded hhandling =>
    exact .inl ((h.resolve_right (by simp)).of_subset
      (unhandled_setPhase hhandling (List.suffix_cons ..)) nofun)
  | skipped hhandling =>
    exact .inl ((h.resolve_right (by simp)).of_subset
      (unhandled_setPhase hhandling (List.suffix_cons ..)) nofun)
  | looped hhandling =>
    refine .inl ((h.resolve_right (by simp)).of_subset (unhandled_setPhase hhandling ?_) ?_)
    · split_ifs <;> exact List.nil_suffix
    · intro _ _ _ hlisting
      dsimp only at hlisting
      split_ifs at hlisting
  | failed =>
    exact .inl ((h.resolve_right (by simp)).of_subset (unhandled_setPhase rfl List.nil_suffix) nofun)
  | cancelled =>
    exact .inl ((h.resolve_right (by simp)).of_subset (unhandled_setPhase rfl List.nil_suffix) nofun)

end Listings

end FileMonitor
