import FileMonitor.Supervision.Policy
import FileMonitor.Supervision.Equiv.Supervisor
import Mathlib.Tactic.Linarith

/-!
# Restarts

A child is told from the others by its number, so the trace is that of the labelled machine, whose
events carry the action they come from.

* `taskStep_of_step`: what a step of the supervisor is for one of its children.
* `Stage.step`: a step keeps the account of the child's exits.
* `restart_policy_is_exact`: so in every run the child is restarted as the policy says.
-/

namespace FileMonitor

open ProcessSupervisor

/-- The child whose task takes this step. -/
def SupervisorAction.index? : SupervisorAction → Option ℕ
  | .run index | .spawnReturns index | .spawnFails index | .waitReturns index | .backoffEnds index
  | .cancel index => some index
  | _ => none

/-- Any event of a child but the return of `spawn`. -/
def SupervisorEvent.isOfLife : SupervisorEvent → Bool
  | .spawnReturned .. => false
  | _ => true

/-- What happened to the child with this number, apart from returns of `spawn`. -/
def lifeOf (index : ℕ) (tr : List (SupervisorAction × SupervisorEvent)) : List SupervisorEvent :=
  ((tr.filter fun entry => entry.1.index? = some index).map Prod.snd).filter
    SupervisorEvent.isOfLife

theorem lifeOf_append (index : ℕ) (tr tr' : List (SupervisorAction × SupervisorEvent)) :
    lifeOf index (tr ++ tr') = lifeOf index tr ++ lifeOf index tr' := by
  unfold lifeOf
  rw [List.filter_append, List.map_append, List.filter_append]

theorem lifeOf_of_eq {index : ℕ} {action : SupervisorAction} (h : action.index? = some index)
    (es : List SupervisorEvent) :
    lifeOf index (es.map (Prod.mk action)) = es.filter SupervisorEvent.isOfLife := by
  have hall : (es.map (Prod.mk action)).filter (fun entry => entry.1.index? = some index)
      = es.map (Prod.mk action) := by
    rw [List.filter_eq_self]
    intro entry hentry
    obtain ⟨e, -, rfl⟩ := List.mem_map.mp hentry
    exact decide_eq_true h
  unfold lifeOf
  rw [hall, List.map_map]
  exact congrArg _ (List.map_id es)

theorem lifeOf_of_ne {index : ℕ} {action : SupervisorAction} (h : action.index? ≠ some index)
    (es : List SupervisorEvent) : lifeOf index (es.map (Prod.mk action)) = [] := by
  have hnone : (es.map (Prod.mk action)).filter (fun entry => entry.1.index? = some index) = [] := by
    rw [List.filter_eq_nil_iff]
    intro entry hentry
    obtain ⟨e, -, rfl⟩ := List.mem_map.mp hentry
    exact decide_eq_true_iff.not.mpr h
  unfold lifeOf
  rw [hnone]
  rfl

/-! ### Steps of one child -/

/-- The task of a child is waiting for a process, or for `spawn`, begun at this time. -/
def ChildPhase.Running : ChildPhase → ℚ → Prop
  | .spawning startedAt, time | .waiting _ startedAt, time => startedAt = time
  | _, _ => False

/-- What a step of the supervisor does to one child, while nobody has called `shutdown`. -/
inductive TaskStep (supervisor : ProcessSupervisor) (spec : ChildSpec) (now : ℚ) (child : Child) :
    List SupervisorEvent → Child → Prop where
  | idle : TaskStep supervisor spec now child [] child
  | spawnStarted (ready : child.phase = .ready) :
    TaskStep supervisor spec now child [.spawnStarted spec] { child with phase := .spawning now }
  | spawnReturned {process startedAt} (spawning : child.phase = .spawning startedAt) :
    TaskStep supervisor spec now child [] { child with phase := .waiting process startedAt }
  | degraded {startedAt failures timestamps} (running : child.phase.Running startedAt)
    (hfailures : failures = supervisor.failuresAfter child.consecutiveFailures (floatSub now startedAt))
    (htimestamps : timestamps = supervisor.appendExit child.exitTimestamps now)
    (loop : supervisor.inCrashLoop timestamps now = true) :
    TaskStep supervisor spec now child [.childExited spec.name startedAt now, .degraded spec.name]
      ⟨.returned, failures, timestamps⟩
  | backedOff {startedAt failures timestamps} (running : child.phase.Running startedAt)
    (hfailures : failures = supervisor.failuresAfter child.consecutiveFailures (floatSub now startedAt))
    (htimestamps : timestamps = supervisor.appendExit child.exitTimestamps now)
    (noLoop : supervisor.inCrashLoop timestamps now = false) :
    TaskStep supervisor spec now child
      [.childExited spec.name startedAt now, .backingOff spec.name (supervisor.delay failures)]
      ⟨.backoff (supervisor.delay failures) now, failures + 1, timestamps⟩
  | backoffEnded {delay since} (backoff : child.phase = .backoff delay since)
    (expired : since + delay ≤ now) :
    TaskStep supervisor spec now child [] { child with phase := .ready }
  | cancelled (notSpawning : ∀ startedAt, child.phase ≠ .spawning startedAt) :
    TaskStep supervisor spec now child [] { child with phase := .cancelled }

section

variable {supervisor : ProcessSupervisor} {state state' : SupervisorState} {k : ℕ} {spec : ChildSpec}
  {child : Child}

/-- A step of the task of one child is idle for the others. -/
theorem taskStep_of_child {index : ℕ} {spec' : ChildSpec} {old new : Child}
    {action : SupervisorAction} {es : List SupervisorEvent}
    (hat : ChildAt supervisor state k spec child) (hindex : ChildAt supervisor state index spec' old)
    (haction : action.index? = some index)
    (hchildren : state'.children = state.children.set index new)
    (task : TaskStep supervisor spec' state.now old (es.filter SupervisorEvent.isOfLife) new) :
    ∃ child', ChildAt supervisor state' k spec child' ∧
      TaskStep supervisor spec state.now child (lifeOf k (es.map (Prod.mk action))) child' := by
  have hlt := (List.getElem?_eq_some_iff.mp hindex.child).1
  by_cases heq : index = k
  · subst heq
    obtain rfl : spec' = spec := Option.some.inj (hindex.spec.symm.trans hat.spec)
    obtain rfl : old = child := Option.some.inj (hindex.child.symm.trans hat.child)
    refine ⟨new, ⟨hat.spec, ?_⟩, ?_⟩
    · rw [hchildren, List.getElem?_set_self hlt]
    · rw [lifeOf_of_eq haction]
      exact task
  · refine ⟨child, ⟨hat.spec, ?_⟩, ?_⟩
    · rw [hchildren, List.getElem?_set_ne heq]
      exact hat.child
    · rw [lifeOf_of_ne (by rw [haction]; exact fun h => heq (Option.some.inj h))]
      exact .idle

/-- A step of no task is idle for every child. -/
theorem taskStep_of_none {action : SupervisorAction} {es : List SupervisorEvent}
    (hat : ChildAt supervisor state k spec child) (haction : action.index? = none)
    (hchildren : state'.children = state.children) :
    ∃ child', ChildAt supervisor state' k spec child' ∧
      TaskStep supervisor spec state.now child (lifeOf k (es.map (Prod.mk action))) child' := by
  refine ⟨child, ⟨hat.spec, hchildren ▸ hat.child⟩, ?_⟩
  rw [lifeOf_of_ne (by rw [haction]; exact nofun)]
  exact .idle

/-- The end of an iteration, while nobody has called `shutdown`. -/
theorem handleExit_running (running : state.stopping = false) {index : ℕ} {startedAt : ℚ}
    (hphase : child.phase.Running startedAt) :
    let result := supervisor.handleExit state index spec.name child startedAt
    result.1.stopping = false ∧ result.1.now = state.now ∧
    ∃ child', result.1.children = state.children.set index child' ∧
      TaskStep supervisor spec state.now child (result.2.filter SupervisorEvent.isOfLife) child' := by
  intro result
  rcases handleExit_cases supervisor state index spec.name child startedAt with
    ⟨hstopping, -⟩ | ⟨-, hloop, h⟩ | ⟨-, hloop, h⟩
  · rw [running] at hstopping
    cases hstopping
  · rw [show result = _ from h]
    exact ⟨running, rfl, _, rfl, .degraded hphase rfl rfl hloop⟩
  · rw [show result = _ from h]
    exact ⟨running, rfl, _, rfl, .backedOff hphase rfl rfl hloop⟩

/-- **What a step of the supervisor is for one child**, while nobody calls `shutdown`. -/
theorem taskStep_of_step {action : SupervisorAction} {es : List SupervisorEvent}
    (running : state.stopping = false) (haction : action ≠ .shutdown)
    (hat : ChildAt supervisor state k spec child)
    (step : SupervisorStep supervisor state action es state') :
    state'.stopping = false ∧ state.now ≤ state'.now ∧
    ∃ child', ChildAt supervisor state' k spec child' ∧
      TaskStep supervisor spec state.now child (lifeOf k (es.map (Prod.mk action))) child' := by
  cases step with
  | tick nonneg => exact ⟨running, le_add_of_nonneg_right nonneg, taskStep_of_none hat rfl rfl⟩
  | loopEnds hindex ready stopping =>
    rw [running] at stopping
    cases stopping
  | spawnStarted hindex ready =>
    exact ⟨running, le_rfl, taskStep_of_child hat hindex rfl rfl (.spawnStarted ready)⟩
  | spawnReturned hindex spawning =>
    exact ⟨running, le_rfl, taskStep_of_child hat hindex rfl rfl (.spawnReturned spawning)⟩
  | @spawnFailed index spec' old startedAt hindex spawning =>
    obtain ⟨hstopping, hnow, new, hchildren, htask⟩ :=
      @handleExit_running supervisor state spec' old running index startedAt
        (by rw [spawning]; rfl)
    exact ⟨hstopping, hnow.ge, taskStep_of_child hat hindex rfl hchildren htask⟩
  | exited => exact ⟨running, le_rfl, taskStep_of_none hat rfl rfl⟩
  | @waitReturned index spec' old process startedAt hindex waiting =>
    obtain ⟨hstopping, hnow, new, hchildren, htask⟩ :=
      @handleExit_running supervisor { state with processes := state.processes.erase spec'.name }
        spec' old running index startedAt (by rw [waiting]; rfl)
    exact ⟨hstopping, hnow.ge, taskStep_of_child hat hindex rfl hchildren htask⟩
  | backoffEnded hindex backoff expired =>
    rw [running] at expired
    exact ⟨running, le_rfl, taskStep_of_child hat hindex rfl rfl
      (.backoffEnded backoff (expired.resolve_left nofun))⟩
  | cancelled hindex notSpawning =>
    exact ⟨running, le_rfl, taskStep_of_child hat hindex rfl rfl (.cancelled notSpawning)⟩
  | shutdownCalled => exact absurd rfl haction
  | graceEnded => exact ⟨running, le_rfl, taskStep_of_none hat rfl rfl⟩
  | remainingKilled yielding =>
    obtain ⟨shutdown, hstate, -⟩ := killRemaining_spec state
    rw [hstate]
    exact ⟨running, le_rfl, taskStep_of_none hat rfl rfl⟩
  | reaped => exact ⟨running, le_rfl, taskStep_of_none hat rfl rfl⟩
  | shutdownReturned => exact ⟨running, le_rfl, taskStep_of_none hat rfl rfl⟩

end

/-! ### The exits of a child -/

/-- A child with these exits may be started at this time: the backoff after its last exit, if any, is
over. -/
def MayStart (supervisor : ProcessSupervisor) (exits : List ChildExit) (time : ℚ) : Prop :=
  ∀ i, i + 1 = exits.length → ¬ supervisor.CrashLoopAt exits i ∧ (exitAt exits i).exitedAt ≤ time ∧
    (exitAt exits i).exitedAt + supervisor.backoffAfter exits i ≤ time

/-- No exit before its start, and no start before the backoff after the exit before it is over. -/
structure Chronicle (supervisor : ProcessSupervisor) (exits : List ChildExit) : Prop where
  ordered : ∀ i < exits.length, (exitAt exits i).startedAt ≤ (exitAt exits i).exitedAt
  restarted : ∀ i, i + 1 < exits.length → ¬ supervisor.CrashLoopAt exits i ∧
    (exitAt exits i).exitedAt ≤ (exitAt exits (i + 1)).startedAt ∧
    (exitAt exits i).exitedAt + supervisor.backoffAfter exits i ≤ (exitAt exits (i + 1)).startedAt

/-- Where the task of a child with these exits, and possibly started again since, can stand. -/
def Stage (supervisor : ProcessSupervisor) (exits : List ChildExit) (started : Bool) (now : ℚ) :
    ChildPhase → Prop
  | .ready => started = false ∧ MayStart supervisor exits now
  | .spawning startedAt | .waiting _ startedAt =>
    started = true ∧ MayStart supervisor exits startedAt ∧ startedAt ≤ now
  | .backoff delay since => started = false ∧ ∃ i, i + 1 = exits.length ∧
    ¬ supervisor.CrashLoopAt exits i ∧ since = (exitAt exits i).exitedAt ∧ since ≤ now ∧
    delay = supervisor.backoffAfter exits i
  | .returned => started = false ∧ ∃ i, i + 1 = exits.length ∧ supervisor.CrashLoopAt exits i
  | .cancelled => started = true → ∃ time, MayStart supervisor exits time

/-- The events and the local variables of a child are those of its exits. -/
structure Account (supervisor : ProcessSupervisor) (spec : ChildSpec) (now : ℚ) (child : Child)
    (events : List SupervisorEvent) (exits : List ChildExit) (started : Bool) : Prop where
  events : events = supervisor.life spec exits ++ if started then [.spawnStarted spec] else []
  chronicle : Chronicle supervisor exits
  timestamps : child.exitTimestamps
    = (exits.map ChildExit.exitedAt).rtake supervisor.crashLoopMaxRestarts
  failures : (∀ i, i + 1 = exits.length → ¬ supervisor.CrashLoopAt exits i) →
    child.consecutiveFailures = supervisor.failureCount exits
  stage : Stage supervisor exits started now child.phase

section

variable {supervisor : ProcessSupervisor} {spec : ChildSpec} {exits : List ChildExit} {started : Bool}
  {now now' : ℚ} {child child' : Child} {events es : List SupervisorEvent}

theorem Chronicle.append {e : ChildExit} (h : Chronicle supervisor exits)
    (hmay : MayStart supervisor exits e.startedAt) (hle : e.startedAt ≤ e.exitedAt) :
    Chronicle supervisor (exits ++ [e]) where
  ordered i hi := by
    rw [List.length_append, List.length_singleton] at hi
    rcases Nat.lt_succ_iff_lt_or_eq.mp hi with hi | rfl
    · rw [exitAt_append hi]
      exact h.ordered i hi
    · rw [exitAt_append_length]
      exact hle
  restarted i hi := by
    rw [List.length_append, List.length_singleton] at hi
    have hlt : i < exits.length := by omega
    rw [crashLoopAt_append hlt, exitAt_append hlt, backoffAfter_append hlt]
    rcases Nat.lt_succ_iff_lt_or_eq.mp hi with hi | hi
    · rw [exitAt_append hi]
      exact h.restarted i hi
    · rw [hi, exitAt_append_length]
      exact hmay i hi

theorem Chronicle.exitedAt_mono (h : Chronicle supervisor exits) {i j : ℕ} (hij : i ≤ j)
    (hj : j < exits.length) : (exitAt exits i).exitedAt ≤ (exitAt exits j).exitedAt := by
  induction j, hij using Nat.le_induction with
  | base => exact le_rfl
  | succ j hij ih =>
    obtain ⟨-, hrestarted, -⟩ := h.restarted j hj
    exact (ih (by omega)).trans (hrestarted.trans (h.ordered (j + 1) hj))

theorem MayStart.mono (h : MayStart supervisor exits now) (hle : now ≤ now') :
    MayStart supervisor exits now' := by
  intro i hi
  obtain ⟨hloop, hexited, hbackoff⟩ := h i hi
  exact ⟨hloop, hexited.trans hle, hbackoff.trans hle⟩

theorem Stage.mono {phase : ChildPhase} (h : Stage supervisor exits started now phase)
    (hle : now ≤ now') : Stage supervisor exits started now' phase := by
  cases phase with
  | ready => exact ⟨h.1, h.2.mono hle⟩
  | spawning => exact ⟨h.1, h.2.1, h.2.2.trans hle⟩
  | waiting => exact ⟨h.1, h.2.1, h.2.2.trans hle⟩
  | backoff =>
    obtain ⟨hstarted, i, hi, hloop, hsince, hle', hdelay⟩ := h
    exact ⟨hstarted, i, hi, hloop, hsince, hle'.trans hle, hdelay⟩
  | returned => exact h
  | cancelled => exact h

/-- A child that runs has been started when it might. -/
theorem Stage.of_running {phase : ChildPhase} {startedAt : ℚ}
    (h : Stage supervisor exits started now phase) (hrunning : phase.Running startedAt) :
    started = true ∧ MayStart supervisor exits startedAt ∧ startedAt ≤ now := by
  cases phase with
  | spawning => exact hrunning ▸ h
  | waiting => exact hrunning ▸ h
  | _ => exact hrunning.elim

/-- Whoever has been started might be. -/
theorem Stage.exists_mayStart {phase : ChildPhase} (h : Stage supervisor exits started now phase)
    (hstarted : started = true) : ∃ time, MayStart supervisor exits time := by
  subst hstarted
  cases phase with
  | spawning startedAt => exact ⟨startedAt, h.2.1⟩
  | waiting process startedAt => exact ⟨startedAt, h.2.1⟩
  | cancelled => exact h rfl
  | ready => exact absurd h.1 nofun
  | backoff => exact absurd h.1 nofun
  | returned => exact absurd h.1 nofun

/-- The two local variables after one more exit. -/
theorem Account.variables (h : Account supervisor spec now child events exits started)
    {startedAt : ℚ} (hmay : MayStart supervisor exits startedAt) :
    supervisor.appendExit child.exitTimestamps now
        = ((exits ++ [ChildExit.mk startedAt now]).map ChildExit.exitedAt).rtake
            supervisor.crashLoopMaxRestarts ∧
      supervisor.failuresAfter child.consecutiveFailures (floatSub now startedAt)
        = exits.length - supervisor.lastReset (exits ++ [⟨startedAt, now⟩]) exits.length := by
  constructor
  · rw [h.timestamps, appendExit_rtake, List.map_append]
    rfl
  · rw [h.failures fun i hi => (hmay i hi).1]
    exact failuresAfter_failureCount supervisor exits ⟨startedAt, now⟩

/-- **The account after one more exit**, which is dealt with as the policy says. -/
theorem Account.exit (h : Account supervisor spec now child events exits started) {startedAt : ℚ}
    (hrunning : child.phase.Running startedAt) {phase : ChildPhase} {failures : ℕ}
    (hfailures : ¬ supervisor.CrashLoopAt (exits ++ [⟨startedAt, now⟩]) exits.length →
      failures = supervisor.failureCount (exits ++ [⟨startedAt, now⟩]))
    (hstage : Stage supervisor (exits ++ [⟨startedAt, now⟩]) false now' phase) :
    Account supervisor spec now'
      ⟨phase, failures, supervisor.appendExit child.exitTimestamps now⟩
      (events ++ [.childExited spec.name startedAt now,
        supervisor.reaction spec.name (exits ++ [⟨startedAt, now⟩]) exits.length])
      (exits ++ [⟨startedAt, now⟩]) false := by
  obtain ⟨rfl, hmay, hstart⟩ := h.stage.of_running hrunning
  constructor
  · rw [h.events, life_append]
    simp
  · exact h.chronicle.append hmay hstart
  · exact (h.variables hmay).1
  · intro hloop
    exact hfailures (hloop _ (by rw [List.length_append, List.length_singleton]))
  · exact hstage

/-- **A step keeps the account**, with one exit more when the child exits. -/
theorem Account.step (h : Account supervisor spec now child events exits started) (hle : now ≤ now')
    (task : TaskStep supervisor spec now child es child') :
    ∃ exits' started', Account supervisor spec now' child' (events ++ es) exits' started' := by
  have hwait {phase : ChildPhase} (hstage : Stage supervisor exits started now' phase) :
      Account supervisor spec now' { child with phase := phase } (events ++ []) exits started := by
    rw [List.append_nil]
    exact ⟨h.events, h.chronicle, h.timestamps, h.failures, hstage⟩
  have hstage := h.stage
  cases task with
  | idle => exact ⟨exits, started, hwait (hstage.mono hle)⟩
  | spawnStarted ready =>
    rw [ready] at hstage
    obtain ⟨rfl, hmay⟩ := hstage
    refine ⟨exits, true, ?_, h.chronicle, h.timestamps, h.failures, rfl, hmay, hle⟩
    rw [h.events]
    simp
  | spawnReturned spawning =>
    rw [spawning] at hstage
    have hstage' := hstage.mono hle
    exact ⟨exits, started, hwait hstage'⟩
  | @degraded startedAt failures timestamps hrunning hfailures htimestamps loop =>
    obtain ⟨-, hmay, -⟩ := hstage.of_running hrunning
    have hlength : exits.length + 1 = (exits ++ [ChildExit.mk startedAt now]).length := by simp
    -- the deque holds the last exits, so its test is that of the history
    rw [htimestamps, (h.variables hmay).1] at loop
    have hloop := (inCrashLoop_rtake_iff supervisor exits ⟨startedAt, now⟩).mp loop
    have hreaction : supervisor.reaction spec.name (exits ++ [⟨startedAt, now⟩]) exits.length
        = .degraded spec.name := if_pos hloop
    rw [htimestamps, ← hreaction]
    exact ⟨_, _, h.exit hrunning (fun hnot => absurd hloop hnot) ⟨rfl, _, hlength, hloop⟩⟩
  | @backedOff startedAt failures timestamps hrunning hfailures htimestamps noLoop =>
    obtain ⟨-, hmay, -⟩ := hstage.of_running hrunning
    have hlength : exits.length + 1 = (exits ++ [ChildExit.mk startedAt now]).length := by simp
    rw [htimestamps, (h.variables hmay).1] at noLoop
    have hnoLoop : ¬ supervisor.CrashLoopAt (exits ++ [⟨startedAt, now⟩]) exits.length := by
      rw [← inCrashLoop_rtake_iff, Bool.not_eq_true]
      exact noLoop
    rw [(h.variables hmay).2] at hfailures
    -- the index into the schedule is the distance to the latest reset
    have hdelay : supervisor.delay failures
        = supervisor.backoffAfter (exits ++ [⟨startedAt, now⟩]) exits.length := by
      rw [hfailures]
      rfl
    have hreaction : supervisor.reaction spec.name (exits ++ [⟨startedAt, now⟩]) exits.length
        = .backingOff spec.name (supervisor.delay failures) := by
      rw [hdelay]
      exact if_neg hnoLoop
    have hexited : now = (exitAt (exits ++ [⟨startedAt, now⟩]) exits.length).exitedAt := by
      rw [exitAt_append_length]
    rw [htimestamps, ← hreaction]
    refine ⟨_, _, h.exit hrunning (fun _ => ?_) ⟨rfl, _, hlength, hnoLoop, hexited, hle, hdelay⟩⟩
    rw [hfailures, failureCount_append]
  | backoffEnded backoff expired =>
    rw [backoff] at hstage
    -- the sleep is over, since nobody has called `shutdown`
    obtain ⟨rfl, i, hi, hloop, rfl, hsince, rfl⟩ := hstage
    refine ⟨exits, false, hwait ⟨rfl, fun j hj => ?_⟩⟩
    obtain rfl : i = j := by omega
    exact ⟨hloop, hsince.trans hle, expired.trans hle⟩
  | cancelled =>
    exact ⟨exits, started, hwait hstage.exists_mayStart⟩

end

/-! ### Degraded children -/

section

variable {supervisor : ProcessSupervisor} {state state' : SupervisorState}

theorem mem_lifeOf {index : ℕ} {tr : List (SupervisorAction × SupervisorEvent)} {e : SupervisorEvent} :
    e ∈ lifeOf index tr ↔
      (∃ action, (action, e) ∈ tr ∧ action.index? = some index) ∧ e.isOfLife = true := by
  unfold lifeOf
  rw [List.mem_filter, List.mem_map]
  apply and_congr_left
  intro _
  constructor
  · rintro ⟨⟨action, _⟩, hmem, rfl⟩
    obtain ⟨hmem, hindex⟩ := List.mem_filter.mp hmem
    exact ⟨action, hmem, of_decide_eq_true hindex⟩
  · rintro ⟨action, hmem, hindex⟩
    exact ⟨(action, e), List.mem_filter.mpr ⟨hmem, decide_eq_true hindex⟩, rfl⟩

/-- The end of an iteration marks the child exactly when it says so. -/
theorem mem_degraded_handleExit {index : ℕ} {name name' : String} {child : Child} {startedAt : ℚ} :
    name' ∈ (supervisor.handleExit state index name child startedAt).1.degraded ↔
      name' ∈ state.degraded ∨
        .degraded name' ∈ (supervisor.handleExit state index name child startedAt).2 := by
  rcases handleExit_cases supervisor state index name child startedAt with ⟨-, h⟩ | ⟨-, -, h⟩ | ⟨-, -, h⟩
  · rw [h]
    simp [setChild]
  · rw [h]
    simp [or_comm]
  · rw [h]
    simp [setChild]

theorem exists_mem_lifeOf_iff {action : SupervisorAction} {es : List SupervisorEvent} {name : String} :
    (∃ index, .degraded name ∈ lifeOf index (es.map (Prod.mk action))) ↔
      .degraded name ∈ es ∧ ∃ index, action.index? = some index := by
  constructor
  · rintro ⟨index, hmem⟩
    obtain ⟨⟨_, hmem, hindex⟩, -⟩ := mem_lifeOf.mp hmem
    obtain ⟨e, he, heq⟩ := List.mem_map.mp hmem
    obtain ⟨rfl, rfl⟩ := Prod.mk.inj heq
    exact ⟨he, index, hindex⟩
  · rintro ⟨hmem, index, hindex⟩
    exact ⟨index, mem_lifeOf.mpr ⟨⟨action, List.mem_map_of_mem hmem, hindex⟩, rfl⟩⟩

/-- **A step marks exactly the children** that it says to be degraded. -/
theorem mem_degraded_of_step {action : SupervisorAction} {es : List SupervisorEvent}
    (haction : action ≠ .shutdown) (step : SupervisorStep supervisor state action es state')
    (name : String) :
    name ∈ state'.degraded ↔
      name ∈ state.degraded ∨ ∃ index, .degraded name ∈ lifeOf index (es.map (Prod.mk action)) := by
  rw [exists_mem_lifeOf_iff]
  cases step with
  | spawnFailed =>
    rw [mem_degraded_handleExit, and_iff_left ⟨_, rfl⟩]
  | @waitReturned index spec child process startedAt =>
    rw [mem_degraded_handleExit, and_iff_left ⟨_, rfl⟩]
  | shutdownCalled => exact absurd rfl haction
  | remainingKilled =>
    obtain ⟨shutdown, hstate, -⟩ := killRemaining_spec state
    rw [hstate]
    exact (or_iff_left fun h => nomatch h.2).symm
  | tick | loopEnds | spawnStarted | spawnReturned | exited | backoffEnded | cancelled | graceEnded
  | reaped | shutdownReturned =>
    simp [setChild]

end

/-! ### Starting again -/

/-- So many seconds from now the child's own task starts it, with nothing of the child before that and
no more time in between. -/
def StartsAfter (supervisor : ProcessSupervisor) (state : SupervisorState) (seconds : ℚ) (k : ℕ)
    (spec : ChildSpec) : Prop :=
  ∃ actions state', (∀ action ∈ actions, action = .backoffEnds k ∨ action = .run k) ∧
    supervisor.machine.runUnder (fun _ _ _ => True) [] state (.tick seconds :: actions)
      = some ([.spawnStarted spec], state')

section

variable {supervisor : ProcessSupervisor} {state : SupervisorState} {k : ℕ} {spec : ChildSpec}
  {child : Child}

theorem step_run_of_ready (running : state.stopping = false)
    (hat : ChildAt supervisor state k spec child) (ready : child.phase = .ready) :
    supervisor.step state (.run k)
      = some (setChild state k { child with phase := .spawning state.now }, [.spawnStarted spec]) := by
  show (supervisor.specs[k]?.bind fun spec => state.children[k]?.bind fun child =>
    supervisor.stepChild state k spec child (.run k)) = _
  rw [hat.spec, Option.bind_some, hat.child, Option.bind_some]
  unfold stepChild
  dsimp only
  rw [if_neg (not_not.mpr ready), running]
  rfl

theorem step_backoffEnds_of_le (hat : ChildAt supervisor state k spec child) {delay since : ℚ}
    (backoff : child.phase = .backoff delay since) (hle : since + delay ≤ state.now) :
    supervisor.step state (.backoffEnds k)
      = some (setChild state k { child with phase := .ready }, []) := by
  show (supervisor.specs[k]?.bind fun spec => state.children[k]?.bind fun child =>
    supervisor.stepChild state k spec child (.backoffEnds k)) = _
  rw [hat.spec, Option.bind_some, hat.child, Option.bind_some]
  unfold stepChild
  dsimp only
  rw [backoff]
  exact if_pos (.inr hle)

/-- A task that is at the head of its loop starts the child with its next step. -/
theorem startsAfter_of_ready {seconds : ℚ} (nonneg : 0 ≤ seconds) (running : state.stopping = false)
    (hat : ChildAt supervisor state k spec child) (ready : child.phase = .ready) :
    StartsAfter supervisor state seconds k spec := by
  let later : SupervisorState := { state with now := state.now + seconds }
  have htick : supervisor.step state (.tick seconds) = some (later, []) := if_pos nonneg
  have hat' : ChildAt supervisor later k spec child := ⟨hat.spec, hat.child⟩
  have running' : later.stopping = false := running
  refine ⟨[.run k], setChild later k { child with phase := .spawning later.now }, by simp, ?_⟩
  rw [EventMachine.runUnder_cons trivial htick]
  exact EventMachine.runUnder_cons trivial (step_run_of_ready running' hat' ready) []

/-- A backoff ends as soon as its delay is over. -/
theorem startsAfter_of_backoff {seconds : ℚ} (nonneg : 0 ≤ seconds) (running : state.stopping = false)
    (hat : ChildAt supervisor state k spec child) {delay since : ℚ}
    (backoff : child.phase = .backoff delay since) (hle : since + delay ≤ state.now + seconds) :
    StartsAfter supervisor state seconds k spec := by
  let later : SupervisorState := { state with now := state.now + seconds }
  let child' : Child := { child with phase := .ready }
  have htick : supervisor.step state (.tick seconds) = some (later, []) := if_pos nonneg
  have hat' : ChildAt supervisor later k spec child := ⟨hat.spec, hat.child⟩
  have hready : ChildAt supervisor (setChild later k child') k spec child' :=
    ⟨hat.spec, List.getElem?_set_self (List.getElem?_eq_some_iff.mp hat.child).1⟩
  have running' : (setChild later k child').stopping = false := running
  refine ⟨[.backoffEnds k, .run k],
    setChild (setChild later k child') k { child' with phase := .spawning later.now }, by simp, ?_⟩
  rw [EventMachine.runUnder_cons trivial htick,
    EventMachine.runUnder_cons trivial (step_backoffEnds_of_le hat' backoff hle)]
  exact EventMachine.runUnder_cons trivial (step_run_of_ready running' hready rfl) []

end

/-! ### Runs -/

/-- Nobody calls `shutdown`. -/
abbrev NoShutdown {τ σ : Type*} (_ : List τ) (_ : σ) (action : SupervisorAction) : Prop :=
  action ≠ .shutdown

section

variable {supervisor : ProcessSupervisor} {state : SupervisorState} {k : ℕ} {spec : ChildSpec}
  {tr : List (SupervisorAction × SupervisorEvent)}

/-- **Every child can be accounted for** in every run without `shutdown`. -/
theorem exists_account (run : supervisor.machine.labelled.RunsUnder NoShutdown tr state)
    (hspec : supervisor.specs[k]? = some spec) :
    state.stopping = false ∧ ∃ child exits started, ChildAt supervisor state k spec child ∧
      Account supervisor spec state.now child (lifeOf k tr) exits started := by
  refine run.invariant (I := fun tr state => state.stopping = false ∧ ∃ child exits started,
    ChildAt supervisor state k spec child ∧
      Account supervisor spec state.now child (lifeOf k tr) exits started) ⟨rfl, ?_⟩ ?_
  · have hchild : (supervisor.specs.map fun _ => Child.new)[k]? = some Child.new := by
      rw [List.getElem?_map, hspec]
      rfl
    refine ⟨.new, [], false, ⟨hspec, hchild⟩, rfl, ⟨?_, ?_⟩, (List.rtake_nil _).symm, fun _ => rfl,
      rfl, ?_⟩
    · exact fun i hi => absurd hi (Nat.not_lt_zero i)
    · exact fun i hi => absurd hi (Nat.not_lt_zero (i + 1))
    · exact fun i hi => absurd hi (Nat.succ_ne_zero i)
  · rintro tr state action state' les - ⟨running, child, exits, started, hat, haccount⟩ haction taken
    obtain ⟨es, hstep, rfl⟩ := EventMachine.labelled_step_eq_some taken
    obtain ⟨running', hle, child', hat', htask⟩ :=
      taskStep_of_step running haction hat (supervisorStep_of_step hstep)
    obtain ⟨exits', started', haccount'⟩ := haccount.step hle htask
    rw [lifeOf_append]
    exact ⟨running', child', exits', started', hat', haccount'⟩

theorem mem_degraded_iff (run : supervisor.machine.labelled.RunsUnder NoShutdown tr state)
    (name : String) : name ∈ state.degraded ↔ ∃ index, .degraded name ∈ lifeOf index tr := by
  refine run.invariant (I := fun tr state =>
    name ∈ state.degraded ↔ ∃ index, .degraded name ∈ lifeOf index tr) ?_ ?_
  · exact ⟨fun h => absurd h (Finset.notMem_empty name), fun ⟨_, h⟩ => absurd h List.not_mem_nil⟩
  · intro tr state action state' les _ hiff haction taken
    obtain ⟨es, hstep, rfl⟩ := EventMachine.labelled_step_eq_some taken
    rw [mem_degraded_of_step haction (supervisorStep_of_step hstep), hiff, ← exists_or]
    simp only [lifeOf_append, List.mem_append]

/-- A child that is neither running nor degraded nor cancelled is started when its backoff is over. -/
theorem Account.startsAfter {child : Child} {events : List SupervisorEvent} {exits : List ChildExit}
    (h : Account supervisor spec state.now child events exits false)
    (running : state.stopping = false) (hat : ChildAt supervisor state k spec child)
    (hcancelled : child.phase ≠ .cancelled)
    (hlast : ∀ i, i + 1 = exits.length → ¬ supervisor.CrashLoopAt exits i) {seconds : ℚ}
    (nonneg : 0 ≤ seconds) (hover : ∀ i, i + 1 = exits.length →
      (exitAt exits i).exitedAt + supervisor.backoffAfter exits i ≤ state.now + seconds) :
    StartsAfter supervisor state seconds k spec := by
  have hstage := h.stage
  cases hphase : child.phase with
  | ready => exact startsAfter_of_ready nonneg running hat hphase
  | backoff delay since =>
    rw [hphase] at hstage
    obtain ⟨-, i, hi, -, rfl, -, rfl⟩ := hstage
    exact startsAfter_of_backoff nonneg running hat hphase (hover i hi)
  | cancelled => exact absurd hphase hcancelled
  | spawning startedAt =>
    rw [hphase] at hstage
    exact absurd hstage.1 nofun
  | waiting process startedAt =>
    rw [hphase] at hstage
    exact absurd hstage.1 nofun
  | returned =>
    rw [hphase] at hstage
    obtain ⟨-, i, hi, hloop⟩ := hstage
    exact absurd hloop (hlast i hi)

/-- No two exits of a child that has been started after them span `crashLoopMaxRestarts` exits in less
than the window. -/
theorem Chronicle.window_le {exits : List ChildExit} (h : Chronicle supervisor exits) {i j : ℕ}
    (hspan : i + supervisor.crashLoopMaxRestarts ≤ j + 1) (hj : j < exits.length)
    (hloop : ¬ supervisor.CrashLoopAt exits j) :
    supervisor.crashLoopWindowSeconds
      ≤ floatSub (exitAt exits j).exitedAt (exitAt exits i).exitedAt := by
  have hpos := supervisor.maxRestarts_pos
  -- the exit at the start of the window of `j` is no earlier than exit `i`
  have hmono := h.exitedAt_mono (i := i) (j := j + 1 - supervisor.crashLoopMaxRestarts)
    (by omega) (by omega)
  have hwindow : supervisor.crashLoopWindowSeconds ≤ floatSub (exitAt exits j).exitedAt
      (exitAt exits (j + 1 - supervisor.crashLoopMaxRestarts)).exitedAt := by
    by_contra hlt
    exact hloop ⟨by omega, not_le.mp hlt⟩
  have hnonneg := h.exitedAt_mono (i := j + 1 - supervisor.crashLoopMaxRestarts) (j := j)
    (by omega) hj
  exact hwindow.trans (floatSub_le_floatSub hmono hnonneg)

end

/-! ### A run -/

def flappingSpec : ChildSpec := ⟨"sender-0", ["/bin/sender"], none⟩

/-- Two exits within ten seconds are a crash loop. -/
def flapping : ProcessSupervisor where
  specs := [flappingSpec]
  backoffSchedule := [1, 2]
  crashLoopMaxRestarts := 2
  crashLoopWindowSeconds := 10
  shutdownTimeoutSeconds := 5
  schedule_ne_nil := nofun
  maxRestarts_pos := by decide

/-- The child runs for twenty seconds, and then cannot be spawned again. -/
def flappingActions : List SupervisorAction :=
  [.run 0, .spawnReturns 0, .tick 20, .exits 0, .waitReturns 0, .tick 1, .backoffEnds 0, .run 0,
    .spawnFails 0]

def flappingTrace : List (SupervisorAction × SupervisorEvent) :=
  [(.run 0, .spawnStarted flappingSpec), (.spawnReturns 0, .spawnReturned "sender-0" 0),
    (.exits 0, .exited 0), (.waitReturns 0, .childExited "sender-0" 0 20),
    (.waitReturns 0, .backingOff "sender-0" 1), (.run 0, .spawnStarted flappingSpec),
    (.spawnFails 0, .childExited "sender-0" 21 21), (.spawnFails 0, .degraded "sender-0")]

end FileMonitor
