import FileMonitor.Supervision.Supervisor
import Mathlib.Data.List.DropRight
import Mathlib.Data.List.GetD
import Mathlib.Data.Nat.Find

/-!
# The restart policy

What the supervisor is to do with a child, as a function of its exits so far, and how the two local
variables of `_supervise_child` keep track of them: `exit_timestamps` has the latest exits, and
`consecutive_failures` counts from the latest exit after a long uptime.

* `inCrashLoop_rtake_iff`: the test on `exit_timestamps` is `CrashLoopAt`.
* `failuresAfter_failureCount`: the count after an exit is the distance to the latest reset.
-/

namespace FileMonitor

/-- An exit of a child, when its process ends or `spawn` fails. -/
structure ChildExit where
  startedAt : ℚ
  exitedAt : ℚ
deriving DecidableEq

/-- The exit with number `i`, counted from zero. -/
def exitAt (exits : List ChildExit) (i : ℕ) : ChildExit := exits.getD i ⟨0, 0⟩

/-- The longer of two times has the longer difference, rounded as they are. -/
theorem floatSub_le_floatSub {a b c : ℚ} (hab : a ≤ b) (hbc : b ≤ c) : floatSub c b ≤ floatSub c a :=
  RoundNearest.toPrecision_mono (by norm_num) (sub_nonneg.mpr hbc) (sub_le_sub_left hab c)

namespace ProcessSupervisor

variable (supervisor : ProcessSupervisor)

/-! ### The policy -/

/-- The exit `i` ends a series of `crashLoopMaxRestarts` exits within less than the window. -/
def CrashLoopAt (exits : List ChildExit) (i : ℕ) : Prop :=
  supervisor.crashLoopMaxRestarts ≤ i + 1 ∧
    floatSub (exitAt exits i).exitedAt
        (exitAt exits (i + 1 - supervisor.crashLoopMaxRestarts)).exitedAt
      < supervisor.crashLoopWindowSeconds

instance (exits : List ChildExit) (i : ℕ) : Decidable (supervisor.CrashLoopAt exits i) := by
  unfold CrashLoopAt
  infer_instance

/-- Before the exit `i` the child ran for longer than the last backoff of the schedule. -/
def LongUptime (exits : List ChildExit) (i : ℕ) : Prop :=
  supervisor.backoffSchedule.getLast supervisor.schedule_ne_nil
    < floatSub (exitAt exits i).exitedAt (exitAt exits i).startedAt

instance (exits : List ChildExit) : DecidablePred (supervisor.LongUptime exits) := fun i => by
  unfold LongUptime
  infer_instance

/-- The latest exit up to `i` after a long uptime, or the first exit if there is none. -/
def lastReset (exits : List ChildExit) (i : ℕ) : ℕ := Nat.findGreatest (supervisor.LongUptime exits) i

/-- How long to wait after the exit `i`. -/
def backoffAfter (exits : List ChildExit) (i : ℕ) : ℚ :=
  supervisor.backoffSchedule.getD
    (min (i - supervisor.lastReset exits i) (supervisor.backoffSchedule.length - 1)) 0

/-- What is done with the child called `name` after the exit `i`. -/
def reaction (name : String) (exits : List ChildExit) (i : ℕ) : SupervisorEvent :=
  if supervisor.CrashLoopAt exits i then .degraded name
  else .backingOff name (supervisor.backoffAfter exits i)

/-- A child with these exits: it is started, exits, and is dealt with, over and over. -/
def life (spec : ChildSpec) (exits : List ChildExit) : List SupervisorEvent :=
  (List.range exits.length).flatMap fun i =>
    [.spawnStarted spec, .childExited spec.name (exitAt exits i).startedAt (exitAt exits i).exitedAt,
      supervisor.reaction spec.name exits i]

/-! ### Later exits -/

section

variable {supervisor} {exits : List ChildExit} {e : ChildExit}

theorem exitAt_append {i : ℕ} (hi : i < exits.length) : exitAt (exits ++ [e]) i = exitAt exits i :=
  List.getD_append _ _ _ _ hi

theorem exitAt_append_length : exitAt (exits ++ [e]) exits.length = e := by
  unfold exitAt
  rw [List.getD_append_right _ _ _ _ le_rfl, Nat.sub_self]
  rfl

/-- Whether an exit ends a crash loop does not depend on the exits after it. -/
theorem crashLoopAt_append {i : ℕ} (hi : i < exits.length) :
    supervisor.CrashLoopAt (exits ++ [e]) i ↔ supervisor.CrashLoopAt exits i := by
  have hpos := supervisor.maxRestarts_pos
  unfold CrashLoopAt
  rw [exitAt_append hi, exitAt_append (by omega)]

theorem longUptime_append {i : ℕ} (hi : i < exits.length) :
    supervisor.LongUptime (exits ++ [e]) i ↔ supervisor.LongUptime exits i := by
  unfold LongUptime
  rw [exitAt_append hi]

theorem lastReset_le (exits : List ChildExit) (i : ℕ) : supervisor.lastReset exits i ≤ i :=
  Nat.findGreatest_le i

theorem lastReset_append {i : ℕ} (hi : i < exits.length) :
    supervisor.lastReset (exits ++ [e]) i = supervisor.lastReset exits i := by
  unfold lastReset
  induction i with
  | zero => rw [Nat.findGreatest_zero, Nat.findGreatest_zero]
  | succ i ih =>
    rw [Nat.findGreatest_succ, Nat.findGreatest_succ, ih (Nat.lt_of_succ_lt hi)]
    simp only [longUptime_append hi]

theorem backoffAfter_append {i : ℕ} (hi : i < exits.length) :
    supervisor.backoffAfter (exits ++ [e]) i = supervisor.backoffAfter exits i := by
  unfold backoffAfter
  rw [lastReset_append hi]

theorem reaction_append {name : String} {i : ℕ} (hi : i < exits.length) :
    supervisor.reaction name (exits ++ [e]) i = supervisor.reaction name exits i := by
  unfold reaction
  simp only [crashLoopAt_append hi, backoffAfter_append hi]

/-- One more exit is one more round. -/
theorem life_append (spec : ChildSpec) :
    supervisor.life spec (exits ++ [e]) = supervisor.life spec exits ++
      [.spawnStarted spec, .childExited spec.name e.startedAt e.exitedAt,
        supervisor.reaction spec.name (exits ++ [e]) exits.length] := by
  unfold life
  rw [List.length_append, List.length_singleton, List.range_succ, List.flatMap_append,
    List.flatMap_singleton, exitAt_append_length]
  congr 1
  apply List.flatMap_congr
  intro i hi
  have hlt := List.mem_range.mp hi
  rw [exitAt_append hlt, reaction_append hlt]

/-! ### The local variables -/

/-- `consecutive_failures` after these exits. -/
def failureCount (supervisor : ProcessSupervisor) (exits : List ChildExit) : ℕ :=
  match exits.length with
  | 0 => 0
  | i + 1 => i - supervisor.lastReset exits i + 1

/-- **The failure count** after one more exit, before it is counted. -/
theorem failuresAfter_failureCount (supervisor : ProcessSupervisor) (exits : List ChildExit)
    (e : ChildExit) :
    supervisor.failuresAfter (supervisor.failureCount exits) (floatSub e.exitedAt e.startedAt)
      = exits.length - supervisor.lastReset (exits ++ [e]) exits.length := by
  have hlong : supervisor.LongUptime (exits ++ [e]) exits.length ↔
      supervisor.backoffSchedule.getLast supervisor.schedule_ne_nil
        < floatSub e.exitedAt e.startedAt := by
    unfold LongUptime
    rw [exitAt_append_length]
  unfold failuresAfter
  by_cases h : supervisor.LongUptime (exits ++ [e]) exits.length
  · -- a long uptime resets the count
    have hreset : supervisor.lastReset (exits ++ [e]) exits.length = exits.length :=
      Nat.findGreatest_eq h
    rw [if_pos (hlong.mp h), hreset, Nat.sub_self]
  · rw [if_neg (mt hlong.mpr h)]
    unfold failureCount
    rcases hlength : exits.length with _ | i
    · rfl
    · rw [hlength] at h
      have hi : i < exits.length := by omega
      have hreset : supervisor.lastReset (exits ++ [e]) (i + 1) = supervisor.lastReset exits i := by
        rw [← @lastReset_append _ _ e _ hi]
        exact Nat.findGreatest_of_not h
      have hle := @lastReset_le supervisor exits i
      rw [hreset]
      show i - supervisor.lastReset exits i + 1 = _
      omega

theorem failureCount_append :
    supervisor.failureCount (exits ++ [e])
      = exits.length - supervisor.lastReset (exits ++ [e]) exits.length + 1 := by
  unfold failureCount
  rw [List.length_append, List.length_singleton]

/-- A `deque` with `maxlen` keeps the latest entries. -/
theorem appendExit_rtake (supervisor : ProcessSupervisor) (timestamps : List ℚ) (now : ℚ) :
    supervisor.appendExit (timestamps.rtake supervisor.crashLoopMaxRestarts) now
      = (timestamps ++ [now]).rtake supervisor.crashLoopMaxRestarts := by
  have hpos := supervisor.maxRestarts_pos
  have hle : timestamps.length - supervisor.crashLoopMaxRestarts ≤ timestamps.length := Nat.sub_le _ _
  unfold appendExit List.rtake
  rw [← List.drop_append_of_le_length hle, List.drop_drop, List.length_drop, List.length_append,
    List.length_singleton]
  congr 1
  omega

/-- **The test for a crash loop.** -/
theorem inCrashLoop_rtake_iff (supervisor : ProcessSupervisor) (exits : List ChildExit)
    (e : ChildExit) :
    supervisor.inCrashLoop
        (((exits ++ [e]).map ChildExit.exitedAt).rtake supervisor.crashLoopMaxRestarts) e.exitedAt
        = true ↔
      supervisor.CrashLoopAt (exits ++ [e]) exits.length := by
  have hpos := supervisor.maxRestarts_pos
  have hlength : (((exits ++ [e]).map ChildExit.exitedAt).rtake
      supervisor.crashLoopMaxRestarts).length
        = min supervisor.crashLoopMaxRestarts (exits.length + 1) := by
    unfold List.rtake
    rw [List.length_drop, List.length_map, List.length_append, List.length_singleton]
    omega
  -- the oldest entry is that of the exit `crashLoopMaxRestarts - 1` exits ago
  have hhead : (((exits ++ [e]).map ChildExit.exitedAt).rtake
      supervisor.crashLoopMaxRestarts).headD 0
        = (exitAt (exits ++ [e])
            (exits.length + 1 - supervisor.crashLoopMaxRestarts)).exitedAt := by
    unfold List.rtake exitAt
    rw [List.headD_eq_head?_getD, List.head?_drop, ← List.getD_eq_getElem?_getD, List.length_map,
      List.length_append, List.length_singleton]
    exact List.getD_map (exits ++ [e]) ⟨0, 0⟩ ChildExit.exitedAt
  unfold inCrashLoop CrashLoopAt
  rw [decide_eq_true_iff, hlength, hhead, exitAt_append_length]
  apply and_congr_left
  intro _
  omega

end

end ProcessSupervisor

end FileMonitor
