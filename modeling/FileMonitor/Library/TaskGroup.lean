import Mathlib.Data.Finset.Card
import Mathlib.Data.Fintype.Basic
import Mathlib.Logic.Function.Basic

/-!
# Task groups

A `TaskGroup` has what a group of tasks knows of them: which ones have ended, and how, and which ones were
asked to end.  The first task that raises an exception makes the group ask all others to end; the group
itself ends when all its tasks have, with the exceptions they have raised.

The fields of the structure say that a group which has an exception has asked its tasks, and that its
exceptions are those of its tasks.  A task that has ended or was asked to end stays so
(`unfinished_finish`, `finish_ne_free`, `cancel_ne_free`), and `remaining` counts those that have not.
-/

/-- How a task ends. -/
inductive TaskOutcome (χ : Type*) where
  | returned
  | raised (error : χ)
  | cancelled
deriving DecidableEq

/-- The exception that a task has raised, if any. -/
def TaskOutcome.error? {χ : Type*} : TaskOutcome χ → Option χ
  | raised error => some error
  | _ => none

/-- Where a task stands. -/
inductive TaskState (χ : Type*) where
  | running (cancelRequested : Bool)
  | done (outcome : TaskOutcome χ)
deriving DecidableEq

namespace TaskState

variable {χ : Type*}

/-- The task has not ended. -/
def Unfinished : TaskState χ → Prop
  | running _ => True
  | done _ => False

instance : DecidablePred (Unfinished (χ := χ)) := fun state => by
  cases state <;> unfold Unfinished <;> infer_instance

/-- Ask the task to end, which does nothing to a task that has. -/
def cancel : TaskState χ → TaskState χ
  | running _ => running true
  | done outcome => done outcome

theorem cancel_ne_running_false (state : TaskState χ) : state.cancel ≠ running false := by
  cases state <;> exact nofun

@[simp] theorem cancel_eq_done {state : TaskState χ} {outcome : TaskOutcome χ} :
    state.cancel = done outcome ↔ state = done outcome := by
  cases state <;> simp [cancel]

@[simp] theorem unfinished_cancel {state : TaskState χ} : state.cancel.Unfinished ↔ state.Unfinished := by
  cases state <;> rfl

end TaskState

/-- What a group knows of its tasks. -/
@[ext]
structure TaskGroup (ι χ : Type*) where
  tasks : ι → TaskState χ
  errors : List (ι × χ)
  /-- After an exception every task was asked to end. -/
  asked : errors ≠ [] → ∀ task, tasks task ≠ .running false
  /-- The exceptions are those of the tasks. -/
  mem_errors : ∀ task error, (task, error) ∈ errors ↔ tasks task = .done (.raised error)

namespace TaskGroup

variable {ι χ : Type*}

/-- All tasks have started. -/
def start : TaskGroup ι χ where
  tasks _ := .running false
  errors := []
  asked h := absurd rfl h
  mem_errors _ _ := ⟨nofun, nofun⟩

/-- All tasks have ended. -/
def Ended (group : TaskGroup ι χ) : Prop := ∀ task, ¬ (group.tasks task).Unfinished

instance [Fintype ι] : DecidablePred (Ended (ι := ι) (χ := χ)) := fun group => by
  unfold Ended
  infer_instance

/-- Ask those tasks to end. -/
def cancel (group : TaskGroup ι χ) (P : ι → Prop) [DecidablePred P] : TaskGroup ι χ where
  tasks task := if P task then (group.tasks task).cancel else group.tasks task
  errors := group.errors
  asked h task := by
    split_ifs
    · exact TaskState.cancel_ne_running_false _
    · exact group.asked h task
  mem_errors task error := by
    rw [group.mem_errors]
    split_ifs
    · exact TaskState.cancel_eq_done.symm
    · exact Iff.rfl

section Cancel

variable {group : TaskGroup ι χ} {task : ι} {P : ι → Prop} [DecidablePred P]

theorem tasks_cancel : (group.cancel P).tasks task
    = if P task then (group.tasks task).cancel else group.tasks task := rfl

@[simp] theorem unfinished_cancel :
    ((group.cancel P).tasks task).Unfinished ↔ (group.tasks task).Unfinished := by
  rw [tasks_cancel]
  split_ifs
  · exact TaskState.unfinished_cancel
  · exact Iff.rfl

theorem cancel_ne_free (h : P task ∨ group.tasks task ≠ .running false) :
    (group.cancel P).tasks task ≠ .running false := by
  rw [tasks_cancel]
  split_ifs with hP
  · exact TaskState.cancel_ne_running_false _
  · exact h.resolve_left hP

/-- The number of tasks that have not ended. -/
def remaining [Fintype ι] (group : TaskGroup ι χ) : ℕ :=
  (Finset.univ.filter fun task => (group.tasks task).Unfinished).card

@[simp] theorem remaining_cancel [Fintype ι] : (group.cancel P).remaining = group.remaining := by
  unfold remaining
  simp only [unfinished_cancel]

end Cancel

variable [DecidableEq ι]

/-- A task ends.  Its exception makes the group ask the others, unless an earlier one has. -/
def finish (group : TaskGroup ι χ) (task : ι) (outcome : TaskOutcome χ)
    (h : (group.tasks task).Unfinished) : TaskGroup ι χ where
  tasks :=
    Function.update
      (fun other => if outcome.error?.isSome then (group.tasks other).cancel else group.tasks other)
      task (.done outcome)
  errors := group.errors ++ outcome.error?.toList.map (Prod.mk task)
  asked herrors other := by
    by_cases heq : other = task
    · rw [heq, Function.update_self]
      exact nofun
    · rw [Function.update_of_ne heq]
      split_ifs with hraised
      · exact TaskState.cancel_ne_running_false _
      · rw [Option.not_isSome_iff_eq_none.mp hraised, Option.toList_none, List.map_nil,
          List.append_nil] at herrors
        exact group.asked herrors other
  mem_errors other error := by
    rw [List.mem_append, group.mem_errors]
    by_cases heq : other = task
    · subst heq
      rw [Function.update_self]
      have hnot : group.tasks other ≠ .done (.raised error) := by
        intro hdone
        rw [hdone] at h
        exact h
      cases outcome with
      | raised error' =>
        have hcomm : error = error' ↔ error' = error := eq_comm
        simpa [TaskOutcome.error?, hnot] using hcomm
      | _ => simp [TaskOutcome.error?, hnot]
    · rw [Function.update_of_ne heq]
      have hnew : (other, error) ∉ outcome.error?.toList.map (Prod.mk task) := by
        rintro hmem
        obtain ⟨_, -, hpair⟩ := List.mem_map.mp hmem
        exact heq (Prod.mk.inj hpair).1.symm
      split_ifs <;> simp [hnew]

/-! ### What an operation does to the tasks -/

section Operations

variable {group : TaskGroup ι χ} {task other : ι} {outcome : TaskOutcome χ}

@[simp] theorem tasks_finish_self (h : (group.tasks task).Unfinished) :
    (group.finish task outcome h).tasks task = .done outcome := by
  unfold finish
  dsimp only
  rw [Function.update_self]

theorem tasks_finish_of_ne (outcome : TaskOutcome χ) (h : (group.tasks task).Unfinished)
    (hne : other ≠ task) :
    (group.finish task outcome h).tasks other = group.tasks other ∨
      outcome.error?.isSome ∧ (group.finish task outcome h).tasks other = (group.tasks other).cancel := by
  have hother : (group.finish task outcome h).tasks other
      = if outcome.error?.isSome then (group.tasks other).cancel else group.tasks other := by
    unfold finish
    dsimp only
    rw [Function.update_of_ne hne]
  rw [hother]
  split_ifs with hraised
  · exact .inr ⟨hraised, rfl⟩
  · exact .inl rfl

/-- The other tasks go on. -/
theorem unfinished_finish (h : (group.tasks task).Unfinished) :
    ((group.finish task outcome h).tasks other).Unfinished ↔
      other ≠ task ∧ (group.tasks other).Unfinished := by
  by_cases heq : other = task
  · subst heq
    simp [TaskState.Unfinished]
  · rcases tasks_finish_of_ne outcome h heq with hother | ⟨-, hother⟩
    all_goals simp [hother, heq]

/-- A task that was asked to end stays so. -/
theorem finish_ne_free (h : (group.tasks task).Unfinished) (hasked : group.tasks other ≠ .running false) :
    (group.finish task outcome h).tasks other ≠ .running false := by
  by_cases heq : other = task
  · rw [heq, tasks_finish_self]
    exact nofun
  · rcases tasks_finish_of_ne outcome h heq with hother | ⟨-, hother⟩
    · rwa [hother]
    · rw [hother]
      exact TaskState.cancel_ne_running_false _

@[simp] theorem errors_finish (h : (group.tasks task).Unfinished) :
    (group.finish task outcome h).errors = group.errors ++ outcome.error?.toList.map (Prod.mk task) :=
  rfl

theorem remaining_finish [Fintype ι] (h : (group.tasks task).Unfinished) :
    (group.finish task outcome h).remaining + 1 = group.remaining := by
  have herase : (Finset.univ.filter fun other => ((group.finish task outcome h).tasks other).Unfinished)
      = (Finset.univ.filter fun other => (group.tasks other).Unfinished).erase task := by
    ext other
    simp [unfinished_finish]
  unfold remaining
  rw [herase]
  exact Finset.card_erase_add_one (by simp [h])

end Operations

end TaskGroup
