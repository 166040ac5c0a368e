import Mathlib.Data.List.Infix

/-!
# Bounded queues that admit a loss

A `LossyQueue` holds notifications for a reader.  It has room for a fixed number of them.  One that does
not fit is lost, but the queue then holds a marker, which tells the reader that something is missing.
One that is equal to the last one still in the queue is not put there a second time.

* `mem_push`: after a push the queue holds the notification or the marker.
* `prefix_push`: what was in the queue stays there, in its order.
* `of_mem_push`: nothing else gets there, and the marker only where the queue was full.
* `take_append_items_drop`: the reader takes a front part and leaves the rest.
-/

/-- A queue with a bound and a marker for what it had no room for. -/
structure LossyQueue (α : Type*) where
  capacity : ℕ
  marker : α
  /-- From the front, where the reader takes, to the end. -/
  items : List α
  /-- Only the marker may be there beyond the capacity. -/
  length_le : items.length ≤ capacity + 1
  /-- A queue that is over its capacity has lost something. -/
  marker_mem : capacity < items.length → marker ∈ items

namespace LossyQueue

variable {α : Type*}

/-- The queue without notifications. -/
def empty (capacity : ℕ) (marker : α) : LossyQueue α where
  capacity := capacity
  marker := marker
  items := []
  length_le := Nat.zero_le _
  marker_mem := nofun

@[simp] theorem items_empty (capacity : ℕ) (marker : α) : (empty capacity marker).items = [] := rfl

@[simp] theorem marker_empty (capacity : ℕ) (marker : α) : (empty capacity marker).marker = marker := rfl

/-! ### Taking -/

/-- The queue after the reader has taken `n` notifications, or all there are. -/
def drop (queue : LossyQueue α) (n : ℕ) : LossyQueue α where
  capacity := queue.capacity
  marker := queue.marker
  items := queue.items.drop n
  length_le := by
    rw [List.length_drop]
    exact (Nat.sub_le ..).trans queue.length_le
  marker_mem h := by
    rw [List.length_drop] at h
    have hlength := queue.length_le
    -- over its capacity the queue has just one notification too many, so none was taken
    obtain rfl : n = 0 := by omega
    exact queue.marker_mem (by omega)

@[simp] theorem items_drop (queue : LossyQueue α) (n : ℕ) :
    (queue.drop n).items = queue.items.drop n := rfl

@[simp] theorem marker_drop (queue : LossyQueue α) (n : ℕ) : (queue.drop n).marker = queue.marker := rfl

theorem take_append_items_drop (queue : LossyQueue α) (n : ℕ) :
    queue.items.take n ++ (queue.drop n).items = queue.items := List.take_append_drop ..

/-! ### Putting -/

variable [DecidableEq α]

/-- Put a notification into the queue. -/
def push (queue : LossyQueue α) (a : α) : LossyQueue α :=
  if hfull : queue.capacity ≤ queue.items.length then
    if hmarker : queue.marker ∈ queue.items then queue
    else
      { queue with
        items := queue.items ++ [queue.marker]
        length_le := by
          rw [List.length_append, List.length_singleton]
          by_contra hover
          exact hmarker (queue.marker_mem (by omega))
        marker_mem := fun _ => List.mem_append_right _ List.mem_cons_self }
  else if queue.items.getLast? = some a then queue
  else
    { queue with
      items := queue.items ++ [a]
      length_le := by
        rw [List.length_append, List.length_singleton]
        omega
      marker_mem := fun h => by
        rw [List.length_append, List.length_singleton] at h
        omega }

variable {queue : LossyQueue α} {a b : α}

/-- **What a push does**: the queue was full and now has its marker, or it has the notification at its
end, as a new one or as the one that was there. -/
theorem push_cases (queue : LossyQueue α) (a : α) :
    (queue.capacity ≤ queue.items.length ∧ queue.marker ∈ (queue.push a).items ∧
      ((queue.push a).items = queue.items ∨ (queue.push a).items = queue.items ++ [queue.marker])) ∨
    (queue.items.length < queue.capacity ∧ a ∈ (queue.push a).items ∧
      ((queue.push a).items = queue.items ∨ (queue.push a).items = queue.items ++ [a])) := by
  unfold push
  split_ifs with hfull hmarker hlast
  · exact .inl ⟨hfull, hmarker, .inl rfl⟩
  · exact .inl ⟨hfull, List.mem_append_right _ List.mem_cons_self, .inr rfl⟩
  · exact .inr ⟨not_le.mp hfull, List.mem_of_getLast? hlast, .inl rfl⟩
  · exact .inr ⟨not_le.mp hfull, List.mem_append_right _ List.mem_cons_self, .inr rfl⟩

@[simp] theorem marker_push : (queue.push a).marker = queue.marker := by
  unfold push
  split_ifs <;> rfl

@[simp] theorem capacity_push : (queue.push a).capacity = queue.capacity := by
  unfold push
  split_ifs <;> rfl

/-- **Nothing is lost without a trace.** -/
theorem mem_push (queue : LossyQueue α) (a : α) :
    a ∈ (queue.push a).items ∨ queue.marker ∈ (queue.push a).items := by
  rcases push_cases queue a with ⟨-, hmarker, -⟩ | ⟨-, hmem, -⟩
  · exact .inr hmarker
  · exact .inl hmem

/-- A push does not touch what is in the queue. -/
theorem prefix_push (queue : LossyQueue α) (a : α) : queue.items <+: (queue.push a).items := by
  rcases push_cases queue a with ⟨-, -, heq | heq⟩ | ⟨-, -, heq | heq⟩
  all_goals rw [heq]
  · exact List.prefix_append ..
  · exact List.prefix_append ..

theorem mem_push_of_mem (h : b ∈ queue.items) : b ∈ (queue.push a).items :=
  (prefix_push queue a).subset h

/-- The queue holds nothing that was not put there, but for its marker. -/
theorem of_mem_push (h : b ∈ (queue.push a).items) :
    b ∈ queue.items ∨ b = a ∨ (b = queue.marker ∧ queue.capacity ≤ queue.items.length) := by
  rcases push_cases queue a with ⟨hfull, -, heq | heq⟩ | ⟨-, -, heq | heq⟩
  · exact .inl (heq ▸ h)
  · rw [heq, List.mem_append, List.mem_singleton] at h
    exact h.imp_right fun h => .inr ⟨h, hfull⟩
  · exact .inl (heq ▸ h)
  · rw [heq, List.mem_append, List.mem_singleton] at h
    exact h.imp_right .inl

end LossyQueue
