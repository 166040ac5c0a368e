import FileMonitor.Services.Equiv.Registry
import Mathlib.Data.List.Induction
import Mathlib.Tactic.Linarith

/-!
# Lazy expiry

The registry drops a sender that has timed out only when it is asked for the active senders.
`lazy_expiry_is_exact` says that this cannot be seen: as long as the clock does not go back, what
`activeSenders` returns is a function of the calls of `register`, `refresh` and `remove` before it.
-/

namespace FileMonitor

/-- A call of a method of the registry. -/
inductive RegistryCall where
  | register (senderId : SenderId)
  | refresh (senderId : SenderId)
  | remove (senderId : SenderId)
  | activeSenders
deriving DecidableEq

namespace RegistryCall

/-- The sender that a call registers, refreshes or removes. -/
def senderId? : RegistryCall → Option SenderId
  | .register senderId | .refresh senderId | .remove senderId => some senderId
  | .activeSenders => none

/-- The last of the calls, each with its time, that names a sender. -/
def last? (calls : List (ℚ × RegistryCall)) (senderId : SenderId) : Option (ℚ × RegistryCall) :=
  (calls.filter fun entry => entry.2.senderId? = some senderId).getLast?

/-- The last call that names the sender registers or refreshes it, at time `u`. -/
def SeenLastAt (calls : List (ℚ × RegistryCall)) (senderId : SenderId) (u : ℚ) : Prop :=
  ∃ call, last? calls senderId = some (u, call) ∧ call ≠ .remove senderId

/-- The calls but those of `activeSenders`. -/
def updates (calls : List (ℚ × RegistryCall)) : List (ℚ × RegistryCall) :=
  calls.filter fun entry => entry.2.senderId?.isSome

end RegistryCall

namespace SenderRegistry

/-- The registry after a call at a time. -/
def call (registry : SenderRegistry) (now : ℚ) : RegistryCall → SenderRegistry
  | .register senderId => registry.register senderId now
  | .refresh senderId => registry.refresh senderId now
  | .remove senderId => registry.remove senderId
  | .activeSenders => (registry.activeSenders now).2

/-- The registry after a sequence of calls. -/
def callAll (registry : SenderRegistry) (calls : List (ℚ × RegistryCall)) : SenderRegistry :=
  calls.foldl (fun registry entry => registry.call entry.1 entry.2) registry

end SenderRegistry

open RegistryCall SenderRegistry

section

variable {calls : List (ℚ × RegistryCall)} {senderId : SenderId} {u : ℚ}

/-! ### The history -/

theorem last?_append_singleton (entry : ℚ × RegistryCall) :
    last? (calls ++ [entry]) senderId
      = if entry.2.senderId? = some senderId then some entry else last? calls senderId := by
  unfold last?
  rw [List.filter_append]
  by_cases h : entry.2.senderId? = some senderId
  · rw [if_pos h, List.filter_cons_of_pos (by simpa using h), List.filter_nil, List.getLast?_concat]
  · rw [if_neg h, List.filter_cons_of_neg (by simpa using h), List.filter_nil, List.append_nil]

/-- The calls of `activeSenders` are no part of the history. -/
theorem last?_updates : last? (updates calls) senderId = last? calls senderId := by
  unfold last? updates
  rw [List.filter_filter]
  congr 1
  apply List.filter_congr
  intro entry _
  by_cases h : entry.2.senderId? = some senderId
  · simp [h]
  · simp [h]

theorem seenLastAt_iff_of_updates {calls' : List (ℚ × RegistryCall)}
    (h : updates calls' = updates calls) : SeenLastAt calls' senderId u ↔ SeenLastAt calls senderId u := by
  unfold SeenLastAt
  rw [← last?_updates, h, last?_updates]

/-- A call that does not name the sender changes nothing about it. -/
theorem seenLastAt_append_of_ne {entry : ℚ × RegistryCall}
    (h : entry.2.senderId? ≠ some senderId) :
    SeenLastAt (calls ++ [entry]) senderId u ↔ SeenLastAt calls senderId u := by
  unfold SeenLastAt
  rw [last?_append_singleton, if_neg h]

/-- After a call that names the sender, only that call counts. -/
theorem seenLastAt_append_of_eq {now : ℚ} {call : RegistryCall}
    (h : call.senderId? = some senderId) :
    SeenLastAt (calls ++ [(now, call)]) senderId u ↔ now = u ∧ call ≠ .remove senderId := by
  unfold SeenLastAt
  rw [last?_append_singleton, if_pos h]
  constructor
  · rintro ⟨call', heq, hne⟩
    obtain ⟨rfl, rfl⟩ := Prod.mk.inj (Option.some.inj heq)
    exact ⟨rfl, hne⟩
  · rintro ⟨rfl, hne⟩
    exact ⟨call, rfl, hne⟩

/-! ### The table -/

theorem callAll_append_singleton (registry : SenderRegistry) (now : ℚ) (call : RegistryCall) :
    registry.callAll (calls ++ [(now, call)]) = (registry.callAll calls).call now call := by
  unfold callAll
  rw [List.foldl_append]
  rfl

theorem timeoutSeconds_callAll (registry : SenderRegistry) (calls : List (ℚ × RegistryCall)) :
    (registry.callAll calls).timeoutSeconds = registry.timeoutSeconds := by
  induction calls generalizing registry with
  | nil => rfl
  | cons entry calls ih =>
    show ((registry.call entry.1 entry.2).callAll calls).timeoutSeconds = _
    rw [ih]
    cases entry.2 <;> rfl

/-- The entry of a sender after one call. -/
theorem lookup_call (registry : SenderRegistry) (now : ℚ) (call : RegistryCall) :
    (registry.call now call).lastSeen.lookup senderId = some u ↔
      if call.senderId? = some senderId then now = u ∧ call ≠ .remove senderId
      else registry.lastSeen.lookup senderId = some u ∧
        (call = .activeSenders → now - u < registry.timeoutSeconds) := by
  have hregister (senderId' : SenderId) :
      (registry.register senderId' now).lastSeen.lookup senderId = some u ↔
        if some senderId' = some senderId then now = u
        else registry.lastSeen.lookup senderId = some u := by
    show (registry.lastSeen.insert senderId' now).lookup senderId = some u ↔ _
    rw [Dict.lookup_insert_eq_ite]
    by_cases h : senderId' = senderId
    · simp [h]
    · simp [h, Ne.symm h]
  cases call with
  | register senderId' => simpa [SenderRegistry.call, senderId?] using hregister senderId'
  | refresh senderId' =>
    simpa [SenderRegistry.call, senderId?, SenderRegistry.refresh] using hregister senderId'
  | remove senderId' =>
    show (registry.lastSeen.erase senderId').lookup senderId = some u ↔ _
    rw [Dict.lookup_erase_eq_ite]
    by_cases h : senderId' = senderId
    · simp [h, senderId?]
    · simp [h, Ne.symm h, senderId?]
  | activeSenders =>
    show (registry.purgeExpired now).lastSeen.lookup senderId = some u ↔ _
    simpa [senderId?] using lookup_purgeExpired

/-- **The entries that have not timed out are the history.**  This is the invariant: a purge drops only
entries that stay timed out. -/
theorem lookup_callAll_iff {registry : SenderRegistry} (hempty : registry.lastSeen = ∅) {now : ℚ}
    (hmono : (calls.map Prod.fst ++ [now]).Pairwise (· ≤ ·))
    (hfresh : now - u < registry.timeoutSeconds) :
    (registry.callAll calls).lastSeen.lookup senderId = some u ↔ SeenLastAt calls senderId u := by
  induction calls using List.reverseRecOn generalizing now with
  | nil =>
    show registry.lastSeen.lookup senderId = some u ↔ _
    rw [hempty]
    constructor
    · intro h
      cases h
    · rintro ⟨call, h, -⟩
      cases h
  | append_singleton calls entry ih =>
    obtain ⟨time, call⟩ := entry
    rw [List.map_append, List.map_singleton] at hmono
    have hle : time ≤ now := (List.pairwise_append.mp hmono).2.2 time (by simp) now (by simp)
    -- what has not timed out now had not timed out then, so no purge has dropped it
    have hfresh' : time - u < registry.timeoutSeconds := by linarith
    have hih := ih (List.pairwise_append.mp hmono).1 hfresh'
    rw [callAll_append_singleton, lookup_call, timeoutSeconds_callAll]
    by_cases hnames : call.senderId? = some senderId
    · rw [if_pos hnames, seenLastAt_append_of_eq hnames]
    · rw [if_neg hnames, seenLastAt_append_of_ne hnames, hih]
      exact and_iff_left fun _ => hfresh'

end

/-! ### The answers -/

/-- **Lazy expiry is exact and cannot be seen.**  Asked at time `t`, after calls at times that do not go
back, the registry returns the strictly increasing list of the senders whose last `register`, `refresh`
or `remove` was one of the first two, less than the timeout before `t`.  Any other such sequence with
the same updates gets the same answer. -/
theorem lazy_expiry_is_exact {heartbeatInterval t : ℚ} {calls : List (ℚ × RegistryCall)}
    (hmono : (calls.map Prod.fst ++ [t]).Pairwise (· ≤ ·)) :
    let answer := (((create heartbeatInterval).callAll calls).activeSenders t).1
    answer.Pairwise (· < ·) ∧
    (∀ senderId, senderId ∈ answer ↔
      ∃ u, SeenLastAt calls senderId u ∧ t - u < heartbeatInterval * missedHeartbeatLimit) ∧
    (∀ calls', (calls'.map Prod.fst ++ [t]).Pairwise (· ≤ ·) → updates calls' = updates calls →
      (((create heartbeatInterval).callAll calls').activeSenders t).1 = answer) := by
  have hmem {calls : List (ℚ × RegistryCall)}
      (hmono : (calls.map Prod.fst ++ [t]).Pairwise (· ≤ ·)) (senderId : SenderId) :
      senderId ∈ (((create heartbeatInterval).callAll calls).activeSenders t).1 ↔
        ∃ u, SeenLastAt calls senderId u ∧ t - u < heartbeatInterval * missedHeartbeatLimit := by
    rw [mem_activeSenders, timeoutSeconds_callAll]
    refine exists_congr fun u => and_congr_left fun hfresh => ?_
    exact lookup_callAll_iff rfl hmono hfresh
  refine ⟨pairwise_activeSenders _ _, hmem hmono, fun calls' hmono' hupdates => ?_⟩
  -- two strictly increasing lists with the same elements are equal
  refine (pairwise_activeSenders _ _).eq_of_mem_iff (pairwise_activeSenders _ _) fun senderId => ?_
  rw [hmem hmono, hmem hmono']
  exact exists_congr fun u => and_congr_left' (seenLastAt_iff_of_updates hupdates)

/-- A sender is dropped exactly when the timeout has passed, and two extra queries change nothing. -/
theorem lazy_expiry_is_exact_boundary :
    let registry := create heartbeatIntervalSeconds
    ((registry.callAll [(0, .register 1), (4, .refresh 2)]).activeSenders 15).1 = [2] ∧
    ((registry.callAll [(0, .register 1), (3, .activeSenders), (4, .refresh 2),
      (15, .activeSenders)]).activeSenders 15).1 = [2] := by
  intro registry
  have hanswer : ((registry.callAll [(0, .register 1), (4, .refresh 2)]).activeSenders 15).1 = [2] := by
    decide +kernel
  obtain ⟨-, -, hsame⟩ := @lazy_expiry_is_exact heartbeatIntervalSeconds 15
    [(0, .register 1), (4, .refresh 2)] (by decide +kernel)
  refine ⟨hanswer, (hsame _ ?_ ?_).trans hanswer⟩
  · decide +kernel
  · decide

end FileMonitor
