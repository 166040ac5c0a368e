import FileMonitor.Library.Since
import FileMonitor.Main.Equiv.Service
import FileMonitor.Main.Equiv.Tracking
import Mathlib.Tactic.Linarith

/-!
# Whom a dispatch is shared among

The registry is filled by the incoming loop, emptied by the dispatches and purged when it is asked, in any
order.  `dispatch_addresses_the_live` says what comes of it in a run whose events carry the times at which
they happen: a dispatch is shared among exactly those senders of which a hello or a heartbeat was handled
less than the timeout before, with no removal in between.
-/

namespace FileMonitor

/-! ### What is heard of a sender -/

/-- A hello or a heartbeat of the sender is handled. -/
def Hears (pb : Protobuf) (senderId : SenderId) : CoreEvent → Prop
  | .handled senderId' raw => senderId' = senderId ∧ Registers pb raw
  | _ => False

/-- The event decides whether the sender is there. -/
def Decides (pb : Protobuf) (senderId : SenderId) (event : CoreEvent) : Prop :=
  Hears pb senderId event ∨ event = .removed senderId

/-- At time `u` the sender was heard of, and nothing has decided about it since. -/
def HeardLastAt (pb : Protobuf) (senderId : SenderId) (u : ℚ) (tr : List (ℚ × CoreEvent)) : Prop :=
  Since (fun entry => entry.1 = u ∧ Hears pb senderId entry.2)
    (fun entry => Decides pb senderId entry.2) tr

section

variable {pb : Protobuf} {dispatcher : SessionDispatcher} {core core' : Core} {action : CoreAction}
  {es : List CoreEvent} {tr : List (ℚ × CoreEvent)} {senderId : SenderId} {now u : ℚ}

/-- What a message does to the entry of a sender. -/
theorem lookup_of_handleIncoming {state state' : IncomingState} {senderId' : SenderId} {raw : Bytes}
    (h : handleIncoming pb state ⟨now, senderId', raw⟩ = .ok state') :
    state'.registry.lastSeen.lookup senderId = some u ↔
      (now = u ∧ Hears pb senderId (.handled senderId' raw)) ∨
      (state.registry.lastSeen.lookup senderId = some u ∧ ¬ Hears pb senderId (.handled senderId' raw)) := by
  unfold Hears Registers
  rcases hdecode : decode pb raw with error | message
  · rw [handleIncoming_of_error hdecode] at h
    cases h
  · rw [handleIncoming_of_decode hdecode] at h
    obtain rfl := Except.ok.inj h
    have hinsert : (state.registry.lastSeen.insert senderId' now).lookup senderId = some u ↔
        (now = u ∧ senderId' = senderId) ∨
        (state.registry.lastSeen.lookup senderId = some u ∧ ¬ senderId' = senderId) := by
      rw [Dict.lookup_insert_eq_ite]
      by_cases heq : senderId = senderId'
      · simp [heq]
      · simp [heq, Ne.symm heq]
    cases message with
    | senderHello | heartbeat => simpa [messageEffect, SenderRegistry.register, hdecode] using hinsert
    | _ => simp [messageEffect, hdecode]

/-- **The entry of a sender after a step**, as long as it has not timed out. -/
theorem CoreStep.lookup_lastSeen (step : CoreStep pb dispatcher core action es core')
    (hfresh : core.now - u < core.shared.registry.timeoutSeconds) :
    core'.shared.registry.lastSeen.lookup senderId = some u ↔
      (core.now = u ∧ ∃ event ∈ es, Hears pb senderId event) ∨
      (core.shared.registry.lastSeen.lookup senderId = some u ∧
        ∀ event ∈ es, ¬ Decides pb senderId event) := by
  cases step with
  | handled _ effect => simpa [Decides] using lookup_of_handleIncoming effect
  | snapshot =>
    show (core.shared.registry.purgeExpired core.now).lastSeen.lookup senderId = some u ↔ _
    rw [SenderRegistry.lookup_purgeExpired]
    simp [Decides, Hears, hfresh]
  | @remove senderId' =>
    show (core.shared.registry.lastSeen.erase senderId').lookup senderId = some u ↔ _
    rw [Dict.lookup_erase_eq_ite]
    by_cases h : senderId = senderId'
    · simp [h, Decides, Hears]
    · simp [h, Ne.symm h, Decides, Hears]
  | _ => simp [Decides, Hears]

theorem timeoutSeconds_of_handleIncoming {state state' : IncomingState} {item : IncomingItem}
    (h : handleIncoming pb state item = .ok state') :
    state'.registry.timeoutSeconds = state.registry.timeoutSeconds := by
  rcases hdecode : decode pb item.raw with error | message
  · rw [handleIncoming_of_error hdecode] at h
    cases h
  · rw [handleIncoming_of_decode hdecode] at h
    obtain rfl := Except.ok.inj h
    cases message <;> rfl

theorem CoreStep.timeoutSeconds_eq (step : CoreStep pb dispatcher core action es core') :
    core'.shared.registry.timeoutSeconds = core.shared.registry.timeoutSeconds := by
  cases step with
  | handled _ effect => exact timeoutSeconds_of_handleIncoming effect
  | _ => rfl

/-- The clock does not go back. -/
theorem CoreStep.now_le (step : CoreStep pb dispatcher core action es core') : core.now ≤ core'.now := by
  cases step with
  | tick hnonneg => exact le_add_of_nonneg_right hnonneg
  | _ => exact le_rfl

/-- The last event about a sender, after the events of one step. -/
theorem heardLastAt_append (hone : es.length ≤ 1) :
    HeardLastAt pb senderId u (tr ++ es.map (Prod.mk now)) ↔
      (now = u ∧ ∃ event ∈ es, Hears pb senderId event) ∨
      (HeardLastAt pb senderId u tr ∧ ∀ event ∈ es, ¬ Decides pb senderId event) := by
  unfold HeardLastAt
  rw [Since.since_append]
  match es, hone with
  | [], _ => simp
  | [event], _ => simp [Since.since_singleton]

theorem CoreStep.length_le_one (step : CoreStep pb dispatcher core action es core') : es.length ≤ 1 := by
  cases step <;> simp

/-! ### The registry of a run -/

/-- The entries that have not timed out say when their sender was heard of last. -/
structure HeardInv (pb : Protobuf) (tr : List (ℚ × CoreEvent)) (core : Core) : Prop where
  timeout : core.shared.registry.timeoutSeconds = heartbeatIntervalSeconds * missedHeartbeatLimit
  heard {senderId : SenderId} {u : ℚ} (fresh : core.now - u < core.shared.registry.timeoutSeconds) :
    core.shared.registry.lastSeen.lookup senderId = some u ↔ HeardLastAt pb senderId u tr

theorem HeardInv.initial (pb : Protobuf) : HeardInv pb [] Core.initial where
  timeout := rfl
  heard _ := ⟨fun h => (by cases h), fun h => (Since.not_since_nil h).elim⟩

theorem HeardInv.step (hinv : HeardInv pb tr core) (step : CoreStep pb dispatcher core action es core') :
    HeardInv pb (tr ++ es.map (Prod.mk core.now)) core' where
  timeout := step.timeoutSeconds_eq.trans hinv.timeout
  heard {senderId u} hfresh := by
    -- what has not timed out after the step had not timed out before it
    have hle := step.now_le
    rw [step.timeoutSeconds_eq] at hfresh
    have hfresh' : core.now - u < core.shared.registry.timeoutSeconds := by linarith
    rw [step.lookup_lastSeen hfresh', heardLastAt_append step.length_le_one, hinv.heard hfresh']

theorem coreStep_of_stamped {tes : List (ℚ × CoreEvent)}
    (h : ((Core.machine pb dispatcher).stamped Core.now).step core action = some (core', tes)) :
    ∃ es, CoreStep pb dispatcher core action es core' ∧ tes = es.map (Prod.mk core.now) := by
  obtain ⟨es, hes, rfl⟩ := EventMachine.stamped_step_eq_some h
  exact ⟨es, coreStep_of_step hes, rfl⟩

theorem HeardInv.of_runs (runs : ((Core.machine pb dispatcher).stamped Core.now).Runs tr core) :
    HeardInv pb tr core := by
  refine runs.invariant (.initial pb) fun tr core action core' tes _ hinv _ hstep => ?_
  obtain ⟨es, step, rfl⟩ := coreStep_of_stamped hstep
  exact hinv.step step

/-- The answer of the registry is that of the state and the time in which it is asked. -/
theorem of_stamped_activeSenders {tes : List (ℚ × CoreEvent)} {t : ℚ} {senderIds : List SenderId}
    (h : ((Core.machine pb dispatcher).stamped Core.now).step core action = some (core', tes))
    (hmem : (t, .activeSenders senderIds) ∈ tes) :
    tes = [(t, .activeSenders senderIds)] ∧ core.now = t ∧
      (core.shared.registry.activeSenders core.now).1 = senderIds := by
  obtain ⟨es, step, rfl⟩ := coreStep_of_stamped h
  obtain ⟨event, hevent, heq⟩ := List.mem_map.mp hmem
  obtain ⟨rfl, rfl⟩ := Prod.mk.inj heq
  obtain ⟨-, rfl, hids⟩ := step.of_activeSenders hevent
  exact ⟨rfl, rfl, hids.symm⟩

/-- **A dispatch is shared among the live senders.**  In every run, the senders that a dispatch asks the
registry for at time `t` are, in increasing order, those that were heard of last at some time less than the
timeout before `t`, in exact numbers; so the purges, and what other senders do, cannot be seen. -/
theorem dispatch_addresses_the_live (runs : ((Core.machine pb dispatcher).stamped Core.now).Runs tr core)
    {pre post : List (ℚ × CoreEvent)} {t : ℚ} {senderIds : List SenderId}
    (htr : tr = pre ++ (t, .activeSenders senderIds) :: post) :
    senderIds.Pairwise (· < ·) ∧
    ∀ senderId, senderId ∈ senderIds ↔ ∃ u, HeardLastAt pb senderId u pre ∧
      t - u < heartbeatIntervalSeconds * missedHeartbeatLimit := by
  obtain ⟨core₀, action, core₁, runs₀, -, hstep⟩ :=
    runs.exists_step_of_alone htr fun _ _ _ _ hstep hmem => (of_stamped_activeSenders hstep hmem).1
  obtain ⟨-, rfl, rfl⟩ := of_stamped_activeSenders hstep List.mem_cons_self
  have hinv := HeardInv.of_runs runs₀
  refine ⟨SenderRegistry.pairwise_activeSenders _ _, fun senderId => ?_⟩
  rw [SenderRegistry.mem_activeSenders, ← hinv.timeout]
  exact exists_congr fun u => and_congr_left fun hfresh => hinv.heard hfresh

end

/-! ### A run -/

/-- Sender `3` is heard of at `0` and sender `7` at `4`; a dispatch comes to the registry at `15`. -/
def agingActions : List CoreAction :=
  [.incoming 3 heartbeatBytes, .tick 4, .incoming 7 heartbeatBytes, .tick 11, .detect tenBlocksFile.path,
    .statEnds (.ok 10), .hashEnds (.ok tenBlocksFile.fileHash), .resume]

def agingTrace : List (ℚ × CoreEvent) :=
  [(0, .handled 3 heartbeatBytes), (4, .handled 7 heartbeatBytes), (15, .detected tenBlocksFile.path),
    (15, .statEnded tenBlocksFile.path (.ok 10)),
    (15, .hashEnded tenBlocksFile.path (.ok tenBlocksFile.fileHash))]

/-- After exactly the timeout sender `3` is not alive any more. -/
theorem dispatch_addresses_the_live_aging :
    (∃ u, HeardLastAt trackingProtobuf 7 u agingTrace ∧ 15 - u < 15) ∧
    ¬ ∃ u, HeardLastAt trackingProtobuf 3 u agingTrace ∧ 15 - u < 15 := by
  obtain ⟨core, run, -⟩ := EventMachine.exists_runsUnder_of_map_eq
    (show (((Core.machine trackingProtobuf tenBlocksDispatcher).stamped Core.now).runUnder
        (fun _ _ _ => True) [] ((Core.machine trackingProtobuf tenBlocksDispatcher).stamped Core.now).init
        agingActions).map Prod.fst
      = some (agingTrace ++ [(15, .activeSenders [7])]) by decide +kernel)
  obtain ⟨-, hlive⟩ := dispatch_addresses_the_live run.runs rfl
  have htimeout : heartbeatIntervalSeconds * missedHeartbeatLimit = 15 := by decide +kernel
  rw [htimeout] at hlive
  exact ⟨(hlive 7).mp (by decide), fun h => absurd ((hlive 3).mpr h) (by decide)⟩

end FileMonitor
