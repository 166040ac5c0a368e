import FileMonitor.Library.Conversation
import FileMonitor.Services.Equiv.Coverage
import FileMonitor.Services.Equiv.Progress

/-!
# The conversation of a dispatch

A dispatch asks for the size, the hash, the active senders and a session id once each, in this order, and
for what a session needs after that: `DispatchStage` lists the conversations it can have come to.  So the
answers given to a dispatch step by step are those of one call (`exists_inputs`), and what it has sent and
tracked can be read off its conversation.
-/

namespace FileMonitor

open Coroutine DispatchEffect

/-- An effect of a dispatch and its answer. -/
abbrev DispatchExchange := Exchange DispatchEffect.Answer

/-! ### What a conversation says -/

/-- The answers of the registry. -/
def snapshotsOf (xs : List DispatchExchange) : List (List SenderId) :=
  xs.filterMap fun
    | ⟨.activeSenders, senderIds⟩ => some senderIds
    | _ => none

/-- How the attempts to send have ended. -/
def outcomesOf (xs : List DispatchExchange) : List SendOutcome :=
  xs.filterMap fun
    | ⟨.send .., outcome⟩ => some outcome
    | _ => none

/-- The payloads that were accepted, with their senders. -/
def acceptedOf (xs : List DispatchExchange) : List (SenderId × Bytes) :=
  xs.filterMap fun
    | ⟨.send senderId payload, .accepted⟩ => some (senderId, payload)
    | _ => none

/-- The sessions that were tracked, with their senders. -/
def trackedOf (xs : List DispatchExchange) : List (SessionId × List SenderId) :=
  xs.filterMap fun
    | ⟨.trackSession sessionId senderIds, _⟩ => some (sessionId, senderIds)
    | _ => none

/-- What a dispatch asks for once it has its session. -/
def OfSession : DispatchEffect → Prop
  | .stat _ | .computeHash _ | .activeSenders | .generateSessionId => False
  | _ => True

/-- Of this file, if an effect measures one. -/
def OfPath (path : PosixPath) : DispatchEffect → Prop
  | .stat path' | .computeHash path' => path' = path
  | _ => True

theorem OfSession.ofPath {effect : DispatchEffect} (h : OfSession effect) (path : PosixPath) :
    OfPath path effect := by
  cases effect with
  | stat => exact h.elim
  | computeHash => exact h.elim
  | _ => trivial

section

variable {inputs : DispatchInputs} {xs : List DispatchExchange} {world : DispatchWorld}

theorem snapshotsOf_eq_nil (h : ∀ x ∈ xs, OfSession x.1) : snapshotsOf xs = [] := by
  refine List.filterMap_eq_nil_iff.mpr ?_
  rintro ⟨effect, answer⟩ hmem
  cases effect with
  | activeSenders => exact (h _ hmem).elim
  | _ => rfl

/-- The attempts to send are all that can make a difference in a session. -/
theorem agrees_of_outcomes (hxs : ∀ x ∈ xs, OfSession x.1)
    (houtcomes : ∀ i outcome, (outcomesOf xs)[i]? = some outcome →
      inputs.outcomes (world.attempts + i) = outcome) : Agrees inputs.answer xs world := by
  induction xs generalizing world with
  | nil => trivial
  | cons x xs ih =>
    have hrest := fun y hy => hxs y (List.mem_cons_of_mem x hy)
    have hx := hxs x List.mem_cons_self
    obtain ⟨effect, answer⟩ := x
    cases effect with
    | send senderId payload =>
      refine ⟨houtcomes 0 answer rfl, ih hrest fun i outcome h => ?_⟩
      have hnext := houtcomes (i + 1) outcome h
      rwa [← Nat.add_assoc, Nat.add_right_comm] at hnext
    | removeSender senderId => exact ⟨rfl, ih hrest houtcomes⟩
    | sleep seconds => exact ⟨rfl, ih hrest houtcomes⟩
    | log entry => exact ⟨rfl, ih hrest houtcomes⟩
    | trackSession sessionId senderIds => exact ⟨rfl, ih hrest houtcomes⟩
    | _ => exact hx.elim

/-- What a call has sent. -/
theorem accepted_afterExchanges (hagrees : Agrees inputs.answer xs world) :
    (afterExchanges inputs.answer xs world).accepted = world.accepted ++ acceptedOf xs := by
  induction xs generalizing world with
  | nil => exact (List.append_nil _).symm
  | cons x xs ih =>
    obtain ⟨hanswer, hrest⟩ := hagrees
    rw [afterExchanges_cons, ih hrest]
    obtain ⟨effect, answer⟩ := x
    cases effect with
    | send senderId payload =>
      have houtcome : inputs.outcomes world.attempts = answer := hanswer
      show (if inputs.outcomes world.attempts = .accepted then _ else _) ++ _ = _
      cases answer with
      | accepted =>
        rw [if_pos houtcome, List.append_assoc]
        rfl
      | unknownSender =>
        rw [if_neg (by rw [houtcome]; decide)]
        rfl
      | queueFull =>
        rw [if_neg (by rw [houtcome]; decide)]
        rfl
    | _ => rfl

/-- What a call has tracked. -/
theorem dispatchedSessions_afterExchanges :
    (afterExchanges inputs.answer xs world).dispatchedSessions
      = (trackedOf xs).foldl (fun sessions entry => sessions.insert entry.1 entry.2)
          world.dispatchedSessions := by
  induction xs generalizing world with
  | nil => rfl
  | cons x xs ih =>
    rw [afterExchanges_cons, ih]
    obtain ⟨effect, answer⟩ := x
    cases effect <;> rfl

end

/-! ### The conversations there are -/

section Stages

variable (pb : Protobuf) (dispatcher : SessionDispatcher)

/-- The exchanges up to the answer of the registry. -/
def measuredExchanges (path : PosixPath) (size : ℕ) (hash : String) (senderIds : List SenderId) :
    List DispatchExchange :=
  [⟨stat path, .ok size⟩, ⟨computeHash path, .ok hash⟩, ⟨activeSenders, senderIds⟩]

/-- What a dispatch of `path` can have come to, and by which exchanges. -/
inductive DispatchStage (path : PosixPath) :
    List DispatchExchange → DispatchCoroutine (Option SessionId) → Prop where
  | start : DispatchStage path [] (ask (stat path) (dispatcher.statEnded pb path))
  | statFailed (reason : String) : DispatchStage path [⟨stat path, .error reason⟩] (raise (.stat reason))
  | statted (size : ℕ) : DispatchStage path [⟨stat path, .ok size⟩]
      (ask (computeHash path) (dispatcher.hashEnded pb path size))
  | hashFailed (size : ℕ) (reason : String) :
    DispatchStage path [⟨stat path, .ok size⟩, ⟨computeHash path, .error reason⟩]
      (raise (.hasher reason))
  | hashed (size : ℕ) (hash : String) :
    DispatchStage path [⟨stat path, .ok size⟩, ⟨computeHash path, .ok hash⟩]
      (ask activeSenders (dispatcher.sendersCounted pb ⟨path, size, hash⟩))
  | unserved (size : ℕ) (hash : String) : DispatchStage path (measuredExchanges path size hash [])
      (ask (log (.dispatchSkippedNoActiveSenders path)) fun _ => ret none)
  | skipped (size : ℕ) (hash : String) :
    DispatchStage path
      (measuredExchanges path size hash [] ++ [⟨log (.dispatchSkippedNoActiveSenders path), ()⟩])
      (ret none)
  | counted (size : ℕ) (hash : String) {senderIds : List SenderId} (nonempty : senderIds ≠ []) :
    DispatchStage path (measuredExchanges path size hash senderIds)
      (ask generateSessionId (dispatcher.dispatchSession pb ⟨path, size, hash⟩ senderIds))
  | drawn (size : ℕ) (hash : String) {senderIds : List SenderId} (nonempty : senderIds ≠ [])
    (sessionId : SessionId) {ys : List DispatchExchange} {rest : DispatchCoroutine (Option SessionId)}
    (conversation :
      (dispatcher.dispatchSession pb ⟨path, size, hash⟩ senderIds sessionId).Converses ys rest) :
    DispatchStage path
      (measuredExchanges path size hash senderIds ++ [⟨generateSessionId, sessionId⟩] ++ ys) rest

variable {pb dispatcher} {path : PosixPath} {xs : List DispatchExchange}
  {rest : DispatchCoroutine (Option SessionId)}

theorem DispatchStage.answered {effect : DispatchEffect}
    {resume : effect.Answer → DispatchCoroutine (Option SessionId)}
    (h : DispatchStage pb dispatcher path xs (ask effect resume)) (answer : effect.Answer) :
    DispatchStage pb dispatcher path (xs ++ [⟨effect, answer⟩]) (resume answer) := by
  cases h with
  | start =>
    rcases answer with reason | size
    · exact .statFailed reason
    · exact .statted size
  | statted size =>
    rcases answer with reason | hash
    · exact .hashFailed size reason
    · exact .hashed size hash
  | hashed size hash =>
    show DispatchStage _ _ _ (measuredExchanges path size hash answer)
      (dispatcher.sendersCounted pb ⟨path, size, hash⟩ answer)
    unfold SessionDispatcher.sendersCounted
    by_cases hnone : answer = []
    · subst hnone
      exact .unserved size hash
    · rw [if_neg hnone]
      exact .counted size hash hnone
  | unserved size hash => exact .skipped size hash
  | counted size hash hnonempty =>
    rw [← List.append_nil (_ ++ _)]
    exact .drawn size hash hnonempty answer .start
  | drawn size hash hnonempty sessionId hconversation =>
    rw [List.append_assoc]
    exact .drawn size hash hnonempty sessionId (hconversation.answered answer)

/-- **A dispatch comes to no other points.** -/
theorem dispatchStage_of_converses (h : (dispatcher.dispatch pb path).Converses xs rest) :
    DispatchStage pb dispatcher path xs rest := by
  induction h with
  | start => exact .start
  | answered _ answer ih => exact ih.answered answer

theorem ofSession_of_converses {size : ℕ} {hash : String} {senderIds : List SenderId}
    {sessionId : SessionId} {ys : List DispatchExchange}
    (h : (dispatcher.dispatchSession pb ⟨path, size, hash⟩ senderIds sessionId).Converses ys rest) :
    ∀ y ∈ ys, OfSession y.1 := by
  refine (h.uses ?_).1
  exact dispatchSession_uses ⟨fun _ => trivial, fun _ => trivial, fun _ => trivial⟩
    (fun _ _ _ _ _ _ _ => trivial) fun _ => trivial

/-- A dispatch measures the file it is about. -/
theorem DispatchStage.ofPath (h : DispatchStage pb dispatcher path xs rest) :
    ∀ x ∈ xs, OfPath path x.1 := by
  have hmeasured {size : ℕ} {hash : String} {senderIds : List SenderId} :
      ∀ x ∈ measuredExchanges path size hash senderIds, OfPath path x.1 := by
    simp [measuredExchanges, OfPath]
  cases h with
  | start => nofun
  | statFailed => simp [OfPath]
  | statted => simp [OfPath]
  | hashFailed => simp [OfPath]
  | hashed => simp [OfPath]
  | unserved => exact hmeasured
  | skipped => exact List.forall_mem_append.mpr ⟨hmeasured, by simp [OfPath]⟩
  | counted => exact hmeasured
  | drawn _ _ _ _ hconversation =>
    refine List.forall_mem_append.mpr ⟨List.forall_mem_append.mpr ⟨hmeasured, by simp [OfPath]⟩, ?_⟩
    exact fun y hmem => (ofSession_of_converses hconversation y hmem).ofPath path

/-- **The answers of a conversation are those of one call**: where the registry has answered as some
registry can. -/
theorem exists_inputs (h : (dispatcher.dispatch pb path).Converses xs rest)
    (hsnapshots : ∀ senderIds ∈ snapshotsOf xs, ∃ registry : SenderRegistry, ∃ now : ℚ,
      (registry.activeSenders now).1 = senderIds) :
    ∃ inputs registry, Agrees inputs.answer xs (.start registry ∅) ∧
      ∀ senderIds ∈ snapshotsOf xs, DispatchInputs.active inputs registry = senderIds := by
  cases dispatchStage_of_converses h with
  | start =>
    exact ⟨⟨.ok 0, .ok "", 0, "", fun _ => .accepted⟩, .create 0, trivial, nofun⟩
  | statFailed reason =>
    exact ⟨⟨.error reason, .ok "", 0, "", fun _ => .accepted⟩, .create 0, ⟨rfl, trivial⟩, nofun⟩
  | statted size =>
    exact ⟨⟨.ok size, .ok "", 0, "", fun _ => .accepted⟩, .create 0, ⟨rfl, trivial⟩, nofun⟩
  | hashFailed size reason =>
    exact ⟨⟨.ok size, .error reason, 0, "", fun _ => .accepted⟩, .create 0, ⟨rfl, rfl, trivial⟩, nofun⟩
  | hashed size hash =>
    exact ⟨⟨.ok size, .ok hash, 0, "", fun _ => .accepted⟩, .create 0, ⟨rfl, rfl, trivial⟩, nofun⟩
  | unserved size hash =>
    obtain ⟨registry, now, hactive⟩ := hsnapshots [] List.mem_cons_self
    refine ⟨⟨.ok size, .ok hash, now, "", fun _ => .accepted⟩, registry,
      ⟨rfl, rfl, hactive, trivial⟩, fun senderIds hmem => ?_⟩
    rw [List.mem_singleton.mp hmem]
    exact hactive
  | skipped size hash =>
    obtain ⟨registry, now, hactive⟩ := hsnapshots [] List.mem_cons_self
    refine ⟨⟨.ok size, .ok hash, now, "", fun _ => .accepted⟩, registry,
      ⟨rfl, rfl, hactive, rfl, trivial⟩, fun senderIds hmem => ?_⟩
    rw [List.mem_singleton.mp hmem]
    exact hactive
  | @counted size hash senderIds =>
    obtain ⟨registry, now, hactive⟩ := hsnapshots senderIds List.mem_cons_self
    refine ⟨⟨.ok size, .ok hash, now, "", fun _ => .accepted⟩, registry,
      ⟨rfl, rfl, hactive, trivial⟩, fun senderIds hmem => ?_⟩
    rw [List.mem_singleton.mp hmem]
    exact hactive
  | @drawn size hash senderIds _ sessionId ys _ hconversation =>
    obtain ⟨registry, now, hactive⟩ := hsnapshots senderIds List.mem_cons_self
    have hsession := ofSession_of_converses hconversation
    refine ⟨⟨.ok size, .ok hash, now, sessionId, fun i => (outcomesOf ys).getD i .accepted⟩, registry,
      ?_, fun senderIds' hmem => ?_⟩
    · refine (agrees_append _).mpr ⟨⟨rfl, rfl, hactive, rfl, trivial⟩, ?_⟩
      refine agrees_of_outcomes hsession fun i outcome h => ?_
      show (outcomesOf ys).getD (0 + i) .accepted = outcome
      rw [Nat.zero_add, List.getD_eq_getElem?_getD, h, Option.getD_some]
    · have hsnapshot : snapshotsOf (measuredExchanges path size hash senderIds ++
          [⟨generateSessionId, sessionId⟩] ++ ys) = [senderIds] := by
        rw [snapshotsOf, List.filterMap_append]
        exact congrArg ([senderIds] ++ ·) (snapshotsOf_eq_nil hsession)
      rw [hsnapshot] at hmem
      rw [List.mem_singleton.mp hmem]
      exact hactive

end Stages

end FileMonitor
