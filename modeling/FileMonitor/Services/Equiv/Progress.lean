import FileMonitor.Services.Equiv.Dispatcher

/-!
# Where a dispatch stands

`DispatchPoint` relates what a dispatch has learned so far (the size, the hash and the session id) to what
it has still to do.  Each effect has one lemma, which says when the dispatch can ask for it and where
the answer takes it; the two loops run dispatches step by step, and their invariants use these lemmas
and no other fact about the coroutine.
-/

namespace FileMonitor

open Coroutine DispatchEffect

section

variable (pb : Protobuf) (dispatcher : SessionDispatcher)

namespace SessionDispatcher

/-- `dispatch` once the hasher has answered. -/
def hashEnded (path : PosixPath) (sizeBytes : ℕ) (result : Except String String) :
    DispatchCoroutine (Option SessionId) := do
  let fileHash ← ofExcept (result.mapError .hasher)
  dispatcher.dispatchMeasured pb { path := path, sizeBytes := sizeBytes, fileHash := fileHash }

/-- `dispatch` once `stat` has answered. -/
def statEnded (path : PosixPath) (result : Except String ℕ) :
    DispatchCoroutine (Option SessionId) := do
  let sizeBytes ← ofExcept (result.mapError .stat)
  ask (computeHash path) (dispatcher.hashEnded pb path sizeBytes)

/-- `dispatch` once the registry has answered. -/
def sendersCounted (sourceFile : SourceFile) (activeSenders : List SenderId) :
    DispatchCoroutine (Option SessionId) := do
  if activeSenders = [] then
    perform (log (.dispatchSkippedNoActiveSenders sourceFile.path))
    return none
  ask generateSessionId (dispatcher.dispatchSession pb sourceFile activeSenders)

theorem dispatch_eq_ask (path : PosixPath) :
    dispatcher.dispatch pb path = ask (stat path) (dispatcher.statEnded pb path) := rfl

theorem dispatchMeasured_eq_ask (sourceFile : SourceFile) :
    dispatcher.dispatchMeasured pb sourceFile
      = ask activeSenders (dispatcher.sendersCounted pb sourceFile) := rfl

end SessionDispatcher

/-- What a dispatch of `sourceFile` does in session `sessionId`. -/
def SessionEffect (sourceFile : SourceFile) (sessionId : SessionId) : DispatchEffect → Prop
  | .send senderId payload => ∃ assignment,
      dispatcher.buildPayload pb sessionId sourceFile assignment = .ok payload ∧
      assignment.senderId = senderId
  | .trackSession trackedId _ => trackedId = sessionId
  | .removeSender _ | .sleep _ | .log _ => True
  | .stat _ | .computeHash _ | .activeSenders | .generateSessionId => False

/-- What a dispatch without a session does before it returns or raises. -/
def IsLog : DispatchEffect → Prop
  | .log _ => True
  | _ => False

/-- A dispatch of `path` has been given this size, hash and session id, and goes on with this. -/
inductive DispatchPoint (path : PosixPath) : Option ℕ → Option String → Option SessionId →
    DispatchCoroutine (Option SessionId) → Prop where
  | start : DispatchPoint path none none none (ask (stat path) (dispatcher.statEnded pb path))
  | statted (size : ℕ) : DispatchPoint path (some size) none none
      (ask (computeHash path) (dispatcher.hashEnded pb path size))
  | hashed (size : ℕ) (hash : String) : DispatchPoint path (some size) (some hash) none
      (ask activeSenders (dispatcher.sendersCounted pb ⟨path, size, hash⟩))
  | counted (size : ℕ) (hash : String) (senderIds : List SenderId) :
    DispatchPoint path (some size) (some hash) none
      (ask generateSessionId (dispatcher.dispatchSession pb ⟨path, size, hash⟩ senderIds))
  | drawn (size : ℕ) (hash : String) (sessionId : SessionId)
    {rest : DispatchCoroutine (Option SessionId)}
    (uses : rest.Uses (SessionEffect pb dispatcher ⟨path, size, hash⟩ sessionId)) :
    DispatchPoint path (some size) (some hash) (some sessionId) rest
  | ended (size : Option ℕ) (hash : Option String) {rest : DispatchCoroutine (Option SessionId)}
    (uses : rest.Uses IsLog) : DispatchPoint path size hash none rest

end

namespace DispatchPoint

variable {pb : Protobuf} {dispatcher : SessionDispatcher} {path : PosixPath} {size : Option ℕ}
  {hash : Option String} {sessionId : Option SessionId}

theorem dispatch (path : PosixPath) :
    DispatchPoint pb dispatcher path none none none (dispatcher.dispatch pb path) := by
  rw [SessionDispatcher.dispatch_eq_ask]
  exact .start

theorem dispatchSession_usesSessionEffect (sourceFile : SourceFile) (senderIds : List SenderId)
    (newId : SessionId) :
    (dispatcher.dispatchSession pb sourceFile senderIds newId).Uses
      (SessionEffect pb dispatcher sourceFile newId) := by
  apply dispatchSession_uses
  · exact ⟨fun _ => trivial, fun _ => trivial, fun _ => trivial⟩
  · intro totalBlocks assignments _ assignment _ payload hbuild
    exact ⟨assignment, hbuild, rfl⟩
  · intro senderIds
    rfl

theorem ask_stat {path' : PosixPath} {rest : Except String ℕ → DispatchCoroutine (Option SessionId)}
    (h : DispatchPoint pb dispatcher path size hash sessionId (ask (stat path') rest)) :
    path' = path ∧ sessionId = none ∧
      ∀ result, DispatchPoint pb dispatcher path result.toOption none none (rest result) := by
  cases h with
  | start =>
    refine ⟨rfl, rfl, fun result => ?_⟩
    rcases result with reason | size
    -- the exception leaves `dispatch`
    · exact .ended _ _ (uses_raise _)
    · exact .statted size
  | drawn _ _ _ uses => exact uses.1.elim
  | ended _ _ uses => exact uses.1.elim

theorem ask_computeHash {path' : PosixPath}
    {rest : Except String String → DispatchCoroutine (Option SessionId)}
    (h : DispatchPoint pb dispatcher path size hash sessionId (ask (computeHash path') rest)) :
    path' = path ∧ sessionId = none ∧
      ∀ result, DispatchPoint pb dispatcher path size result.toOption none (rest result) := by
  cases h with
  | statted size =>
    refine ⟨rfl, rfl, fun result => ?_⟩
    rcases result with reason | hash
    · exact .ended _ _ (uses_raise _)
    · show DispatchPoint _ _ _ _ _ _ (dispatcher.dispatchMeasured pb ⟨path, size, hash⟩)
      rw [SessionDispatcher.dispatchMeasured_eq_ask]
      exact .hashed size hash
  | drawn _ _ _ uses => exact uses.1.elim
  | ended _ _ uses => exact uses.1.elim

theorem ask_activeSenders {rest : List SenderId → DispatchCoroutine (Option SessionId)}
    (h : DispatchPoint pb dispatcher path size hash sessionId (ask activeSenders rest)) :
    sessionId = none ∧ ∀ senderIds, DispatchPoint pb dispatcher path size hash none (rest senderIds) := by
  cases h with
  | hashed size hash =>
    refine ⟨rfl, fun senderIds => ?_⟩
    unfold SessionDispatcher.sendersCounted
    by_cases hnone : senderIds = []
    · rw [if_pos hnone]
      exact .ended _ _ ⟨trivial, fun _ => uses_ret none⟩
    · rw [if_neg hnone]
      exact .counted size hash senderIds
  | drawn _ _ _ uses => exact uses.1.elim
  | ended _ _ uses => exact uses.1.elim

theorem ask_generateSessionId {rest : SessionId → DispatchCoroutine (Option SessionId)}
    (h : DispatchPoint pb dispatcher path size hash sessionId (ask generateSessionId rest)) :
    sessionId = none ∧
      ∀ newId, DispatchPoint pb dispatcher path size hash (some newId) (rest newId) := by
  cases h with
  | counted size hash senderIds =>
    refine ⟨rfl, fun newId => .drawn size hash newId ?_⟩
    exact dispatchSession_usesSessionEffect _ senderIds newId
  | drawn _ _ _ uses => exact uses.1.elim
  | ended _ _ uses => exact uses.1.elim

/-- **What a dispatch sends** is a payload it has built from the size and hash it was given. -/
theorem ask_send {senderId : SenderId} {payload : Bytes}
    {rest : SendOutcome → DispatchCoroutine (Option SessionId)}
    (h : DispatchPoint pb dispatcher path size hash sessionId (ask (send senderId payload) rest)) :
    (∃ sizeBytes fileHash currentId assignment, size = some sizeBytes ∧ hash = some fileHash ∧
      sessionId = some currentId ∧
      dispatcher.buildPayload pb currentId ⟨path, sizeBytes, fileHash⟩ assignment = .ok payload ∧
      assignment.senderId = senderId) ∧
      ∀ outcome, DispatchPoint pb dispatcher path size hash sessionId (rest outcome) := by
  cases h with
  | drawn size hash currentId uses =>
    obtain ⟨⟨assignment, hbuild, hid⟩, hrest⟩ := uses
    exact ⟨⟨size, hash, currentId, assignment, rfl, rfl, rfl, hbuild, hid⟩,
      fun outcome => .drawn size hash currentId (hrest outcome)⟩
  | ended _ _ uses => exact uses.1.elim

/-- **A dispatch tracks only its own session.** -/
theorem ask_trackSession {trackedId : SessionId} {senderIds : List SenderId}
    {rest : Unit → DispatchCoroutine (Option SessionId)}
    (h : DispatchPoint pb dispatcher path size hash sessionId
      (ask (trackSession trackedId senderIds) rest)) :
    sessionId = some trackedId ∧
      DispatchPoint pb dispatcher path size hash sessionId (rest ()) := by
  cases h with
  | drawn size hash currentId uses =>
    obtain ⟨hid, hrest⟩ := uses
    exact ⟨congrArg some hid.symm, .drawn size hash currentId (hrest ())⟩
  | ended _ _ uses => exact uses.1.elim

/-- The effects without an answer that a dispatch acts on. -/
theorem ask_unit {effect : DispatchEffect} {rest : effect.Answer → DispatchCoroutine (Option SessionId)}
    (heffect : (∃ senderId, effect = removeSender senderId) ∨ (∃ seconds, effect = sleep seconds) ∨
      ∃ entry, effect = log entry)
    (h : DispatchPoint pb dispatcher path size hash sessionId (ask effect rest))
    (answer : effect.Answer) :
    DispatchPoint pb dispatcher path size hash sessionId (rest answer) := by
  rcases heffect with ⟨senderId, rfl⟩ | ⟨seconds, rfl⟩ | ⟨entry, rfl⟩
  all_goals
    cases h with
    | drawn size hash currentId uses => exact .drawn size hash currentId (uses.2 answer)
    | ended _ _ uses => exact .ended _ _ (uses.2 answer)

/-- The hasher is asked when the size is known, -/
theorem exists_size_of_ask_computeHash {path' : PosixPath}
    {rest : Except String String → DispatchCoroutine (Option SessionId)}
    (h : DispatchPoint pb dispatcher path size hash sessionId (ask (computeHash path') rest)) :
    ∃ sizeBytes, size = some sizeBytes := by
  cases h with
  | statted sizeBytes => exact ⟨sizeBytes, rfl⟩
  | drawn _ _ _ uses => exact uses.1.elim
  | ended _ _ uses => exact uses.1.elim

/-- and at no other time than right after `stat`. -/
theorem resume_ne_ask_computeHash {effect : DispatchEffect}
    {rest : effect.Answer → DispatchCoroutine (Option SessionId)}
    (h : DispatchPoint pb dispatcher path size hash sessionId (ask effect rest))
    (hstat : ∀ path', effect ≠ stat path') (answer : effect.Answer) (path' : PosixPath)
    (rest' : Except String String → DispatchCoroutine (Option SessionId)) :
    rest answer ≠ ask (computeHash path') rest' := by
  have huses {P : DispatchEffect → Prop} {c : DispatchCoroutine (Option SessionId)} (h : c.Uses P)
      (hP : ¬ P (computeHash path')) : c ≠ ask (computeHash path') rest' := by
    rintro rfl
    exact hP h.1
  cases h with
  | start => exact absurd rfl (hstat path)
  | statted size => rcases answer with reason | hash <;> exact nofun
  | hashed size hash =>
    show dispatcher.sendersCounted pb _ answer ≠ _
    unfold SessionDispatcher.sendersCounted
    split_ifs <;> exact nofun
  | counted size hash senderIds => exact huses (dispatchSession_usesSessionEffect _ _ _) id
  | drawn _ _ _ uses => exact huses (uses.2 answer) id
  | ended _ _ uses => exact huses (uses.2 answer) id

end DispatchPoint

end FileMonitor
