import FileMonitor.Library.Coroutine
import FileMonitor.Services.Planner
import FileMonitor.Services.Registry

/-!
# The session dispatcher

`services/dispatcher.py`, as a coroutine: every call that leaves the module, or changes state that
other tasks see, is an effect answered by the environment.  `SessionDispatcher.dispatch` is the
coroutine; `runDispatch` answers its effects one after the other with given results of `stat`, of the
hasher and of each attempt to send.
-/

namespace FileMonitor

/-- `MAX_DISPATCH_ATTEMPTS`. -/
def maxDispatchAttempts : ℕ := 2

/-- `DISPATCH_RETRY_DELAY_SECONDS`. -/
def dispatchRetryDelaySeconds : ℚ := 1 / 20

/-! ### Effects -/

/-- How `ipc.send` ends: it returns, or raises `UnknownSenderError` or `SendQueueFullError`. -/
inductive SendOutcome where
  | accepted
  | unknownSender
  | queueFull
deriving DecidableEq

/-- One element of `lost_shards` in the log of a partial failure. -/
structure LostShard where
  senderId : SenderId
  shardResidue : ℤ
  shardModulus : ℤ
  blockCount : ℕ
deriving DecidableEq

/-- The log entries of the dispatcher. -/
inductive LogEntry where
  | dispatchSkippedNoActiveSenders (path : PosixPath)
  | sessionDispatched (sessionId : SessionId) (senderId : SenderId)
      (shardResidue shardModulus targetPort : ℤ) (blockCount : ℕ)
  | dispatchSendFailed (sessionId : SessionId) (senderId : SenderId) (reason : String)
  | dispatchPartiallyFailed (sessionId : SessionId) (failedSenderIds : List SenderId)
      (lostBlockCount : ℕ) (lostShards : List LostShard)
deriving DecidableEq

/-- What `dispatch` asks of its environment. -/
inductive DispatchEffect where
  | stat (path : PosixPath)
  | computeHash (path : PosixPath)
  | activeSenders
  | generateSessionId
  | send (senderId : SenderId) (payload : Bytes)
  | removeSender (senderId : SenderId)
  | sleep (seconds : ℚ)
  | log (entry : LogEntry)
  -- `self._dispatched_sessions[session_id] = succeeded_sender_ids`
  | trackSession (sessionId : SessionId) (senderIds : List SenderId)
deriving DecidableEq

/-- The answer to each effect. -/
abbrev DispatchEffect.Answer : DispatchEffect → Type
  | .stat _ => Except String ℕ
  | .computeHash _ => Except String String
  | .activeSenders => List SenderId
  | .generateSessionId => SessionId
  | .send .. => SendOutcome
  | .removeSender _ => Unit
  | .sleep _ => Unit
  | .log _ => Unit
  | .trackSession .. => Unit

abbrev DispatchCoroutine := Coroutine DispatchEffect.Answer PyError

/-! ### The coroutine -/

/-- The fields of a `SessionDispatcher` that never change. -/
structure SessionDispatcher where
  fecParams : FecParams
  watchRoot : PosixPath
  targetHost : String
  basePort : ℤ

open Coroutine DispatchEffect

/-- The loop of `_deliver`, over the attempts that are left. -/
def deliverLoop (sessionId : SessionId) (assignment : ShardAssignment) (payload : Bytes) :
    List ℕ → DispatchCoroutine Bool
  | [] => pure false
  | attempt :: attempts => do
    match ← perform (send assignment.senderId payload) with
    | .unknownSender =>
      perform (log (.dispatchSendFailed sessionId assignment.senderId "sender_disconnected"))
      perform (removeSender assignment.senderId)
      pure false
    | .queueFull =>
      perform (log (.dispatchSendFailed sessionId assignment.senderId "send_queue_full"))
      if attempt < maxDispatchAttempts - 1 then perform (sleep dispatchRetryDelaySeconds)
      deliverLoop sessionId assignment payload attempts
    | .accepted => pure true

/-- `_deliver`. -/
def deliver (sessionId : SessionId) (assignment : ShardAssignment) (payload : Bytes) :
    DispatchCoroutine Bool :=
  deliverLoop sessionId assignment payload (List.range maxDispatchAttempts)

/-- The entry of one lost assignment in the log of a partial failure. -/
def ShardAssignment.lostShard (assignment : ShardAssignment) : LostShard where
  senderId := assignment.senderId
  shardResidue := assignment.shardResidue
  shardModulus := assignment.shardModulus
  blockCount := assignment.assignedBlocks.length

/-- `_log_partial_failure`. -/
def partialFailure (sessionId : SessionId) (lostAssignments : List ShardAssignment) : LogEntry :=
  let lostBlockCount := (lostAssignments.map fun assignment => assignment.assignedBlocks.length).sum
  .dispatchPartiallyFailed sessionId (lostAssignments.map ShardAssignment.senderId) lostBlockCount
    (lostAssignments.map ShardAssignment.lostShard)

namespace SessionDispatcher

variable (pb : Protobuf) (dispatcher : SessionDispatcher)

/-- The payload for one assignment: `build_manifest`, `build_assign_session` and `codec.encode`. -/
def buildPayload (sessionId : SessionId) (sourceFile : SourceFile) (assignment : ShardAssignment) :
    Except PyError Bytes := do
  let manifest ← buildManifest pb sourceFile dispatcher.fecParams sessionId assignment.shardResidue
    assignment.shardModulus dispatcher.watchRoot
  let assignSession ← buildAssignSession pb manifest assignment.shardModulus dispatcher.targetHost
    assignment.targetPort sourceFile.path.str
  encode pb (.assignSession assignSession)

/-- The loop of `_send_to_senders`, over the assignments that are left, with the lists `succeeded`
and `lost_assignments` so far. -/
def sendLoop (sessionId : SessionId) (sourceFile : SourceFile) :
    List ShardAssignment → List SenderId → List ShardAssignment →
      DispatchCoroutine (List SenderId × List ShardAssignment)
  | [], succeeded, lostAssignments => pure (succeeded, lostAssignments)
  | assignment :: assignments, succeeded, lostAssignments => do
    let payload ← ofExcept (dispatcher.buildPayload pb sessionId sourceFile assignment)
    if ← deliver sessionId assignment payload then
      perform (log (.sessionDispatched sessionId assignment.senderId assignment.shardResidue
        assignment.shardModulus assignment.targetPort assignment.assignedBlocks.length))
      sendLoop sessionId sourceFile assignments (succeeded ++ [assignment.senderId]) lostAssignments
    else
      sendLoop sessionId sourceFile assignments succeeded (lostAssignments ++ [assignment])

/-- `_send_to_senders`. -/
def sendToSenders (sessionId : SessionId) (sourceFile : SourceFile) (totalBlocks : ℤ)
    (activeSenders : List SenderId) : DispatchCoroutine (Option (List SenderId)) := do
  let assignments ←
    ofExcept (deriveShardAssignments totalBlocks activeSenders dispatcher.basePort)
  let (succeeded, lostAssignments) ← dispatcher.sendLoop pb sessionId sourceFile assignments [] []
  if lostAssignments ≠ [] then perform (log (partialFailure sessionId lostAssignments))
  pure (if succeeded = [] then none else some succeeded)

/-- `dispatch` once the session has its id. -/
def dispatchSession (sourceFile : SourceFile) (activeSenders : List SenderId)
    (sessionId : SessionId) : DispatchCoroutine (Option SessionId) := do
  let totalBlocks ← ofExcept (calculateBlockCount sourceFile.sizeBytes dispatcher.fecParams)
  match ← dispatcher.sendToSenders pb sessionId sourceFile totalBlocks activeSenders with
  | none => return none
  | some succeededSenderIds =>
    perform (trackSession sessionId succeededSenderIds)
    return some sessionId

/-- `dispatch` once the file has been measured. -/
def dispatchMeasured (sourceFile : SourceFile) : DispatchCoroutine (Option SessionId) := do
  let activeSenders ← perform activeSenders
  if activeSenders = [] then
    perform (log (.dispatchSkippedNoActiveSenders sourceFile.path))
    return none
  let sessionId ← perform generateSessionId
  dispatcher.dispatchSession pb sourceFile activeSenders sessionId

/-- `dispatch`. -/
def dispatch (path : PosixPath) : DispatchCoroutine (Option SessionId) := do
  let sizeBytes ← ofExcept ((← perform (stat path)).mapError .stat)
  let fileHash ← ofExcept ((← perform (computeHash path)).mapError .hasher)
  dispatcher.dispatchMeasured pb { path := path, sizeBytes := sizeBytes, fileHash := fileHash }

end SessionDispatcher

/-- `_dispatched_sessions`. -/
abbrev DispatchedSessions := Dict SessionId (List SenderId)

/-- `complete_session`. -/
def completeSession (dispatchedSessions : DispatchedSessions) (sessionId : SessionId) :
    DispatchedSessions :=
  dispatchedSessions.erase sessionId

/-! ### One whole call -/

/-- The results one call of `dispatch` meets. -/
structure DispatchInputs where
  stat : Except String ℕ
  hash : Except String String
  /-- The time at which `active_senders` reads the clock. -/
  now : ℚ
  sessionId : SessionId
  /-- How the attempts to send end, in order. -/
  outcomes : ℕ → SendOutcome

/-- The state one call of `dispatch` works on, and what it has sent and logged. -/
structure DispatchWorld where
  registry : SenderRegistry
  dispatchedSessions : DispatchedSessions
  attempts : ℕ
  accepted : List (SenderId × Bytes)
  logs : List LogEntry

/-- Nothing sent or logged yet. -/
def DispatchWorld.start (registry : SenderRegistry) (dispatchedSessions : DispatchedSessions) :
    DispatchWorld where
  registry := registry
  dispatchedSessions := dispatchedSessions
  attempts := 0
  accepted := []
  logs := []

/-- The answer to one effect, and the state after it. -/
def DispatchInputs.answer (inputs : DispatchInputs) :
    (effect : DispatchEffect) → DispatchWorld → effect.Answer × DispatchWorld
  | .stat _, world => (inputs.stat, world)
  | .computeHash _, world => (inputs.hash, world)
  | .activeSenders, world =>
    let (senderIds, registry) := world.registry.activeSenders inputs.now
    (senderIds, { world with registry := registry })
  | .generateSessionId, world => (inputs.sessionId, world)
  | .send senderId payload, world =>
    let outcome := inputs.outcomes world.attempts
    (outcome,
      { world with
        attempts := world.attempts + 1
        accepted :=
          if outcome = .accepted then world.accepted ++ [(senderId, payload)] else world.accepted })
  | .removeSender senderId, world =>
    ((), { world with registry := world.registry.remove senderId })
  | .sleep _, world => ((), world)
  | .log entry, world => ((), { world with logs := world.logs ++ [entry] })
  | .trackSession sessionId senderIds, world =>
    ((), { world with dispatchedSessions := world.dispatchedSessions.insert sessionId senderIds })

/-- One call of `dispatch`, with its result or exception and the state it leaves. -/
def runDispatch (pb : Protobuf) (dispatcher : SessionDispatcher) (inputs : DispatchInputs)
    (path : PosixPath) (world : DispatchWorld) : Except PyError (Option SessionId) × DispatchWorld :=
  (dispatcher.dispatch pb path).run inputs.answer world

end FileMonitor
