import FileMonitor.Services.Dispatcher
import FileMonitor.Services.Equiv.Planner
import FileMonitor.Services.Equiv.Registry

/-!
# What one dispatch does

* `run_deliver`: delivering one assignment hands over its payload at most once.
* `run_sendLoop`: when every payload can be built, the loop splits the assignments into delivered ones,
  whose payloads are exactly what is accepted, and lost ones, which are exactly what it returns.
-/

namespace FileMonitor

open Coroutine DispatchEffect

/-! ### The payload of one assignment -/

/-- The message for one assignment, from the checked arguments of `buildManifest`. -/
def assignSessionOf (dispatcher : SessionDispatcher) (sessionId : SessionId)
    (sourceFile : SourceFile) (assignment : ShardAssignment) (fileHashBytes : Bytes)
    (filepath : String) (totalBlocks : ℤ) : AssignSession where
  manifest := manifestOf sourceFile dispatcher.fecParams sessionId unsetSenderBpsLimit fileHashBytes
    filepath totalBlocks assignment.shardResidue
  totalSenders := assignment.shardModulus
  targetHost := dispatcher.targetHost
  targetPort := assignment.targetPort
  sourcePath := sourceFile.path.str

/-- **The payload of an assignment** encodes the message for it. -/
theorem encode_of_buildPayload {pb : Protobuf} {dispatcher : SessionDispatcher}
    {sessionId : SessionId} {sourceFile : SourceFile} {assignment : ShardAssignment} {payload : Bytes}
    (h : dispatcher.buildPayload pb sessionId sourceFile assignment = .ok payload) :
    ∃ fileHashBytes filepath totalBlocks,
      checkFileHash sourceFile.fileHash = .ok fileHashBytes ∧
      relativeFilepath sourceFile.path dispatcher.watchRoot = .ok filepath ∧
      calculateBlockCount sourceFile.sizeBytes dispatcher.fecParams = .ok totalBlocks ∧
      encode pb (.assignSession (assignSessionOf dispatcher sessionId sourceFile assignment
        fileHashBytes filepath totalBlocks)) = .ok payload := by
  unfold SessionDispatcher.buildPayload at h
  obtain ⟨manifest, hmanifest, h⟩ := bind_eq_ok_iff.mp h
  obtain ⟨assignSession, hassign, h⟩ := bind_eq_ok_iff.mp h
  obtain ⟨-, fileHashBytes, filepath, totalBlocks, hhash, hpath, htotal, -, -, -, -, rfl⟩ :=
    buildManifest_eq_ok_iff.mp hmanifest
  obtain ⟨-, rfl⟩ := buildAssignSession_eq_ok_iff.mp hassign
  exact ⟨fileHashBytes, filepath, totalBlocks, hhash, hpath, htotal, h⟩

/-! ### Lost shards in the log -/

/-- The shards a log entry reports as lost. -/
def LogEntry.lostShards : LogEntry → List LostShard
  | .dispatchPartiallyFailed _ _ _ lostShards => lostShards
  | _ => []

/-- The shards the log reports as lost. -/
def DispatchWorld.lostShards (world : DispatchWorld) : List LostShard :=
  world.logs.flatMap LogEntry.lostShards

/-- From `world` to `world'` the payloads `sent` have been accepted, and no session has been tracked or
dropped and no shard reported as lost. -/
structure Sends (sent : List (SenderId × Bytes)) (world world' : DispatchWorld) : Prop where
  accepted : world'.accepted = world.accepted ++ sent
  dispatchedSessions : world'.dispatchedSessions = world.dispatchedSessions
  lostShards : world'.lostShards = world.lostShards

theorem Sends.trans {sent sent' : List (SenderId × Bytes)} {world world' world'' : DispatchWorld}
    (h : Sends sent world world') (h' : Sends sent' world' world'') :
    Sends (sent ++ sent') world world'' where
  accepted := by rw [h'.accepted, h.accepted, List.append_assoc]
  dispatchedSessions := h'.dispatchedSessions.trans h.dispatchedSessions
  lostShards := h'.lostShards.trans h.lostShards

section

variable (inputs : DispatchInputs)

/-- The state after an effect. -/
abbrev after (inputs : DispatchInputs) (effect : DispatchEffect) (world : DispatchWorld) :
    DispatchWorld :=
  (inputs.answer effect world).2

theorem sends_send (senderId : SenderId) (payload : Bytes) (world : DispatchWorld) :
    Sends (if inputs.outcomes world.attempts = .accepted then [(senderId, payload)] else []) world
      (after inputs (send senderId payload) world) := by
  refine ⟨?_, rfl, rfl⟩
  show (if inputs.outcomes world.attempts = .accepted then _ else _) = _
  by_cases h : inputs.outcomes world.attempts = .accepted
  · rw [if_pos h, if_pos h]
  · rw [if_neg h, if_neg h, List.append_nil]

/-- A log entry that reports no lost shard sends nothing. -/
theorem sends_log {entry : LogEntry} (h : entry.lostShards = []) (world : DispatchWorld) :
    Sends [] world (after inputs (log entry) world) where
  accepted := (List.append_nil _).symm
  dispatchedSessions := rfl
  lostShards := by
    show (world.logs ++ [entry]).flatMap LogEntry.lostShards = _
    rw [List.flatMap_append, List.flatMap_singleton, h, List.append_nil]
    rfl

theorem sends_removeSender (senderId : SenderId) (world : DispatchWorld) :
    Sends [] world (after inputs (removeSender senderId) world) :=
  ⟨(List.append_nil _).symm, rfl, rfl⟩

/-! ### Delivering one assignment -/

/-- What is accepted when the payload of an assignment is delivered, or not. -/
def deliveredPayload (assignment : ShardAssignment) (payload : Bytes) (delivered : Bool) :
    List (SenderId × Bytes) :=
  if delivered then [(assignment.senderId, payload)] else []

/-- One attempt, by its outcome. -/
theorem run_deliverLoop_cons (sessionId : SessionId) (assignment : ShardAssignment)
    (payload : Bytes) (attempt : ℕ) (attempts : List ℕ) (world : DispatchWorld) :
    (deliverLoop sessionId assignment payload (attempt :: attempts)).run inputs.answer world =
      let sent := after inputs (send assignment.senderId payload) world
      match inputs.outcomes world.attempts with
      | .accepted => (.ok true, sent)
      | .unknownSender =>
        (.ok false, after inputs (removeSender assignment.senderId)
          (after inputs (log (.dispatchSendFailed sessionId assignment.senderId
            "sender_disconnected")) sent))
      | .queueFull =>
        (deliverLoop sessionId assignment payload attempts).run inputs.answer
          (after inputs (log (.dispatchSendFailed sessionId assignment.senderId
            "send_queue_full")) sent) := by
  have houtcome : (inputs.answer (send assignment.senderId payload) world).1
      = inputs.outcomes world.attempts := rfl
  rw [deliverLoop, perform_bind, run_ask, houtcome]
  cases inputs.outcomes world.attempts with
  | accepted => rfl
  | unknownSender => rfl
  | queueFull =>
    -- the sleep before the next attempt changes nothing
    by_cases hlast : attempt < maxDispatchAttempts - 1
    · simp only [if_pos hlast]
      rfl
    · simp only [if_neg hlast]
      rfl

theorem run_deliverLoop (sessionId : SessionId) (assignment : ShardAssignment) (payload : Bytes)
    (attempts : List ℕ) (world : DispatchWorld) :
    ∃ delivered world',
      (deliverLoop sessionId assignment payload attempts).run inputs.answer world
        = (.ok delivered, world') ∧
      Sends (deliveredPayload assignment payload delivered) world world' := by
  induction attempts generalizing world with
  | nil => exact ⟨false, world, rfl, ⟨(List.append_nil _).symm, rfl, rfl⟩⟩
  | cons attempt attempts ih =>
    rw [run_deliverLoop_cons]
    have hsend := sends_send inputs assignment.senderId payload world
    rcases houtcome : inputs.outcomes world.attempts with _ | _ | _
    · rw [houtcome, if_pos rfl] at hsend
      exact ⟨true, _, rfl, hsend⟩
    · rw [houtcome, if_neg (by decide)] at hsend
      exact ⟨false, _, rfl, (hsend.trans (sends_log inputs rfl _)).trans (sends_removeSender inputs _ _)⟩
    · rw [houtcome, if_neg (by decide)] at hsend
      obtain ⟨delivered, world', hrun, hsends⟩ := ih _
      exact ⟨delivered, world', hrun, (hsend.trans (sends_log inputs rfl _)).trans hsends⟩

/-- **One assignment is handed over at most once.** -/
theorem run_deliver (sessionId : SessionId) (assignment : ShardAssignment) (payload : Bytes)
    (world : DispatchWorld) :
    ∃ delivered world',
      (deliver sessionId assignment payload).run inputs.answer world = (.ok delivered, world') ∧
      Sends (deliveredPayload assignment payload delivered) world world' :=
  run_deliverLoop inputs sessionId assignment payload _ world

/-! ### The loop over the assignments -/

section SendLoop

variable {pb : Protobuf} {dispatcher : SessionDispatcher} {sessionId : SessionId}
  {sourceFile : SourceFile}

/-- What is accepted when these assignments are delivered with these payloads. -/
def deliveredPayloads (delivered : List (ShardAssignment × Bytes)) : List (SenderId × Bytes) :=
  delivered.map fun entry => (entry.1.senderId, entry.2)

/-- The assignments are split into those delivered, with the payload built for each, and those lost. -/
structure Splits (pb : Protobuf) (dispatcher : SessionDispatcher) (sessionId : SessionId)
    (sourceFile : SourceFile) (assignments : List ShardAssignment)
    (delivered : List (ShardAssignment × Bytes)) (lost : List ShardAssignment) : Prop where
  perm : (delivered.map Prod.fst ++ lost).Perm assignments
  payload : ∀ entry ∈ delivered,
    dispatcher.buildPayload pb sessionId sourceFile entry.1 = .ok entry.2

/-- **The loop splits the assignments.** -/
theorem run_sendLoop {assignments : List ShardAssignment}
    (hbuild : ∀ assignment ∈ assignments, ∃ payload,
      dispatcher.buildPayload pb sessionId sourceFile assignment = .ok payload)
    (succeeded : List SenderId) (lostAssignments : List ShardAssignment) (world : DispatchWorld) :
    ∃ delivered lost world',
      (dispatcher.sendLoop pb sessionId sourceFile assignments succeeded lostAssignments).run
          inputs.answer world
        = (.ok (succeeded ++ (deliveredPayloads delivered).map Prod.fst, lostAssignments ++ lost),
            world') ∧
      Splits pb dispatcher sessionId sourceFile assignments delivered lost ∧
      Sends (deliveredPayloads delivered) world world' := by
  induction assignments generalizing succeeded lostAssignments world with
  | nil =>
    refine ⟨[], [], world, ?_, ⟨.nil, nofun⟩, ⟨(List.append_nil _).symm, rfl, rfl⟩⟩
    simp [SessionDispatcher.sendLoop, deliveredPayloads]
  | cons assignment assignments ih =>
    obtain ⟨payload, hpayload⟩ := hbuild assignment List.mem_cons_self
    have hrest := fun a ha => hbuild a (List.mem_cons_of_mem _ ha)
    obtain ⟨sent, world₁, hdeliver, hsends₁⟩ :=
      run_deliver inputs sessionId assignment payload world
    rw [SessionDispatcher.sendLoop, hpayload, ofExcept_ok, ret_bind, run_bind, hdeliver]
    cases sent with
    | true =>
      obtain ⟨delivered, lost, world', hrun, hsplits, hsends⟩ :=
        ih hrest (succeeded ++ [assignment.senderId]) lostAssignments
          (after inputs (log (.sessionDispatched sessionId assignment.senderId
            assignment.shardResidue assignment.shardModulus assignment.targetPort
            assignment.assignedBlocks.length)) world₁)
      refine ⟨(assignment, payload) :: delivered, lost, world', ?_, ?_, ?_⟩
      · simp only [reduceIte, perform_bind, run_ask]
        rw [hrun]
        simp [deliveredPayloads]
      · refine ⟨hsplits.perm.cons _, ?_⟩
        rintro entry (_ | ⟨_, hentry⟩)
        · exact hpayload
        · exact hsplits.payload entry hentry
      · exact (hsends₁.trans (sends_log inputs rfl _)).trans hsends
    | false =>
      obtain ⟨delivered, lost, world', hrun, hsplits, hsends⟩ :=
        ih hrest succeeded (lostAssignments ++ [assignment]) world₁
      refine ⟨delivered, assignment :: lost, world', ?_, ⟨?_, hsplits.payload⟩, hsends₁.trans hsends⟩
      · simp only [Bool.false_eq_true, reduceIte]
        rw [hrun, List.append_assoc]
        rfl
      -- the lost assignment comes after those delivered
      · exact List.perm_middle.trans (hsplits.perm.cons _)

/-- Where the first payload cannot be built, nothing happens. -/
theorem run_sendLoop_of_error {assignment : ShardAssignment} {assignments : List ShardAssignment}
    {e : PyError} (h : dispatcher.buildPayload pb sessionId sourceFile assignment = .error e)
    (succeeded : List SenderId) (lostAssignments : List ShardAssignment) (world : DispatchWorld) :
    (dispatcher.sendLoop pb sessionId sourceFile (assignment :: assignments) succeeded
        lostAssignments).run inputs.answer world = (.error e, world) := by
  rw [SessionDispatcher.sendLoop, h, ofExcept_error, raise_bind, run_raise]

/-- `_send_to_senders` reports every lost assignment in one log entry. -/
theorem run_sendToSenders {totalBlocks : ℤ} {activeSenders : List SenderId}
    (hne : activeSenders ≠ []) (hnodup : activeSenders.Nodup) (htotal : 0 ≤ totalBlocks)
    (hport : 0 < dispatcher.basePort)
    (hbuild : ∀ assignment ∈ shardAssignments totalBlocks activeSenders dispatcher.basePort,
      ∃ payload, dispatcher.buildPayload pb sessionId sourceFile assignment = .ok payload)
    (world : DispatchWorld) :
    ∃ delivered lost world',
      (dispatcher.sendToSenders pb sessionId sourceFile totalBlocks activeSenders).run inputs.answer
          world
        = (.ok (if deliveredPayloads delivered = [] then none
            else some ((deliveredPayloads delivered).map Prod.fst)), world') ∧
      Splits pb dispatcher sessionId sourceFile
        (shardAssignments totalBlocks activeSenders dispatcher.basePort) delivered lost ∧
      world'.accepted = world.accepted ++ deliveredPayloads delivered ∧
      world'.dispatchedSessions = world.dispatchedSessions ∧
      world'.lostShards = world.lostShards ++ lost.map ShardAssignment.lostShard := by
  obtain ⟨delivered, lost, world₁, hrun, hsplits, hsends⟩ :=
    run_sendLoop inputs hbuild [] [] world
  rw [SessionDispatcher.sendToSenders, deriveShardAssignments_eq_ok hne hnodup htotal hport,
    ofExcept_ok, ret_bind, run_bind, hrun]
  simp only [List.nil_append]
  by_cases hlost : lost = []
  · refine ⟨delivered, lost, world₁, ?_, hsplits, hsends.accepted, hsends.dispatchedSessions, ?_⟩
    · rw [if_neg (not_not.mpr hlost)]
      simp
    · rw [hsends.lostShards, hlost, List.map_nil, List.append_nil]
  · refine ⟨delivered, lost, after inputs (log (partialFailure sessionId lost)) world₁, ?_, hsplits,
      hsends.accepted, hsends.dispatchedSessions, ?_⟩
    · rw [if_pos hlost]
      simp
    · show (world₁.logs ++ [partialFailure sessionId lost]).flatMap LogEntry.lostShards = _
      rw [List.flatMap_append, List.flatMap_singleton, ← hsends.lostShards]
      rfl

end SendLoop

/-! ### The effects of a dispatch -/

section Uses

variable {pb : Protobuf} {dispatcher : SessionDispatcher} {sessionId : SessionId}
  {sourceFile : SourceFile} {P : DispatchEffect → Prop}

/-- The effects that delivering a payload needs besides sending. -/
structure AllowsDelivery (P : DispatchEffect → Prop) : Prop where
  log : ∀ entry, P (.log entry)
  removeSender : ∀ senderId, P (.removeSender senderId)
  sleep : ∀ seconds, P (.sleep seconds)

theorem deliverLoop_uses (hP : AllowsDelivery P) {assignment : ShardAssignment} {payload : Bytes}
    (hsend : P (send assignment.senderId payload)) (attempts : List ℕ) :
    (deliverLoop sessionId assignment payload attempts).Uses P := by
  induction attempts with
  | nil => exact uses_ret false
  | cons attempt attempts ih =>
    rw [deliverLoop, perform_bind, uses_ask]
    refine ⟨hsend, fun outcome => ?_⟩
    cases outcome with
    | accepted => exact uses_ret true
    -- a sender that is gone is removed, and not tried again
    | unknownSender => exact ⟨hP.log _, fun _ => ⟨hP.removeSender _, fun _ => uses_ret false⟩⟩
    | queueFull =>
      refine ⟨hP.log _, fun _ => ?_⟩
      by_cases hlast : attempt < maxDispatchAttempts - 1
      · simp only [if_pos hlast]
        exact ⟨hP.sleep _, fun _ => ih⟩
      · simp only [if_neg hlast]
        exact ih

theorem sendLoop_uses (hP : AllowsDelivery P) {assignments : List ShardAssignment}
    (hsend : ∀ assignment ∈ assignments, ∀ payload,
      dispatcher.buildPayload pb sessionId sourceFile assignment = .ok payload →
        P (send assignment.senderId payload))
    (succeeded : List SenderId)
    (lostAssignments : List ShardAssignment) :
    (dispatcher.sendLoop pb sessionId sourceFile assignments succeeded lostAssignments).Uses P := by
  induction assignments generalizing succeeded lostAssignments with
  | nil => exact uses_ret _
  | cons assignment assignments ih =>
    rw [SessionDispatcher.sendLoop]
    rcases hbuild : dispatcher.buildPayload pb sessionId sourceFile assignment with e | payload
    · exact uses_raise e
    · have hrest := fun a ha => hsend a (List.mem_cons_of_mem _ ha)
      rw [ofExcept_ok, ret_bind]
      refine (deliverLoop_uses hP (hsend assignment List.mem_cons_self payload hbuild) _).bind
        fun delivered => ?_
      cases delivered with
      | true => exact ⟨hP.log _, fun _ => ih hrest _ _⟩
      | false => exact ih hrest _ _

/-- **What a dispatch does once it has a session id**: it delivers payloads it has built for its
assignments, and tracks that session. -/
theorem dispatchSession_uses (hP : AllowsDelivery P) {ids : List SenderId}
    (hsend : ∀ totalBlocks assignments,
      deriveShardAssignments totalBlocks ids dispatcher.basePort = .ok assignments →
      ∀ assignment ∈ assignments, ∀ payload,
        dispatcher.buildPayload pb sessionId sourceFile assignment = .ok payload →
          P (send assignment.senderId payload))
    (htrack : ∀ senderIds, P (trackSession sessionId senderIds)) :
    (dispatcher.dispatchSession pb sourceFile ids sessionId).Uses P := by
  unfold SessionDispatcher.dispatchSession
  refine (uses_ofExcept _).bind fun totalBlocks => ?_
  refine Uses.bind ?_ fun succeeded => ?_
  · unfold SessionDispatcher.sendToSenders
    rcases hderive : deriveShardAssignments totalBlocks ids dispatcher.basePort with e | assignments
    · exact uses_raise e
    · rw [ofExcept_ok, ret_bind]
      refine (sendLoop_uses hP (hsend totalBlocks assignments hderive) [] []).bind
        fun (succeeded, lost) => ?_
      by_cases hlost : lost ≠ []
      · simp only [if_pos hlost]
        exact ⟨hP.log _, fun _ => uses_ret _⟩
      · simp only [if_neg hlost]
        exact uses_ret _
  · cases succeeded with
    | none => exact uses_ret none
    | some senderIds => exact ⟨htrack senderIds, fun _ => uses_ret _⟩

end Uses

/-! ### Measuring the file -/

theorem runDispatch_of_stat_error {inputs : DispatchInputs} {pb : Protobuf}
    {dispatcher : SessionDispatcher} {reason : String} (hstat : inputs.stat = .error reason)
    {path : PosixPath} {world : DispatchWorld} :
    runDispatch pb dispatcher inputs path world = (.error (.stat reason), world) := by
  have hstat' : inputs.answer (stat path) world = (.error reason, world) := by
    rw [← hstat]
    rfl
  rw [runDispatch, SessionDispatcher.dispatch, perform_bind, run_ask, hstat']
  rfl

theorem runDispatch_of_hash_error {inputs : DispatchInputs} {pb : Protobuf}
    {dispatcher : SessionDispatcher} {size : ℕ} {reason : String} (hstat : inputs.stat = .ok size)
    (hhash : inputs.hash = .error reason) {path : PosixPath} {world : DispatchWorld} :
    runDispatch pb dispatcher inputs path world = (.error (.hasher reason), world) := by
  have hstat' : inputs.answer (stat path) world = (.ok size, world) := by
    rw [← hstat]
    rfl
  have hhash' : inputs.answer (computeHash path) world = (.error reason, world) := by
    rw [← hhash]
    rfl
  rw [runDispatch, SessionDispatcher.dispatch, perform_bind, run_ask, hstat']
  show run inputs.answer (perform (computeHash path) >>= _) world = _
  rw [perform_bind, run_ask, hhash']
  rfl

/-- Once the file is measured, the rest of a dispatch is `dispatchMeasured`. -/
theorem runDispatch_of_measured {inputs : DispatchInputs} (pb : Protobuf) (dispatcher : SessionDispatcher)
    {size : ℕ} {hash : String} (hstat : inputs.stat = .ok size) (hhash : inputs.hash = .ok hash)
    (path : PosixPath) (world : DispatchWorld) :
    runDispatch pb dispatcher inputs path world
      = (dispatcher.dispatchMeasured pb ⟨path, size, hash⟩).run inputs.answer world := by
  have hstat' : inputs.answer (stat path) world = (.ok size, world) := by
    rw [← hstat]
    rfl
  have hhash' : inputs.answer (computeHash path) world = (.ok hash, world) := by
    rw [← hhash]
    rfl
  rw [runDispatch, SessionDispatcher.dispatch, perform_bind, run_ask, hstat']
  show run inputs.answer (perform (computeHash path) >>= _) world = _
  rw [perform_bind, run_ask, hhash']
  rfl

end

end FileMonitor
