import FileMonitor.Config
import FileMonitor.Services.Equiv.Coverage

/-!
# A failing dispatch has no effect

The loop of a dispatch checks its arguments again for every sender, after earlier senders may already
hold their shard.  Only the shard residue and the port differ between the senders, so every check gives
all of them the same verdict (`buildPayload_of_sibling`), and a dispatch that raises does so before it
has sent anything: `failing_dispatch_changes_nothing`.
-/

namespace FileMonitor

open Coroutine DispatchEffect

/-! ### The protobuf runtime -/

/-- The same message for another shard. -/
def AssignSession.withShard (assignSession : AssignSession) (senderId targetPort : ℤ) :
    AssignSession :=
  { assignSession with
    manifest := { assignSession.manifest with senderId := senderId }
    targetPort := targetPort }

/-- Building and serialising an `AssignSession` does not depend on the values of the shard index and
the port, as long as they fit their fields. -/
structure Protobuf.ShardIndependent (pb : Protobuf) : Prop where
  setSenderId : ∀ i j, fitsUnsigned 32 i → fitsUnsigned 32 j →
    pb.setSenderId i = .ok () → pb.setSenderId j = .ok ()
  newAssignSession : ∀ (assignSession : AssignSession) (i j p q : ℤ), fitsUnsigned 32 i → fitsUnsigned 32 j →
    fitsUnsigned 32 p → fitsUnsigned 32 q →
    pb.newAssignSession (assignSession.withShard i p) = .ok () →
    pb.newAssignSession (assignSession.withShard j q) = .ok ()
  serializeToString : ∀ (assignSession : AssignSession) (i j p q : ℤ), fitsUnsigned 32 i → fitsUnsigned 32 j →
    fitsUnsigned 32 p → fitsUnsigned 32 q →
    (∃ raw, pb.serializeToString ⟨some (.assignSession (assignSession.withShard i p))⟩ = .ok raw) →
    ∃ raw, pb.serializeToString ⟨some (.assignSession (assignSession.withShard j q))⟩ = .ok raw

theorem fitsUnsigned_iff {w : ℕ} {x : ℤ} : fitsUnsigned w x ↔ 0 ≤ x ∧ x < 2 ^ w := by
  unfold fitsUnsigned
  rw [Bool.and_eq_true, decide_eq_true_iff, decide_eq_true_iff]

section

variable {pb : Protobuf} {dispatcher : SessionDispatcher} {inputs : DispatchInputs}
  {sessionId : SessionId} {sourceFile : SourceFile} {totalBlocks : ℤ} {ids : List SenderId}

/-! ### One verdict for all senders -/

/-- Where the payload of one sender can be built, that of every sender can. -/
theorem buildPayload_of_sibling (independent : pb.ShardIndependent) (hport : 0 < dispatcher.basePort)
    (hfits : dispatcher.basePort + ids.length ≤ 2 ^ 32) {assignment sibling : ShardAssignment}
    (hmem : assignment ∈ shardAssignments totalBlocks ids dispatcher.basePort)
    (hsibling : sibling ∈ shardAssignments totalBlocks ids dispatcher.basePort) {payload : Bytes}
    (h : dispatcher.buildPayload pb sessionId sourceFile assignment = .ok payload) :
    ∃ payload', dispatcher.buildPayload pb sessionId sourceFile sibling = .ok payload' := by
  obtain ⟨i, senderId, hi, rfl⟩ := mem_shardAssignments.mp hmem
  obtain ⟨j, senderId', hj, rfl⟩ := mem_shardAssignments.mp hsibling
  have hilt : i < ids.length := (List.getElem?_eq_some_iff.mp hi).1
  have hjlt : j < ids.length := (List.getElem?_eq_some_iff.mp hj).1
  -- residues and ports of all senders fit their fields
  have hfit (x : ℤ) (h0 : 0 ≤ x) (hlt : x < dispatcher.basePort + ids.length) :
      fitsUnsigned 32 x := fitsUnsigned_iff.mpr ⟨h0, hlt.trans_le hfits⟩
  have hiFits := hfit i (by omega) (by omega)
  have hjFits := hfit j (by omega) (by omega)
  have hpFits := hfit (dispatcher.basePort + i) (by omega) (by omega)
  have hqFits := hfit (dispatcher.basePort + j) (by omega) (by omega)
  unfold SessionDispatcher.buildPayload at h ⊢
  obtain ⟨manifest, hmanifest, h⟩ := bind_eq_ok_iff.mp h
  obtain ⟨assignSession, hassign, h⟩ := bind_eq_ok_iff.mp h
  obtain ⟨hsize, fileHashBytes, filepath, blockCount, hhash, hpath, hcount, hnew, -, -, hset, rfl⟩ :=
    buildManifest_eq_ok_iff.mp hmanifest
  obtain ⟨hnew', rfl⟩ := buildAssignSession_eq_ok_iff.mp hassign
  have hset' := independent.setSenderId i j hiFits hjFits hset
  let message : AssignSession :=
    assignSessionOf dispatcher sessionId sourceFile
      (shardAssignment totalBlocks dispatcher.basePort ids.length senderId i) fileHashBytes filepath
      blockCount
  have hnewSibling : pb.newAssignSession (message.withShard j (dispatcher.basePort + j)) = .ok () :=
    independent.newAssignSession message i j (dispatcher.basePort + i) (dispatcher.basePort + j)
      hiFits hjFits hpFits hqFits hnew'
  obtain ⟨raw, hraw⟩ := independent.serializeToString message i j (dispatcher.basePort + i)
    (dispatcher.basePort + j) hiFits hjFits hpFits hqFits ⟨payload, raiseProtobuf_eq_ok.mp h⟩
  refine ⟨raw, bind_eq_ok_iff.mpr ⟨_, buildManifest_eq_ok_iff.mpr ⟨hsize, fileHashBytes, filepath,
    blockCount, hhash, hpath, hcount, hnew, ?_, ?_, hset', rfl⟩, bind_eq_ok_iff.mpr
      ⟨_, buildAssignSession_eq_ok_iff.mpr ⟨hnewSibling, rfl⟩, raiseProtobuf_eq_ok.mpr hraw⟩⟩⟩
  · show (0 : ℤ) ≤ j
    omega
  · show (j : ℤ) < ids.length
    omega

/-- What building a payload raises does not come from a check of the shard arguments. -/
theorem not_ofShardChecks_of_buildPayload {assignment : ShardAssignment}
    (hmem : assignment ∈ shardAssignments totalBlocks ids dispatcher.basePort) {e : PyError}
    (h : dispatcher.buildPayload pb sessionId sourceFile assignment = .error e) :
    ¬ e.OfShardChecks := by
  obtain ⟨i, senderId, hi, rfl⟩ := mem_shardAssignments.mp hmem
  have hilt : i < ids.length := (List.getElem?_eq_some_iff.mp hi).1
  unfold SessionDispatcher.buildPayload at h
  rcases bind_eq_error_iff.mp h with h | ⟨manifest, -, h⟩
  · refine not_ofShardChecks_of_buildManifest ?_ ?_ h
    · show (0 : ℤ) ≤ i
      omega
    · show (i : ℤ) < ids.length
      omega
  · rcases bind_eq_error_iff.mp h with h | ⟨assignSession, -, h⟩
    · exact not_ofShardChecks_of_buildAssignSession h
    · exact not_ofShardChecks_of_raiseProtobuf h

/-! ### A whole call -/

/-- The state has sent nothing and tracks what it tracked, and the exception does not come from a check
of the shard arguments. -/
structure Untouched (world world' : DispatchWorld) (e : PyError) : Prop where
  accepted : world'.accepted = world.accepted
  dispatchedSessions : world'.dispatchedSessions = world.dispatchedSessions
  notOfShardChecks : ¬ e.OfShardChecks

/-- A dispatch of a measured file raises only before it has sent anything. -/
theorem run_dispatchMeasured_error (independent : pb.ShardIndependent)
    (hblock : 0 < dispatcher.fecParams.blockSize) (hport : 0 < dispatcher.basePort)
    {world world' : DispatchWorld} {size : ℕ} (hsize : sourceFile.sizeBytes = size)
    (hids : inputs.active world.registry = ids) (hfits : dispatcher.basePort + ids.length ≤ 2 ^ 32)
    {e : PyError}
    (h : (dispatcher.dispatchMeasured pb sourceFile).run inputs.answer world = (.error e, world')) :
    Untouched world world' e := by
  subst hids
  by_cases hactive : inputs.active world.registry = []
  · -- no active senders: nothing is raised
    have hids : (inputs.answer DispatchEffect.activeSenders world).1 = [] := hactive
    rw [SessionDispatcher.dispatchMeasured, perform_bind, run_ask, if_pos hids] at h
    cases h
  rcases hcount : calculateBlockCount sourceFile.sizeBytes dispatcher.fecParams with e' | totalBlocks
  · -- the block count cannot be computed
    have hids : (inputs.answer DispatchEffect.activeSenders world).1 ≠ [] := hactive
    rw [SessionDispatcher.dispatchMeasured, perform_bind, run_ask, if_neg hids, perform_bind, run_ask,
      SessionDispatcher.dispatchSession, hcount] at h
    cases h
    exact ⟨rfl, rfl, not_ofShardChecks_of_calculateBlockCount hcount⟩
  have htotal : 0 ≤ totalBlocks := calculateBlockCount_nonneg hblock (hsize ▸ hcount)
  have hlength := length_shardAssignments totalBlocks (inputs.active world.registry)
    dispatcher.basePort
  rcases hcons : shardAssignments totalBlocks (inputs.active world.registry) dispatcher.basePort
    with _ | ⟨assignment, assignments⟩
  · rw [hcons] at hlength
    exact absurd (List.length_eq_zero_iff.mp hlength.symm) hactive
  have hmem : assignment ∈ shardAssignments totalBlocks (inputs.active world.registry)
      dispatcher.basePort := hcons ▸ List.mem_cons_self
  rcases hbuild : dispatcher.buildPayload pb inputs.sessionId sourceFile assignment with e' | payload
  · -- the first payload cannot be built
    have hids : (inputs.answer DispatchEffect.activeSenders world).1
        = inputs.active world.registry := rfl
    have hid (world : DispatchWorld) :
        inputs.answer generateSessionId world = (inputs.sessionId, world) := rfl
    rw [SessionDispatcher.dispatchMeasured, perform_bind, run_ask, hids, if_neg hactive, perform_bind,
      run_ask, hid, SessionDispatcher.dispatchSession, hcount, ofExcept_ok, ret_bind, run_bind,
      SessionDispatcher.sendToSenders,
      deriveShardAssignments_eq_ok hactive (SenderRegistry.nodup_activeSenders _ _) htotal hport,
      ofExcept_ok, ret_bind, hcons, run_bind, run_sendLoop_of_error inputs hbuild] at h
    cases h
    exact ⟨rfl, rfl, not_ofShardChecks_of_buildPayload hmem hbuild⟩
  · -- every payload can be built: nothing is raised
    obtain ⟨delivered, lost, world₁, hrun, -⟩ :=
      run_dispatchMeasured sourceFile world hactive hcount htotal hport fun sibling hsibling =>
        buildPayload_of_sibling independent hport hfits hmem hsibling hbuild
    rw [hrun] at h
    cases h

/-- **A failing dispatch has no effect.**  Under a valid configuration, whatever `stat`, the hasher and
the attempts to send do: a dispatch that raises has had no payload accepted and has left the tracked
sessions as they were, and what it raises is not a `ValueError` of `derive_shard_assignments` or
`apply_shard`. -/
theorem failing_dispatch_changes_nothing (independent : pb.ShardIndependent)
    {watchPathKind : WatchPathKind} {appConfig : AppConfig}
    (hvalid : validateConfig watchPathKind appConfig = .ok ())
    (hfec : dispatcher.fecParams = appConfig.fec)
    (hbasePort : dispatcher.basePort = appConfig.senders.basePort) {registry : SenderRegistry}
    (hfits : dispatcher.basePort + (inputs.active registry).length ≤ 2 ^ 32)
    {dispatchedSessions : DispatchedSessions} {path : PosixPath} {e : PyError}
    (hraise : (runDispatch pb dispatcher inputs path (.start registry dispatchedSessions)).1
      = .error e) :
    let world := (runDispatch pb dispatcher inputs path (.start registry dispatchedSessions)).2
    world.accepted = [] ∧ world.dispatchedSessions = dispatchedSessions ∧
      ¬ e.OfDeriveShardAssignments ∧ ¬ e.OfApplyShard := by
  obtain ⟨-, -, hcheckFec, hcheckSenders⟩ := validateConfig_eq_ok_iff.mp hvalid
  obtain ⟨hk, -, -, hsymbol, -⟩ := checkFec_eq_ok_iff.mp hcheckFec
  obtain ⟨-, -, hminPort, -⟩ := checkSenders_eq_ok_iff.mp hcheckSenders
  have hblock : 0 < dispatcher.fecParams.blockSize := by
    rw [hfec]
    exact Int.mul_pos hk hsymbol
  have hport : 0 < dispatcher.basePort := by
    have : minPort = 1 := rfl
    omega
  rcases hresult : runDispatch pb dispatcher inputs path (.start registry dispatchedSessions)
    with ⟨result, world⟩
  rw [hresult] at hraise
  obtain rfl : result = .error e := hraise
  have huntouched : Untouched (.start registry dispatchedSessions) world e := by
    rcases hstat : inputs.stat with reason | size
    · rw [runDispatch_of_stat_error hstat] at hresult
      obtain ⟨⟨⟩, rfl⟩ := hresult
      exact ⟨rfl, rfl, by rintro (h | h) <;> exact h⟩
    rcases hhash : inputs.hash with reason | hash
    · rw [runDispatch_of_hash_error hstat hhash] at hresult
      obtain ⟨⟨⟩, rfl⟩ := hresult
      exact ⟨rfl, rfl, by rintro (h | h) <;> exact h⟩
    rw [runDispatch_of_measured pb dispatcher hstat hhash] at hresult
    have hsize : (⟨path, size, hash⟩ : SourceFile).sizeBytes = size := rfl
    have hids : inputs.active (DispatchWorld.start registry dispatchedSessions).registry
        = inputs.active registry := rfl
    exact run_dispatchMeasured_error independent hblock hport hsize hids hfits hresult
  exact ⟨huntouched.accepted, huntouched.dispatchedSessions,
    fun h => huntouched.notOfShardChecks (.inl h), fun h => huntouched.notOfShardChecks (.inr h)⟩

end

/-! ### An instance -/

/-- A runtime that checks the unsigned ranges of an `AssignSession` and writes all messages alike. -/
def rangeProtobuf : Protobuf :=
  { Protobuf.ofTable [] with
    newAssignSession := fun assignSession =>
      if fitsUnsigned 32 assignSession.totalSenders ∧ fitsUnsigned 32 assignSession.targetPort then
        .ok ()
      else .error "Value out of range"
    serializeToString := fun _ => .ok [0x32] }

theorem rangeProtobuf_shardIndependent : rangeProtobuf.ShardIndependent where
  setSenderId i j _ hj _ := if_pos hj
  newAssignSession assignSession i j p q _ _ _ hq h := by
    by_cases hsenders : fitsUnsigned 32 assignSession.totalSenders = true
    · exact if_pos ⟨hsenders, hq⟩
    · have hnot : rangeProtobuf.newAssignSession (assignSession.withShard i p)
          = .error "Value out of range" := if_neg fun hboth => hsenders hboth.1
      rw [hnot] at h
      cases h
  serializeToString _ _ _ _ _ _ _ _ _ _ := ⟨[0x32], rfl⟩

/-- The configuration of `tenBlocksDispatcher`. -/
def tenBlocksConfig : AppConfig where
  paths := ⟨.parse ['/', 'w'], .parse ['/', 's']⟩
  pacing := ⟨20000000, 5000000⟩
  fec := tenBlocksDispatcher.fecParams
  senders := ⟨"127.0.0.1", 9000, "./bin/nexus-sender", 2⟩

/-- The path `/x`, outside the watch root. -/
def outsidePath : PosixPath := .parse ['/', 'x']

/-- A path outside the watch root raises, with two active senders waiting. -/
theorem failing_dispatch_changes_nothing_outside :
    let result := runDispatch rangeProtobuf tenBlocksDispatcher tenBlocksInputs outsidePath
      (.start tenBlocksRegistry ∅)
    result.1 = .error (.notUnderWatchRoot outsidePath tenBlocksDispatcher.watchRoot) ∧
      result.2.accepted = [] ∧ result.2.dispatchedSessions = ∅ := by
  have hraise : (runDispatch rangeProtobuf tenBlocksDispatcher tenBlocksInputs outsidePath
      (.start tenBlocksRegistry ∅)).1
        = .error (.notUnderWatchRoot outsidePath tenBlocksDispatcher.watchRoot) := by decide +kernel
  have hvalid : validateConfig .directory tenBlocksConfig = .ok () := by decide +kernel
  have hfits : tenBlocksDispatcher.basePort + (tenBlocksInputs.active tenBlocksRegistry).length
      ≤ 2 ^ 32 := by decide +kernel
  obtain ⟨haccepted, hsessions, -⟩ := failing_dispatch_changes_nothing rangeProtobuf_shardIndependent
    hvalid rfl rfl hfits hraise
  exact ⟨hraise, haccepted, hsessions⟩

end FileMonitor
