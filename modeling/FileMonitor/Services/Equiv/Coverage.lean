import FileMonitor.Services.Equiv.Dispatcher

/-!
# One dispatch accounts for every byte

A receiver learns its blocks from the wire fields alone: `coversByte` is that test.  The log of a
partial failure names the blocks of a lost shard by residue and modulus: `LostShard.hasBlock`.

* `run_dispatchMeasured`: the delivered and the lost assignments of a dispatch make up all assignments.
* `dispatch_covers_every_byte`: after a dispatch every byte of the file is covered by exactly one
  accepted payload, or its block is in exactly one lost shard, whatever the attempts to send did.
-/

namespace FileMonitor

open Coroutine DispatchEffect

/-- The receiver's test: whether the block of byte `o` exists and belongs to the shard of this
payload. -/
def coversByte (pb : Protobuf) (payload : Bytes) (o : ℕ) : Bool :=
  match decode pb payload with
  | .ok (.assignSession assignSession) =>
    let manifest := assignSession.manifest
    let blockId : ℤ := o / (manifest.k * manifest.blockBytes)
    blockId < manifest.totalBlocks && blockId % assignSession.totalSenders = manifest.senderId
  | _ => false

/-- Whether a block belongs to a lost shard. -/
def LostShard.hasBlock (lostShard : LostShard) (blockId : BlockId) : Bool :=
  blockId % lostShard.shardModulus = lostShard.shardResidue

section

variable {pb : Protobuf} {dispatcher : SessionDispatcher} {inputs : DispatchInputs}
  {registry : SenderRegistry} {dispatchedSessions : DispatchedSessions} {path : PosixPath}

/-- The senders a dispatch is shared among. -/
abbrev DispatchInputs.active (inputs : DispatchInputs) (registry : SenderRegistry) : List SenderId :=
  (registry.activeSenders inputs.now).1

/-! ### The whole call -/

/-- A dispatch of a measured file, when there are active senders and every payload can be built. -/
theorem run_dispatchMeasured {totalBlocks : ℤ} (sourceFile : SourceFile) (world : DispatchWorld)
    (hactive : inputs.active world.registry ≠ [])
    (hcount : calculateBlockCount sourceFile.sizeBytes dispatcher.fecParams = .ok totalBlocks)
    (htotal : 0 ≤ totalBlocks) (hport : 0 < dispatcher.basePort)
    (hbuild : ∀ assignment ∈ shardAssignments totalBlocks (inputs.active world.registry)
        dispatcher.basePort,
      ∃ payload, dispatcher.buildPayload pb inputs.sessionId sourceFile assignment = .ok payload) :
    ∃ delivered lost world',
      (dispatcher.dispatchMeasured pb sourceFile).run inputs.answer world
        = (.ok (if deliveredPayloads delivered = [] then none else some inputs.sessionId), world') ∧
      Splits pb dispatcher inputs.sessionId sourceFile
        (shardAssignments totalBlocks (inputs.active world.registry) dispatcher.basePort) delivered
        lost ∧
      world'.accepted = world.accepted ++ deliveredPayloads delivered ∧
      world'.lostShards = world.lostShards ++ lost.map ShardAssignment.lostShard := by
  obtain ⟨delivered, lost, world₁, hrun, hsplits, haccepted, -, hlost⟩ :=
    run_sendToSenders inputs hactive (SenderRegistry.nodup_activeSenders _ _) htotal hport
      hbuild (after inputs DispatchEffect.activeSenders world)
  have hbody : (dispatcher.dispatchMeasured pb sourceFile).run inputs.answer world
      = if deliveredPayloads delivered = [] then (.ok none, world₁)
        else
          (.ok (some inputs.sessionId),
            after inputs (trackSession inputs.sessionId
              ((deliveredPayloads delivered).map Prod.fst)) world₁) := by
    have hids : (inputs.answer DispatchEffect.activeSenders world).1
        = inputs.active world.registry := rfl
    have hid (world : DispatchWorld) :
        inputs.answer generateSessionId world = (inputs.sessionId, world) := rfl
    rw [SessionDispatcher.dispatchMeasured, perform_bind, run_ask, hids, if_neg hactive,
      perform_bind, run_ask, hid, SessionDispatcher.dispatchSession, hcount, ofExcept_ok, ret_bind,
      run_bind, hrun]
    by_cases h : deliveredPayloads delivered = []
    · simp only [if_pos h]
      rfl
    · simp only [if_neg h]
      rfl
  by_cases h : deliveredPayloads delivered = []
  · refine ⟨delivered, lost, world₁, ?_, hsplits, haccepted, hlost⟩
    rw [hbody, if_pos h, if_pos h]
  · refine ⟨delivered, lost, after inputs (trackSession inputs.sessionId
      ((deliveredPayloads delivered).map Prod.fst)) world₁, ?_, hsplits, haccepted, hlost⟩
    rw [hbody, if_neg h, if_neg h]

/-! ### The accepted payloads -/

section Splits

variable {sessionId : SessionId} {sourceFile : SourceFile} {totalBlocks : ℤ} {ids : List SenderId}
  {delivered : List (ShardAssignment × Bytes)} {lost : List ShardAssignment}

/-- No sender is handed two payloads. -/
theorem nodup_senders_of_splits (hnodup : ids.Nodup)
    (hsplits : Splits pb dispatcher sessionId sourceFile
      (shardAssignments totalBlocks ids dispatcher.basePort) delivered lost) :
    ((deliveredPayloads delivered).map Prod.fst).Nodup := by
  have hperm := hsplits.perm.map ShardAssignment.senderId
  rw [map_senderId_shardAssignments, List.map_append] at hperm
  have hall := (hperm.nodup_iff.mpr hnodup).of_append_left
  simpa [deliveredPayloads, Function.comp_def] using hall

/-- **Every accepted payload** carries the message for the sender it was accepted for. -/
theorem decode_of_splits (lawful : pb.Lawful)
    (hcount : calculateBlockCount sourceFile.sizeBytes dispatcher.fecParams = .ok totalBlocks)
    (hsplits : Splits pb dispatcher sessionId sourceFile
      (shardAssignments totalBlocks ids dispatcher.basePort) delivered lost)
    {entry : ShardAssignment × Bytes} (hentry : entry ∈ delivered) :
    ∃ (i : ℕ) (fileHashBytes : Bytes) (filepath : String),
      ids[i]? = some entry.1.senderId ∧
      entry.1 = shardAssignment totalBlocks dispatcher.basePort ids.length entry.1.senderId i ∧
      decode pb entry.2 = .ok (.assignSession (assignSessionOf dispatcher sessionId sourceFile
        entry.1 fileHashBytes filepath totalBlocks)) := by
  have hmem : entry.1 ∈ shardAssignments totalBlocks ids dispatcher.basePort :=
    hsplits.perm.mem_iff.mp (List.mem_append_left _ (List.mem_map_of_mem hentry))
  obtain ⟨i, senderId, hi, hassignment⟩ := mem_shardAssignments.mp hmem
  obtain ⟨fileHashBytes, filepath, totalBlocks', -, -, hcount', hencode⟩ :=
    encode_of_buildPayload (hsplits.payload entry hentry)
  obtain rfl : totalBlocks = totalBlocks' := Except.ok.inj (hcount.symm.trans hcount')
  have hsender : entry.1.senderId = senderId := by rw [hassignment]; rfl
  refine ⟨i, fileHashBytes, filepath, ?_, ?_, decode_encode lawful hencode⟩
  · rw [hsender]; exact hi
  · rw [hsender]; exact hassignment

/-- The number of accepted payloads that cover a byte, in terms of the delivered assignments. -/
theorem countP_coversByte (lawful : pb.Lawful)
    (hcount : calculateBlockCount sourceFile.sizeBytes dispatcher.fecParams = .ok totalBlocks)
    (hsplits : Splits pb dispatcher sessionId sourceFile
      (shardAssignments totalBlocks ids dispatcher.basePort) delivered lost) {o : ℕ}
    {blockId : BlockId} (ho : (o : ℤ) / dispatcher.fecParams.blockSize = blockId)
    (hlt : blockId < totalBlocks) :
    (deliveredPayloads delivered).countP (fun entry => coversByte pb entry.2 o)
      = (delivered.map Prod.fst).countP (fun assignment =>
          assignment.shardResidue = blockId % (ids.length : ℤ)) := by
  rw [deliveredPayloads, List.countP_map, List.countP_map]
  refine List.countP_congr fun entry hentry => ?_
  obtain ⟨i, fileHashBytes, filepath, -, hassignment, hdecode⟩ :=
    decode_of_splits lawful hcount hsplits hentry
  have hmodulus : entry.1.shardModulus = ids.length := by rw [hassignment]; rfl
  simp only [Function.comp_apply, coversByte, hdecode, assignSessionOf, hmodulus]
  show ((decide ((o : ℤ) / dispatcher.fecParams.blockSize < totalBlocks) &&
    decide ((o : ℤ) / dispatcher.fecParams.blockSize % (ids.length : ℤ) = entry.1.shardResidue))
      = true) ↔ _
  rw [ho, decide_eq_true hlt, Bool.true_and, decide_eq_true_iff, decide_eq_true_iff]
  exact eq_comm

/-- The number of lost shards that have a block, in terms of the lost assignments. -/
theorem countP_hasBlock
    (hsplits : Splits pb dispatcher sessionId sourceFile
      (shardAssignments totalBlocks ids dispatcher.basePort) delivered lost) (blockId : BlockId) :
    (lost.map ShardAssignment.lostShard).countP (fun lostShard => lostShard.hasBlock blockId)
      = lost.countP (fun assignment =>
          assignment.shardResidue = blockId % (ids.length : ℤ)) := by
  rw [List.countP_map]
  refine List.countP_congr fun assignment hmem => ?_
  have hmem' : assignment ∈ shardAssignments totalBlocks ids dispatcher.basePort :=
    hsplits.perm.mem_iff.mp (List.mem_append_right _ hmem)
  obtain ⟨i, senderId, -, rfl⟩ := mem_shardAssignments.mp hmem'
  have hiff : (shardAssignment totalBlocks dispatcher.basePort ids.length senderId
      i).lostShard.hasBlock blockId = true ↔ blockId % (ids.length : ℤ) = i := decide_eq_true_iff
  rw [Function.comp_apply, hiff, decide_eq_true_iff]
  exact eq_comm

end Splits

/-! ### Coverage -/

/-- The planner accepts its arguments for the sender at position `senderIndex` of `shardModulus`. -/
def PlannerAccepts (pb : Protobuf) (dispatcher : SessionDispatcher) (sessionId : SessionId)
    (sourceFile : SourceFile) (shardModulus senderIndex : ℕ) : Prop :=
  ∃ manifest assignSession,
    buildManifest pb sourceFile dispatcher.fecParams sessionId senderIndex shardModulus
      dispatcher.watchRoot = .ok manifest ∧
    buildAssignSession pb manifest shardModulus dispatcher.targetHost
      (dispatcher.basePort + senderIndex) sourceFile.path.str = .ok assignSession

theorem buildPayload_of_plannerAccepts (lawful : pb.Lawful) {sessionId : SessionId}
    {sourceFile : SourceFile} {ids : List SenderId} {totalBlocks : ℤ}
    (haccepts : ∀ i < ids.length,
      PlannerAccepts pb dispatcher sessionId sourceFile ids.length i)
    {assignment : ShardAssignment}
    (hmem : assignment ∈ shardAssignments totalBlocks ids dispatcher.basePort) :
    ∃ payload, dispatcher.buildPayload pb sessionId sourceFile assignment = .ok payload := by
  obtain ⟨i, senderId, hi, rfl⟩ := mem_shardAssignments.mp hmem
  obtain ⟨hlt, -⟩ := List.getElem?_eq_some_iff.mp hi
  obtain ⟨manifest, assignSession, hmanifest, hassign⟩ := haccepts i hlt
  obtain ⟨hnew, -⟩ := buildAssignSession_eq_ok_iff.mp hassign
  obtain ⟨raw, hraw⟩ := lawful.serialize_assignSession _ hnew
  refine ⟨raw, ?_⟩
  unfold SessionDispatcher.buildPayload
  refine bind_eq_ok_iff.mpr ⟨manifest, hmanifest, bind_eq_ok_iff.mpr ⟨assignSession, hassign, ?_⟩⟩
  rw [(buildAssignSession_eq_ok_iff.mp hassign).2]
  exact raiseProtobuf_eq_ok.mpr hraw

/-- **One dispatch accounts for every byte.**  Whatever the attempts to send did: no sender is handed
two payloads; all accepted payloads name the same session, block count and number of senders, and the
position of their sender among the active ones; and the block of every byte of the file belongs either
to exactly one accepted payload or to exactly one lost shard. -/
theorem dispatch_covers_every_byte (lawful : pb.Lawful) {size : ℕ} {hash : String}
    (hstat : inputs.stat = .ok size) (hhash : inputs.hash = .ok hash) (hsize : size ≤ 2 ^ 53)
    (hk : 1 ≤ dispatcher.fecParams.k) (hsymbol : 1 ≤ dispatcher.fecParams.symbolBytes)
    (hport : 1 ≤ dispatcher.basePort) (hactive : inputs.active registry ≠ [])
    (haccepts : ∀ i < (inputs.active registry).length, PlannerAccepts pb dispatcher inputs.sessionId
      ⟨path, size, hash⟩ (inputs.active registry).length i) :
    let active := inputs.active registry
    let result := runDispatch pb dispatcher inputs path (.start registry dispatchedSessions)
    let accepted := result.2.accepted
    let lost := result.2.lostShards
    result.1 = .ok (if accepted = [] then none else some inputs.sessionId) ∧
    (∀ senderId, (accepted.map Prod.fst).count senderId ≤ 1) ∧
    (∀ entry ∈ accepted, entry.1 ∈ active ∧
      ∃ assignSession, decode pb entry.2 = .ok (.assignSession assignSession) ∧
        assignSession.manifest.sessionId = inputs.sessionId ∧
        assignSession.manifest.totalBlocks = ⌈(size : ℚ) / dispatcher.fecParams.blockSize⌉ ∧
        assignSession.totalSenders = active.length ∧
        assignSession.manifest.senderId = active.countP (· < entry.1)) ∧
    ∀ o < size,
      let blockId := (o : ℤ) / dispatcher.fecParams.blockSize
      blockId < ⌈(size : ℚ) / dispatcher.fecParams.blockSize⌉ ∧
      ((accepted.countP (fun entry => coversByte pb entry.2 o) = 1 ∧
        lost.countP (fun lostShard => lostShard.hasBlock blockId) = 0) ∨
      (accepted.countP (fun entry => coversByte pb entry.2 o) = 0 ∧
        lost.countP (fun lostShard => lostShard.hasBlock blockId) = 1)) := by
  intro active result accepted lost
  have hblock : 0 < dispatcher.fecParams.blockSize := Int.mul_pos (by omega) (by omega)
  let sourceFile : SourceFile := ⟨path, size, hash⟩
  obtain ⟨totalBlocks, htotal⟩ : ∃ n : ℤ, n = ⌈(size : ℚ) / dispatcher.fecParams.blockSize⌉ :=
    ⟨_, rfl⟩
  have hcount : calculateBlockCount sourceFile.sizeBytes dispatcher.fecParams = .ok totalBlocks :=
    htotal ▸ calculateBlockCount_eq hsize hblock
  rw [← htotal]
  obtain ⟨delivered, lostAssignments, world', hrun, hsplits, haccepted, hlost⟩ :=
    run_dispatchMeasured sourceFile (.start registry dispatchedSessions) hactive hcount
      (calculateBlockCount_nonneg hblock hcount) (by omega)
      fun assignment hmem => buildPayload_of_plannerAccepts lawful haccepts hmem
  have hresult : result = _ := (runDispatch_of_measured pb dispatcher hstat hhash path _).trans hrun
  have hsplits : Splits pb dispatcher inputs.sessionId sourceFile (shardAssignments totalBlocks
      (inputs.active registry) dispatcher.basePort) delivered lostAssignments := hsplits
  have haccepted' : accepted = deliveredPayloads delivered := by
    show result.2.accepted = _
    rw [hresult]
    exact haccepted
  have hlost' : lost = lostAssignments.map ShardAssignment.lostShard := by
    show result.2.lostShards = _
    rw [hresult]
    exact hlost
  rw [haccepted', hlost', hresult]
  refine ⟨rfl, ?_, ?_, ?_⟩
  · exact List.nodup_iff_count_le_one.mp
      (nodup_senders_of_splits (SenderRegistry.nodup_activeSenders _ _) hsplits)
  · intro entry hentry
    obtain ⟨d, hd, rfl⟩ := List.mem_map.mp hentry
    obtain ⟨i, fileHashBytes, filepath, hi, hassignment, hdecode⟩ :=
      decode_of_splits lawful hcount hsplits hd
    refine ⟨List.mem_of_getElem? hi, _, hdecode, rfl, rfl, ?_, ?_⟩
    · show d.1.shardModulus = _
      rw [hassignment]
      rfl
    · have hposition : active.countP (· < d.1.senderId) = i :=
        SenderRegistry.countP_lt_of_pairwise (SenderRegistry.pairwise_activeSenders _ _) hi
      show d.1.shardResidue = (active.countP (· < d.1.senderId) : ℕ)
      rw [hposition, hassignment]
      rfl
  · intro o ho blockId
    have hblockId : (o : ℤ) / dispatcher.fecParams.blockSize = blockId := rfl
    have hlt : blockId < totalBlocks :=
      (mul_blockSize_lt_iff hsize hblock hcount blockId).mpr
        ((Int.ediv_mul_le _ hblock.ne').trans_lt (by exact_mod_cast ho))
    -- the block belongs to one assignment, which was delivered or lost
    have hone := countP_shardAssignments hactive totalBlocks dispatcher.basePort blockId
    rw [← hsplits.perm.countP_eq, List.countP_append] at hone
    refine ⟨hlt, ?_⟩
    rw [countP_coversByte lawful hcount hsplits hblockId hlt, countP_hasBlock hsplits]
    omega

end

/-! ### An instance -/

/-- Ten one-byte blocks shared between the senders `3` and `7`. -/
def tenBlocksDispatcher : SessionDispatcher where
  fecParams := ⟨1, 2, 1⟩
  watchRoot := .parse ['/', 'w']
  targetHost := "127.0.0.1"
  basePort := 9000

def tenBlocksFile : SourceFile where
  path := .parse ['/', 'w', '/', 'a']
  sizeBytes := 10
  fileHash := "0000000000000000000000000000000000000000000000000000000000000000"

/-- The message for the sender at position `i`. -/
def tenBlocksMessage (i : ℕ) : AssignSession :=
  assignSessionOf tenBlocksDispatcher "00000000000000aa" tenBlocksFile
    (shardAssignment 10 9000 2 0 i) (List.replicate 32 0) "a" 10

def tenBlocksProtobuf : Protobuf :=
  .ofTable [(.assignSession (tenBlocksMessage 0), [0x32, 0]),
    (.assignSession (tenBlocksMessage 1), [0x32, 1])]

/-- Sender `3` is reached at once, sender `7` has a full queue twice. -/
def tenBlocksInputs : DispatchInputs where
  stat := .ok 10
  hash := .ok tenBlocksFile.fileHash
  now := 1
  sessionId := "00000000000000aa"
  outcomes attempt := if attempt = 0 then .accepted else .queueFull

def tenBlocksRegistry : SenderRegistry :=
  ((SenderRegistry.create heartbeatIntervalSeconds).register 7 0).register 3 0

theorem tenBlocks_lawful : tenBlocksProtobuf.Lawful := Protobuf.ofTable_lawful (by decide)

theorem tenBlocks_plannerAccepts : ∀ i < (tenBlocksInputs.active tenBlocksRegistry).length,
    PlannerAccepts tenBlocksProtobuf tenBlocksDispatcher tenBlocksInputs.sessionId tenBlocksFile
      (tenBlocksInputs.active tenBlocksRegistry).length i := by
  have hlength : (tenBlocksInputs.active tenBlocksRegistry).length = 2 := by decide +kernel
  rw [hlength]
  intro i hi
  refine ⟨(tenBlocksMessage i).manifest, tenBlocksMessage i, ?_, ?_⟩ <;> revert i <;> decide +kernel

/-- One byte in two is lost with the shard of sender `7`. -/
theorem dispatch_covers_every_byte_tenBlocks :
    let result := runDispatch tenBlocksProtobuf tenBlocksDispatcher tenBlocksInputs
      tenBlocksFile.path (.start tenBlocksRegistry ∅)
    result.2.accepted = [(3, [0x32, 0])] ∧ result.2.lostShards = [⟨7, 1, 2, 5⟩] ∧
    ∀ o : ℕ, o < 10 →
      let blockId := (o : ℤ) / tenBlocksDispatcher.fecParams.blockSize
      blockId < ⌈(10 : ℚ) / tenBlocksDispatcher.fecParams.blockSize⌉ ∧
      ((result.2.accepted.countP (fun entry => coversByte tenBlocksProtobuf entry.2 o) = 1 ∧
        result.2.lostShards.countP (fun lostShard => lostShard.hasBlock blockId) = 0) ∨
      (result.2.accepted.countP (fun entry => coversByte tenBlocksProtobuf entry.2 o) = 0 ∧
        result.2.lostShards.countP (fun lostShard => lostShard.hasBlock blockId) = 1)) := by
  refine ⟨by decide +kernel, by decide +kernel, ?_⟩
  have hcover := @dispatch_covers_every_byte tenBlocksProtobuf tenBlocksDispatcher tenBlocksInputs
    tenBlocksRegistry ∅ tenBlocksFile.path tenBlocks_lawful 10 tenBlocksFile.fileHash rfl rfl
    (by norm_num) (by decide) (by decide) (by decide) (by decide +kernel) tenBlocks_plannerAccepts
  exact_mod_cast hcover.2.2.2

end FileMonitor
