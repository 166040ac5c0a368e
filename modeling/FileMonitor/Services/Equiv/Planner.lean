import FileMonitor.Services.Planner
import FileMonitor.Domain.Equiv.Planning

/-!
# What the planner builds

* `buildManifest_eq_ok_iff` and `buildAssignSession_eq_ok_iff`: when the two builders return, and
  what.  The shard enters through `applyShard` alone, so no other check depends on it.
* `not_ofShardChecks_of_buildManifest`: with a shard index in range, what `buildManifest` raises
  comes neither from `applyShard` nor from `deriveShardAssignments`.
-/

namespace FileMonitor

/-- The manifest that the checked arguments give, for the shard `senderIndex`. -/
def manifestOf (sourceFile : SourceFile) (fecParams : FecParams) (sessionId : SessionId)
    (senderBpsLimit : ℤ) (fileHashBytes : Bytes) (filepath : String) (totalBlocks senderIndex : ℤ) :
    Manifest where
  sessionId := sessionId
  filepath := filepath
  fileSize := sourceFile.sizeBytes
  fileHash := fileHashBytes
  k := fecParams.k
  n := fecParams.n
  blockBytes := fecParams.symbolBytes
  totalBlocks := totalBlocks
  senderBpsLimit := senderBpsLimit
  senderId := senderIndex

section BuildManifest

variable {pb : Protobuf} {sourceFile : SourceFile} {fecParams : FecParams} {sessionId : SessionId}
  {senderIndex shardModulus : ℤ} {watchRoot : PosixPath} {senderBpsLimit : ℤ}

theorem applyShard_eq_ok_iff {manifest manifest' : Manifest} :
    applyShard pb manifest senderIndex shardModulus = .ok manifest' ↔
      0 ≤ senderIndex ∧ senderIndex < shardModulus ∧ pb.setSenderId senderIndex = .ok () ∧
        manifest' = { manifest with senderId := senderIndex } := by
  unfold applyShard
  by_cases hmod : shardModulus < 1
  · rw [if_pos hmod]
    exact ⟨nofun, fun ⟨h0, hlt, _⟩ => by omega⟩
  by_cases hindex : 0 ≤ senderIndex ∧ senderIndex < shardModulus
  · rw [if_neg hmod, if_neg (not_not.mpr hindex), bind_eq_ok_iff]
    constructor
    · rintro ⟨⟨⟩, hset, h⟩
      exact ⟨hindex.1, hindex.2, raiseProtobuf_eq_ok.mp hset, (Except.ok.inj h).symm⟩
    · rintro ⟨-, -, hset, rfl⟩
      exact ⟨(), raiseProtobuf_eq_ok.mpr hset, rfl⟩
  · rw [if_neg hmod, if_pos hindex]
    exact ⟨nofun, fun ⟨h0, hlt, _⟩ => absurd ⟨h0, hlt⟩ hindex⟩

/-- **When `buildManifest` returns, and what.** -/
theorem buildManifest_eq_ok_iff {manifest : Manifest} :
    buildManifest pb sourceFile fecParams sessionId senderIndex shardModulus watchRoot
        senderBpsLimit = .ok manifest ↔
      0 ≤ sourceFile.sizeBytes ∧ ∃ fileHashBytes filepath totalBlocks,
        checkFileHash sourceFile.fileHash = .ok fileHashBytes ∧
        relativeFilepath sourceFile.path watchRoot = .ok filepath ∧
        calculateBlockCount sourceFile.sizeBytes fecParams = .ok totalBlocks ∧
        pb.newManifest (manifestOf sourceFile fecParams sessionId senderBpsLimit fileHashBytes
          filepath totalBlocks 0) = .ok () ∧
        0 ≤ senderIndex ∧ senderIndex < shardModulus ∧ pb.setSenderId senderIndex = .ok () ∧
        manifest = manifestOf sourceFile fecParams sessionId senderBpsLimit fileHashBytes filepath
          totalBlocks senderIndex := by
  unfold buildManifest
  by_cases hneg : sourceFile.sizeBytes < 0
  · rw [if_pos hneg]
    exact ⟨nofun, fun ⟨h0, _⟩ => by omega⟩
  rw [if_neg hneg]
  simp only [bind_eq_ok_iff, raiseProtobuf_eq_ok, applyShard_eq_ok_iff]
  constructor
  · rintro ⟨fileHashBytes, hhash, filepath, hpath, totalBlocks, htotal, ⟨⟩, hnew, h⟩
    exact ⟨by omega, fileHashBytes, filepath, totalBlocks, hhash, hpath, htotal, hnew, h⟩
  · rintro ⟨-, fileHashBytes, filepath, totalBlocks, hhash, hpath, htotal, hnew, h⟩
    exact ⟨fileHashBytes, hhash, filepath, hpath, totalBlocks, htotal, (), hnew, h⟩

theorem buildAssignSession_eq_ok_iff {manifest : Manifest} {targetHost : String} {targetPort : ℤ}
    {sourcePath : String} {assignSession : AssignSession} :
    buildAssignSession pb manifest shardModulus targetHost targetPort sourcePath
        = .ok assignSession ↔
      pb.newAssignSession ⟨manifest, shardModulus, targetHost, targetPort, sourcePath⟩ = .ok () ∧
        assignSession = ⟨manifest, shardModulus, targetHost, targetPort, sourcePath⟩ := by
  unfold buildAssignSession
  rw [bind_eq_ok_iff]
  constructor
  · rintro ⟨⟨⟩, hnew, h⟩
    exact ⟨raiseProtobuf_eq_ok.mp hnew, (Except.ok.inj h).symm⟩
  · rintro ⟨hnew, rfl⟩
    exact ⟨(), raiseProtobuf_eq_ok.mpr hnew, rfl⟩

/-! ### Exceptions -/

theorem not_ofShardChecks_of_raiseProtobuf {α : Type} {result : Except String α} {e : PyError}
    (h : raiseProtobuf result = .error e) : ¬ e.OfShardChecks := by
  cases result with
  | ok a => cases h
  | error reason =>
    obtain rfl := Except.error.inj h
    rintro (h | h) <;> exact h

theorem not_ofShardChecks_of_calculateBlockCount {fileSize : ℤ} {e : PyError}
    (h : calculateBlockCount fileSize fecParams = .error e) : ¬ e.OfShardChecks := by
  unfold calculateBlockCount trueDivide at h
  dsimp only at h
  split_ifs at h <;> cases h <;> rintro (h | h) <;> exact h

/-- With a shard index in range, `buildManifest` raises nothing of `applyShard`. -/
theorem not_ofShardChecks_of_buildManifest {e : PyError} (h0 : 0 ≤ senderIndex)
    (hlt : senderIndex < shardModulus)
    (h : buildManifest pb sourceFile fecParams sessionId senderIndex shardModulus watchRoot
      senderBpsLimit = .error e) : ¬ e.OfShardChecks := by
  unfold buildManifest at h
  by_cases hneg : sourceFile.sizeBytes < 0
  · rw [if_pos hneg] at h
    obtain rfl := Except.error.inj h
    rintro (h | h) <;> exact h
  rw [if_neg hneg] at h
  simp only [bind_eq_error_iff] at h
  rcases h with h | ⟨fileHashBytes, -, h | ⟨filepath, -, h | ⟨totalBlocks, -, h | ⟨⟨⟩, -, h⟩⟩⟩⟩
  · unfold checkFileHash at h
    split_ifs at h
    · cases h
      rintro (h | h) <;> exact h
    · split at h
      · cases h
        rintro (h | h) <;> exact h
      · cases h
  · unfold relativeFilepath at h
    split at h
    · cases h
      rintro (h | h) <;> exact h
    · split_ifs at h
      cases h
      rintro (h | h) <;> exact h
  · exact not_ofShardChecks_of_calculateBlockCount h
  · exact not_ofShardChecks_of_raiseProtobuf h
  · unfold applyShard at h
    rw [if_neg (by omega), if_neg (not_not.mpr ⟨h0, hlt⟩), bind_eq_error_iff] at h
    rcases h with h | ⟨⟨⟩, -, h⟩
    · exact not_ofShardChecks_of_raiseProtobuf h
    · cases h

theorem not_ofShardChecks_of_buildAssignSession {manifest : Manifest} {targetHost : String}
    {targetPort : ℤ} {sourcePath : String} {e : PyError}
    (h : buildAssignSession pb manifest shardModulus targetHost targetPort sourcePath = .error e) :
    ¬ e.OfShardChecks := by
  unfold buildAssignSession at h
  rw [bind_eq_error_iff] at h
  rcases h with h | ⟨⟨⟩, -, h⟩
  · exact not_ofShardChecks_of_raiseProtobuf h
  · cases h

end BuildManifest

end FileMonitor
