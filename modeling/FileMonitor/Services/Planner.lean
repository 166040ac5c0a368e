import FileMonitor.Domain.Planning
import FileMonitor.Ipc.Codec
import FileMonitor.Library.Hex

/-!
# The planner

`services/planner.py`: the `Manifest` and the `AssignSession` of one sender's shard.
-/

namespace FileMonitor

/-- `FILE_HASH_HEX_LENGTH`. -/
def fileHashHexLength : ℕ := 64

/-- `UNSET_SENDER_BPS_LIMIT`. -/
def unsetSenderBpsLimit : ℤ := 0

/-- `apply_shard`. -/
def applyShard (pb : Protobuf) (manifest : Manifest) (senderIndex shardModulus : ℤ) :
    Except PyError Manifest :=
  if shardModulus < 1 then .error (.shardModulusBelowOne shardModulus)
  else if ¬ (0 ≤ senderIndex ∧ senderIndex < shardModulus) then
    .error (.senderIndexOutOfRange shardModulus senderIndex)
  else do
    raiseProtobuf (pb.setSenderId senderIndex)
    pure { manifest with senderId := senderIndex }

/-- The checks of the file hash in `build_manifest`. -/
def checkFileHash (fileHash : String) : Except PyError Bytes :=
  if fileHash.length ≠ fileHashHexLength then .error (.fileHashLength fileHash.length)
  else
    match Hex.decode fileHash.toList with
    | none => .error (.fileHashNotHex fileHash)
    | some fileHashBytes => .ok fileHashBytes

/-- The checks of the path in `build_manifest`, which return `filepath`. -/
def relativeFilepath (path watchRoot : PosixPath) : Except PyError String :=
  match path.relativeTo watchRoot with
  | none => .error (.notUnderWatchRoot path watchRoot)
  | some relativePath =>
    if relativePath.hasDotDot then .error (.escapesWatchRoot path) else .ok relativePath.str

/-- `build_manifest`. -/
def buildManifest (pb : Protobuf) (sourceFile : SourceFile) (fecParams : FecParams)
    (sessionId : SessionId) (senderIndex shardModulus : ℤ) (watchRoot : PosixPath)
    (senderBpsLimit : ℤ := unsetSenderBpsLimit) : Except PyError Manifest := do
  if sourceFile.sizeBytes < 0 then throw (.negativeSize sourceFile.sizeBytes)
  let fileHashBytes ← checkFileHash sourceFile.fileHash
  let filepath ← relativeFilepath sourceFile.path watchRoot
  let totalBlocks ← calculateBlockCount sourceFile.sizeBytes fecParams
  let manifest : Manifest :=
    { sessionId := sessionId
      filepath := filepath
      fileSize := sourceFile.sizeBytes
      fileHash := fileHashBytes
      k := fecParams.k
      n := fecParams.n
      -- the wire field holds the size of one symbol
      blockBytes := fecParams.symbolBytes
      totalBlocks := totalBlocks
      senderBpsLimit := senderBpsLimit
      senderId := 0 }
  raiseProtobuf (pb.newManifest manifest)
  applyShard pb manifest senderIndex shardModulus

/-- `build_assign_session`. -/
def buildAssignSession (pb : Protobuf) (manifest : Manifest) (shardModulus : ℤ)
    (targetHost : String) (targetPort : ℤ) (sourcePath : String) : Except PyError AssignSession := do
  let assignSession : AssignSession :=
    { manifest := manifest
      totalSenders := shardModulus
      targetHost := targetHost
      targetPort := targetPort
      sourcePath := sourcePath }
  raiseProtobuf (pb.newAssignSession assignSession)
  pure assignSession

end FileMonitor
