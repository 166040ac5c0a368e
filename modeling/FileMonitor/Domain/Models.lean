import FileMonitor.Library.PosixPath
import Mathlib.Data.Int.Notation

/-!
# Identifiers, records and exceptions

The frozen dataclasses of `domain/models.py`, the `NewType`s of `domain/ids.py`, and the exceptions
that the planning, planner, codec and dispatcher code can raise.  Python integers are `ℤ`; a byte
string is a list of bytes.
-/

namespace FileMonitor

/-- A `bytes` object. -/
abbrev Bytes := List UInt8

abbrev SenderId := ℤ
abbrev SessionId := String
abbrev BlockId := ℤ

/-! ### The dataclasses -/

/-- A file to dispatch, as measured. -/
structure SourceFile where
  path : PosixPath
  sizeBytes : ℤ
  fileHash : String
deriving DecidableEq

/-- The Reed–Solomon parameters: `k` data symbols of `symbolBytes` bytes out of `n`. -/
structure FecParams where
  k : ℤ
  n : ℤ
  symbolBytes : ℤ
deriving DecidableEq

/-- The bytes of one block. -/
def FecParams.blockSize (fecParams : FecParams) : ℤ := fecParams.k * fecParams.symbolBytes

/-- The byte range of one block. -/
structure BlockPlan where
  blockId : BlockId
  startByte : ℤ
  endByte : ℤ
deriving DecidableEq

/-- The share of one sender.  `shardResidue` is the sender's position in the list of active senders,
not its id. -/
structure ShardAssignment where
  senderId : SenderId
  shardModulus : ℤ
  shardResidue : ℤ
  assignedBlocks : List BlockId
  targetPort : ℤ
deriving DecidableEq

/-! ### Exceptions -/

/-- The exceptions met in planning and dispatch.  A `ValueError` has one constructor for each `raise`
statement, which carries the values its message interpolates; what code outside the repository
raises is carried as text. -/
inductive PyError where
  | zeroDivision
  | divisionOverflow
  -- the `ValueError`s of `derive_shard_assignments`
  | emptyActiveSenders
  | duplicateSenderIds (sortedIds : List SenderId)
  | negativeTotalBlocks (totalBlocks : ℤ)
  | nonPositiveBasePort (basePort : ℤ)
  -- the `ValueError`s of `apply_shard`
  | shardModulusBelowOne (shardModulus : ℤ)
  | senderIndexOutOfRange (shardModulus senderIndex : ℤ)
  -- the `ValueError`s of `build_manifest`
  | negativeSize (sizeBytes : ℤ)
  | fileHashLength (length : ℕ)
  | fileHashNotHex (fileHash : String)
  | notUnderWatchRoot (path watchRoot : PosixPath)
  | escapesWatchRoot (path : PosixPath)
  -- raised by `path.stat()`, the hasher and the protobuf runtime
  | stat (reason : String)
  | hasher (reason : String)
  | protobuf (reason : String)
  -- the `ValueError` of `codec.decode`
  | noMessageSet
  -- the exceptions of `ipc/errors.py` that end a handshake
  | handshake (fieldName : String)
  | protoHashMismatch (senderId : SenderId) (reportedHash expectedHash : Bytes)
deriving DecidableEq

theorem bind_eq_ok_iff {ε α β : Type} {x : Except ε α} {f : α → Except ε β} {b : β} :
    x >>= f = .ok b ↔ ∃ a, x = .ok a ∧ f a = .ok b := by
  cases x with
  | error e => exact ⟨nofun, nofun⟩
  | ok a =>
    constructor
    · intro h
      exact ⟨a, rfl, h⟩
    · rintro ⟨_, ⟨⟩, h⟩
      exact h

theorem bind_eq_error_iff {ε α β : Type} {x : Except ε α} {f : α → Except ε β} {e : ε} :
    x >>= f = .error e ↔ x = .error e ∨ ∃ a, x = .ok a ∧ f a = .error e := by
  cases x with
  | error e' =>
    constructor
    · intro h
      exact .inl (congrArg Except.error (Except.error.inj h))
    · rintro (⟨⟨⟩⟩ | ⟨_, ⟨⟩, _⟩)
      rfl
  | ok a =>
    constructor
    · intro h
      exact .inr ⟨a, rfl, h⟩
    · rintro (⟨⟨⟩⟩ | ⟨_, ⟨⟩, h⟩)
      exact h

/-- Raised by `derive_shard_assignments` itself. -/
def PyError.OfDeriveShardAssignments : PyError → Prop
  | .emptyActiveSenders | .duplicateSenderIds _ | .negativeTotalBlocks _
  | .nonPositiveBasePort _ => True
  | _ => False

/-- Raised by `apply_shard` itself. -/
def PyError.OfApplyShard : PyError → Prop
  | .shardModulusBelowOne _ | .senderIndexOutOfRange .. => True
  | _ => False

/-- Raised by one of the two functions that check shard arguments. -/
def PyError.OfShardChecks (e : PyError) : Prop := e.OfDeriveShardAssignments ∨ e.OfApplyShard

end FileMonitor
