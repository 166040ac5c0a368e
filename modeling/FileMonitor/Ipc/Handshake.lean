import FileMonitor.Domain.Models
import FileMonitor.Library.Dict
import Mathlib.Data.List.Sort
import Mathlib.Data.String.Basic

/-!
# The hash of the contract

`compute_proto_hash` of `ipc/handshake.py`.  The contract directory is the map from its file names to
their contents, and the digest function is a parameter.  `verify_proto_hash` is with the server, in
`Ipc/Uds.lean`.
-/

namespace FileMonitor

/-- The files directly in the contract directory. -/
abbrev ProtoDir := Dict String Bytes

/-- The names in `sorted(proto_dir.glob("*.proto"))`. -/
def protoNames (protoDir : ProtoDir) : List String :=
  (protoDir.keys.filter fun name => ".proto".toList.isSuffixOf name.toList).insertionSort (· ≤ ·)

/-- `path.read_bytes()`. -/
def readBytes (protoDir : ProtoDir) (name : String) : Bytes := (protoDir.lookup name).getD []

/-- The bytes fed to the hasher, file after file. -/
def fedBytes (protoDir : ProtoDir) : Bytes :=
  (protoNames protoDir).foldl (fun fed name => fed ++ readBytes protoDir name) []

/-- `compute_proto_hash`. -/
def computeProtoHash (blake3 : Bytes → Bytes) (protoDir : ProtoDir) : Bytes :=
  blake3 (fedBytes protoDir)

end FileMonitor
