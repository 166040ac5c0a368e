import FileMonitor.Domain.Models
import Mathlib.Algebra.Ring.Int.Defs
import Mathlib.Data.List.Nodup

/-!
# Messages and their encoding

The messages of the wire contract with the fields the repository reads or writes, and `ipc/codec.py`.
The generated protobuf classes are not part of the repository: they are the parameter `Protobuf`.
The field name of a message is that of its type (`ipc/message_types.py`).

* `decode_encode`: with a protobuf runtime that reads back what it wrote, so does the codec.
* `Protobuf.ofTable_lawful`: the runtime that knows a table of messages is such a runtime.
-/

namespace FileMonitor

/-! ### Messages -/

/-- `common_pb2.Manifest`. -/
structure Manifest where
  sessionId : SessionId
  filepath : String
  fileSize : ℤ
  fileHash : Bytes
  k : ℤ
  n : ℤ
  blockBytes : ℤ
  totalBlocks : ℤ
  senderBpsLimit : ℤ
  senderId : ℤ
deriving DecidableEq

/-- `ipc_pb2.AssignSession`. -/
structure AssignSession where
  manifest : Manifest
  totalSenders : ℤ
  targetHost : String
  targetPort : ℤ
  sourcePath : String
deriving DecidableEq

/-- The members of the envelope's `oneof`. -/
inductive Message where
  | senderHello (senderId : SenderId) (protoHash : Bytes)
  | heartbeat
  | senderProgress
  | sessionComplete (sessionId : SessionId)
  | localCongestion
  | assignSession (assignSession : AssignSession)
  | updateRate
  | abort
deriving DecidableEq

/-- `FIELD_NAME_BY_MESSAGE_TYPE`. -/
def Message.fieldName : Message → String
  | .senderHello .. => "sender_hello"
  | .heartbeat => "heartbeat"
  | .senderProgress => "sender_progress"
  | .sessionComplete _ => "session_complete"
  | .localCongestion => "local_congestion"
  | .assignSession _ => "assign_session"
  | .updateRate => "update_rate"
  | .abort => "abort"

/-- `ipc_pb2.Envelope`: the member of the `oneof` group that is set, if any. -/
structure Envelope where
  msg : Option Message
deriving DecidableEq

/-! ### The protobuf runtime -/

/-- What the code uses of the protobuf runtime.  A constructor or an assignment to a field raises
where a value does not fit its field. -/
structure Protobuf where
  /-- `Manifest(…)`, whose `sender_id` is still `0`. -/
  newManifest : Manifest → Except String Unit
  /-- `manifest.sender_id = …`. -/
  setSenderId : ℤ → Except String Unit
  /-- `AssignSession(…)`. -/
  newAssignSession : AssignSession → Except String Unit
  serializeToString : Envelope → Except String Bytes
  parseFromString : Bytes → Except String Envelope

/-- What the runtime raises is carried as text. -/
def raiseProtobuf {α : Type} (result : Except String α) : Except PyError α :=
  result.mapError .protobuf

@[simp] theorem raiseProtobuf_eq_ok {α : Type} {result : Except String α} {a : α} :
    raiseProtobuf result = .ok a ↔ result = .ok a := by
  cases result <;> simp [raiseProtobuf, Except.mapError]

/-- A runtime that serialises what its constructors accept and reads back what it wrote. -/
structure Protobuf.Lawful (pb : Protobuf) : Prop where
  serialize_assignSession : ∀ assignSession, pb.newAssignSession assignSession = .ok () →
    ∃ raw, pb.serializeToString ⟨some (.assignSession assignSession)⟩ = .ok raw
  parse_serialize : ∀ envelope raw, pb.serializeToString envelope = .ok raw →
    pb.parseFromString raw = .ok envelope

/-! ### The codec -/

/-- `codec.encode`. -/
def encode (pb : Protobuf) (payload : Message) : Except PyError Bytes :=
  raiseProtobuf (pb.serializeToString ⟨some payload⟩)

/-- `codec.decode`.  The field name it returns beside the message is `Message.fieldName`. -/
def decode (pb : Protobuf) (raw : Bytes) : Except PyError Message := do
  let envelope ← raiseProtobuf (pb.parseFromString raw)
  match envelope.msg with
  | none => throw .noMessageSet
  | some message => pure message

/-- The byte strings that parse as an envelope with a message set. -/
def Protobuf.Decodable (pb : Protobuf) (raw : Bytes) : Prop :=
  ∃ message, pb.parseFromString raw = .ok ⟨some message⟩

theorem decode_eq_ok_iff {pb : Protobuf} {raw : Bytes} {message : Message} :
    decode pb raw = .ok message ↔ pb.parseFromString raw = .ok ⟨some message⟩ := by
  unfold decode
  rcases hparse : pb.parseFromString raw with reason | ⟨_ | message'⟩
  · exact ⟨nofun, nofun⟩
  · exact ⟨nofun, nofun⟩
  · show Except.ok message' = Except.ok message ↔ _
    simp

/-- **Round trip.** -/
theorem decode_encode {pb : Protobuf} (lawful : pb.Lawful) {message : Message} {raw : Bytes}
    (h : encode pb message = .ok raw) : decode pb raw = .ok message :=
  decode_eq_ok_iff.mpr (lawful.parse_serialize _ _ (raiseProtobuf_eq_ok.mp h))

/-! ### A runtime that knows finitely many messages -/

/-- Whether `x` lies in `[0, 2 ^ w)`. -/
def fitsUnsigned (w : ℕ) (x : ℤ) : Bool := 0 ≤ x && x < 2 ^ w

/-- The runtime that writes and reads the messages of a table and checks the ranges of the unsigned
fields. -/
def Protobuf.ofTable (table : List (Message × Bytes)) : Protobuf where
  newManifest manifest :=
    if fitsUnsigned 64 manifest.fileSize ∧ fitsUnsigned 32 manifest.k ∧ fitsUnsigned 32 manifest.n ∧
        fitsUnsigned 32 manifest.blockBytes ∧ fitsUnsigned 64 manifest.totalBlocks ∧
        fitsUnsigned 64 manifest.senderBpsLimit then .ok ()
    else .error "Value out of range"
  setSenderId senderId :=
    if fitsUnsigned 32 senderId then .ok () else .error "Value out of range"
  newAssignSession assignSession :=
    if fitsUnsigned 32 assignSession.totalSenders ∧ fitsUnsigned 32 assignSession.targetPort ∧
        (table.find? fun entry => entry.1 = .assignSession assignSession).isSome then .ok ()
    else .error "Value out of range"
  serializeToString envelope :=
    match table.find? fun entry => some entry.1 = envelope.msg with
    | some entry => .ok entry.2
    | none => .error "Not in the table"
  parseFromString raw :=
    match table.find? fun entry => entry.2 = raw with
    | some entry => .ok ⟨some entry.1⟩
    | none => .error "Error parsing message"

theorem Protobuf.ofTable_lawful {table : List (Message × Bytes)}
    (hnodup : (table.map Prod.snd).Nodup) : (Protobuf.ofTable table).Lawful := by
  constructor
  · intro assignSession h
    unfold ofTable at h
    dsimp only at h
    split_ifs at h with hacc
    obtain ⟨entry, hentry⟩ := Option.isSome_iff_exists.mp hacc.2.2
    refine ⟨entry.2, ?_⟩
    simp only [ofTable, Option.some.injEq, hentry]
  · intro envelope raw h
    simp only [ofTable] at h ⊢
    split at h
    · rename_i entry hentry
      obtain rfl := Except.ok.inj h
      have hmem : entry ∈ table := List.mem_of_find?_eq_some hentry
      have hmsg : some entry.1 = envelope.msg := by simpa using List.find?_some hentry
      -- no other entry has the same bytes
      have hfind : table.find? (fun other => other.2 = entry.2) = some entry := by
        rcases hother : table.find? (fun other => other.2 = entry.2) with _ | other
        · simpa using List.find?_eq_none.mp hother entry hmem
        · have heq : other.2 = entry.2 := by simpa using List.find?_some hother
          rw [hother, List.inj_on_of_nodup_map hnodup (List.mem_of_find?_eq_some hother) hmem heq]
      rw [hfind]
      exact congrArg (fun msg => Except.ok (Envelope.mk msg)) hmsg
    · cases h

/-- The hello of sender `1` with the hash `[0xaa]`. -/
def helloBytes : Bytes := [0x0a, 0x05, 0x08, 0x01, 0x1a, 0x01, 0xaa]

def heartbeatBytes : Bytes := [0x12, 0x00]

/-- A runtime that knows this hello and a heartbeat. -/
def helloProtobuf : Protobuf :=
  .ofTable [(.senderHello 1 [0xaa], helloBytes), (.heartbeat, heartbeatBytes)]

end FileMonitor
