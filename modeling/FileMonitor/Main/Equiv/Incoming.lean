import FileMonitor.Main.Incoming

/-!
# What the incoming dispatch loop does

* `handleIncoming_of_decode`: the effect of a message that decodes, by its type.
* `runIncomingDispatchLoop_eq_ok_iff`: the loop consumes a sequence, with the effect of the messages of a
  handled type, if and only if every byte string in it decodes.  One that does not ends the loop.
-/

namespace FileMonitor

/-- The effect of a message, by its type.  The types without a handler have none. -/
def messageEffect (now : ℚ) (state : IncomingState) (senderId : SenderId) : Message → IncomingState
  | .senderHello .. | .heartbeat =>
    { state with registry := state.registry.register senderId now }
  | .sessionComplete sessionId =>
    { state with dispatchedSessions := completeSession state.dispatchedSessions sessionId }
  | _ => state

/-- The effect of one item whose message decodes to a handled type; every other item is skipped. -/
def applyHandled (pb : Protobuf) (state : IncomingState) (item : IncomingItem) : IncomingState :=
  match decode pb item.raw with
  | .error _ => state
  | .ok message =>
    match incomingMessageHandlers.lookup message.fieldName with
    | none => state
    | some handler => handler item.now state item.senderId message

/-! ### One message -/

theorem applyHandled_of_decode {pb : Protobuf} {item : IncomingItem} {message : Message}
    (h : decode pb item.raw = .ok message) (state : IncomingState) :
    applyHandled pb state item = messageEffect item.now state item.senderId message := by
  unfold applyHandled
  rw [h]
  cases message <;> rfl

theorem handleIncoming_of_decode {pb : Protobuf} {item : IncomingItem} {message : Message}
    (h : decode pb item.raw = .ok message) (state : IncomingState) :
    handleIncoming pb state item
      = .ok (messageEffect item.now state item.senderId message) := by
  unfold handleIncoming
  rw [h]
  cases message <;> rfl

theorem handleIncoming_of_error {pb : Protobuf} {item : IncomingItem} {e : PyError}
    (h : decode pb item.raw = .error e) (state : IncomingState) :
    handleIncoming pb state item = .error e := by
  unfold handleIncoming
  rw [h]
  rfl

/-! ### A whole sequence -/

/-- **The loop consumes exactly the sequences in which every byte string decodes**, and then its effect
is that of the messages of a handled type, in order. -/
theorem runIncomingDispatchLoop_eq_ok_iff {pb : Protobuf} {state : IncomingState}
    {items : List IncomingItem} :
    runIncomingDispatchLoop pb state items = .ok (items.foldl (applyHandled pb) state) ↔
      ∀ item ∈ items, pb.Decodable item.raw := by
  induction items generalizing state with
  | nil => exact ⟨fun _ => nofun, fun _ => rfl⟩
  | cons item items ih =>
    rw [List.forall_mem_cons, List.foldl_cons, runIncomingDispatchLoop, List.foldlM_cons]
    rcases hdecode : decode pb item.raw with e | message
    · -- the exception ends the loop
      have hnot : ¬ pb.Decodable item.raw := by
        rintro ⟨message, hparse⟩
        rw [decode_eq_ok_iff.mpr hparse] at hdecode
        cases hdecode
      rw [handleIncoming_of_error hdecode]
      exact ⟨nofun, fun h => absurd h.1 hnot⟩
    · have hitem : pb.Decodable item.raw := ⟨message, decode_eq_ok_iff.mp hdecode⟩
      rw [handleIncoming_of_decode hdecode, ← applyHandled_of_decode hdecode]
      show runIncomingDispatchLoop pb (applyHandled pb state item) items = _ ↔ _
      rw [ih]
      exact ⟨fun h => ⟨hitem, h⟩, And.right⟩

/-! ### A message that does not decode -/

/-- After a valid hello, the peer sends a byte string that is no protobuf message, and then a healthy
heartbeat. -/
def malformedSequence : List IncomingItem :=
  [⟨0, 1, helloBytes⟩, ⟨1, 1, [0xff]⟩, ⟨2, 1, heartbeatBytes⟩]

def noSenders : IncomingState := ⟨.create heartbeatIntervalSeconds, ∅⟩

/-- The loop raises instead of skipping the malformed message. -/
theorem runIncomingDispatchLoop_malformed :
    decode helloProtobuf helloBytes = .ok (.senderHello 1 [0xaa]) ∧
    runIncomingDispatchLoop helloProtobuf noSenders malformedSequence
      = .error (.protobuf "Error parsing message") ∧
    runIncomingDispatchLoop helloProtobuf noSenders malformedSequence
      ≠ .ok (malformedSequence.foldl (applyHandled helloProtobuf) noSenders) := by
  decide +kernel

end FileMonitor
