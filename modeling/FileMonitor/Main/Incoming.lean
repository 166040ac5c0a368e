import FileMonitor.Services.Dispatcher

/-!
# The incoming dispatch loop

The handlers of `main.py` for messages of senders, and `_run_incoming_dispatch_loop`.
-/

namespace FileMonitor

/-- What the handlers work on: the registry and the sessions of the dispatcher. -/
structure IncomingState where
  registry : SenderRegistry
  dispatchedSessions : DispatchedSessions
deriving DecidableEq

/-- `IncomingMessageHandler`.  The first argument is the time a handler reads from the clock. -/
abbrev IncomingMessageHandler := ℚ → IncomingState → SenderId → Message → IncomingState

/-! ### The handlers -/

def handleSenderHello : IncomingMessageHandler := fun now state senderId _ =>
  { state with registry := state.registry.register senderId now }

def handleHeartbeat : IncomingMessageHandler := fun now state senderId _ =>
  { state with registry := state.registry.refresh senderId now }

/-- `_handle_session_complete`.  The loop passes it messages of its own type only. -/
def handleSessionComplete : IncomingMessageHandler := fun _ state _ message =>
  match message with
  | .sessionComplete sessionId =>
    { state with dispatchedSessions := completeSession state.dispatchedSessions sessionId }
  | _ => state

/-- The handlers of `_make_log_and_ignore_handler`. -/
def logAndIgnoreHandler : IncomingMessageHandler := fun _ state _ _ => state

/-- `INCOMING_MESSAGE_HANDLERS`. -/
def incomingMessageHandlers : List (String × IncomingMessageHandler) :=
  [("sender_hello", handleSenderHello), ("heartbeat", handleHeartbeat),
    ("sender_progress", logAndIgnoreHandler), ("session_complete", handleSessionComplete),
    ("local_congestion", logAndIgnoreHandler)]

/-! ### The loop -/

/-- One pair delivered by `ipc.incoming()`, with the time at which it is handled. -/
structure IncomingItem where
  now : ℚ
  senderId : SenderId
  raw : Bytes

/-- The body of the loop. -/
def handleIncoming (pb : Protobuf) (state : IncomingState) (item : IncomingItem) :
    Except PyError IncomingState := do
  let message ← decode pb item.raw
  match incomingMessageHandlers.lookup message.fieldName with
  | none => pure state
  | some handler => pure (handler item.now state item.senderId message)

/-- `_run_incoming_dispatch_loop` over a finite sequence. -/
def runIncomingDispatchLoop (pb : Protobuf) (state : IncomingState) (items : List IncomingItem) :
    Except PyError IncomingState :=
  items.foldlM (handleIncoming pb) state

end FileMonitor
