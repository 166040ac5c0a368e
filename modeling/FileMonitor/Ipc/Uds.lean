import FileMonitor.Ipc.Codec
import FileMonitor.Library.Dict
import FileMonitor.Library.EventMachine
import FileMonitor.Services.Dispatcher
import Mathlib.Logic.Function.Basic

/-!
# The socket server

`ipc/uds.py` as a machine: the peer handlers with their writers, the peer table, the incoming queue and
`send`, at the granularity of the code between two suspension points.  Connections are numbered in the
order in which they are accepted; a connection's number also stands for its send queue, so that the
test `self._peers.get(sender_id) is send_queue` compares numbers.
-/

namespace FileMonitor

/-! ### Constants -/

/-- `RECV_BUFFER_BYTES`. -/
def recvBufferBytes : ℕ := 65536

/-- `SEND_QUEUE_MAXSIZE`. -/
def sendQueueMaxsize : ℕ := 64

/-- `INCOMING_QUEUE_MAXSIZE`. -/
def incomingQueueMaxsize : ℕ := 256

/-! ### The state -/

abbrev ConnectionId := ℕ

/-- Where the writer task of a connection stands. -/
inductive WriterState where
  /-- No handshake yet, so no writer. -/
  | absent
  /-- In `queue.get()`. -/
  | waiting
  /-- In `sock_sendall`. -/
  | sending (payload : Bytes)
  /-- Ended by an `OSError`. -/
  | failed
  | cancelled
deriving DecidableEq

/-- `writer_task.cancel()`, which does nothing to a task that is done. -/
def WriterState.cancel : WriterState → WriterState
  | .waiting | .sending _ => .cancelled
  | writer => writer

/-- Where a peer handler stands. -/
inductive HandlerPhase where
  /-- In `sock_recv`. -/
  | receiving
  /-- In `self._incoming.put((sender_id, raw))`, with the queue full. -/
  | putting (raw : Bytes)
  /-- The `finally` block has run. -/
  | closed
deriving DecidableEq

/-- A call of `_handle_peer` and its connection. -/
structure PeerHandler where
  /-- Messages sent by the peer and not received yet. -/
  inbox : List Bytes
  /-- Nothing can be added to `inbox` any more: the peer has closed its end, or the writer has shut
  down reading. -/
  ended : Bool
  phase : HandlerPhase
  senderId : Option SenderId
  sendQueue : List Bytes
  writer : WriterState
deriving DecidableEq

/-- The handler of a connection just accepted. -/
def PeerHandler.new : PeerHandler where
  inbox := []
  ended := false
  phase := .receiving
  senderId := none
  sendQueue := []
  writer := .absent

/-- A pair on the incoming queue, together with the connection that put it there. -/
structure IncomingEntry where
  connection : ConnectionId
  senderId : SenderId
  raw : Bytes
deriving DecidableEq

/-- `UdsIpcServer`. -/
structure UdsIpcServer where
  /-- The number of connections accepted so far. -/
  accepted : ℕ
  handlers : ConnectionId → Option PeerHandler
  peers : Dict SenderId ConnectionId
  incoming : List IncomingEntry

/-- What happens on one connection. -/
inductive PeerEvent where
  | received (raw : Bytes)
  | handshaken (senderId : SenderId)
  | refused (error : PyError)
  | enqueued (senderId : SenderId) (raw : Bytes)
  | cleanedUp
  | writerFailed
  /-- `send` has put a payload on the connection's queue. -/
  | sent (senderId : SenderId) (payload : Bytes)
  | written (payload : Bytes)
deriving DecidableEq

inductive UdsEvent where
  | peer (connection : ConnectionId) (event : PeerEvent)
  /-- `send` has raised. -/
  | notSent (senderId : SenderId) (outcome : SendOutcome)
  /-- The consumer of `incoming()` has taken a pair. -/
  | taken (entry : IncomingEntry)
deriving DecidableEq

/-- The steps of one connection: of its peer, its handler and its writer. -/
inductive PeerAction where
  | peerSends (raw : Bytes)
  | peerCloses
  /-- `sock_recv` returns, and the handler goes on to its next suspension. -/
  | recv
  /-- `sock_recv` raises `OSError`. -/
  | recvFails
  /-- The suspended `put` goes through. -/
  | put
  /-- The handler's task is cancelled, as `serve` does when it ends. -/
  | cancel
  /-- The writer takes a payload from its queue. -/
  | dequeue
  /-- `sock_sendall` returns. -/
  | write
  /-- `sock_sendall` raises `OSError`. -/
  | writeFails
deriving DecidableEq

inductive UdsAction where
  | accept
  | peer (connection : ConnectionId) (action : PeerAction)
  | send (senderId : SenderId) (payload : Bytes)
  /-- The consumer of `incoming()` takes a pair. -/
  | take
deriving DecidableEq

/-! ### Parts of the handler -/

/-- `verify_proto_hash`. -/
def verifyProtoHash (senderId : SenderId) (reportedHash expectedHash : Bytes) :
    Except PyError Unit :=
  if reportedHash ≠ expectedHash then
    .error (.protoHashMismatch senderId reportedHash expectedHash)
  else .ok ()

/-- The checks of `_complete_handshake`, which return the id of the sender. -/
def completeHandshake (pb : Protobuf) (expectedProtoHash raw : Bytes) : Except PyError SenderId := do
  match ← decode pb raw with
  | .senderHello senderId protoHash =>
    verifyProtoHash senderId protoHash expectedProtoHash
    pure senderId
  | message => throw (.handshake message.fieldName)

namespace UdsIpcServer

def initial : UdsIpcServer where
  accepted := 0
  handlers := fun _ => none
  peers := ∅
  incoming := []

/-- Replace the handler of a connection. -/
def setHandler (server : UdsIpcServer) (connection : ConnectionId) (handler : PeerHandler) :
    UdsIpcServer :=
  { server with handlers := Function.update server.handlers connection (some handler) }

/-- Remove the entry of `senderId` from the peer table, if it still is this connection. -/
def dropPeer (peers : Dict SenderId ConnectionId) (connection : ConnectionId) :
    Option SenderId → Dict SenderId ConnectionId
  | none => peers
  | some senderId =>
    if peers.lookup senderId = some connection then peers.erase senderId else peers

/-- The `finally` block of `_handle_peer`. -/
def cleanUp (server : UdsIpcServer) (connection : ConnectionId) (handler : PeerHandler) :
    UdsIpcServer :=
  { server.setHandler connection
      { handler with phase := .closed, writer := handler.writer.cancel } with
    peers := dropPeer server.peers connection handler.senderId }

/-- `self._incoming.put((sender_id, raw))`: it suspends where the queue is full. -/
def putIncoming (server : UdsIpcServer) (connection : ConnectionId) (handler : PeerHandler)
    (senderId : SenderId) (raw : Bytes) : UdsIpcServer × List PeerEvent :=
  if server.incoming.length < incomingQueueMaxsize then
    ({ server.setHandler connection { handler with phase := .receiving } with
        incoming := server.incoming ++ [⟨connection, senderId, raw⟩] },
      [.enqueued senderId raw])
  else (server.setHandler connection { handler with phase := .putting raw }, [])

/-- The handler goes on with a message received. -/
def handleRaw (pb : Protobuf) (expectedProtoHash : Bytes) (server : UdsIpcServer)
    (connection : ConnectionId) (handler : PeerHandler) (raw : Bytes) :
    UdsIpcServer × List PeerEvent :=
  match handler.senderId with
  | some senderId =>
    let (server, events) := server.putIncoming connection handler senderId raw
    (server, .received raw :: events)
  | none =>
    match completeHandshake pb expectedProtoHash raw with
    | .error error =>
      (server.cleanUp connection handler, [.received raw, .refused error, .cleanedUp])
    | .ok senderId =>
      let handler := { handler with senderId := some senderId, writer := .waiting }
      let server := { server with peers := server.peers.insert senderId connection }
      let (server, events) := server.putIncoming connection handler senderId raw
      (server, .received raw :: .handshaken senderId :: events)

/-- `send`: the state, how the call ends, and its event.  Every connection in the peer table has been
accepted, so the second match always finds a handler. -/
def send (server : UdsIpcServer) (senderId : SenderId) (payload : Bytes) :
    UdsIpcServer × SendOutcome × UdsEvent :=
  match server.peers.lookup senderId with
  | none => (server, .unknownSender, .notSent senderId .unknownSender)
  | some connection =>
    match server.handlers connection with
    | none => (server, .unknownSender, .notSent senderId .unknownSender)
    | some handler =>
      if handler.sendQueue.length < sendQueueMaxsize then
        (server.setHandler connection { handler with sendQueue := handler.sendQueue ++ [payload] },
          .accepted, .peer connection (.sent senderId payload))
      else (server, .queueFull, .notSent senderId .queueFull)

/-! ### The machine -/

/-- The steps of one connection. -/
def stepPeer (pb : Protobuf) (expectedProtoHash : Bytes) (server : UdsIpcServer)
    (connection : ConnectionId) (handler : PeerHandler) :
    PeerAction → Option (UdsIpcServer × List PeerEvent)
  | .peerSends raw =>
    if handler.ended then none
    else some (server.setHandler connection { handler with inbox := handler.inbox ++ [raw] }, [])
  | .peerCloses => some (server.setHandler connection { handler with ended := true }, [])
  | .recv =>
    if handler.phase ≠ .receiving then none
    else
      match handler.inbox with
      | [] =>
        if handler.ended then some (server.cleanUp connection handler, [.cleanedUp]) else none
      | message :: inbox =>
        let handler := { handler with inbox := inbox }
        let raw := message.take recvBufferBytes
        if raw = [] then some (server.cleanUp connection handler, [.cleanedUp])
        else some (server.handleRaw pb expectedProtoHash connection handler raw)
  | .recvFails =>
    if handler.phase ≠ .receiving then none
    else some (server.cleanUp connection handler, [.cleanedUp])
  | .put =>
    match handler.phase, handler.senderId with
    | .putting raw, some senderId =>
      if server.incoming.length < incomingQueueMaxsize then
        some (server.putIncoming connection handler senderId raw)
      else none
    | _, _ => none
  | .cancel =>
    if handler.phase = .closed then none
    else some (server.cleanUp connection handler, [.cleanedUp])
  | .dequeue =>
    match handler.writer, handler.sendQueue with
    | .waiting, payload :: sendQueue =>
      some (server.setHandler connection
        { handler with writer := .sending payload, sendQueue := sendQueue }, [])
    | _, _ => none
  | .write =>
    match handler.writer with
    | .sending payload =>
      some (server.setHandler connection { handler with writer := .waiting }, [.written payload])
    | _ => none
  | .writeFails =>
    match handler.writer with
    | .sending _ =>
      -- shutting down the reading side lets the handler see the end of the stream
      some ({ server.setHandler connection { handler with writer := .failed, ended := true } with
          peers := dropPeer server.peers connection handler.senderId },
        [.writerFailed])
    | _ => none

def step (pb : Protobuf) (expectedProtoHash : Bytes) (server : UdsIpcServer) :
    UdsAction → Option (UdsIpcServer × List UdsEvent)
  | .accept =>
    some ({ server.setHandler server.accepted .new with accepted := server.accepted + 1 }, [])
  | .peer connection action => do
    let handler ← server.handlers connection
    let (server, events) ← server.stepPeer pb expectedProtoHash connection handler action
    pure (server, events.map (.peer connection))
  | .send senderId payload =>
    let (server, _, event) := server.send senderId payload
    some (server, [event])
  | .take =>
    match server.incoming with
    | [] => none
    | entry :: incoming => some ({ server with incoming := incoming }, [.taken entry])

/-- The server as a machine. -/
def machine (pb : Protobuf) (expectedProtoHash : Bytes) :
    EventMachine UdsIpcServer UdsAction UdsEvent where
  init := initial
  step := step pb expectedProtoHash

end UdsIpcServer

end FileMonitor
