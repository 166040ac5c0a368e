import FileMonitor.Ipc.Uds
import FileMonitor.Main.Core

/-!
# The service

The tasks that `run` starts around the socket: the server with its peer handlers, the incoming loop and
the detection pipeline.  The incoming loop takes what the server has queued, and what a dispatch sends
goes through the server; everything else the two halves do on their own.
-/

namespace FileMonitor

structure Service where
  ipc : UdsIpcServer
  core : Core

inductive ServiceAction where
  | accept
  | peer (connection : ConnectionId) (action : PeerAction)
  /-- The incoming loop takes the next pair from the queue and handles it. -/
  | process
  /-- The dispatch calls `ipc.send`. -/
  | send
  /-- A step of the two loops that does not involve the server. -/
  | core (action : CoreAction)

inductive ServiceEvent where
  | ipc (event : UdsEvent)
  | core (event : CoreEvent)
deriving DecidableEq

namespace Service

def initial : Service where
  ipc := .initial
  core := .initial

/-- A step of the server alone. -/
def stepIpc (pb : Protobuf) (expectedProtoHash : Bytes) (service : Service) (action : UdsAction) :
    Option (Service × List ServiceEvent) := do
  let (ipc, events) ← service.ipc.step pb expectedProtoHash action
  pure ({ service with ipc := ipc }, events.map .ipc)

/-- A step of the two loops alone. -/
def stepCore (pb : Protobuf) (dispatcher : SessionDispatcher) (service : Service)
    (action : CoreAction) : Option (Service × List ServiceEvent) := do
  let (core, events) ← service.core.step pb dispatcher action
  pure ({ service with core := core }, events.map .core)

def step (pb : Protobuf) (dispatcher : SessionDispatcher) (expectedProtoHash : Bytes)
    (service : Service) : ServiceAction → Option (Service × List ServiceEvent)
  | .accept => service.stepIpc pb expectedProtoHash .accept
  | .peer connection action => service.stepIpc pb expectedProtoHash (.peer connection action)
  | .process =>
    match service.ipc.incoming with
    | [] => none
    | entry :: _ => do
      let (service, taken) ← service.stepIpc pb expectedProtoHash .take
      let (service, handled) ←
        service.stepCore pb dispatcher (.incoming entry.senderId entry.raw)
      pure (service, taken ++ handled)
  | .send =>
    match service.core.asks with
    | some (.send senderId payload) => do
      let outcome := (service.ipc.send senderId payload).2.1
      let (service, sent) ← service.stepIpc pb expectedProtoHash (.send senderId payload)
      let (service, ended) ← service.stepCore pb dispatcher (.sendEnds outcome)
      pure (service, sent ++ ended)
    | _ => none
  -- these two go through the server
  | .core (.incoming ..) | .core (.sendEnds _) => none
  | .core action => service.stepCore pb dispatcher action

/-- The service as a machine. -/
def machine (pb : Protobuf) (dispatcher : SessionDispatcher) (expectedProtoHash : Bytes) :
    EventMachine Service ServiceAction ServiceEvent where
  init := initial
  step := step pb dispatcher expectedProtoHash

end Service

end FileMonitor
