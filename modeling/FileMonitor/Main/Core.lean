import FileMonitor.Library.EventMachine
import FileMonitor.Main.Incoming

/-!
# The two loops of the service

`_run_incoming_dispatch_loop` and `_run_detection_pipeline` as one machine over the state they share: the
registry and the tracked sessions.  The pipeline runs one dispatch at a time; what a dispatch asks of
the file system, the random generator and the server is answered by the actions, so that every step of
the other loop, and the passing of time, can come between any two effects.
-/

namespace FileMonitor

/-- Where `_run_detection_pipeline` stands: waiting for a path, or in a call of `dispatch`, with the
session id this call has generated, if any. -/
inductive Pipeline where
  | idle
  | dispatching (rest : DispatchCoroutine (Option SessionId)) (sessionId : Option SessionId)

/-- The state of the two loops. -/
structure Core where
  now : ℚ
  shared : IncomingState
  pipeline : Pipeline
  /-- The incoming loop has not been ended by an exception. -/
  loopRunning : Bool

inductive CoreAction where
  /-- Time passes. -/
  | tick (seconds : ℚ)
  /-- The incoming loop is given a pair. -/
  | incoming (senderId : SenderId) (raw : Bytes)
  /-- The watcher gives the pipeline a path. -/
  | detect (path : PosixPath)
  | statEnds (result : Except String ℕ)
  | hashEnds (result : Except String String)
  | generate (sessionId : SessionId)
  | sendEnds (outcome : SendOutcome)
  /-- Any other effect of the dispatch, or its end. -/
  | resume

inductive CoreEvent where
  | handled (senderId : SenderId) (raw : Bytes)
  | loopRaised (error : PyError)
  | detected (path : PosixPath)
  | statEnded (path : PosixPath) (result : Except String ℕ)
  | hashEnded (path : PosixPath) (result : Except String String)
  | activeSenders (senderIds : List SenderId)
  | generated (sessionId : SessionId)
  | sendEnded (senderId : SenderId) (payload : Bytes) (outcome : SendOutcome)
  | removed (senderId : SenderId)
  | tracked (sessionId : SessionId) (senderIds : List SenderId)
  | returned (sessionId : Option SessionId)
  | raised (error : PyError)
deriving DecidableEq

namespace Core

open DispatchEffect

/-- `run` at its start. -/
def initial : Core where
  now := 0
  shared := ⟨.create heartbeatIntervalSeconds, ∅⟩
  pipeline := .idle
  loopRunning := true

/-- The effect the current dispatch asks for. -/
def asks (core : Core) : Option DispatchEffect :=
  match core.pipeline with
  | .dispatching (.ask effect _) _ => some effect
  | _ => none

/-- The session the current dispatch has generated. -/
def session (core : Core) : Option SessionId :=
  match core.pipeline with
  | .idle => none
  | .dispatching _ sessionId => sessionId

/-- One step of the current dispatch: the answer to the effect it asks for, or its end.  The pipeline
logs what a dispatch raises and waits for the next path. -/
def stepDispatch (core : Core) (sessionId : Option SessionId) :
    DispatchCoroutine (Option SessionId) → CoreAction → Option (Core × List CoreEvent)
  | .ret result, .resume => some ({ core with pipeline := .idle }, [.returned result])
  | .raise error, .resume => some ({ core with pipeline := .idle }, [.raised error])
  | .ask (.stat path) rest, .statEnds result =>
    some ({ core with pipeline := .dispatching (rest result) sessionId }, [.statEnded path result])
  | .ask (.computeHash path) rest, .hashEnds result =>
    some ({ core with pipeline := .dispatching (rest result) sessionId }, [.hashEnded path result])
  | .ask .activeSenders rest, .resume =>
    let (senderIds, registry) := core.shared.registry.activeSenders core.now
    some
      ({ core with
          shared := { core.shared with registry := registry }
          pipeline := .dispatching (rest senderIds) sessionId },
        [.activeSenders senderIds])
  | .ask .generateSessionId rest, .generate newId =>
    some ({ core with pipeline := .dispatching (rest newId) (some newId) }, [.generated newId])
  | .ask (.send senderId payload) rest, .sendEnds outcome =>
    some ({ core with pipeline := .dispatching (rest outcome) sessionId },
      [.sendEnded senderId payload outcome])
  | .ask (.removeSender senderId) rest, .resume =>
    some
      ({ core with
          shared := { core.shared with registry := core.shared.registry.remove senderId }
          pipeline := .dispatching (rest ()) sessionId },
        [.removed senderId])
  | .ask (.sleep _) rest, .resume =>
    some ({ core with pipeline := .dispatching (rest ()) sessionId }, [])
  | .ask (.log _) rest, .resume =>
    some ({ core with pipeline := .dispatching (rest ()) sessionId }, [])
  | .ask (.trackSession trackedId senderIds) rest, .resume =>
    some
      ({ core with
          shared :=
            { core.shared with
              dispatchedSessions := core.shared.dispatchedSessions.insert trackedId senderIds }
          pipeline := .dispatching (rest ()) sessionId },
        [.tracked trackedId senderIds])
  | _, _ => none

def step (pb : Protobuf) (dispatcher : SessionDispatcher) (core : Core) (action : CoreAction) :
    Option (Core × List CoreEvent) :=
  match action with
  | .tick seconds =>
    if 0 ≤ seconds then some ({ core with now := core.now + seconds }, []) else none
  | .incoming senderId raw =>
    if core.loopRunning then
      match handleIncoming pb core.shared ⟨core.now, senderId, raw⟩ with
      | .ok shared => some ({ core with shared := shared }, [.handled senderId raw])
      -- nothing in the loop catches what a message raises
      | .error error => some ({ core with loopRunning := false }, [.loopRaised error])
    else none
  | .detect path =>
    match core.pipeline with
    | .idle =>
      some ({ core with pipeline := .dispatching (dispatcher.dispatch pb path) none },
        [.detected path])
    | .dispatching .. => none
  | action =>
    match core.pipeline with
    | .idle => none
    | .dispatching rest sessionId => core.stepDispatch sessionId rest action

/-- The two loops as a machine. -/
def machine (pb : Protobuf) (dispatcher : SessionDispatcher) :
    EventMachine Core CoreAction CoreEvent where
  init := initial
  step := step pb dispatcher

end Core

end FileMonitor
