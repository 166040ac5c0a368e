import FileMonitor.Ipc.Equiv.Flow
import FileMonitor.Main.Equiv.Pipeline

/-!
# The way of a message

A message goes from the socket to its peer handler, from there to the incoming queue, and from there to
the incoming loop, which the service takes it to in one step.

* `process_cases`, `sends_cases`, `core_cases`: what a step of the service can be, by its action.
* `messages_are_handled_in_order`: the messages received on a connection are, in their order, those handled,
  those on the queue and at most one in hand; and no queue grows beyond its bound.
-/

namespace FileMonitor

/-! ### Steps by their action -/

section Steps

variable {pb : Protobuf} {dispatcher : SessionDispatcher} {expectedProtoHash : Bytes}
  {service service' : Service} {es : List ServiceEvent}

/-- The incoming loop is given the head of the queue. -/
theorem process_cases
    (h : service.step pb dispatcher expectedProtoHash .process = some (service', es)) :
    ∃ entry incoming core events, service.ipc.incoming = entry :: incoming ∧
      CoreStep pb dispatcher service.core (.incoming entry.senderId entry.raw) events core ∧
      service' = ⟨{ service.ipc with incoming := incoming }, core⟩ ∧
      es = .ipc (.taken entry) :: events.map .core := by
  rw [Service.step] at h
  split at h
  · cases h
  · rename_i entry incoming hhead
    obtain ⟨⟨service₁, taken⟩, htake, h⟩ := Option.bind_eq_some_iff.mp h
    obtain ⟨⟨service₂, handled⟩, hcore, h⟩ := Option.bind_eq_some_iff.mp h
    obtain ⟨ipc, events, hipc, rfl, rfl⟩ := exists_of_stepIpc htake
    obtain ⟨core, events', hstep, rfl, rfl⟩ := exists_of_stepCore hcore
    obtain ⟨rfl, rfl⟩ := Prod.mk.inj (Option.some.inj h)
    rw [UdsIpcServer.step, hhead] at hipc
    obtain ⟨rfl, rfl⟩ := Prod.mk.inj (Option.some.inj hipc)
    exact ⟨entry, incoming, core, events', hhead, coreStep_of_step hstep, rfl, rfl⟩

/-- A dispatch calls `ipc.send`. -/
theorem sends_cases
    (h : service.step pb dispatcher expectedProtoHash .send = some (service', es)) :
    ∃ senderId payload core events, service.core.asks = some (.send senderId payload) ∧
      CoreStep pb dispatcher service.core (.sendEnds (service.ipc.send senderId payload).2.1) events core ∧
      service' = ⟨(service.ipc.send senderId payload).1, core⟩ ∧
      es = .ipc (service.ipc.send senderId payload).2.2 :: events.map .core := by
  rw [Service.step] at h
  split at h
  · rename_i senderId payload hasks
    obtain ⟨⟨service₁, sent⟩, hsend, h⟩ := Option.bind_eq_some_iff.mp h
    obtain ⟨⟨service₂, ended⟩, hcore, h⟩ := Option.bind_eq_some_iff.mp h
    obtain ⟨ipc, events, hipc, rfl, rfl⟩ := exists_of_stepIpc hsend
    obtain ⟨core, events', hstep, rfl, rfl⟩ := exists_of_stepCore hcore
    obtain ⟨rfl, rfl⟩ := Prod.mk.inj (Option.some.inj h)
    obtain ⟨rfl, rfl⟩ := Prod.mk.inj (Option.some.inj hipc)
    exact ⟨senderId, payload, core, events', hasks, coreStep_of_step hstep, rfl, rfl⟩
  · cases h

/-- The two loops do something that does not involve the server. -/
theorem core_cases {action : CoreAction}
    (h : service.step pb dispatcher expectedProtoHash (.core action) = some (service', es)) :
    (∀ senderId raw, action ≠ .incoming senderId raw) ∧ (∀ outcome, action ≠ .sendEnds outcome) ∧
    ∃ core events, CoreStep pb dispatcher service.core action events core ∧
      service' = { service with core := core } ∧ es = events.map .core := by
  have hcore (h : service.stepCore pb dispatcher action = some (service', es)) :
      ∃ core events, CoreStep pb dispatcher service.core action events core ∧
        service' = { service with core := core } ∧ es = events.map .core := by
    obtain ⟨core, events, hstep, rfl, rfl⟩ := exists_of_stepCore h
    exact ⟨core, events, coreStep_of_step hstep, rfl, rfl⟩
  cases action with
  | incoming => cases h
  | sendEnds => cases h
  | _ => exact ⟨nofun, nofun, hcore h⟩

end Steps

/-! ### Messages -/

/-- The pairs that the incoming loop has handled. -/
def handledPairs (tr : List ServiceEvent) : List (SenderId × Bytes) :=
  tr.filterMap fun
    | .core (.handled senderId raw) => some (senderId, raw)
    | _ => none

/-- What `incoming()` gives its consumer. -/
def IncomingEntry.pair (entry : IncomingEntry) : SenderId × Bytes := (entry.senderId, entry.raw)

/-- The messages of a connection among the entries. -/
def rawsFrom (connection : ConnectionId) (entries : List IncomingEntry) : List Bytes :=
  (entries.filter fun entry => entry.connection = connection).map IncomingEntry.raw

theorem rawsFrom_append (connection : ConnectionId) (entries entries' : List IncomingEntry) :
    rawsFrom connection (entries ++ entries')
      = rawsFrom connection entries ++ rawsFrom connection entries' := by
  unfold rawsFrom
  rw [List.filter_append, List.map_append]

theorem handledPairs_append (tr es : List ServiceEvent) :
    handledPairs (tr ++ es) = handledPairs tr ++ handledPairs es := List.filterMap_append

theorem handledPairs_map_ipc (events : List UdsEvent) : handledPairs (events.map .ipc) = [] := by
  unfold handledPairs
  rw [List.filterMap_map]
  exact List.filterMap_eq_nil_iff.mpr fun _ _ => rfl

section Messages

variable {pb : Protobuf} {dispatcher : SessionDispatcher} {expectedProtoHash : Bytes}
  {service service' : Service} {tr es : List ServiceEvent}

/-- What the incoming loop has taken from the queue it has handled; a message that it has not handled has
ended it. -/
def HandledInv (tr : List ServiceEvent) (service : Service) : Prop :=
  ∃ unhandled, (takenEntries (ipcTrace tr)).map IncomingEntry.pair = handledPairs tr ++ unhandled ∧
    unhandled.length ≤ 1 ∧ (service.core.loopRunning = true → unhandled = [])

/-- A step that takes nothing from the queue. -/
theorem HandledInv.append (hinv : HandledInv tr service) (htaken : takenEntries (ipcTrace es) = [])
    (hhandled : handledPairs es = []) (hrunning : service'.core.loopRunning = service.core.loopRunning) :
    HandledInv (tr ++ es) service' := by
  obtain ⟨unhandled, heq, hlength, hnone⟩ := hinv
  refine ⟨unhandled, ?_, hlength, fun h => hnone (hrunning ▸ h)⟩
  rw [ipcTrace_append, takenEntries_append, htaken, handledPairs_append, hhandled, List.append_nil,
    List.append_nil]
  exact heq

/-- Only a pair given to the incoming loop is handled by it. -/
theorem CoreStep.of_alone {core core' : Core} {action : CoreAction} {events : List CoreEvent}
    (step : CoreStep pb dispatcher core action events core')
    (halone : ∀ senderId raw, action ≠ .incoming senderId raw) :
    handledPairs (events.map .core) = [] ∧ core'.loopRunning = core.loopRunning := by
  cases step with
  | @handled senderId raw => exact absurd rfl (halone senderId raw)
  | @loopRaised senderId raw => exact absurd rfl (halone senderId raw)
  | _ => exact ⟨rfl, rfl⟩

theorem HandledInv.step (hinv : HandledInv tr service) {action : ServiceAction}
    (h : service.step pb dispatcher expectedProtoHash action = some (service', es)) :
    HandledInv (tr ++ es) service' := by
  have hipc (udsAction : UdsAction) (htake : udsAction ≠ .take)
      (h : service.stepIpc pb expectedProtoHash udsAction = some (service', es)) :
      HandledInv (tr ++ es) service' := by
    obtain ⟨ipc, events, hstep, rfl, rfl⟩ := exists_of_stepIpc h
    refine hinv.append ?_ (handledPairs_map_ipc _) rfl
    rw [ipcTrace_map_ipc]
    rcases step_cases hstep with ⟨-, rfl, -⟩ | ⟨connection, _, _, _, events, -, -, -, rfl, -⟩ |
      ⟨senderId, payload, -, rfl, -⟩ | ⟨entry, incoming, rfl, -⟩
    · rfl
    · exact takenEntries_map_peer connection events
    · rcases send_cases service.ipc senderId payload with ⟨_, _, -, -, hsend⟩ | ⟨_, -, hsend⟩ <;>
        rw [hsend] <;> rfl
    · exact absurd rfl htake
  cases action with
  | accept => exact hipc .accept nofun h
  | peer connection action => exact hipc (.peer connection action) nofun h
  | process =>
    obtain ⟨entry, incoming, core, events, hhead, step, rfl, rfl⟩ := process_cases h
    obtain ⟨unhandled, heq, hlength, hnone⟩ := hinv
    cases step with
    | handled hrunning =>
      refine ⟨[], ?_, Nat.zero_le 1, fun _ => rfl⟩
      rw [ipcTrace_append, takenEntries_append, List.map_append, heq, hnone hrunning, handledPairs_append,
        List.append_nil, List.append_nil]
      rfl
    | loopRaised hrunning =>
      refine ⟨[entry.pair], ?_, le_rfl, nofun⟩
      rw [ipcTrace_append, takenEntries_append, List.map_append, heq, hnone hrunning, handledPairs_append,
        List.append_nil]
      show handledPairs tr ++ [entry.pair] = handledPairs tr ++ [] ++ [entry.pair]
      rw [List.append_nil]
  | send =>
    obtain ⟨senderId, payload, core, events, -, step, rfl, rfl⟩ := sends_cases h
    obtain ⟨hhandled, hrunning⟩ := step.of_alone nofun
    refine hinv.append ?_ hhandled hrunning
    rw [ipcTrace_cons_ipc, ipcTrace_map_core]
    rcases send_cases service.ipc senderId payload with ⟨_, _, -, -, hsend⟩ | ⟨_, -, hsend⟩ <;>
      rw [hsend] <;> rfl
  | core action =>
    obtain ⟨halone, -, core, events, step, rfl, rfl⟩ := core_cases h
    obtain ⟨hhandled, hrunning⟩ := step.of_alone halone
    refine hinv.append ?_ hhandled hrunning
    rw [ipcTrace_map_core]
    rfl

theorem HandledInv.of_runs (run : (Service.machine pb dispatcher expectedProtoHash).Runs tr service) :
    HandledInv tr service :=
  run.invariant (I := HandledInv) ⟨[], rfl, Nat.zero_le 1, fun _ => rfl⟩
    fun _ _ _ _ _ _ hinv _ hstep => hinv.step hstep

/-- **Messages are handled in order.**  In every run, what the incoming loop has taken from the queue it has
handled, in the order of the queue, up to one message that has ended it.  The messages received on a
connection are, in their order, those taken, those on the queue, and at most one more; so none is lost but
the one in hand when its handler ends.  The incoming queue and the send queues keep to their bounds. -/
theorem messages_are_handled_in_order
    (run : (Service.machine pb dispatcher expectedProtoHash).Runs tr service) :
    (∃ unhandled, (takenEntries (ipcTrace tr)).map IncomingEntry.pair = handledPairs tr ++ unhandled ∧
      unhandled.length ≤ 1 ∧ (service.core.loopRunning = true → unhandled = [])) ∧
    (∀ connection, ∃ inHand, receivedOf (historyOf connection (ipcTrace tr))
      = rawsFrom connection (takenEntries (ipcTrace tr)) ++ rawsFrom connection service.ipc.incoming ++
          inHand ∧ inHand.length ≤ 1) ∧
    service.ipc.incoming.length ≤ incomingQueueMaxsize ∧
    ∀ connection handler, service.ipc.handlers connection = some handler →
      handler.sendQueue.length ≤ sendQueueMaxsize := by
  have hkeep := ServerInv.of_runs (ipcTrace_runs run)
  have hflow := ServerFlow.of_runs (ipcTrace_runs run)
  refine ⟨HandledInv.of_runs run, fun connection => ?_, hflow.incoming, fun connection handler h =>
    (hflow.handlers connection handler h).sendQueue⟩
  rw [← rawsFrom_append, hkeep.queue]
  have henqueued : (enqueuedOf (historyOf connection (ipcTrace tr))).map Prod.snd
      = rawsFrom connection (enqueuedEntries (ipcTrace tr)) := by
    rw [enqueuedOf_historyOf, List.map_map]
    rfl
  rw [← henqueued]
  rcases hhandler : service.ipc.handlers connection with _ | handler
  · rw [hkeep.silent connection hhandler]
    exact ⟨[], rfl, Nat.zero_le 1⟩
  · exact (hflow.handlers connection handler hhandler).inHand

end Messages

/-! ### A message that ends the loop -/

/-- A sender sends bytes that are no message, and a heartbeat. -/
def garbledActions : List ServiceAction :=
  connectActions 0 ++ [.peer 0 (.peerSends [0xff]), .peer 0 (.peerSends heartbeatBytes), .peer 0 .recv,
    .peer 0 .recv, .process]

def garbledTrace : List ServiceEvent :=
  connectTrace 0 ++ [.ipc (.peer 0 (.received [0xff])), .ipc (.peer 0 (.enqueued 1 [0xff])),
    .ipc (.peer 0 (.received heartbeatBytes)), .ipc (.peer 0 (.enqueued 1 heartbeatBytes)),
    .ipc (.taken ⟨0, 1, [0xff]⟩), .core (.loopRaised (.protobuf "Error parsing message"))]

/-- The heartbeat stays on the queue. -/
theorem messages_are_handled_in_order_garbled :
    ∃ service, (Service.machine removalProtobuf tenBlocksDispatcher [0xaa]).Runs garbledTrace service ∧
      (∃ unhandled : List (SenderId × Bytes),
        [(1, helloBytes), (1, [0xff])] = [(1, helloBytes)] ++ unhandled ∧
        unhandled.length ≤ 1) ∧
      ∃ inHand, [helloBytes, [0xff], heartbeatBytes]
        = [helloBytes, [0xff]] ++ rawsFrom 0 service.ipc.incoming ++ inHand ∧ inHand.length ≤ 1 := by
  obtain ⟨service, run, -⟩ := EventMachine.exists_runsUnder_of_map_eq
    (show ((Service.machine removalProtobuf tenBlocksDispatcher [0xaa]).run garbledActions).map Prod.fst
      = some garbledTrace by decide +kernel)
  obtain ⟨⟨unhandled, htaken, hlength, -⟩, hreceived, -⟩ := messages_are_handled_in_order run
  exact ⟨service, run, ⟨unhandled, htaken, hlength⟩, hreceived 0⟩

end FileMonitor
