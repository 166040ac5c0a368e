import FileMonitor.Library.Settles
import FileMonitor.Main.Equiv.Messages
import Mathlib.Algebra.BigOperators.Group.Finset.Piecewise

/-!
# The service comes to rest

`UdsIpcServer.work` goes down with every step that a handler, a writer or the incoming loop takes on its
own, and `Pipeline.After` with every step of a dispatch.

* `service_comes_to_rest`: so these steps come to an end, where every message has been handled and every
  payload for a peer that reads has been written, or where a message has ended the incoming loop.
-/

namespace FileMonitor

open UdsIpcServer

/-! ### A measure -/

/-- A step that a handler or a writer takes on its own: `sock_sendall` returns where the peer reads. -/
def PeerAction.Own (reads : Prop) : PeerAction → Prop
  | .recv | .put | .dequeue => True
  | .write => reads
  | _ => False

/-- A step of the service while nothing comes in from outside and the peers of these connections go on
reading. -/
def ServiceAction.Inner (reading : Set ConnectionId) : ServiceAction → Prop
  | .peer connection action => action.Own (connection ∈ reading)
  | .process => True
  | action => action.Own

/-- The steps left to the message in hand. -/
def HandlerPhase.work : HandlerPhase → ℕ
  | .receiving => 1
  | .putting _ => 3
  | .closed => 0

def WriterState.work : WriterState → ℕ
  | .sending _ => 1
  | _ => 0

def PeerHandler.work (handler : PeerHandler) : ℕ :=
  3 * handler.inbox.length + handler.phase.work + 2 * handler.sendQueue.length + handler.writer.work

def UdsIpcServer.work (server : UdsIpcServer) : ℕ :=
  server.incoming.length +
    ∑ connection ∈ Finset.range server.accepted, ((server.handlers connection).map PeerHandler.work).getD 0

section Work

variable {pb : Protobuf} {expectedProtoHash : Bytes} {server server' : UdsIpcServer}
  {connection : ConnectionId} {handler : PeerHandler} {events : List PeerEvent}

theorem work_cancel_le (writer : WriterState) : writer.cancel.work ≤ writer.work := by
  cases writer <;> simp [WriterState.cancel, WriterState.work]

/-- The server after a step of one connection that leaves its handler and the queue this much work. -/
def WorkAfter (server : UdsIpcServer) (connection : ConnectionId) (work : ℕ) (server' : UdsIpcServer) :
    Prop :=
  server'.accepted = server.accepted ∧
  ∃ handler', server'.handlers = (server.setHandler connection handler').handlers ∧
    handler'.work + server'.incoming.length ≤ work + server.incoming.length

theorem workAfter_cleanUp (hopen : handler.phase = .receiving) {work : ℕ} (hwork : handler.work ≤ work + 1) :
    WorkAfter server connection work (server.cleanUp connection handler) := by
  refine ⟨rfl, { handler with phase := .closed, writer := handler.writer.cancel }, rfl, ?_⟩
  have hwriter := work_cancel_le handler.writer
  simp only [PeerHandler.work, hopen, HandlerPhase.work] at hwork
  show (3 * handler.inbox.length + 0 + 2 * handler.sendQueue.length + handler.writer.cancel.work)
    + server.incoming.length ≤ _
  omega

/-- A message put on the queue, or kept in hand. -/
theorem workAfter_putIncoming (hreceiving : handler.phase = .receiving) {work : ℕ}
    (hwork : handler.work + 2 ≤ work) (senderId : SenderId) (raw : Bytes) :
    WorkAfter server connection work (server.putIncoming connection handler senderId raw).1 := by
  simp only [PeerHandler.work, hreceiving, HandlerPhase.work] at hwork
  unfold putIncoming
  split_ifs
  · refine ⟨rfl, { handler with phase := .receiving }, rfl, ?_⟩
    show (3 * handler.inbox.length + 1 + 2 * handler.sendQueue.length + handler.writer.work)
      + (server.incoming ++ [_]).length ≤ _
    rw [List.length_append, List.length_singleton]
    omega
  · refine ⟨rfl, { handler with phase := .putting raw }, rfl, ?_⟩
    show (3 * handler.inbox.length + 3 + 2 * handler.sendQueue.length + handler.writer.work)
      + server.incoming.length ≤ _
    omega

theorem workAfter_handleRaw (hreceiving : handler.phase = .receiving) {work : ℕ}
    (hwork : handler.work + 2 ≤ work) (raw : Bytes) :
    WorkAfter server connection work
      (server.handleRaw pb expectedProtoHash connection handler raw).1 := by
  unfold handleRaw
  split
  · exact workAfter_putIncoming hreceiving hwork _ raw
  · split
    · exact workAfter_cleanUp hreceiving (by omega)
    · rename_i senderId _
      -- a writer that waits has nothing to do
      let known : PeerHandler := { handler with senderId := some senderId, writer := .waiting }
      let table : UdsIpcServer := { server with peers := server.peers.insert senderId connection }
      have hknown : known.work + 2 ≤ work := by
        refine le_trans (Nat.add_le_add_right ?_ 2) hwork
        exact Nat.add_le_add_left (Nat.zero_le _) _
      have hphase : known.phase = .receiving := hreceiving
      have hput : WorkAfter table connection work (table.putIncoming connection known senderId raw).1 :=
        workAfter_putIncoming hphase hknown senderId raw
      exact hput

/-- **Every step that a handler or a writer takes on its own leaves less to do.** -/
theorem workAfter_stepPeer {reads : Prop} {action : PeerAction} (hown : action.Own reads)
    (h : server.stepPeer pb expectedProtoHash connection handler action = some (server', events)) :
    ∃ work < handler.work, WorkAfter server connection work server' := by
  cases action with
  | recv =>
    simp only [stepPeer] at h
    by_cases hphase : handler.phase ≠ .receiving
    · rw [if_pos hphase] at h
      cases h
    rw [if_neg hphase] at h
    rw [not_not] at hphase
    have hwork : handler.work
        = 3 * handler.inbox.length + 1 + 2 * handler.sendQueue.length + handler.writer.work := by
      simp only [PeerHandler.work, hphase, HandlerPhase.work]
    split at h
    · split_ifs at h
      obtain ⟨rfl, -⟩ := Prod.mk.inj (Option.some.inj h)
      exact ⟨handler.work - 1, by omega, workAfter_cleanUp hphase (by omega)⟩
    · rename_i message inbox hinbox
      rw [hinbox, List.length_cons] at hwork
      let taken : PeerHandler := { handler with inbox := inbox }
      have hphase' : taken.phase = .receiving := hphase
      have htaken : taken.work + 3 = handler.work := by
        rw [hwork]
        simp only [taken, PeerHandler.work, hphase, HandlerPhase.work]
        omega
      refine ⟨taken.work + 2, by omega, ?_⟩
      split_ifs at h
      · obtain ⟨rfl, -⟩ := Prod.mk.inj (Option.some.inj h)
        exact workAfter_cleanUp hphase' (by omega)
      · rw [← show _ = server' from congrArg Prod.fst (Option.some.inj h)]
        exact workAfter_handleRaw hphase' le_rfl _
  | put =>
    simp only [stepPeer] at h
    split at h
    · rename_i raw senderId hphase hknown
      split_ifs at h with hroom
      rw [putIncoming, if_pos hroom] at h
      obtain ⟨rfl, -⟩ := Prod.mk.inj (Option.some.inj h)
      refine ⟨handler.work - 1, ?_, rfl, { handler with phase := .receiving }, rfl, ?_⟩
      · simp only [PeerHandler.work, hphase, HandlerPhase.work]
        omega
      · simp only [PeerHandler.work, hphase, HandlerPhase.work, List.length_append, List.length_singleton]
        omega
    · cases h
  | dequeue =>
    simp only [stepPeer] at h
    split at h
    · rename_i payload sendQueue hwriter hqueue
      obtain ⟨rfl, -⟩ := Prod.mk.inj (Option.some.inj h)
      refine ⟨handler.work - 1, ?_, rfl, _, rfl, ?_⟩
      · simp only [PeerHandler.work, hqueue, List.length_cons]
        omega
      · simp only [PeerHandler.work, hwriter, hqueue, List.length_cons, WriterState.work, setHandler]
        omega
    · cases h
  | write =>
    simp only [stepPeer] at h
    split at h
    · rename_i payload hwriter
      obtain ⟨rfl, -⟩ := Prod.mk.inj (Option.some.inj h)
      refine ⟨handler.work - 1, ?_, rfl, _, rfl, ?_⟩
      · simp only [PeerHandler.work, hwriter, WriterState.work]
        omega
      · simp only [PeerHandler.work, hwriter, WriterState.work, setHandler]
        omega
    · cases h
  | _ => cases hown

/-- The work of the server after a step of one connection. -/
theorem WorkAfter.work_lt {work : ℕ} (h : WorkAfter server connection work server')
    (hless : work < handler.work) (hhandler : server.handlers connection = some handler)
    (hknown : connection < server.accepted) : server'.work < server.work := by
  obtain ⟨haccepted, handler', hhandlers, hle⟩ := h
  -- one term of the sum changes
  let workOf : Option PeerHandler → ℕ := fun handler => (handler.map PeerHandler.work).getD 0
  have hmem : connection ∈ Finset.range server.accepted := Finset.mem_range.mpr hknown
  have hupdate : (fun other => workOf (server'.handlers other))
      = Function.update (fun other => workOf (server.handlers other)) connection handler'.work := by
    rw [hhandlers]
    exact Function.comp_update workOf server.handlers connection (some handler')
  have hsum := Finset.sum_update_of_mem hmem (fun other => workOf (server.handlers other)) handler'.work
  have hself := Finset.sum_update_of_mem hmem (fun other => workOf (server.handlers other))
    (workOf (server.handlers connection))
  rw [Function.update_eq_self] at hself
  have hwork : workOf (server.handlers connection) = handler.work := by
    rw [hhandler]
    rfl
  have hnew : server'.work
      = server'.incoming.length +
          ∑ other ∈ Finset.range server.accepted, workOf (server'.handlers other) := by
    rw [← haccepted]
    rfl
  have hold : server.work
      = server.incoming.length +
          ∑ other ∈ Finset.range server.accepted, workOf (server.handlers other) := rfl
  rw [hnew, hold, hupdate, hsum, hself, hwork]
  omega

end Work

/-! ### At rest -/

/-- The handler waits for its peer or has ended, and the writer has written what it was given, unless the
peer does not read. -/
structure PeerHandler.Resting (reads : Prop) (handler : PeerHandler) : Prop where
  phase : handler.phase = .closed ∨
    handler.phase = .receiving ∧ handler.inbox = [] ∧ handler.ended = false
  writer : reads → ∀ payload, handler.writer ≠ .sending payload
  sendQueue : handler.writer = .waiting → handler.sendQueue = []

structure Service.Resting (reading : Set ConnectionId) (service : Service) : Prop where
  pipeline : service.core.pipeline = .idle
  incoming : service.ipc.incoming = []
  handlers : ∀ connection handler, service.ipc.handlers connection = some handler →
    handler.Resting (connection ∈ reading)

/-- Inner steps go down in this order. -/
def Service.Below (service' service : Service) : Prop :=
  Prod.Lex Pipeline.After (· < ·) (service'.core.pipeline, service'.ipc.work)
    (service.core.pipeline, service.ipc.work)

theorem Service.wellFounded_below : WellFounded Service.Below :=
  InvImage.wf (fun service : Service => (service.core.pipeline, service.ipc.work))
    (WellFounded.prod_lex wellFounded_after Nat.lt_wfRel.wf)

section Rest

variable {pb : Protobuf} {dispatcher : SessionDispatcher} {expectedProtoHash : Bytes}
  {service service' : Service} {tr es : List ServiceEvent} {reading : Set ConnectionId}

/-- A handler that is not at rest has a step to take, where there is room on the queue. -/
theorem PeerHandler.resting_or_own_step (pb : Protobuf) (expectedProtoHash : Bytes) (reads : Prop)
    {server : UdsIpcServer} (connection : ConnectionId) {handler : PeerHandler}
    (hroom : server.incoming = [])
    (hknown : ∀ raw, handler.phase = .putting raw → handler.senderId ≠ none) :
    handler.Resting reads ∨ ∃ action : PeerAction, action.Own reads ∧
      (server.stepPeer pb expectedProtoHash connection handler action).isSome := by
  by_cases hown : ∃ action : PeerAction, action.Own reads ∧
    (server.stepPeer pb expectedProtoHash connection handler action).isSome
  · exact .inr hown
  refine .inl ⟨?_, fun hreads payload hsending => ?_, fun hwaiting => ?_⟩
  · cases hphase : handler.phase with
    | closed => exact .inl rfl
    | putting raw =>
      obtain ⟨senderId, hid⟩ := Option.ne_none_iff_exists'.mp (hknown raw hphase)
      refine absurd ⟨.put, trivial, ?_⟩ hown
      simp [stepPeer, hphase, hid, hroom, incomingQueueMaxsize]
    | receiving =>
      refine .inr ⟨rfl, ?_⟩
      by_contra hmore
      refine hown ⟨.recv, trivial, ?_⟩
      simp only [stepPeer, hphase, ne_eq, not_true_eq_false, if_false]
      cases hinbox : handler.inbox with
      | nil =>
        have hended : handler.ended = true := by simpa [hinbox] using hmore
        simp [hended]
      | cons message inbox =>
        dsimp only
        split_ifs <;> rfl
  · refine hown ⟨.write, hreads, ?_⟩
    simp [stepPeer, hsending]
  · by_contra hmore
    obtain ⟨payload, sendQueue, hqueue⟩ := List.exists_cons_of_ne_nil hmore
    refine hown ⟨.dequeue, trivial, ?_⟩
    simp [stepPeer, hwaiting, hqueue]

/-- A handler with a message in hand knows its sender. -/
theorem HandlerInv.known_of_putting {history : List PeerEvent} {handler : PeerHandler}
    (hkeep : HandlerInv pb expectedProtoHash history handler) {raw : Bytes}
    (hputting : handler.phase = .putting raw) : handler.senderId ≠ none := by
  intro hunknown
  have hpending := hkeep.pending (by rw [hputting]; exact nofun)
  rw [hputting] at hpending
  rcases hkeep.refused hunknown with hnone | ⟨hclosed, -⟩
  · rw [hnone] at hpending
    simp [HandlerPhase.pending] at hpending
  · rw [hputting] at hclosed
    cases hclosed

/-- **While the incoming loop runs, there is a step to take or the service is at rest.** -/
theorem resting_or_inner_step (reading : Set ConnectionId)
    (run : (Service.machine pb dispatcher expectedProtoHash).Runs tr service)
    (hrunning : service.core.loopRunning = true) :
    service.Resting reading ∨ ∃ action : ServiceAction, action.Inner reading ∧
      (service.step pb dispatcher expectedProtoHash action).isSome := by
  have hkeep := ServerInv.of_runs (ipcTrace_runs run)
  by_cases hidle : service.core.pipeline = .idle
  · cases hincoming : service.ipc.incoming with
    | cons entry incoming =>
      refine .inr ⟨.process, trivial, ?_⟩
      rcases hhandle :
          handleIncoming pb service.core.shared ⟨service.core.now, entry.senderId, entry.raw⟩ with
        error | shared
      all_goals simp [Service.step, Service.stepIpc, Service.stepCore, UdsIpcServer.step, Core.step, hincoming,
        hrunning, hhandle]
    | nil =>
      by_cases hpeer : ∃ connection action, PeerAction.Own (connection ∈ reading) action ∧
        (service.step pb dispatcher expectedProtoHash (.peer connection action)).isSome
      · obtain ⟨connection, action, hown, hsome⟩ := hpeer
        exact .inr ⟨.peer connection action, hown, hsome⟩
      · refine .inl ⟨hidle, hincoming, fun connection handler hhandler => ?_⟩
        have hhand := hkeep.handler connection handler hhandler
        refine (PeerHandler.resting_or_own_step pb expectedProtoHash _ connection hincoming
          fun _ => hhand.known_of_putting).resolve_right ?_
        rintro ⟨action, hown, hsome⟩
        obtain ⟨⟨ipc, events⟩, hstep⟩ := Option.isSome_iff_exists.mp hsome
        refine hpeer ⟨connection, action, hown, ?_⟩
        simp [Service.step, Service.stepIpc, UdsIpcServer.step, hhandler, hstep]
  · obtain ⟨action, hown, hsome⟩ := exists_own_service_step pb dispatcher expectedProtoHash hidle
    refine .inr ⟨action, ?_, hsome⟩
    cases action with
    | accept => cases hown
    | peer => cases hown
    | process => cases hown
    | _ => exact hown

/-- **One inner step.** -/
theorem below_of_inner (run : (Service.machine pb dispatcher expectedProtoHash).Runs tr service)
    {action : ServiceAction} (hinner : action.Inner reading)
    (h : service.step pb dispatcher expectedProtoHash action = some (service', es)) :
    service'.Below service := by
  cases action with
  | accept => cases hinner
  | peer connection action =>
    obtain ⟨ipc, events, hstep, rfl, -⟩ := exists_of_stepIpc h
    obtain ⟨handler, hhandler, hstep⟩ := Option.bind_eq_some_iff.mp hstep
    obtain ⟨⟨server, peerEvents⟩, hpeer, hstep⟩ := Option.bind_eq_some_iff.mp hstep
    obtain ⟨rfl, -⟩ := Prod.mk.inj (Option.some.inj hstep)
    obtain ⟨work, hless, hafter⟩ := workAfter_stepPeer hinner hpeer
    have hknown : connection < service.ipc.accepted := by
      by_contra hle
      have hnone := (ServerInv.of_runs (ipcTrace_runs run)).fresh connection (not_lt.mp hle)
      rw [hhandler] at hnone
      cases hnone
    exact .right _ (hafter.work_lt hless hhandler hknown)
  | process =>
    obtain ⟨entry, incoming, core, events, hhead, step, rfl, -⟩ := process_cases h
    have hless : ({ service.ipc with incoming := incoming } : UdsIpcServer).work < service.ipc.work := by
      refine Nat.add_lt_add_right ?_ _
      rw [hhead]
      exact Nat.lt_succ_self _
    cases step with
    | handled => exact .right _ hless
    | loopRaised => exact .right _ hless
  | send =>
    have hown : ServiceAction.Own .send := hinner
    exact .left _ _ (after_of_own hown h)
  | core action =>
    have hown : ServiceAction.Own (.core action) := hinner
    exact .left _ _ (after_of_own hown h)

/-- Where everything is at rest, a connection that is up has handed on all it has received, and written all
it was given if its peer reads. -/
theorem delivered_of_resting (run : (Service.machine pb dispatcher expectedProtoHash).Runs tr service)
    (hresting : service.Resting reading) {connection : ConnectionId}
    (hshaken : handshakesOf (historyOf connection (ipcTrace tr)) ≠ [])
    (hup : ¬ Down (historyOf connection (ipcTrace tr))) :
    receivedOf (historyOf connection (ipcTrace tr)) = rawsFrom connection (takenEntries (ipcTrace tr)) ∧
    (connection ∈ reading →
      sentOf (historyOf connection (ipcTrace tr)) = writtenOf (historyOf connection (ipcTrace tr))) := by
  have hkeep := ServerInv.of_runs (ipcTrace_runs run)
  have hflow := ServerFlow.of_runs (ipcTrace_runs run)
  rcases hhandler : service.ipc.handlers connection with _ | handler
  · rw [hkeep.silent connection hhandler] at hshaken
    exact absurd rfl hshaken
  have hhand := hkeep.handler connection handler hhandler
  have hkept := hflow.handlers connection handler hhandler
  obtain ⟨hphase, hwriter, hqueue⟩ := hresting.handlers connection handler hhandler
  have hopen : handler.phase ≠ .closed := fun hclosed => hup (hhand.down_iff.mpr (.inl hclosed))
  obtain ⟨hreceiving, -, -⟩ := hphase.resolve_left hopen
  constructor
  · rw [hhand.received_eq hreceiving, enqueuedOf_historyOf, List.map_map, ← hkeep.queue, hresting.incoming,
      List.append_nil]
    rfl
  · intro hreads
    have hfailed : handler.writer ≠ .failed := fun hfailed => hup (hhand.down_iff.mpr (.inr hfailed))
    have hcancelled : handler.writer ≠ .cancelled := fun hcancelled => hopen (hkept.cancelled hcancelled)
    have hunsent := hhand.unsent hfailed hcancelled
    cases hstate : handler.writer with
    | absent =>
      rw [hhand.handshakes, hkept.absent hstate] at hshaken
      exact absurd rfl hshaken
    | waiting =>
      rw [hstate, hqueue hstate] at hunsent
      simpa [WriterState.inFlight] using hunsent
    | sending payload => exact absurd hstate (hwriter hreads payload)
    | failed => exact absurd hstate hfailed
    | cancelled => exact absurd hstate hcancelled

/-- A payload is accepted in the step in which it is put on the queue of a connection of its sender. -/
theorem sent_of_accepted (hkeep : ServerInv pb expectedProtoHash (ipcTrace tr) service.ipc)
    {action : ServiceAction}
    (h : service.step pb dispatcher expectedProtoHash action = some (service', es)) {senderId : SenderId}
    {payload : Bytes} (hmem : .core (.sendEnded senderId payload .accepted) ∈ es) :
    ∃ connection, .ipc (.peer connection (.sent senderId payload)) ∈ es ∧
      senderId ∈ handshakesOf (historyOf connection (ipcTrace tr)) := by
  have hcore {action : CoreAction} {core : Core} {events : List CoreEvent}
      (step : CoreStep pb dispatcher service.core action events core)
      (hmem : .core (.sendEnded senderId payload .accepted) ∈ events.map ServiceEvent.core) :
      action = .sendEnds .accepted ∧ service.core.asks = some (.send senderId payload) := by
    obtain ⟨event, hevent, heq⟩ := List.mem_map.mp hmem
    obtain rfl := ServiceEvent.core.inj heq
    cases step with
    | send hpipeline =>
      obtain ⟨rfl, rfl, rfl⟩ := CoreEvent.sendEnded.inj (List.mem_singleton.mp hevent)
      exact ⟨rfl, by rw [Core.asks, hpipeline]⟩
    | _ => simp at hevent
  cases action with
  | accept =>
    obtain ⟨_, _, -, -, rfl⟩ := exists_of_stepIpc h
    simp at hmem
  | peer connection action =>
    obtain ⟨_, _, -, -, rfl⟩ := exists_of_stepIpc h
    simp at hmem
  | process =>
    obtain ⟨_, _, _, _, -, step, -, rfl⟩ := process_cases h
    obtain ⟨heq, -⟩ := hcore step ((List.mem_cons.mp hmem).resolve_left fun h => by cases h)
    cases heq
  | send =>
    obtain ⟨senderId', payload', _, _, hasks, step, -, rfl⟩ := sends_cases h
    obtain ⟨heq, hasks'⟩ := hcore step ((List.mem_cons.mp hmem).resolve_left fun h => by cases h)
    obtain ⟨rfl, rfl⟩ := DispatchEffect.send.inj (Option.some.inj (hasks.symm.trans hasks'))
    rcases send_cases service.ipc senderId' payload' with ⟨connection, _, hpeer, _, hsend⟩ |
      ⟨outcome, hnot, hsend⟩
    · rw [hsend]
      refine ⟨connection, List.mem_cons_self, ?_⟩
      exact mem_handshakesOf_of_latestOf _ _ _ ((hkeep.peers senderId' connection).mp hpeer).1
    · rw [hsend] at heq
      exact absurd (CoreAction.sendEnds.inj heq) hnot
  | core action =>
    obtain ⟨-, hnot, _, _, step, -, rfl⟩ := core_cases h
    exact absurd (hcore step hmem).1 (hnot _)

theorem exists_sent_of_accepted
    (run : (Service.machine pb dispatcher expectedProtoHash).Runs tr service) {senderId : SenderId}
    {payload : Bytes} (hmem : .core (.sendEnded senderId payload .accepted) ∈ tr) :
    ∃ connection, .ipc (.peer connection (.sent senderId payload)) ∈ tr ∧
      senderId ∈ handshakesOf (historyOf connection (ipcTrace tr)) := by
  revert hmem
  refine run.invariant (I := fun tr _ => .core (.sendEnded senderId payload .accepted) ∈ tr →
    ∃ connection, .ipc (.peer connection (.sent senderId payload)) ∈ tr ∧
      senderId ∈ handshakesOf (historyOf connection (ipcTrace tr))) nofun
    fun tr service action service' es hrun hinv _ hstep hmem => ?_
  have hsent : ∃ connection, .ipc (.peer connection (.sent senderId payload)) ∈ tr ++ es ∧
      senderId ∈ handshakesOf (historyOf connection (ipcTrace tr)) := by
    rcases List.mem_append.mp hmem with hmem | hmem
    · exact (hinv hmem).imp fun _ h => ⟨List.mem_append_left _ h.1, h.2⟩
    · exact (sent_of_accepted (.of_runs (ipcTrace_runs hrun)) hstep hmem).imp
        fun _ h => ⟨List.mem_append_right _ h.1, h.2⟩
  refine hsent.imp fun connection h => ⟨h.1, ?_⟩
  rw [ipcTrace_append, historyOf_append, handshakesOf_append]
  exact List.mem_append_left _ h.2

/-- **The service comes to rest.**  In every run, whichever peers go on reading, while no peer connects,
sends or goes away and no path is detected, the steps of the handlers, the writers, the incoming loop and
the dispatch under way, which `stat` and the hasher answer, come to an end, in whatever order they are
taken, and where the incoming loop still runs the service is at rest.  At rest:

* every connection that has completed its handshake and is not down has had all its messages handled, and
  has written all payloads it was given if its peer reads;
* every payload that a dispatch had accepted was written to a connection of its sender, or that connection
  is down, or its peer does not read. -/
theorem service_comes_to_rest
    (run : (Service.machine pb dispatcher expectedProtoHash).Runs tr service)
    (reading : Set ConnectionId) :
    (Service.machine pb dispatcher expectedProtoHash).Settles (ServiceAction.Inner reading)
      (fun service => service.core.loopRunning = true → service.Resting reading) service ∧
    (service.Resting reading → service.core.loopRunning = true →
      (takenEntries (ipcTrace tr)).map IncomingEntry.pair = handledPairs tr ∧
      (∀ connection, handshakesOf (historyOf connection (ipcTrace tr)) ≠ [] →
        ¬ Down (historyOf connection (ipcTrace tr)) →
        receivedOf (historyOf connection (ipcTrace tr)) = rawsFrom connection (takenEntries (ipcTrace tr)) ∧
        (connection ∈ reading →
          sentOf (historyOf connection (ipcTrace tr)) = writtenOf (historyOf connection (ipcTrace tr)))) ∧
      ∀ senderId payload, .core (.sendEnded senderId payload .accepted) ∈ tr → ∃ connection,
        senderId ∈ handshakesOf (historyOf connection (ipcTrace tr)) ∧
        (payload ∈ writtenOf (historyOf connection (ipcTrace tr)) ∨
          Down (historyOf connection (ipcTrace tr)) ∨ connection ∉ reading)) := by
  refine ⟨?_, fun hresting hrunning => ⟨?_, fun connection => delivered_of_resting run hresting, ?_⟩⟩
  · refine EventMachine.settles_of_wellFounded Service.wellFounded_below
      (I := fun service => ∃ tr, (Service.machine pb dispatcher expectedProtoHash).Runs tr service) ?_ ?_
      ⟨tr, run⟩
    · rintro service action service' es ⟨tr, run⟩ hinner hstep
      exact ⟨⟨tr ++ es, .step run trivial hstep⟩, below_of_inner run hinner hstep⟩
    · rintro service ⟨tr, run⟩
      by_cases hrunning : service.core.loopRunning = true
      · exact (resting_or_inner_step reading run hrunning).imp_left fun hresting _ => hresting
      · exact .inl fun h => absurd h hrunning
  · obtain ⟨unhandled, heq, -, hnone⟩ := HandledInv.of_runs run
    rw [heq, hnone hrunning, List.append_nil]
  · intro senderId payload hmem
    obtain ⟨connection, hsent, hshaken⟩ := exists_sent_of_accepted run hmem
    refine ⟨connection, hshaken, ?_⟩
    by_cases hdown : Down (historyOf connection (ipcTrace tr))
    · exact .inr (.inl hdown)
    by_cases hreads : connection ∈ reading
    · obtain ⟨-, heq⟩ := delivered_of_resting run hresting (List.ne_nil_of_mem hshaken) hdown
      refine .inl (heq hreads ▸ ?_)
      refine List.mem_filterMap.mpr ⟨_, List.mem_filterMap.mpr ⟨_, mem_ipcTrace.mpr hsent, if_pos rfl⟩, rfl⟩
    · exact .inr (.inr hreads)

end Rest

/-! ### A service at rest -/

/-- A sender connects and is given the payload of a dispatch. -/
def servedActions : List ServiceAction :=
  connectActions 0 ++ measureActions ++ [.core (.generate "00000000000000aa"), .send, .core .resume,
    .core .resume, .core .resume, .peer 0 .dequeue, .peer 0 .write]

def servedTrace : List ServiceEvent :=
  connectTrace 0 ++ measureTrace ++ [.core (.activeSenders [1]),
    .core (.generated "00000000000000aa"), .ipc (.peer 0 (.sent 1 [0x32, 0])),
    .core (.sendEnded 1 [0x32, 0] .accepted), .core (.tracked "00000000000000aa" [1]),
    .core (.returned (some "00000000000000aa")), .ipc (.peer 0 (.written [0x32, 0]))]

theorem service_comes_to_rest_served :
    ∃ service, (Service.machine removalProtobuf tenBlocksDispatcher [0xaa]).Runs servedTrace service ∧
      service.Resting {0} ∧ handledPairs servedTrace = [(1, helloBytes)] ∧
      ∃ connection, 1 ∈ handshakesOf (historyOf connection (ipcTrace servedTrace)) ∧
        ([0x32, 0] ∈ writtenOf (historyOf connection (ipcTrace servedTrace)) ∨
          Down (historyOf connection (ipcTrace servedTrace)) ∨ connection ∉ ({0} : Set ConnectionId)) := by
  obtain ⟨service, run, hexec⟩ := EventMachine.exists_runsUnder_of_map_eq
    (show ((Service.machine removalProtobuf tenBlocksDispatcher [0xaa]).run servedActions).map Prod.fst
      = some servedTrace by decide +kernel)
  have hstate : ((Service.machine removalProtobuf tenBlocksDispatcher [0xaa]).run servedActions).map
      (fun result => decide (result.2.ipc.accepted = 1 ∧ result.2.ipc.incoming = [] ∧
        result.2.core.loopRunning = true ∧ (result.2.core.pipeline matches .idle) = true ∧
        result.2.ipc.handlers 0 = some ⟨[], false, .receiving, some 1, [], .waiting⟩)) = some true := by
    decide +kernel
  rw [show (Service.machine _ _ _).run servedActions = _ from hexec, Option.map_some, Option.some.injEq,
    decide_eq_true_iff] at hstate
  obtain ⟨haccepted, hincoming, hrunning, hidle, hhandler⟩ := hstate
  have hresting : service.Resting {0} := by
    refine ⟨?_, hincoming, fun connection handler h => ?_⟩
    · cases hpipeline : service.core.pipeline with
      | idle => rfl
      | dispatching =>
        rw [hpipeline] at hidle
        cases hidle
    by_cases hzero : connection = 0
    · rw [hzero, hhandler] at h
      obtain rfl := Option.some.inj h
      exact ⟨.inr ⟨rfl, rfl, rfl⟩, fun _ => nofun, fun _ => rfl⟩
    · have hfresh : service.ipc.accepted ≤ connection :=
        haccepted.trans_le (Nat.one_le_iff_ne_zero.mpr hzero)
      have hnone := (ServerInv.of_runs (ipcTrace_runs run)).fresh connection hfresh
      rw [hnone] at h
      cases h
  obtain ⟨-, hatRest⟩ := service_comes_to_rest run {0}
  obtain ⟨hhandled, -, hwritten⟩ := hatRest hresting hrunning
  exact ⟨service, run, hresting, hhandled.symm, hwritten 1 [0x32, 0] (by decide)⟩

end FileMonitor
