import FileMonitor.Ipc.Equiv.Uds

/-!
# The peer table and the handshake gate

The whole server, over any number of connections.

* `ServerInv.of_runs`: in every run each handler keeps `HandlerInv`, the peer table holds exactly the
  latest connection of each id as long as it is not down, and the incoming queue holds what was put
  there and not yet taken.
* `peer_table_is_reconnect_safe`: the table and `send` follow the latest connection of an id, and older
  connections of the same id cannot disturb them.
* `handshake_gate`: only connections that opened with a valid hello reach the queue and the table.
-/

namespace FileMonitor

open UdsIpcServer

/-! ### Traces of the server -/

/-- The events of one connection. -/
def historyOf (connection : ConnectionId) (tr : List UdsEvent) : List PeerEvent :=
  tr.filterMap fun
    | .peer connection' event => if connection' = connection then some event else none
    | _ => none

/-- The connection that most recently completed a handshake as `senderId`. -/
def latestOf (tr : List UdsEvent) (senderId : SenderId) : Option ConnectionId :=
  (tr.filterMap fun
    | .peer connection (.handshaken senderId') =>
      if senderId' = senderId then some connection else none
    | _ => none).getLast?

/-- The pairs put on the incoming queue. -/
def enqueuedEntries (tr : List UdsEvent) : List IncomingEntry :=
  tr.filterMap fun
    | .peer connection (.enqueued senderId raw) => some ⟨connection, senderId, raw⟩
    | _ => none

/-- The pairs taken from the incoming queue. -/
def takenEntries (tr : List UdsEvent) : List IncomingEntry :=
  tr.filterMap fun
    | .taken entry => some entry
    | _ => none

section Traces

variable (tr es : List UdsEvent) (connection : ConnectionId) (senderId : SenderId)

@[simp] theorem historyOf_append :
    historyOf connection (tr ++ es) = historyOf connection tr ++ historyOf connection es :=
  List.filterMap_append

@[simp] theorem enqueuedEntries_append :
    enqueuedEntries (tr ++ es) = enqueuedEntries tr ++ enqueuedEntries es := List.filterMap_append

@[simp] theorem takenEntries_append :
    takenEntries (tr ++ es) = takenEntries tr ++ takenEntries es := List.filterMap_append

theorem mem_takenEntries {tr : List UdsEvent} {entry : IncomingEntry} :
    entry ∈ takenEntries tr ↔ .taken entry ∈ tr := by
  constructor
  · intro h
    obtain ⟨event, hmem, heq⟩ := List.mem_filterMap.mp h
    split at heq
    · obtain rfl := Option.some.inj heq
      exact hmem
    · cases heq
  · intro h
    exact List.mem_filterMap.mpr ⟨_, h, rfl⟩

theorem mem_handshakesOf_historyOf {tr : List UdsEvent} {connection : ConnectionId}
    {senderId : SenderId} :
    senderId ∈ handshakesOf (historyOf connection tr) ↔ .peer connection (.handshaken senderId) ∈ tr := by
  constructor
  · intro h
    obtain ⟨event, hmem, heq⟩ := List.mem_filterMap.mp h
    split at heq
    · obtain rfl := Option.some.inj heq
      obtain ⟨udsEvent, hmem, heq⟩ := List.mem_filterMap.mp hmem
      split at heq
      · split_ifs at heq with hconnection
        obtain rfl := Option.some.inj heq
        exact hconnection ▸ hmem
      · cases heq
    · cases heq
  · intro h
    exact List.mem_filterMap.mpr ⟨_, List.mem_filterMap.mpr ⟨_, h, if_pos rfl⟩, rfl⟩

theorem latestOf_append :
    latestOf (tr ++ es) senderId = (latestOf es senderId).or (latestOf tr senderId) := by
  unfold latestOf
  rw [List.filterMap_append, List.getLast?_append]

theorem historyOf_map_peer (connection' : ConnectionId) (events : List PeerEvent) :
    historyOf connection (events.map (.peer connection'))
      = if connection' = connection then events else [] := by
  unfold historyOf
  rw [List.filterMap_map]
  by_cases h : connection' = connection
  · simp [h]
  · simp [h]

theorem enqueuedEntries_map_peer (events : List PeerEvent) :
    enqueuedEntries (events.map (.peer connection))
      = (enqueuedOf events).map fun pair => ⟨connection, pair.1, pair.2⟩ := by
  unfold enqueuedEntries enqueuedOf
  rw [List.filterMap_map, List.map_filterMap]
  refine List.filterMap_congr fun event _ => ?_
  cases event <;> rfl

theorem takenEntries_map_peer (events : List PeerEvent) :
    takenEntries (events.map (.peer connection)) = [] := by
  unfold takenEntries
  rw [List.filterMap_map]
  simp

theorem latestOf_map_peer (events : List PeerEvent) :
    latestOf (events.map (.peer connection)) senderId
      = if senderId ∈ handshakesOf events then some connection else none := by
  induction events using List.reverseRecOn with
  | nil => rfl
  | append_singleton events event ih =>
    simp only [List.map_append, latestOf_append, ih, handshakesOf_append, List.mem_append]
    cases event with
    | handshaken senderId' =>
      by_cases h : senderId' = senderId
      · simp [latestOf, h]
      · simp [latestOf, h, Ne.symm h]
    | _ => simp [latestOf]

theorem mem_handshakesOf_of_latestOf (h : latestOf tr senderId = some connection) :
    senderId ∈ handshakesOf (historyOf connection tr) := by
  obtain ⟨event, hmem, hevent⟩ := List.mem_filterMap.mp (List.mem_of_getLast? h)
  split at hevent
  · rename_i connection' senderId'
    split_ifs at hevent with heq
    obtain rfl := Option.some.inj hevent
    subst heq
    exact List.mem_filterMap.mpr ⟨.handshaken senderId',
      List.mem_filterMap.mpr ⟨_, hmem, if_pos rfl⟩, rfl⟩
  · cases hevent

end Traces

/-! ### The invariant of the server -/

/-- What the state of the server is, in terms of the trace. -/
structure ServerInv (pb : Protobuf) (expectedProtoHash : Bytes) (tr : List UdsEvent)
    (server : UdsIpcServer) : Prop where
  fresh : ∀ connection, server.accepted ≤ connection → server.handlers connection = none
  silent : ∀ connection, server.handlers connection = none → historyOf connection tr = []
  handler : ∀ connection handler, server.handlers connection = some handler →
    HandlerInv pb expectedProtoHash (historyOf connection tr) handler
  peers : ∀ senderId connection, server.peers.lookup senderId = some connection ↔
    latestOf tr senderId = some connection ∧ ¬ Down (historyOf connection tr)
  queue : takenEntries tr ++ server.incoming = enqueuedEntries tr

section ServerInv

variable {pb : Protobuf} {expectedProtoHash : Bytes} {tr : List UdsEvent}
  {server : UdsIpcServer}

theorem ServerInv.initial : ServerInv pb expectedProtoHash [] UdsIpcServer.initial where
  fresh _ _ := rfl
  silent _ _ := rfl
  handler := nofun
  peers senderId connection := by simp [UdsIpcServer.initial, latestOf]
  queue := rfl

/-- A connection in the table is known to its handler. -/
theorem ServerInv.known_of_lookup (hinv : ServerInv pb expectedProtoHash tr server)
    {senderId : SenderId} {connection : ConnectionId}
    (h : server.peers.lookup senderId = some connection) :
    ∃ handler, server.handlers connection = some handler ∧ handler.senderId = some senderId ∧
      HandlerInv pb expectedProtoHash (historyOf connection tr) handler := by
  obtain ⟨hlatest, -⟩ := (hinv.peers senderId connection).mp h
  have hmem := mem_handshakesOf_of_latestOf tr connection senderId hlatest
  rcases hhandler : server.handlers connection with _ | handler
  · rw [hinv.silent connection hhandler] at hmem
    cases hmem
  · have hkeep := hinv.handler connection handler hhandler
    rw [hkeep.handshakes, Option.mem_toList] at hmem
    exact ⟨handler, rfl, hmem, hkeep⟩

theorem handlers_setHandler (server : UdsIpcServer) (connection : ConnectionId)
    (handler : PeerHandler) (other : ConnectionId) :
    (server.setHandler connection handler).handlers other
      = if other = connection then some handler else server.handlers other :=
  Function.update_apply _ _ _ _

theorem ServerInv.accept (hinv : ServerInv pb expectedProtoHash tr server) :
    ServerInv pb expectedProtoHash tr
      { server.setHandler server.accepted .new with accepted := server.accepted + 1 } where
  fresh := by
    intro connection hle
    have hlt : server.accepted < connection := hle
    refine (handlers_setHandler server _ _ connection).trans ?_
    rw [if_neg hlt.ne']
    exact hinv.fresh connection hlt.le
  silent := by
    intro connection hnone
    replace hnone := (handlers_setHandler server _ _ connection).symm.trans hnone
    split_ifs at hnone
    exact hinv.silent connection hnone
  handler := by
    intro connection handler hhandler
    replace hhandler := (handlers_setHandler server _ _ connection).symm.trans hhandler
    split_ifs at hhandler with heq
    · obtain rfl := Option.some.inj hhandler
      rw [heq, hinv.silent _ (hinv.fresh _ le_rfl)]
      exact HandlerInv.new pb expectedProtoHash
    · exact hinv.handler connection handler hhandler
  peers := hinv.peers
  queue := hinv.queue

/-- What concerns the handlers when one connection changes; the table and the queue are left to the
caller. -/
theorem ServerInv.replace (hinv : ServerInv pb expectedProtoHash tr server)
    {connection : ConnectionId} {handler handler' : PeerHandler} {server' : UdsIpcServer}
    (events : List PeerEvent) (hhandler : server.handlers connection = some handler)
    (hkeep : HandlerInv pb expectedProtoHash (historyOf connection tr ++ events) handler')
    (haccepted : server'.accepted = server.accepted)
    (hhandlers : server'.handlers = (server.setHandler connection handler').handlers)
    (hpeers : ∀ senderId other, server'.peers.lookup senderId = some other ↔
      latestOf (tr ++ events.map (.peer connection)) senderId = some other ∧
        ¬ Down (historyOf other (tr ++ events.map (.peer connection))))
    (hqueue : server'.incoming = server.incoming ++
      (enqueuedOf events).map fun pair => ⟨connection, pair.1, pair.2⟩) :
    ServerInv pb expectedProtoHash (tr ++ events.map (.peer connection)) server' where
  fresh := by
    intro other hle
    rw [haccepted] at hle
    have hother := hinv.fresh other hle
    have hne : other ≠ connection := by
      rintro rfl
      rw [hhandler] at hother
      cases hother
    rw [hhandlers, handlers_setHandler, if_neg hne]
    exact hother
  silent := by
    intro other hnone
    rw [hhandlers, handlers_setHandler] at hnone
    split_ifs at hnone with heq
    rw [historyOf_append, hinv.silent other hnone, historyOf_map_peer, if_neg (Ne.symm heq)]
    rfl
  handler := by
    intro other otherHandler hother
    rw [hhandlers, handlers_setHandler] at hother
    rw [historyOf_append, historyOf_map_peer]
    split_ifs at hother with heq
    · obtain rfl := Option.some.inj hother
      rw [heq, if_pos rfl]
      exact hkeep
    · rw [if_neg (Ne.symm heq), List.append_nil]
      exact hinv.handler other otherHandler hother
  peers := hpeers
  queue := by
    rw [takenEntries_append, takenEntries_map_peer, List.append_nil, enqueuedEntries_append,
      enqueuedEntries_map_peer, hqueue, ← List.append_assoc, hinv.queue]

/-- **A step of one connection keeps the invariant of the server.** -/
theorem ServerInv.peer (hinv : ServerInv pb expectedProtoHash tr server)
    {connection : ConnectionId} {handler handler' : PeerHandler} {events : List PeerEvent}
    (hhandler : server.handlers connection = some handler)
    (hstep : PeerStep pb expectedProtoHash handler events handler') :
    ServerInv pb expectedProtoHash (tr ++ events.map (.peer connection))
      (afterPeerStep server connection handler events handler') := by
  refine hinv.replace events hhandler ((hinv.handler connection handler hhandler).step hstep) rfl
    rfl ?_ rfl
  intro senderId other
  show (events.foldl (peersAfter connection handler.senderId) server.peers).lookup senderId = _ ↔ _
  rw [lookup_peersAfter hstep, latestOf_append, latestOf_map_peer, historyOf_append,
    historyOf_map_peer]
  by_cases hshake : senderId ∈ handshakesOf events
  · -- the connection becomes the latest one, and is not down
    have hup := (hinv.handler connection handler hhandler).not_down_of_handshake hstep hshake
    rw [if_pos hshake, if_pos hshake, Option.some_or, Option.some.injEq]
    constructor
    · rintro rfl
      rw [if_pos rfl]
      exact ⟨rfl, hup⟩
    · exact And.left
  · rw [if_neg hshake, if_neg hshake, Option.none_or]
    by_cases heq : other = connection
    · -- the entry of this connection goes when the connection goes down
      subst heq
      have hsplit : latestOf tr senderId = some other ∧ ¬ Down (historyOf other tr ++ events) ↔
          server.peers.lookup senderId = some other ∧ ¬ Down events := by
        rw [hinv.peers, down_append, not_or, and_assoc]
      rw [if_pos rfl, hsplit]
      by_cases hheld : server.peers.lookup senderId = some other
      · obtain ⟨_, hhandler', hknown, -⟩ := hinv.known_of_lookup hheld
        obtain rfl := Option.some.inj (hhandler.symm.trans hhandler')
        by_cases hdown : Down events <;> simp [hheld, hknown, hdown]
      · simp [hheld]
    · -- the entries of other connections stay
      rw [if_neg (Ne.symm heq), List.append_nil, ← hinv.peers]
      by_cases hgone : Down events ∧ handler.senderId = some senderId ∧
        server.peers.lookup senderId = some connection
      · rw [if_pos hgone, hgone.2.2]
        simpa using Ne.symm heq
      · rw [if_neg hgone]

/-- An event of no connection keeps the invariant, as long as it keeps the queue. -/
theorem ServerInv.frame (hinv : ServerInv pb expectedProtoHash tr server) {event : UdsEvent}
    (hevent : ∀ connection peerEvent, event ≠ .peer connection peerEvent)
    {incoming : List IncomingEntry} (hqueue : takenEntries [event] ++ incoming = server.incoming) :
    ServerInv pb expectedProtoHash (tr ++ [event]) { server with incoming := incoming } := by
  have hsilent : (∀ connection, historyOf connection [event] = []) ∧
      (∀ senderId, latestOf [event] senderId = none) ∧ enqueuedEntries [event] = [] := by
    cases event with
    | peer connection peerEvent => exact absurd rfl (hevent connection peerEvent)
    | notSent | taken => exact ⟨fun _ => rfl, fun _ => rfl, rfl⟩
  obtain ⟨hhistory, hlatest, henqueued⟩ := hsilent
  have hkeep (connection : ConnectionId) :
      historyOf connection (tr ++ [event]) = historyOf connection tr := by
    rw [historyOf_append, hhistory, List.append_nil]
  refine ⟨hinv.fresh, fun connection h => ?_, fun connection handler h => ?_, fun id connection => ?_, ?_⟩
  · rw [hkeep]
    exact hinv.silent connection h
  · rw [hkeep]
    exact hinv.handler connection handler h
  · rw [hkeep, latestOf_append, hlatest, Option.none_or]
    exact hinv.peers id connection
  · rw [takenEntries_append, List.append_assoc, hqueue, enqueuedEntries_append, henqueued,
      List.append_nil]
    exact hinv.queue

theorem HandlerInv.sent {history : List PeerEvent} {handler : PeerHandler}
    (hinv : HandlerInv pb expectedProtoHash history handler) (senderId : SenderId)
    (payload : Bytes) :
    HandlerInv pb expectedProtoHash (history ++ [.sent senderId payload])
      { handler with sendQueue := handler.sendQueue ++ [payload] } where
  handshakes := by simpa using hinv.handshakes
  cleanedUp := by simpa using hinv.cleanedUp
  writerFailed := by simpa using hinv.writerFailed
  absent := hinv.absent
  hello := by simpa using hinv.hello
  refused := by simpa using hinv.refused
  tagged := by simpa using hinv.tagged
  enqueued := by simpa using hinv.enqueued
  pending h := by simpa using hinv.pending h
  written := by simpa using hinv.written.trans (List.prefix_append _ [payload])
  unsent hfailed hcancelled := by
    have hunsent := hinv.unsent hfailed hcancelled
    simp [hunsent]

/-- The two ways `send` can end. -/
theorem send_cases (server : UdsIpcServer) (senderId : SenderId) (payload : Bytes) :
    (∃ connection handler, server.peers.lookup senderId = some connection ∧
      server.handlers connection = some handler ∧
      server.send senderId payload
        = (server.setHandler connection { handler with sendQueue := handler.sendQueue ++ [payload] },
            .accepted, .peer connection (.sent senderId payload))) ∨
    (∃ outcome, outcome ≠ .accepted ∧
      server.send senderId payload = (server, outcome, .notSent senderId outcome)) := by
  unfold send
  rcases hpeer : server.peers.lookup senderId with _ | connection
  · exact .inr ⟨.unknownSender, by decide, rfl⟩
  rcases hhandler : server.handlers connection with _ | handler
  · exact .inr ⟨.unknownSender, by decide, by simp [hhandler]⟩
  by_cases hroom : handler.sendQueue.length < sendQueueMaxsize
  · exact .inl ⟨connection, handler, rfl, hhandler, by simp [hhandler, hroom]⟩
  · exact .inr ⟨.queueFull, by decide, by simp [hhandler, hroom]⟩

theorem ServerInv.send (hinv : ServerInv pb expectedProtoHash tr server) (senderId : SenderId)
    (payload : Bytes) :
    ServerInv pb expectedProtoHash (tr ++ [(server.send senderId payload).2.2])
      (server.send senderId payload).1 := by
  rcases send_cases server senderId payload with
    ⟨connection, handler, hpeer, hhandler, hsend⟩ | ⟨outcome, -, hsend⟩
  · rw [hsend]
    refine hinv.replace [.sent senderId payload] hhandler
      ((hinv.handler connection handler hhandler).sent senderId payload) rfl rfl ?_ ?_
    · intro id other
      show server.peers.lookup id = _ ↔ _
      rw [hinv.peers, latestOf_append, latestOf_map_peer, historyOf_append, historyOf_map_peer]
      by_cases heq : connection = other
      · simp [heq, Down]
      · simp [heq]
    · show server.incoming = server.incoming ++ []
      rw [List.append_nil]
  · rw [hsend]
    apply hinv.frame
    · intro connection peerEvent h
      cases h
    · rfl

/-- What a step of the server can be. -/
theorem step_cases {action : UdsAction} {server' : UdsIpcServer} {es : List UdsEvent}
    (h : server.step pb expectedProtoHash action = some (server', es)) :
    (action = .accept ∧ es = [] ∧ server'
      = { server.setHandler server.accepted .new with accepted := server.accepted + 1 }) ∨
    (∃ connection peerAction handler handler' events, action = .peer connection peerAction ∧
      server.handlers connection = some handler ∧
      PeerStep pb expectedProtoHash handler events handler' ∧
      es = events.map (.peer connection) ∧
      server' = afterPeerStep server connection handler events handler') ∨
    (∃ senderId payload, action = .send senderId payload ∧
      es = [(server.send senderId payload).2.2] ∧ server' = (server.send senderId payload).1) ∨
    (∃ entry incoming, action = .take ∧ server.incoming = entry :: incoming ∧
      es = [.taken entry] ∧ server' = { server with incoming := incoming }) := by
  cases action with
  | accept =>
    obtain ⟨rfl, rfl⟩ := Prod.mk.inj (Option.some.inj h)
    exact .inl ⟨rfl, rfl, rfl⟩
  | peer connection peerAction =>
    obtain ⟨handler, hhandler, h⟩ := Option.bind_eq_some_iff.mp h
    obtain ⟨⟨server₁, events⟩, hstep, h⟩ := Option.bind_eq_some_iff.mp h
    obtain ⟨rfl, rfl⟩ := Prod.mk.inj (Option.some.inj h)
    obtain ⟨handler', hpeer, rfl⟩ := stepPeer_cases hstep
    exact .inr (.inl ⟨connection, peerAction, handler, handler', events, rfl, hhandler, hpeer, rfl,
      rfl⟩)
  | send senderId payload =>
    obtain ⟨rfl, rfl⟩ := Prod.mk.inj (Option.some.inj h)
    exact .inr (.inr (.inl ⟨senderId, payload, rfl, rfl, rfl⟩))
  | take =>
    simp only [UdsIpcServer.step] at h
    split at h
    · cases h
    · rename_i entry incoming hincoming
      obtain ⟨rfl, rfl⟩ := Prod.mk.inj (Option.some.inj h)
      exact .inr (.inr (.inr ⟨entry, incoming, rfl, hincoming, rfl, rfl⟩))

/-- Only `send` puts a payload on a queue, that of the connection it has found in the table. -/
theorem of_sent {action : UdsAction} {server' : UdsIpcServer} {es : List UdsEvent}
    (h : server.step pb expectedProtoHash action = some (server', es)) {connection : ConnectionId}
    {senderId : SenderId} {payload : Bytes} (hmem : .peer connection (.sent senderId payload) ∈ es) :
    es = [.peer connection (.sent senderId payload)] ∧
      server.peers.lookup senderId = some connection := by
  rcases step_cases h with ⟨-, rfl, -⟩ | ⟨connection', _, _, _, events, -, -, hpeer, rfl, -⟩ |
    ⟨senderId', payload', -, rfl, -⟩ | ⟨entry, incoming, -, -, rfl, -⟩
  · cases hmem
  · obtain ⟨event, hevent, heq⟩ := List.mem_map.mp hmem
    obtain ⟨rfl, rfl⟩ := UdsEvent.peer.inj heq
    have hsent : payload ∈ sentOf events := List.mem_filterMap.mpr ⟨_, hevent, rfl⟩
    rw [hpeer.sentOf_eq_nil] at hsent
    cases hsent
  · rcases send_cases server senderId' payload' with ⟨connection', _, hlookup, _, hsend⟩ | ⟨_, -, hsend⟩
    · rw [hsend] at hmem ⊢
      obtain ⟨rfl, hsame⟩ := UdsEvent.peer.inj (List.mem_singleton.mp hmem)
      obtain ⟨rfl, rfl⟩ := PeerEvent.sent.inj hsame
      exact ⟨rfl, hlookup⟩
    · rw [hsend] at hmem
      simp at hmem
  · simp at hmem

theorem ServerInv.step (hinv : ServerInv pb expectedProtoHash tr server) {action : UdsAction}
    {server' : UdsIpcServer} {es : List UdsEvent}
    (h : server.step pb expectedProtoHash action = some (server', es)) :
    ServerInv pb expectedProtoHash (tr ++ es) server' := by
  rcases step_cases h with ⟨-, rfl, rfl⟩ | ⟨connection, _, handler, handler', events, -, hhandler,
    hpeer, rfl, rfl⟩ | ⟨senderId, payload, -, rfl, rfl⟩ | ⟨entry, incoming, -, hincoming, rfl, rfl⟩
  · rw [List.append_nil]
    exact hinv.accept
  · exact hinv.peer hhandler hpeer
  · exact hinv.send senderId payload
  · apply hinv.frame
    · intro connection peerEvent h
      cases h
    · exact hincoming.symm

/-- **The invariant holds in every run.** -/
theorem ServerInv.of_runs (run : (machine pb expectedProtoHash).Runs tr server) :
    ServerInv pb expectedProtoHash tr server :=
  run.invariant ServerInv.initial fun _ _ _ _ _ _ hinv _ taken => hinv.step taken

end ServerInv

/-! ### Reconnection -/

section ServerRuns

variable {pb : Protobuf} {expectedProtoHash : Bytes} {tr : List UdsEvent} {server : UdsIpcServer}

/-- The peer table entry that the trace calls for. -/
theorem ServerInv.lookup_eq (hinv : ServerInv pb expectedProtoHash tr server)
    (senderId : SenderId) :
    server.peers.lookup senderId
      = (latestOf tr senderId).filter fun connection => ¬ Down (historyOf connection tr) := by
  ext connection
  rw [hinv.peers, Option.filter_eq_some_iff, decide_eq_true_iff]

/-- **Reconnection is safe.**  In every run: the table maps an id to the latest connection that
completed a handshake as that id, until this connection has cleaned up or its writer has failed, and
then to nothing; an older connection that goes down leaves the table as it is; `send` queues the payload
on the latest connection or raises and changes nothing; and what a connection writes is a prefix of
what `send` has accepted for it, at times when it was the latest one. -/
theorem peer_table_is_reconnect_safe (run : (machine pb expectedProtoHash).Runs tr server) :
    (∀ senderId, server.peers.lookup senderId
      = (latestOf tr senderId).filter fun connection => ¬ Down (historyOf connection tr)) ∧
    (∀ action server' es, server.step pb expectedProtoHash action = some (server', es) →
      ∀ connection senderId, senderId ∈ handshakesOf (historyOf connection tr) →
        latestOf tr senderId ≠ some connection → Down (historyOf connection es) →
        server'.peers = server.peers) ∧
    (∀ senderId payload,
      (∃ connection handler, latestOf tr senderId = some connection ∧
        server.handlers connection = some handler ∧
        server.send senderId payload
          = (server.setHandler connection
              { handler with sendQueue := handler.sendQueue ++ [payload] },
            .accepted, .peer connection (.sent senderId payload))) ∨
      ∃ outcome, outcome ≠ .accepted ∧
        server.send senderId payload = (server, outcome, .notSent senderId outcome)) ∧
    (∀ connection, writtenOf (historyOf connection tr) <+: sentOf (historyOf connection tr)) ∧
    (∀ connection senderId payload pre post,
      tr = pre ++ .peer connection (.sent senderId payload) :: post →
      latestOf pre senderId = some connection) := by
  have hinv := ServerInv.of_runs run
  refine ⟨hinv.lookup_eq, ?_, ?_, ?_, ?_⟩
  · intro action server' es hstep connection senderId hknown hold hdown
    rcases step_cases hstep with ⟨-, rfl, -⟩ | ⟨connection', _, handler, handler', events, -,
      hhandler, hpeer, rfl, rfl⟩ | ⟨senderId', payload, -, rfl, -⟩ | ⟨entry, incoming, -, -, rfl, -⟩
    · simp [historyOf, Down] at hdown
    · rw [historyOf_map_peer] at hdown
      split_ifs at hdown with heq
      · subst heq
        have hkeep := hinv.handler connection' handler hhandler
        have hid : handler.senderId = some senderId := by
          rwa [hkeep.handshakes, Option.mem_toList] at hknown
        exact foldl_peersAfter_of_stale hpeer hdown hid fun hlookup =>
          hold ((hinv.peers senderId connection').mp hlookup).1
      · simp [Down] at hdown
    · rcases send_cases server senderId' payload with ⟨_, _, _, _, hsend⟩ | ⟨_, -, hsend⟩ <;>
        rw [hsend] at hdown <;> simp [historyOf, Down] at hdown
    · simp [historyOf, Down] at hdown
  · intro senderId payload
    rcases send_cases server senderId payload with ⟨connection, handler, hpeer, hhandler, hsend⟩ | h
    · exact .inl ⟨connection, handler, ((hinv.peers senderId connection).mp hpeer).1, hhandler, hsend⟩
    · exact .inr h
  · intro connection
    rcases hhandler : server.handlers connection with _ | handler
    · rw [hinv.silent connection hhandler]
      exact List.prefix_rfl
    · exact (hinv.handler connection handler hhandler).written
  · intro connection senderId payload pre post htr
    obtain ⟨server₀, _, _, run₀, -, hstep⟩ := run.exists_step_of_alone htr fun _ _ _ _ hstep hmem =>
      (of_sent hstep hmem).1
    have hlookup := (of_sent hstep List.mem_cons_self).2
    exact ((ServerInv.of_runs run₀).peers senderId connection |>.mp hlookup).1

/-- Sender `1` connects, reconnects, and is sent a payload; then its first connection goes away. -/
def reconnectActions : List UdsAction :=
  [.accept, .peer 0 (.peerSends helloBytes), .peer 0 .recv, .accept, .peer 1 (.peerSends helloBytes),
    .peer 1 .recv, .send 1 [7], .peer 0 .peerCloses, .peer 0 .recv, .peer 1 .dequeue, .peer 1 .write]

def reconnectTrace : List UdsEvent :=
  [.peer 0 (.received helloBytes), .peer 0 (.handshaken 1), .peer 0 (.enqueued 1 helloBytes),
    .peer 1 (.received helloBytes), .peer 1 (.handshaken 1), .peer 1 (.enqueued 1 helloBytes),
    .peer 1 (.sent 1 [7]), .peer 0 .cleanedUp, .peer 1 (.written [7])]

theorem peer_table_is_reconnect_safe_reconnect :
    ∃ server, (machine helloProtobuf [0xaa]).Runs reconnectTrace server ∧
      server.peers.lookup 1 = some 1 ∧
      writtenOf (historyOf 1 reconnectTrace) <+: sentOf (historyOf 1 reconnectTrace) := by
  obtain ⟨server, run, -⟩ := EventMachine.exists_runsUnder_of_map_eq
    (show ((machine helloProtobuf [0xaa]).run reconnectActions).map Prod.fst = some reconnectTrace by
      decide +kernel)
  obtain ⟨hlookup, -, -, hwritten, -⟩ := peer_table_is_reconnect_safe run
  exact ⟨server, run, (hlookup 1).trans (by decide +kernel), hwritten 1⟩

/-! ### The handshake gate -/

/-- A `SenderHello` of `senderId` with the expected hash. -/
def IsHello (pb : Protobuf) (expectedProtoHash raw : Bytes) (senderId : SenderId) : Prop :=
  decode pb raw = .ok (.senderHello senderId expectedProtoHash)

theorem completeHandshake_eq_ok_iff {raw : Bytes} {senderId : SenderId} :
    completeHandshake pb expectedProtoHash raw = .ok senderId ↔
      IsHello pb expectedProtoHash raw senderId := by
  unfold completeHandshake IsHello
  rw [bind_eq_ok_iff]
  constructor
  · rintro ⟨message, hdecode, h⟩
    cases message with
    | senderHello id protoHash =>
      obtain ⟨⟨⟩, hverify, h⟩ := bind_eq_ok_iff.mp h
      obtain rfl := Except.ok.inj h
      unfold verifyProtoHash at hverify
      split_ifs at hverify with hsame
      rw [hdecode, not_not.mp hsame]
    | _ => cases h
  · intro hdecode
    refine ⟨_, hdecode, bind_eq_ok_iff.mpr ⟨(), ?_, rfl⟩⟩
    exact if_neg (not_not.mpr rfl)

/-- The first message received on a connection was a valid hello of `senderId`. -/
def OpenedAs (pb : Protobuf) (expectedProtoHash : Bytes) (history : List PeerEvent)
    (senderId : SenderId) : Prop :=
  ∃ raw, (receivedOf history).head? = some raw ∧ IsHello pb expectedProtoHash raw senderId

theorem HandlerInv.openedAs {history : List PeerEvent} {handler : PeerHandler}
    (hinv : HandlerInv pb expectedProtoHash history handler) {senderId : SenderId}
    (h : handler.senderId = some senderId) : OpenedAs pb expectedProtoHash history senderId := by
  obtain ⟨raw, hhead, hshake⟩ := hinv.hello senderId h
  exact ⟨raw, hhead, completeHandshake_eq_ok_iff.mp hshake⟩

/-- A connection whose first message was not a valid hello is closed, unknown, and has put nothing on
the queue. -/
theorem HandlerInv.of_not_openedAs {history : List PeerEvent} {handler : PeerHandler}
    (hinv : HandlerInv pb expectedProtoHash history handler) {raw : Bytes}
    (hhead : (receivedOf history).head? = some raw)
    (hnot : ∀ senderId, ¬ IsHello pb expectedProtoHash raw senderId) :
    handler.phase = .closed ∧ handler.senderId = none ∧ enqueuedOf history = [] := by
  have hunknown : handler.senderId = none := by
    rcases hid : handler.senderId with _ | senderId
    · rfl
    · obtain ⟨first, hfirst, hhello⟩ := hinv.openedAs hid
      obtain rfl := Option.some.inj (hhead.symm.trans hfirst)
      exact absurd hhello (hnot senderId)
  refine ⟨?_, hunknown, ?_⟩
  · rcases hinv.refused hunknown with hnone | ⟨hclosed, -⟩
    · rw [hnone] at hhead
      cases hhead
    · exact hclosed
  · exact hinv.enqueuedOf_eq_nil hunknown

/-- Every pair on the incoming queue was put there by the connection it names. -/
theorem ServerInv.mem_incoming (hinv : ServerInv pb expectedProtoHash tr server)
    {entry : IncomingEntry} (h : entry ∈ server.incoming) :
    (entry.senderId, entry.raw) ∈ enqueuedOf (historyOf entry.connection tr) := by
  have hmem : entry ∈ enqueuedEntries tr := hinv.queue ▸ List.mem_append_right _ h
  obtain ⟨event, hevent, heq⟩ := List.mem_filterMap.mp hmem
  split at heq
  · obtain rfl := Option.some.inj heq
    exact List.mem_filterMap.mpr ⟨_, List.mem_filterMap.mpr ⟨_, hevent, if_pos rfl⟩, rfl⟩
  · cases heq

theorem ServerInv.known_of_enqueued (hinv : ServerInv pb expectedProtoHash tr server)
    {connection : ConnectionId} {pair : SenderId × Bytes}
    (h : pair ∈ enqueuedOf (historyOf connection tr)) :
    ∃ handler, server.handlers connection = some handler ∧ handler.senderId = some pair.1 ∧
      HandlerInv pb expectedProtoHash (historyOf connection tr) handler := by
  rcases hhandler : server.handlers connection with _ | handler
  · rw [hinv.silent connection hhandler] at h
    cases h
  · have hkeep := hinv.handler connection handler hhandler
    exact ⟨handler, rfl, hkeep.tagged pair h, hkeep⟩

/-- What a connection has put on the queue, in the order of the queue. -/
theorem enqueuedOf_historyOf (connection : ConnectionId) (tr : List UdsEvent) :
    enqueuedOf (historyOf connection tr)
      = ((enqueuedEntries tr).filter fun entry => entry.connection = connection).map
        fun entry => (entry.senderId, entry.raw) := by
  unfold enqueuedOf historyOf enqueuedEntries
  rw [List.filterMap_filterMap, List.filter_filterMap, List.map_filterMap]
  congr 1
  funext event
  rcases event with ⟨connection', event⟩ | _ | _
  · by_cases h : connection' = connection
    · cases event <;> simp [h, Option.filter]
    · cases event <;> simp [h, Option.filter]
  · rfl
  · rfl

/-- **A hello comes first**: the head of the queue is the hello of its connection, or that hello has been
taken before. -/
theorem ServerInv.hello_first (hinv : ServerInv pb expectedProtoHash tr server)
    {entry : IncomingEntry} {incoming : List IncomingEntry}
    (hhead : server.incoming = entry :: incoming) :
    ∃ hello, hello.connection = entry.connection ∧ hello.senderId = entry.senderId ∧
      IsHello pb expectedProtoHash hello.raw entry.senderId ∧
      (hello = entry ∨ hello ∈ takenEntries tr) := by
  have hpair := hinv.mem_incoming (hhead ▸ List.mem_cons_self : entry ∈ server.incoming)
  obtain ⟨handler, -, hknown, hkeep⟩ := hinv.known_of_enqueued hpair
  obtain ⟨raw, hraw, hhello⟩ := hkeep.openedAs hknown
  -- the entries of the connection: those taken, then this one
  let ofConnection (entries : List IncomingEntry) :=
    entries.filter fun other => other.connection = entry.connection
  have hqueue : enqueuedEntries tr = takenEntries tr ++ entry :: incoming := by
    rw [← hinv.queue, hhead]
  have hsplit : ofConnection (enqueuedEntries tr)
      = ofConnection (takenEntries tr) ++ entry :: ofConnection incoming := by
    show List.filter _ _ = _
    rw [hqueue, List.filter_append, List.filter_cons_of_pos (by simp)]
  have htagged (other : IncomingEntry) (h : other ∈ ofConnection (enqueuedEntries tr)) :
      other.connection = entry.connection ∧ other.senderId = entry.senderId := by
    refine ⟨by simpa using List.of_mem_filter h, ?_⟩
    have hother : (other.senderId, other.raw) ∈ enqueuedOf (historyOf entry.connection tr) := by
      rw [enqueuedOf_historyOf]
      exact List.mem_map_of_mem h
    exact Option.some.inj ((hkeep.tagged _ hother).symm.trans hknown)
  have hfirst (first : IncomingEntry) (rest : List IncomingEntry)
      (h : ofConnection (enqueuedEntries tr) = first :: rest) : first.raw = raw := by
    obtain ⟨later, hlater⟩ := hkeep.enqueued
    rw [enqueuedOf_historyOf, show List.filter _ (enqueuedEntries tr) = _ from h] at hlater
    rw [← hlater] at hraw
    exact Option.some.inj hraw
  rcases htaken : ofConnection (takenEntries tr) with _ | ⟨first, rest⟩
  · rw [htaken] at hsplit
    exact ⟨entry, rfl, rfl, hfirst _ _ hsplit ▸ hhello, .inl rfl⟩
  · rw [htaken] at hsplit
    obtain ⟨hconnection, hid⟩ := htagged first (hsplit ▸ List.mem_cons_self)
    have hmem : first ∈ ofConnection (takenEntries tr) := htaken ▸ List.mem_cons_self
    exact ⟨first, hconnection, hid, hfirst _ _ hsplit ▸ hhello, .inr (List.mem_of_mem_filter hmem)⟩

theorem ServerInv.handshaken_of_enqueued (hinv : ServerInv pb expectedProtoHash tr server)
    {entry : IncomingEntry} (h : entry ∈ enqueuedEntries tr) :
    entry.senderId ∈ handshakesOf (historyOf entry.connection tr) := by
  have hpair : (entry.senderId, entry.raw) ∈ enqueuedOf (historyOf entry.connection tr) := by
    rw [enqueuedOf_historyOf]
    exact List.mem_map_of_mem (List.mem_filter.mpr ⟨h, by simp⟩)
  obtain ⟨handler, -, hknown, hkeep⟩ := hinv.known_of_enqueued hpair
  rw [hkeep.handshakes, hknown]
  exact List.mem_cons_self

theorem ServerInv.length_handshakesOf_le (hinv : ServerInv pb expectedProtoHash tr server)
    (connection : ConnectionId) : (handshakesOf (historyOf connection tr)).length ≤ 1 := by
  rcases hhandler : server.handlers connection with _ | handler
  · rw [hinv.silent connection hhandler]
    exact Nat.zero_le 1
  · rw [(hinv.handler connection handler hhandler).handshakes]
    exact Option.length_toList_le

/-- **The handshake gate.**  In every run: a pair was put on the incoming queue, and an entry into the
peer table, only by a connection that opened with a valid hello of that id; a connection whose first
message was anything else has contributed nothing, is closed, and none of its steps changes the table;
and the pairs a connection has contributed are a prefix of the messages received on it, all tagged with
the one id of its handshake. -/
theorem handshake_gate (run : (machine pb expectedProtoHash).Runs tr server) :
    (∀ entry ∈ server.incoming,
      OpenedAs pb expectedProtoHash (historyOf entry.connection tr) entry.senderId) ∧
    (∀ connection pair, pair ∈ enqueuedOf (historyOf connection tr) →
      OpenedAs pb expectedProtoHash (historyOf connection tr) pair.1) ∧
    (∀ senderId connection, server.peers.lookup senderId = some connection →
      OpenedAs pb expectedProtoHash (historyOf connection tr) senderId) ∧
    (∀ connection raw, (receivedOf (historyOf connection tr)).head? = some raw →
      (∀ senderId, ¬ IsHello pb expectedProtoHash raw senderId) →
      enqueuedOf (historyOf connection tr) = [] ∧
        ∃ handler, server.handlers connection = some handler ∧ handler.phase = .closed) ∧
    (∀ connection peerAction server' es raw,
      server.step pb expectedProtoHash (.peer connection peerAction) = some (server', es) →
      (receivedOf (historyOf connection (tr ++ es))).head? = some raw →
      (∀ senderId, ¬ IsHello pb expectedProtoHash raw senderId) → server'.peers = server.peers) ∧
    (∀ connection,
      (enqueuedOf (historyOf connection tr)).map Prod.snd <+: receivedOf (historyOf connection tr) ∧
      ∀ pair ∈ enqueuedOf (historyOf connection tr),
        handshakesOf (historyOf connection tr) = [pair.1]) := by
  have hinv := ServerInv.of_runs run
  refine ⟨?_, ?_, ?_, ?_, ?_, ?_⟩
  · intro entry hentry
    obtain ⟨handler, -, hknown, hkeep⟩ :=
      hinv.known_of_enqueued (hinv.mem_incoming hentry)
    exact hkeep.openedAs hknown
  · intro connection pair hpair
    obtain ⟨handler, -, hknown, hkeep⟩ := hinv.known_of_enqueued hpair
    exact hkeep.openedAs hknown
  · intro senderId connection hlookup
    obtain ⟨handler, -, hknown, hkeep⟩ := hinv.known_of_lookup hlookup
    exact hkeep.openedAs hknown
  · intro connection raw hhead hnot
    rcases hhandler : server.handlers connection with _ | handler
    · rw [hinv.silent connection hhandler] at hhead
      cases hhead
    · obtain ⟨hclosed, -, hnothing⟩ :=
        (hinv.handler connection handler hhandler).of_not_openedAs hhead hnot
      exact ⟨hnothing, handler, rfl, hclosed⟩
  · intro connection peerAction server' es raw hstep hhead hnot
    rcases step_cases hstep with ⟨h, -⟩ | ⟨connection', _, handler, handler', events, heq, hhandler,
      hpeer, rfl, rfl⟩ | ⟨_, _, h, -⟩ | ⟨_, _, h, -⟩
    · cases h
    · obtain ⟨rfl, -⟩ := UdsAction.peer.inj heq
      rw [historyOf_append, historyOf_map_peer, if_pos rfl] at hhead
      -- after the step the sender is still unknown, so the step was no handshake
      have hkeep := (hinv.handler connection handler hhandler).step hpeer
      obtain ⟨-, hunknown, -⟩ := hkeep.of_not_openedAs hhead hnot
      exact foldl_peersAfter_of_unknown hpeer hunknown
    · cases h
    · cases h
  · intro connection
    rcases hhandler : server.handlers connection with _ | handler
    · rw [hinv.silent connection hhandler]
      exact ⟨List.prefix_rfl, nofun⟩
    · have hkeep := hinv.handler connection handler hhandler
      refine ⟨hkeep.enqueued, fun pair hpair => ?_⟩
      rw [hkeep.handshakes, hkeep.tagged pair hpair]
      rfl

/-- Sender `1` says hello and sends a heartbeat; another peer opens with a malformed message. -/
def gateActions : List UdsAction :=
  [.accept, .accept, .peer 0 (.peerSends helloBytes), .peer 1 (.peerSends [0xff]), .peer 0 .recv,
    .peer 1 .recv, .peer 0 (.peerSends heartbeatBytes), .peer 0 .recv]

def gateTrace : List UdsEvent :=
  [.peer 0 (.received helloBytes), .peer 0 (.handshaken 1), .peer 0 (.enqueued 1 helloBytes),
    .peer 1 (.received [0xff]), .peer 1 (.refused (.protobuf "Error parsing message")),
    .peer 1 .cleanedUp, .peer 0 (.received heartbeatBytes), .peer 0 (.enqueued 1 heartbeatBytes)]

theorem handshake_gate_malformed :
    ∃ server, (machine helloProtobuf [0xaa]).Runs gateTrace server ∧
      enqueuedOf (historyOf 1 gateTrace) = [] ∧
      (∃ handler, server.handlers 1 = some handler ∧ handler.phase = .closed) ∧
      (enqueuedOf (historyOf 0 gateTrace)).map Prod.snd <+: receivedOf (historyOf 0 gateTrace) := by
  obtain ⟨server, run, -⟩ := EventMachine.exists_runsUnder_of_map_eq
    (show ((machine helloProtobuf [0xaa]).run gateActions).map Prod.fst = some gateTrace by
      decide +kernel)
  have hmalformed (senderId : SenderId) : ¬ IsHello helloProtobuf [0xaa] [0xff] senderId := by
    have herror : decode helloProtobuf [0xff] = .error (.protobuf "Error parsing message") := by
      decide +kernel
    unfold IsHello
    rw [herror]
    nofun
  obtain ⟨-, -, -, hrefused, -, htaken⟩ := handshake_gate run
  obtain ⟨hnothing, hclosed⟩ := hrefused 1 [0xff] (by decide +kernel) hmalformed
  exact ⟨server, run, hnothing, hclosed, (htaken 0).1⟩

end ServerRuns

end FileMonitor
