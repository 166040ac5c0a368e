import FileMonitor.Ipc.Equiv.PeerTable

/-!
# What the server holds

Between its socket and the consumer of `incoming()` the server holds a message in two places only: the
handler that has received it and waits for room (at most one), and the incoming queue.  `FlowInv` says so
of one connection, `ServerFlow` adds that the queues keep to their bounds.
-/

namespace FileMonitor

open UdsIpcServer

/-! ### One connection -/

/-- What a handler holds, in terms of the events of its connection. -/
structure FlowInv (history : List PeerEvent) (handler : PeerHandler) : Prop where
  /-- All but at most one of the messages received have been put on the incoming queue. -/
  inHand : ∃ inHand, receivedOf history = (enqueuedOf history).map Prod.snd ++ inHand ∧ inHand.length ≤ 1
  cancelled : handler.writer = .cancelled → handler.phase = .closed
  absent : handler.writer = .absent → handler.senderId = none
  sendQueue : handler.sendQueue.length ≤ sendQueueMaxsize

section Connection

variable {pb : Protobuf} {expectedProtoHash : Bytes} {history events : List PeerEvent}
  {handler handler' : PeerHandler}

theorem FlowInv.new : FlowInv [] .new where
  inHand := ⟨[], rfl, Nat.zero_le 1⟩
  cancelled := nofun
  absent _ := rfl
  sendQueue := Nat.zero_le _

theorem cancel_eq_cancelled {writer : WriterState} (h : writer.cancel = .absent) : writer = .absent := by
  cases writer <;> first | rfl | cases h

/-- A message received without a message in hand. -/
theorem inHand_received (hreceived : receivedOf history = (enqueuedOf history).map Prod.snd)
    {raw : Bytes} (hraw : receivedOf events = [raw])
    (henqueued : enqueuedOf events = [] ∨ ∃ senderId, enqueuedOf events = [(senderId, raw)]) :
    ∃ inHand, receivedOf (history ++ events) = (enqueuedOf (history ++ events)).map Prod.snd ++ inHand ∧
      inHand.length ≤ 1 := by
  rw [receivedOf_append, enqueuedOf_append, hreceived, hraw, List.map_append]
  rcases henqueued with h | ⟨senderId, h⟩
  · exact ⟨[raw], by rw [h]; simp, le_rfl⟩
  · exact ⟨[], by rw [h]; simp, Nat.zero_le 1⟩

theorem PutResult.enqueuedOf_eq {senderId : SenderId} {raw : Bytes} {phase : HandlerPhase}
    (h : PutResult senderId raw events phase) :
    enqueuedOf events = [] ∨ ∃ senderId', enqueuedOf events = [(senderId', raw)] := by
  cases h with
  | done => exact .inr ⟨senderId, rfl⟩
  | waits => exact .inl rfl

/-- Where nothing is in hand, everything received has been put on the queue. -/
theorem HandlerInv.received_eq (hkeep : HandlerInv pb expectedProtoHash history handler)
    (hreceiving : handler.phase = .receiving) :
    receivedOf history = (enqueuedOf history).map Prod.snd := by
  have hpending := hkeep.pending (by rw [hreceiving]; decide)
  rw [hreceiving] at hpending
  simpa [HandlerPhase.pending] using hpending

theorem FlowInv.step (hinv : FlowInv history handler)
    (hkeep : HandlerInv pb expectedProtoHash history handler)
    (step : PeerStep pb expectedProtoHash handler events handler') :
    FlowInv (history ++ events) handler' := by
  obtain ⟨hhand, hcancelled, habsent, hqueue⟩ := hinv
  -- events without a message leave what is in hand
  have hsilent (hreceived : receivedOf events = []) (henqueued : enqueuedOf events = []) :
      ∃ inHand, receivedOf (history ++ events) = (enqueuedOf (history ++ events)).map Prod.snd ++ inHand ∧
        inHand.length ≤ 1 := by
    rw [receivedOf_append, enqueuedOf_append, hreceived, henqueued, List.append_nil, List.append_nil]
    exact hhand
  cases step with
  | stream => exact ⟨hsilent rfl rfl, hcancelled, habsent, hqueue⟩
  | cleanUp =>
    exact ⟨hsilent rfl rfl, fun _ => rfl, fun h => habsent (cancel_eq_cancelled h), hqueue⟩
  | @forward _ senderId raw events phase hreceiving hknown hput =>
    have hraw : receivedOf (.received raw :: events) = [raw] := by cases hput <;> rfl
    refine ⟨inHand_received (hkeep.received_eq hreceiving) hraw hput.enqueuedOf_eq, fun h => ?_, habsent,
      hqueue⟩
    rw [hreceiving] at hcancelled
    cases hcancelled h
  | @handshake _ senderId raw events phase hreceiving hunknown haccepted hput =>
    have hraw : receivedOf (.received raw :: .handshaken senderId :: events) = [raw] := by
      cases hput <;> rfl
    exact ⟨inHand_received (hkeep.received_eq hreceiving) hraw hput.enqueuedOf_eq, fun h => (by cases h),
      fun h => (by cases h), hqueue⟩
  | refuse _ hreceiving =>
    exact ⟨inHand_received (hkeep.received_eq hreceiving) rfl (.inl rfl), fun _ => rfl,
      fun h => habsent (cancel_eq_cancelled h), hqueue⟩
  | @put senderId raw hsuspended hknown =>
    have hpending := hkeep.pending (by rw [hsuspended]; exact nofun)
    rw [hsuspended] at hpending
    refine ⟨⟨[], ?_, Nat.zero_le 1⟩, fun h => ?_, habsent, hqueue⟩
    · simpa [HandlerPhase.pending] using hpending
    · rw [hsuspended] at hcancelled
      cases hcancelled h
  | dequeue _ hqueued =>
    refine ⟨hsilent rfl rfl, fun h => (by cases h), fun h => (by cases h), ?_⟩
    rw [hqueued, List.length_cons] at hqueue
    exact Nat.le_of_succ_le hqueue
  | write => exact ⟨hsilent rfl rfl, fun h => (by cases h), fun h => (by cases h), hqueue⟩
  | writeFails => exact ⟨hsilent rfl rfl, fun h => (by cases h), fun h => (by cases h), hqueue⟩

end Connection

/-! ### The server -/

/-- What the server holds, in terms of the trace. -/
structure ServerFlow (tr : List UdsEvent) (server : UdsIpcServer) : Prop where
  handlers : ∀ connection handler, server.handlers connection = some handler →
    FlowInv (historyOf connection tr) handler
  incoming : server.incoming.length ≤ incomingQueueMaxsize

section Server

variable {pb : Protobuf} {expectedProtoHash : Bytes} {tr : List UdsEvent} {server server' : UdsIpcServer}
  {connection : ConnectionId} {handler : PeerHandler} {events : List PeerEvent}

theorem length_incoming_putIncoming (hroom : server.incoming.length ≤ incomingQueueMaxsize)
    (senderId : SenderId) (raw : Bytes) :
    (server.putIncoming connection handler senderId raw).1.incoming.length ≤ incomingQueueMaxsize := by
  unfold putIncoming
  split_ifs with h
  · show (server.incoming ++ [_]).length ≤ _
    rw [List.length_append]
    exact h
  · exact hroom

theorem length_incoming_handleRaw (hroom : server.incoming.length ≤ incomingQueueMaxsize) (raw : Bytes) :
    (server.handleRaw pb expectedProtoHash connection handler raw).1.incoming.length
      ≤ incomingQueueMaxsize := by
  unfold handleRaw
  split
  · exact length_incoming_putIncoming hroom _ _
  · split
    · exact hroom
    · rename_i senderId _
      have hroom' : ({ server with peers := server.peers.insert senderId connection }
        : UdsIpcServer).incoming.length ≤ incomingQueueMaxsize := hroom
      exact length_incoming_putIncoming hroom' senderId raw

/-- A pair is put on the queue only where there is room. -/
theorem length_incoming_stepPeer (hroom : server.incoming.length ≤ incomingQueueMaxsize)
    {action : PeerAction}
    (h : server.stepPeer pb expectedProtoHash connection handler action = some (server', events)) :
    server'.incoming.length ≤ incomingQueueMaxsize := by
  cases action with
  | recv =>
    simp only [stepPeer] at h
    by_cases hphase : handler.phase ≠ .receiving
    · rw [if_pos hphase] at h
      cases h
    rw [if_neg hphase] at h
    split at h
    · split_ifs at h
      obtain ⟨rfl, -⟩ := Prod.mk.inj (Option.some.inj h)
      exact hroom
    · split_ifs at h
      · obtain ⟨rfl, -⟩ := Prod.mk.inj (Option.some.inj h)
        exact hroom
      · have hserver := congrArg Prod.fst (Option.some.inj h)
        rw [← show _ = server' from hserver]
        exact length_incoming_handleRaw hroom _
  | put =>
    simp only [stepPeer] at h
    split at h
    · split_ifs at h
      obtain ⟨rfl, -⟩ := Prod.mk.inj (Option.some.inj h)
      exact length_incoming_putIncoming hroom _ _
    · cases h
  | peerCloses =>
    obtain ⟨rfl, -⟩ := Prod.mk.inj (Option.some.inj h)
    exact hroom
  | peerSends | recvFails | cancel =>
    simp only [stepPeer] at h
    split_ifs at h
    obtain ⟨rfl, -⟩ := Prod.mk.inj (Option.some.inj h)
    exact hroom
  | dequeue | write | writeFails =>
    simp only [stepPeer] at h
    split at h
    · obtain ⟨rfl, -⟩ := Prod.mk.inj (Option.some.inj h)
      exact hroom
    · cases h

theorem length_incoming_step (hroom : server.incoming.length ≤ incomingQueueMaxsize) {action : UdsAction}
    {es : List UdsEvent} (h : server.step pb expectedProtoHash action = some (server', es)) :
    server'.incoming.length ≤ incomingQueueMaxsize := by
  cases action with
  | accept =>
    obtain ⟨rfl, -⟩ := Prod.mk.inj (Option.some.inj h)
    exact hroom
  | peer connection action =>
    obtain ⟨handler, -, h⟩ := Option.bind_eq_some_iff.mp h
    obtain ⟨⟨server₁, events⟩, hstep, h⟩ := Option.bind_eq_some_iff.mp h
    obtain ⟨rfl, -⟩ := Prod.mk.inj (Option.some.inj h)
    exact length_incoming_stepPeer hroom hstep
  | send senderId payload =>
    have hserver := congrArg Prod.fst (Option.some.inj h)
    rw [← show (server.send senderId payload).1 = server' from hserver]
    rcases send_cases server senderId payload with ⟨_, _, -, -, hsend⟩ | ⟨_, -, hsend⟩
    all_goals
      rw [hsend]
      exact hroom
  | take =>
    simp only [UdsIpcServer.step] at h
    split at h
    · cases h
    · rename_i entry incoming hincoming
      obtain ⟨rfl, -⟩ := Prod.mk.inj (Option.some.inj h)
      rw [hincoming] at hroom
      exact Nat.le_of_succ_le hroom

/-- A payload is put on a queue only where there is room. -/
theorem length_sendQueue_lt_of_send {senderId : SenderId} {payload : Bytes}
    (hpeer : server.peers.lookup senderId = some connection)
    (hhandler : server.handlers connection = some handler)
    (h : (server.send senderId payload).2.1 = .accepted) : handler.sendQueue.length < sendQueueMaxsize := by
  by_contra hfull
  unfold send at h
  simp only [hpeer, hhandler, if_neg hfull] at h
  cases h

theorem FlowInv.sent {history : List PeerEvent} (hinv : FlowInv history handler) (senderId : SenderId)
    (payload : Bytes) (hroom : handler.sendQueue.length < sendQueueMaxsize) :
    FlowInv (history ++ [.sent senderId payload])
      { handler with sendQueue := handler.sendQueue ++ [payload] } where
  inHand := by simpa using hinv.inHand
  cancelled := hinv.cancelled
  absent := hinv.absent
  sendQueue := by
    rw [List.length_append]
    exact hroom

theorem ServerFlow.initial : ServerFlow [] UdsIpcServer.initial where
  handlers := nofun
  incoming := Nat.zero_le _

/-- One connection changes. -/
theorem ServerFlow.replace (hinv : ServerFlow tr server) {handler' : PeerHandler}
    (hkeep : FlowInv (historyOf connection tr ++ events) handler')
    (hhandlers : server'.handlers = (server.setHandler connection handler').handlers)
    (hincoming : server'.incoming.length ≤ incomingQueueMaxsize) :
    ServerFlow (tr ++ events.map (.peer connection)) server' where
  handlers other otherHandler hother := by
    rw [hhandlers, handlers_setHandler] at hother
    rw [historyOf_append, historyOf_map_peer]
    split_ifs at hother with heq
    · obtain rfl := Option.some.inj hother
      rw [heq, if_pos rfl]
      exact hkeep
    · rw [if_neg (Ne.symm heq), List.append_nil]
      exact hinv.handlers other otherHandler hother
  incoming := hincoming

/-- No connection changes. -/
theorem ServerFlow.frame (hinv : ServerFlow tr server) {es : List UdsEvent}
    (hsilent : ∀ connection, historyOf connection es = []) (hhandlers : server'.handlers = server.handlers)
    (hincoming : server'.incoming.length ≤ incomingQueueMaxsize) : ServerFlow (tr ++ es) server' where
  handlers connection handler h := by
    rw [historyOf_append, hsilent, List.append_nil]
    exact hinv.handlers connection handler (hhandlers ▸ h)
  incoming := hincoming

theorem ServerFlow.step (hinv : ServerFlow tr server) (hkeep : ServerInv pb expectedProtoHash tr server)
    {action : UdsAction} {es : List UdsEvent}
    (h : server.step pb expectedProtoHash action = some (server', es)) : ServerFlow (tr ++ es) server' := by
  have hincoming := length_incoming_step hinv.incoming h
  rcases step_cases h with ⟨-, rfl, rfl⟩ | ⟨connection, _, handler, handler', events, -, hhandler, hpeer,
    rfl, rfl⟩ | ⟨senderId, payload, -, rfl, rfl⟩ | ⟨entry, incoming, -, -, rfl, rfl⟩
  · have hnew : FlowInv (historyOf server.accepted tr ++ []) .new := by
      rw [hkeep.silent _ (hkeep.fresh _ le_rfl)]
      exact FlowInv.new
    exact hinv.replace hnew rfl hincoming
  · refine hinv.replace ?_ rfl hincoming
    exact (hinv.handlers connection handler hhandler).step (hkeep.handler connection handler hhandler) hpeer
  · rcases send_cases server senderId payload with ⟨connection, handler, hpeer, hhandler, hsend⟩ |
      ⟨outcome, -, hsend⟩
    · have hroom := length_sendQueue_lt_of_send hpeer hhandler (by rw [hsend])
      rw [hsend] at hincoming ⊢
      have hkept := hinv.handlers connection handler hhandler
      exact hinv.replace (hkept.sent senderId payload hroom) rfl hincoming
    · rw [hsend] at hincoming ⊢
      exact hinv.frame (fun _ => rfl) rfl hincoming
  · exact hinv.frame (fun _ => rfl) rfl hincoming

theorem ServerFlow.of_runs (run : (machine pb expectedProtoHash).Runs tr server) : ServerFlow tr server :=
  run.invariant ServerFlow.initial fun _ _ _ _ _ hrun hinv _ taken => hinv.step (.of_runs hrun) taken

end Server

end FileMonitor
