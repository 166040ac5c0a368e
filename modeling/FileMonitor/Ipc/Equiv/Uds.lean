import FileMonitor.Ipc.Uds

/-!
# One connection of the socket server

* `PeerStep` lists what a step of a connection can be, and `stepPeer_cases` that the server makes no
  other; the peer table and the incoming queue follow from the events (`peersAfter`).
* `HandlerInv` relates the handler of a connection to the events of the connection so far, and
  `HandlerInv.step` says that every step keeps it.
-/

namespace FileMonitor

open UdsIpcServer

/-! ### What the events of a connection say -/

/-- The messages received. -/
def receivedOf (history : List PeerEvent) : List Bytes :=
  history.filterMap fun
    | .received raw => some raw
    | _ => none

/-- The ids as which a handshake was completed. -/
def handshakesOf (history : List PeerEvent) : List SenderId :=
  history.filterMap fun
    | .handshaken senderId => some senderId
    | _ => none

/-- The pairs put on the incoming queue. -/
def enqueuedOf (history : List PeerEvent) : List (SenderId × Bytes) :=
  history.filterMap fun
    | .enqueued senderId raw => some (senderId, raw)
    | _ => none

/-- The payloads accepted by `send`. -/
def sentOf (history : List PeerEvent) : List Bytes :=
  history.filterMap fun
    | .sent _ payload => some payload
    | _ => none

/-- The payloads written to the socket. -/
def writtenOf (history : List PeerEvent) : List Bytes :=
  history.filterMap fun
    | .written payload => some payload
    | _ => none

/-- The handler has cleaned up or the writer has failed. -/
def Down (history : List PeerEvent) : Prop :=
  .cleanedUp ∈ history ∨ .writerFailed ∈ history

instance (history : List PeerEvent) : Decidable (Down history) := inferInstanceAs (Decidable (_ ∨ _))

theorem down_append {history events : List PeerEvent} :
    Down (history ++ events) ↔ Down history ∨ Down events := by
  simp only [Down, List.mem_append]
  tauto

section Projections

variable (history events : List PeerEvent)

@[simp] theorem receivedOf_nil : receivedOf [] = [] := rfl

@[simp] theorem receivedOf_cons (event : PeerEvent) :
    receivedOf (event :: events) = (match event with
      | .received raw => [raw]
      | _ => []) ++ receivedOf events := by
  cases event <;> rfl

@[simp] theorem receivedOf_append :
    receivedOf (history ++ events) = receivedOf history ++ receivedOf events := List.filterMap_append

@[simp] theorem handshakesOf_nil : handshakesOf [] = [] := rfl

@[simp] theorem handshakesOf_cons (event : PeerEvent) :
    handshakesOf (event :: events) = (match event with
      | .handshaken senderId => [senderId]
      | _ => []) ++ handshakesOf events := by
  cases event <;> rfl

@[simp] theorem handshakesOf_append :
    handshakesOf (history ++ events) = handshakesOf history ++ handshakesOf events := List.filterMap_append

@[simp] theorem enqueuedOf_nil : enqueuedOf [] = [] := rfl

@[simp] theorem enqueuedOf_cons (event : PeerEvent) :
    enqueuedOf (event :: events) = (match event with
      | .enqueued senderId raw => [(senderId, raw)]
      | _ => []) ++ enqueuedOf events := by
  cases event <;> rfl

@[simp] theorem enqueuedOf_append :
    enqueuedOf (history ++ events) = enqueuedOf history ++ enqueuedOf events := List.filterMap_append

@[simp] theorem sentOf_nil : sentOf [] = [] := rfl

@[simp] theorem sentOf_cons (event : PeerEvent) :
    sentOf (event :: events) = (match event with
      | .sent _ payload => [payload]
      | _ => []) ++ sentOf events := by
  cases event <;> rfl

@[simp] theorem sentOf_append :
    sentOf (history ++ events) = sentOf history ++ sentOf events := List.filterMap_append

@[simp] theorem writtenOf_nil : writtenOf [] = [] := rfl

@[simp] theorem writtenOf_cons (event : PeerEvent) :
    writtenOf (event :: events) = (match event with
      | .written payload => [payload]
      | _ => []) ++ writtenOf events := by
  cases event <;> rfl

@[simp] theorem writtenOf_append :
    writtenOf (history ++ events) = writtenOf history ++ writtenOf events := List.filterMap_append

end Projections

/-! ### What a step of a connection can be -/

/-- The two ways the `put` of a pair can go: at once, or not yet. -/
inductive PutResult (senderId : SenderId) (raw : Bytes) : List PeerEvent → HandlerPhase → Prop where
  | done : PutResult senderId raw [.enqueued senderId raw] .receiving
  | waits : PutResult senderId raw [] (.putting raw)

/-- What one step does to the handler of a connection, and the events of the step. -/
inductive PeerStep (pb : Protobuf) (expectedProtoHash : Bytes) (handler : PeerHandler) :
    List PeerEvent → PeerHandler → Prop where
  /-- Something arrives in the socket buffer, or the stream ends. -/
  | stream (inbox ended) :
    PeerStep pb expectedProtoHash handler [] { handler with inbox := inbox, ended := ended }
  | cleanUp (inbox) (notClosed : handler.phase ≠ .closed) :
    PeerStep pb expectedProtoHash handler [.cleanedUp]
      { handler with inbox := inbox, phase := .closed, writer := handler.writer.cancel }
  | forward (inbox) {senderId raw events phase} (receiving : handler.phase = .receiving)
    (known : handler.senderId = some senderId) (put : PutResult senderId raw events phase) :
    PeerStep pb expectedProtoHash handler (.received raw :: events)
      { handler with inbox := inbox, phase := phase }
  | handshake (inbox) {senderId raw events phase} (receiving : handler.phase = .receiving)
    (unknown : handler.senderId = none)
    (accepted : completeHandshake pb expectedProtoHash raw = .ok senderId)
    (put : PutResult senderId raw events phase) :
    PeerStep pb expectedProtoHash handler (.received raw :: .handshaken senderId :: events)
      { handler with
        inbox := inbox, phase := phase, senderId := some senderId, writer := .waiting }
  | refuse (inbox) {raw error} (receiving : handler.phase = .receiving)
    (unknown : handler.senderId = none)
    (rejected : completeHandshake pb expectedProtoHash raw = .error error) :
    PeerStep pb expectedProtoHash handler [.received raw, .refused error, .cleanedUp]
      { handler with inbox := inbox, phase := .closed, writer := handler.writer.cancel }
  | put {senderId raw} (suspended : handler.phase = .putting raw)
    (known : handler.senderId = some senderId) :
    PeerStep pb expectedProtoHash handler [.enqueued senderId raw]
      { handler with phase := .receiving }
  | dequeue {payload sendQueue} (waiting : handler.writer = .waiting)
    (queued : handler.sendQueue = payload :: sendQueue) :
    PeerStep pb expectedProtoHash handler []
      { handler with writer := .sending payload, sendQueue := sendQueue }
  | write {payload} (sending : handler.writer = .sending payload) :
    PeerStep pb expectedProtoHash handler [.written payload] { handler with writer := .waiting }
  | writeFails {payload} (sending : handler.writer = .sending payload) :
    PeerStep pb expectedProtoHash handler [.writerFailed]
      { handler with writer := .failed, ended := true }

/-- The peer table after an event of `connection`, whose handler knows its sender as `senderId`. -/
def peersAfter (connection : ConnectionId) (senderId : Option SenderId)
    (peers : Dict SenderId ConnectionId) : PeerEvent → Dict SenderId ConnectionId
  | .handshaken newId => peers.insert newId connection
  | .cleanedUp | .writerFailed => dropPeer peers connection senderId
  | _ => peers

/-- The state of the server after a step of `connection`. -/
def afterPeerStep (server : UdsIpcServer) (connection : ConnectionId) (handler : PeerHandler)
    (events : List PeerEvent) (handler' : PeerHandler) : UdsIpcServer :=
  { server.setHandler connection handler' with
    peers := events.foldl (peersAfter connection handler.senderId) server.peers
    incoming := server.incoming ++
      (enqueuedOf events).map fun pair => ⟨connection, pair.1, pair.2⟩ }

section

variable {pb : Protobuf} {expectedProtoHash : Bytes} {server server' : UdsIpcServer}
  {connection : ConnectionId} {handler : PeerHandler} {events : List PeerEvent}

theorem putIncoming_cases (server : UdsIpcServer) (connection : ConnectionId)
    (handler : PeerHandler) (senderId : SenderId) (raw : Bytes) :
    ∃ events phase, PutResult senderId raw events phase ∧
      server.putIncoming connection handler senderId raw
        = ({ server.setHandler connection { handler with phase := phase } with
              incoming := server.incoming ++
                (enqueuedOf events).map fun pair => ⟨connection, pair.1, pair.2⟩ }, events) := by
  unfold putIncoming
  by_cases hroom : server.incoming.length < incomingQueueMaxsize
  · rw [if_pos hroom]
    exact ⟨_, _, .done, rfl⟩
  · rw [if_neg hroom]
    refine ⟨_, _, .waits, ?_⟩
    simp [enqueuedOf, setHandler]

theorem foldl_peersAfter_putResult {senderId : SenderId} {raw : Bytes} {phase : HandlerPhase}
    (hput : PutResult senderId raw events phase) (peers : Dict SenderId ConnectionId)
    (known : Option SenderId) : events.foldl (peersAfter connection known) peers = peers := by
  cases hput <;> rfl

theorem afterPeerStep_of_silent (server : UdsIpcServer) (connection : ConnectionId)
    (handler handler' : PeerHandler) :
    afterPeerStep server connection handler [] handler' = server.setHandler connection handler' := by
  simp [afterPeerStep, enqueuedOf, setHandler]

theorem cleanUp_eq (server : UdsIpcServer) (connection : ConnectionId) (handler : PeerHandler)
    (inbox : List Bytes) :
    server.cleanUp connection { handler with inbox := inbox }
      = afterPeerStep server connection handler [.cleanedUp]
          { handler with inbox := inbox, phase := .closed, writer := handler.writer.cancel } := by
  simp [afterPeerStep, enqueuedOf, setHandler, cleanUp, peersAfter]

/-- A message received is forwarded, completes the handshake, or is refused. -/
theorem handleRaw_cases {inbox : List Bytes} {raw : Bytes} (hphase : handler.phase = .receiving)
    (h : server.handleRaw pb expectedProtoHash connection { handler with inbox := inbox } raw
      = (server', events)) :
    ∃ handler', PeerStep pb expectedProtoHash handler events handler' ∧
      server' = afterPeerStep server connection handler events handler' := by
  unfold handleRaw at h
  rcases hknown : handler.senderId with _ | senderId
  · simp only [hknown] at h
    rcases hshake : completeHandshake pb expectedProtoHash raw with error | senderId
    · simp only [hshake] at h
      obtain ⟨rfl, rfl⟩ := Prod.mk.inj h
      refine ⟨_, .refuse inbox hphase hknown hshake, ?_⟩
      simp [afterPeerStep, enqueuedOf, setHandler, cleanUp, peersAfter, hknown, dropPeer]
    · simp only [hshake] at h
      obtain ⟨putEvents, phase, hput, heq⟩ := putIncoming_cases
        { server with peers := server.peers.insert senderId connection } connection
        { handler with inbox := inbox, senderId := some senderId, writer := .waiting } senderId raw
      rw [heq] at h
      obtain ⟨rfl, rfl⟩ := Prod.mk.inj h
      refine ⟨_, .handshake inbox hphase hknown hshake hput, ?_⟩
      simp only [afterPeerStep, List.foldl_cons, peersAfter, foldl_peersAfter_putResult hput]
      rfl
  · simp only [hknown] at h
    obtain ⟨putEvents, phase, hput, heq⟩ := putIncoming_cases server connection
      { handler with inbox := inbox } senderId raw
    rw [hknown] at heq
    rw [heq] at h
    obtain ⟨rfl, rfl⟩ := Prod.mk.inj h
    refine ⟨_, .forward inbox hphase hknown hput, ?_⟩
    simp only [afterPeerStep, List.foldl_cons, peersAfter, foldl_peersAfter_putResult hput, hknown]
    rfl

/-- **The server makes no other steps on a connection**, and the rest of its state follows. -/
theorem stepPeer_cases {action : PeerAction}
    (h : server.stepPeer pb expectedProtoHash connection handler action = some (server', events)) :
    ∃ handler', PeerStep pb expectedProtoHash handler events handler' ∧
      server' = afterPeerStep server connection handler events handler' := by
  cases action with
  | peerSends raw =>
    simp only [stepPeer] at h
    split_ifs at h
    obtain ⟨rfl, rfl⟩ := Prod.mk.inj (Option.some.inj h)
    exact ⟨_, .stream (handler.inbox ++ [raw]) handler.ended,
      (afterPeerStep_of_silent _ _ handler _).symm⟩
  | peerCloses =>
    obtain ⟨rfl, rfl⟩ := Prod.mk.inj (Option.some.inj h)
    exact ⟨_, .stream handler.inbox true, (afterPeerStep_of_silent _ _ handler _).symm⟩
  | recv =>
    simp only [stepPeer] at h
    by_cases hphase : handler.phase ≠ .receiving
    · rw [if_pos hphase] at h
      cases h
    rw [if_neg hphase] at h
    rw [not_not] at hphase
    have hopen : handler.phase ≠ .closed := by rw [hphase]; decide
    split at h
    · split_ifs at h
      obtain ⟨rfl, rfl⟩ := Prod.mk.inj (Option.some.inj h)
      exact ⟨_, .cleanUp handler.inbox hopen, cleanUp_eq _ _ handler handler.inbox⟩
    · rename_i message inbox _
      split_ifs at h
      · obtain ⟨rfl, rfl⟩ := Prod.mk.inj (Option.some.inj h)
        exact ⟨_, .cleanUp inbox hopen, cleanUp_eq _ _ handler inbox⟩
      · exact handleRaw_cases hphase (Option.some.inj h)
  | recvFails =>
    simp only [stepPeer] at h
    split_ifs at h with hphase
    rw [not_not] at hphase
    have hopen : handler.phase ≠ .closed := by rw [hphase]; decide
    obtain ⟨rfl, rfl⟩ := Prod.mk.inj (Option.some.inj h)
    exact ⟨_, .cleanUp handler.inbox hopen, cleanUp_eq _ _ handler handler.inbox⟩
  | put =>
    simp only [stepPeer] at h
    split at h
    · rename_i raw senderId hphase hknown
      split_ifs at h with hroom
      rw [putIncoming, if_pos hroom] at h
      obtain ⟨rfl, rfl⟩ := Prod.mk.inj (Option.some.inj h)
      exact ⟨_, .put hphase hknown, rfl⟩
    · cases h
  | cancel =>
    simp only [stepPeer] at h
    split_ifs at h with hphase
    obtain ⟨rfl, rfl⟩ := Prod.mk.inj (Option.some.inj h)
    exact ⟨_, .cleanUp handler.inbox hphase, cleanUp_eq _ _ handler handler.inbox⟩
  | dequeue =>
    simp only [stepPeer] at h
    split at h
    · rename_i payload sendQueue hwriter hqueue
      obtain ⟨rfl, rfl⟩ := Prod.mk.inj (Option.some.inj h)
      exact ⟨_, .dequeue hwriter hqueue, (afterPeerStep_of_silent _ _ handler _).symm⟩
    · cases h
  | write =>
    simp only [stepPeer] at h
    split at h
    · rename_i payload hwriter
      obtain ⟨rfl, rfl⟩ := Prod.mk.inj (Option.some.inj h)
      refine ⟨_, .write hwriter, ?_⟩
      simp [afterPeerStep, enqueuedOf, setHandler, peersAfter]
    · cases h
  | writeFails =>
    simp only [stepPeer] at h
    split at h
    · rename_i payload hwriter
      obtain ⟨rfl, rfl⟩ := Prod.mk.inj (Option.some.inj h)
      refine ⟨_, .writeFails hwriter, ?_⟩
      simp [afterPeerStep, enqueuedOf, setHandler, peersAfter]
    · cases h

end

/-! ### The peer table after a step -/

theorem lookup_dropPeer (peers : Dict SenderId ConnectionId) (connection : ConnectionId)
    (known : Option SenderId) (senderId : SenderId) :
    (dropPeer peers connection known).lookup senderId
      = if known = some senderId ∧ peers.lookup senderId = some connection then none
        else peers.lookup senderId := by
  cases known with
  | none => simp [dropPeer]
  | some knownId =>
    unfold dropPeer
    by_cases hsame : knownId = senderId
    · subst hsame
      by_cases hheld : peers.lookup knownId = some connection
      · simp [hheld, AList.lookup_erase]
      · simp [hheld]
    · by_cases hheld : peers.lookup knownId = some connection
      · simp [hheld, hsame, Ne.symm hsame]
      · simp [hheld, hsame]

/-- **The peer table changes by handshakes and by going down only.**  A handshake enters the connection
under its id; going down removes the connection's own entry, and no other. -/
theorem lookup_peersAfter {pb : Protobuf} {expectedProtoHash : Bytes} {events : List PeerEvent}
    {handler handler' : PeerHandler} (hstep : PeerStep pb expectedProtoHash handler events handler')
    (peers : Dict SenderId ConnectionId) (connection : ConnectionId) (senderId : SenderId) :
    (events.foldl (peersAfter connection handler.senderId) peers).lookup senderId
      = if senderId ∈ handshakesOf events then some connection
        else if Down events ∧ handler.senderId = some senderId ∧
          peers.lookup senderId = some connection then none
        else peers.lookup senderId := by
  cases hstep with
  | stream => simp [Down]
  | cleanUp inbox notClosed => simp [Down, peersAfter, lookup_dropPeer]
  | forward inbox receiving known put =>
    rw [List.foldl_cons, foldl_peersAfter_putResult put]
    cases put <;> simp [Down, peersAfter]
  | handshake inbox receiving unknown accepted put =>
    rw [List.foldl_cons, List.foldl_cons, foldl_peersAfter_putResult put]
    cases put <;> simp [Down, peersAfter, Dict.lookup_insert_eq_ite]
  | refuse inbox receiving unknown rejected => simp [Down, peersAfter, unknown, dropPeer]
  | put suspended known => simp [Down, peersAfter]
  | dequeue waiting queued => simp [Down]
  | write sending => simp [Down, peersAfter]
  | writeFails sending => simp [Down, peersAfter, lookup_dropPeer]

/-- An older connection of an id cannot disturb the table. -/
theorem foldl_peersAfter_of_stale {pb : Protobuf} {expectedProtoHash : Bytes}
    {events : List PeerEvent} {handler handler' : PeerHandler}
    (hstep : PeerStep pb expectedProtoHash handler events handler') (hdown : Down events)
    {senderId : SenderId} (hknown : handler.senderId = some senderId)
    {peers : Dict SenderId ConnectionId} {connection : ConnectionId}
    (hstale : peers.lookup senderId ≠ some connection) :
    events.foldl (peersAfter connection handler.senderId) peers = peers := by
  cases hstep with
  | cleanUp inbox notClosed => simp [peersAfter, hknown, dropPeer, hstale]
  | writeFails sending => simp [peersAfter, hknown, dropPeer, hstale]
  | refuse inbox receiving unknown rejected =>
    rw [unknown] at hknown
    cases hknown
  | forward inbox receiving known put => cases put <;> simp [Down] at hdown
  | handshake inbox receiving unknown accepted put => cases put <;> simp [Down] at hdown
  | _ => simp [Down] at hdown

/-- A connection without a known sender cannot touch the table. -/
theorem foldl_peersAfter_of_unknown {pb : Protobuf} {expectedProtoHash : Bytes}
    {events : List PeerEvent} {handler handler' : PeerHandler}
    (hstep : PeerStep pb expectedProtoHash handler events handler')
    (hunknown : handler'.senderId = none) {peers : Dict SenderId ConnectionId}
    {connection : ConnectionId} :
    events.foldl (peersAfter connection handler.senderId) peers = peers := by
  cases hstep with
  | stream => rfl
  | cleanUp inbox notClosed =>
    have h : handler.senderId = none := hunknown
    simp [peersAfter, h, dropPeer]
  | forward inbox receiving known put =>
    rw [List.foldl_cons, foldl_peersAfter_putResult put]
    rfl
  | handshake inbox receiving unknown accepted put => cases hunknown
  | refuse inbox receiving unknown rejected => simp [peersAfter, unknown, dropPeer]
  | put suspended known => rfl
  | dequeue waiting queued => rfl
  | write sending => rfl
  | writeFails sending =>
    have h : handler.senderId = none := hunknown
    simp [peersAfter, h, dropPeer]

/-- Only `send` puts payloads on the queue of a connection. -/
theorem PeerStep.sentOf_eq_nil {pb : Protobuf} {expectedProtoHash : Bytes}
    {events : List PeerEvent} {handler handler' : PeerHandler}
    (hstep : PeerStep pb expectedProtoHash handler events handler') : sentOf events = [] := by
  cases hstep with
  | forward inbox receiving known put => cases put <;> rfl
  | handshake inbox receiving unknown accepted put => cases put <;> rfl
  | _ => rfl

/-! ### The handler and its history -/

/-- The message received but not put on the incoming queue yet. -/
def HandlerPhase.pending : HandlerPhase → List Bytes
  | .putting raw => [raw]
  | _ => []

/-- The payload taken from the send queue but not written yet. -/
def WriterState.inFlight : WriterState → List Bytes
  | .sending payload => [payload]
  | _ => []

/-- What the handler of a connection knows, in terms of the events of the connection. -/
structure HandlerInv (pb : Protobuf) (expectedProtoHash : Bytes) (history : List PeerEvent)
    (handler : PeerHandler) : Prop where
  handshakes : handshakesOf history = handler.senderId.toList
  cleanedUp : .cleanedUp ∈ history ↔ handler.phase = .closed
  writerFailed : .writerFailed ∈ history ↔ handler.writer = .failed
  absent : handler.senderId = none → handler.writer = .absent
  /-- The first message of a known sender was a valid hello. -/
  hello : ∀ senderId, handler.senderId = some senderId → ∃ raw,
    (receivedOf history).head? = some raw ∧
      completeHandshake pb expectedProtoHash raw = .ok senderId
  /-- Without a known sender, a message received was refused and has ended the handler. -/
  refused : handler.senderId = none → receivedOf history = [] ∨ handler.phase = .closed ∧
    ∃ raw error, receivedOf history = [raw] ∧
      completeHandshake pb expectedProtoHash raw = .error error
  tagged : ∀ pair ∈ enqueuedOf history, handler.senderId = some pair.1
  enqueued : (enqueuedOf history).map Prod.snd <+: receivedOf history
  pending : handler.phase ≠ .closed →
    receivedOf history = (enqueuedOf history).map Prod.snd ++ handler.phase.pending
  written : writtenOf history <+: sentOf history
  unsent : handler.writer ≠ .failed → handler.writer ≠ .cancelled →
    sentOf history = writtenOf history ++ handler.writer.inFlight ++ handler.sendQueue

theorem HandlerInv.new (pb : Protobuf) (expectedProtoHash : Bytes) :
    HandlerInv pb expectedProtoHash [] .new where
  handshakes := rfl
  cleanedUp := by simp [PeerHandler.new]
  writerFailed := by simp [PeerHandler.new]
  absent _ := rfl
  hello := nofun
  refused _ := .inl rfl
  tagged := nofun
  enqueued := List.prefix_rfl
  pending _ := rfl
  written := List.prefix_rfl
  unsent _ _ := rfl

theorem cancel_ne_failed_iff {writer : WriterState} : writer.cancel = .failed ↔ writer = .failed := by
  cases writer <;> simp [WriterState.cancel]

/-- What a put does to the invariant of a known sender: the message received is in place. -/
theorem PutResult.received_eq {senderId : SenderId} {raw : Bytes} {events : List PeerEvent}
    {phase : HandlerPhase} (hput : PutResult senderId raw events phase) :
    [raw] = (enqueuedOf events).map Prod.snd ++ phase.pending := by
  cases hput <;> rfl

theorem PutResult.silent {senderId : SenderId} {raw : Bytes} {events : List PeerEvent}
    {phase : HandlerPhase} (hput : PutResult senderId raw events phase) :
    receivedOf events = [] ∧ handshakesOf events = [] ∧ sentOf events = [] ∧ writtenOf events = [] ∧
      .cleanedUp ∉ events ∧ .writerFailed ∉ events ∧ phase ≠ .closed ∧
      ∀ pair ∈ enqueuedOf events, pair.1 = senderId := by
  cases hput <;> simp [receivedOf, handshakesOf, sentOf, writtenOf, enqueuedOf]

section Step

variable {pb : Protobuf} {expectedProtoHash : Bytes} {history events : List PeerEvent}
  {handler handler' : PeerHandler}

/-- A writer that a cancellation leaves running has not been started. -/
theorem HandlerInv.unsent_cancel (hinv : HandlerInv pb expectedProtoHash history handler)
    (hfailed : handler.writer.cancel ≠ .failed) (hcancelled : handler.writer.cancel ≠ .cancelled) :
    sentOf history = writtenOf history ++ handler.writer.cancel.inFlight ++ handler.sendQueue := by
  have hunsent := hinv.unsent
  cases hwriter : handler.writer with
  | absent =>
    rw [hwriter] at hunsent
    exact hunsent (by decide) (by decide)
  | waiting => rw [hwriter] at hcancelled; exact absurd rfl hcancelled
  | sending payload => rw [hwriter] at hcancelled; exact absurd rfl hcancelled
  | failed => rw [hwriter] at hfailed; exact absurd rfl hfailed
  | cancelled => rw [hwriter] at hcancelled; exact absurd rfl hcancelled

/-- Nothing comes into the queue from an unknown sender. -/
theorem HandlerInv.enqueuedOf_eq_nil (hinv : HandlerInv pb expectedProtoHash history handler)
    (unknown : handler.senderId = none) : enqueuedOf history = [] := by
  rw [List.eq_nil_iff_forall_not_mem]
  intro pair hpair
  have htag := hinv.tagged pair hpair
  rw [unknown] at htag
  cases htag

theorem HandlerInv.receivedOf_eq_nil (hinv : HandlerInv pb expectedProtoHash history handler)
    (notClosed : handler.phase ≠ .closed) (unknown : handler.senderId = none) :
    receivedOf history = [] := by
  rcases hinv.refused unknown with hnone | ⟨hclosed, -⟩
  · exact hnone
  · exact absurd hclosed notClosed

/-- A message of a known sender. -/
theorem HandlerInv.forward (hinv : HandlerInv pb expectedProtoHash history handler)
    (inbox : List Bytes) {senderId : SenderId} {raw : Bytes} {events : List PeerEvent}
    {phase : HandlerPhase} (receiving : handler.phase = .receiving)
    (known : handler.senderId = some senderId) (put : PutResult senderId raw events phase) :
    HandlerInv pb expectedProtoHash (history ++ .received raw :: events)
      { handler with inbox := inbox, phase := phase } := by
  obtain ⟨hreceived, hhandshakes, hsent, hwritten, hclean, hfail, hphase, htag⟩ := put.silent
  have hpending := hinv.pending (by rw [receiving]; decide)
  rw [receiving] at hpending
  -- the message is either on the queue or pending
  have hplace : receivedOf (history ++ .received raw :: events)
      = (enqueuedOf (history ++ .received raw :: events)).map Prod.snd ++ phase.pending := by
    simp only [enqueuedOf_append, enqueuedOf_cons, List.nil_append, List.map_append,
      List.append_assoc, receivedOf_append, receivedOf_cons, hreceived, List.append_nil,
      ← put.received_eq, hpending]
    simp [HandlerPhase.pending]
  exact
    { handshakes := by simpa [hhandshakes] using hinv.handshakes
      cleanedUp := by simpa [hclean, hphase, receiving] using hinv.cleanedUp
      writerFailed := by simpa [hfail] using hinv.writerFailed
      absent := hinv.absent
      hello := by
        intro id hid
        obtain ⟨first, hfirst, hok⟩ := hinv.hello id hid
        refine ⟨first, ?_, hok⟩
        rw [receivedOf_append, List.head?_append, hfirst]
        rfl
      refused := fun h => by
        rw [show handler.senderId = none from h] at known
        cases known
      tagged := by
        intro pair hpair
        simp only [enqueuedOf_append, enqueuedOf_cons, List.nil_append, List.mem_append] at hpair
        rcases hpair with hpair | hpair
        · exact hinv.tagged pair hpair
        · rw [htag pair hpair]
          exact known
      enqueued := ⟨phase.pending, hplace.symm⟩
      pending := fun _ => hplace
      written := by simpa [hwritten, hsent] using hinv.written
      unsent := fun hfailed hcancelled => by
        simpa [hwritten, hsent] using hinv.unsent hfailed hcancelled }

/-- The first message, a valid hello. -/
theorem HandlerInv.handshake (hinv : HandlerInv pb expectedProtoHash history handler)
    (inbox : List Bytes) {senderId : SenderId} {raw : Bytes} {events : List PeerEvent}
    {phase : HandlerPhase} (receiving : handler.phase = .receiving)
    (unknown : handler.senderId = none)
    (accepted : completeHandshake pb expectedProtoHash raw = .ok senderId)
    (put : PutResult senderId raw events phase) :
    HandlerInv pb expectedProtoHash (history ++ .received raw :: .handshaken senderId :: events)
      { handler with
        inbox := inbox, phase := phase, senderId := some senderId, writer := .waiting } := by
  obtain ⟨hreceived, hhandshakes, hsent, hwritten, hclean, hfail, hphase, htag⟩ := put.silent
  -- this is the first message of the connection
  have hnothing := hinv.receivedOf_eq_nil (by rw [receiving]; decide) unknown
  have hnoneEnqueued := hinv.enqueuedOf_eq_nil unknown
  have habsent := hinv.absent unknown
  have hplace : receivedOf (history ++ .received raw :: .handshaken senderId :: events)
      = (enqueuedOf (history ++ .received raw :: .handshaken senderId :: events)).map Prod.snd
        ++ phase.pending := by
    simp [hnothing, hnoneEnqueued, hreceived, ← put.received_eq]
  exact
    { handshakes := by
        have := hinv.handshakes
        simp only [unknown, Option.toList_none] at this
        simp [hhandshakes, this]
      cleanedUp := by
        have := hinv.cleanedUp
        simp only [receiving, reduceCtorEq, iff_false] at this
        simp [hclean, hphase, this]
      writerFailed := by
        have := hinv.writerFailed
        simp only [habsent, reduceCtorEq, iff_false] at this
        simp [hfail, this]
      absent := nofun
      hello := by
        intro id hid
        obtain rfl := Option.some.inj hid
        exact ⟨raw, by simp [hnothing], accepted⟩
      refused := nofun
      tagged := by
        intro pair hpair
        simp only [enqueuedOf_append, enqueuedOf_cons, hnoneEnqueued, List.nil_append] at hpair
        rw [htag pair hpair]
      enqueued := ⟨phase.pending, hplace.symm⟩
      pending := fun _ => hplace
      written := by simpa [hwritten, hsent] using hinv.written
      unsent := fun _ _ => by
        have := hinv.unsent (by rw [habsent]; decide) (by rw [habsent]; decide)
        simpa [hwritten, hsent, habsent, WriterState.inFlight] using this }

/-- **Every step of a connection keeps the invariant.** -/
theorem HandlerInv.step (hinv : HandlerInv pb expectedProtoHash history handler)
    (hstep : PeerStep pb expectedProtoHash handler events handler') :
    HandlerInv pb expectedProtoHash (history ++ events) handler' := by
  cases hstep with
  | stream inbox ended =>
    rw [List.append_nil]
    exact { hinv with }
  | cleanUp inbox notClosed =>
    exact
      { handshakes := by simpa using hinv.handshakes
        cleanedUp := by simp
        writerFailed := by simpa [cancel_ne_failed_iff] using hinv.writerFailed
        absent := fun h => congrArg WriterState.cancel (hinv.absent h)
        hello := by simpa using hinv.hello
        refused := fun h => by
          rcases hinv.refused h with hnone | ⟨hclosed, _⟩
          · left
            simpa using hnone
          · exact absurd hclosed notClosed
        tagged := by simpa using hinv.tagged
        enqueued := by simpa using hinv.enqueued
        pending := fun h => absurd rfl h
        written := by simpa using hinv.written
        unsent := fun hfailed hcancelled => by simpa using hinv.unsent_cancel hfailed hcancelled }
  | forward inbox receiving known put => exact hinv.forward inbox receiving known put
  | handshake inbox receiving unknown accepted put =>
    exact hinv.handshake inbox receiving unknown accepted put
  | @refuse inbox raw error receiving unknown rejected =>
    have hnothing := hinv.receivedOf_eq_nil (by rw [receiving]; decide) unknown
    have hnoneEnqueued := hinv.enqueuedOf_eq_nil unknown
    exact
      { handshakes := by simpa using hinv.handshakes
        cleanedUp := by simp
        writerFailed := by simpa [cancel_ne_failed_iff] using hinv.writerFailed
        absent := fun h => congrArg WriterState.cancel (hinv.absent h)
        hello := fun id hid => by
          rw [show handler.senderId = some id from hid] at unknown
          cases unknown
        refused := fun _ => .inr ⟨rfl, raw, error, by simp [hnothing], rejected⟩
        tagged := by simpa using hinv.tagged
        enqueued := by simp [hnoneEnqueued]
        pending := fun h => absurd rfl h
        written := by simpa using hinv.written
        unsent := fun hfailed hcancelled => by simpa using hinv.unsent_cancel hfailed hcancelled }
  | @put senderId raw suspended known =>
    have hpending := hinv.pending (by rw [suspended]; nofun)
    rw [suspended] at hpending
    exact
      { handshakes := by simpa using hinv.handshakes
        cleanedUp := by simpa [suspended] using hinv.cleanedUp
        writerFailed := by simpa using hinv.writerFailed
        absent := hinv.absent
        hello := by simpa using hinv.hello
        refused := fun h => by
          rw [show handler.senderId = none from h] at known
          cases known
        tagged := by
          intro pair hpair
          simp only [enqueuedOf_append, enqueuedOf_cons, enqueuedOf_nil, List.append_nil,
            List.mem_append, List.mem_singleton] at hpair
          rcases hpair with hpair | rfl
          · exact hinv.tagged pair hpair
          · exact known
        enqueued := by simp [hpending, HandlerPhase.pending]
        pending := fun _ => by simp [hpending, HandlerPhase.pending]
        written := by simpa using hinv.written
        unsent := fun hfailed hcancelled => by simpa using hinv.unsent hfailed hcancelled }
  | dequeue waiting queued =>
    have hunsent := hinv.unsent (by rw [waiting]; decide) (by rw [waiting]; decide)
    rw [List.append_nil]
    exact
      { hinv with
        writerFailed := by simpa [waiting] using hinv.writerFailed
        absent := fun h => by
          rw [hinv.absent h] at waiting
          cases waiting
        unsent := fun _ _ => by
          rw [hunsent, waiting, queued]
          simp [WriterState.inFlight] }
  | @write payload sending =>
    have hunsent := hinv.unsent (by rw [sending]; nofun) (by rw [sending]; nofun)
    rw [sending] at hunsent
    exact
      { handshakes := by simpa using hinv.handshakes
        cleanedUp := by simpa using hinv.cleanedUp
        writerFailed := by simpa [sending] using hinv.writerFailed
        absent := fun h => by
          rw [hinv.absent h] at sending
          cases sending
        hello := by simpa using hinv.hello
        refused := by simpa using hinv.refused
        tagged := by simpa using hinv.tagged
        enqueued := by simpa using hinv.enqueued
        pending := fun h => by simpa using hinv.pending h
        written := by
          refine ⟨handler.sendQueue, ?_⟩
          simp [hunsent, WriterState.inFlight]
        unsent := fun _ _ => by simp [hunsent, WriterState.inFlight] }
  | @writeFails payload sending =>
    exact
      { handshakes := by simpa using hinv.handshakes
        cleanedUp := by simpa using hinv.cleanedUp
        writerFailed := by simp
        absent := fun h => by
          rw [hinv.absent h] at sending
          cases sending
        hello := by simpa using hinv.hello
        refused := by simpa using hinv.refused
        tagged := by simpa using hinv.tagged
        enqueued := by simpa using hinv.enqueued
        pending := fun h => by simpa using hinv.pending h
        written := by simpa using hinv.written
        unsent := fun hfailed _ => absurd rfl hfailed }

theorem HandlerInv.down_iff (hinv : HandlerInv pb expectedProtoHash history handler) :
    Down history ↔ handler.phase = .closed ∨ handler.writer = .failed :=
  or_congr hinv.cleanedUp hinv.writerFailed

/-- A connection is not down right after its handshake. -/
theorem HandlerInv.not_down_of_handshake
    (hinv : HandlerInv pb expectedProtoHash history handler)
    (hstep : PeerStep pb expectedProtoHash handler events handler') {senderId : SenderId}
    (hmem : senderId ∈ handshakesOf events) : ¬ Down (history ++ events) := by
  rw [(hinv.step hstep).down_iff]
  cases hstep with
  | handshake inbox receiving unknown accepted put =>
    obtain ⟨-, -, -, -, -, -, hphase, -⟩ := put.silent
    rintro (h | h)
    · exact hphase h
    · cases h
  | forward inbox receiving known put => cases put <;> simp at hmem
  | _ => simp at hmem

end Step

end FileMonitor
