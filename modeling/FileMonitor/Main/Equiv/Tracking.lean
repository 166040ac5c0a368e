import FileMonitor.Main.Equiv.Core
import FileMonitor.Services.Equiv.Coverage

/-!
# Tracked sessions

A session is entered into `_dispatched_sessions` when its dispatch returns, and leaves it with its first
`SessionComplete`.

* `completed_session_is_untracked`: where no `SessionComplete` of a session is processed while its
  dispatch is still sending, a completed session is not tracked.
* `completed_session_leaks`: during the retry delay for a later sender it can be, and then the entry
  made after it stays.
-/

namespace FileMonitor

open DispatchEffect

/-! ### Completion -/

/-- The session a payload assigns a shard of. -/
def assignedSession (pb : Protobuf) (payload : Bytes) : Option SessionId :=
  match decode pb payload with
  | .ok (.assignSession assignSession) => some assignSession.manifest.sessionId
  | _ => none

/-- The session a message completes. -/
def completedSession (pb : Protobuf) (raw : Bytes) : Option SessionId :=
  match decode pb raw with
  | .ok (.sessionComplete sessionId) => some sessionId
  | _ => none

/-- The event hands `senderId` its `AssignSession` for `sessionId`. -/
def HandsOver (pb : Protobuf) (sessionId : SessionId) (senderId : SenderId) : CoreEvent → Prop
  | .sendEnded senderId' payload outcome =>
    senderId' = senderId ∧ outcome = .accepted ∧ assignedSession pb payload = some sessionId
  | _ => False

instance (pb : Protobuf) (sessionId : SessionId) (senderId : SenderId) :
    DecidablePred (HandsOver pb sessionId senderId) := fun event => by
  unfold HandsOver
  split <;> infer_instance

/-- After `tr`, this is a `SessionComplete` of a sender that was handed its assignment. -/
def Completes (pb : Protobuf) (sessionId : SessionId) (tr : List CoreEvent) (senderId : SenderId)
    (raw : Bytes) : Prop :=
  completedSession pb raw = some sessionId ∧ ∃ event ∈ tr, HandsOver pb sessionId senderId event

instance (pb : Protobuf) (sessionId : SessionId) (tr : List CoreEvent) (senderId : SenderId)
    (raw : Bytes) : Decidable (Completes pb sessionId tr senderId raw) := by
  unfold Completes
  infer_instance

/-- Such a message has been processed. -/
def Completed (pb : Protobuf) (sessionId : SessionId) (tr : List CoreEvent) : Prop :=
  ∃ pre senderId raw post, tr = pre ++ .handled senderId raw :: post ∧
    Completes pb sessionId pre senderId raw

/-- `generate_session_id` draws this id at most once. -/
def DrawnOnce (sessionId : SessionId) (tr : List CoreEvent) : CoreAction → Prop
  | .generate newId => newId = sessionId → .generated sessionId ∉ tr
  | _ => True

/-- No `SessionComplete` of the session is processed before its dispatch is over. -/
def CompletedAfterDispatch (pb : Protobuf) (sessionId : SessionId) (tr : List CoreEvent)
    (core : Core) : CoreAction → Prop
  | .incoming senderId raw => Completes pb sessionId tr senderId raw → core.session ≠ some sessionId
  | _ => True

instance (sessionId : SessionId) (tr : List CoreEvent) : DecidablePred (DrawnOnce sessionId tr) :=
  fun action => by
    unfold DrawnOnce
    split <;> infer_instance

instance (pb : Protobuf) (sessionId : SessionId) (tr : List CoreEvent) (core : Core) :
    DecidablePred (CompletedAfterDispatch pb sessionId tr core) := fun action => by
  unfold CompletedAfterDispatch
  split <;> infer_instance

section

variable {pb : Protobuf} {dispatcher : SessionDispatcher} {sessionId : SessionId}
  {tr : List CoreEvent} {core core' : Core}

theorem completed_append_singleton {event : CoreEvent} :
    Completed pb sessionId (tr ++ [event]) ↔ Completed pb sessionId tr ∨
      ∃ senderId raw, event = .handled senderId raw ∧ Completes pb sessionId tr senderId raw := by
  constructor
  · rintro ⟨pre, senderId, raw, post, htr, hcompletes⟩
    rcases EventMachine.split_of_append_singleton htr with ⟨rfl, rfl, rfl⟩ | ⟨mid, -, rfl⟩
    · exact .inr ⟨senderId, raw, rfl, hcompletes⟩
    · exact .inl ⟨pre, senderId, raw, mid, rfl, hcompletes⟩
  · rintro (⟨pre, senderId, raw, post, rfl, hcompletes⟩ | ⟨senderId, raw, rfl, hcompletes⟩)
    · exact ⟨pre, senderId, raw, post ++ [event], by simp, hcompletes⟩
    · exact ⟨tr, senderId, raw, [], rfl, hcompletes⟩

/-- Only a message that the incoming loop has handled completes a session. -/
theorem Completed.of_append_singleton {event : CoreEvent}
    (h : Completed pb sessionId (tr ++ [event])) (hnot : ∀ senderId raw, event ≠ .handled senderId raw) :
    Completed pb sessionId tr := by
  rcases completed_append_singleton.mp h with h | ⟨senderId, raw, heq, -⟩
  · exact h
  · exact absurd heq (hnot senderId raw)

/-- A message takes the session that it completes out of the table, and no other. -/
theorem lookup_dispatchedSessions_of_handleIncoming {state state' : IncomingState}
    {item : IncomingItem} (h : handleIncoming pb state item = .ok state') (sessionId : SessionId) :
    state'.dispatchedSessions.lookup sessionId
      = if completedSession pb item.raw = some sessionId then none
        else state.dispatchedSessions.lookup sessionId := by
  unfold completedSession
  rcases hdecode : decode pb item.raw with e | message
  · rw [handleIncoming_of_error hdecode] at h
    cases h
  · rw [handleIncoming_of_decode hdecode] at h
    obtain rfl := Except.ok.inj h
    cases message with
    | sessionComplete completedId =>
      show AList.lookup sessionId (AList.erase completedId _) = _
      rw [Dict.lookup_erase_eq_ite]
      simp only [Option.some.injEq, eq_comm]
    | _ => exact (if_neg nofun).symm

/-- A payload assigns the session that it was built in. -/
theorem assignedSession_of_buildPayload (lawful : pb.Lawful) {sourceFile : SourceFile}
    {assignment : ShardAssignment} {payload : Bytes}
    (h : dispatcher.buildPayload pb sessionId sourceFile assignment = .ok payload) :
    assignedSession pb payload = some sessionId := by
  obtain ⟨_, _, _, -, -, -, hencode⟩ := encode_of_buildPayload h
  unfold assignedSession
  rw [decode_encode lawful hencode]
  rfl

/-! ### The invariant -/

/-- What holds of a session that is drawn once and completed only after its dispatch. -/
structure TrackingInv (pb : Protobuf) (sessionId : SessionId) (tr : List CoreEvent) (core : Core) :
    Prop where
  drawn : core.session = some sessionId → .generated sessionId ∈ tr
  handedOver : ∀ senderId event, event ∈ tr → HandsOver pb sessionId senderId event →
    .generated sessionId ∈ tr
  completed : Completed pb sessionId tr →
    core.session ≠ some sessionId ∧ core.shared.dispatchedSessions.lookup sessionId = none

/-- A completed session has been drawn. -/
theorem TrackingInv.generated_of_completed (hinv : TrackingInv pb sessionId tr core)
    (h : Completed pb sessionId tr) : .generated sessionId ∈ tr := by
  obtain ⟨pre, senderId, raw, post, rfl, -, event, hevent, hhands⟩ := h
  exact hinv.handedOver senderId event (List.mem_append_left _ hevent) hhands

/-- One more event hands over no session that has not been drawn. -/
theorem TrackingInv.handedOver_append (hinv : TrackingInv pb sessionId tr core) {event : CoreEvent}
    (hdrawn : ∀ senderId, HandsOver pb sessionId senderId event → .generated sessionId ∈ tr)
    (senderId : SenderId) (event' : CoreEvent) (hmem : event' ∈ tr ++ [event])
    (hhands : HandsOver pb sessionId senderId event') : .generated sessionId ∈ tr ++ [event] := by
  rcases List.mem_append.mp hmem with hmem | hmem
  · exact List.mem_append_left _ (hinv.handedOver senderId event' hmem hhands)
  · obtain rfl := List.mem_singleton.mp hmem
    exact List.mem_append_left _ (hdrawn senderId hhands)

/-- A step that draws no id, hands nothing over, completes nothing and tracks nothing. -/
theorem TrackingInv.append (hinv : TrackingInv pb sessionId tr core) {es : List CoreEvent}
    (hes : es = [] ∨ ∃ event, es = [event] ∧ (∀ senderId, ¬ HandsOver pb sessionId senderId event) ∧
      ∀ senderId raw, event ≠ .handled senderId raw)
    (hsession : core'.session = some sessionId → core.session = some sessionId)
    (htable : core'.shared.dispatchedSessions = core.shared.dispatchedSessions) :
    TrackingInv pb sessionId (tr ++ es) core' := by
  have hover (h : Completed pb sessionId tr) : core'.session ≠ some sessionId ∧
      core'.shared.dispatchedSessions.lookup sessionId = none := by
    obtain ⟨hover, hlookup⟩ := hinv.completed h
    rw [htable]
    exact ⟨fun h => hover (hsession h), hlookup⟩
  rcases hes with rfl | ⟨event, rfl, hhands, hnot⟩
  · rw [List.append_nil]
    exact ⟨fun h => hinv.drawn (hsession h), hinv.handedOver, hover⟩
  · refine ⟨fun h => ?_, ?_, fun h => hover (h.of_append_singleton hnot)⟩
    · exact List.mem_append_left _ (hinv.drawn (hsession h))
    · exact hinv.handedOver_append fun senderId h => absurd h (hhands senderId)

theorem TrackingInv.step (lawful : pb.Lawful) (hinv : TrackingInv pb sessionId tr core)
    {action : CoreAction} {es : List CoreEvent}
    (hpoint : PipelinePoint pb dispatcher core.pipeline)
    (step : CoreStep pb dispatcher core action es core') (honce : DrawnOnce sessionId tr action)
    (hafter : CompletedAfterDispatch pb sessionId tr core action) :
    TrackingInv pb sessionId (tr ++ es) core' := by
  have hquiet {event : CoreEvent} (hhands : ∀ senderId, ¬ HandsOver pb sessionId senderId event)
      (hnot : ∀ senderId raw, event ≠ .handled senderId raw) : [event] = [] ∨ ∃ event',
        [event] = [event'] ∧ (∀ senderId, ¬ HandsOver pb sessionId senderId event') ∧
          ∀ senderId raw, event' ≠ .handled senderId raw := .inr ⟨event, rfl, hhands, hnot⟩
  have hsame {rest} {sessionId' : Option SessionId}
      (hpipeline : core.pipeline = .dispatching rest sessionId') : core.session = sessionId' := by
    unfold Core.session
    rw [hpipeline]
  cases step with
  | tick => exact hinv.append (.inl rfl) id rfl
  | @handled senderId raw shared running effect =>
    refine ⟨fun h => ?_, hinv.handedOver_append fun _ h => h.elim, fun h => ?_⟩
    · exact List.mem_append_left _ (hinv.drawn h)
    · show core.session ≠ _ ∧ shared.dispatchedSessions.lookup sessionId = none
      rw [lookup_dispatchedSessions_of_handleIncoming effect]
      rcases completed_append_singleton.mp h with h | ⟨senderId', raw', heq, hcompletes⟩
      · obtain ⟨hover, hlookup⟩ := hinv.completed h
        exact ⟨hover, by rw [hlookup, ite_self]⟩
      · obtain ⟨rfl, rfl⟩ := CoreEvent.handled.inj heq
        exact ⟨hafter hcompletes, if_pos hcompletes.1⟩
  | loopRaised => exact hinv.append (hquiet nofun nofun) id rfl
  | detected => exact hinv.append (hquiet nofun nofun) nofun rfl
  | returned => exact hinv.append (hquiet nofun nofun) nofun rfl
  | raised => exact hinv.append (hquiet nofun nofun) nofun rfl
  | stat hpipeline => exact hinv.append (hquiet nofun nofun) (hsame hpipeline).trans rfl
  | hash hpipeline => exact hinv.append (hquiet nofun nofun) (hsame hpipeline).trans rfl
  | snapshot hpipeline => exact hinv.append (hquiet nofun nofun) (hsame hpipeline).trans rfl
  | @generate rest sessionId' newId hpipeline =>
    refine ⟨fun h => ?_, hinv.handedOver_append fun _ h => h.elim, fun h => ?_⟩
    · obtain rfl : newId = sessionId := Option.some.inj h
      exact List.mem_append_right _ List.mem_cons_self
    · have hcompleted := h.of_append_singleton nofun
      -- a completed session has been drawn, and is not drawn again
      have hdrawn := hinv.generated_of_completed hcompleted
      refine ⟨fun hsession => ?_, (hinv.completed hcompleted).2⟩
      exact honce (Option.some.inj hsession) hdrawn
  | @send senderId payload rest sessionId' outcome hpipeline =>
    obtain ⟨path, size, hash, hpoint⟩ := hpoint _ _ hpipeline
    obtain ⟨⟨_, _, currentId, _, -, -, rfl, hbuild, -⟩, -⟩ := hpoint.ask_send
    refine ⟨fun h => ?_, hinv.handedOver_append fun senderId' hhands => ?_, fun h => ?_⟩
    · exact List.mem_append_left _ (hinv.drawn ((hsame hpipeline).trans h))
    · -- the payload handed over is one of the current session
      have hassigned := assignedSession_of_buildPayload lawful hbuild
      have hcurrent : some currentId = some sessionId := hassigned.symm.trans hhands.2.2
      exact hinv.drawn ((hsame hpipeline).trans hcurrent)
    · obtain ⟨hover, hlookup⟩ := hinv.completed (h.of_append_singleton nofun)
      exact ⟨fun h => hover ((hsame hpipeline).trans h), hlookup⟩
  | remove hpipeline => exact hinv.append (hquiet nofun nofun) (hsame hpipeline).trans rfl
  | sleep hpipeline => exact hinv.append (.inl rfl) (hsame hpipeline).trans rfl
  | log hpipeline => exact hinv.append (.inl rfl) (hsame hpipeline).trans rfl
  | @track trackedId senderIds rest sessionId' hpipeline =>
    obtain ⟨path, size, hash, hpoint⟩ := hpoint _ _ hpipeline
    obtain ⟨rfl, -⟩ := hpoint.ask_trackSession
    refine ⟨fun h => ?_, hinv.handedOver_append fun _ h => h.elim, fun h => ?_⟩
    · exact List.mem_append_left _ (hinv.drawn ((hsame hpipeline).trans h))
    · obtain ⟨hover, hlookup⟩ := hinv.completed (h.of_append_singleton nofun)
      -- the session tracked is the current one, which is not completed
      rw [hsame hpipeline] at hover
      refine ⟨hover, ?_⟩
      show (AList.insert trackedId senderIds core.shared.dispatchedSessions :
        DispatchedSessions).lookup sessionId = none
      rw [Dict.lookup_insert_eq_ite, if_neg fun h => hover (congrArg some h.symm), hlookup]

theorem TrackingInv.initial : TrackingInv pb sessionId [] Core.initial where
  drawn h := nomatch h
  handedOver _ _ h := nomatch h
  completed := by
    rintro ⟨pre, senderId, raw, post, htr, -⟩
    simp at htr

/-- **A completed session is not tracked**, when its id is drawn once and no `SessionComplete` for it is
processed before its dispatch is over: not in the state after the message, nor in any later one. -/
theorem completed_session_is_untracked (lawful : pb.Lawful)
    (run : (Core.machine pb dispatcher).RunsUnder
      (fun tr core action =>
        DrawnOnce sessionId tr action ∧ CompletedAfterDispatch pb sessionId tr core action) tr core)
    (hcompleted : Completed pb sessionId tr) : sessionId ∉ core.shared.dispatchedSessions := by
  have hinv : TrackingInv pb sessionId tr core := by
    refine run.invariant .initial fun tr core action core' es hrun hinv hmeets hstep => ?_
    exact hinv.step lawful (pipelinePoint_of_runs hrun) (coreStep_of_step hstep) hmeets.1 hmeets.2
  exact AList.lookup_eq_none.mp (hinv.completed hcompleted).2

end

/-! ### Two runs -/

def trackingComplete : Bytes := [0x22, 1]

def trackingProtobuf : Protobuf :=
  .ofTable [(.assignSession (tenBlocksMessage 0), [0x32, 0]),
    (.assignSession (tenBlocksMessage 1), [0x32, 1]), (.heartbeat, heartbeatBytes),
    (.sessionComplete "00000000000000aa", trackingComplete)]

theorem trackingProtobuf_lawful : trackingProtobuf.Lawful := Protobuf.ofTable_lawful (by decide)

/-- A dispatch to two senders, up to the full queue of the second one. -/
def trackingActions : List CoreAction :=
  [.incoming 3 heartbeatBytes, .incoming 7 heartbeatBytes, .detect tenBlocksFile.path,
    .statEnds (.ok 10), .hashEnds (.ok tenBlocksFile.fileHash), .resume,
    .generate "00000000000000aa", .sendEnds .accepted, .resume, .sendEnds .queueFull, .resume]

/-- The rest of the dispatch: the delay, the second attempt, and the end. -/
def retryActions : List CoreAction :=
  [.tick dispatchRetryDelaySeconds, .resume, .sendEnds .accepted, .resume, .resume, .resume]

def trackingTrace : List CoreEvent :=
  [.handled 3 heartbeatBytes, .handled 7 heartbeatBytes, .detected tenBlocksFile.path,
    .statEnded tenBlocksFile.path (.ok 10), .hashEnded tenBlocksFile.path (.ok tenBlocksFile.fileHash),
    .activeSenders [3, 7], .generated "00000000000000aa", .sendEnded 3 [0x32, 0] .accepted,
    .sendEnded 7 [0x32, 1] .queueFull]

def retryTrace : List CoreEvent :=
  [.sendEnded 7 [0x32, 1] .accepted, .tracked "00000000000000aa" [3, 7],
    .returned (some "00000000000000aa")]

/-- Sender `3` completes its shard after the dispatch has returned. -/
theorem completed_session_is_untracked_after_return :
    ∃ core, (Core.machine trackingProtobuf tenBlocksDispatcher).Runs
        (trackingTrace ++ retryTrace ++ [.handled 3 trackingComplete]) core ∧
      "00000000000000aa" ∉ core.shared.dispatchedSessions := by
  obtain ⟨core, run, -⟩ := EventMachine.exists_runsUnder_of_map_eq
    (show ((Core.machine trackingProtobuf tenBlocksDispatcher).runUnder
        (fun tr core action => DrawnOnce "00000000000000aa" tr action ∧
          CompletedAfterDispatch trackingProtobuf "00000000000000aa" tr core action) []
        (Core.machine trackingProtobuf tenBlocksDispatcher).init
        (trackingActions ++ retryActions ++ [.incoming 3 trackingComplete])).map Prod.fst
      = some (trackingTrace ++ retryTrace ++ [.handled 3 trackingComplete]) by decide +kernel)
  refine ⟨core, run.runs, completed_session_is_untracked trackingProtobuf_lawful run ?_⟩
  exact ⟨trackingTrace ++ retryTrace, 3, trackingComplete, [], rfl, by decide +kernel⟩

/-- Sender `3` completes its shard during the retry delay for sender `7`. -/
theorem completed_session_leaks :
    trackingProtobuf.Lawful ∧
    ∃ core, (Core.machine trackingProtobuf tenBlocksDispatcher).RunsUnder
        (fun tr _ action => DrawnOnce "00000000000000aa" tr action)
        (trackingTrace ++ .handled 3 trackingComplete :: retryTrace) core ∧
      Completed trackingProtobuf "00000000000000aa"
        (trackingTrace ++ .handled 3 trackingComplete :: retryTrace) ∧
      .returned (some "00000000000000aa") ∈
        trackingTrace ++ .handled 3 trackingComplete :: retryTrace ∧
      "00000000000000aa" ∈ core.shared.dispatchedSessions := by
  refine ⟨trackingProtobuf_lawful, ?_⟩
  obtain ⟨core, run, hexec⟩ := EventMachine.exists_runsUnder_of_map_eq
    (show ((Core.machine trackingProtobuf tenBlocksDispatcher).runUnder
        (fun tr _ action => DrawnOnce "00000000000000aa" tr action) []
        (Core.machine trackingProtobuf tenBlocksDispatcher).init
        (trackingActions ++ .incoming 3 trackingComplete :: retryActions)).map Prod.fst
      = some (trackingTrace ++ .handled 3 trackingComplete :: retryTrace) by decide +kernel)
  have htracked : ((Core.machine trackingProtobuf tenBlocksDispatcher).runUnder
        (fun tr _ action => DrawnOnce "00000000000000aa" tr action) []
        (Core.machine trackingProtobuf tenBlocksDispatcher).init
        (trackingActions ++ .incoming 3 trackingComplete :: retryActions)).map
      (fun result => decide ("00000000000000aa" ∈ result.2.shared.dispatchedSessions))
      = some true := by decide +kernel
  rw [hexec, Option.map_some, Option.some.injEq, decide_eq_true_iff] at htracked
  exact ⟨core, run, ⟨trackingTrace, 3, trackingComplete, retryTrace, rfl, by decide +kernel⟩,
    by decide, htracked⟩

end FileMonitor
