import FileMonitor.Main.Equiv.Tracking

/-!
# The payloads of a session

What a session is about, its file and the senders it is shared among, is settled when its id is drawn, and
the dispatch that has drawn it is the only one that sends payloads with it (`SessionInv`).

* `payloads_of_a_session_agree`: so all payloads ever sent with one session id describe the same file in the
  same way, and differ only in the place and the port of the sender.
-/

namespace FileMonitor

open Coroutine DispatchEffect

/-! ### One session -/

/-- The payload was built for this sender of a session about `sourceFile` shared among `senderIds`. -/
def BuiltFor (pb : Protobuf) (dispatcher : SessionDispatcher) (sessionId : SessionId)
    (sourceFile : SourceFile) (senderIds : List SenderId) (senderId : SenderId) (payload : Bytes) : Prop :=
  senderIds.Nodup ∧ ∃ (totalBlocks : ℤ) (i : ℕ), senderIds[i]? = some senderId ∧
    dispatcher.buildPayload pb sessionId sourceFile
      (shardAssignment totalBlocks dispatcher.basePort senderIds.length senderId i) = .ok payload

/-- What the dispatch of the session does: it sends payloads built for its senders. -/
def SendsFor (pb : Protobuf) (dispatcher : SessionDispatcher) (sessionId : SessionId)
    (sourceFile : SourceFile) (senderIds : List SenderId) : DispatchEffect → Prop
  | .send senderId payload => BuiltFor pb dispatcher sessionId sourceFile senderIds senderId payload
  | _ => True

section

variable {pb : Protobuf} {dispatcher : SessionDispatcher} {sessionId : SessionId} {sourceFile : SourceFile}
  {senderIds : List SenderId} {core core' : Core} {action : CoreAction} {tr es : List CoreEvent}

theorem dispatchSession_sendsFor :
    (dispatcher.dispatchSession pb sourceFile senderIds sessionId).Uses
      (SendsFor pb dispatcher sessionId sourceFile senderIds) := by
  refine dispatchSession_uses ⟨fun _ => trivial, fun _ => trivial, fun _ => trivial⟩ ?_ fun _ => trivial
  intro totalBlocks assignments hderive assignment hmem payload hbuild
  obtain ⟨hne, hnodup, htotal, hport⟩ := deriveShardAssignments_isOk_iff.mp ⟨assignments, hderive⟩
  rw [deriveShardAssignments_eq_ok hne hnodup htotal hport] at hderive
  obtain rfl := Except.ok.inj hderive
  obtain ⟨i, senderId, hi, rfl⟩ := mem_shardAssignments.mp hmem
  exact ⟨hnodup, totalBlocks, i, hi, hbuild⟩

/-- **Two payloads of a session** differ only in the place and the port of the sender. -/
theorem agree_of_builtFor (lawful : pb.Lawful) {senderId senderId' : SenderId} {payload payload' : Bytes}
    {assignSession assignSession' : AssignSession}
    (hbuilt : BuiltFor pb dispatcher sessionId sourceFile senderIds senderId payload)
    (hbuilt' : BuiltFor pb dispatcher sessionId sourceFile senderIds senderId' payload')
    (hdecode : decode pb payload = .ok (.assignSession assignSession))
    (hdecode' : decode pb payload' = .ok (.assignSession assignSession')) :
    assignSession' =
      { assignSession with
        manifest := { assignSession.manifest with senderId := assignSession'.manifest.senderId }
        targetPort := assignSession'.targetPort } ∧
    (assignSession.manifest.senderId = assignSession'.manifest.senderId ↔ senderId = senderId') ∧
    (assignSession.targetPort = assignSession'.targetPort ↔ senderId = senderId') := by
  obtain ⟨hnodup, totalBlocks, i, hi, hbuild⟩ := hbuilt
  obtain ⟨-, totalBlocks', i', hi', hbuild'⟩ := hbuilt'
  obtain ⟨fileHashBytes, filepath, blocks, hhash, hpath, hblocks, hencode⟩ := encode_of_buildPayload hbuild
  obtain ⟨fileHashBytes', filepath', blocks', hhash', hpath', hblocks', hencode'⟩ :=
    encode_of_buildPayload hbuild'
  obtain rfl := Except.ok.inj (hhash.symm.trans hhash')
  obtain rfl := Except.ok.inj (hpath.symm.trans hpath')
  obtain rfl := Except.ok.inj (hblocks.symm.trans hblocks')
  obtain rfl := Message.assignSession.inj (Except.ok.inj (hdecode.symm.trans (decode_encode lawful hencode)))
  obtain rfl :=
    Message.assignSession.inj (Except.ok.inj (hdecode'.symm.trans (decode_encode lawful hencode')))
  -- no sender has two places, and no place two senders
  have hplace : i = i' ↔ senderId = senderId' := by
    obtain ⟨hlt, hget⟩ := List.getElem?_eq_some_iff.mp hi
    obtain ⟨hlt', hget'⟩ := List.getElem?_eq_some_iff.mp hi'
    rw [← hget, ← hget']
    exact hnodup.getElem_inj_iff.symm
  refine ⟨rfl, ?_, ?_⟩
  · rw [← hplace]
    exact Nat.cast_inj
  · rw [← hplace]
    exact (Int.add_right_inj _).trans Nat.cast_inj

/-! ### A run -/

/-- Every payload sent with the session id was built for one of the senders of the session, and a dispatch
that has the id sends nothing else. -/
structure SessionInv (pb : Protobuf) (dispatcher : SessionDispatcher) (sessionId : SessionId)
    (sourceFile : SourceFile) (senderIds : List SenderId) (tr : List CoreEvent) (core : Core) : Prop where
  sent : ∀ senderId payload outcome, .sendEnded senderId payload outcome ∈ tr →
    assignedSession pb payload = some sessionId →
    BuiltFor pb dispatcher sessionId sourceFile senderIds senderId payload
  current : ∀ rest, core.pipeline = .dispatching rest (some sessionId) →
    rest.Uses (SendsFor pb dispatcher sessionId sourceFile senderIds)

/-- The id has not been drawn, and nothing was sent with it. -/
structure Undrawn (pb : Protobuf) (sessionId : SessionId) (tr : List CoreEvent) (core : Core) : Prop where
  notGenerated : .generated sessionId ∉ tr
  notSent : ∀ senderId payload outcome, .sendEnded senderId payload outcome ∈ tr →
    assignedSession pb payload ≠ some sessionId
  notCurrent : core.session ≠ some sessionId

/-- What a step does to the dispatch of a session whose id it does not draw. -/
theorem CoreStep.session_of_ne (step : CoreStep pb dispatcher core action es core')
    (hne : .generated sessionId ∉ es) {rest' : DispatchCoroutine (Option SessionId)}
    (hpipeline' : core'.pipeline = .dispatching rest' (some sessionId)) :
    ∃ rest, core.pipeline = .dispatching rest (some sessionId) ∧
      ∀ P : DispatchEffect → Prop, rest.Uses P → rest'.Uses P := by
  have hask {effect : DispatchEffect} {rest : effect.Answer → DispatchCoroutine (Option SessionId)}
      {current : Option SessionId} {answer : effect.Answer}
      (hpipeline : core.pipeline = .dispatching (.ask effect rest) current)
      (hpipeline' : Pipeline.dispatching (rest answer) current = .dispatching rest' (some sessionId)) :
      ∃ rest, core.pipeline = .dispatching rest (some sessionId) ∧
        ∀ P : DispatchEffect → Prop, rest.Uses P → rest'.Uses P := by
    obtain ⟨rfl, rfl⟩ := Pipeline.dispatching.inj hpipeline'
    exact ⟨_, hpipeline, fun P huses => huses.2 answer⟩
  cases step with
  | tick => exact ⟨rest', hpipeline', fun _ h => h⟩
  | handled => exact ⟨rest', hpipeline', fun _ h => h⟩
  | loopRaised => exact ⟨rest', hpipeline', fun _ h => h⟩
  | detected => cases (Pipeline.dispatching.inj hpipeline').2
  | returned => cases hpipeline'
  | raised => cases hpipeline'
  | stat hpipeline => exact hask hpipeline hpipeline'
  | hash hpipeline => exact hask hpipeline hpipeline'
  | snapshot hpipeline => exact hask hpipeline hpipeline'
  | generate hpipeline =>
    obtain ⟨-, hid⟩ := Pipeline.dispatching.inj hpipeline'
    obtain rfl := Option.some.inj hid
    exact absurd List.mem_cons_self hne
  | send hpipeline => exact hask hpipeline hpipeline'
  | remove hpipeline => exact hask hpipeline hpipeline'
  | sleep hpipeline => exact hask hpipeline hpipeline'
  | log hpipeline => exact hask hpipeline hpipeline'
  | track hpipeline => exact hask hpipeline hpipeline'

/-- A payload that a step sends is one of the dispatch under way, with the session id of that. -/
theorem CoreStep.asks_of_sendEnded (lawful : pb.Lawful) (step : CoreStep pb dispatcher core action es core')
    (hpoint : PipelinePoint pb dispatcher core.pipeline) {senderId : SenderId} {payload : Bytes}
    {outcome : SendOutcome} (hmem : .sendEnded senderId payload outcome ∈ es) :
    ∃ rest, core.pipeline
      = .dispatching (.ask (.send senderId payload) rest) (assignedSession pb payload) := by
  cases step with
  | @send _ _ rest current _ hpipeline =>
    obtain ⟨rfl, rfl, rfl⟩ := CoreEvent.sendEnded.inj (List.mem_singleton.mp hmem)
    obtain ⟨path, size, hash, hp⟩ := hpoint _ _ hpipeline
    obtain ⟨⟨_, _, currentId, _, -, -, rfl, hbuild, -⟩, -⟩ := hp.ask_send
    rw [assignedSession_of_buildPayload lawful hbuild]
    exact ⟨rest, hpipeline⟩
  | _ => simp at hmem

theorem SessionInv.step (hinv : SessionInv pb dispatcher sessionId sourceFile senderIds tr core)
    (lawful : pb.Lawful) (hpoint : PipelinePoint pb dispatcher core.pipeline)
    (step : CoreStep pb dispatcher core action es core') (hne : .generated sessionId ∉ es) :
    SessionInv pb dispatcher sessionId sourceFile senderIds (tr ++ es) core' where
  sent senderId payload outcome hmem hassigned := by
    rcases List.mem_append.mp hmem with hmem | hmem
    · exact hinv.sent senderId payload outcome hmem hassigned
    · obtain ⟨rest, hpipeline⟩ := step.asks_of_sendEnded lawful hpoint hmem
      rw [hassigned] at hpipeline
      exact (hinv.current _ hpipeline).1
  current rest' hpipeline' := by
    obtain ⟨rest, hpipeline, huses⟩ := step.session_of_ne hne hpipeline'
    exact huses _ (hinv.current rest hpipeline)

theorem Undrawn.step (hundrawn : Undrawn pb sessionId tr core) (lawful : pb.Lawful)
    (hpoint : PipelinePoint pb dispatcher core.pipeline)
    (step : CoreStep pb dispatcher core action es core') (hne : .generated sessionId ∉ es) :
    Undrawn pb sessionId (tr ++ es) core' where
  notGenerated hmem := (List.mem_append.mp hmem).elim hundrawn.notGenerated hne
  notSent senderId payload outcome hmem hassigned := by
    rcases List.mem_append.mp hmem with hmem | hmem
    · exact hundrawn.notSent senderId payload outcome hmem hassigned
    · obtain ⟨rest, hpipeline⟩ := step.asks_of_sendEnded lawful hpoint hmem
      apply hundrawn.notCurrent
      rw [Core.session, hpipeline, hassigned]
  notCurrent hsession := by
    unfold Core.session at hsession
    split at hsession
    · cases hsession
    · rename_i rest' current hpipeline'
      subst hsession
      obtain ⟨rest, hpipeline, -⟩ := step.session_of_ne hne hpipeline'
      apply hundrawn.notCurrent
      rw [Core.session, hpipeline]

/-- **The session is settled when its id is drawn.** -/
theorem Undrawn.drawn (hundrawn : Undrawn pb sessionId tr core)
    (hpoint : PipelinePoint pb dispatcher core.pipeline)
    (step : CoreStep pb dispatcher core action es core') (hmem : .generated sessionId ∈ es) :
    ∃ sourceFile senderIds, SessionInv pb dispatcher sessionId sourceFile senderIds (tr ++ es) core' := by
  cases step with
  | @generate _ current newId hpipeline =>
    obtain rfl := CoreEvent.generated.inj (List.mem_singleton.mp hmem)
    obtain ⟨path, size, hash, hp⟩ := hpoint _ _ hpipeline
    cases hp with
    | counted size hash senderIds =>
      refine ⟨⟨path, size, hash⟩, senderIds, fun senderId payload outcome hmem hassigned => ?_,
        fun rest' hpipeline' => ?_⟩
      · have hold := (List.mem_append.mp hmem).resolve_right (by simp)
        exact absurd hassigned (hundrawn.notSent senderId payload outcome hold)
      · obtain ⟨rfl, -⟩ := Pipeline.dispatching.inj hpipeline'
        exact dispatchSession_sendsFor
    | drawn _ _ _ huses => exact huses.1.elim
    | ended _ _ huses => exact huses.1.elim
  | _ => simp at hmem

/-- Drawn or not: where it is drawn once. -/
theorem undrawn_or_sessionInv (lawful : pb.Lawful)
    (run : (Core.machine pb dispatcher).RunsUnder
      (fun tr _ action => DrawnOnce sessionId tr action) tr core) :
    Undrawn pb sessionId tr core ∨
      .generated sessionId ∈ tr ∧
        ∃ sourceFile senderIds, SessionInv pb dispatcher sessionId sourceFile senderIds tr core := by
  refine run.invariant (I := fun tr core => Undrawn pb sessionId tr core ∨ .generated sessionId ∈ tr ∧
    ∃ sourceFile senderIds, SessionInv pb dispatcher sessionId sourceFile senderIds tr core)
    (.inl ⟨List.not_mem_nil, fun _ _ _ h => (List.not_mem_nil h).elim, fun h => by cases h⟩)
    fun tr core action core' es hrun hinv honce hstep => ?_
  have hpoint := pipelinePoint_of_runs hrun
  have step := coreStep_of_step hstep
  by_cases hmem : .generated sessionId ∈ es
  · -- it is drawn in this step, so it was not before
    have hundrawn : Undrawn pb sessionId tr core := by
      refine hinv.resolve_right fun h => ?_
      cases step with
      | generate => exact honce (CoreEvent.generated.inj (List.mem_singleton.mp hmem)).symm h.1
      | _ => simp at hmem
    exact .inr ⟨List.mem_append_right _ hmem, hundrawn.drawn hpoint step hmem⟩
  · rcases hinv with hundrawn | ⟨hdrawn, sourceFile, senderIds, hinv⟩
    · exact .inl (hundrawn.step lawful hpoint step hmem)
    · exact .inr ⟨List.mem_append_left _ hdrawn, sourceFile, senderIds, hinv.step lawful hpoint step hmem⟩

/-- **The payloads of a session agree.**  In every run that draws the session id at most once, any two
payloads that a dispatch has tried to send with it agree in everything but the place and the port of their
sender, and those are the same only for the same sender. -/
theorem payloads_of_a_session_agree (lawful : pb.Lawful)
    (run : (Core.machine pb dispatcher).RunsUnder
      (fun tr _ action => DrawnOnce sessionId tr action) tr core)
    {senderId senderId' : SenderId} {payload payload' : Bytes} {outcome outcome' : SendOutcome}
    {assignSession assignSession' : AssignSession}
    (hsent : .sendEnded senderId payload outcome ∈ tr)
    (hsent' : .sendEnded senderId' payload' outcome' ∈ tr)
    (hdecode : decode pb payload = .ok (.assignSession assignSession))
    (hdecode' : decode pb payload' = .ok (.assignSession assignSession'))
    (hsession : assignSession.manifest.sessionId = sessionId)
    (hsession' : assignSession'.manifest.sessionId = sessionId) :
    assignSession' =
      { assignSession with
        manifest := { assignSession.manifest with senderId := assignSession'.manifest.senderId }
        targetPort := assignSession'.targetPort } ∧
    (assignSession.manifest.senderId = assignSession'.manifest.senderId ↔ senderId = senderId') ∧
    (assignSession.targetPort = assignSession'.targetPort ↔ senderId = senderId') := by
  have hassigned : assignedSession pb payload = some sessionId := by
    rw [assignedSession, hdecode, ← hsession]
  have hassigned' : assignedSession pb payload' = some sessionId := by
    rw [assignedSession, hdecode', ← hsession']
  rcases undrawn_or_sessionInv lawful run with hundrawn | ⟨-, sourceFile, senderIds, hinv⟩
  · exact absurd hassigned (hundrawn.notSent _ _ _ hsent)
  · exact agree_of_builtFor lawful (hinv.sent _ _ _ hsent hassigned) (hinv.sent _ _ _ hsent' hassigned')
      hdecode hdecode'

end

/-- The payloads of one dispatch to the senders `3` and `7`. -/
theorem payloads_of_a_session_agree_retried :
    ∃ core, (Core.machine trackingProtobuf tenBlocksDispatcher).Runs (trackingTrace ++ retryTrace) core ∧
      (tenBlocksMessage 1 =
        { tenBlocksMessage 0 with
          manifest := { (tenBlocksMessage 0).manifest with
            senderId := (tenBlocksMessage 1).manifest.senderId }
          targetPort := (tenBlocksMessage 1).targetPort }) ∧
      ((tenBlocksMessage 0).targetPort = (tenBlocksMessage 1).targetPort ↔ (3 : SenderId) = 7) := by
  obtain ⟨core, run, -⟩ := EventMachine.exists_runsUnder_of_map_eq
    (show ((Core.machine trackingProtobuf tenBlocksDispatcher).runUnder
        (fun tr _ action => DrawnOnce "00000000000000aa" tr action) []
        (Core.machine trackingProtobuf tenBlocksDispatcher).init
        (trackingActions ++ retryActions)).map Prod.fst
      = some (trackingTrace ++ retryTrace) by decide +kernel)
  have hsent : CoreEvent.sendEnded 3 [0x32, 0] .accepted ∈ trackingTrace ++ retryTrace := by decide
  have hsent' : CoreEvent.sendEnded 7 [0x32, 1] .accepted ∈ trackingTrace ++ retryTrace := by decide
  have hdecode : decode trackingProtobuf [0x32, 0] = .ok (.assignSession (tenBlocksMessage 0)) := by
    decide +kernel
  have hdecode' : decode trackingProtobuf [0x32, 1] = .ok (.assignSession (tenBlocksMessage 1)) := by
    decide +kernel
  obtain ⟨hagree, -, hport⟩ :=
    payloads_of_a_session_agree trackingProtobuf_lawful run hsent hsent' hdecode hdecode' rfl rfl
  exact ⟨core, run.runs, hagree, hport⟩

end FileMonitor
