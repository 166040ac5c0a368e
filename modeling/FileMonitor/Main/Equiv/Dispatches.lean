import FileMonitor.Main.Equiv.Tracking
import FileMonitor.Services.Equiv.Conversation
import FileMonitor.Services.Equiv.Ports

/-!
# Dispatches in a run

In a run of the two loops a dispatch is answered one effect at a time, and between two answers the other
loop may do anything: register a sender, remove one, delete a session.  The trace shows the answers
(`exchangesOf`).

* `dispatch_in_run_is_one_call`: a dispatch of a run ends as one call of `dispatch` does, and has sent and
  tracked the same.
* `returned_dispatch_shares_the_file`: so what one call says about the bytes of a file holds of every
  dispatch that has returned in a run.
-/

namespace FileMonitor

open Coroutine DispatchEffect

/-! ### The conversation in a trace -/

/-- The exchange of a dispatch that an event shows. -/
def CoreEvent.exchange? : CoreEvent → Option DispatchExchange
  | .statEnded path result => some ⟨.stat path, result⟩
  | .hashEnded path result => some ⟨.computeHash path, result⟩
  | .activeSenders senderIds => some ⟨.activeSenders, senderIds⟩
  | .generated sessionId => some ⟨.generateSessionId, sessionId⟩
  | .sendEnded senderId payload outcome => some ⟨.send senderId payload, outcome⟩
  | .removed senderId => some ⟨.removeSender senderId, ()⟩
  | .tracked sessionId senderIds => some ⟨.trackSession sessionId senderIds, ()⟩
  | _ => none

/-- The exchanges of dispatches that a trace shows. -/
def exchangesOf (tr : List CoreEvent) : List DispatchExchange := tr.filterMap CoreEvent.exchange?

/-- The events show this effect. -/
def DispatchEffect.Shown : DispatchEffect → Bool
  | .sleep _ | .log _ => false
  | _ => true

/-- How a dispatch ends with an event. -/
def CoreEvent.outcome? : CoreEvent → Option (Except PyError (Option SessionId))
  | .returned result => some (.ok result)
  | .raised error => some (.error error)
  | _ => none

section

variable {pb : Protobuf} {dispatcher : SessionDispatcher} {core core' : Core} {tr : List CoreEvent}
  {action : CoreAction} {es : List CoreEvent}

/-- **A step in a dispatch**: the other loop does something, or the dispatch is given an answer. -/
theorem CoreStep.exchange (step : CoreStep pb dispatcher core action es core')
    {rest' : DispatchCoroutine (Option SessionId)} {sessionId' : Option SessionId}
    (hpipeline' : core'.pipeline = .dispatching rest' sessionId') :
    (∃ path, es = [.detected path] ∧ rest' = dispatcher.dispatch pb path) ∨
    (∀ path, .detected path ∉ es) ∧
      ((exchangesOf es = [] ∧ ∃ sessionId, core.pipeline = .dispatching rest' sessionId) ∨
      ∃ (effect : DispatchEffect) (resume : effect.Answer → DispatchCoroutine (Option SessionId))
        (sessionId : Option SessionId) (answer : effect.Answer),
        core.pipeline = .dispatching (.ask effect resume) sessionId ∧ rest' = resume answer ∧
        exchangesOf es = [⟨effect, answer⟩].filter (fun x => x.1.Shown) ∧
        ∀ senderIds ∈ snapshotsOf [⟨effect, answer⟩], ∃ registry : SenderRegistry, ∃ now : ℚ,
          (registry.activeSenders now).1 = senderIds) := by
  cases step with
  | tick => exact .inr ⟨nofun, .inl ⟨rfl, sessionId', hpipeline'⟩⟩
  | handled => exact .inr ⟨by simp, .inl ⟨rfl, sessionId', hpipeline'⟩⟩
  | loopRaised => exact .inr ⟨by simp, .inl ⟨rfl, sessionId', hpipeline'⟩⟩
  | @detected path =>
    obtain ⟨rfl, rfl⟩ := Pipeline.dispatching.inj hpipeline'
    exact .inl ⟨path, rfl, rfl⟩
  | returned => cases hpipeline'
  | raised => cases hpipeline'
  | stat hpipeline | hash hpipeline | generate hpipeline | send hpipeline | remove hpipeline
  | track hpipeline =>
    obtain ⟨rfl, rfl⟩ := Pipeline.dispatching.inj hpipeline'
    exact .inr ⟨by simp, .inr ⟨_, _, _, _, hpipeline, rfl, rfl, nofun⟩⟩
  | snapshot hpipeline =>
    obtain ⟨rfl, rfl⟩ := Pipeline.dispatching.inj hpipeline'
    refine .inr ⟨by simp, .inr ⟨_, _, _, _, hpipeline, rfl, rfl, fun senderIds hmem => ?_⟩⟩
    rw [List.mem_singleton.mp hmem]
    exact ⟨_, _, rfl⟩
  | sleep hpipeline | log hpipeline =>
    obtain ⟨rfl, rfl⟩ := Pipeline.dispatching.inj hpipeline'
    exact .inr ⟨nofun, .inr ⟨_, _, _, _, hpipeline, rfl, rfl, nofun⟩⟩

/-- The dispatch under way has been given, since its path was detected, the answers that the trace shows. -/
def Conversing (pb : Protobuf) (dispatcher : SessionDispatcher) (tr : List CoreEvent) (core : Core) :
    Prop :=
  ∀ rest sessionId, core.pipeline = .dispatching rest sessionId →
    ∃ pre path mid xs, tr = pre ++ .detected path :: mid ∧ (∀ path', .detected path' ∉ mid) ∧
      (dispatcher.dispatch pb path).Converses xs rest ∧
      exchangesOf mid = xs.filter (fun x => x.1.Shown) ∧
      ∀ senderIds ∈ snapshotsOf xs, ∃ registry : SenderRegistry, ∃ now : ℚ,
        (registry.activeSenders now).1 = senderIds

theorem Conversing.of_runs {C : List CoreEvent → Core → CoreAction → Prop}
    (runs : (Core.machine pb dispatcher).RunsUnder C tr core) : Conversing pb dispatcher tr core := by
  refine runs.invariant (I := Conversing pb dispatcher) (fun _ _ h => by cases h)
    fun tr core action core' es _ hinv _ hstep rest' sessionId' hpipeline' => ?_
  rcases (coreStep_of_step hstep).exchange hpipeline' with ⟨path, rfl, rfl⟩ |
    ⟨hnone, ⟨hes, sessionId, hpipeline⟩ |
      ⟨effect, resume, sessionId, answer, hpipeline, rfl, hes, hsnapshot⟩⟩
  · exact ⟨tr, path, [], [], rfl, fun _ => List.not_mem_nil, .start, rfl, nofun⟩
  · obtain ⟨pre, path, mid, xs, rfl, hmid, hconv, hshown, hregistry⟩ := hinv rest' sessionId hpipeline
    refine ⟨pre, path, mid ++ es, xs, by simp, fun path' hmem => ?_, hconv, ?_, hregistry⟩
    · exact (List.mem_append.mp hmem).elim (hmid path') (hnone path')
    · rw [exchangesOf, List.filterMap_append]
      exact (congrArg₂ (· ++ ·) hshown hes).trans (List.append_nil _)
  · obtain ⟨pre, path, mid, xs, rfl, hmid, hconv, hshown, hregistry⟩ := hinv _ sessionId hpipeline
    refine ⟨pre, path, mid ++ es, xs ++ [⟨effect, answer⟩], by simp, fun path' hmem => ?_,
      hconv.answered answer, ?_, fun senderIds hmem => ?_⟩
    · exact (List.mem_append.mp hmem).elim (hmid path') (hnone path')
    · rw [exchangesOf, List.filterMap_append, List.filter_append]
      exact congrArg₂ (· ++ ·) hshown hes
    · rw [snapshotsOf, List.filterMap_append] at hmem
      exact (List.mem_append.mp hmem).elim (hregistry senderIds) (hsnapshot senderIds)

/-- What is read off the shown effects alone is read off the trace. -/
theorem filterMap_exchangesOf {β : Type} {f : DispatchExchange → Option β} {xs : List DispatchExchange}
    (h : exchangesOf tr = xs.filter (fun x => x.1.Shown)) (hf : ∀ x, (f x).isSome → x.1.Shown = true) :
    (exchangesOf tr).filterMap f = xs.filterMap f := by
  rw [h, List.filterMap_filter]
  refine List.filterMap_congr fun x _ => ?_
  split_ifs with hshown
  · rfl
  · exact (Option.not_isSome_iff_eq_none.mp fun hsome => hshown (hf x hsome)).symm

/-- The last path detected. -/
theorem split_detected_unique {pre pre' mid mid' : List CoreEvent} {path path' : PosixPath}
    (h : pre ++ .detected path :: mid = pre' ++ .detected path' :: mid')
    (hmid : ∀ path, .detected path ∉ mid) (hmid' : ∀ path, .detected path ∉ mid') :
    path = path' ∧ mid = mid' := by
  rcases List.append_eq_append_iff.mp h with ⟨between, -, hbetween⟩ | ⟨between, -, hbetween⟩
  · rcases between with _ | ⟨event, between⟩
    · obtain ⟨heq, rfl⟩ := List.cons.inj hbetween
      exact ⟨CoreEvent.detected.inj heq, rfl⟩
    · obtain ⟨-, rfl⟩ := List.cons.inj hbetween
      exact absurd (List.mem_append_right _ List.mem_cons_self) (hmid path')
  · rcases between with _ | ⟨event, between⟩
    · obtain ⟨heq, rfl⟩ := List.cons.inj hbetween
      exact ⟨(CoreEvent.detected.inj heq).symm, rfl⟩
    · obtain ⟨-, rfl⟩ := List.cons.inj hbetween
      exact absurd (List.mem_append_right _ List.mem_cons_self) (hmid' path)

/-- The two loops do one thing at a time. -/
theorem CoreStep.eq_singleton (step : CoreStep pb dispatcher core action es core') {event : CoreEvent}
    (hmem : event ∈ es) : es = [event] := by
  cases step with
  | tick => cases hmem
  | sleep => cases hmem
  | log => cases hmem
  | _ => rw [List.mem_singleton.mp hmem]

/-- A dispatch ends where nothing is left of it. -/
theorem CoreStep.of_outcome {ended : CoreEvent} {outcome : Except PyError (Option SessionId)}
    (step : CoreStep pb dispatcher core action [ended] core') (hended : ended.outcome? = some outcome) :
    ∃ sessionId, core.pipeline = .dispatching (ofExcept outcome) sessionId := by
  cases step with
  | returned hpipeline =>
    obtain rfl := Option.some.inj hended
    exact ⟨_, hpipeline⟩
  | raised hpipeline =>
    obtain rfl := Option.some.inj hended
    exact ⟨_, hpipeline⟩
  | _ => cases hended

/-- A dispatch that has ended has had the conversation that the trace shows. -/
theorem converses_of_outcome (runs : (Core.machine pb dispatcher).Runs tr core)
    {pre mid post : List CoreEvent} {path : PosixPath} {ended : CoreEvent}
    {outcome : Except PyError (Option SessionId)}
    (htr : tr = pre ++ .detected path :: (mid ++ ended :: post))
    (hmid : ∀ path', .detected path' ∉ mid) (hended : ended.outcome? = some outcome) :
    ∃ xs, (dispatcher.dispatch pb path).Converses xs (ofExcept outcome) ∧
      exchangesOf mid = xs.filter (fun x => x.1.Shown) ∧
      ∀ senderIds ∈ snapshotsOf xs, ∃ registry : SenderRegistry, ∃ now : ℚ,
        (registry.activeSenders now).1 = senderIds := by
  have hsplit : tr = (pre ++ .detected path :: mid) ++ ended :: post := by
    rw [htr]
    simp
  obtain ⟨core₀, action, core₁, runs₀, -, hstep⟩ := runs.exists_step_of_alone hsplit
    fun _ _ _ _ hstep hmem => (coreStep_of_step hstep).eq_singleton hmem
  obtain ⟨sessionId, hpipeline⟩ := (coreStep_of_step hstep).of_outcome hended
  obtain ⟨pre', path', mid', xs, heq, hmid', hconv, hshown, hregistry⟩ :=
    Conversing.of_runs runs₀ _ _ hpipeline
  obtain ⟨rfl, rfl⟩ := split_detected_unique heq hmid hmid'
  exact ⟨xs, hconv, hshown, hregistry⟩

theorem CoreEvent.shown_of_exchange? {event : CoreEvent} {x : DispatchExchange}
    (h : event.exchange? = some x) : x.1.Shown = true := by
  cases event <;> cases h <;> rfl

theorem CoreEvent.eq_of_exchange? {event event' : CoreEvent} {x : DispatchExchange}
    (h : event.exchange? = some x) (h' : event'.exchange? = some x) : event = event' := by
  cases event <;> cases h <;> cases event' <;> cases h' <;> rfl

/-- An event is in the trace where its exchange is in the conversation. -/
theorem mem_iff_of_exchange? {xs : List DispatchExchange}
    (h : exchangesOf tr = xs.filter (fun x => x.1.Shown)) {event : CoreEvent} {x : DispatchExchange}
    (hx : event.exchange? = some x) : event ∈ tr ↔ x ∈ xs := by
  have hfilter : x ∈ xs ↔ x ∈ exchangesOf tr := by
    rw [h, List.mem_filter]
    exact (and_iff_left (CoreEvent.shown_of_exchange? hx)).symm
  rw [hfilter, exchangesOf, List.mem_filterMap]
  constructor
  · exact fun hmem => ⟨event, hmem, hx⟩
  · rintro ⟨event', hmem, hevent'⟩
    rwa [CoreEvent.eq_of_exchange? hx hevent']

/-- **A dispatch in a run is one call of `dispatch`.**  Whatever the other loop does between its steps, a
dispatch that has ended has done what a call does whose effects are answered one after the other: it ends
in the same way, its payloads that were accepted are those of the call, in their order, and so are the
sessions that it has tracked; the call has the size, the hash and the senders that `stat`, the hasher and
the registry have answered in the run, and the session id that was generated in it. -/
theorem dispatch_in_run_is_one_call (runs : (Core.machine pb dispatcher).Runs tr core)
    {pre mid post : List CoreEvent} {path : PosixPath} {ended : CoreEvent}
    {outcome : Except PyError (Option SessionId)}
    (htr : tr = pre ++ .detected path :: (mid ++ ended :: post))
    (hmid : ∀ path', .detected path' ∉ mid) (hended : ended.outcome? = some outcome) :
    ∃ inputs registry,
      let call := runDispatch pb dispatcher inputs path (.start registry ∅)
      call.1 = outcome ∧
      call.2.accepted = acceptedOf (exchangesOf mid) ∧
      call.2.dispatchedSessions = (trackedOf (exchangesOf mid)).foldl
        (fun sessions entry => sessions.insert entry.1 entry.2) ∅ ∧
      (∀ path' result, .statEnded path' result ∈ mid → path' = path ∧ inputs.stat = result) ∧
      (∀ path' result, .hashEnded path' result ∈ mid → path' = path ∧ inputs.hash = result) ∧
      (∀ senderIds, .activeSenders senderIds ∈ mid → inputs.active registry = senderIds) ∧
      ∀ sessionId, .generated sessionId ∈ mid → inputs.sessionId = sessionId := by
  obtain ⟨xs, hconv, hshown, hregistry⟩ := converses_of_outcome runs htr hmid hended
  obtain ⟨inputs, registry, hagrees, hactive⟩ := exists_inputs hconv hregistry
  have hanswered {event : CoreEvent} {x : DispatchExchange} (hmem : event ∈ mid)
      (hx : event.exchange? = some x) : OfPath path x.1 ∧ ∃ world, (inputs.answer x.1 world).1 = x.2 := by
    have hasked := (mem_iff_of_exchange? hshown hx).mp hmem
    exact ⟨(dispatchStage_of_converses hconv).ofPath x hasked, hagrees.exists_answer_eq hasked⟩
  have hcall : runDispatch pb dispatcher inputs path (.start registry ∅)
      = (outcome, afterExchanges inputs.answer xs (.start registry ∅)) := by
    rw [runDispatch, hconv.run_eq hagrees]
    cases outcome <;> rfl
  refine ⟨inputs, registry, ?_⟩
  dsimp only
  rw [hcall]
  refine ⟨rfl, ?_, ?_, fun path' result hmem => ?_, fun path' result hmem => ?_,
    fun senderIds hmem => hactive senderIds ?_, fun sessionId hmem => ?_⟩
  · rw [accepted_afterExchanges hagrees, acceptedOf, acceptedOf, filterMap_exchangesOf hshown]
    · rfl
    · rintro ⟨effect, answer⟩ h
      cases effect <;> first | rfl | cases h
  · rw [dispatchedSessions_afterExchanges, trackedOf, trackedOf, filterMap_exchangesOf hshown]
    · rfl
    · rintro ⟨effect, answer⟩ h
      cases effect <;> first | rfl | cases h
  · obtain ⟨hpath, _, hanswer⟩ := hanswered hmem rfl
    exact ⟨hpath, hanswer⟩
  · obtain ⟨hpath, _, hanswer⟩ := hanswered hmem rfl
    exact ⟨hpath, hanswer⟩
  · exact List.mem_filterMap.mpr ⟨_, (mem_iff_of_exchange? hshown rfl).mp hmem, rfl⟩
  · obtain ⟨-, _, hanswer⟩ := hanswered hmem rfl
    exact hanswer

/-- A dispatch that has returned has measured its file and asked the registry. -/
theorem exists_measured_of_returned (runs : (Core.machine pb dispatcher).Runs tr core)
    {pre mid post : List CoreEvent} {path : PosixPath} {result : Option SessionId}
    (htr : tr = pre ++ .detected path :: (mid ++ .returned result :: post))
    (hmid : ∀ path', .detected path' ∉ mid) : ∃ (size : ℕ) (hash : String) (senderIds : List SenderId),
      .statEnded path (.ok size) ∈ mid ∧ .hashEnded path (.ok hash) ∈ mid ∧
        .activeSenders senderIds ∈ mid := by
  obtain ⟨xs, hconv, hshown, -⟩ := converses_of_outcome runs htr hmid rfl
  obtain ⟨size, hash, senderIds, ys, rfl⟩ : ∃ size hash senderIds ys,
      xs = measuredExchanges path size hash senderIds ++ ys := by
    cases dispatchStage_of_converses hconv with
    | skipped size hash => exact ⟨size, hash, [], _, rfl⟩
    | drawn size hash => exact ⟨size, hash, _, _, List.append_assoc ..⟩
  refine ⟨size, hash, senderIds, ?_, ?_, ?_⟩
  · exact (mem_iff_of_exchange? hshown rfl).mpr (by simp [measuredExchanges])
  · exact (mem_iff_of_exchange? hshown rfl).mpr (by simp [measuredExchanges])
  · exact (mem_iff_of_exchange? hshown rfl).mpr (by simp [measuredExchanges])

end

/-! ### What a returned dispatch has sent -/

section Returned

variable {pb : Protobuf} {dispatcher : SessionDispatcher} {inputs : DispatchInputs} {path : PosixPath}
  {world world' : DispatchWorld} {result : Option SessionId}

/-- Without active senders nothing is sent. -/
theorem accepted_of_unserved {sourceFile : SourceFile} (hnone : inputs.active world.registry = [])
    (hrun : (dispatcher.dispatchMeasured pb sourceFile).run inputs.answer world = (.ok result, world')) :
    result = none ∧ world'.accepted = world.accepted := by
  obtain ⟨ids, world₁, hids, hrun⟩ := exists_of_run_bind_ok hrun
  obtain ⟨hsenders, rfl⟩ := Prod.mk.inj (run_perform_eq_ok_iff.mp hids)
  obtain rfl : inputs.active world.registry = ids := hsenders
  rw [if_pos hnone] at hrun
  obtain ⟨hresult, rfl⟩ := Prod.mk.inj hrun
  exact ⟨(Except.ok.inj hresult).symm, rfl⟩

/-- With active senders it has built a payload for each. -/
theorem payloads_of_returned {sourceFile : SourceFile} (hactive : inputs.active world.registry ≠ [])
    (hrun : (dispatcher.dispatchMeasured pb sourceFile).run inputs.answer world = (.ok result, world')) :
    ∃ totalBlocks, calculateBlockCount sourceFile.sizeBytes dispatcher.fecParams = .ok totalBlocks ∧
      0 ≤ totalBlocks ∧ 0 < dispatcher.basePort ∧
      ∀ assignment ∈ shardAssignments totalBlocks (inputs.active world.registry) dispatcher.basePort,
        ∃ payload,
          dispatcher.buildPayload pb inputs.sessionId sourceFile assignment = .ok payload := by
  obtain ⟨ids, world₁, hids, hrun⟩ := exists_of_run_bind_ok hrun
  obtain rfl : inputs.active world.registry = ids := (Prod.mk.inj (run_perform_eq_ok_iff.mp hids)).1
  rw [if_neg hactive] at hrun
  obtain ⟨sessionId, world₂, hsessionId, hrun⟩ := exists_of_run_bind_ok hrun
  obtain rfl : inputs.sessionId = sessionId := (Prod.mk.inj (run_perform_eq_ok_iff.mp hsessionId)).1
  obtain ⟨totalBlocks, world₃, hcount, hrun⟩ := exists_of_run_bind_ok hrun
  obtain ⟨succeeded, world₄, hsend, -⟩ := exists_of_run_bind_ok hrun
  have hderived : ∃ assignments, deriveShardAssignments totalBlocks (inputs.active world.registry)
      dispatcher.basePort = .ok assignments := by
    obtain ⟨assignments, _, hassignments, -⟩ := exists_of_run_bind_ok hsend
    exact ⟨assignments, (run_ofExcept_eq_ok_iff.mp hassignments).1⟩
  obtain ⟨-, -, htotal, hport⟩ := deriveShardAssignments_isOk_iff.mp hderived
  refine ⟨totalBlocks, (run_ofExcept_eq_ok_iff.mp hcount).1, htotal, hport, fun assignment hmem => ?_⟩
  obtain ⟨payload, hbuild, -⟩ := send_mem_effects_sendToSenders hsend hmem
  exact ⟨payload, hbuild⟩

/-- **What a delivered payload covers**: the bytes whose block has the place of its sender as residue. -/
theorem covers_of_splits (lawful : pb.Lawful) {sessionId : SessionId} {size : ℕ} {hash : String}
    {totalBlocks : ℤ} {ids : List SenderId} {delivered : List (ShardAssignment × Bytes)}
    {lost : List ShardAssignment} (hids : ids.Nodup) (hblock : 0 < dispatcher.fecParams.blockSize)
    (hcount : calculateBlockCount (SourceFile.mk path size hash).sizeBytes dispatcher.fecParams
      = .ok totalBlocks)
    (hsplits : Splits pb dispatcher sessionId ⟨path, size, hash⟩
      (shardAssignments totalBlocks ids dispatcher.basePort) delivered lost)
    {entry : SenderId × Bytes} (hentry : entry ∈ deliveredPayloads delivered) :
    ∃ assignSession, decode pb entry.2 = .ok (.assignSession assignSession) ∧
      assignSession.manifest.sessionId = sessionId ∧
      assignSession.manifest.fileSize = size ∧
      assignSession.totalSenders = ids.length ∧
      (size ≤ 2 ^ 53 → ∀ o < size, coversByte pb entry.2 o ↔
        ids[(o / dispatcher.fecParams.blockSize % ids.length).toNat]? = some entry.1) := by
  obtain ⟨d, hd, rfl⟩ := List.mem_map.mp hentry
  obtain ⟨i, fileHashBytes, filepath, hi, hassignment, hdecode⟩ :=
    decode_of_splits lawful hcount hsplits hd
  have hmodulus : d.1.shardModulus = ids.length := by
    rw [hassignment]
    rfl
  have hresidue : d.1.shardResidue = i := by
    rw [hassignment]
    rfl
  obtain ⟨hlt, hget⟩ := List.getElem?_eq_some_iff.mp hi
  refine ⟨_, hdecode, rfl, rfl, hmodulus, fun hsize o ho => ?_⟩
  obtain ⟨blockId, hblockId⟩ : ∃ n : ℤ, (o : ℤ) / dispatcher.fecParams.blockSize = n := ⟨_, rfl⟩
  have hexists : blockId < totalBlocks :=
    (mul_blockSize_lt_iff hsize hblock hcount blockId).mpr
      (hblockId ▸ (Int.ediv_mul_le _ hblock.ne').trans_lt (by exact_mod_cast ho))
  have hcovers : coversByte pb d.2 o ↔ blockId % (ids.length : ℤ) = i := by
    simp only [coversByte, hdecode, assignSessionOf, hmodulus, hresidue]
    show ((decide ((o : ℤ) / dispatcher.fecParams.blockSize < totalBlocks) &&
      decide ((o : ℤ) / dispatcher.fecParams.blockSize % (ids.length : ℤ) = i)) = true) ↔ _
    rw [hblockId, decide_eq_true hexists, Bool.true_and, decide_eq_true_iff]
  have hpos : (0 : ℤ) < ids.length := by omega
  have hnonneg := Int.emod_nonneg blockId hpos.ne'
  have hbound := Int.emod_lt_of_pos blockId hpos
  rw [hcovers, hblockId]
  constructor
  · intro heq
    rw [heq, Int.toNat_natCast]
    exact hi
  · -- no sender has two places
    intro heq
    obtain ⟨hlt', hget'⟩ := List.getElem?_eq_some_iff.mp heq
    have hplace := (hids.getElem_inj_iff).mp (hget'.trans hget.symm)
    omega

/-- **A dispatch that has returned has shared its file.**  No sender has accepted two payloads, and only
senders that the registry has answered have accepted one.  Where no payload was accepted the result is
none; else it is the session of all of them, they have the size that `stat` has answered, and of each byte
of the file the payload of one place covers it: that of the sender whose place is the residue of its
block. -/
theorem returned_dispatch_shares_the_file (lawful : pb.Lawful) (hk : 1 ≤ dispatcher.fecParams.k)
    (hsymbol : 1 ≤ dispatcher.fecParams.symbolBytes) {tr : List CoreEvent} {core : Core}
    (runs : (Core.machine pb dispatcher).Runs tr core) {pre mid post : List CoreEvent}
    (htr : tr = pre ++ .detected path :: (mid ++ .returned result :: post))
    (hmid : ∀ path', .detected path' ∉ mid) :
    ∃ (senderIds : List SenderId) (size : ℕ),
      .activeSenders senderIds ∈ mid ∧ .statEnded path (.ok size) ∈ mid ∧
      let accepted := acceptedOf (exchangesOf mid)
      (accepted.map Prod.fst).Nodup ∧ (∀ entry ∈ accepted, entry.1 ∈ senderIds) ∧
      ((accepted = [] ∧ result = none) ∨
        ∃ sessionId : SessionId, accepted ≠ [] ∧ result = some sessionId ∧
          ∀ entry ∈ accepted, ∃ assignSession,
            decode pb entry.2 = .ok (.assignSession assignSession) ∧
            assignSession.manifest.sessionId = sessionId ∧
            assignSession.manifest.fileSize = size ∧
            assignSession.totalSenders = senderIds.length ∧
            (size ≤ 2 ^ 53 → ∀ o < size, coversByte pb entry.2 o ↔
              senderIds[(o / dispatcher.fecParams.blockSize % senderIds.length).toNat]?
                = some entry.1)) := by
  obtain ⟨size, hash, senderIds, hstatEnded, hhashEnded, hsnapshot⟩ :=
    exists_measured_of_returned runs htr hmid
  obtain ⟨inputs, registry, houtcome, haccepted, -, hstat, hhash, hactive, -⟩ :=
    dispatch_in_run_is_one_call runs htr hmid rfl
  refine ⟨senderIds, size, hsnapshot, hstatEnded, ?_⟩
  rw [← haccepted]
  obtain rfl := hactive senderIds hsnapshot
  obtain ⟨world', hworld'⟩ :
      ∃ world, (runDispatch pb dispatcher inputs path (.start registry ∅)).2 = world :=
    ⟨_, rfl⟩
  have hrun : runDispatch pb dispatcher inputs path (.start registry ∅) = (.ok result, world') :=
    Prod.ext houtcome hworld'
  rw [runDispatch_of_measured pb dispatcher (hstat _ _ hstatEnded).2 (hhash _ _ hhashEnded).2] at hrun
  rw [hworld']
  by_cases hnone : inputs.active registry = []
  · obtain ⟨hresult, hnil⟩ := accepted_of_unserved hnone hrun
    have hnil : world'.accepted = [] := hnil
    rw [hnil]
    exact ⟨List.nodup_nil, nofun, .inl ⟨rfl, hresult⟩⟩
  · obtain ⟨totalBlocks, hcount, htotal, hport, hbuild⟩ := payloads_of_returned hnone hrun
    obtain ⟨delivered, lost, world₁, hrun₁, hsplits, hdelivered, -⟩ :=
      run_dispatchMeasured _ (.start registry ∅) hnone hcount htotal hport hbuild
    obtain ⟨hresult, rfl⟩ := Prod.mk.inj (hrun.symm.trans hrun₁)
    have hdelivered : world'.accepted = deliveredPayloads delivered := hdelivered
    have hblock : 0 < dispatcher.fecParams.blockSize := Int.mul_pos (by omega) (by omega)
    have hnodup : (inputs.active registry).Nodup := SenderRegistry.nodup_activeSenders _ _
    rw [hdelivered]
    refine ⟨nodup_senders_of_splits hnodup hsplits, fun entry hentry => ?_, ?_⟩
    · obtain ⟨d, hd, rfl⟩ := List.mem_map.mp hentry
      obtain ⟨i, -, -, hi, -⟩ := decode_of_splits lawful hcount hsplits hd
      exact List.mem_of_getElem? hi
    · by_cases h : deliveredPayloads delivered = []
      · rw [if_pos h] at hresult
        exact .inl ⟨h, Except.ok.inj hresult⟩
      · rw [if_neg h] at hresult
        exact .inr ⟨inputs.sessionId, h, Except.ok.inj hresult, fun entry hentry =>
          covers_of_splits lawful hnodup hblock hcount hsplits hentry⟩

end Returned

/-! ### A dispatch with a message in between -/

/-- A dispatch to two senders: the first one completes its shard before the second one has its payload. -/
def interruptedDispatch : List CoreEvent :=
  [.statEnded tenBlocksFile.path (.ok 10), .hashEnded tenBlocksFile.path (.ok tenBlocksFile.fileHash),
    .activeSenders [3, 7], .generated "00000000000000aa", .sendEnded 3 [0x32, 0] .accepted,
    .sendEnded 7 [0x32, 1] .queueFull, .handled 3 trackingComplete, .sendEnded 7 [0x32, 1] .accepted,
    .tracked "00000000000000aa" [3, 7]]

theorem interruptedDispatch_runs :
    ∃ core, (Core.machine trackingProtobuf tenBlocksDispatcher).Runs
      ([.handled 3 heartbeatBytes, .handled 7 heartbeatBytes] ++ .detected tenBlocksFile.path ::
        (interruptedDispatch ++ [.returned (some "00000000000000aa")])) core := by
  obtain ⟨core, run, -⟩ := EventMachine.exists_runsUnder_of_map_eq
    (show ((Core.machine trackingProtobuf tenBlocksDispatcher).runUnder (fun _ _ _ => True) []
        (Core.machine trackingProtobuf tenBlocksDispatcher).init
        (trackingActions ++ .incoming 3 trackingComplete :: retryActions)).map Prod.fst
      = some ([.handled 3 heartbeatBytes, .handled 7 heartbeatBytes] ++ .detected tenBlocksFile.path ::
        (interruptedDispatch ++ [.returned (some "00000000000000aa")])) by decide +kernel)
  exact ⟨core, run.runs⟩

theorem dispatch_in_run_is_one_call_interrupted :
    ∃ inputs registry,
      let call := runDispatch trackingProtobuf tenBlocksDispatcher inputs tenBlocksFile.path
        (.start registry ∅)
      call.1 = .ok (some "00000000000000aa") ∧ call.2.accepted = [(3, [0x32, 0]), (7, [0x32, 1])] ∧
      inputs.stat = .ok 10 ∧ inputs.hash = .ok tenBlocksFile.fileHash ∧
      inputs.active registry = [3, 7] ∧ inputs.sessionId = "00000000000000aa" := by
  obtain ⟨core, runs⟩ := interruptedDispatch_runs
  obtain ⟨inputs, registry, houtcome, haccepted, -, hstat, hhash, hactive, hdrawn⟩ :=
    dispatch_in_run_is_one_call runs rfl (by simp [interruptedDispatch]) rfl
  exact ⟨inputs, registry, houtcome, haccepted, (hstat tenBlocksFile.path _ (by decide)).2,
    (hhash tenBlocksFile.path _ (by decide)).2, hactive [3, 7] (by decide), hdrawn _ (by decide)⟩

theorem returned_dispatch_shares_the_file_interrupted :
    let accepted := acceptedOf (exchangesOf interruptedDispatch)
    accepted = [(3, [0x32, 0]), (7, [0x32, 1])] ∧
    ∃ senderIds, .activeSenders senderIds ∈ interruptedDispatch ∧
      ∀ entry ∈ accepted, entry.1 ∈ senderIds ∧ ∃ assignSession,
        decode trackingProtobuf entry.2 = .ok (.assignSession assignSession) ∧
        assignSession.manifest.fileSize = 10 ∧ assignSession.totalSenders = senderIds.length := by
  refine ⟨by decide, ?_⟩
  obtain ⟨core, runs⟩ := interruptedDispatch_runs
  obtain ⟨senderIds, size, hsnapshot, hstat, -, hsenders, ⟨-, hnone⟩ | ⟨_, -, -, hpayloads⟩⟩ :=
    returned_dispatch_shares_the_file trackingProtobuf_lawful (by decide) (by decide) runs rfl
      (by simp [interruptedDispatch])
  · cases hnone
  · refine ⟨senderIds, hsnapshot, fun entry hentry => ⟨hsenders entry hentry, ?_⟩⟩
    obtain ⟨assignSession, hdecode, -, hsize, htotal, -⟩ := hpayloads entry hentry
    obtain rfl : size = 10 := by simpa [interruptedDispatch] using hstat
    exact ⟨assignSession, hdecode, hsize, htotal⟩

end FileMonitor
