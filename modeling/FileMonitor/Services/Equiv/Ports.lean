import FileMonitor.Config
import FileMonitor.Services.Equiv.Coverage

/-!
# The ports of a dispatch

The configuration bounds the base port, but the port a sender is told to use lies as far above it as
there are active senders before that one.

* `exists_port_of_handedOver`: what a dispatch hands over carries the base port plus a position.
* `handedOver_of_returned`: a dispatch that returns has handed over a message for every active sender.
* `assigned_ports_usable_iff`: so the ports are usable exactly if the last position is.
-/

namespace FileMonitor

open Coroutine DispatchEffect

/-- In the course of these effects the message `assignSession` is handed to `ipc.send` for a sender. -/
def HandedOver (pb : Protobuf) (effects : List DispatchEffect) (senderId : SenderId)
    (assignSession : AssignSession) : Prop :=
  ∃ payload, send senderId payload ∈ effects ∧ decode pb payload = .ok (.assignSession assignSession)

/-- Every port handed over is one that the configuration would allow. -/
def UsablePorts (pb : Protobuf) (effects : List DispatchEffect) : Prop :=
  ∀ senderId assignSession, HandedOver pb effects senderId assignSession →
    minPort ≤ assignSession.targetPort ∧ assignSession.targetPort ≤ maxPort

/-- Different senders are told different ports. -/
def DistinctPorts (pb : Protobuf) (effects : List DispatchEffect) : Prop :=
  ∀ senderId senderId' assignSession assignSession', HandedOver pb effects senderId assignSession →
    HandedOver pb effects senderId' assignSession' → senderId ≠ senderId' →
    assignSession.targetPort ≠ assignSession'.targetPort

section

variable {pb : Protobuf} {dispatcher : SessionDispatcher} {inputs : DispatchInputs} {path : PosixPath}
  {world world' : DispatchWorld}

/-- The effects of one call of `dispatch`. -/
abbrev dispatchEffects (pb : Protobuf) (dispatcher : SessionDispatcher) (inputs : DispatchInputs)
    (path : PosixPath) (world : DispatchWorld) : List DispatchEffect :=
  (dispatcher.dispatch pb path).effects inputs.answer world

/-! ### What is handed over -/

/-- An attempt to send the payload of an assignment, or any other effect. -/
def SendsAssignment (pb : Protobuf) (dispatcher : SessionDispatcher) (sessionId : SessionId)
    (sourceFile : SourceFile) (ids : List SenderId) : DispatchEffect → Prop
  | .send senderId payload =>
    ∃ totalBlocks, ∃ assignment ∈ shardAssignments totalBlocks ids dispatcher.basePort,
      senderId = assignment.senderId ∧
        dispatcher.buildPayload pb sessionId sourceFile assignment = .ok payload
  | _ => True

theorem dispatchSession_sendsAssignment {sessionId : SessionId} {sourceFile : SourceFile}
    {ids : List SenderId} :
    (dispatcher.dispatchSession pb sourceFile ids sessionId).Uses
      (SendsAssignment pb dispatcher sessionId sourceFile ids) := by
  apply dispatchSession_uses
  · exact ⟨fun _ => trivial, fun _ => trivial, fun _ => trivial⟩
  · intro totalBlocks assignments hderive assignment hmem payload hbuild
    obtain ⟨hne, hnodup, htotal, hport⟩ := deriveShardAssignments_isOk_iff.mp ⟨_, hderive⟩
    rw [deriveShardAssignments_eq_ok hne hnodup htotal hport, Except.ok.injEq] at hderive
    subst hderive
    exact ⟨totalBlocks, assignment, hmem, rfl, hbuild⟩
  · exact fun _ => trivial

/-- What a dispatch sends, it sends once it has drawn the id of the session. -/
theorem exists_of_mem_dispatchEffects {senderId : SenderId} {payload : Bytes}
    (h : send senderId payload ∈ dispatchEffects pb dispatcher inputs path world) :
    ∃ sourceFile, SendsAssignment pb dispatcher inputs.sessionId sourceFile
      (inputs.active world.registry) (send senderId payload) := by
  -- none of the effects before the session id is a `send`
  unfold dispatchEffects SessionDispatcher.dispatch at h
  rw [mem_effects_perform_bind, or_iff_right nofun] at h
  obtain ⟨size, -, h⟩ := mem_effects_ofExcept_bind.mp h
  rw [mem_effects_perform_bind, or_iff_right nofun] at h
  obtain ⟨fileHash, -, h⟩ := mem_effects_ofExcept_bind.mp h
  unfold SessionDispatcher.dispatchMeasured at h
  rw [mem_effects_perform_bind, or_iff_right nofun] at h
  replace h : send senderId payload ∈ effects inputs.answer
      (if inputs.active world.registry = [] then _ else _) _ := h
  by_cases hnone : inputs.active world.registry = []
  · rw [if_pos hnone, mem_effects_perform_bind, or_iff_right nofun] at h
    cases h
  · rw [if_neg hnone, mem_effects_perform_bind, or_iff_right nofun] at h
    exact ⟨_, dispatchSession_sendsAssignment.of_mem_effects h⟩

/-- **The port of a message** lies as far above the base port as its sender is in the list. -/
theorem exists_port_of_handedOver (lawful : pb.Lawful) {senderId : SenderId}
    {assignSession : AssignSession}
    (h : HandedOver pb (dispatchEffects pb dispatcher inputs path world) senderId assignSession) :
    ∃ i : ℕ, (inputs.active world.registry)[i]? = some senderId ∧
      assignSession.targetPort = dispatcher.basePort + i := by
  obtain ⟨payload, hmem, hdecode⟩ := h
  obtain ⟨sourceFile, totalBlocks, assignment, hassignment, rfl, hbuild⟩ :=
    exists_of_mem_dispatchEffects hmem
  obtain ⟨i, senderId, hi, rfl⟩ := mem_shardAssignments.mp hassignment
  obtain ⟨_, _, _, -, -, -, hencode⟩ := encode_of_buildPayload hbuild
  rw [decode_encode lawful hencode, Except.ok.injEq, Message.assignSession.injEq] at hdecode
  exact ⟨i, hi, congrArg AssignSession.targetPort hdecode.symm⟩

/-! ### A dispatch that returns -/

section SendLoop

variable {sessionId : SessionId} {sourceFile : SourceFile} {assignments : List ShardAssignment}

theorem send_mem_effects_deliver (assignment : ShardAssignment) (payload : Bytes) :
    send assignment.senderId payload
      ∈ (deliver sessionId assignment payload).effects inputs.answer world :=
  List.mem_cons_self

/-- A loop that returns has sent a payload for every assignment. -/
theorem send_mem_effects_sendLoop {succeeded : List SenderId} {lostAssignments : List ShardAssignment}
    {result : List SenderId × List ShardAssignment}
    (hrun : (dispatcher.sendLoop pb sessionId sourceFile assignments succeeded lostAssignments).run
      inputs.answer world = (.ok result, world')) {assignment : ShardAssignment}
    (hmem : assignment ∈ assignments) :
    ∃ payload, dispatcher.buildPayload pb sessionId sourceFile assignment = .ok payload ∧
      send assignment.senderId payload ∈
        (dispatcher.sendLoop pb sessionId sourceFile assignments succeeded lostAssignments).effects
          inputs.answer world := by
  induction assignments generalizing succeeded lostAssignments world with
  | nil => exact absurd hmem List.not_mem_nil
  | cons first assignments ih =>
    rw [SessionDispatcher.sendLoop] at hrun ⊢
    obtain ⟨payload, world₀, hpayload, hrun⟩ := exists_of_run_bind_ok hrun
    obtain ⟨hbuild, rfl⟩ := run_ofExcept_eq_ok_iff.mp hpayload
    obtain ⟨delivered, world₁, hdeliver, hrun⟩ := exists_of_run_bind_ok hrun
    rw [hbuild, ofExcept_ok, ret_bind]
    rcases List.mem_cons.mp hmem with rfl | hmem
    · exact ⟨payload, hbuild, mem_effects_bind_left _ (send_mem_effects_deliver _ _)⟩
    · -- the rest of the loop goes on from where this delivery ends, whether it failed or not
      cases delivered with
      | true =>
        obtain ⟨payload', hbuild', hsend⟩ := ih hrun hmem
        exact ⟨payload', hbuild', mem_effects_bind_right hdeliver (List.mem_cons_of_mem _ hsend)⟩
      | false =>
        obtain ⟨payload', hbuild', hsend⟩ := ih hrun hmem
        exact ⟨payload', hbuild', mem_effects_bind_right hdeliver hsend⟩

/-- So has `_send_to_senders`. -/
theorem send_mem_effects_sendToSenders {totalBlocks : ℤ} {ids : List SenderId}
    {result : Option (List SenderId)}
    (hrun : (dispatcher.sendToSenders pb sessionId sourceFile totalBlocks ids).run inputs.answer world
      = (.ok result, world')) {assignment : ShardAssignment}
    (hmem : assignment ∈ shardAssignments totalBlocks ids dispatcher.basePort) :
    ∃ payload, dispatcher.buildPayload pb sessionId sourceFile assignment = .ok payload ∧
      send assignment.senderId payload ∈
        (dispatcher.sendToSenders pb sessionId sourceFile totalBlocks ids).effects inputs.answer
          world := by
  rw [SessionDispatcher.sendToSenders] at hrun ⊢
  obtain ⟨assignments, world₀, hassignments, hrun⟩ := exists_of_run_bind_ok hrun
  obtain ⟨hderive, rfl⟩ := run_ofExcept_eq_ok_iff.mp hassignments
  obtain ⟨_, _, hloop, -⟩ := exists_of_run_bind_ok hrun
  obtain ⟨hne, hnodup, htotal, hport⟩ := deriveShardAssignments_isOk_iff.mp ⟨_, hderive⟩
  rw [hderive, ofExcept_ok, ret_bind]
  rw [deriveShardAssignments_eq_ok hne hnodup htotal hport, Except.ok.injEq] at hderive
  subst hderive
  obtain ⟨payload, hbuild, hsend⟩ := send_mem_effects_sendLoop hloop hmem
  exact ⟨payload, hbuild, mem_effects_bind_left _ hsend⟩

end SendLoop

/-- **A dispatch that returns** has handed over a message for every active sender. -/
theorem handedOver_of_returned (lawful : pb.Lawful) {result : Option SessionId}
    (hrun : runDispatch pb dispatcher inputs path world = (.ok result, world')) {i : ℕ}
    {senderId : SenderId} (hi : (inputs.active world.registry)[i]? = some senderId) :
    ∃ assignSession,
      HandedOver pb (dispatchEffects pb dispatcher inputs path world) senderId assignSession ∧
        assignSession.targetPort = dispatcher.basePort + i := by
  unfold runDispatch SessionDispatcher.dispatch at hrun
  obtain ⟨stat, _, hstat, hrun⟩ := exists_of_run_bind_ok hrun
  obtain ⟨-, rfl⟩ := Prod.mk.inj (run_perform_eq_ok_iff.mp hstat)
  obtain ⟨size, _, hsize, hrun⟩ := exists_of_run_bind_ok hrun
  obtain ⟨-, rfl⟩ := run_ofExcept_eq_ok_iff.mp hsize
  obtain ⟨hash, _, hhash, hrun⟩ := exists_of_run_bind_ok hrun
  obtain ⟨-, rfl⟩ := Prod.mk.inj (run_perform_eq_ok_iff.mp hhash)
  obtain ⟨fileHash, _, hfileHash, hrun⟩ := exists_of_run_bind_ok hrun
  obtain ⟨-, rfl⟩ := run_ofExcept_eq_ok_iff.mp hfileHash
  unfold SessionDispatcher.dispatchMeasured at hrun
  obtain ⟨ids, _, hids, hrun⟩ := exists_of_run_bind_ok hrun
  -- measuring the file has left the registry as it was
  obtain rfl : inputs.active world.registry = ids :=
    (Prod.mk.inj (run_perform_eq_ok_iff.mp hids)).1
  have hne : inputs.active world.registry ≠ [] := fun hnil => by simp [hnil] at hi
  rw [if_neg hne] at hrun
  obtain ⟨sessionId, _, hsessionId, hrun⟩ := exists_of_run_bind_ok hrun
  unfold SessionDispatcher.dispatchSession at hrun
  obtain ⟨totalBlocks, _, hcount, hrun⟩ := exists_of_run_bind_ok hrun
  obtain ⟨succeeded, _, hsend, -⟩ := exists_of_run_bind_ok hrun
  obtain ⟨payload, hbuild, hmem⟩ :=
    send_mem_effects_sendToSenders hsend (mem_shardAssignments.mpr ⟨i, senderId, hi, rfl⟩)
  obtain ⟨fileHashBytes, filepath, totalBlocks', -, -, -, hencode⟩ := encode_of_buildPayload hbuild
  refine ⟨_, ⟨payload, ?_, decode_encode lawful hencode⟩, rfl⟩
  -- each step before the sends leads to the next
  apply mem_effects_bind_right hstat
  apply mem_effects_bind_right hsize
  apply mem_effects_bind_right hhash
  apply mem_effects_bind_right hfileHash
  apply mem_effects_bind_right hids
  rw [if_neg hne]
  apply mem_effects_bind_right hsessionId
  apply mem_effects_bind_right hcount
  exact mem_effects_bind_left _ hmem

/-! ### Usable ports -/

theorem distinctPorts (lawful : pb.Lawful) :
    DistinctPorts pb (dispatchEffects pb dispatcher inputs path world) := by
  intro senderId senderId' assignSession assignSession' h h' hne heq
  obtain ⟨i, hi, hport⟩ := exists_port_of_handedOver lawful h
  obtain ⟨i', hi', hport'⟩ := exists_port_of_handedOver lawful h'
  -- equal ports are those of one position
  obtain rfl : i = i' := by omega
  exact hne (Option.some.inj (hi.symm.trans hi'))

theorem usablePorts_of_le (lawful : pb.Lawful) (hmin : minPort ≤ dispatcher.basePort)
    (hmax : dispatcher.basePort + (inputs.active world.registry).length - 1 ≤ maxPort) :
    UsablePorts pb (dispatchEffects pb dispatcher inputs path world) := by
  intro senderId assignSession h
  obtain ⟨i, hi, hport⟩ := exists_port_of_handedOver lawful h
  have hlt := (List.getElem?_eq_some_iff.mp hi).1
  omega

/-- Once a dispatch returns, the last active sender has been told the highest port. -/
theorem le_of_usablePorts (lawful : pb.Lawful) (hmax : dispatcher.basePort ≤ maxPort)
    {result : Option SessionId}
    (hrun : runDispatch pb dispatcher inputs path world = (.ok result, world'))
    (husable : UsablePorts pb (dispatchEffects pb dispatcher inputs path world)) :
    dispatcher.basePort + (inputs.active world.registry).length - 1 ≤ maxPort := by
  rcases Nat.eq_zero_or_pos (inputs.active world.registry).length with hzero | hpos
  · omega
  · have hlast := List.getElem?_eq_getElem (Nat.sub_one_lt hpos.ne')
    obtain ⟨assignSession, hhanded, hport⟩ := handedOver_of_returned lawful hrun hlast
    have hle := (husable _ _ hhanded).2
    omega

end

/-- The dispatcher that `run` builds from the configuration. -/
def AppConfig.dispatcher (config : AppConfig) : SessionDispatcher where
  fecParams := config.fec
  watchRoot := config.paths.watchPath
  targetHost := config.senders.targetHost
  basePort := config.senders.basePort

/-- **The assigned ports are usable exactly if the highest one is.**  With any configuration accepted by
`validateConfig` and any senders in the registry, what a dispatch hands over names different ports for
different senders.  If the base port leaves room for all active senders, every such port lies within
the bounds of the configuration; and if it does not, every dispatch that returns has told some sender a
port beyond them. -/
theorem assigned_ports_usable_iff {pb : Protobuf} (lawful : pb.Lawful) {watchPathKind : WatchPathKind}
    {config : AppConfig} (hvalid : validateConfig watchPathKind config = .ok ())
    (inputs : DispatchInputs) (path : PosixPath) (world : DispatchWorld) :
    let effects := dispatchEffects pb config.dispatcher inputs path world
    let lastPort := config.senders.basePort + (inputs.active world.registry).length - 1
    DistinctPorts pb effects ∧
    (lastPort ≤ maxPort → UsablePorts pb effects) ∧
    ∀ result, (runDispatch pb config.dispatcher inputs path world).1 = .ok result →
      (UsablePorts pb effects ↔ lastPort ≤ maxPort) := by
  intro effects lastPort
  obtain ⟨-, -, -, hsenders⟩ := validateConfig_eq_ok_iff.mp hvalid
  obtain ⟨-, -, hmin, hmax⟩ := checkSenders_eq_ok_iff.mp hsenders
  have husable : lastPort ≤ maxPort → UsablePorts pb effects :=
    @usablePorts_of_le pb config.dispatcher inputs path world lawful hmin
  refine ⟨distinctPorts lawful, husable, fun result hresult => ⟨fun h => ?_, husable⟩⟩
  exact @le_of_usablePorts pb config.dispatcher inputs path world _ lawful hmax result
    (Prod.ext hresult rfl) h

/-- A configuration with the highest base port that is allowed. -/
def topPortConfig : AppConfig where
  paths := ⟨.parse ['/', 'w'], .parse ['/', 's']⟩
  pacing := ⟨2, 1⟩
  fec := tenBlocksDispatcher.fecParams
  senders := ⟨"127.0.0.1", 65535, "/bin/sender", 2⟩

/-- The message for the sender at position `i`. -/
def topPortMessage (i : ℕ) : AssignSession :=
  assignSessionOf topPortConfig.dispatcher tenBlocksInputs.sessionId tenBlocksFile
    (shardAssignment 10 65535 2 0 i) (List.replicate 32 0) "a" 10

def topPortProtobuf : Protobuf :=
  .ofTable [(.assignSession (topPortMessage 0), [0x32, 0]),
    (.assignSession (topPortMessage 1), [0x32, 1])]

/-- The effects of a dispatch to the senders `3` and `7`. -/
abbrev topPortEffects : List DispatchEffect :=
  dispatchEffects topPortProtobuf topPortConfig.dispatcher tenBlocksInputs tenBlocksFile.path
    (.start tenBlocksRegistry ∅)

/-- One sender more than there is room for is told a port that does not exist. -/
theorem assigned_ports_usable_iff_topPort :
    UsablePorts topPortProtobuf topPortEffects ↔ (65535 : ℤ) + 2 - 1 ≤ maxPort := by
  have hlength : (tenBlocksInputs.active tenBlocksRegistry).length = 2 := by decide +kernel
  have hiff := (@assigned_ports_usable_iff topPortProtobuf (Protobuf.ofTable_lawful (by decide))
    .directory topPortConfig (by decide +kernel) tenBlocksInputs tenBlocksFile.path
    (.start tenBlocksRegistry ∅)).2.2 (some tenBlocksInputs.sessionId) (by decide +kernel)
  dsimp only [DispatchWorld.start] at hiff
  rw [hlength] at hiff
  exact_mod_cast hiff

/-- **The last port does not exist.** -/
theorem assigned_port_above_max :
    validateConfig .directory topPortConfig = .ok () ∧
    tenBlocksInputs.active tenBlocksRegistry = [3, 7] ∧
    (topPortMessage 1).targetPort = 65536 ∧
    HandedOver topPortProtobuf topPortEffects 7 (topPortMessage 1) ∧
    ¬ UsablePorts topPortProtobuf topPortEffects := by
  have hhanded : HandedOver topPortProtobuf topPortEffects 7 (topPortMessage 1) :=
    ⟨[0x32, 1], by decide +kernel, by decide +kernel⟩
  refine ⟨by decide +kernel, by decide +kernel, by decide, hhanded, fun husable => ?_⟩
  have hle := (husable 7 _ hhanded).2
  exact absurd hle (by decide)

end FileMonitor
