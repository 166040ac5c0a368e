import FileMonitor.Main.Core
import FileMonitor.Main.Equiv.Incoming
import FileMonitor.Services.Equiv.Progress
import FileMonitor.Services.Equiv.Registry

/-!
# Steps of the two loops

`CoreStep` lists what a step of the two loops can be, and `coreStep_of_step` says that they make no
other.  `pipelinePoint_of_runs` says that in every run the pipeline is in a dispatch that it has started.
-/

namespace FileMonitor

open DispatchEffect

/-- What one step does to the two loops, and its events. -/
inductive CoreStep (pb : Protobuf) (dispatcher : SessionDispatcher) (core : Core) :
    CoreAction → List CoreEvent → Core → Prop where
  | tick {seconds} (nonneg : 0 ≤ seconds) :
    CoreStep pb dispatcher core (.tick seconds) [] { core with now := core.now + seconds }
  | handled {senderId raw shared} (running : core.loopRunning = true)
    (effect : handleIncoming pb core.shared ⟨core.now, senderId, raw⟩ = .ok shared) :
    CoreStep pb dispatcher core (.incoming senderId raw) [.handled senderId raw]
      { core with shared := shared }
  | loopRaised {senderId raw error} (running : core.loopRunning = true)
    (failure : handleIncoming pb core.shared ⟨core.now, senderId, raw⟩ = .error error) :
    CoreStep pb dispatcher core (.incoming senderId raw) [.loopRaised error]
      { core with loopRunning := false }
  | detected {path} (idle : core.pipeline = .idle) :
    CoreStep pb dispatcher core (.detect path) [.detected path]
      { core with pipeline := .dispatching (dispatcher.dispatch pb path) none }
  | returned {result sessionId} (pipeline : core.pipeline = .dispatching (.ret result) sessionId) :
    CoreStep pb dispatcher core .resume [.returned result] { core with pipeline := .idle }
  | raised {error sessionId} (pipeline : core.pipeline = .dispatching (.raise error) sessionId) :
    CoreStep pb dispatcher core .resume [.raised error] { core with pipeline := .idle }
  | stat {path rest sessionId result}
    (pipeline : core.pipeline = .dispatching (.ask (.stat path) rest) sessionId) :
    CoreStep pb dispatcher core (.statEnds result) [.statEnded path result]
      { core with pipeline := .dispatching (rest result) sessionId }
  | hash {path rest sessionId result}
    (pipeline : core.pipeline = .dispatching (.ask (.computeHash path) rest) sessionId) :
    CoreStep pb dispatcher core (.hashEnds result) [.hashEnded path result]
      { core with pipeline := .dispatching (rest result) sessionId }
  | snapshot {rest sessionId}
    (pipeline : core.pipeline = .dispatching (.ask .activeSenders rest) sessionId) :
    CoreStep pb dispatcher core .resume
      [.activeSenders (core.shared.registry.activeSenders core.now).1]
      { core with
        shared :=
          { core.shared with registry := (core.shared.registry.activeSenders core.now).2 }
        pipeline := .dispatching (rest (core.shared.registry.activeSenders core.now).1) sessionId }
  | generate {rest sessionId newId}
    (pipeline : core.pipeline = .dispatching (.ask .generateSessionId rest) sessionId) :
    CoreStep pb dispatcher core (.generate newId) [.generated newId]
      { core with pipeline := .dispatching (rest newId) (some newId) }
  | send {senderId payload rest sessionId outcome}
    (pipeline : core.pipeline = .dispatching (.ask (.send senderId payload) rest) sessionId) :
    CoreStep pb dispatcher core (.sendEnds outcome) [.sendEnded senderId payload outcome]
      { core with pipeline := .dispatching (rest outcome) sessionId }
  | remove {senderId rest sessionId}
    (pipeline : core.pipeline = .dispatching (.ask (.removeSender senderId) rest) sessionId) :
    CoreStep pb dispatcher core .resume [.removed senderId]
      { core with
        shared := { core.shared with registry := core.shared.registry.remove senderId }
        pipeline := .dispatching (rest ()) sessionId }
  | sleep {seconds rest sessionId}
    (pipeline : core.pipeline = .dispatching (.ask (.sleep seconds) rest) sessionId) :
    CoreStep pb dispatcher core .resume []
      { core with pipeline := .dispatching (rest ()) sessionId }
  | log {entry rest sessionId}
    (pipeline : core.pipeline = .dispatching (.ask (.log entry) rest) sessionId) :
    CoreStep pb dispatcher core .resume []
      { core with pipeline := .dispatching (rest ()) sessionId }
  | track {trackedId senderIds rest sessionId}
    (pipeline : core.pipeline
      = .dispatching (.ask (.trackSession trackedId senderIds) rest) sessionId) :
    CoreStep pb dispatcher core .resume [.tracked trackedId senderIds]
      { core with
        shared :=
          { core.shared with
            dispatchedSessions := core.shared.dispatchedSessions.insert trackedId senderIds }
        pipeline := .dispatching (rest ()) sessionId }

variable {pb : Protobuf} {dispatcher : SessionDispatcher} {core core' : Core}

theorem coreStep_of_stepDispatch {action : CoreAction} {es : List CoreEvent}
    {sessionId : Option SessionId} {rest : DispatchCoroutine (Option SessionId)}
    (hpipeline : core.pipeline = .dispatching rest sessionId)
    (h : core.stepDispatch sessionId rest action = some (core', es)) :
    CoreStep pb dispatcher core action es core' := by
  unfold Core.stepDispatch at h
  split at h
  all_goals cases h
  · exact .returned hpipeline
  · exact .raised hpipeline
  · exact .stat hpipeline
  · exact .hash hpipeline
  · exact .snapshot hpipeline
  · exact .generate hpipeline
  · exact .send hpipeline
  · exact .remove hpipeline
  · exact .sleep hpipeline
  · exact .log hpipeline
  · exact .track hpipeline

/-- **The two loops make no other steps.** -/
theorem coreStep_of_step {action : CoreAction} {es : List CoreEvent}
    (h : core.step pb dispatcher action = some (core', es)) :
    CoreStep pb dispatcher core action es core' := by
  unfold Core.step at h
  split at h
  · split_ifs at h with hnonneg
    obtain ⟨rfl, rfl⟩ := Prod.mk.inj (Option.some.inj h)
    exact .tick hnonneg
  · split_ifs at h with hrunning
    split at h
    · rename_i shared heffect
      obtain ⟨rfl, rfl⟩ := Prod.mk.inj (Option.some.inj h)
      exact .handled hrunning heffect
    · rename_i error hfailure
      obtain ⟨rfl, rfl⟩ := Prod.mk.inj (Option.some.inj h)
      exact .loopRaised hrunning hfailure
  · split at h
    · rename_i hidle
      obtain ⟨rfl, rfl⟩ := Prod.mk.inj (Option.some.inj h)
      exact .detected hidle
    · cases h
  · split at h
    · cases h
    · rename_i rest sessionId hpipeline
      exact coreStep_of_stepDispatch hpipeline h

/-! ### The current dispatch -/

/-- The size that a dispatch has been given, after an action. -/
def CoreAction.sizeAfter (size : Option ℕ) : CoreAction → Option ℕ
  | .statEnds result => result.toOption
  | _ => size

/-- The hash that a dispatch has been given, after an action. -/
def CoreAction.hashAfter (hash : Option String) : CoreAction → Option String
  | .statEnds _ => none
  | .hashEnds result => result.toOption
  | _ => hash

/-- **Where a step takes the pipeline**: to the start of a dispatch, or on in the dispatch it is in. -/
theorem CoreStep.dispatchPoint {action : CoreAction} {es : List CoreEvent}
    (step : CoreStep pb dispatcher core action es core')
    {rest' : DispatchCoroutine (Option SessionId)} {sessionId' : Option SessionId}
    (hpipeline' : core'.pipeline = .dispatching rest' sessionId') :
    (∃ path, action = .detect path ∧ es = [.detected path] ∧
      rest' = dispatcher.dispatch pb path ∧ sessionId' = none) ∨
    ∃ rest sessionId, core.pipeline = .dispatching rest sessionId ∧ (∀ path, .detected path ∉ es) ∧
      ∀ path size hash, DispatchPoint pb dispatcher path size hash sessionId rest →
        DispatchPoint pb dispatcher path (action.sizeAfter size) (action.hashAfter hash)
          sessionId' rest' := by
  cases step with
  | tick => exact .inr ⟨rest', sessionId', hpipeline', nofun, fun _ _ _ h => h⟩
  | handled => exact .inr ⟨rest', sessionId', hpipeline', by simp, fun _ _ _ h => h⟩
  | loopRaised => exact .inr ⟨rest', sessionId', hpipeline', by simp, fun _ _ _ h => h⟩
  | @detected path =>
    obtain ⟨rfl, rfl⟩ := Pipeline.dispatching.inj hpipeline'
    exact .inl ⟨path, rfl, rfl, rfl, rfl⟩
  | returned => cases hpipeline'
  | raised => cases hpipeline'
  | stat hpipeline =>
    obtain ⟨rfl, rfl⟩ := Pipeline.dispatching.inj hpipeline'
    refine .inr ⟨_, _, hpipeline, by simp, fun path size hash h => ?_⟩
    obtain ⟨-, rfl, hrest⟩ := h.ask_stat
    exact hrest _
  | hash hpipeline =>
    obtain ⟨rfl, rfl⟩ := Pipeline.dispatching.inj hpipeline'
    refine .inr ⟨_, _, hpipeline, by simp, fun path size hash h => ?_⟩
    obtain ⟨-, rfl, hrest⟩ := h.ask_computeHash
    exact hrest _
  | snapshot hpipeline =>
    obtain ⟨rfl, rfl⟩ := Pipeline.dispatching.inj hpipeline'
    refine .inr ⟨_, _, hpipeline, by simp, fun path size hash h => ?_⟩
    obtain ⟨rfl, hrest⟩ := h.ask_activeSenders
    exact hrest _
  | generate hpipeline =>
    obtain ⟨rfl, rfl⟩ := Pipeline.dispatching.inj hpipeline'
    exact .inr ⟨_, _, hpipeline, by simp, fun _ _ _ h => h.ask_generateSessionId.2 _⟩
  | send hpipeline =>
    obtain ⟨rfl, rfl⟩ := Pipeline.dispatching.inj hpipeline'
    exact .inr ⟨_, _, hpipeline, by simp, fun _ _ _ h => h.ask_send.2 _⟩
  | remove hpipeline =>
    obtain ⟨rfl, rfl⟩ := Pipeline.dispatching.inj hpipeline'
    exact .inr ⟨_, _, hpipeline, by simp, fun _ _ _ h => h.ask_unit (.inl ⟨_, rfl⟩) ()⟩
  | sleep hpipeline =>
    obtain ⟨rfl, rfl⟩ := Pipeline.dispatching.inj hpipeline'
    exact .inr ⟨_, _, hpipeline, nofun, fun _ _ _ h => h.ask_unit (.inr (.inl ⟨_, rfl⟩)) ()⟩
  | log hpipeline =>
    obtain ⟨rfl, rfl⟩ := Pipeline.dispatching.inj hpipeline'
    exact .inr ⟨_, _, hpipeline, nofun, fun _ _ _ h => h.ask_unit (.inr (.inr ⟨_, rfl⟩)) ()⟩
  | track hpipeline =>
    obtain ⟨rfl, rfl⟩ := Pipeline.dispatching.inj hpipeline'
    exact .inr ⟨_, _, hpipeline, by simp, fun _ _ _ h => h.ask_trackSession.2⟩

/-- The pipeline waits for a path, or has come to some point of a dispatch. -/
def PipelinePoint (pb : Protobuf) (dispatcher : SessionDispatcher) (pipeline : Pipeline) : Prop :=
  ∀ rest sessionId, pipeline = .dispatching rest sessionId →
    ∃ path size hash, DispatchPoint pb dispatcher path size hash sessionId rest

theorem pipelinePoint_of_runs {C : List CoreEvent → Core → CoreAction → Prop} {tr : List CoreEvent}
    (run : (Core.machine pb dispatcher).RunsUnder C tr core) :
    PipelinePoint pb dispatcher core.pipeline := by
  apply run.invariant_state (I := fun core => PipelinePoint pb dispatcher core.pipeline)
  · nofun
  · intro core action core' es hpoint hstep rest' sessionId' hpipeline'
    rcases (coreStep_of_step hstep).dispatchPoint hpipeline' with ⟨path, -, -, rfl, rfl⟩ |
      ⟨rest, sessionId, hpipeline, -, hafter⟩
    · exact ⟨path, none, none, .dispatch path⟩
    · obtain ⟨path, size, hash, h⟩ := hpoint rest sessionId hpipeline
      exact ⟨path, _, _, hafter path size hash h⟩

theorem asks_eq_some_iff {effect : DispatchEffect} :
    core.asks = some effect ↔
      ∃ rest sessionId, core.pipeline = .dispatching (.ask effect rest) sessionId := by
  unfold Core.asks
  constructor
  · intro h
    split at h
    · rename_i effect' rest sessionId hpipeline
      obtain rfl := Option.some.inj h
      exact ⟨rest, sessionId, hpipeline⟩
    · cases h
  · rintro ⟨rest, sessionId, hpipeline⟩
    rw [hpipeline]

theorem CoreAction.sizeAfter_of_ne {action : CoreAction} {size : Option ℕ}
    (h : ∀ result, action ≠ .statEnds result) : action.sizeAfter size = size := by
  cases action with
  | statEnds result => exact absurd rfl (h result)
  | _ => rfl

theorem CoreAction.hashAfter_of_ne {action : CoreAction} {hash : Option String}
    (hstat : ∀ result, action ≠ .statEnds result) (hhash : ∀ result, action ≠ .hashEnds result) :
    action.hashAfter hash = hash := by
  cases action with
  | statEnds result => exact absurd rfl (hstat result)
  | hashEnds result => exact absurd rfl (hhash result)
  | _ => rfl

/-- The hasher is asked for nowhere but right after `stat`, and asked for until it answers. -/
theorem CoreStep.asks_computeHash {action : CoreAction} {es : List CoreEvent}
    (step : CoreStep pb dispatcher core action es core')
    (hpoint : PipelinePoint pb dispatcher core.pipeline) {path : PosixPath}
    (h : core'.asks = some (computeHash path)) :
    (∃ size, action = .statEnds (.ok size)) ∨
      core.asks = some (computeHash path) ∧ (∀ result, action ≠ .statEnds result) ∧
        ∀ result, action ≠ .hashEnds result := by
  obtain ⟨rest', sessionId', hpipeline'⟩ := asks_eq_some_iff.mp h
  have hresume {effect : DispatchEffect} {rest : effect.Answer → DispatchCoroutine _}
      {sessionId : Option SessionId} {answer : effect.Answer}
      (hpipeline : core.pipeline = .dispatching (.ask effect rest) sessionId)
      (hstat : ∀ path', effect ≠ .stat path')
      (hrest : rest answer = .ask (computeHash path) rest') : False := by
    obtain ⟨path', size, hash, hp⟩ := hpoint _ _ hpipeline
    exact hp.resume_ne_ask_computeHash hstat answer path rest' hrest
  cases step with
  | tick => exact .inr ⟨h, nofun, nofun⟩
  | handled => exact .inr ⟨h, nofun, nofun⟩
  | loopRaised => exact .inr ⟨h, nofun, nofun⟩
  | detected => cases (Pipeline.dispatching.inj hpipeline').1
  | returned => cases hpipeline'
  | raised => cases hpipeline'
  | @stat path' rest sessionId result hpipeline =>
    obtain ⟨hrest, rfl⟩ := Pipeline.dispatching.inj hpipeline'
    obtain ⟨path'', size, hash, hp⟩ := hpoint _ _ hpipeline
    obtain ⟨-, rfl, hafter⟩ := hp.ask_stat
    obtain ⟨sizeBytes, hsize⟩ := (hrest ▸ hafter result).exists_size_of_ask_computeHash
    rcases result with reason | size
    · cases hsize
    · exact .inl ⟨size, rfl⟩
  | hash hp => exact (hresume hp nofun (Pipeline.dispatching.inj hpipeline').1).elim
  | snapshot hp => exact (hresume hp nofun (Pipeline.dispatching.inj hpipeline').1).elim
  | generate hp => exact (hresume hp nofun (Pipeline.dispatching.inj hpipeline').1).elim
  | send hp => exact (hresume hp nofun (Pipeline.dispatching.inj hpipeline').1).elim
  | remove hp => exact (hresume hp nofun (Pipeline.dispatching.inj hpipeline').1).elim
  | sleep hp => exact (hresume hp nofun (Pipeline.dispatching.inj hpipeline').1).elim
  | log hp => exact (hresume hp nofun (Pipeline.dispatching.inj hpipeline').1).elim
  | track hp => exact (hresume hp nofun (Pipeline.dispatching.inj hpipeline').1).elim

end FileMonitor
