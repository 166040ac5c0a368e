import FileMonitor.Main.Equiv.Service

/-!
# A dispatch comes to its end

A dispatch is a well-founded tree of effects, so each step of it leads down in `Pipeline.After`; and while
there is a dispatch, it has a step to take, whatever the answers are.
-/

namespace FileMonitor

/-! ### Steps of a dispatch -/

/-- A step of a dispatch, with the answers of the file system and of the random generator. -/
def CoreAction.Own : CoreAction → Prop
  | .statEnds _ | .hashEnds _ | .generate _ | .resume => True
  | _ => False

/-- A step of the dispatch under way. -/
def ServiceAction.Own : ServiceAction → Prop
  | .send => True
  | .core action => action.Own
  | _ => False

/-- Where the pipeline can come to by one step of its dispatch. -/
inductive Pipeline.After : Pipeline → Pipeline → Prop where
  | ended {rest sessionId} : After .idle (.dispatching rest sessionId)
  | resumed {rest rest' sessionId sessionId'} (resumes : Coroutine.Resumes rest' rest) :
    After (.dispatching rest' sessionId') (.dispatching rest sessionId)

theorem wellFounded_after : WellFounded Pipeline.After := by
  have hidle : Acc Pipeline.After .idle := ⟨_, nofun⟩
  refine ⟨fun pipeline => ?_⟩
  cases pipeline with
  | idle => exact hidle
  | dispatching rest sessionId =>
    induction rest using Coroutine.wellFounded_resumes.induction generalizing sessionId with
    | _ rest ih =>
      refine ⟨_, fun pipeline h => ?_⟩
      cases h with
      | ended => exact hidle
      | resumed hresumes => exact ih _ hresumes _

section Dispatch

variable {pb : Protobuf} {dispatcher : SessionDispatcher} {core core' : Core}

/-- Every step of a dispatch brings it further. -/
theorem CoreStep.after {action : CoreAction} {es : List CoreEvent}
    (step : CoreStep pb dispatcher core action es core')
    (hown : action.Own ∨ ∃ outcome, action = .sendEnds outcome) :
    Pipeline.After core'.pipeline core.pipeline := by
  have hanswered {effect : DispatchEffect} {rest : effect.Answer → DispatchCoroutine (Option SessionId)}
      {sessionId : Option SessionId}
      (hpipeline : core.pipeline = .dispatching (.ask effect rest) sessionId) (answer : effect.Answer)
      (sessionId' : Option SessionId) :
      Pipeline.After (.dispatching (rest answer) sessionId') core.pipeline := by
    rw [hpipeline]
    exact .resumed (.answered effect rest answer)
  cases step with
  | tick => simp [CoreAction.Own] at hown
  | handled => simp [CoreAction.Own] at hown
  | loopRaised => simp [CoreAction.Own] at hown
  | detected => simp [CoreAction.Own] at hown
  | returned hpipeline =>
    rw [hpipeline]
    exact .ended
  | raised hpipeline =>
    rw [hpipeline]
    exact .ended
  | stat hpipeline => exact hanswered hpipeline _ _
  | hash hpipeline => exact hanswered hpipeline _ _
  | snapshot hpipeline => exact hanswered hpipeline _ _
  | generate hpipeline => exact hanswered hpipeline _ _
  | send hpipeline => exact hanswered hpipeline _ _
  | remove hpipeline => exact hanswered hpipeline _ _
  | sleep hpipeline => exact hanswered hpipeline _ _
  | log hpipeline => exact hanswered hpipeline _ _
  | track hpipeline => exact hanswered hpipeline _ _

/-- A dispatch under way has a step to take. -/
theorem exists_own_service_step (pb : Protobuf) (dispatcher : SessionDispatcher)
    (expectedProtoHash : Bytes) {service : Service} (h : service.core.pipeline ≠ .idle) :
    ∃ action, ServiceAction.Own action ∧
      (service.step pb dispatcher expectedProtoHash action).isSome := by
  cases hpipeline : service.core.pipeline with
  | idle => exact absurd hpipeline h
  | dispatching rest sessionId =>
    cases rest with
    | ret result =>
      refine ⟨.core .resume, trivial, ?_⟩
      simp [Service.step, Service.stepCore, Core.step, hpipeline, Core.stepDispatch]
    | raise error =>
      refine ⟨.core .resume, trivial, ?_⟩
      simp [Service.step, Service.stepCore, Core.step, hpipeline, Core.stepDispatch]
    | ask effect rest =>
      cases effect with
      | stat =>
        refine ⟨.core (.statEnds (.ok 0)), trivial, ?_⟩
        simp [Service.step, Service.stepCore, Core.step, hpipeline, Core.stepDispatch]
      | computeHash =>
        refine ⟨.core (.hashEnds (.ok "")), trivial, ?_⟩
        simp [Service.step, Service.stepCore, Core.step, hpipeline, Core.stepDispatch]
      | generateSessionId =>
        refine ⟨.core (.generate default), trivial, ?_⟩
        simp [Service.step, Service.stepCore, Core.step, hpipeline, Core.stepDispatch]
      | send =>
        refine ⟨.send, trivial, ?_⟩
        simp [Service.step, Service.stepIpc, Service.stepCore, Core.asks, Core.step, hpipeline,
          Core.stepDispatch, UdsIpcServer.step]
      | _ =>
        refine ⟨.core .resume, trivial, ?_⟩
        simp [Service.step, Service.stepCore, Core.step, hpipeline, Core.stepDispatch]

/-- An own step of the service goes on with the dispatch. -/
theorem after_of_own {service service' : Service} {expectedProtoHash : Bytes} {action : ServiceAction}
    {es : List ServiceEvent} (hown : action.Own)
    (h : service.step pb dispatcher expectedProtoHash action = some (service', es)) :
    Pipeline.After service'.core.pipeline service.core.pipeline := by
  cases action with
  | send =>
    rw [Service.step] at h
    split at h
    · obtain ⟨⟨service₁, sent⟩, hsend, h⟩ := Option.bind_eq_some_iff.mp h
      obtain ⟨⟨service₂, ended⟩, hcore, h⟩ := Option.bind_eq_some_iff.mp h
      obtain ⟨ipc, events, -, rfl, -⟩ := exists_of_stepIpc hsend
      obtain ⟨core, events', hstep, rfl, -⟩ := exists_of_stepCore hcore
      obtain ⟨rfl, -⟩ := Prod.mk.inj (Option.some.inj h)
      exact (coreStep_of_step hstep).after (.inr ⟨_, rfl⟩)
    · cases h
  | core action =>
    have hcore (h : service.stepCore pb dispatcher action = some (service', es)) :
        Pipeline.After service'.core.pipeline service.core.pipeline := by
      obtain ⟨core, events, hstep, rfl, -⟩ := exists_of_stepCore h
      exact (coreStep_of_step hstep).after (.inl hown)
    cases action with
    | incoming => cases hown
    | sendEnds => cases hown
    | _ => exact hcore h
  | _ => cases hown

end Dispatch

end FileMonitor
