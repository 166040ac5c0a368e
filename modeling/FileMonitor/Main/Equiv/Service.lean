import FileMonitor.Ipc.Equiv.PeerTable
import FileMonitor.Main.Equiv.Core
import FileMonitor.Main.Service
import FileMonitor.Services.Equiv.Coverage

/-!
# Removal of a disconnected sender

* `removed_sender_stays_removed`: where the incoming loop processes no heartbeat or hello of a removed
  sender from a connection that is older than the removal, the sender is not active again before the
  hello of a newer connection has been processed.
* `removed_sender_returns`: a heartbeat queued before the sender disconnected brings it back.
-/

namespace FileMonitor

/-! ### Steps of the service -/

/-- What one step does to the service, and its events. -/
inductive ServiceStep (pb : Protobuf) (dispatcher : SessionDispatcher) (expectedProtoHash : Bytes)
    (service : Service) : ServiceAction → List ServiceEvent → Service → Prop where
  | ipc {action ipcAction ipc es}
    (step : service.ipc.step pb expectedProtoHash ipcAction = some (ipc, es)) :
    ServiceStep pb dispatcher expectedProtoHash service action (es.map .ipc)
      { service with ipc := ipc }
  | process {entry incoming core es} (head : service.ipc.incoming = entry :: incoming)
    (step : CoreStep pb dispatcher service.core (.incoming entry.senderId entry.raw) es core) :
    ServiceStep pb dispatcher expectedProtoHash service .process
      (.ipc (.taken entry) :: es.map .core) ⟨{ service.ipc with incoming := incoming }, core⟩
  | send {senderId payload core es}
    (step : CoreStep pb dispatcher service.core
      (.sendEnds (service.ipc.send senderId payload).2.1) es core) :
    ServiceStep pb dispatcher expectedProtoHash service .send
      (.ipc (service.ipc.send senderId payload).2.2 :: es.map .core)
      ⟨(service.ipc.send senderId payload).1, core⟩
  | core {coreAction core es} (alone : ∀ senderId raw, coreAction ≠ .incoming senderId raw)
    (step : CoreStep pb dispatcher service.core coreAction es core) :
    ServiceStep pb dispatcher expectedProtoHash service (.core coreAction) (es.map .core)
      { service with core := core }

section Steps

variable {pb : Protobuf} {dispatcher : SessionDispatcher} {expectedProtoHash : Bytes}
  {service service' : Service}

theorem exists_of_stepIpc {action : UdsAction} {es : List ServiceEvent}
    (h : service.stepIpc pb expectedProtoHash action = some (service', es)) :
    ∃ ipc events, service.ipc.step pb expectedProtoHash action = some (ipc, events) ∧
      service' = { service with ipc := ipc } ∧ es = events.map .ipc := by
  obtain ⟨⟨ipc, events⟩, hstep, h⟩ := Option.bind_eq_some_iff.mp h
  obtain ⟨rfl, rfl⟩ := Prod.mk.inj (Option.some.inj h)
  exact ⟨ipc, events, hstep, rfl, rfl⟩

theorem exists_of_stepCore {action : CoreAction} {es : List ServiceEvent}
    (h : service.stepCore pb dispatcher action = some (service', es)) :
    ∃ core events, service.core.step pb dispatcher action = some (core, events) ∧
      service' = { service with core := core } ∧ es = events.map .core := by
  obtain ⟨⟨core, events⟩, hstep, h⟩ := Option.bind_eq_some_iff.mp h
  obtain ⟨rfl, rfl⟩ := Prod.mk.inj (Option.some.inj h)
  exact ⟨core, events, hstep, rfl, rfl⟩

/-- **The service makes no other steps.** -/
theorem serviceStep_of_step {action : ServiceAction} {es : List ServiceEvent}
    (h : service.step pb dispatcher expectedProtoHash action = some (service', es)) :
    ServiceStep pb dispatcher expectedProtoHash service action es service' := by
  unfold Service.step at h
  split at h
  · obtain ⟨ipc, events, hipc, rfl, rfl⟩ := exists_of_stepIpc h
    exact .ipc hipc
  · obtain ⟨ipc, events, hipc, rfl, rfl⟩ := exists_of_stepIpc h
    exact .ipc hipc
  · split at h
    · cases h
    · rename_i entry incoming hhead
      obtain ⟨⟨service₁, taken⟩, htake, h⟩ := Option.bind_eq_some_iff.mp h
      obtain ⟨⟨service₂, handled⟩, hcore, h⟩ := Option.bind_eq_some_iff.mp h
      obtain ⟨ipc, events, hipc, rfl, rfl⟩ := exists_of_stepIpc htake
      obtain ⟨core, events', hstep, rfl, rfl⟩ := exists_of_stepCore hcore
      obtain ⟨rfl, rfl⟩ := Prod.mk.inj (Option.some.inj h)
      rw [UdsIpcServer.step, hhead] at hipc
      obtain ⟨rfl, rfl⟩ := Prod.mk.inj (Option.some.inj hipc)
      exact .process hhead (coreStep_of_step hstep)
  · split at h
    · rename_i senderId payload hasks
      obtain ⟨⟨service₁, sent⟩, hsend, h⟩ := Option.bind_eq_some_iff.mp h
      obtain ⟨⟨service₂, ended⟩, hcore, h⟩ := Option.bind_eq_some_iff.mp h
      obtain ⟨ipc, events, hipc, rfl, rfl⟩ := exists_of_stepIpc hsend
      obtain ⟨core, events', hstep, rfl, rfl⟩ := exists_of_stepCore hcore
      obtain ⟨rfl, rfl⟩ := Prod.mk.inj (Option.some.inj h)
      obtain ⟨rfl, rfl⟩ := Prod.mk.inj (Option.some.inj hipc)
      exact .send (coreStep_of_step hstep)
    · cases h
  · cases h
  · cases h
  · rename_i coreAction hincoming hsendEnds
    obtain ⟨core, events, hstep, rfl, rfl⟩ := exists_of_stepCore h
    exact .core hincoming (coreStep_of_step hstep)

/-- The events of the server. -/
def ipcTrace (tr : List ServiceEvent) : List UdsEvent :=
  tr.filterMap fun
    | .ipc event => some event
    | .core _ => none

@[simp] theorem ipcTrace_append (tr es : List ServiceEvent) :
    ipcTrace (tr ++ es) = ipcTrace tr ++ ipcTrace es := List.filterMap_append

@[simp] theorem ipcTrace_cons_ipc (event : UdsEvent) (tr : List ServiceEvent) :
    ipcTrace (.ipc event :: tr) = event :: ipcTrace tr := rfl

@[simp] theorem ipcTrace_cons_core (event : CoreEvent) (tr : List ServiceEvent) :
    ipcTrace (.core event :: tr) = ipcTrace tr := rfl

@[simp] theorem ipcTrace_map_ipc (events : List UdsEvent) :
    ipcTrace (events.map .ipc) = events := by
  induction events with
  | nil => rfl
  | cons event events ih => rw [List.map_cons, ipcTrace_cons_ipc, ih]

@[simp] theorem ipcTrace_map_core (events : List CoreEvent) : ipcTrace (events.map .core) = [] := by
  induction events with
  | nil => rfl
  | cons event events ih => rw [List.map_cons, ipcTrace_cons_core, ih]

theorem mem_ipcTrace {event : UdsEvent} {tr : List ServiceEvent} :
    event ∈ ipcTrace tr ↔ .ipc event ∈ tr := by
  constructor
  · intro h
    obtain ⟨other, hmem, heq⟩ := List.mem_filterMap.mp h
    split at heq
    · obtain rfl := Option.some.inj heq
      exact hmem
    · cases heq
  · intro h
    exact List.mem_filterMap.mpr ⟨_, h, rfl⟩

/-- **The service runs the server**: what its server does is a run of the server alone. -/
theorem ipcTrace_runs {C : List ServiceEvent → Service → ServiceAction → Prop}
    {tr : List ServiceEvent}
    (run : (Service.machine pb dispatcher expectedProtoHash).RunsUnder C tr service) :
    (UdsIpcServer.machine pb expectedProtoHash).Runs (ipcTrace tr) service.ipc := by
  apply run.project Service.ipc
  · rfl
  · intro tr service action service' es _ hstep
    show (∃ udsAction, True ∧ UdsIpcServer.step pb expectedProtoHash service.ipc udsAction
      = some (service'.ipc, ipcTrace es)) ∨ service'.ipc = service.ipc ∧ ipcTrace es = []
    cases serviceStep_of_step hstep with
    | @ipc _ udsAction _ _ hipc => exact .inl ⟨udsAction, trivial, by rw [hipc, ipcTrace_map_ipc]⟩
    | process hhead =>
      refine .inl ⟨.take, trivial, ?_⟩
      rw [UdsIpcServer.step, hhead, ipcTrace_cons_ipc, ipcTrace_map_core]
    | @send senderId payload =>
      refine .inl ⟨.send senderId payload, trivial, ?_⟩
      rw [UdsIpcServer.step, ipcTrace_cons_ipc, ipcTrace_map_core]
    | core => exact .inr ⟨rfl, ipcTrace_map_core _⟩

end Steps

/-! ### Removal -/

/-- What has happened after each removal of `senderId`. -/
def afterRemovals (senderId : SenderId) : List ServiceEvent → List (List ServiceEvent)
  | [] => []
  | event :: tr =>
    if event = .core (.removed senderId) then tr :: afterRemovals senderId tr
    else afterRemovals senderId tr

theorem mem_afterRemovals {senderId : SenderId} {tr post : List ServiceEvent} :
    post ∈ afterRemovals senderId tr ↔ ∃ pre, tr = pre ++ .core (.removed senderId) :: post := by
  induction tr with
  | nil => simp [afterRemovals]
  | cons event tr ih =>
    rw [afterRemovals]
    constructor
    · intro h
      split_ifs at h with hevent
      · rcases List.mem_cons.mp h with rfl | h
        · exact ⟨[], by rw [hevent, List.nil_append]⟩
        · obtain ⟨pre, rfl⟩ := ih.mp h
          exact ⟨event :: pre, rfl⟩
      · obtain ⟨pre, rfl⟩ := ih.mp h
        exact ⟨event :: pre, rfl⟩
    · rintro ⟨pre, hpre⟩
      rcases pre with _ | ⟨event', pre⟩
      · obtain ⟨rfl, rfl⟩ := List.cons.inj hpre
        rw [if_pos rfl]
        exact List.mem_cons_self
      · obtain ⟨rfl, rfl⟩ := List.cons.inj hpre
        have hmem := ih.mpr ⟨pre, rfl⟩
        split_ifs
        · exact List.mem_cons_of_mem _ hmem
        · exact hmem

theorem afterRemovals_append (senderId : SenderId) (tr es : List ServiceEvent) :
    afterRemovals senderId (tr ++ es)
      = (afterRemovals senderId tr).map (· ++ es) ++ afterRemovals senderId es := by
  induction tr with
  | nil => rfl
  | cons event tr ih =>
    rw [List.cons_append, afterRemovals, afterRemovals, ih]
    split_ifs <;> simp

/-- The message registers its sender. -/
def Registers (pb : Protobuf) (raw : Bytes) : Prop :=
  match decode pb raw with
  | .ok (.senderHello ..) | .ok .heartbeat => True
  | _ => False

/-- In `post`, the event is the processing of a hello of `senderId` from a connection whose handshake
was completed in `post`. -/
def Renews (pb : Protobuf) (expectedProtoHash : Bytes) (senderId : SenderId)
    (post : List ServiceEvent) : ServiceEvent → Prop
  | .ipc (.taken entry) => entry.senderId = senderId ∧
    IsHello pb expectedProtoHash entry.raw senderId ∧
    .ipc (.peer entry.connection (.handshaken senderId)) ∈ post
  | _ => False

/-- In `post`, a new connection of `senderId` has said hello and the incoming loop has processed it. -/
def Renewed (pb : Protobuf) (expectedProtoHash : Bytes) (senderId : SenderId)
    (post : List ServiceEvent) : Prop :=
  ∃ event ∈ post, Renews pb expectedProtoHash senderId post event

/-- The incoming loop processes no heartbeat or hello of a removed sender from a connection older than
the removal, before that sender is renewed. -/
def ProcessesFresh (pb : Protobuf) (expectedProtoHash : Bytes) (tr : List ServiceEvent)
    (service : Service) : ServiceAction → Prop
  | .process => ∀ entry ∈ service.ipc.incoming.head?, Registers pb entry.raw →
    ∀ post ∈ afterRemovals entry.senderId tr, Renewed pb expectedProtoHash entry.senderId post ∨
      .ipc (.peer entry.connection (.handshaken entry.senderId)) ∈ post
  | _ => True

instance (pb : Protobuf) (raw : Bytes) : Decidable (Registers pb raw) := by
  unfold Registers
  split <;> infer_instance

instance (pb : Protobuf) (expectedProtoHash raw : Bytes) (senderId : SenderId) :
    Decidable (IsHello pb expectedProtoHash raw senderId) :=
  inferInstanceAs (Decidable (decode pb raw = _))

instance (pb : Protobuf) (expectedProtoHash : Bytes) (senderId : SenderId)
    (post : List ServiceEvent) : DecidablePred (Renews pb expectedProtoHash senderId post) :=
  fun event => by
    unfold Renews
    split <;> infer_instance

instance (pb : Protobuf) (expectedProtoHash : Bytes) (senderId : SenderId)
    (post : List ServiceEvent) : Decidable (Renewed pb expectedProtoHash senderId post) :=
  inferInstanceAs (Decidable (∃ event ∈ post, _))

instance (pb : Protobuf) (expectedProtoHash : Bytes) (tr : List ServiceEvent) (service : Service) :
    DecidablePred (ProcessesFresh pb expectedProtoHash tr service) := fun action => by
  unfold ProcessesFresh
  split <;> infer_instance

section Removal

variable {pb : Protobuf} {dispatcher : SessionDispatcher} {expectedProtoHash : Bytes}
  {service service' : Service} {tr : List ServiceEvent} {senderId : SenderId}

theorem Renewed.append {post : List ServiceEvent} (h : Renewed pb expectedProtoHash senderId post)
    (es : List ServiceEvent) : Renewed pb expectedProtoHash senderId (post ++ es) := by
  obtain ⟨event, hmem, hrenews⟩ := h
  refine ⟨event, List.mem_append_left _ hmem, ?_⟩
  unfold Renews at hrenews ⊢
  split at hrenews
  · obtain ⟨hid, hhello, hhandshaken⟩ := hrenews
    exact ⟨hid, hhello, List.mem_append_left _ hhandshaken⟩
  · exact hrenews.elim

/-- Only a message that registers its sender adds to the registry. -/
theorem mem_lastSeen_of_handleIncoming {state state' : IncomingState} {item : IncomingItem}
    (h : handleIncoming pb state item = .ok state') (hmem : senderId ∈ state'.registry.lastSeen) :
    senderId ∈ state.registry.lastSeen ∨ item.senderId = senderId ∧ Registers pb item.raw := by
  unfold Registers
  rcases hdecode : decode pb item.raw with e | message
  · rw [handleIncoming_of_error hdecode] at h
    cases h
  · rw [handleIncoming_of_decode hdecode] at h
    obtain rfl := Except.ok.inj h
    cases message with
    | senderHello | heartbeat =>
      rcases (AList.mem_insert _).mp hmem with rfl | hmem
      · exact .inr ⟨rfl, trivial⟩
      · exact .inl hmem
    | _ => exact .inl hmem

theorem CoreStep.mem_lastSeen {core core' : Core} {action : CoreAction} {es : List CoreEvent}
    (step : CoreStep pb dispatcher core action es core')
    (hmem : senderId ∈ core'.shared.registry.lastSeen) :
    senderId ∈ core.shared.registry.lastSeen ∨
      ∃ raw, action = .incoming senderId raw ∧ Registers pb raw := by
  cases step with
  | @handled senderId' raw shared running effect =>
    rcases mem_lastSeen_of_handleIncoming effect hmem with hmem | ⟨rfl, hregisters⟩
    · exact .inl hmem
    · exact .inr ⟨raw, rfl, hregisters⟩
  | snapshot =>
    obtain ⟨u, hu⟩ := Dict.mem_iff_exists_lookup.mp hmem
    have hlookup := (SenderRegistry.lookup_purgeExpired.mp hu).1
    exact .inl (Dict.mem_iff_exists_lookup.mpr ⟨u, hlookup⟩)
  | remove => exact .inl (AList.mem_erase.mp hmem).2
  | _ => exact .inl hmem

theorem CoreStep.of_removed {core core' : Core} {action : CoreAction} {es : List CoreEvent}
    (step : CoreStep pb dispatcher core action es core') (h : .removed senderId ∈ es) :
    action = .resume ∧ es = [.removed senderId] ∧
      senderId ∉ core'.shared.registry.lastSeen := by
  cases step with
  | remove =>
    obtain rfl := CoreEvent.removed.inj (List.mem_singleton.mp h)
    exact ⟨rfl, rfl, fun hmem => (AList.mem_erase.mp hmem).1 rfl⟩
  | _ => simp at h

theorem CoreStep.of_activeSenders {core core' : Core} {action : CoreAction} {es : List CoreEvent}
    (step : CoreStep pb dispatcher core action es core') {ids : List SenderId}
    (h : .activeSenders ids ∈ es) :
    action = .resume ∧ es = [.activeSenders ids] ∧
      ids = (core.shared.registry.activeSenders core.now).1 := by
  cases step with
  | snapshot =>
    obtain rfl := CoreEvent.activeSenders.inj (List.mem_singleton.mp h)
    exact ⟨rfl, rfl, rfl⟩
  | _ => simp at h

/-- An event of a resumed dispatch comes from a step of the two loops alone. -/
theorem ServiceStep.of_mem_core {action : ServiceAction} {es : List ServiceEvent} {event : CoreEvent}
    (step : ServiceStep pb dispatcher expectedProtoHash service action es service')
    (h : .core event ∈ es)
    (hresume : ∀ core core' coreAction events, CoreStep pb dispatcher core coreAction events core' →
      event ∈ events → coreAction = .resume ∧ events = [event]) :
    es = [.core event] ∧ CoreStep pb dispatcher service.core .resume [event] service'.core := by
  have hmap {events : List CoreEvent} (h : .core event ∈ events.map ServiceEvent.core) :
      event ∈ events := by simpa using h
  cases step with
  | ipc => simp at h
  | process _ hcore =>
    rcases List.mem_cons.mp h with h | h
    · cases h
    · exact nomatch (hresume _ _ _ _ hcore (hmap h)).1
  | send hcore =>
    rcases List.mem_cons.mp h with h | h
    · cases h
    · exact nomatch (hresume _ _ _ _ hcore (hmap h)).1
  | core _ hcore =>
    obtain ⟨rfl, rfl⟩ := hresume _ _ _ _ hcore (hmap h)
    exact ⟨rfl, hcore⟩

theorem ServiceStep.of_removed {action : ServiceAction} {es : List ServiceEvent}
    (step : ServiceStep pb dispatcher expectedProtoHash service action es service')
    (h : .core (.removed senderId) ∈ es) :
    es = [.core (.removed senderId)] ∧ senderId ∉ service'.core.shared.registry.lastSeen := by
  obtain ⟨hes, hcore⟩ := step.of_mem_core h fun _ _ _ _ hstep hmem =>
    ⟨(hstep.of_removed hmem).1, (hstep.of_removed hmem).2.1⟩
  exact ⟨hes, (hcore.of_removed List.mem_cons_self).2.2⟩

theorem ServiceStep.of_activeSenders {action : ServiceAction} {es : List ServiceEvent}
    {ids : List SenderId} (step : ServiceStep pb dispatcher expectedProtoHash service action es service')
    (h : .core (.activeSenders ids) ∈ es) :
    es = [.core (.activeSenders ids)] ∧
      ids = (service.core.shared.registry.activeSenders service.core.now).1 := by
  obtain ⟨hes, hcore⟩ := step.of_mem_core h fun _ _ _ _ hstep hmem =>
    ⟨(hstep.of_activeSenders hmem).1, (hstep.of_activeSenders hmem).2.1⟩
  exact ⟨hes, (hcore.of_activeSenders List.mem_cons_self).2.2⟩

theorem ServiceStep.mem_lastSeen {action : ServiceAction} {es : List ServiceEvent}
    (step : ServiceStep pb dispatcher expectedProtoHash service action es service')
    (hmem : senderId ∈ service'.core.shared.registry.lastSeen) :
    senderId ∈ service.core.shared.registry.lastSeen ∨
      ∃ entry incoming, action = .process ∧ service.ipc.incoming = entry :: incoming ∧
        entry.senderId = senderId ∧ Registers pb entry.raw ∧ .ipc (.taken entry) ∈ es := by
  cases step with
  | ipc => exact .inl hmem
  | @process entry incoming _ _ hhead hcore =>
    rcases hcore.mem_lastSeen hmem with hmem | ⟨raw, haction, hregisters⟩
    · exact .inl hmem
    · obtain ⟨rfl, rfl⟩ := CoreAction.incoming.inj haction
      exact .inr ⟨entry, incoming, rfl, hhead, rfl, hregisters, List.mem_cons_self⟩
  | send hcore =>
    rcases hcore.mem_lastSeen hmem with hmem | ⟨raw, haction, -⟩
    · exact .inl hmem
    · cases haction
  | core hlocal hcore =>
    rcases hcore.mem_lastSeen hmem with hmem | ⟨raw, haction, -⟩
    · exact .inl hmem
    · exact absurd haction (hlocal senderId raw)

/-! ### The invariant -/

/-- The hello of a connection that is newer than the removal is processed after the removal: it was not
taken from the queue before its handshake, and there was no second handshake. -/
theorem renewed_of_handshaken {C : List ServiceEvent → Service → ServiceAction → Prop}
    (run : (Service.machine pb dispatcher expectedProtoHash).RunsUnder C tr service)
    {post es : List ServiceEvent} (hpost : post ∈ afterRemovals senderId tr) {entry : IncomingEntry}
    {incoming : List IncomingEntry} (hhead : service.ipc.incoming = entry :: incoming)
    (hid : entry.senderId = senderId)
    (hhandshaken : .ipc (.peer entry.connection (.handshaken senderId)) ∈ post)
    (htaken : .ipc (.taken entry) ∈ es) : Renewed pb expectedProtoHash senderId (post ++ es) := by
  subst hid
  obtain ⟨pre, rfl⟩ := mem_afterRemovals.mp hpost
  have hinv := ServerInv.of_runs (ipcTrace_runs run)
  obtain ⟨hello, hconnection, hsender, hhello, hfirst⟩ := hinv.hello_first hhead
  have hrenews : Renews pb expectedProtoHash entry.senderId (post ++ es) (.ipc (.taken hello)) := by
    refine ⟨hsender, hhello, List.mem_append_left _ ?_⟩
    rw [hconnection]
    exact hhandshaken
  rcases hfirst with rfl | hearlier
  · exact ⟨_, List.mem_append_right _ htaken, hrenews⟩
  · rw [ipcTrace_append, ipcTrace_cons_core, takenEntries_append] at hearlier
    rcases List.mem_append.mp hearlier with hearlier | hearlier
    · -- then the connection has completed two handshakes, one of them before the removal
      obtain ⟨service₀, _, _, run₀, -, -⟩ := run.exists_step_of_alone rfl fun _ _ _ _ hstep hmem =>
        ((serviceStep_of_step hstep).of_removed hmem).1
      have hinv₀ := ServerInv.of_runs (ipcTrace_runs run₀)
      have henqueued : hello ∈ enqueuedEntries (ipcTrace pre) :=
        hinv₀.queue ▸ List.mem_append_left _ hearlier
      have hbefore := List.length_pos_of_mem (hinv₀.handshaken_of_enqueued henqueued)
      have hafter := List.length_pos_of_mem
        (mem_handshakesOf_historyOf.mpr (mem_ipcTrace.mpr hhandshaken))
      have hle := hinv.length_handshakesOf_le entry.connection
      rw [ipcTrace_append, ipcTrace_cons_core, historyOf_append, handshakesOf_append,
        List.length_append] at hle
      rw [hconnection] at hbefore
      omega
    · refine ⟨_, List.mem_append_left _ ?_, hrenews⟩
      exact mem_ipcTrace.mp (mem_takenEntries.mp hearlier)

/-- A sender in the registry has been renewed since each of its removals. -/
def RemovalInv (pb : Protobuf) (expectedProtoHash : Bytes) (tr : List ServiceEvent)
    (service : Service) : Prop :=
  ∀ senderId ∈ service.core.shared.registry.lastSeen, ∀ post ∈ afterRemovals senderId tr,
    Renewed pb expectedProtoHash senderId post

theorem RemovalInv.step {C : List ServiceEvent → Service → ServiceAction → Prop}
    (run : (Service.machine pb dispatcher expectedProtoHash).RunsUnder C tr service)
    (hinv : RemovalInv pb expectedProtoHash tr service) {action : ServiceAction}
    {es : List ServiceEvent}
    (step : ServiceStep pb dispatcher expectedProtoHash service action es service')
    (hfresh : ProcessesFresh pb expectedProtoHash tr service action) :
    RemovalInv pb expectedProtoHash (tr ++ es) service' := by
  intro senderId hmem post hpost
  rw [afterRemovals_append] at hpost
  rcases List.mem_append.mp hpost with hpost | hpost
  · obtain ⟨earlier, hearlier, rfl⟩ := List.mem_map.mp hpost
    rcases step.mem_lastSeen hmem with hmem | ⟨entry, incoming, rfl, hhead, rfl, hregisters, htaken⟩
    · exact (hinv senderId hmem earlier hearlier).append es
    · have hhead? : entry ∈ service.ipc.incoming.head? := by simp [hhead]
      rcases hfresh entry hhead? hregisters earlier hearlier with hrenewed | hhandshaken
      · exact hrenewed.append es
      · exact renewed_of_handshaken run hearlier hhead rfl hhandshaken htaken
  · -- the step is a removal itself
    obtain ⟨pre, hes⟩ := mem_afterRemovals.mp hpost
    have hremoved : .core (.removed senderId) ∈ es := by
      rw [hes]
      exact List.mem_append_right _ List.mem_cons_self
    exact absurd hmem (step.of_removed hremoved).2

/-- **Removal sticks** in every run whose incoming loop processes no heartbeat or hello of a removed
sender from an older connection: a sender that is active again has been renewed since its removal. -/
theorem removed_sender_stays_removed
    (run : (Service.machine pb dispatcher expectedProtoHash).RunsUnder
      (ProcessesFresh pb expectedProtoHash) tr service)
    {pre mid post : List ServiceEvent} {senderIds : List SenderId}
    (htr : tr = pre ++ .core (.removed senderId) :: (mid ++ .core (.activeSenders senderIds) :: post))
    (hmem : senderId ∈ senderIds) : Renewed pb expectedProtoHash senderId mid := by
  have hsplit : tr = (pre ++ .core (.removed senderId) :: mid) ++ .core (.activeSenders senderIds) :: post := by
    rw [htr, List.append_assoc, List.cons_append]
  obtain ⟨service₀, _, _, run₀, -, hstep⟩ := run.exists_step_of_alone hsplit fun _ _ _ _ hstep hmem =>
    ((serviceStep_of_step hstep).of_activeSenders hmem).1
  have hinv : RemovalInv pb expectedProtoHash (pre ++ .core (.removed senderId) :: mid) service₀ := by
    refine run₀.invariant ?_ fun tr service action service' es hrun hinv hfresh hstep => ?_
    · intro senderId hmem
      exact absurd hmem (AList.notMem_empty senderId)
    · exact RemovalInv.step hrun hinv (serviceStep_of_step hstep) hfresh
  -- the list of active senders is read from the registry just after `mid`
  have hids := ((serviceStep_of_step hstep).of_activeSenders List.mem_cons_self).2
  rw [hids, SenderRegistry.mem_activeSenders] at hmem
  obtain ⟨u, hu, -⟩ := hmem
  -- an active sender is in the registry
  apply hinv senderId (Dict.mem_iff_exists_lookup.mpr ⟨u, hu⟩)
  exact mem_afterRemovals.mpr ⟨pre, rfl⟩

end Removal

/-! ### Two runs -/

/-- The message for the only active sender. -/
def removalMessage : AssignSession :=
  assignSessionOf tenBlocksDispatcher "00000000000000aa" tenBlocksFile
    (shardAssignment 10 9000 1 1 0) (List.replicate 32 0) "a" 10

def removalProtobuf : Protobuf :=
  .ofTable [(.senderHello 1 [0xaa], helloBytes), (.heartbeat, heartbeatBytes),
    (.assignSession removalMessage, [0x32, 0])]

/-- A peer connects as sender `1`, and the incoming loop processes its hello. -/
def connectActions (connection : ConnectionId) : List ServiceAction :=
  [.accept, .peer connection (.peerSends helloBytes), .peer connection .recv, .process]

def connectTrace (connection : ConnectionId) : List ServiceEvent :=
  [.ipc (.peer connection (.received helloBytes)), .ipc (.peer connection (.handshaken 1)),
    .ipc (.peer connection (.enqueued 1 helloBytes)), .ipc (.taken ⟨connection, 1, helloBytes⟩),
    .core (.handled 1 helloBytes)]

/-- A dispatch up to its list of active senders. -/
def measureActions : List ServiceAction :=
  [.core (.detect tenBlocksFile.path), .core (.statEnds (.ok 10)),
    .core (.hashEnds (.ok tenBlocksFile.fileHash)), .core .resume]

def measureTrace : List ServiceEvent :=
  [.core (.detected tenBlocksFile.path), .core (.statEnded tenBlocksFile.path (.ok 10)),
    .core (.hashEnded tenBlocksFile.path (.ok tenBlocksFile.fileHash))]

/-- The rest of it: the server does not know the sender, which is removed. -/
def removeActions : List ServiceAction :=
  [.core (.generate "00000000000000aa"), .send, .core .resume, .core .resume, .core .resume,
    .core .resume]

def removeTrace : List ServiceEvent :=
  .ipc (.peer 0 .cleanedUp) :: measureTrace ++ [.core (.activeSenders [1]),
    .core (.generated "00000000000000aa"), .ipc (.notSent 1 .unknownSender),
    .core (.sendEnded 1 [0x32, 0] .unknownSender)]

/-- The sender reconnects after its removal. -/
def reconnectedActions : List ServiceAction :=
  connectActions 0 ++ [.peer 0 .peerCloses, .peer 0 .recv] ++ measureActions ++ removeActions ++
    connectActions 1 ++ measureActions

def reconnectedMid : List ServiceEvent :=
  .core (.returned none) :: connectTrace 1 ++ measureTrace

theorem removed_sender_stays_removed_reconnect :
    ∃ service, (Service.machine removalProtobuf tenBlocksDispatcher [0xaa]).Runs
        (connectTrace 0 ++ removeTrace ++ .core (.removed 1) ::
          (reconnectedMid ++ .core (.activeSenders [1]) :: [])) service ∧
      Renewed removalProtobuf [0xaa] 1 reconnectedMid := by
  obtain ⟨service, run, -⟩ := EventMachine.exists_runsUnder_of_map_eq
    (show ((Service.machine removalProtobuf tenBlocksDispatcher [0xaa]).runUnder
        (ProcessesFresh removalProtobuf [0xaa]) []
        (Service.machine removalProtobuf tenBlocksDispatcher [0xaa]).init
        reconnectedActions).map Prod.fst
      = some (connectTrace 0 ++ removeTrace ++ .core (.removed 1) ::
          (reconnectedMid ++ .core (.activeSenders [1]) :: [])) by decide +kernel)
  exact ⟨service, run.runs, removed_sender_stays_removed run rfl (by decide)⟩

/-- A heartbeat of the sender is still queued when its dispatch finds it gone. -/
def staleActions : List ServiceAction :=
  connectActions 0 ++ [.peer 0 (.peerSends heartbeatBytes), .peer 0 .recv, .peer 0 .peerCloses,
    .peer 0 .recv] ++ measureActions ++ removeActions ++ [.process] ++ measureActions

def staleMid : List ServiceEvent :=
  [.core (.returned none), .ipc (.taken ⟨0, 1, heartbeatBytes⟩), .core (.handled 1 heartbeatBytes)] ++
    measureTrace

theorem removed_sender_returns :
    ∃ service, (Service.machine removalProtobuf tenBlocksDispatcher [0xaa]).Runs
        (connectTrace 0 ++ [.ipc (.peer 0 (.received heartbeatBytes)),
          .ipc (.peer 0 (.enqueued 1 heartbeatBytes))] ++ removeTrace ++ .core (.removed 1) ::
          (staleMid ++ .core (.activeSenders [1]) :: [])) service ∧
      ¬ Renewed removalProtobuf [0xaa] 1 staleMid := by
  obtain ⟨service, run, -⟩ := EventMachine.exists_runsUnder_of_map_eq
    (show ((Service.machine removalProtobuf tenBlocksDispatcher [0xaa]).run staleActions).map Prod.fst
      = some (connectTrace 0 ++ [.ipc (.peer 0 (.received heartbeatBytes)),
          .ipc (.peer 0 (.enqueued 1 heartbeatBytes))] ++ removeTrace ++ .core (.removed 1) ::
          (staleMid ++ .core (.activeSenders [1]) :: [])) by decide +kernel)
  exact ⟨service, run, by decide +kernel⟩

end FileMonitor
