import FileMonitor.Adapters.Blake3Hasher
import FileMonitor.Main.Equiv.Core
import FileMonitor.Services.Equiv.Coverage

/-!
# Size and hash of one content

* `sent_manifest_describes_content`: where every write between `stat` and the last read of the hasher
  keeps the length of the file and the bytes already read, an accepted `AssignSession` describes a
  content that the file had during the dispatch.
* `sent_manifest_mixes_contents`: an append in that time makes it describe none.
-/

namespace FileMonitor

open DispatchEffect

/-! ### Contents over time -/

/-- The content of a file after `tr`. -/
def contentAt (files : PosixPath → Bytes) (path : PosixPath) (tr : List WorkspaceEvent) : Bytes :=
  ((tr.filterMap fun
    | .written path' content => if path' = path then some content else none
    | .core _ => none).getLast?).getD (files path)

/-- Since the last detection, which was of `path`, that file has had this content. -/
def HadDuring (files : PosixPath → Bytes) (path : PosixPath) (tr : List WorkspaceEvent)
    (content : Bytes) : Prop :=
  ∃ pre mid post, tr = pre ++ .core (.detected path) :: (mid ++ post) ∧
    (∀ path', .core (.detected path') ∉ mid ++ post) ∧
    contentAt files path (pre ++ .core (.detected path) :: mid) = content

/-- While the hasher is at work on a file, writes to it keep its length and what has been read. -/
def KeepsMeasured (workspace : Workspace) : WorkspaceAction → Prop
  | .write path content => workspace.core.asks = some (computeHash path) →
    content.length = (workspace.files path).length ∧ workspace.fed <+: content
  | _ => True

instance (workspace : Workspace) : DecidablePred (KeepsMeasured workspace) := fun action => by
  unfold KeepsMeasured
  split <;> infer_instance

section

variable {files : PosixPath → Bytes} {path : PosixPath} {tr es : List WorkspaceEvent}

theorem contentAt_append (es : List WorkspaceEvent)
    (h : ∀ content, .written path content ∉ es) :
    contentAt files path (tr ++ es) = contentAt files path tr := by
  have hnone : (es.filterMap fun
      | .written path' content => if path' = path then some content else none
      | .core _ => none) = [] := by
    rw [List.filterMap_eq_nil_iff]
    intro event hmem
    split
    · rename_i path' content
      exact if_neg fun heq : path' = path => h content (heq ▸ hmem)
    · rfl
  unfold contentAt
  rw [List.filterMap_append, hnone, List.append_nil]

theorem contentAt_append_written (content : Bytes) :
    contentAt files path (tr ++ [.written path content]) = content := by
  unfold contentAt
  rw [List.filterMap_append]
  simp

theorem HadDuring.append {content : Bytes} (h : HadDuring files path tr content)
    (hes : ∀ path', .core (.detected path') ∉ es) : HadDuring files path (tr ++ es) content := by
  obtain ⟨pre, mid, post, rfl, hnone, hcontent⟩ := h
  refine ⟨pre, mid, post ++ es, by simp, fun path' hmem => ?_, hcontent⟩
  rw [← List.append_assoc] at hmem
  rcases List.mem_append.mp hmem with hmem | hmem
  · exact hnone path' hmem
  · exact hes path' hmem

/-- The content it has now is one of them. -/
theorem HadDuring.now {content : Bytes} (h : HadDuring files path tr content) :
    HadDuring files path tr (contentAt files path tr) := by
  obtain ⟨pre, mid, post, rfl, hnone, -⟩ := h
  exact ⟨pre, mid ++ post, [], by simp, by simpa using hnone, rfl⟩

theorem HadDuring.detected : HadDuring files path (tr ++ [.core (.detected path)])
    (contentAt files path tr) := by
  refine ⟨tr, [], [], rfl, by simp, ?_⟩
  exact contentAt_append _ (by simp)

end

/-! ### Steps -/

/-- What one step does to the files, the hasher and the two loops, and its events. -/
inductive WorkspaceStep (pb : Protobuf) (dispatcher : SessionDispatcher) (blake3 : Bytes → Bytes)
    (workspace : Workspace) : WorkspaceAction → List WorkspaceEvent → Workspace → Prop where
  | write {path content} :
    WorkspaceStep pb dispatcher blake3 workspace (.write path content) [.written path content]
      { workspace with files := Function.update workspace.files path content }
  | stat {path core es} (asks : workspace.core.asks = some (.stat path))
    (step : CoreStep pb dispatcher workspace.core (.statEnds (.ok (workspace.files path).length))
      es core) :
    WorkspaceStep pb dispatcher blake3 workspace .stat (es.map .core)
      { workspace with fed := [], core := core }
  | read {path count} (asks : workspace.core.asks = some (computeHash path)) :
    WorkspaceStep pb dispatcher blake3 workspace (.read count) []
      { workspace with
        fed := workspace.fed ++ ((workspace.files path).drop workspace.fed.length).take count }
  | hashEnds {path count core es} (asks : workspace.core.asks = some (computeHash path))
    (atEnd : (workspace.files path).length ≤ workspace.fed.length)
    (step : CoreStep pb dispatcher workspace.core
      (.hashEnds (.ok (hexdigest blake3 workspace.fed))) es core) :
    WorkspaceStep pb dispatcher blake3 workspace (.read count) (es.map .core)
      { workspace with core := core }
  | core {action core es} (notStat : ∀ size, action ≠ .statEnds (.ok size))
    (notHash : ∀ hash, action ≠ .hashEnds (.ok hash))
    (step : CoreStep pb dispatcher workspace.core action es core) :
    WorkspaceStep pb dispatcher blake3 workspace (.core action) (es.map .core)
      { workspace with core := core }

section

variable {pb : Protobuf} {dispatcher : SessionDispatcher} {blake3 : Bytes → Bytes}
  {workspace workspace' : Workspace}

theorem exists_of_workspace_stepCore {action : CoreAction} {es : List WorkspaceEvent}
    (h : workspace.stepCore pb dispatcher action = some (workspace', es)) :
    ∃ core events, CoreStep pb dispatcher workspace.core action events core ∧
      workspace' = { workspace with core := core } ∧ es = events.map .core := by
  obtain ⟨⟨core, events⟩, hstep, h⟩ := Option.bind_eq_some_iff.mp h
  obtain ⟨rfl, rfl⟩ := Prod.mk.inj (Option.some.inj h)
  exact ⟨core, events, coreStep_of_step hstep, rfl, rfl⟩

theorem workspaceStep_of_step {action : WorkspaceAction} {es : List WorkspaceEvent}
    (h : workspace.step pb dispatcher blake3 action = some (workspace', es)) :
    WorkspaceStep pb dispatcher blake3 workspace action es workspace' := by
  unfold Workspace.step at h
  split at h
  · obtain ⟨rfl, rfl⟩ := Prod.mk.inj (Option.some.inj h)
    exact .write
  · split at h
    · rename_i path hasks
      obtain ⟨core, events, hstep, rfl, rfl⟩ := exists_of_workspace_stepCore h
      exact .stat hasks hstep
    · cases h
  · split at h
    · rename_i path hasks
      split_ifs at h with hcount
      dsimp only at h
      split_ifs at h with hchunk
      · obtain ⟨core, events, hstep, rfl, rfl⟩ := exists_of_workspace_stepCore h
        refine .hashEnds hasks ?_ hstep
        rcases List.take_eq_nil_iff.mp hchunk with hzero | hdrop
        · omega
        · exact List.drop_eq_nil_iff.mp hdrop
      · obtain ⟨rfl, rfl⟩ := Prod.mk.inj (Option.some.inj h)
        exact .read hasks
    · cases h
  · cases h
  · cases h
  · rename_i coreAction hstat hhash
    obtain ⟨core, events, hstep, rfl, rfl⟩ := exists_of_workspace_stepCore h
    exact .core hstat hhash hstep

/-! ### The invariant -/

variable {files : PosixPath → Bytes} {tr : List WorkspaceEvent}

/-- A dispatch of `path` has its size from the content that the hasher is reading, of which it has read
a prefix; once it has the hash too, both describe one content. -/
structure Measured (blake3 : Bytes → Bytes) (initialFiles : PosixPath → Bytes)
    (tr : List WorkspaceEvent) (workspace : Workspace) (path : PosixPath) (size : Option ℕ)
    (hash : Option String) : Prop where
  current : HadDuring initialFiles path tr (contentAt initialFiles path tr)
  reading : workspace.core.asks = some (computeHash path) →
    size = some (workspace.files path).length ∧ workspace.fed <+: workspace.files path
  measured : ∀ sizeBytes fileHash, size = some sizeBytes → hash = some fileHash →
    ∃ content, HadDuring initialFiles path tr content ∧ content.length = sizeBytes ∧
      hexdigest blake3 content = fileHash

/-- The files are what has been written, and the current dispatch has measured its file. -/
structure WorkspaceInv (pb : Protobuf) (dispatcher : SessionDispatcher) (blake3 : Bytes → Bytes)
    (initialFiles : PosixPath → Bytes) (tr : List WorkspaceEvent) (workspace : Workspace) :
    Prop where
  files : ∀ path, workspace.files path = contentAt initialFiles path tr
  dispatch : ∀ rest sessionId, workspace.core.pipeline = .dispatching rest sessionId →
    ∃ path size hash, DispatchPoint pb dispatcher path size hash sessionId rest ∧
      Measured blake3 initialFiles tr workspace path size hash

theorem WorkspaceInv.pipelinePoint (hinv : WorkspaceInv pb dispatcher blake3 files tr workspace) :
    PipelinePoint pb dispatcher workspace.core.pipeline := by
  intro rest sessionId hpipeline
  obtain ⟨path, size, hash, hpoint, -⟩ := hinv.dispatch rest sessionId hpipeline
  exact ⟨path, size, hash, hpoint⟩

/-- A step of the same dispatch keeps the contents its file has had. -/
theorem Measured.had_append {path : PosixPath} {size : Option ℕ} {hash : Option String}
    (h : Measured blake3 files tr workspace path size hash) {es : List WorkspaceEvent}
    (hes : ∀ path', .core (.detected path') ∉ es) :
    HadDuring files path (tr ++ es) (contentAt files path (tr ++ es)) ∧
      ∀ sizeBytes fileHash, size = some sizeBytes → hash = some fileHash →
        ∃ content, HadDuring files path (tr ++ es) content ∧ content.length = sizeBytes ∧
          hexdigest blake3 content = fileHash := by
  refine ⟨(h.current.append hes).now, fun sizeBytes fileHash hsize hhash => ?_⟩
  obtain ⟨content, hhad, hlength, hdigest⟩ := h.measured sizeBytes fileHash hsize hhash
  exact ⟨content, hhad.append hes, hlength, hdigest⟩

theorem contentAt_append_core (files : PosixPath → Bytes) (path : PosixPath)
    (tr : List WorkspaceEvent) (es : List CoreEvent) :
    contentAt files path (tr ++ es.map .core) = contentAt files path tr :=
  contentAt_append _ (by simp)

theorem notMem_map_core {es : List CoreEvent} (h : ∀ path, .detected path ∉ es) (path : PosixPath) :
    WorkspaceEvent.core (.detected path) ∉ es.map .core := by
  simpa using h path

theorem WorkspaceInv.write (hinv : WorkspaceInv pb dispatcher blake3 files tr workspace)
    {path : PosixPath} {content : Bytes} (hkeeps : KeepsMeasured workspace (.write path content)) :
    WorkspaceInv pb dispatcher blake3 files (tr ++ [.written path content])
      { workspace with files := Function.update workspace.files path content } where
  files := by
    intro path'
    show Function.update workspace.files path content path' = _
    by_cases heq : path' = path
    · rw [heq, Function.update_self, contentAt_append_written]
    · rw [Function.update_of_ne heq, hinv.files, contentAt_append]
      intro content' hmem
      exact heq (WorkspaceEvent.written.inj (List.mem_singleton.mp hmem)).1
  dispatch := by
    intro rest sessionId hpipeline
    obtain ⟨path', size, hash, hpoint, hmeasured⟩ := hinv.dispatch rest sessionId hpipeline
    have hnone (path' : PosixPath) : .core (.detected path') ∉ [WorkspaceEvent.written path content] := by
      simp
    obtain ⟨hcurrent, hdescribed⟩ := hmeasured.had_append hnone
    refine ⟨path', size, hash, hpoint, hcurrent, fun hasks => ?_, hdescribed⟩
    obtain ⟨hsize, hfed⟩ := hmeasured.reading hasks
    by_cases heq : path' = path
    · subst heq
      -- the hasher is at work on this very file
      obtain ⟨hlength, htaken⟩ := hkeeps hasks
      simp only [Function.update_self]
      exact ⟨hlength ▸ hsize, htaken⟩
    · simp only [Function.update_of_ne heq]
      exact ⟨hsize, hfed⟩

/-- The dispatch that waits for an answer is the one that goes on with it. -/
theorem WorkspaceInv.answered (hinv : WorkspaceInv pb dispatcher blake3 files tr workspace)
    {effect : DispatchEffect} (hasks : workspace.core.asks = some effect) {action : CoreAction}
    {core : Core} {es : List CoreEvent} (hstep : CoreStep pb dispatcher workspace.core action es core)
    (hdetect : ∀ path, action ≠ .detect path) {rest' : DispatchCoroutine (Option SessionId)}
    {sessionId' : Option SessionId} (hpipeline' : core.pipeline = .dispatching rest' sessionId') :
    ∃ path size hash sessionId rest,
      DispatchPoint pb dispatcher path size hash sessionId (.ask effect rest) ∧
      Measured blake3 files tr workspace path size hash ∧
      HadDuring files path (tr ++ es.map .core) (contentAt files path (tr ++ es.map .core)) ∧
      DispatchPoint pb dispatcher path (action.sizeAfter size) (action.hashAfter hash) sessionId' rest' := by
  rcases hstep.dispatchPoint hpipeline' with
    ⟨path, h, -⟩ | ⟨rest, sessionId, hpipeline, hnone, hafter⟩
  · exact absurd h (hdetect path)
  · obtain ⟨path, size, hash, hpoint, hmeasured⟩ := hinv.dispatch rest sessionId hpipeline
    obtain ⟨rest₀, sessionId₀, hpipeline₀⟩ := asks_eq_some_iff.mp hasks
    obtain ⟨rfl, rfl⟩ := Pipeline.dispatching.inj (hpipeline₀.symm.trans hpipeline)
    exact ⟨path, size, hash, sessionId₀, rest₀, hpoint, hmeasured,
      (hmeasured.had_append (notMem_map_core hnone)).1, hafter path size hash hpoint⟩

theorem WorkspaceInv.stat (hinv : WorkspaceInv pb dispatcher blake3 files tr workspace)
    {path : PosixPath} {core : Core} {es : List CoreEvent}
    (hasks : workspace.core.asks = some (.stat path))
    (hstep : CoreStep pb dispatcher workspace.core (.statEnds (.ok (workspace.files path).length))
      es core) :
    WorkspaceInv pb dispatcher blake3 files (tr ++ es.map .core)
      { workspace with fed := [], core := core } where
  files path' := by rw [contentAt_append_core, hinv.files path']
  dispatch := by
    intro rest' sessionId' hpipeline'
    obtain ⟨path', size, hash, sessionId, rest, hpoint, -, hcurrent, hafter⟩ :=
      hinv.answered hasks hstep nofun hpipeline'
    obtain ⟨rfl, -⟩ := hpoint.ask_stat
    refine ⟨path, _, _, hafter, hcurrent, fun _ => ⟨rfl, List.nil_prefix⟩, ?_⟩
    intro sizeBytes fileHash _ hhash
    cases hhash

theorem WorkspaceInv.read (hinv : WorkspaceInv pb dispatcher blake3 files tr workspace)
    {path : PosixPath} {count : ℕ} (hasks : workspace.core.asks = some (computeHash path)) :
    WorkspaceInv pb dispatcher blake3 files (tr ++ [])
      { workspace with
        fed := workspace.fed ++ ((workspace.files path).drop workspace.fed.length).take count } where
  files path' := by rw [List.append_nil, hinv.files path']
  dispatch := by
    intro rest sessionId hpipeline
    rw [List.append_nil]
    obtain ⟨path', size, hash, hpoint, hmeasured⟩ := hinv.dispatch rest sessionId hpipeline
    obtain ⟨rest₀, sessionId₀, hpipeline₀⟩ := asks_eq_some_iff.mp hasks
    obtain ⟨rfl, rfl⟩ := Pipeline.dispatching.inj (hpipeline₀.symm.trans hpipeline)
    obtain ⟨rfl, -⟩ := hpoint.ask_computeHash
    obtain ⟨hsize, unread, hunread⟩ := hmeasured.reading hasks
    refine ⟨path, size, hash, hpoint, hmeasured.current, fun _ => ⟨hsize, ?_⟩, hmeasured.measured⟩
    show workspace.fed ++ List.take count _ <+: workspace.files path
    -- what is read next follows what has been read
    rw [← hunread, List.drop_left]
    exact (List.prefix_append_right_inj _).mpr (List.take_prefix count unread)

theorem WorkspaceInv.hashEnds (hinv : WorkspaceInv pb dispatcher blake3 files tr workspace)
    {path : PosixPath} {core : Core} {es : List CoreEvent}
    (hasks : workspace.core.asks = some (computeHash path))
    (hend : (workspace.files path).length ≤ workspace.fed.length)
    (hstep : CoreStep pb dispatcher workspace.core
      (.hashEnds (.ok (hexdigest blake3 workspace.fed))) es core) :
    WorkspaceInv pb dispatcher blake3 files (tr ++ es.map .core) { workspace with core := core } where
  files path' := by rw [contentAt_append_core, hinv.files path']
  dispatch := by
    intro rest' sessionId' hpipeline'
    obtain ⟨path', size, hash, sessionId, rest, hpoint, hmeasured, hcurrent, hafter⟩ :=
      hinv.answered hasks hstep nofun hpipeline'
    obtain ⟨rfl, -⟩ := hpoint.ask_computeHash
    obtain ⟨hsize, hfed⟩ := hmeasured.reading hasks
    refine ⟨path, _, _, hafter, hcurrent, fun hreading => ?_, ?_⟩
    · rcases hstep.asks_computeHash hinv.pipelinePoint hreading with ⟨_, h⟩ | ⟨-, -, h⟩
      · cases h
      · exact absurd rfl (h _)
    · intro sizeBytes fileHash hsize' hhash
      -- all of the content that the file has now has been read
      have hcontent : workspace.fed = contentAt files path (tr ++ es.map .core) := by
        rw [contentAt_append_core, ← hinv.files]
        exact hfed.eq_of_length_le hend
      refine ⟨_, hcurrent, ?_, ?_⟩
      · rw [contentAt_append_core, ← hinv.files]
        exact Option.some.inj (hsize.symm.trans hsize')
      · rw [← hcontent]
        exact Option.some.inj hhash

theorem WorkspaceInv.core (hinv : WorkspaceInv pb dispatcher blake3 files tr workspace)
    {action : CoreAction} {core : Core} {es : List CoreEvent}
    (hstat : ∀ size, action ≠ .statEnds (.ok size)) (hhash : ∀ hash, action ≠ .hashEnds (.ok hash))
    (hstep : CoreStep pb dispatcher workspace.core action es core) :
    WorkspaceInv pb dispatcher blake3 files (tr ++ es.map .core) { workspace with core := core } where
  files path' := by rw [contentAt_append_core, hinv.files path']
  dispatch := by
    intro rest' sessionId' hpipeline'
    rcases hstep.dispatchPoint hpipeline' with ⟨path, rfl, rfl, rfl, rfl⟩ |
      ⟨rest, sessionId, hpipeline, hnone, hafter⟩
    · have hdetected : HadDuring files path (tr ++ [.core (.detected path)]) (contentAt files path tr) :=
        .detected
      refine ⟨path, none, none, .dispatch path, hdetected.now, fun hasks => ?_, nofun⟩
      obtain ⟨_, _, h⟩ := asks_eq_some_iff.mp hasks
      cases (Pipeline.dispatching.inj (h.symm.trans hpipeline')).1
    · obtain ⟨path, size, hash, hpoint, hmeasured⟩ := hinv.dispatch rest sessionId hpipeline
      obtain ⟨hcurrent, hdescribed⟩ := hmeasured.had_append (notMem_map_core hnone)
      refine ⟨path, _, _, hafter _ _ _ hpoint, hcurrent, fun hreading => ?_, ?_⟩
      · rcases hstep.asks_computeHash hinv.pipelinePoint hreading with ⟨size, h⟩ | ⟨hasks, hne, -⟩
        · exact absurd h (hstat size)
        · rw [CoreAction.sizeAfter_of_ne hne]
          exact hmeasured.reading hasks
      · intro sizeBytes fileHash hsize' hhash'
        -- a hash is left only where the action is not an error of `stat` or of the hasher
        have hnoStat (result : Except String ℕ) : action ≠ .statEnds result := by
          rintro rfl
          cases hhash'
        have hnoHash (result : Except String String) : action ≠ .hashEnds result := by
          rintro rfl
          rcases result with reason | hash
          · cases hhash'
          · exact hhash hash rfl
        rw [CoreAction.sizeAfter_of_ne hnoStat] at hsize'
        rw [CoreAction.hashAfter_of_ne hnoStat hnoHash] at hhash'
        exact hdescribed sizeBytes fileHash hsize' hhash'

theorem WorkspaceInv.of_runs
    (run : (Workspace.machine pb dispatcher blake3 files).RunsUnder
      (fun _ workspace action => KeepsMeasured workspace action) tr workspace) :
    WorkspaceInv pb dispatcher blake3 files tr workspace := by
  refine run.invariant ⟨fun _ => rfl, nofun⟩ fun tr workspace action workspace' es _ hinv hkeeps h => ?_
  cases workspaceStep_of_step h with
  | write => exact hinv.write hkeeps
  | stat hasks hstep => exact hinv.stat hasks hstep
  | read hasks => exact hinv.read hasks
  | hashEnds hasks hend hstep => exact hinv.hashEnds hasks hend hstep
  | core hstat hhash hstep => exact hinv.core hstat hhash hstep

/-! ### What is sent -/

theorem CoreStep.of_sendEnded {core core' : Core} {action : CoreAction} {es : List CoreEvent}
    (step : CoreStep pb dispatcher core action es core') {senderId : SenderId} {payload : Bytes}
    {outcome : SendOutcome} (h : .sendEnded senderId payload outcome ∈ es) :
    es = [.sendEnded senderId payload outcome] ∧ core.asks = some (.send senderId payload) := by
  cases step with
  | send hpipeline =>
    obtain ⟨rfl, rfl, rfl⟩ := CoreEvent.sendEnded.inj (List.mem_singleton.mp h)
    exact ⟨rfl, asks_eq_some_iff.mpr ⟨_, _, hpipeline⟩⟩
  | _ => simp at h

theorem WorkspaceStep.of_sendEnded {action : WorkspaceAction} {es : List WorkspaceEvent}
    (step : WorkspaceStep pb dispatcher blake3 workspace action es workspace') {senderId : SenderId}
    {payload : Bytes} {outcome : SendOutcome}
    (h : .core (.sendEnded senderId payload outcome) ∈ es) :
    es = [.core (.sendEnded senderId payload outcome)] ∧
      workspace.core.asks = some (.send senderId payload) := by
  have hmap {core : Core} {coreAction : CoreAction} {events : List CoreEvent}
      (hstep : CoreStep pb dispatcher workspace.core coreAction events core)
      (h : .core (.sendEnded senderId payload outcome) ∈ events.map WorkspaceEvent.core) :
      events.map WorkspaceEvent.core = [.core (.sendEnded senderId payload outcome)] ∧
        workspace.core.asks = some (.send senderId payload) := by
    obtain ⟨rfl, hasks⟩ := hstep.of_sendEnded (by simpa using h)
    exact ⟨rfl, hasks⟩
  cases step with
  | write => simp at h
  | read => cases h
  | stat _ hstep => exact hmap hstep h
  | hashEnds _ _ hstep => exact hmap hstep h
  | core _ _ hstep => exact hmap hstep h

/-- The manifest in a payload has the size and the digest of the file it was built from. -/
theorem manifest_of_buildPayload (lawful : pb.Lawful) {sessionId : SessionId} {path : PosixPath}
    {size : ℕ} {fed : Bytes} {assignment : ShardAssignment} {payload : Bytes}
    {assignSession : AssignSession}
    (h : dispatcher.buildPayload pb sessionId ⟨path, size, hexdigest blake3 fed⟩ assignment = .ok payload)
    (hdecode : decode pb payload = .ok (.assignSession assignSession)) :
    assignSession.manifest.fileSize = size ∧ assignSession.manifest.fileHash = blake3 fed := by
  obtain ⟨fileHashBytes, filepath, totalBlocks, hhash, -, -, hencode⟩ := encode_of_buildPayload h
  rw [decode_encode lawful hencode] at hdecode
  obtain rfl := Message.assignSession.inj (Except.ok.inj hdecode)
  refine ⟨rfl, ?_⟩
  show fileHashBytes = blake3 fed
  unfold checkFileHash at hhash
  split_ifs at hhash
  rw [hexdigest, String.toList_ofList, Hex.decode_encode] at hhash
  exact (Except.ok.inj hhash).symm

/-- **Size and hash of one content**: in every run in which, while the hasher is at work, writes to its
file keep the length and the bytes already read, each `AssignSession` that the server has accepted
describes a content that the file had at some moment since the dispatch began. -/
theorem sent_manifest_describes_content (lawful : pb.Lawful)
    (run : (Workspace.machine pb dispatcher blake3 files).RunsUnder
      (fun _ workspace action => KeepsMeasured workspace action) tr workspace)
    {pre post : List WorkspaceEvent} {senderId : SenderId} {payload : Bytes}
    {assignSession : AssignSession}
    (htr : tr = pre ++ .core (.sendEnded senderId payload .accepted) :: post)
    (hdecode : decode pb payload = .ok (.assignSession assignSession)) :
    ∃ path content, HadDuring files path pre content ∧
      assignSession.manifest.fileSize = content.length ∧
      assignSession.manifest.fileHash = blake3 content := by
  obtain ⟨workspace₀, _, _, run₀, -, hstep⟩ := run.exists_step_of_alone htr fun _ _ _ _ hstep hmem =>
    ((workspaceStep_of_step hstep).of_sendEnded hmem).1
  have hasks := ((workspaceStep_of_step hstep).of_sendEnded List.mem_cons_self).2
  obtain ⟨rest, sessionId, hpipeline⟩ := asks_eq_some_iff.mp hasks
  obtain ⟨path, size, hash, hpoint, hmeasured⟩ := (WorkspaceInv.of_runs run₀).dispatch _ _ hpipeline
  obtain ⟨⟨sizeBytes, fileHash, currentId, assignment, rfl, rfl, rfl, hbuild, -⟩, -⟩ := hpoint.ask_send
  obtain ⟨content, hhad, rfl, rfl⟩ := hmeasured.measured sizeBytes fileHash rfl rfl
  obtain ⟨hsize, hdigest⟩ := manifest_of_buildPayload lawful hbuild hdecode
  exact ⟨path, content, hhad, hsize, hdigest⟩

end

/-! ### Two runs -/

/-- The BLAKE3 digests of three contents, the only ones hashed below. -/
def knownBlake3 (fed : Bytes) : Bytes :=
  if fed = [1] then
    [0x48, 0xfc, 0x72, 0x1f, 0xbb, 0xc1, 0x72, 0xe0, 0x92, 0x5f, 0xa2, 0x7a, 0xf1, 0x67, 0x1d, 0xe2,
      0x25, 0xba, 0x92, 0x71, 0x34, 0x80, 0x29, 0x98, 0xb1, 0x0a, 0x15, 0x68, 0xa1, 0x88, 0x65, 0x2b]
  else if fed = [2] then
    [0xab, 0x13, 0xbe, 0xdf, 0x42, 0xe8, 0x4b, 0xae, 0x0f, 0x7c, 0x62, 0xc7, 0xdd, 0x6a, 0x8a, 0xda,
      0x57, 0x1e, 0x88, 0x29, 0xbe, 0xd6, 0xea, 0x55, 0x82, 0x17, 0xf0, 0x36, 0x1b, 0x5e, 0x25, 0xd0]
  else if fed = [1, 2] then
    [0xb7, 0xd7, 0x70, 0x04, 0x0f, 0x78, 0x0e, 0x9d, 0xef, 0xf6, 0xbc, 0x03, 0x8a, 0xbe, 0xa6, 0x6e,
      0x10, 0x8b, 0x88, 0xd0, 0x98, 0xd1, 0x6d, 0x24, 0xcd, 0x74, 0x86, 0xeb, 0x67, 0x10, 0x60, 0xb2]
  else []

/-- The assignment of a file of one byte to sender `3`, with the digest of `fed`. -/
def oneByteMessage (fed : Bytes) : AssignSession :=
  assignSessionOf tenBlocksDispatcher "00000000000000aa" ⟨tenBlocksFile.path, 1, hexdigest knownBlake3 fed⟩
    (shardAssignment 1 9000 1 3 0) (knownBlake3 fed) "a" 1

def oneByteProtobuf : Protobuf :=
  .ofTable [(.heartbeat, heartbeatBytes), (.assignSession (oneByteMessage [2]), [0x32, 0]),
    (.assignSession (oneByteMessage [1, 2]), [0x32, 1])]

theorem oneByteProtobuf_lawful : oneByteProtobuf.Lawful := Protobuf.ofTable_lawful (by decide)

/-- The file is written once while it is measured. -/
def measuredActions (content : Bytes) : List WorkspaceAction :=
  [.core (.incoming 3 heartbeatBytes), .core (.detect tenBlocksFile.path), .stat,
    .write tenBlocksFile.path content, .read chunkSize, .read chunkSize, .core .resume,
    .core (.generate "00000000000000aa"), .core (.sendEnds .accepted)]

def measuredTrace (content : Bytes) : List WorkspaceEvent :=
  [.core (.handled 3 heartbeatBytes), .core (.detected tenBlocksFile.path),
    .core (.statEnded tenBlocksFile.path (.ok 1)), .written tenBlocksFile.path content,
    .core (.hashEnded tenBlocksFile.path (.ok (hexdigest knownBlake3 content))), .core (.activeSenders [3]),
    .core (.generated "00000000000000aa")]

theorem sent_manifest_describes_content_rewritten :
    ∃ workspace, (Workspace.machine oneByteProtobuf tenBlocksDispatcher knownBlake3 fun _ => [1]).Runs
        (measuredTrace [2] ++ [.core (.sendEnded 3 [0x32, 0] .accepted)]) workspace ∧
      ∃ path content, HadDuring (fun _ => [1]) path (measuredTrace [2]) content ∧
        (oneByteMessage [2]).manifest.fileSize = content.length ∧
        (oneByteMessage [2]).manifest.fileHash = knownBlake3 content := by
  obtain ⟨workspace, run, -⟩ := EventMachine.exists_runsUnder_of_map_eq
    (show ((Workspace.machine oneByteProtobuf tenBlocksDispatcher knownBlake3 fun _ => [1]).runUnder
        (fun _ workspace action => KeepsMeasured workspace action) []
        (Workspace.machine oneByteProtobuf tenBlocksDispatcher knownBlake3 fun _ => [1]).init
        (measuredActions [2])).map Prod.fst
      = some (measuredTrace [2] ++ [.core (.sendEnded 3 [0x32, 0] .accepted)]) by decide +kernel)
  exact ⟨workspace, run.runs, sent_manifest_describes_content oneByteProtobuf_lawful run rfl
    (by decide +kernel)⟩

/-- A content that a file has had is its first one, or was written. -/
theorem HadDuring.eq_or_written {files : PosixPath → Bytes} {path : PosixPath}
    {tr : List WorkspaceEvent} {content : Bytes} (h : HadDuring files path tr content) :
    content = files path ∨ .written path content ∈ tr := by
  obtain ⟨pre, mid, post, rfl, -, rfl⟩ := h
  unfold contentAt
  rcases hlast : (List.filterMap _ (pre ++ .core (.detected path) :: mid)).getLast? with _ | content
  · exact .inl rfl
  · obtain ⟨event, hmem, hevent⟩ := List.mem_filterMap.mp (List.mem_of_getLast? hlast)
    right
    split at hevent
    · split_ifs at hevent with heq
      obtain rfl := Option.some.inj hevent
      rw [heq] at hmem
      show WorkspaceEvent.written path _ ∈ _
      rw [← List.cons_append, ← List.append_assoc]
      exact List.mem_append_left _ hmem
    · cases hevent

/-- The file grows by one byte between `stat` and the first read. -/
theorem sent_manifest_mixes_contents :
    oneByteProtobuf.Lawful ∧
    decode oneByteProtobuf [0x32, 1] = .ok (.assignSession (oneByteMessage [1, 2])) ∧
    (∃ workspace, (Workspace.machine oneByteProtobuf tenBlocksDispatcher knownBlake3 fun _ => [1]).Runs
      (measuredTrace [1, 2] ++ [.core (.sendEnded 3 [0x32, 1] .accepted)]) workspace) ∧
    ¬ ∃ path content, HadDuring (fun _ => [1]) path (measuredTrace [1, 2]) content ∧
      (oneByteMessage [1, 2]).manifest.fileSize = content.length ∧
      (oneByteMessage [1, 2]).manifest.fileHash = knownBlake3 content := by
  refine ⟨oneByteProtobuf_lawful, by decide +kernel, ?_, ?_⟩
  · obtain ⟨workspace, run, -⟩ := EventMachine.exists_runsUnder_of_map_eq
      (show ((Workspace.machine oneByteProtobuf tenBlocksDispatcher knownBlake3 fun _ => [1]).run
          (measuredActions [1, 2])).map Prod.fst
        = some (measuredTrace [1, 2] ++ [.core (.sendEnded 3 [0x32, 1] .accepted)]) by decide +kernel)
    exact ⟨workspace, run⟩
  · rintro ⟨path, content, hhad, hsize, hhash⟩
    rcases hhad.eq_or_written with rfl | hwritten
    · revert hhash
      decide +kernel
    · obtain ⟨-, rfl⟩ : path = tenBlocksFile.path ∧ content = [1, 2] := by
        simpa [measuredTrace] using hwritten
      cases hsize

end FileMonitor
