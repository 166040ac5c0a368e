import FileMonitor.Config.Equiv.Load

/-!
# What loading raises

`main` turns a `ValueError` or an `OSError` into one line and an exit code, and lets anything else
escape.  Which of these happens is decided by the first thing that is wrong with the document, in the
order in which `load_config` looks at it: first the overrides, then the settings, then the watch path.

* `verdict_overrides` and `verdict_buildConfig`: what each part raises, from what is written.
* `bad_config_is_clean_iff`: nothing escapes exactly if the first thing that is wrong is rejected.
-/

namespace FileMonitor

/-! ### Verdicts -/

/-- What becomes of one thing that is looked at: nothing is wrong with it, or it is rejected by a
`ValueError` or an `OSError`, or the exception escapes. -/
inductive Verdict where
  | fine
  | rejected
  | escapes
deriving DecidableEq

/-- The verdict of the first thing that is wrong. -/
def firstFault : List Verdict → Verdict
  | [] => .fine
  | .fine :: verdicts => firstFault verdicts
  | verdict :: _ => verdict

/-- The verdict of a computation that has been done. -/
def verdictOf {α : Type} : Except LoadError α → Verdict
  | .ok _ => .fine
  | .error e => if e.isConfigError then .rejected else .escapes

theorem firstFault_append (us vs : List Verdict) :
    firstFault (us ++ vs) = if firstFault us = .fine then firstFault vs else firstFault us := by
  induction us with
  | nil => rfl
  | cons u us ih =>
    cases u with
    | fine => exact ih
    | rejected | escapes => rfl

theorem verdictOf_error_ne_fine {α : Type} (e : LoadError) :
    verdictOf (.error e : Except LoadError α) ≠ .fine := by
  show (if e.isConfigError then Verdict.rejected else .escapes) ≠ .fine
  split_ifs <;> exact nofun

/-- **One thing after the other.** -/
theorem verdictOf_bind {α β : Type} {x : Except LoadError α} {f : α → Except LoadError β}
    {us vs : List Verdict} (hx : verdictOf x = firstFault us)
    (hf : ∀ a, x = .ok a → verdictOf (f a) = firstFault vs) :
    verdictOf (x >>= f) = firstFault (us ++ vs) := by
  rw [firstFault_append, ← hx]
  rcases x with e | a
  · rw [if_neg (verdictOf_error_ne_fine e)]
    rfl
  · exact (hf a rfl).trans (if_pos rfl).symm

/-- The same where only what escapes is of interest. -/
theorem verdictOf_bind_eq_escapes_iff {α β : Type} {x : Except LoadError α} {f : α → Except LoadError β}
    {us vs : List Verdict} (hx : verdictOf x = firstFault us)
    (hf : ∀ a, x = .ok a → (verdictOf (f a) = .escapes ↔ firstFault vs = .escapes)) :
    verdictOf (x >>= f) = .escapes ↔ firstFault (us ++ vs) = .escapes := by
  rw [firstFault_append, ← hx]
  rcases x with e | a
  · rw [if_neg (verdictOf_error_ne_fine e)]
    exact Iff.rfl
  · rw [show verdictOf (.ok a : Except LoadError α) = .fine from rfl, if_pos rfl]
    exact hf a rfl

theorem verdictOf_map {α β : Type} (f : α → β) (x : Except LoadError α) :
    verdictOf (x.map f) = verdictOf x := by
  cases x <;> rfl

/-- A list of things. -/
theorem verdictOf_mapM {α β : Type} (f : α → Except LoadError β) (l : List α) :
    verdictOf (l.mapM f) = firstFault (l.map fun a => verdictOf (f a)) := by
  induction l with
  | nil => rfl
  | cons a l ih =>
    rw [List.mapM_cons, List.map_cons]
    have hhead : verdictOf (f a) = firstFault [verdictOf (f a)] := by
      cases verdictOf (f a) <;> rfl
    refine @verdictOf_bind _ _ _ _ [verdictOf (f a)] _ hhead fun b _ => ?_
    exact (verdictOf_map (fun bs => b :: bs) (l.mapM f)).trans ih

/-! ### What is wrong with what is written -/

/-- Whether a section can be assigned to and has a `get`. -/
def sectionIsTable (data : TomlTable) (name : Section) : Bool :=
  match data.lookup name.name with
  | none | some (.table _) => true
  | _ => false

/-- An override is cast, and then assigned to a key of its section. -/
def overrideVerdict (data : TomlTable) (environment : Environment) (setting : Setting) : Verdict :=
  match environment setting.envVarName with
  | none => .fine
  | some text =>
    if setting.castValue = .int ∧ readInt text = none then .rejected
    else if sectionIsTable data setting.sectionName then .fine else .escapes

/-- `int` rejects a text that is no numeral and `nan`; the exceptions for an infinity and for a value
that is no number escape. -/
def intVerdict : TomlValue → Verdict
  | .string text => if readInt text = none then .rejected else .fine
  | .integer _ | .boolean _ | .float (.finite _) => .fine
  | .float .nan => .rejected
  | .float .posInf | .float .negInf | .date .. | .array _ | .table _ => .escapes

/-- A value is converted by the function of its setting. -/
def convertVerdict (world : LoadWorld) (setting : Setting) (value : TomlValue) : Verdict :=
  match setting.castValue with
  | .int => intVerdict value
  | .str => verdictOf (pyStr world.strOf value)

/-- A setting is looked up, with `get` if it has a default, and then converted. -/
def settingVerdict (world : LoadWorld) (data : TomlTable) (environment : Environment)
    (setting : Setting) : Verdict :=
  if setting.default ≠ none ∧ sectionIsTable data setting.sectionName = false then .escapes
  else
    match written data environment setting with
    | none => .rejected
    | some value => convertVerdict world setting value

/-- The watch path is looked at last; `validate_config` rejects whatever else is wrong. -/
def watchPathVerdict (world : LoadWorld) (data : TomlTable) (environment : Environment) : Verdict :=
  match written data environment .watchPath with
  | none => .fine
  | some value =>
    verdictOf (pyStr world.strOf value >>= fun text =>
      world.watchPathKind (resolvePath world.configDir text))

/-- Everything `load_config` looks at, in order. -/
def loadVerdicts (world : LoadWorld) (data : TomlTable) (environment : Environment) : List Verdict :=
  envOverrides.map (overrideVerdict data environment) ++
    (envOverrides.map (settingVerdict world data environment) ++ [watchPathVerdict world data environment])

/-! ### What the code makes of it -/

section

variable {world : LoadWorld} {data : TomlTable} {environment : Environment}
  {sections : SectionData}

theorem isTable_sectionData (data : TomlTable) (name : Section) :
    (sectionData data name).isTable = sectionIsTable data name := by
  unfold sectionData sectionIsTable
  rcases data.lookup name.name with _ | value
  · rfl
  · cases value <;> rfl

theorem verdictOf_pyInt (value : TomlValue) : verdictOf (pyInt value) = intVerdict value := by
  cases value with
  | string text =>
    unfold pyInt intVerdict
    dsimp only
    rcases readInt text with _ | i
    · rfl
    · rfl
  | float f => cases f <;> rfl
  | integer | boolean | date | array | table => rfl

theorem verdictOf_cast (setting : Setting) (text : String) :
    verdictOf (setting.cast text)
      = if setting.castValue = .int ∧ readInt text = none then .rejected else .fine := by
  unfold Setting.cast
  rcases setting.castValue with _ | _
  · rfl
  · dsimp only
    rw [verdictOf_map, verdictOf_pyInt]
    simp only [intVerdict, true_and]

/-- One override. -/
theorem verdictOf_applyOverride {setting : Setting}
    (htable : (sections setting.sectionName).isTable = sectionIsTable data setting.sectionName) :
    verdictOf (applyOverride environment sections setting)
      = firstFault [overrideVerdict data environment setting] := by
  unfold applyOverride overrideVerdict
  rw [← htable]
  rcases environment setting.envVarName with _ | text
  · rfl
  · have hcast : verdictOf (setting.cast text) = firstFault
        [if setting.castValue = .int ∧ readInt text = none then .rejected else .fine] := by
      rw [verdictOf_cast]
      split_ifs <;> rfl
    have hassign (value : TomlValue) :
        verdictOf (setItem (sections setting.sectionName) setting.key value)
          = firstFault [if (sections setting.sectionName).isTable then .fine else .escapes] := by
      cases sections setting.sectionName <;> rfl
    -- the cast comes first, so a text that is no numeral hides a section that is no table
    refine (verdictOf_bind hcast fun value _ =>
      (verdictOf_map _ _).trans (hassign value)).trans ?_
    dsimp only
    split_ifs <;> rfl

/-- **The overrides**, one after the other. -/
theorem verdict_overrides (settings : List Setting)
    (htable : ∀ name, (sections name).isTable = sectionIsTable data name) :
    verdictOf (settings.foldlM (applyOverride environment) sections)
      = firstFault (settings.map (overrideVerdict data environment)) := by
  induction settings generalizing sections with
  | nil => rfl
  | cons first settings ih =>
    rw [List.foldlM_cons, List.map_cons]
    refine @verdictOf_bind _ _ _ _ [overrideVerdict data environment first] _
      (verdictOf_applyOverride (htable _)) fun sections' hfirst => ih fun name => ?_
    rw [(overridden_singleton hfirst).isTable, htable]

theorem verdictOf_convert (setting : Setting) (value : TomlValue) :
    verdictOf (setting.convert world value) = convertVerdict world setting value := by
  unfold Setting.convert convertVerdict
  cases setting with
  | watchPath | socketPath | targetHost | binaryPath => exact verdictOf_map _ _
  | rateCeilingBps | rateFloorBps | k | n | symbolBytes | basePort | senderCount =>
    exact (verdictOf_map _ _).trans (verdictOf_pyInt value)

/-- **The settings**, once the overrides have been made. -/
theorem verdict_loadSetting {sections' : SectionData}
    (hover : Overridden environment envOverrides (sectionData data) sections') (setting : Setting) :
    verdictOf (loadSetting world sections' setting) = settingVerdict world data environment setting := by
  have htable : (sections' setting.sectionName).isTable
      = sectionIsTable data setting.sectionName := by
    rw [hover.isTable, isTable_sectionData]
  unfold settingVerdict
  by_cases hget : setting.default ≠ none ∧ sectionIsTable data setting.sectionName = false
  · -- `get` of what is no table
    rw [if_pos hget]
    obtain ⟨default, hdefault⟩ := Option.ne_none_iff_exists'.mp hget.1
    have hfind : findSetting sections' setting
        = .error (.noGet (sections' setting.sectionName).typeName) := by
      unfold findSetting
      rw [hdefault]
      dsimp only
      rw [getOr_eq, htable, hget.2]
      rfl
    unfold loadSetting
    rw [hfind]
    rfl
  · rw [if_neg hget]
    have hfound {value : TomlValue}
        (h : (valueIn sections' setting).or setting.default = some value) :
        findSetting sections' setting = .ok value := by
      refine findSetting_eq_ok_iff.mpr ⟨h, ?_⟩
      rw [htable]
      by_contra hnot
      rw [not_or, Bool.not_eq_true] at hnot
      exact hget hnot
    have hvalue := hover.valueIn setting
    rw [if_pos (mem_envOverrides setting)] at hvalue
    unfold loadSetting written
    rcases henv : environment setting.envVarName with _ | text
    -- not overridden: what the file has, or the default
    · rw [overrideValue, henv, Option.bind_none, Option.none_or] at hvalue
      rw [Option.map_none, Option.none_or]
      rcases hwritten : (valueIn (sectionData data) setting).or setting.default with _ | value
      · obtain ⟨hnone, hdefault⟩ := Option.or_eq_none_iff.mp hwritten
        unfold findSetting
        rw [hdefault]
        dsimp only
        rw [require_of_entry_eq_none (hvalue.trans hnone)]
        rfl
      · rw [← hvalue] at hwritten
        rw [hfound hwritten]
        exact verdictOf_convert setting value
    -- overridden: the value was cast before, and is only converted again
    · obtain ⟨⟨cast, hcast⟩, -⟩ := hover.cast setting (mem_envOverrides setting) text henv
      rw [overrideValue, henv, Option.bind_some, hcast] at hvalue
      rw [@hfound cast (by rw [hvalue]; rfl)]
      show verdictOf (setting.convert world cast) = convertVerdict world setting (.string text)
      rw [← Setting.convert_cast hcast, verdictOf_convert]

theorem verdict_buildConfig {sections' : SectionData}
    (hover : Overridden environment envOverrides (sectionData data) sections') :
    verdictOf (buildConfig world sections')
      = firstFault (envOverrides.map (settingVerdict world data environment)) := by
  rw [← verdictOf_map (fun config => envOverrides.map config.value), buildConfig_eq, verdictOf_mapM]
  simp only [verdict_loadSetting hover]

/-- The watch path that is looked at is the one that is written. -/
theorem verdict_watchPathKind {sections' : SectionData}
    (hover : Overridden environment envOverrides (sectionData data) sections') {config : AppConfig}
    (hbuild : buildConfig world sections' = .ok config) :
    verdictOf (world.watchPathKind config.paths.watchPath)
      = watchPathVerdict world data environment := by
  obtain ⟨value, hwritten, hconvert⟩ :=
    written_of_loadSetting hover (loadSetting_of_buildConfig hbuild .watchPath)
  unfold watchPathVerdict
  rw [hwritten]
  dsimp only
  have hmap : (pyStr world.strOf value).map
      (fun text => SettingValue.path (resolvePath world.configDir text))
        = .ok (.path config.paths.watchPath) := hconvert
  rcases hstr : pyStr world.strOf value with e | text
  · rw [hstr] at hmap
    cases hmap
  · rw [hstr] at hmap
    rw [← SettingValue.path.inj (Except.ok.inj hmap)]
    rfl

/-- What `validate_config` raises is a `ValueError` or an `OSError`. -/
theorem verdict_validateConfig (kind : WatchPathKind) (config : AppConfig) :
    verdictOf ((validateConfig kind config).mapError LoadError.config >>= fun _ => .ok config)
      ≠ .escapes := by
  rcases validateConfig kind config with e | ⟨⟩ <;> exact nofun

/-- **What escapes from `load_config`** is the first thing that is wrong, if that escapes. -/
theorem verdict_loadConfig_eq_escapes_iff :
    verdictOf (loadConfig world data environment) = .escapes ↔
      firstFault (loadVerdicts world data environment) = .escapes := by
  unfold loadConfig loadVerdicts
  refine verdictOf_bind_eq_escapes_iff (verdict_overrides _ (isTable_sectionData data))
    fun sections' hsections => ?_
  have hover := overridden_of_foldlM hsections
  refine verdictOf_bind_eq_escapes_iff (verdict_buildConfig hover) fun config hbuild => ?_
  have hwatch : verdictOf (world.watchPathKind config.paths.watchPath)
      = firstFault [watchPathVerdict world data environment] := by
    rw [verdict_watchPathKind hover hbuild]
    cases watchPathVerdict world data environment <;> rfl
  rw [← List.append_nil [watchPathVerdict world data environment]]
  refine verdictOf_bind_eq_escapes_iff hwatch fun kind _ => ?_
  exact iff_of_false (verdict_validateConfig kind config) nofun

end

/-- **A bad configuration is a clean error exactly if its first fault is rejected.**  Whatever the
document and the environment, `load_config` returns or raises a `ValueError` or an `OSError` exactly if
the first thing that is wrong is none of these: an override for a section that is no table; a `pacing`
or `senders` that is no table; an integer setting that is an infinite float, a date, an array or a
table; a value or a watch path that is nested too deep. -/
theorem bad_config_is_clean_iff (world : LoadWorld) (data : TomlTable) (environment : Environment) :
    (∀ e, loadConfig world data environment = .error e → e.isConfigError = true) ↔
      firstFault (loadVerdicts world data environment) ≠ .escapes := by
  rw [ne_eq, ← verdict_loadConfig_eq_escapes_iff]
  rcases loadConfig world data environment with e | config
  · show _ ↔ ¬ (if e.isConfigError then Verdict.rejected else .escapes) = .escapes
    constructor
    · intro h
      rw [if_pos (h e rfl)]
      exact nofun
    · rintro h _ ⟨⟩
      by_contra hno
      exact h (if_neg hno)
  · exact iff_of_true nofun nofun

/-- A missing `watch_path` is found before the broken section. -/
example : firstFault (loadVerdicts sampleWorld [("pacing", .integer 5)] fun _ => none) = .rejected := by
  decide +kernel

/-! ### Two documents -/

/-- A document that is fine but for `pacing` and `fec.k`. -/
def brokenDocument (pacing k : TomlValue) : TomlTable :=
  [("paths", .table [("watch_path", .string "./watch"), ("socket_path", .string "./run/s.sock")]),
    ("pacing", pacing),
    ("fec", .table [("k", k), ("n", .integer 255), ("symbol_bytes", .integer 1400)])]

/-- **A section that is a number escapes, and so does an infinite number.** -/
theorem bad_config_escapes :
    loadConfig sampleWorld (brokenDocument (.integer 5) (.integer 200)) (fun _ => none)
        = .error (.noGet "int") ∧
    loadConfig sampleWorld (brokenDocument (.table []) (.float .posInf)) (fun _ => none)
        = .error .infinityToInteger ∧
    LoadError.isConfigError (.noGet "int") = false ∧ LoadError.infinityToInteger.isConfigError = false := by
  refine ⟨?_, ?_, rfl, rfl⟩
  · decide +kernel
  · decide +kernel

end FileMonitor
