import FileMonitor.Config.Load
import FileMonitor.Domain.Models

/-!
# What the settings are written as

A setting is written in the environment, in the file, or as a default, and the first of these counts:
`written`.

* `overridden_of_foldlM`: after the overrides the sections have exactly these values, cast.
* `loaded_of_loadConfig`: a configuration that is loaded has, in each field, what the setting is written
  as, converted.
-/

namespace FileMonitor

/-! ### Written values -/

/-- Whether a value is a table. -/
def TomlValue.isTable : TomlValue → Bool
  | .table _ => true
  | _ => false

/-- The entry of a value for a key, if it is a table with this key. -/
def TomlValue.entry (value : TomlValue) (key : String) : Option TomlValue :=
  match value with
  | .table entries => entries.lookup key
  | _ => none

/-- What the sections say about a setting. -/
def valueIn (sections : SectionData) (setting : Setting) : Option TomlValue :=
  (sections setting.sectionName).entry setting.key

/-- The default of a setting, if it has one. -/
def Setting.default : Setting → Option TomlValue
  | .rateCeilingBps => some (.integer defaultRateCeilingBps)
  | .rateFloorBps => some (.integer defaultRateFloorBps)
  | .targetHost => some (.string defaultTargetHost)
  | .basePort => some (.integer defaultBasePort)
  | .binaryPath => some (.string defaultSenderBinaryPath)
  | .senderCount => some (.integer defaultSenderCount)
  | .watchPath | .socketPath | .k | .n | .symbolBytes => none

/-- The value of a setting as it is written in the source that counts. -/
def written (data : TomlTable) (environment : Environment) (setting : Setting) : Option TomlValue :=
  ((environment setting.envVarName).map TomlValue.string).or
    ((valueIn (sectionData data) setting).or setting.default)

/-! ### The overrides -/

theorem mem_envOverrides (setting : Setting) : setting ∈ envOverrides := by
  cases setting <;> decide

theorem Setting.key_injective : Function.Injective Setting.key := by
  have hkeys : ∀ s ∈ envOverrides, ∀ s' ∈ envOverrides, s.key = s'.key → s = s' := by decide +kernel
  exact fun s s' => hkeys s (mem_envOverrides s) s' (mem_envOverrides s')

theorem lookup_filter_ne {key key' : String} (h : key' ≠ key) (table : TomlTable) :
    (table.filter fun entry => entry.1 ≠ key).lookup key' = table.lookup key' := by
  induction table with
  | nil => rfl
  | cons entry table ih =>
    by_cases hentry : entry.1 = key
    · rw [List.filter_cons_of_neg (by simpa using hentry), List.lookup_cons,
        beq_false_of_ne (fun heq => h (heq.trans hentry))]
      exact ih
    · rw [List.filter_cons_of_pos (by simpa using hentry), List.lookup_cons, List.lookup_cons, ih]

theorem TomlTable.lookup_set (table : TomlTable) (key key' : String) (value : TomlValue) :
    (TomlTable.set table key value).lookup key'
      = if key' = key then some value else table.lookup key' := by
  unfold TomlTable.set
  rw [List.lookup_cons]
  by_cases h : key' = key
  · rw [if_pos h, beq_iff_eq.mpr h]
  · rw [if_neg h, beq_false_of_ne h]
    exact lookup_filter_ne h table

/-- The value an override puts in place of that of the file. -/
def overrideValue (environment : Environment) (setting : Setting) : Option TomlValue :=
  (environment setting.envVarName).bind fun text => (setting.cast text).toOption

section

variable {environment : Environment} {sections sections' : SectionData}

theorem setItem_eq_ok {mapping mapping' value : TomlValue} {key : String}
    (h : setItem mapping key value = .ok mapping') :
    ∃ entries, mapping = .table entries ∧ mapping' = .table (TomlTable.set entries key value) := by
  cases mapping with
  | table entries => exact ⟨entries, rfl, (Except.ok.inj h).symm⟩
  | string | integer | float | boolean | date | array => cases h

/-- What one override does where it does not raise. -/
theorem applyOverride_eq_ok {setting : Setting}
    (h : applyOverride environment sections setting = .ok sections') :
    (environment setting.envVarName = none ∧ sections' = sections) ∨
    ∃ text value entries, environment setting.envVarName = some text ∧
      setting.cast text = .ok value ∧ sections setting.sectionName = .table entries ∧
      sections' = Function.update sections setting.sectionName
        (.table (TomlTable.set entries setting.key value)) := by
  unfold applyOverride at h
  rcases henv : environment setting.envVarName with _ | text
  · rw [henv] at h
    exact .inl ⟨rfl, (Except.ok.inj h).symm⟩
  · rw [henv] at h
    obtain ⟨value, hcast, h⟩ := bind_eq_ok_iff.mp h
    obtain ⟨mapping, hset, h⟩ := bind_eq_ok_iff.mp h
    obtain rfl := Except.ok.inj h
    obtain ⟨entries, htable, rfl⟩ := setItem_eq_ok hset
    exact .inr ⟨text, value, entries, rfl, hcast, htable, rfl⟩

/-- What the overrides of these settings do to the sections: tables stay tables, the overridden settings
have the values cast, and the others what they had. -/
structure Overridden (environment : Environment) (settings : List Setting)
    (sections sections' : SectionData) : Prop where
  isTable : ∀ name, (sections' name).isTable = (sections name).isTable
  valueIn : ∀ setting, valueIn sections' setting
    = if setting ∈ settings then (overrideValue environment setting).or (valueIn sections setting)
      else valueIn sections setting
  cast : ∀ setting ∈ settings, ∀ text, environment setting.envVarName = some text →
    (∃ value, setting.cast text = .ok value) ∧ (sections setting.sectionName).isTable = true

/-- **One override** changes its own setting alone. -/
theorem overridden_singleton {setting : Setting}
    (h : applyOverride environment sections setting = .ok sections') :
    Overridden environment [setting] sections sections' := by
  rcases applyOverride_eq_ok h with ⟨henv, rfl⟩ | ⟨text, value, entries, henv, hcast, htable, rfl⟩
  · refine ⟨fun _ => rfl, fun other => ?_, fun other hother text htext => ?_⟩
    · by_cases hmem : other ∈ [setting]
      · rw [if_pos hmem, List.mem_singleton.mp hmem, overrideValue, henv]
        rfl
      · rw [if_neg hmem]
    · rw [List.mem_singleton.mp hother, henv] at htext
      cases htext
  · refine ⟨fun name => ?_, fun other => ?_, fun other hother text' htext => ?_⟩
    · by_cases hname : name = setting.sectionName
      · rw [hname, Function.update_self, htable]
        rfl
      · rw [Function.update_of_ne hname]
    · unfold FileMonitor.valueIn
      by_cases hname : other.sectionName = setting.sectionName
      · rw [hname, Function.update_self, htable]
        show (TomlTable.set entries setting.key value).lookup other.key = _
        rw [TomlTable.lookup_set]
        -- settings with one key are one setting
        by_cases heq : other = setting
        · rw [if_pos (congrArg _ heq), if_pos (List.mem_singleton.mpr heq), heq, overrideValue, henv,
            Option.bind_some, hcast]
          rfl
        · rw [if_neg (fun hkey => heq (Setting.key_injective hkey)),
            if_neg (fun hmem => heq (List.mem_singleton.mp hmem))]
          rfl
      · rw [Function.update_of_ne hname,
          if_neg (fun hmem => hname (congrArg _ (List.mem_singleton.mp hmem)))]
    · obtain rfl := List.mem_singleton.mp hother
      rw [henv, Option.some.injEq] at htext
      subst htext
      exact ⟨⟨value, hcast⟩, by rw [htable]; rfl⟩

/-- **All overrides.** -/
theorem overridden_of_foldlM {settings : List Setting}
    (h : settings.foldlM (applyOverride environment) sections = .ok sections') :
    Overridden environment settings sections sections' := by
  induction settings generalizing sections with
  | nil =>
    obtain rfl := Except.ok.inj h
    exact ⟨fun _ => rfl, fun setting => (if_neg List.not_mem_nil).symm, nofun⟩
  | cons first settings ih =>
    rw [List.foldlM_cons] at h
    obtain ⟨sections₁, hfirst, h⟩ := bind_eq_ok_iff.mp h
    have hone := overridden_singleton hfirst
    have hrest := ih h
    refine ⟨fun name => (hrest.isTable name).trans (hone.isTable name), fun setting => ?_, ?_⟩
    · rw [hrest.valueIn, hone.valueIn]
      by_cases hmem : setting ∈ settings
      · by_cases heq : setting = first
        · subst heq
          simp only [hmem, if_true, List.mem_cons, true_or, ← Option.or_assoc, Option.or_self]
        · simp only [hmem, heq, if_true, if_false, List.mem_cons, or_true, List.not_mem_nil, or_self]
      · simp only [hmem, if_false, List.mem_cons, or_false, List.not_mem_nil]
    · intro setting hmem text henv
      rcases List.mem_cons.mp hmem with rfl | hmem
      · exact hone.cast setting (List.mem_singleton_self _) text henv
      · obtain ⟨hcast, htable⟩ := hrest.cast setting hmem text henv
        exact ⟨hcast, (hone.isTable _).symm.trans htable⟩

end

/-! ### The settings of a configuration -/

/-- A setting as a configuration has it. -/
inductive SettingValue where
  | int (value : ℤ)
  | text (value : String)
  | path (value : PosixPath)
deriving DecidableEq

/-- The field for a setting. -/
def AppConfig.value (config : AppConfig) : Setting → SettingValue
  | .watchPath => .path config.paths.watchPath
  | .socketPath => .path config.paths.socketPath
  | .rateCeilingBps => .int config.pacing.rateCeilingBps
  | .rateFloorBps => .int config.pacing.rateFloorBps
  | .k => .int config.fec.k
  | .n => .int config.fec.n
  | .symbolBytes => .int config.fec.symbolBytes
  | .targetHost => .text config.senders.targetHost
  | .basePort => .int config.senders.basePort
  | .binaryPath => .text config.senders.binaryPath
  | .senderCount => .int config.senders.senderCount

/-- What is made of the value of a setting. -/
def Setting.convert (world : LoadWorld) (setting : Setting) (value : TomlValue) :
    Except LoadError SettingValue :=
  match setting with
  | .watchPath | .socketPath =>
    (pyStr world.strOf value).map fun text => .path (resolvePath world.configDir text)
  | .targetHost => (pyStr world.strOf value).map .text
  | .binaryPath => (pyStr world.strOf value).map fun text => .text (resolvePath world.configDir text).str
  | .rateCeilingBps | .rateFloorBps | .k | .n | .symbolBytes | .basePort | .senderCount =>
    (pyInt value).map .int

/-- The value of a setting in the sections, where `load_config` looks for it. -/
def findSetting (sections : SectionData) (setting : Setting) : Except LoadError TomlValue :=
  match setting.default with
  | none => require (sections setting.sectionName) [setting.key]
  | some default => getOr (sections setting.sectionName) setting.key default

/-- Find a setting and convert it. -/
def loadSetting (world : LoadWorld) (sections : SectionData) (setting : Setting) :
    Except LoadError SettingValue :=
  findSetting sections setting >>= setting.convert world

section

variable {world : LoadWorld} {data : TomlTable} {environment : Environment}
  {sections : SectionData} {setting : Setting}

/-- One setting, on both sides. -/
theorem map_bind_bind_eq {α β γ δ : Type} {x : Except LoadError α} {f : α → Except LoadError β}
    {wrap : β → γ} {k : β → Except LoadError AppConfig} {F : AppConfig → δ}
    {G : γ → Except LoadError δ} (h : ∀ b, (k b).map F = G (wrap b)) :
    (x >>= fun a => f a >>= k).map F = (x >>= fun a => (f a).map wrap) >>= G := by
  rcases x with e | a
  · rfl
  · show (f a >>= k).map F = (f a).map wrap >>= G
    rcases f a with e | b
    · rfl
    · exact h b

/-- **The configuration is built from its settings**, in the order of `ENV_OVERRIDES`. -/
theorem buildConfig_eq (world : LoadWorld) (sections : SectionData) :
    (buildConfig world sections).map (fun config => envOverrides.map config.value)
      = envOverrides.mapM (loadSetting world sections) := by
  rw [show envOverrides = [_, _, _, _, _, _, _, _, _, _, _] from rfl]
  unfold buildConfig
  simp only [List.mapM_cons, List.mapM_nil, bind_assoc, pure_bind]
  refine map_bind_bind_eq fun watchPath => ?_
  refine map_bind_bind_eq fun socketPath => ?_
  refine map_bind_bind_eq fun rateCeilingBps => ?_
  refine map_bind_bind_eq fun rateFloorBps => ?_
  refine map_bind_bind_eq fun k => ?_
  refine map_bind_bind_eq fun n => ?_
  refine map_bind_bind_eq fun symbolBytes => ?_
  refine map_bind_bind_eq fun targetHost => ?_
  refine map_bind_bind_eq fun basePort => ?_
  refine map_bind_bind_eq fun binaryPath => ?_
  refine map_bind_bind_eq fun senderCount => ?_
  rfl

theorem eq_ok_of_mapM_eq_ok {α β ε : Type} {f : α → Except ε β} {g : α → β} {l : List α}
    (h : l.mapM f = .ok (l.map g)) : ∀ a ∈ l, f a = .ok (g a) := by
  induction l with
  | nil => exact nofun
  | cons a l ih =>
    rw [List.mapM_cons] at h
    obtain ⟨b, hb, h⟩ := bind_eq_ok_iff.mp h
    obtain ⟨bs, hbs, h⟩ := bind_eq_ok_iff.mp h
    obtain ⟨rfl, rfl⟩ := List.cons.inj (Except.ok.inj h)
    intro c hc
    rcases List.mem_cons.mp hc with rfl | hc
    · exact hb
    · exact ih hbs c hc

theorem loadSetting_of_buildConfig {config : AppConfig} (h : buildConfig world sections = .ok config)
    (setting : Setting) : loadSetting world sections setting = .ok (config.value setting) := by
  have hmapM := buildConfig_eq world sections
  rw [h] at hmapM
  exact eq_ok_of_mapM_eq_ok hmapM.symm setting (mem_envOverrides setting)

theorem require_of_entry {mapping value : TomlValue} {key : String}
    (h : mapping.entry key = some value) : require mapping [key] = .ok value := by
  unfold TomlValue.entry at h
  split at h
  · unfold require require.go
    dsimp only
    rw [h]
    rfl
  · cases h

/-- A missing key is named by the error. -/
theorem require_of_entry_eq_none {mapping : TomlValue} {key : String}
    (h : mapping.entry key = none) :
    require mapping [key] = .error (.config (.value ("Missing config key: " ++ key))) := by
  have hkeys : "/".intercalate ([key].take ([key].idxOf key + 1)) = key := by simp
  unfold require require.go
  rw [hkeys]
  rcases mapping with _ | _ | _ | _ | _ | _ | entries
  case table =>
    have hnone : entries.lookup key = none := h
    dsimp only
    rw [hnone]
  all_goals rfl

theorem getOr_eq (mapping : TomlValue) (key : String) (default : TomlValue) :
    getOr mapping key default
      = if mapping.isTable then .ok ((mapping.entry key).getD default)
        else .error (.noGet mapping.typeName) := by
  cases mapping <;> rfl

/-- **When a setting is found**: it is there or has a default, and where `get` is used its section is a
table. -/
theorem findSetting_eq_ok_iff {value : TomlValue} :
    findSetting sections setting = .ok value ↔
      (valueIn sections setting).or setting.default = some value ∧
        (setting.default = none ∨ (sections setting.sectionName).isTable = true) := by
  unfold findSetting valueIn
  rcases setting.default with _ | default
  · rw [Option.or_none]
    rcases hentry : (sections setting.sectionName).entry setting.key with _ | value'
    · simp [require_of_entry_eq_none hentry]
    · simp [require_of_entry hentry]
  · simp only [getOr_eq]
    by_cases htable : (sections setting.sectionName).isTable = true
    · rcases (sections setting.sectionName).entry setting.key with _ | value'
      · simp [htable]
      · simp [htable]
    · simp [htable]

/-- Casting an override changes nothing about what is made of it. -/
theorem Setting.convert_cast {text : String} {value : TomlValue} (h : setting.cast text = .ok value) :
    setting.convert world (.string text) = setting.convert world value := by
  unfold Setting.cast at h
  have hint (hcast : (pyInt (.string text)).map TomlValue.integer = .ok value) :
      (pyInt (.string text)).map SettingValue.int = (pyInt value).map SettingValue.int := by
    rcases hi : pyInt (.string text) with e | i
    · rw [hi] at hcast
      cases hcast
    · rw [hi] at hcast
      obtain rfl := Except.ok.inj hcast
      rfl
  have hstr (hcast : (Except.ok (TomlValue.string text) : Except LoadError TomlValue) = .ok value) :
      value = .string text := (Except.ok.inj hcast).symm
  cases setting with
  | watchPath | socketPath | targetHost | binaryPath => rw [hstr h]
  | rateCeilingBps | rateFloorBps | k | n | symbolBytes | basePort | senderCount => exact hint h

/-- **A setting that is loaded** is what is written for it, converted. -/
theorem written_of_loadSetting {sections' : SectionData} {value : SettingValue}
    (hover : Overridden environment envOverrides (sectionData data) sections')
    (h : loadSetting world sections' setting = .ok value) :
    ∃ v, written data environment setting = some v ∧ setting.convert world v = .ok value := by
  obtain ⟨v, hfind, hconvert⟩ := bind_eq_ok_iff.mp h
  have hvalue := (findSetting_eq_ok_iff.mp hfind).1
  rw [hover.valueIn, if_pos (mem_envOverrides setting), Option.or_assoc] at hvalue
  unfold written
  rcases henv : environment setting.envVarName with _ | text
  · rw [overrideValue, henv] at hvalue
    exact ⟨v, hvalue, hconvert⟩
  · obtain ⟨⟨cast, hcast⟩, -⟩ := hover.cast setting (mem_envOverrides setting) text henv
    rw [overrideValue, henv, Option.bind_some, hcast] at hvalue
    obtain rfl := Option.some.inj hvalue
    exact ⟨.string text, rfl, (Setting.convert_cast hcast).trans hconvert⟩

/-- **What is loaded**: every field is what is written for the setting, converted, and the whole is
valid. -/
theorem loaded_of_loadConfig {config : AppConfig}
    (h : loadConfig world data environment = .ok config) :
    (∀ setting, ∃ v, written data environment setting = some v ∧
      setting.convert world v = .ok (config.value setting)) ∧
    ∃ kind, world.watchPathKind config.paths.watchPath = .ok kind ∧ validateConfig kind config = .ok () := by
  unfold loadConfig at h
  obtain ⟨sections, hsections, h⟩ := bind_eq_ok_iff.mp h
  obtain ⟨config', hbuild, h⟩ := bind_eq_ok_iff.mp h
  obtain ⟨kind, hkind, h⟩ := bind_eq_ok_iff.mp h
  obtain ⟨⟨⟩, hvalid, h⟩ := bind_eq_ok_iff.mp h
  obtain rfl := Except.ok.inj h
  refine ⟨fun setting => ?_, kind, hkind, ?_⟩
  · exact written_of_loadSetting (overridden_of_foldlM hsections)
      (loadSetting_of_buildConfig hbuild setting)
  · rcases hvalidate : validateConfig kind config' with e | ⟨⟩
    · rw [hvalidate] at hvalid
      cases hvalid
    · rfl

end

/-! ### A world -/

/-- The configuration file is in `/etc`, and the watch path is a directory. -/
def sampleWorld : LoadWorld where
  configDir := .parse ['/', 'e', 't', 'c']
  strOf value := .ok value.typeName
  watchPathKind _ := .ok .directory

end FileMonitor
