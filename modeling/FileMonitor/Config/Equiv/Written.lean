import FileMonitor.Config.Equiv.Load
import Mathlib.Tactic.NormNum

/-!
# What is written and what is used

`int` cuts off the fraction of a float, and a path is resolved before it is tested, so the validation
can see another value than the one written.

* `number?_eq_some_iff`: `int` keeps a number exactly if it is no float with a fraction.
* `written_is_used_iff`: so a configuration has what was written exactly if no integer setting is
  written as such a float and the binary path is not written as the empty string.
-/

namespace FileMonitor

/-- The number a value stands for; a string counts as the integer it spells. -/
def TomlValue.number? : TomlValue → Option ℚ
  | .string text => (readInt text).map fun i => (i : ℚ)
  | .integer i => some i
  | .boolean b => some (if b then 1 else 0)
  | .float (.finite q) => some q
  | .float _ | .date .. | .array _ | .table _ => none

/-- Whether a value is a float that is not an integer. -/
def TomlValue.hasFraction : TomlValue → Bool
  | .float (.finite q) => q.den ≠ 1
  | _ => false

/-- The number an integer setting is written as. -/
def writtenNumber (data : TomlTable) (environment : Environment) (setting : Setting) : Option ℚ :=
  (written data environment setting).bind TomlValue.number?

/-- The bounds of `validate_config`, for any numbers in place of the integer settings. -/
structure WithinBounds (number : Setting → ℚ) : Prop where
  rateFloor : 0 < number .rateFloorBps
  rateCeiling : number .rateFloorBps ≤ number .rateCeilingBps
  k : 0 < number .k
  k_lt_n : number .k < number .n
  n : number .n ≤ gf256MaxShares
  symbolBytes : 0 < number .symbolBytes ∧ number .symbolBytes ≤ maxSymbolBytes
  senderCount : 0 ≤ number .senderCount
  basePort : minPort ≤ number .basePort ∧ number .basePort ≤ maxPort

/-- What was written is what was validated and is used: the integer settings have the numbers written
for them, which are within the bounds; the binary path was not written as the empty string; and what the
environment says about other settings makes no difference to a setting. -/
structure WrittenIsUsed (world : LoadWorld) (data : TomlTable) (environment : Environment)
    (config : AppConfig) : Prop where
  numbers : ∃ number : Setting → ℚ, WithinBounds number ∧
    ∀ setting, setting.castValue = .int →
      writtenNumber data environment setting = some (number setting) ∧
        ∃ i, config.value setting = .int i ∧ number setting = i
  binaryPath : written data environment .binaryPath ≠ some (.string "")
  independent : ∀ setting environment' config',
    environment' setting.envVarName = environment setting.envVarName →
      loadConfig world data environment' = .ok config' → config'.value setting = config.value setting

/-! ### Numbers -/

theorem truncate_eq_iff {q : ℚ} : q = truncate q ↔ q.den = 1 := by
  constructor
  · intro h
    rw [h]
    exact Rat.den_intCast _
  · intro h
    have hnum : (q.num : ℚ) = q := Rat.den_eq_one_iff q |>.mp h
    unfold truncate
    rw [← hnum, Int.floor_intCast, Int.ceil_intCast, ite_self]

/-- **What `int` keeps.** -/
theorem number?_eq_some_iff {value : TomlValue} {i : ℤ} (h : pyInt value = .ok i) :
    value.number? = some (i : ℚ) ↔ value.hasFraction = false := by
  cases value with
  | string text =>
    refine ⟨fun _ => rfl, fun _ => ?_⟩
    unfold pyInt at h
    dsimp only at h
    rcases hread : readInt text with _ | j
    · rw [hread] at h
      cases h
    · rw [hread] at h
      obtain rfl := Except.ok.inj h
      rw [TomlValue.number?, hread]
      rfl
  | integer j =>
    obtain rfl := Except.ok.inj h
    exact ⟨fun _ => rfl, fun _ => rfl⟩
  | boolean b =>
    obtain rfl := Except.ok.inj h
    refine ⟨fun _ => rfl, fun _ => ?_⟩
    cases b <;> rfl
  | float f =>
    cases f with
    | finite q =>
      -- only here can the two differ
      obtain rfl := Except.ok.inj h
      rw [TomlValue.number?, Option.some.injEq, truncate_eq_iff]
      show _ ↔ decide (q.den ≠ 1) = false
      rw [decide_eq_false_iff_not, not_not]
    | posInf | negInf | nan => cases h
  | date | array | table => cases h

/-! ### Loaded configurations -/

section

variable {world : LoadWorld} {data : TomlTable} {environment : Environment} {config : AppConfig}

/-- An integer setting that is loaded. -/
theorem exists_int_of_loaded (h : loadConfig world data environment = .ok config) {setting : Setting}
    (hcast : setting.castValue = .int) :
    ∃ v i, written data environment setting = some v ∧ pyInt v = .ok i ∧
      config.value setting = .int i := by
  obtain ⟨v, hwritten, hconvert⟩ := (loaded_of_loadConfig h).1 setting
  have hint : (pyInt v).map SettingValue.int = .ok (config.value setting) := by
    cases setting with
    | watchPath | socketPath | targetHost | binaryPath => cases hcast
    | rateCeilingBps | rateFloorBps | k | n | symbolBytes | basePort | senderCount => exact hconvert
  rcases hpyInt : pyInt v with e | i
  · rw [hpyInt] at hint
    cases hint
  · rw [hpyInt] at hint
    exact ⟨v, i, hwritten, hpyInt, (Except.ok.inj hint).symm⟩

/-- The integer settings of a configuration as numbers. -/
def AppConfig.number (config : AppConfig) (setting : Setting) : ℚ :=
  match config.value setting with
  | .int i => i
  | .text _ | .path _ => 0

/-- What is loaded is within the bounds. -/
theorem withinBounds_of_loaded (h : loadConfig world data environment = .ok config) :
    WithinBounds config.number := by
  obtain ⟨-, kind, -, hvalid⟩ := loaded_of_loadConfig h
  obtain ⟨-, hpacing, hfec, hsenders⟩ := validateConfig_eq_ok_iff.mp hvalid
  obtain ⟨hfloor, hceiling⟩ := checkPacing_eq_ok_iff.mp hpacing
  obtain ⟨hk, hkn, hn, hpos, hmax⟩ := checkFec_eq_ok_iff.mp hfec
  obtain ⟨-, hcount, hmin, hport⟩ := checkSenders_eq_ok_iff.mp hsenders
  constructor
  · exact Int.cast_pos.mpr hfloor
  · exact Int.cast_le.mpr hceiling
  · exact Int.cast_pos.mpr hk
  · exact Int.cast_lt.mpr hkn
  · exact Int.cast_le.mpr hn
  · exact ⟨Int.cast_pos.mpr hpos, Int.cast_le.mpr hmax⟩
  · exact Int.cast_nonneg hcount
  · exact ⟨Int.cast_le.mpr hmin, Int.cast_le.mpr hport⟩

/-- **No setting depends on what the environment says about another.** -/
theorem value_eq_of_environment_eq (h : loadConfig world data environment = .ok config)
    {setting : Setting} {environment' : Environment} {config' : AppConfig}
    (henv : environment' setting.envVarName = environment setting.envVarName)
    (h' : loadConfig world data environment' = .ok config') :
    config'.value setting = config.value setting := by
  obtain ⟨v, hwritten, hconvert⟩ := (loaded_of_loadConfig h).1 setting
  obtain ⟨v', hwritten', hconvert'⟩ := (loaded_of_loadConfig h').1 setting
  have hsame : written data environment' setting = written data environment setting := by
    unfold written
    rw [henv]
  obtain rfl : v' = v := Option.some.inj (hwritten'.symm.trans (hsame.trans hwritten))
  exact Except.ok.inj (hconvert'.symm.trans hconvert)

/-- **What is written is used exactly if nothing is cut off.**  A configuration that is loaded has what
was written exactly if no integer setting is written as a float with a fraction, and the binary path is
not written as the empty string. -/
theorem written_is_used_iff (h : loadConfig world data environment = .ok config) :
    WrittenIsUsed world data environment config ↔
      (∀ setting, setting.castValue = .int → ∀ v, written data environment setting = some v →
        v.hasFraction = false) ∧
      written data environment .binaryPath ≠ some (.string "") := by
  constructor
  · intro hused
    refine ⟨fun setting hcast v hv => ?_, hused.binaryPath⟩
    obtain ⟨number, -, hnumbers⟩ := hused.numbers
    obtain ⟨hnumber, i, hi, hnumberi⟩ := hnumbers setting hcast
    obtain ⟨v', i', hwritten, hpyInt, hi'⟩ := exists_int_of_loaded h hcast
    -- one value is written, and one is loaded
    obtain rfl : v' = v := Option.some.inj (hwritten.symm.trans hv)
    obtain rfl : i' = i := SettingValue.int.inj (hi'.symm.trans hi)
    rw [writtenNumber, hv, hnumberi] at hnumber
    exact (number?_eq_some_iff hpyInt).mp hnumber
  · rintro ⟨hfraction, hbinary⟩
    refine ⟨⟨config.number, withinBounds_of_loaded h, fun setting hcast => ?_⟩, hbinary,
      fun setting environment' config' => value_eq_of_environment_eq h⟩
    obtain ⟨v, i, hwritten, hpyInt, hvalue⟩ := exists_int_of_loaded h hcast
    have hnumber : config.number setting = i := by
      unfold AppConfig.number
      rw [hvalue]
    refine ⟨?_, i, hvalue, hnumber⟩
    rw [hnumber, writtenNumber, hwritten]
    exact (number?_eq_some_iff hpyInt).mpr (hfraction setting hcast v hwritten)

end

/-! ### Two documents -/

/-- A document with these values for `fec.k` and `senders.binary_path`. -/
def sampleDocument (k : TomlValue) (binaryPath : String) : TomlTable :=
  [("paths", .table [("watch_path", .string "./watch"), ("socket_path", .string "./run/s.sock")]),
    ("fec", .table [("k", k), ("n", .integer 255), ("symbol_bytes", .integer 1400)]),
    ("senders", .table [("binary_path", .string binaryPath)])]

/-- The environment with one variable. -/
def oneVariable (name text : String) : Environment := fun other => if other = name then some text else none

/-- The configuration that the example documents load to, where `senders.binary_path` resolves to this. -/
def sampleConfig (binaryPath : String) : AppConfig where
  paths := ⟨.parse "/etc/watch".toList, .parse "/etc/run/s.sock".toList⟩
  pacing := ⟨20000000, 5000000⟩
  fec := ⟨200, 255, 1400⟩
  senders := ⟨"127.0.0.1", 9000, binaryPath, 3⟩

/-- An override hides what the file says. -/
theorem written_is_used_iff_override :
    WrittenIsUsed sampleWorld (sampleDocument (.float (.finite (2009 / 10))) "./bin/nexus-sender")
      (oneVariable "NEXUS_FEC_K" "200") (sampleConfig "/etc/bin/nexus-sender") := by
  have hnone : ∀ setting ∈ envOverrides, (written
      (sampleDocument (.float (.finite (2009 / 10))) "./bin/nexus-sender")
      (oneVariable "NEXUS_FEC_K" "200") setting).map TomlValue.hasFraction ≠ some true := by
    decide +kernel
  apply (written_is_used_iff (by decide +kernel)).mpr
  constructor
  · intro setting _ v hv
    have hfraction := hnone setting (mem_envOverrides setting)
    rw [hv] at hfraction
    exact Bool.eq_false_iff.mpr fun h => hfraction (congrArg some h)
  · intro h
    have htext : some (TomlValue.string "./bin/nexus-sender") = some (.string "") := h
    exact absurd htext (by simp)

/-- **A fraction is cut off, and an empty path is not noticed.** -/
theorem written_is_not_used :
    (∃ config, loadConfig sampleWorld (sampleDocument (.float (.finite (2009 / 10))) "./s")
        (fun _ => none) = .ok config ∧ config.fec.k = 200 ∧
      writtenNumber (sampleDocument (.float (.finite (2009 / 10))) "./s") (fun _ => none) .k
        = some (2009 / 10) ∧
      ¬ WrittenIsUsed sampleWorld (sampleDocument (.float (.finite (2009 / 10))) "./s") (fun _ => none)
        config) ∧
    ∃ config, loadConfig sampleWorld (sampleDocument (.integer 200) "") (fun _ => none) = .ok config ∧
      config.senders.binaryPath = "/etc" ∧
      ¬ WrittenIsUsed sampleWorld (sampleDocument (.integer 200) "") (fun _ => none) config := by
  have hnumber : writtenNumber (sampleDocument (.float (.finite (2009 / 10))) "./s") (fun _ => none) .k
      = some (2009 / 10) := by decide +kernel
  refine ⟨⟨sampleConfig "/etc/s", by decide +kernel, rfl, hnumber, fun hused => ?_⟩,
    ⟨sampleConfig "/etc", by decide +kernel, rfl, fun hused => hused.binaryPath rfl⟩⟩
  obtain ⟨number, -, hnumbers⟩ := hused.numbers
  obtain ⟨hwritten, i, hi, hnumberi⟩ := hnumbers .k rfl
  obtain rfl : 200 = i := SettingValue.int.inj hi
  rw [hnumber, hnumberi, Option.some.injEq] at hwritten
  norm_num at hwritten

end FileMonitor
