import FileMonitor.Config.Toml
import Mathlib.Logic.Function.Basic

/-!
# Loading the configuration

`load_config` of `config.py`, from the parsed document and the environment on.  The directory of the
configuration file, the text of values that are neither strings nor integers, and what exists at the
watch path are given by a `LoadWorld`.  A path is a root flag and components, so that two leading slashes
count as one.
-/

namespace FileMonitor

/-! ### Constants -/

def defaultRateCeilingBps : ℤ := 20000000
def defaultRateFloorBps : ℤ := 5000000
def defaultTargetHost : String := "127.0.0.1"
def defaultBasePort : ℤ := 9000
def defaultSenderBinaryPath : String := "./bin/nexus-sender"
def defaultSenderCount : ℤ := 3

/-! ### Sections and settings -/

inductive Section where
  | paths
  | pacing
  | fec
  | senders
deriving DecidableEq

def Section.name : Section → String
  | .paths => "paths"
  | .pacing => "pacing"
  | .fec => "fec"
  | .senders => "senders"

/-- The settings, one for each row of `ENV_OVERRIDES`. -/
inductive Setting where
  | watchPath
  | socketPath
  | rateCeilingBps
  | rateFloorBps
  | k
  | n
  | symbolBytes
  | targetHost
  | basePort
  | binaryPath
  | senderCount
deriving DecidableEq

/-- The function that an override is cast with. -/
inductive Cast where
  | str
  | int
deriving DecidableEq

namespace Setting

def envVarName : Setting → String
  | .watchPath => "NEXUS_WATCH_PATH"
  | .socketPath => "NEXUS_SOCKET_PATH"
  | .rateCeilingBps => "NEXUS_RATE_CEILING_BPS"
  | .rateFloorBps => "NEXUS_RATE_FLOOR_BPS"
  | .k => "NEXUS_FEC_K"
  | .n => "NEXUS_FEC_N"
  | .symbolBytes => "NEXUS_FEC_SYMBOL_BYTES"
  | .targetHost => "NEXUS_SENDERS_TARGET_HOST"
  | .basePort => "NEXUS_SENDERS_BASE_PORT"
  | .binaryPath => "NEXUS_SENDERS_BINARY_PATH"
  | .senderCount => "NEXUS_SENDERS_SENDER_COUNT"

def sectionName : Setting → Section
  | .watchPath | .socketPath => .paths
  | .rateCeilingBps | .rateFloorBps => .pacing
  | .k | .n | .symbolBytes => .fec
  | .targetHost | .basePort | .binaryPath | .senderCount => .senders

def key : Setting → String
  | .watchPath => "watch_path"
  | .socketPath => "socket_path"
  | .rateCeilingBps => "rate_ceiling_bps"
  | .rateFloorBps => "rate_floor_bps"
  | .k => "k"
  | .n => "n"
  | .symbolBytes => "symbol_bytes"
  | .targetHost => "target_host"
  | .basePort => "base_port"
  | .binaryPath => "binary_path"
  | .senderCount => "sender_count"

def castValue : Setting → Cast
  | .watchPath | .socketPath | .targetHost | .binaryPath => .str
  | .rateCeilingBps | .rateFloorBps | .k | .n | .symbolBytes | .basePort | .senderCount => .int

end Setting

/-- `ENV_OVERRIDES`. -/
def envOverrides : List Setting :=
  [.watchPath, .socketPath, .rateCeilingBps, .rateFloorBps, .k, .n, .symbolBytes, .targetHost,
    .basePort, .binaryPath, .senderCount]

/-! ### Helpers -/

/-- `_require`. -/
def require (mapping : TomlValue) (keys : List String) : Except LoadError TomlValue :=
  go mapping keys
where
  /-- The loop, over the keys that are left. -/
  go (current : TomlValue) : List String → Except LoadError TomlValue
    | [] => .ok current
    | key :: rest =>
      let missing := LoadError.config (.value
        ("Missing config key: " ++ "/".intercalate (keys.take (keys.idxOf key + 1))))
      match current with
      | .table entries =>
        match entries.lookup key with
        | some value => go value rest
        | none => .error missing
      | _ => .error missing

/-- `mapping.get(key, default)`. -/
def getOr (mapping : TomlValue) (key : String) (default : TomlValue) : Except LoadError TomlValue :=
  match mapping with
  | .table entries => .ok ((entries.lookup key).getD default)
  | _ => .error (.noGet mapping.typeName)

/-- `mapping[key] = value`. -/
def setItem (mapping : TomlValue) (key : String) (value : TomlValue) : Except LoadError TomlValue :=
  match mapping with
  | .table entries => .ok (.table (TomlTable.set entries key value))
  | _ => .error (.itemAssignment mapping.typeName)

/-- `_resolve_path`. -/
def resolvePath (baseDir : PosixPath) (value : String) : PosixPath :=
  let path := PosixPath.parse value.toList
  if path.absolute then path else baseDir.join path

/-! ### `load_config` -/

/-- `os.environ`. -/
abbrev Environment := String → Option String

/-- `section_data_by_name`. -/
abbrev SectionData := Section → TomlValue

/-- `data.setdefault(name, {})`, for each section. -/
def sectionData (data : TomlTable) : SectionData := fun name =>
  (data.lookup name.name).getD (.table [])

/-- `cast_value(environment[env_var_name])`. -/
def Setting.cast (setting : Setting) (text : String) : Except LoadError TomlValue :=
  match setting.castValue with
  | .str => .ok (.string text)
  | .int => (pyInt (.string text)).map .integer

/-- One round of the loop over `ENV_OVERRIDES`.  The value is cast before the assignment is tried. -/
def applyOverride (environment : Environment) (sections : SectionData) (setting : Setting) :
    Except LoadError SectionData :=
  match environment setting.envVarName with
  | none => .ok sections
  | some text => do
    let value ← setting.cast text
    let mapping ← setItem (sections setting.sectionName) setting.key value
    return Function.update sections setting.sectionName mapping

/-- What `load_config` meets besides the document and the environment. -/
structure LoadWorld where
  /-- The directory of the configuration file. -/
  configDir : PosixPath
  /-- `str` of a float, an array or a table. -/
  strOf : TomlValue → Except LoadError String
  /-- What `is_dir`, `exists` and `mkdir` find at the watch path, or the exception one of them raises. -/
  watchPathKind : PosixPath → Except LoadError WatchPathKind

/-- The `AppConfig` that is built from the sections. -/
def buildConfig (world : LoadWorld) (sections : SectionData) : Except LoadError AppConfig := do
  let pathsData := sections .paths
  let pacingData := sections .pacing
  let fecData := sections .fec
  let sendersData := sections .senders
  let str := pyStr world.strOf
  let watchPath ← str (← require pathsData ["watch_path"])
  let socketPath ← str (← require pathsData ["socket_path"])
  let rateCeilingBps ← pyInt (← getOr pacingData "rate_ceiling_bps" (.integer defaultRateCeilingBps))
  let rateFloorBps ← pyInt (← getOr pacingData "rate_floor_bps" (.integer defaultRateFloorBps))
  let k ← pyInt (← require fecData ["k"])
  let n ← pyInt (← require fecData ["n"])
  let symbolBytes ← pyInt (← require fecData ["symbol_bytes"])
  let targetHost ← str (← getOr sendersData "target_host" (.string defaultTargetHost))
  let basePort ← pyInt (← getOr sendersData "base_port" (.integer defaultBasePort))
  -- resolved below, so that `validate_config` never sees it as written
  let binaryPath ← str (← getOr sendersData "binary_path" (.string defaultSenderBinaryPath))
  let senderCount ← pyInt (← getOr sendersData "sender_count" (.integer defaultSenderCount))
  return {
    paths := ⟨resolvePath world.configDir watchPath, resolvePath world.configDir socketPath⟩
    pacing := ⟨rateCeilingBps, rateFloorBps⟩
    fec := ⟨k, n, symbolBytes⟩
    senders := ⟨targetHost, basePort, (resolvePath world.configDir binaryPath).str, senderCount⟩ }

/-- `load_config`, for the parsed document `data`. -/
def loadConfig (world : LoadWorld) (data : TomlTable) (environment : Environment) :
    Except LoadError AppConfig := do
  let sections ← envOverrides.foldlM (applyOverride environment) (sectionData data)
  let appConfig ← buildConfig world sections
  -- the watch path is looked at before any value is checked
  let watchPathKind ← world.watchPathKind appConfig.paths.watchPath
  (validateConfig watchPathKind appConfig).mapError .config
  return appConfig

end FileMonitor
