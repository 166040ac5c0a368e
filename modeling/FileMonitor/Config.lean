import FileMonitor.Domain.Models

/-!
# Validation of the configuration

The dataclasses and `validate_config` of `config.py`.  What the file system says about the watch path
is an argument.
-/

namespace FileMonitor

structure PathsConfig where
  watchPath : PosixPath
  socketPath : PosixPath
deriving DecidableEq

structure PacingConfig where
  rateCeilingBps : ℤ
  rateFloorBps : ℤ
deriving DecidableEq

structure SendersConfig where
  targetHost : String
  basePort : ℤ
  binaryPath : String
  senderCount : ℤ
deriving DecidableEq

structure AppConfig where
  paths : PathsConfig
  pacing : PacingConfig
  fec : FecParams
  senders : SendersConfig
deriving DecidableEq

/-! ### Constants -/

def gf256MaxShares : ℤ := 255

def ethernetMtuBytes : ℤ := 1500
def ipHeaderBytes : ℤ := 20
def udpHeaderBytes : ℤ := 8
def framePrefixBytes : ℤ := 12
def protobufOverheadBytes : ℤ := 18

def maxSymbolBytes : ℤ :=
  ethernetMtuBytes - ipHeaderBytes - udpHeaderBytes - framePrefixBytes - protobufOverheadBytes

def minPort : ℤ := 1
def maxPort : ℤ := 65535

/-! ### `validate_config` -/

/-- What a configuration error is: a `ValueError` with its message, or an `OSError`. -/
inductive ConfigError where
  | value (message : String)
  | os (reason : String)
deriving DecidableEq

/-- What exists at the watch path: a directory, something else, or nothing, in which case `mkdir` is
tried and may raise. -/
inductive WatchPathKind where
  | directory
  | notADirectory
  | missing (mkdir : Except String Unit)

/-- The check of `paths.watch_path`. -/
def checkWatchPath (watchPath : PosixPath) : WatchPathKind → Except ConfigError Unit
  | .directory => .ok ()
  | .notADirectory => .error (.value ("paths.watch_path is not a directory: " ++ watchPath.str))
  | .missing mkdir => mkdir.mapError .os

/-- The checks of `pacing`. -/
def checkPacing (pacing : PacingConfig) : Except ConfigError Unit :=
  if pacing.rateFloorBps ≤ 0 then .error (.value "pacing.rate_floor_bps must be > 0")
  else if pacing.rateCeilingBps < pacing.rateFloorBps then
    .error (.value
      (s!"pacing.rate_ceiling_bps ({pacing.rateCeilingBps}) must be >= " ++
        s!"pacing.rate_floor_bps ({pacing.rateFloorBps})"))
  else .ok ()

/-- The checks of `fec`. -/
def checkFec (fec : FecParams) : Except ConfigError Unit :=
  if fec.k ≤ 0 ∨ fec.n ≤ 0 ∨ fec.symbolBytes ≤ 0 then
    .error (.value "fec.k, fec.n, and fec.symbol_bytes must all be > 0")
  else if gf256MaxShares < fec.n then
    .error (.value s!"fec.n ({fec.n}) cannot exceed {gf256MaxShares} (GF(2^8) limit)")
  else if fec.n ≤ fec.k then
    .error (.value s!"fec.k ({fec.k}) must be less than fec.n ({fec.n})")
  else if maxSymbolBytes < fec.symbolBytes then
    .error (.value s!"fec.symbol_bytes ({fec.symbolBytes}) exceeds MTU budget ({maxSymbolBytes})")
  else .ok ()

/-- The checks of `senders`. -/
def checkSenders (senders : SendersConfig) : Except ConfigError Unit :=
  if senders.binaryPath = "" then .error (.value "senders.binary_path must not be empty")
  else if senders.senderCount < 0 then
    .error (.value s!"senders.sender_count must be >= 0, got {senders.senderCount}")
  else if ¬ (minPort ≤ senders.basePort ∧ senders.basePort ≤ maxPort) then
    .error (.value
      s!"senders.base_port must be in [{minPort}, {maxPort}], got {senders.basePort}")
  else .ok ()

/-- `validate_config`. -/
def validateConfig (watchPathKind : WatchPathKind) (appConfig : AppConfig) :
    Except ConfigError Unit := do
  checkWatchPath appConfig.paths.watchPath watchPathKind
  checkPacing appConfig.pacing
  checkFec appConfig.fec
  checkSenders appConfig.senders

/-! ### What a valid configuration satisfies -/

theorem checkPacing_eq_ok_iff {pacing : PacingConfig} :
    checkPacing pacing = .ok () ↔
      0 < pacing.rateFloorBps ∧ pacing.rateFloorBps ≤ pacing.rateCeilingBps := by
  unfold checkPacing
  constructor
  · intro h
    split_ifs at h
    omega
  · rintro ⟨hpos, hle⟩
    rw [if_neg (by omega), if_neg (by omega)]

theorem checkFec_eq_ok_iff {fec : FecParams} :
    checkFec fec = .ok () ↔
      0 < fec.k ∧ fec.k < fec.n ∧ fec.n ≤ gf256MaxShares ∧
        0 < fec.symbolBytes ∧ fec.symbolBytes ≤ maxSymbolBytes := by
  unfold checkFec
  constructor
  · intro h
    split_ifs at h
    omega
  · rintro ⟨hk, hkn, hn, hpos, hle⟩
    rw [if_neg (by omega), if_neg (by omega), if_neg (by omega), if_neg (by omega)]

theorem checkSenders_eq_ok_iff {senders : SendersConfig} :
    checkSenders senders = .ok () ↔
      senders.binaryPath ≠ "" ∧ 0 ≤ senders.senderCount ∧
        minPort ≤ senders.basePort ∧ senders.basePort ≤ maxPort := by
  unfold checkSenders
  constructor
  · intro h
    split_ifs at h with hpath hcount hport
    exact ⟨hpath, by omega, hport⟩
  · rintro ⟨hpath, hcount, hport⟩
    rw [if_neg hpath, if_neg (by omega), if_neg (not_not.mpr hport)]

/-- **Every check of a valid configuration has passed.** -/
theorem validateConfig_eq_ok_iff {watchPathKind : WatchPathKind} {appConfig : AppConfig} :
    validateConfig watchPathKind appConfig = .ok () ↔
      checkWatchPath appConfig.paths.watchPath watchPathKind = .ok () ∧
        checkPacing appConfig.pacing = .ok () ∧ checkFec appConfig.fec = .ok () ∧
        checkSenders appConfig.senders = .ok () := by
  unfold validateConfig
  rcases checkWatchPath appConfig.paths.watchPath watchPathKind with e | ⟨⟩
  · exact ⟨nofun, nofun⟩
  rcases checkPacing appConfig.pacing with e | ⟨⟩
  · exact ⟨nofun, nofun⟩
  rcases checkFec appConfig.fec with e | ⟨⟩
  · exact ⟨nofun, nofun⟩
  simp only [true_and]
  rfl

end FileMonitor
