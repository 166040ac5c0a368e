import FileMonitor.Services.Equiv.Planner

/-!
# The path in the manifest

The receiver joins `Manifest.filepath` onto its own output directory.  `manifest_filepath_is_safe`: it
stays under that directory, and no two files under one watch root get the same one.
-/

namespace FileMonitor

open PosixPath

section

variable {path watchRoot : PosixPath}

theorem relativeFilepath_eq_ok_iff {filepath : String} :
    relativeFilepath path watchRoot = .ok filepath ↔
      ∃ rest, path.relativeTo watchRoot = some rest ∧ rest.hasDotDot = false ∧ filepath = rest.str := by
  unfold relativeFilepath
  rcases path.relativeTo watchRoot with _ | rest
  · exact ⟨nofun, nofun⟩
  · simp only [Option.some.injEq, exists_eq_left']
    by_cases h : rest.hasDotDot = true
    · rw [if_pos h, h]
      exact ⟨nofun, nofun⟩
    · rw [if_neg h, Except.ok.injEq]
      simp [h, eq_comm]

/-- Reading `filepath` gives back what is left of the path under the watch root. -/
theorem join_parse_of_relativeFilepath {filepath : String}
    (h : relativeFilepath path watchRoot = .ok filepath) :
    (parse filepath.toList).absolute = false ∧ (parse filepath.toList).hasDotDot = false ∧
      watchRoot.join (parse filepath.toList) = path := by
  obtain ⟨rest, hrest, hdots, rfl⟩ := relativeFilepath_eq_ok_iff.mp h
  obtain ⟨habs, hjoin⟩ := relativeTo_eq_some_iff.mp hrest
  rw [parse_str]
  exact ⟨habs, hdots, hjoin⟩

/-- A path outside the watch root is refused. -/
theorem relativeFilepath_of_none (h : path.relativeTo watchRoot = none) :
    relativeFilepath path watchRoot = .error (.notUnderWatchRoot path watchRoot) := by
  unfold relativeFilepath
  rw [h]

/-- A path that goes up inside the watch root is refused. -/
theorem relativeFilepath_of_hasDotDot {rest : PosixPath} (h : path.relativeTo watchRoot = some rest)
    (hdots : rest.hasDotDot = true) :
    relativeFilepath path watchRoot = .error (.escapesWatchRoot path) := by
  unfold relativeFilepath
  rw [h]
  exact if_pos hdots

end

section

variable {pb : Protobuf} {sourceFile : SourceFile} {fecParams : FecParams} {sessionId : SessionId}
  {senderIndex shardModulus : ℤ} {watchRoot : PosixPath} {senderBpsLimit : ℤ}

/-- With a valid size and hash, the path is what `buildManifest` checks next. -/
theorem buildManifest_of_relativeFilepath_error {fileHashBytes : Bytes} {e : PyError}
    (hsize : 0 ≤ sourceFile.sizeBytes) (hhash : checkFileHash sourceFile.fileHash = .ok fileHashBytes)
    (hpath : relativeFilepath sourceFile.path watchRoot = .error e) :
    buildManifest pb sourceFile fecParams sessionId senderIndex shardModulus watchRoot senderBpsLimit
      = .error e := by
  unfold buildManifest
  rw [if_neg (not_lt.mpr hsize), hhash, hpath]
  rfl

/-- **The path in the manifest is safe and nothing is lost.**  With a valid size and hash, a path that is
not under the watch root, or goes up below it, is refused.  Where `buildManifest` returns, `filepath` is
relative and does not go up; joined onto any absolute output directory that does not go up it stays
under that directory; joined onto the watch root it is the path of the file, so that a file with another
path has another `filepath`. -/
theorem manifest_filepath_is_safe (pb : Protobuf) (sourceFile : SourceFile) (fecParams : FecParams)
    (sessionId : SessionId) (senderIndex shardModulus : ℤ) (watchRoot : PosixPath)
    (senderBpsLimit : ℤ) :
    let result := buildManifest pb sourceFile fecParams sessionId senderIndex shardModulus watchRoot
      senderBpsLimit
    (∀ fileHashBytes, 0 ≤ sourceFile.sizeBytes → checkFileHash sourceFile.fileHash = .ok fileHashBytes →
      (sourceFile.path.relativeTo watchRoot = none →
        result = .error (.notUnderWatchRoot sourceFile.path watchRoot)) ∧
      (∀ rest, sourceFile.path.relativeTo watchRoot = some rest → rest.hasDotDot = true →
        result = .error (.escapesWatchRoot sourceFile.path))) ∧
    (∀ manifest, result = .ok manifest →
      let filepath := parse manifest.filepath.toList
      filepath.absolute = false ∧ filepath.hasDotDot = false ∧
      (∀ directory : PosixPath, directory.absolute = true → directory.hasDotDot = false →
        (directory.join filepath).AtOrBelow directory) ∧
      watchRoot.join filepath = sourceFile.path ∧
      (∀ (sourceFile' : SourceFile) (fecParams' : FecParams) (sessionId' : SessionId)
        (senderIndex' shardModulus' senderBpsLimit' : ℤ) (manifest' : Manifest),
        buildManifest pb sourceFile' fecParams' sessionId' senderIndex' shardModulus' watchRoot
          senderBpsLimit' = .ok manifest' →
        sourceFile'.path ≠ sourceFile.path → manifest'.filepath ≠ manifest.filepath)) := by
  intro result
  constructor
  · intro fileHashBytes hsize hhash
    constructor
    · intro hnone
      exact buildManifest_of_relativeFilepath_error hsize hhash (relativeFilepath_of_none hnone)
    · intro rest hrest hdots
      exact buildManifest_of_relativeFilepath_error hsize hhash
        (relativeFilepath_of_hasDotDot hrest hdots)
  · intro manifest hresult filepath
    obtain ⟨-, _, _, _, -, hpath, -, -, -, -, -, rfl⟩ := buildManifest_eq_ok_iff.mp hresult
    obtain ⟨habs, hdots, hjoin⟩ := join_parse_of_relativeFilepath hpath
    refine ⟨habs, hdots, fun directory _ hdirectory => atOrBelow_join hdirectory habs hdots, hjoin, ?_⟩
    intro sourceFile' fecParams' sessionId' senderIndex' shardModulus' senderBpsLimit' manifest' hresult'
      hne heq
    obtain ⟨-, _, _, _, -, hpath', -, -, -, -, -, rfl⟩ := buildManifest_eq_ok_iff.mp hresult'
    -- both paths are the watch root joined with the same text
    obtain ⟨-, -, hjoin'⟩ := join_parse_of_relativeFilepath hpath'
    apply hne
    calc sourceFile'.path = watchRoot.join (parse _) := hjoin'.symm
      _ = watchRoot.join filepath := congrArg (fun text : String => watchRoot.join (parse text.toList)) heq
      _ = sourceFile.path := hjoin

end

end FileMonitor
