import FileMonitor.Library.Hex
import FileMonitor.Main.Core

/-!
# The hasher at work

`adapters/blake3_hasher.py` reads the file chunk by chunk on a worker thread, while other processes may
write it.  The two loops are put next to the files here: `stat` and every read see the content a file
has at that moment.  The digest function is a parameter.
-/

namespace FileMonitor

/-- `CHUNK_SIZE`. -/
def chunkSize : ℕ := 1048576

/-- `hexdigest` of the bytes fed to a hasher. -/
def hexdigest (blake3 : Bytes → Bytes) (fed : Bytes) : String := String.ofList (Hex.encode (blake3 fed))

/-- The files, the bytes fed to the current hasher, and the two loops. -/
structure Workspace where
  files : PosixPath → Bytes
  fed : Bytes
  core : Core

inductive WorkspaceAction where
  /-- Another process gives a file a new content: by writing, appending or truncating. -/
  | write (path : PosixPath) (content : Bytes)
  /-- `path.stat()`. -/
  | stat
  /-- A read of the hasher is given up to `count` bytes.  `file_handle.read(CHUNK_SIZE)` may take
  several of these. -/
  | read (count : ℕ)
  | core (action : CoreAction)

inductive WorkspaceEvent where
  | written (path : PosixPath) (content : Bytes)
  | core (event : CoreEvent)
deriving DecidableEq

namespace Workspace

variable (pb : Protobuf) (dispatcher : SessionDispatcher) (blake3 : Bytes → Bytes)

/-- A step of the two loops alone. -/
def stepCore (workspace : Workspace) (action : CoreAction) :
    Option (Workspace × List WorkspaceEvent) := do
  let (core, events) ← workspace.core.step pb dispatcher action
  pure ({ workspace with core := core }, events.map .core)

def step (workspace : Workspace) : WorkspaceAction → Option (Workspace × List WorkspaceEvent)
  | .write path content =>
    some ({ workspace with files := Function.update workspace.files path content },
      [.written path content])
  | .stat =>
    match workspace.core.asks with
    | some (.stat path) =>
      -- the hasher that comes next has not been fed anything
      { workspace with fed := [] }.stepCore pb dispatcher (.statEnds (.ok (workspace.files path).length))
    | _ => none
  | .read count =>
    match workspace.core.asks with
    | some (.computeHash path) =>
      if 0 < count ∧ count ≤ chunkSize then
        let chunk := ((workspace.files path).drop workspace.fed.length).take count
        if chunk = [] then
          workspace.stepCore pb dispatcher (.hashEnds (.ok (hexdigest blake3 workspace.fed)))
        else some ({ workspace with fed := workspace.fed ++ chunk }, [])
      else none
    | _ => none
  | .core (.statEnds (.ok _)) | .core (.hashEnds (.ok _)) => none
  | .core action => workspace.stepCore pb dispatcher action

/-- The two loops and the files as a machine. -/
def machine (files : PosixPath → Bytes) : EventMachine Workspace WorkspaceAction WorkspaceEvent where
  init := { files := files, fed := [], core := .initial }
  step := step pb dispatcher blake3

end Workspace

end FileMonitor
