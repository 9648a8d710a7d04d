import Mathlib.Logic.Function.Basic
import Vpsiner.Lib.Machine

/-! The guard that runs before any store is opened: the versions the databases were written
with against the versions of this build. -/

set_option autoImplicit false

namespace Vpsiner.DbVersion

open Lib

def metadataDbVersion : UInt32 := 3
def logsDbVersion : UInt32 := 3
def metricsDbVersion : UInt32 := 3

def envForce : String := "VPSINER_FORCE_DB_MIGRATION"

structure DbVersions where
  metadata : UInt32
  logs : UInt32
  metrics : UInt32
deriving DecidableEq, Repr

def DbVersions.current : DbVersions := ⟨metadataDbVersion, logsDbVersion, metricsDbVersion⟩

inductive DbKind where
  | metadata
  | logs
  | metrics
deriving DecidableEq, Repr

namespace DbKind

def all : List DbKind := [.metadata, .logs, .metrics]

def dirName : DbKind → String
  | .metadata => "metadata"
  | .logs => "logs"
  | .metrics => "metrics"

def label : DbKind → String
  | .metadata => "metadata"
  | .logs => "logs"
  | .metrics => "metrics"

def expected : DbKind → UInt32
  | .metadata => metadataDbVersion
  | .logs => logsDbVersion
  | .metrics => metricsDbVersion

def recorded (kind : DbKind) (versions : DbVersions) : UInt32 :=
  match kind with
  | .metadata => versions.metadata
  | .logs => versions.logs
  | .metrics => versions.metrics

def contentsDescription : DbKind → String
  | .metadata => "internal bookkeeping vpsiner keeps about the data it collects"
  | .logs => "all archived container logs"
  | .metrics => "all historical host and container metrics"

end DbKind

/-! ## The data directory -/

/-- `versions.json` and the files of each database directory that is there. -/
structure DataDir where
  manifest : Option String
  databases : DbKind → Option (List String)

/-- The file-system calls that a start is made of. A directory is removed after its files, and
a file is written after it was created or truncated. -/
inductive FsStep where
  | createDataDir
  | removeFile (kind : DbKind) (file : String)
  | removeDir (kind : DbKind)
  | truncateManifest
  | writeManifest (body : String)
deriving DecidableEq, Repr

/-- A data directory that is missing holds what an empty one holds. -/
def FsStep.apply (data : DataDir) : FsStep → DataDir
  | .createDataDir => data
  | .removeFile kind file =>
      let files := (data.databases kind).map fun files => files.erase file
      { data with databases := Function.update data.databases kind files }
  | .removeDir kind => { data with databases := Function.update data.databases kind none }
  | .truncateManifest => { data with manifest := some "" }
  | .writeManifest body => { data with manifest := some body }

/-- The JSON text of the versions. -/
structure ManifestFormat where
  toStringPretty : DbVersions → String
  fromString : String → Option DbVersions
  roundTrip : ∀ versions, fromString (toStringPretty versions) = some versions
  emptyText : fromString "" = none

variable (format : ManifestFormat)

/-- What the reads of a start come to. They may fail for a manifest and for directories that are
there. -/
structure StartReads where
  readable : Bool := true
  unseen : List DbKind := []
deriving DecidableEq, Repr

/-- No result when the manifest is absent or unreadable, and none when the reading fails. -/
def readVersions (data : DataDir) (reads : StartReads) : Option DbVersions :=
  if reads.readable then data.manifest.bind format.fromString else none

def writeVersions (versions : DbVersions) : List FsStep :=
  [.truncateManifest, .writeManifest (format.toStringPretty versions)]

/-- A directory that is not there is no error. -/
def removeDir (data : DataDir) (kind : DbKind) : List FsStep :=
  match data.databases kind with
  | none => []
  | some files => files.map (.removeFile kind) ++ [.removeDir kind]

def incompatibleMessage (dataPath : String) (recorded : DbVersions) (stale : List DbKind) : String :=
  "incompatible database schema, refusing to start.\n\n" ++
  "The following databases were written by a different version of vpsiner:\n" ++
  String.join (stale.map fun kind =>
    "  - " ++ kind.label ++ ": on disk v" ++ toString (kind.recorded recorded) ++
      ", this build requires v" ++ toString kind.expected ++ "\n") ++
  "\nThis version requires a clean slate: the affected data has to be deleted\n" ++
  "and collection started from scratch. That means PERMANENTLY LOSING, with\n" ++
  "no backup:\n" ++
  String.join (stale.map fun kind =>
    "  - " ++ dataPath ++ "/" ++ kind.dirName ++ " - " ++ kind.contentsDescription ++ "\n") ++
  "\nBack up the data directory first if you want to keep any of it, then\n" ++
  "either restart vpsiner once with:\n\n" ++
  "    " ++ envForce ++ "=1\n\n" ++
  "which deletes the paths above for you, or delete them yourself while\n" ++
  "vpsiner is stopped and start it again normally."

/-- A mismatch for a database that was never created, or was deleted by hand, needs no wipe. -/
def staleKinds (data : DataDir) (reads : StartReads) (recorded : DbVersions) : List DbKind :=
  (DbKind.all.filter fun kind => kind.recorded recorded ≠ kind.expected).filter fun kind =>
    (data.databases kind).isSome && !reads.unseen.contains kind

/-- The calls of a start, in their order, and its result when each of them succeeds. What it
reads it reads before it changes anything. -/
def evaluate (dataPath : String) (data : DataDir) (force : Bool) (reads : StartReads) :
    List FsStep × Except String Unit :=
  match readVersions format data reads with
  | none =>
      (.createDataDir :: (DbKind.all.flatMap (removeDir data) ++ writeVersions format .current),
        .ok ())
  | some recorded =>
      let stale := staleKinds data reads recorded
      if stale = [] then
        if recorded ≠ .current then (.createDataDir :: writeVersions format .current, .ok ())
        else ([.createDataDir], .ok ())
      else if !force then ([.createDataDir], .error (incompatibleMessage dataPath recorded stale))
      else (.createDataDir :: (stale.flatMap (removeDir data) ++ writeVersions format .current), .ok ())

/-! ## Starts that are interrupted -/

/-- The data directory, and the calls that the running start still has to make. -/
structure Startup where
  data : DataDir
  pending : List FsStep

/-- A call that changes something and fails ends a start as a crash does. A read that fails does
not. -/
inductive StartupAction where
  | start (reads : StartReads)
  | proceed
  | crash
deriving DecidableEq, Repr

/-- One start after the other, none of them forced. -/
def startups (dataPath : String) (data : DataDir) : Machine Startup StartupAction where
  start := ⟨data, []⟩
  step state
    | .start reads =>
        if state.pending = [] then
          some { state with pending := (evaluate format dataPath state.data false reads).1 }
        else none
    | .proceed =>
        match state.pending with
        | [] => none
        | step :: rest => some ⟨step.apply state.data, rest⟩
    | .crash => some { state with pending := [] }

end Vpsiner.DbVersion
