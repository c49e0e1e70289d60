import Mathlib.Algebra.Order.Field.Rat
import Orgistry.Model.BackupCatalog

/-!
# WAL archive health

`evaluateWalArchiveHealth` of `tooling/lib/backup-health.mjs` and the readings
that `wal-health` of `tooling/backup-ops.mjs` feeds it, of a server that writes
WAL, its archiver, the spool and the object store.  Times are milliseconds.  The
texts of the checks, and what only they show, are left out.
-/

namespace Orgistry.Model

inductive HealthStatus
  | pass
  | fail
  | warn
  deriving DecidableEq

structure HealthCheck where
  name : String
  status : HealthStatus
  deriving DecidableEq

/-- A time that the statistics do not have is an empty text, here `none`. -/
structure ArchiverState where
  archiveMode : String
  archivedCount : ℕ
  lastArchivedTime : Option ℤ
  failedCount : ℕ
  lastFailedTime : Option ℤ
  walPending : Bool

structure SpoolState where
  pendingSegments : ℕ
  oldestPendingAgeMinutes : ℚ

structure RecoveryWindowSummary where
  earliestArchivedAt : String
  latestArchivedAt : String
  segments : ℕ

structure HealthResult where
  healthy : Bool
  failedCount : ℕ
  warnedCount : ℕ
  checks : List HealthCheck
  recoveryWindow : RecoveryWindowSummary

def millisecondsPerMinute : ℚ := 60000

def minutesBetween (later earlier : ℤ) : ℚ := (later - earlier : ℤ) / millisecondsPerMinute

/-- Pass or fail. -/
def check (name : String) (passes : Bool) : HealthCheck :=
  { name, status := if passes then .pass else .fail }

/-- A failure matters until a later success, compared by the seconds. -/
def recovered (archiver : ArchiverState) (lastFailed : ℤ) : Bool :=
  archiver.lastArchivedTime.any fun lastArchived => lastFailed < lastArchived

def archiveCommandCheck (archiver : ArchiverState) : HealthCheck :=
  match archiver.failedCount, archiver.lastFailedTime with
  | _ + 1, some lastFailed =>
      { name := "archive_command not failing",
        status := if recovered archiver lastFailed then .warn else .fail }
  | _, _ => check "archive_command not failing" true

/-- Whether the last success is within the limit, which is asked for only while
WAL is pending. -/
def withinLimit (walMaxAgeMinutes : ℚ) (now lastArchived : ℤ) : Bool :=
  minutesBetween now lastArchived ≤ walMaxAgeMinutes

def recentArchiveCheck (archiver : ArchiverState) (now : ℤ) (walMaxAgeMinutes : ℚ) :
    List HealthCheck :=
  match archiver.lastArchivedTime with
  | none => []
  | some lastArchived =>
      [check "recent WAL archived locally"
        (!archiver.walPending || withinLimit walMaxAgeMinutes now lastArchived)]

def spoolCheck (spool : SpoolState) (walMaxAgeMinutes : ℚ) : HealthCheck :=
  check "WAL spool drained"
    (spool.pendingSegments = 0 || spool.oldestPendingAgeMinutes ≤ walMaxAgeMinutes)

/-- `Date.parse` gives `NaN` for `none`, which is within no limit. -/
def offHostCheck (dateParse : String → Option ℤ) (archiver : ArchiverState) (walWindow : WalWindow)
    (now : ℤ) (walMaxAgeMinutes : ℚ) : List HealthCheck :=
  if walWindow.latestArchivedAt = "" then []
  else
    [check "off-host WAL is current"
      (!archiver.walPending || (dateParse walWindow.latestArchivedAt).any fun stored =>
        minutesBetween now stored ≤ walMaxAgeMinutes * 2)]

def summarise (checks : List HealthCheck) (recoveryWindow : RecoveryWindowSummary) :
    HealthResult :=
  let failed := checks.filter fun entry => entry.status = .fail
  let warned := checks.filter fun entry => entry.status = .warn
  { healthy := failed.length = 0, failedCount := failed.length, warnedCount := warned.length,
    checks, recoveryWindow }

def evaluateWalArchiveHealth (dateParse : String → Option ℤ) (archiver : ArchiverState)
    (spool : SpoolState) (walWindow : WalWindow) (now : ℤ) (walMaxAgeMinutes : ℚ) :
    HealthResult :=
  summarise
    ([check "archive_mode" (archiver.archiveMode = "on"),
        check "WAL segments archived" (0 < archiver.archivedCount),
        archiveCommandCheck archiver] ++
      recentArchiveCheck archiver now walMaxAgeMinutes ++
      [spoolCheck spool walMaxAgeMinutes,
        check "WAL present off-host" (0 < walWindow.segments)] ++
      offHostCheck dateParse archiver walWindow now walMaxAgeMinutes)
    { earliestArchivedAt := walWindow.earliestArchivedAt,
      latestArchivedAt := walWindow.latestArchivedAt, segments := walWindow.segments }

/-- A file that the server has completed, and when `archive_command` has succeeded
for it. -/
structure CompletedFile (layout : WalLayout) where
  file : WalFile layout
  completedAt : ℤ
  archivedAt : Option ℤ
  deriving DecidableEq

/-- A file of the spool with its modification time. -/
structure SpoolFile (layout : WalLayout) where
  file : WalFile layout
  mtime : ℤ
  deriving DecidableEq

/-- The server with the statistics of its archiver, the spool, and the WAL in the
object store. -/
structure WalSystem (layout : WalLayout) where
  now : ℤ
  archiveMode : String
  completed : List (CompletedFile layout)
  currentOffset : ℕ
  archivedCount : ℕ
  lastArchivedTime : Option ℤ
  failedCount : ℕ
  lastFailedTime : Option ℤ
  spool : List (SpoolFile layout)
  stored : List StoredObject

/-- What can happen.  A hanging archiver and a shipper that does not run are the
steps that do not come. -/
inductive WalStep (layout : WalLayout)
  | tick (elapsed : ℕ)
  | write (bytes : ℕ)
  | complete (file : WalFile layout) (offset : ℕ)
  | archive (file : WalFile layout) (mtime : ℤ)
  | archiveFails
  | ship (file : WalFile layout) (object : StoredObject)
  | resetStatistics

section System

variable {layout : WalLayout}

/-- `archive_command` succeeds for a completed file that is not in the spool. -/
def WalSystem.MayArchive (system : WalSystem layout) (file : WalFile layout) (mtime : ℤ) : Prop :=
  (∃ entry ∈ system.completed, entry.file = file ∧ entry.archivedAt = none) ∧
    (∀ entry ∈ system.spool, entry.file ≠ file) ∧ mtime ≤ system.now

instance (system : WalSystem layout) (file : WalFile layout) (mtime : ℤ) :
    Decidable (system.MayArchive file mtime) := inferInstanceAs (Decidable (_ ∧ _ ∧ _))

def CompletedFile.archived (entry : CompletedFile layout) (file : WalFile layout) (time : ℤ) :
    CompletedFile layout :=
  if entry.file = file then { entry with archivedAt := some time } else entry

/-- One step, where it is possible. -/
def WalSystem.step (storePrefix : String) (system : WalSystem layout) :
    WalStep layout → Option (WalSystem layout)
  | .tick elapsed => some { system with now := system.now + elapsed }
  | .write bytes => some { system with currentOffset := system.currentOffset + bytes }
  | .complete file offset =>
      if ∃ entry ∈ system.completed, entry.file = file then none
      else
        some { system with
          completed := system.completed ++ [⟨file, system.now, none⟩], currentOffset := offset }
  | .archive file mtime =>
      if system.MayArchive file mtime then
        some { system with
          completed := system.completed.map fun entry => entry.archived file system.now
          archivedCount := system.archivedCount + 1
          lastArchivedTime := some system.now
          spool := system.spool ++ [⟨file, mtime⟩] }
      else none
  | .archiveFails =>
      some { system with
        failedCount := system.failedCount + 1, lastFailedTime := some system.now }
  | .ship file object =>
      if (∃ entry ∈ system.spool, entry.file = file) ∧
          object.key = storePrefix ++ walObjectKey file.name then
        some { system with
          spool := system.spool.filter fun entry => entry.file ≠ file
          stored := (system.stored.filter fun other => other.key ≠ object.key) ++ [object] }
      else none
  | .resetStatistics =>
      some { system with
        archivedCount := 0, lastArchivedTime := none, failedCount := 0, lastFailedTime := none }

def WalSystem.run (storePrefix : String) (system : WalSystem layout) :
    List (WalStep layout) → Option (WalSystem layout)
  | [] => some system
  | step :: steps => (system.step storePrefix step).bind fun next => next.run storePrefix steps

/-- The times of `toIso` and `nowIso` have no milliseconds. -/
def toIso (time : ℤ) : ℤ := time / 1000 * 1000

def emptyWalSegmentAllowanceBytes : ℕ := 512

def readArchiverState (system : WalSystem layout) : ArchiverState :=
  { archiveMode := system.archiveMode
    archivedCount := system.archivedCount
    lastArchivedTime := system.lastArchivedTime.map toIso
    failedCount := system.failedCount
    lastFailedTime := system.lastFailedTime.map toIso
    walPending := emptyWalSegmentAllowanceBytes < system.currentOffset }

/-- An unset directory and one that cannot be listed are read as an empty spool. -/
def readSpoolState (configured readable : Bool) (system : WalSystem layout) : SpoolState :=
  if !configured then { pendingSegments := 0, oldestPendingAgeMinutes := 0 }
  else
    let entries := if readable then system.spool else []
    let oldest := entries.foldl (fun oldest entry => min oldest entry.mtime) system.now
    { pendingSegments := entries.length
      oldestPendingAgeMinutes := if entries.length = 0 then 0
        else minutesBetween system.now oldest }

/-- `wal-health`. -/
def walHealth (dateParse : String → Option ℤ) (configured readable : Bool)
    (walMaxAgeMinutes : ℚ) (system : WalSystem layout) : HealthResult :=
  evaluateWalArchiveHealth dateParse (readArchiverState system)
    (readSpoolState configured readable system) (summariseWalWindow system.stored)
    (toIso system.now) walMaxAgeMinutes

end System

end Orgistry.Model
