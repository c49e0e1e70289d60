import Orgistry.Sorting.Collation
import Orgistry.Sorting.Stable

/-!
# The backup catalog

Names of stored objects, recovery points and the recovery window of
`tooling/lib/backup-catalog.mjs`, and the WAL files that `archive_command` puts
into the spool, under the names that `WAL_FILE_PATTERN` accepts.  Of a metadata
document only what the commands decide by is kept; the catalog shows the rest.
-/

namespace Orgistry.Model

open Sorting

/-- A 32-bit number of a file name, written with eight digits. -/
abbrev Hex8 := Fin (16 ^ 8)

/-- How many segments have the same middle eight digits: 4 GiB over the segment
size of the server. -/
structure WalLayout where
  segmentsPerLog : ℕ
  pos : 0 < segmentsPerLog
  le : segmentsPerLog ≤ 16 ^ 8

/-- A segment by its timeline and its number in the WAL. -/
structure WalSegment (layout : WalLayout) where
  timeline : Hex8
  number : ℕ
  named : number / layout.segmentsPerLog < 16 ^ 8
  deriving DecidableEq

def hex8 (n : ℕ) : String := String.ofList (hexDigits 8 n)

namespace WalSegment

variable {layout : WalLayout}

/-- Three times eight digits. -/
def name (segment : WalSegment layout) : String :=
  hex8 segment.timeline ++ (hex8 (segment.number / layout.segmentsPerLog) ++
    hex8 (segment.number % layout.segmentsPerLog))

/-- The order of writing, timeline after timeline. -/
def order (left right : WalSegment layout) : Ordering :=
  (compare left.timeline.val right.timeline.val).then (compare left.number right.number)

end WalSegment

/-- The files of the archive. -/
inductive WalFile (layout : WalLayout)
  | segment (wal : WalSegment layout)
  | history (timeline : Hex8)
  | backup (wal : WalSegment layout) (offset : Hex8)
  | partialCopy (wal : WalSegment layout)
  deriving DecidableEq

def WalFile.name {layout : WalLayout} : WalFile layout → String
  | .segment wal => wal.name
  | .history timeline => hex8 timeline ++ ".history"
  | .backup wal offset => wal.name ++ ("." ++ (hex8 offset ++ ".backup"))
  | .partialCopy wal => wal.name ++ ".partial"

def isHexDigit (c : Char) : Bool := '0' ≤ c && c ≤ '9' || 'A' ≤ c && c ≤ 'F'

/-- What follows the first digits, as many as `count`. -/
def afterHex (count : ℕ) (text : List Char) : Option (List Char) :=
  if count ≤ text.length ∧ (text.take count).all isHexDigit then some (text.drop count) else none

/-- The names that `WAL_FILE_PATTERN` accepts. -/
def isWalFileName (name : String) : Bool :=
  let long := (afterHex 24 name.toList).any fun suffix =>
    suffix = [] || suffix = ".partial".toList || suffix.head? = some '.' &&
      afterHex 8 suffix.tail = some ".backup".toList
  long || afterHex 8 name.toList = some ".history".toList

def encryptedSuffix : String := ".enc"

/-- The stored name of one archived WAL segment. -/
def walObjectKey (segmentName : String) : String := "wal/" ++ (segmentName ++ encryptedSuffix)

/-- The part of a key after its last slash. -/
def afterLastSlash (key : List Char) : List Char := (key.reverse.takeWhile (· ≠ '/')).reverse

def walSegmentName (objectKey : String) : String :=
  let withoutPrefix := afterLastSlash objectKey.toList
  if encryptedSuffix.toList.isSuffixOf withoutPrefix then
    String.ofList (withoutPrefix.take (withoutPrefix.length - encryptedSuffix.length))
  else String.ofList withoutPrefix

/-- An entry of a bucket listing. -/
structure StoredObject where
  key : String
  size : ℕ
  lastModified : String
  deriving DecidableEq

/-- `bytes` is missing when there is no WAL. -/
structure WalWindow where
  segments : ℕ
  earliestSegment : String
  latestSegment : String
  earliestArchivedAt : String
  latestArchivedAt : String
  bytes : Option ℕ
  deriving DecidableEq

def summariseWalWindow (walObjects : List StoredObject) : WalWindow :=
  let sorted := walObjects.insertionSort (NotAfter StoredObject.key)
  let byTime := walObjects.insertionSort (NotAfter StoredObject.lastModified)
  match sorted.head?, sorted.getLast?, byTime.head?, byTime.getLast? with
  | some first, some last, some oldest, some newest =>
      { segments := walObjects.length
        earliestSegment := walSegmentName first.key
        latestSegment := walSegmentName last.key
        earliestArchivedAt := oldest.lastModified
        latestArchivedAt := newest.lastModified
        bytes := some (walObjects.map StoredObject.size).sum }
  | _, _, _, _ =>
      { segments := 0, earliestSegment := "", latestSegment := "", earliestArchivedAt := "",
        latestArchivedAt := "", bytes := none }

def startsWith (s start : String) : Bool := start.toList.isPrefixOf s.toList

def endsWith (s ending : String) : Bool := ending.toList.isSuffixOf s.toList

def metadataSuffix : String := ".meta.json"

structure ObjectKeys where
  artifact : String
  metadata : String
  deriving DecidableEq

def logicalObjectKeys (artifactName : String) : ObjectKeys :=
  { artifact := "logical/" ++ (artifactName ++ encryptedSuffix)
    metadata := "logical/" ++ (artifactName ++ metadataSuffix) }

def baseBackupObjectKeys (baseName : String) : ObjectKeys :=
  { artifact := "basebackup/" ++ (baseName ++ (".tar.gz" ++ encryptedSuffix))
    metadata := "basebackup/" ++ (baseName ++ metadataSuffix) }

/-- A member that a document does not have is `none`. -/
structure MetadataDocument where
  artifact : Option String
  createdAt : Option String
  objectKey : Option String
  encryptedSha256 : Option String
  encryptedBytes : Option ℕ
  deriving DecidableEq

inductive BackupKind
  | logical
  | base
  deriving DecidableEq

inductive UploadState
  | uploaded
  | orphanedMetadata
  deriving DecidableEq

structure RecoveryPoint where
  id : Option String
  kind : BackupKind
  takenAt : String
  objectKey : String
  uploadState : UploadState
  deriving DecidableEq

def buildRecoveryPoint (metadata : MetadataDocument) (storedObject : Option StoredObject)
    (kind : BackupKind) : RecoveryPoint :=
  { id := metadata.artifact
    kind
    takenAt := metadata.createdAt.getD ""
    objectKey := (storedObject.map StoredObject.key).getD ""
    uploadState := if storedObject.isSome then .uploaded else .orphanedMetadata }

/-- `byTakenAtDescending`. -/
def ByTakenAtDescending (left right : RecoveryPoint) : Prop :=
  NotAfter RecoveryPoint.takenAt right left

instance : DecidableRel ByTakenAtDescending :=
  fun _ _ => inferInstanceAs (Decidable (NotAfter _ _ _))

structure Catalog where
  logical : List RecoveryPoint
  baseBackups : List RecoveryPoint
  wal : WalWindow
  deriving DecidableEq

def buildCatalog (logicalPoints basePoints : List RecoveryPoint)
    (walObjects : List StoredObject) : Catalog :=
  { logical := logicalPoints.insertionSort ByTakenAtDescending
    baseBackups := basePoints.insertionSort ByTakenAtDescending
    wal := summariseWalWindow walObjects }

end Orgistry.Model
