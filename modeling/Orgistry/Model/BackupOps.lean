import Orgistry.Model.BackupCatalog
import Mathlib.Algebra.Order.Floor.Semiring
import Mathlib.Algebra.Order.Ring.Rat
import Mathlib.Data.Rat.Floor

/-!
# Backup commands against the object store

`encryptAndStore`, `ship-backup`, `ship-base-backup`, `catalog` and `prune` of
`tooling/backup-ops.mjs`, as the requests that they make.  Keys are those within
the bucket, under the prefix of the environment.  Times are milliseconds.  What
`Date.parse` does beyond the UTC format of the tooling depends on the engine, so
that it is a parameter, with `none` for `NaN`.
-/

namespace Orgistry.Model

open Sorting

/-- What is stored: an encrypted file by its digest, a metadata document, a
document without text, or text that is not JSON. -/
inductive StoredBody
  | file (sha256 : String)
  | document (metadata : MetadataDocument)
  | empty
  | malformed
  deriving DecidableEq

structure BucketObject extends StoredObject where
  body : StoredBody
  deriving DecidableEq

/-- The objects in the order in which a listing gives them. -/
structure Bucket where
  objects : List BucketObject
  distinct : (objects.map (fun object => object.key)).Nodup

namespace Bucket

def empty : Bucket := ⟨[], List.nodup_nil⟩

def list (bucket : Bucket) (keyPrefix : String) : List BucketObject :=
  bucket.objects.filter fun object => startsWith object.key keyPrefix

def deleteObject (bucket : Bucket) (key : String) : Bucket where
  objects := bucket.objects.filter fun object => object.key ≠ key
  distinct := bucket.distinct.sublist (List.filter_sublist.map _)

def put (bucket : Bucket) (object : BucketObject) : Bucket where
  objects := (bucket.deleteObject object.key).objects ++ [object]
  distinct := by
    rw [List.map_append, List.map_singleton, List.nodup_append]
    refine ⟨(bucket.deleteObject object.key).distinct, List.nodup_singleton _, ?_⟩
    intro key hkey _ hobject
    rw [List.mem_singleton] at hobject
    obtain ⟨other, hother, rfl⟩ := List.mem_map.mp hkey
    subst hobject
    simpa [deleteObject] using (List.mem_filter.mp hother).2

end Bucket

/-- A request, as far as it changes the bucket. -/
inductive StoreRequest
  | put (object : BucketObject)
  | delete (key : String)
  | read
  deriving DecidableEq

def StoreRequest.perform (bucket : Bucket) : StoreRequest → Bucket
  | .put object => bucket.put object
  | .delete key => bucket.deleteObject key
  | .read => bucket

def daysFromCivil (year month day : ℕ) : ℤ :=
  let year := if month ≤ 2 then year - 1 else year
  let dayOfYear := (153 * ((month + 9) % 12) + 2) / 5 + (day - 1)
  let yearOfEra := year % 400
  let dayOfEra := yearOfEra * 365 + yearOfEra / 4 - yearOfEra / 100 + dayOfYear
  (year / 400 * 146097 + dayOfEra : ℕ) - 719468

def digitsValue (digits : List Char) : Option ℕ :=
  if digits.all Char.isDigit then
    some (digits.foldl (fun value digit => 10 * value + (digit.toNat - '0'.toNat)) 0)
  else none

/-- `Date.parse` on `YYYY-MM-DDTHH:MM:SSZ`, the format of `nowIso`. -/
def parseUtc (timestamp : String) : Option ℤ :=
  match timestamp.toList with
  | [y₁, y₂, y₃, y₄, '-', m₁, m₂, '-', d₁, d₂, 'T', h₁, h₂, ':', n₁, n₂, ':', s₁, s₂, 'Z'] => do
      let year ← digitsValue [y₁, y₂, y₃, y₄]
      let month ← digitsValue [m₁, m₂]
      let day ← digitsValue [d₁, d₂]
      let hour ← digitsValue [h₁, h₂]
      let minute ← digitsValue [n₁, n₂]
      let second ← digitsValue [s₁, s₂]
      if 1 ≤ month ∧ month ≤ 12 ∧ 1 ≤ day ∧ day ≤ 31 ∧ hour ≤ 23 ∧ minute ≤ 59 ∧ second ≤ 59 then
        return (((daysFromCivil year month day * 24 + hour) * 60 + minute) * 60 + second) * 1000
      else none
  | _ => none

/-- An encrypted file as it is put, and the times at which the store receives
the file and its metadata. -/
structure Upload where
  size : ℕ
  sha256 : String
  storedAt : String
  describedAt : String
  deriving DecidableEq

/-- `encryptAndStore`: the artifact first, then its presence, then its metadata. -/
def encryptAndStore (storePrefix : String) (keys : ObjectKeys) (artifact createdAt : String)
    (upload : Upload) : List StoreRequest :=
  let storedMetadata : MetadataDocument :=
    { artifact := some artifact, createdAt := some createdAt,
      objectKey := some (storePrefix ++ keys.artifact), encryptedSha256 := some upload.sha256,
      encryptedBytes := some upload.size }
  [.put { key := storePrefix ++ keys.artifact, size := upload.size,
          lastModified := upload.storedAt, body := .file upload.sha256 },
    .read,
    .put { key := storePrefix ++ keys.metadata, size := 0, lastModified := upload.describedAt,
           body := .document storedMetadata }]

/-- `ship-backup`; `db-backup.sh` has named the dump. -/
def shipBackup (storePrefix artifactName createdAt : String) (upload : Upload) :
    List StoreRequest :=
  encryptAndStore storePrefix (logicalObjectKeys artifactName) artifactName createdAt upload

/-- `ship-base-backup`, named by the time at which it started. -/
def shipBaseBackup (storePrefix startedAt : String) (upload : Upload) : List StoreRequest :=
  let stamp := String.ofList (startedAt.toList.filter fun c => c ≠ '-' && c ≠ ':')
  let baseName := "orgistry-base-" ++ stamp
  encryptAndStore storePrefix (baseBackupObjectKeys baseName) (baseName ++ ".tar.gz") startedAt
    upload

/-- The recovery points of the metadata documents of a listing, or `none` when
one of them is not JSON. -/
def collect (listing : List BucketObject) (kind : BackupKind) :
    List BucketObject → Option (List RecoveryPoint)
  | [] => some []
  | object :: rest =>
      match object.body with
      | .empty => collect listing kind rest
      | .document metadata => do
          let storedObject :=
            (listing.find? fun stored => some stored.key = metadata.objectKey).map
              BucketObject.toStoredObject
          let points ← collect listing kind rest
          return buildRecoveryPoint metadata storedObject kind :: points
      | _ => none

def metadataObjects (listing : List BucketObject) : List BucketObject :=
  listing.filter fun object => endsWith object.key metadataSuffix

def encryptedObjects (listing : List BucketObject) : List BucketObject :=
  listing.filter fun object => endsWith object.key encryptedSuffix

/-- The three listings. -/
def logicalListing (storePrefix : String) (bucket : Bucket) : List BucketObject :=
  bucket.list (storePrefix ++ "logical/")

def baseListing (storePrefix : String) (bucket : Bucket) : List BucketObject :=
  bucket.list (storePrefix ++ "basebackup/")

def walListing (storePrefix : String) (bucket : Bucket) : List BucketObject :=
  encryptedObjects (bucket.list (storePrefix ++ "wal/"))

def readCatalog (storePrefix : String) (bucket : Bucket) : Option Catalog := do
  let logicalObjects := logicalListing storePrefix bucket
  let baseObjects := baseListing storePrefix bucket
  let logicalPoints ← collect logicalObjects .logical (metadataObjects logicalObjects)
  let basePoints ← collect baseObjects .base (metadataObjects baseObjects)
  return buildCatalog logicalPoints basePoints
    ((walListing storePrefix bucket).map BucketObject.toStoredObject)

/-- The retention of an accepted configuration: `positiveNumber` three times. -/
structure RetentionConfiguration where
  logicalDays : ℚ
  logicalMinimum : ℚ
  walDays : ℚ
  logicalDays_pos : 0 < logicalDays
  logicalMinimum_pos : 0 < logicalMinimum
  walDays_pos : 0 < walDays

section Prune

variable (dateParse : String → Option ℤ)

/-- `Date.parse(…) < limit`, which `NaN` is not. -/
def isBefore (limit : ℚ) (timestamp : String) : Bool :=
  match dateParse timestamp with
  | some time => (time : ℚ) < limit
  | none => false

/-- Everything after the protected points that is older than the window. -/
def expendable (protectedCount : ℕ) (limit : ℚ) (points : List RecoveryPoint) :
    List RecoveryPoint :=
  (points.drop protectedCount).filter fun point => isBefore dateParse limit point.takenAt

def surviving (protectedCount : ℕ) (limit : ℚ) (points : List RecoveryPoint) :
    List RecoveryPoint :=
  points.take protectedCount ++
    (points.drop protectedCount).filter fun point => !isBefore dateParse limit point.takenAt

/-- `${point.id}`. -/
def templateText (id : Option String) : String := id.getD "undefined"

/-- `id.replace(/\.tar\.gz$/, '')`. -/
def withoutArchiveSuffix (id : String) : String :=
  if endsWith id ".tar.gz" then String.ofList (id.toList.take (id.length - ".tar.gz".length))
  else id

/-- `deletePoint`: the artifact and then its metadata. -/
def deletePoint (storePrefix : String) (keys : ObjectKeys) : List StoreRequest :=
  [.delete (storePrefix ++ keys.artifact), .delete (storePrefix ++ keys.metadata)]

/-- `walCutoff`, or `none` for `NaN`. -/
def walCutoff (walWindow : ℚ) (survivingBases : List RecoveryPoint) : Option ℚ :=
  match survivingBases.getLast? with
  | none => some walWindow
  | some oldest => (dateParse oldest.takenAt).map fun start : ℤ => min walWindow (start : ℚ)

/-- Not `Date.parse(…) >= walCutoff`. -/
def isWalExpendable (cutoff : Option ℚ) (object : BucketObject) : Bool :=
  match dateParse object.lastModified, cutoff with
  | some time, some cutoff => (time : ℚ) < cutoff
  | _, _ => true

def millisecondsPerDay : ℚ := 86400000

/-- The deletions of logical backups, then of base backups until one without an
`id` throws, and then, when none did, of WAL segments. -/
def deletions (storePrefix : String) (retention : RetentionConfiguration) (now walNow : ℤ)
    (bucket : Bucket) (catalog : Catalog) : List StoreRequest :=
  let olderThanLogicalWindow := now - retention.logicalDays * millisecondsPerDay
  let expendableLogical :=
    expendable dateParse ⌊retention.logicalMinimum⌋₊ olderThanLogicalWindow catalog.logical
  let expendableBases := expendable dateParse 1 olderThanLogicalWindow catalog.baseBackups
  let named := expendableBases.takeWhile fun point => point.id.isSome
  let points :=
    expendableLogical.flatMap (fun point =>
        deletePoint storePrefix (logicalObjectKeys (templateText point.id))) ++
      named.flatMap (fun point =>
        deletePoint storePrefix
          (baseBackupObjectKeys (withoutArchiveSuffix (templateText point.id))))
  if named.length < expendableBases.length then points
  else
    let cutoff := walCutoff dateParse (walNow - retention.walDays * millisecondsPerDay)
      (surviving dateParse 1 olderThanLogicalWindow catalog.baseBackups)
    points ++ .read ::
      ((walListing storePrefix bucket).filter (isWalExpendable dateParse cutoff)).map fun object =>
        .delete (storePrefix ++ walObjectKey (walSegmentName object.key))

/-- `prune`: three listings and the documents, and then the deletions.  The clock
is read before the backups are deleted and again before the WAL is. -/
def prune (storePrefix : String) (retention : RetentionConfiguration) (now walNow : ℤ)
    (bucket : Bucket) : List StoreRequest :=
  let documents := (metadataObjects (logicalListing storePrefix bucket)).length +
    (metadataObjects (baseListing storePrefix bucket)).length
  List.replicate (3 + documents) .read ++
    match readCatalog storePrefix bucket with
    | none => []
    | some catalog => deletions dateParse storePrefix retention now walNow bucket catalog

end Prune

end Orgistry.Model
