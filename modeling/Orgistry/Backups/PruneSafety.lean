import Orgistry.Backups.CatalogTruth
import Orgistry.Backups.RecoveryWindow
import Mathlib.Data.List.TakeWhile

/-!
# What a prune leaves

A prune should leave enough logical backups, the newest base backup, and the WAL
that the remaining base backups need.  The code protects by position in the
catalog, by string order, and by the age of the last base backup of the list;
this file says for which buckets that is enough.
-/

namespace Orgistry.Model

open Sorting

/-- A metadata document whose artifact is stored. -/
structure StoredBackup where
  key : String
  objectKey : String
  createdAt : Option String
  deriving DecidableEq

/-- A metadata document and the key under which it is stored. -/
structure BackupDocument where
  key : String
  metadata : MetadataDocument
  deriving DecidableEq

namespace BackupDocument

variable (listing : List BucketObject) (document : BackupDocument)

/-- The backup that a document describes, unless it is orphaned. -/
def stored : Option StoredBackup :=
  (listing.find? fun stored => some stored.key = document.metadata.objectKey).map fun stored =>
    { key := document.key, objectKey := stored.key, createdAt := document.metadata.createdAt }

/-- Its point in the catalog. -/
def point (kind : BackupKind) : RecoveryPoint :=
  buildRecoveryPoint document.metadata
    ((listing.find? fun stored => some stored.key = document.metadata.objectKey).map
      BucketObject.toStoredObject) kind

end BackupDocument

def backupDocument (object : BucketObject) : Option BackupDocument :=
  match object.body with
  | .document metadata => some { key := object.key, metadata }
  | _ => none

def backupDocuments (listing : List BucketObject) : List BackupDocument :=
  (metadataObjects listing).filterMap backupDocument

def ByCreatedAtDescending (left right : BackupDocument) : Prop :=
  NotAfter (fun document : BackupDocument => document.metadata.createdAt.getD "") right left

instance : DecidableRel ByCreatedAtDescending :=
  fun _ _ => inferInstanceAs (Decidable (NotAfter _ _ _))

/-- The documents in the order of the catalog, orphaned ones included. -/
def rankedDocuments (listing : List BucketObject) : List BackupDocument :=
  (backupDocuments listing).insertionSort ByCreatedAtDescending

/-- The backups of a listing. -/
def storedBackups (listing : List BucketObject) : List StoredBackup :=
  (backupDocuments listing).filterMap (BackupDocument.stored listing)

section Spec

variable (dateParse : String → Option ℤ) (storePrefix : String)

/-- When the backup was taken, if that can be told. -/
def StoredBackup.takenAt (backup : StoredBackup) : Option ℤ :=
  dateParse (backup.createdAt.getD "")

/-- Both ages are known, and the one backup is as new as the other. -/
def StoredBackup.NotOlder (backup other : StoredBackup) : Prop :=
  ∃ taken ∈ backup.takenAt dateParse, ∃ taken' ∈ other.takenAt dateParse, taken' ≤ taken

/-- What should hold of a prune: for a logical backup that is lost the required
number of backups as new is left, for a base backup one as new, and WAL is lost
only if its age is known and all remaining base backups started later. -/
structure KeepsRecoverable (retention : RetentionConfiguration) (before after : Bucket) :
    Prop where
  logical : ∀ backup ∈ storedBackups (logicalListing storePrefix before),
    backup ∉ storedBackups (logicalListing storePrefix after) →
      ∃ others : List StoredBackup,
        others.Sublist (storedBackups (logicalListing storePrefix after)) ∧
        retention.logicalMinimum ≤ others.length ∧
          ∀ other ∈ others, other.NotOlder dateParse backup
  base : ∀ backup ∈ storedBackups (baseListing storePrefix before),
    backup ∉ storedBackups (baseListing storePrefix after) →
      ∃ other ∈ storedBackups (baseListing storePrefix after), other.NotOlder dateParse backup
  wal : ∀ object ∈ walListing storePrefix before, object ∉ after.objects →
    ∃ time, dateParse object.lastModified = some time ∧
      ∀ backup ∈ storedBackups (baseListing storePrefix after),
        ∀ start ∈ backup.takenAt dateParse, time < start

variable (retention : RetentionConfiguration) (now walNow : ℤ) (catalog : Catalog)

/-- The point was taken before the window of backups. -/
def PastWindow (point : RecoveryPoint) : Prop :=
  isBefore dateParse (now - retention.logicalDays * millisecondsPerDay) point.takenAt = true

/-- A logical backup that goes: the whole part of the minimum many points, with
or without artifact, stand before it in the catalog. -/
def LogicalPointGoes (point : RecoveryPoint) : Prop :=
  ∃ front back, catalog.logical = front ++ point :: back ∧
    ⌊retention.logicalMinimum⌋₊ ≤ front.length ∧ PastWindow dateParse retention now point

/-- A base backup that goes: some point stands before it, and none that should
go and has no name. -/
def BasePointGoes (point : RecoveryPoint) : Prop :=
  ∃ first middle back, catalog.baseBackups = first :: middle ++ point :: back ∧
    PastWindow dateParse retention now point ∧ point.id.isSome = true ∧
      ∀ other ∈ middle, PastWindow dateParse retention now other → other.id.isSome = true

/-- A point that goes takes the objects of its name with it. -/
def KeyGoes (key : String) : Prop :=
  (∃ point, LogicalPointGoes dateParse retention now catalog point ∧
    (key = storePrefix ++ (logicalObjectKeys (templateText point.id)).artifact ∨
      key = storePrefix ++ (logicalObjectKeys (templateText point.id)).metadata)) ∨
  ∃ point, BasePointGoes dateParse retention now catalog point ∧
    (key = storePrefix ++
        (baseBackupObjectKeys (withoutArchiveSuffix (templateText point.id))).artifact ∨
      key = storePrefix ++
        (baseBackupObjectKeys (withoutArchiveSuffix (templateText point.id))).metadata)

def BackupGoes (backup : StoredBackup) : Prop :=
  KeyGoes dateParse storePrefix retention now catalog backup.key ∨
    KeyGoes dateParse storePrefix retention now catalog backup.objectKey

/-- A place that keeps no backup as new as the one: its document is orphaned, its
time is unknown or earlier, or it goes by its name. -/
def KeepsNone (listing : List BucketObject) (backup : StoredBackup)
    (document : BackupDocument) : Prop :=
  document.stored listing = none ∨ ∃ other ∈ document.stored listing,
    ¬other.NotOlder dateParse backup ∨ BackupGoes dateParse storePrefix retention now catalog other

open scoped Classical in
/-- As many places behind those that the minimum protects keep a backup as new as
the one as there are protected places that keep none, and one more when the
minimum is not a whole number. -/
def MadeUpFor (minimum : ℚ) (listing : List BucketObject) (backup : StoredBackup) : Prop :=
  minimum + ((rankedDocuments listing).take ⌊minimum⌋₊).countP
      (KeepsNone dateParse storePrefix retention now catalog listing backup) ≤
    ⌊minimum⌋₊ + ((rankedDocuments listing).drop ⌊minimum⌋₊).countP
      fun document => ¬KeepsNone dateParse storePrefix retention now catalog listing backup document

/-- WAL of a known age is kept when there are no base backups and it is in the
window of WAL, or when the last base backup of the catalog that stays has a known
start and the time is not before both that start and the window. -/
def WalStays (time : ℤ) : Prop :=
  catalog.baseBackups = [] ∧ walNow - retention.walDays * millisecondsPerDay ≤ time ∨
  ∃ front last back, catalog.baseBackups = front ++ last :: back ∧
    (front = [] ∨ ¬PastWindow dateParse retention now last) ∧
      (∀ point ∈ back, PastWindow dateParse retention now point) ∧
        ∃ start, dateParse last.takenAt = some start ∧
          (walNow - retention.walDays * millisecondsPerDay ≤ time ∨ start ≤ time)

/-- WAL of unknown age, or stored after the start of a base backup that stays. -/
def WalNeeded (before : Bucket) (object : BucketObject) : Prop :=
  dateParse object.lastModified = none ∨
    ∃ backup ∈ storedBackups (baseListing storePrefix before),
      ¬BackupGoes dateParse storePrefix retention now catalog backup ∧
        ∃ start ∈ backup.takenAt dateParse, ∃ time ∈ dateParse object.lastModified, start ≤ time

/-- Orphaned documents, the minimum and the times do no harm: what goes is made up
for, and WAL that is needed is not named by WAL of an unknown or expired age.  WAL
goes unless a base backup that should go has no name. -/
structure SparesNeeded (before : Bucket) : Prop where
  logical : ∀ backup ∈ storedBackups (logicalListing storePrefix before),
    BackupGoes dateParse storePrefix retention now catalog backup →
      MadeUpFor dateParse storePrefix retention now catalog retention.logicalMinimum
        (logicalListing storePrefix before) backup
  base : ∀ backup ∈ storedBackups (baseListing storePrefix before),
    BackupGoes dateParse storePrefix retention now catalog backup →
      MadeUpFor dateParse storePrefix retention now catalog 1 (baseListing storePrefix before)
        backup
  wal : (∀ point ∈ catalog.baseBackups.tail,
      PastWindow dateParse retention now point → point.id.isSome = true) →
    ∀ object ∈ walListing storePrefix before,
      WalNeeded dateParse storePrefix retention now catalog before object →
        ∀ other ∈ walListing storePrefix before,
          storePrefix ++ walObjectKey (walSegmentName other.key) = object.key →
            ∃ time ∈ dateParse other.lastModified,
              WalStays dateParse retention now walNow catalog time

end Spec

section Listings

variable {keepKey : String → Bool} {listing : List BucketObject}

theorem find_filter_key (key : Option String) :
    (listing.filter fun object => keepKey object.key).find? (fun stored => some stored.key = key) =
      (listing.find? fun stored => some stored.key = key).filter
        fun stored => keepKey stored.key := by
  rw [List.find?_filter]
  cases hfound : listing.find? fun stored => some stored.key = key with
  | none =>
      rw [List.find?_eq_none] at hfound
      rw [Option.filter_none, List.find?_eq_none]
      intro object hobject
      have hkey := hfound object hobject
      simp_all
  | some stored =>
      have hstored : some stored.key = key := by simpa using List.find?_some hfound
      cases hkeep : keepKey stored.key with
      | true =>
          rw [Option.filter_some_pos (by exact hkeep), ← hfound]
          refine congrArg (listing.find? ·) (funext fun object => ?_)
          by_cases hkey : some object.key = key
          · have hsame : object.key = stored.key := Option.some.inj (hkey.trans hstored.symm)
            simp [hsame, hkeep]
          · simp [hkey]
      | false =>
          rw [Option.filter_some_neg (by simp [hkeep]), List.find?_eq_none]
          intro object hobject
          by_cases hkey : some object.key = key
          · have hsame : object.key = stored.key := Option.some.inj (hkey.trans hstored.symm)
            simp [hsame, hkeep]
          · simp [hkey]

theorem stored_filter (document : BackupDocument) :
    document.stored (listing.filter fun object => keepKey object.key) =
      (document.stored listing).filter fun backup => keepKey backup.objectKey := by
  rw [BackupDocument.stored, find_filter_key, BackupDocument.stored]
  cases listing.find? fun stored => some stored.key = document.metadata.objectKey with
  | none => rfl
  | some stored => cases hkept : keepKey stored.key <;> simp [Option.filter, hkept]

/-- Of the backups those are left that keep both of their objects. -/
theorem storedBackups_filter (keepKey : String → Bool) (listing : List BucketObject) :
    storedBackups (listing.filter fun object => keepKey object.key) =
      (storedBackups listing).filter fun backup =>
        keepKey backup.key && keepKey backup.objectKey := by
  have hdocuments : metadataObjects (listing.filter fun object => keepKey object.key) =
      (metadataObjects listing).filter fun object => keepKey object.key := by
    simp only [metadataObjects, List.filter_filter, Bool.and_comm]
  rw [storedBackups, backupDocuments, hdocuments, List.filterMap_filter, List.filterMap_filterMap,
    storedBackups, backupDocuments, List.filterMap_filterMap, List.filter_filterMap]
  refine List.filterMap_congr fun object _ => ?_
  cases hbody : object.body with
  | document metadata =>
      simp only [backupDocument, hbody, Option.bind_some, stored_filter]
      cases hstored : BackupDocument.stored listing { key := object.key, metadata } with
      | none => cases keepKey object.key <;> simp [hstored]
      | some backup =>
          obtain ⟨stored, -, rfl⟩ := Option.map_eq_some_iff.mp hstored
          cases hkey : keepKey object.key <;> cases hkept : keepKey stored.key <;>
            simp [hstored, hkey, hkept, Option.filter]
  | file | empty | malformed => simp [backupDocument, hbody]

end Listings

/-! ## What is deleted -/

section Positions

variable {α : Type*} {l : List α} {a : α} {p q : α → Bool}

theorem mem_drop_iff_append {n : ℕ} :
    a ∈ l.drop n ↔ ∃ front back, l = front ++ a :: back ∧ n ≤ front.length := by
  constructor
  · intro h
    obtain ⟨front, back, hsplit⟩ := List.append_of_mem h
    have hlength : n < l.length := by
      by_contra hle
      rw [List.drop_eq_nil_of_le (by omega)] at h
      cases h
    refine ⟨l.take n ++ front, back, ?_, ?_⟩
    · rw [List.append_assoc, ← hsplit, List.take_append_drop]
    · rw [List.length_append, List.length_take]
      omega
  · rintro ⟨front, back, rfl, hle⟩
    rw [List.drop_append_of_le_length hle]
    simp

/-- The elements before the first one that the filter keeps and `p` does not
hold of. -/
theorem mem_takeWhile_filter : a ∈ (l.filter q).takeWhile p ↔
    ∃ front back, l = front ++ a :: back ∧ q a = true ∧ p a = true ∧
      ∀ b ∈ front, q b = true → p b = true := by
  induction l with
  | nil => simp
  | cons x l ih =>
      have hcons : (∃ front back, x :: l = front ++ a :: back ∧ q a = true ∧ p a = true ∧
          ∀ b ∈ front, q b = true → p b = true) ↔
            (x = a ∧ q a = true ∧ p a = true) ∨ ((q x = true → p x = true) ∧
              ∃ front back, l = front ++ a :: back ∧ q a = true ∧ p a = true ∧
                ∀ b ∈ front, q b = true → p b = true) := by
        constructor
        · rintro ⟨front, back, hsplit, hq, hp, hall⟩
          cases front with
          | nil => exact .inl ⟨(List.cons.inj hsplit).1, hq, hp⟩
          | cons y front =>
              obtain ⟨rfl, hrest⟩ := List.cons.inj hsplit
              exact .inr ⟨hall x List.mem_cons_self, front, back, hrest, hq, hp,
                fun b hb => hall b (List.mem_cons_of_mem x hb)⟩
        · rintro (⟨rfl, hq, hp⟩ | ⟨hx, front, back, rfl, hq, hp, hall⟩)
          · exact ⟨[], l, rfl, hq, hp, by simp⟩
          · exact ⟨x :: front, back, rfl, hq, hp, List.forall_mem_cons.mpr ⟨hx, hall⟩⟩
      rw [hcons, ← ih]
      cases hq : q x <;> cases hp : p x <;> simp [hq, hp] <;> grind

/-- The last element that the filter keeps. -/
theorem getLast_filter_iff : (l.filter p).getLast? = some a ↔
    p a = true ∧ ∃ front back, l = front ++ a :: back ∧ ∀ b ∈ back, p b = false := by
  rw [← List.head?_reverse, ← List.filter_reverse, List.head?_filter,
    List.find?_eq_some_iff_append]
  simp only [Bool.not_eq_true']
  refine and_congr_right fun _ => ⟨?_, ?_⟩
  · rintro ⟨back, front, hsplit, hback⟩
    refine ⟨front.reverse, back.reverse, ?_, by simpa using hback⟩
    rw [← List.reverse_reverse l, hsplit]
    simp
  · rintro ⟨front, back, rfl, hback⟩
    exact ⟨back.reverse, front.reverse, by simp, by simpa using hback⟩

end Positions

/-- The last point that survives is the first one of all, or not past the
window, and all points after it are. -/
theorem getLast_surviving {dateParse : String → Option ℤ} {limit : ℚ}
    {points : List RecoveryPoint} {last : RecoveryPoint} :
    (surviving dateParse 1 limit points).getLast? = some last ↔
      ∃ front back, points = front ++ last :: back ∧
        (front = [] ∨ ¬isBefore dateParse limit last.takenAt = true) ∧
          ∀ point ∈ back, isBefore dateParse limit point.takenAt = true := by
  cases points with
  | nil => simp [surviving]
  | cons first rest =>
      have hsurviving : (surviving dateParse 1 limit (first :: rest)).getLast? = some
          (((rest.filter fun point =>
            !isBefore dateParse limit point.takenAt).getLast?).getD first) := by
        rw [← List.getLast?_cons]
        rfl
      rw [hsurviving, Option.some.injEq]
      constructor
      · rintro rfl
        cases hlast : (rest.filter fun point =>
            !isBefore dateParse limit point.takenAt).getLast? with
        | none =>
            rw [List.getLast?_eq_none_iff, List.filter_eq_nil_iff] at hlast
            exact ⟨[], rest, rfl, .inl rfl, by simpa using hlast⟩
        | some last =>
            obtain ⟨hkept, front, back, rfl, hback⟩ := getLast_filter_iff.mp hlast
            exact ⟨first :: front, back, rfl, .inr (by simpa using hkept), by simpa using hback⟩
      · rintro ⟨front, back, hsplit, hkept, hback⟩
        cases front with
        | nil =>
            obtain ⟨rfl, rfl⟩ := List.cons.inj hsplit
            have hnone : rest.filter (fun point =>
                !isBefore dateParse limit point.takenAt) = [] :=
              List.filter_eq_nil_iff.mpr (by simpa using hback)
            rw [hnone, List.getLast?_nil, Option.getD_none]
        | cons _ front =>
            rw [List.cons_append] at hsplit
            obtain ⟨rfl, rfl⟩ := List.cons.inj hsplit
            have hlast := getLast_filter_iff (p := fun point : RecoveryPoint =>
              !isBefore dateParse limit point.takenAt).mpr
                ⟨by simpa using hkept, front, back, rfl, by simpa using hback⟩
            rw [hlast, Option.getD_some]

section Deleted

variable {dateParse : String → Option ℤ} {storePrefix : String}
  {retention : RetentionConfiguration} {now walNow : ℤ} {catalog : Catalog} {bucket : Bucket}
  {key : String}

theorem mem_expendable_logical {point : RecoveryPoint} :
    point ∈ expendable dateParse ⌊retention.logicalMinimum⌋₊
        (now - retention.logicalDays * millisecondsPerDay) catalog.logical ↔
      LogicalPointGoes dateParse retention now catalog point := by
  rw [expendable, List.mem_filter, mem_drop_iff_append, LogicalPointGoes]
  constructor
  · rintro ⟨⟨front, back, hsplit, hle⟩, hpast⟩
    exact ⟨front, back, hsplit, hle, hpast⟩
  · rintro ⟨front, back, hsplit, hle, hpast⟩
    exact ⟨⟨front, back, hsplit, hle⟩, hpast⟩

theorem mem_named_bases {point : RecoveryPoint} :
    point ∈ (expendable dateParse 1 (now - retention.logicalDays * millisecondsPerDay)
        catalog.baseBackups).takeWhile (fun point => point.id.isSome) ↔
      BasePointGoes dateParse retention now catalog point := by
  rw [expendable, mem_takeWhile_filter, BasePointGoes]
  cases catalog.baseBackups with
  | nil => simp
  | cons first rest =>
      constructor
      · rintro ⟨middle, back, hsplit, hgoes⟩
        exact ⟨first, middle, back, by rw [List.cons_append, ← hsplit]; rfl, hgoes⟩
      · rintro ⟨_, middle, back, hsplit, hgoes⟩
        exact ⟨middle, back, (List.cons.inj hsplit).2, hgoes⟩

/-- Base backups are only cut short by a nameless one that should go. -/
theorem named_bases_length :
    ¬((expendable dateParse 1 (now - retention.logicalDays * millisecondsPerDay)
          catalog.baseBackups).takeWhile (fun point => point.id.isSome)).length <
        (expendable dateParse 1 (now - retention.logicalDays * millisecondsPerDay)
          catalog.baseBackups).length ↔
      ∀ point ∈ catalog.baseBackups.tail, PastWindow dateParse retention now point →
        point.id.isSome = true := by
  rw [Nat.not_lt, expendable, List.drop_one]
  constructor
  · intro hle point hpoint hpast
    have hself := (List.takeWhile_prefix _).eq_of_length_le hle
    rw [List.takeWhile_eq_self_iff] at hself
    exact hself point (List.mem_filter.mpr ⟨hpoint, hpast⟩)
  · intro hall
    rw [List.takeWhile_eq_self_iff.mpr]
    intro point hpoint
    obtain ⟨hmem, hpast⟩ := List.mem_filter.mp hpoint
    exact hall point hmem hpast

/-- WAL is kept by its own age and by the last base backup that stays. -/
theorem not_walExpendable_iff {object : BucketObject} :
    isWalExpendable dateParse (walCutoff dateParse
        (walNow - retention.walDays * millisecondsPerDay)
        (surviving dateParse 1 (now - retention.logicalDays * millisecondsPerDay)
          catalog.baseBackups)) object = false ↔
      ∃ time ∈ dateParse object.lastModified,
        WalStays dateParse retention now walNow catalog time := by
  have hstays (time : ℤ) : WalStays dateParse retention now walNow catalog time ↔
      catalog.baseBackups = [] ∧ walNow - retention.walDays * millisecondsPerDay ≤ time ∨
      ∃ last, (surviving dateParse 1 (now - retention.logicalDays * millisecondsPerDay)
          catalog.baseBackups).getLast? = some last ∧ ∃ start,
            dateParse last.takenAt = some start ∧
              (walNow - retention.walDays * millisecondsPerDay ≤ time ∨ start ≤ time) := by
    simp only [getLast_surviving, WalStays, PastWindow]
    refine or_congr_right ⟨?_, ?_⟩
    · rintro ⟨front, last, back, hsplit, hkept, hback, hstart⟩
      exact ⟨last, ⟨front, back, hsplit, hkept, hback⟩, hstart⟩
    · rintro ⟨last, ⟨front, back, hsplit, hkept, hback⟩, hstart⟩
      exact ⟨front, last, back, hsplit, hkept, hback, hstart⟩
  simp only [hstays]
  unfold isWalExpendable walCutoff
  cases htime : dateParse object.lastModified with
  | none => simp
  | some time =>
      cases hlast : (surviving dateParse 1 (now - retention.logicalDays * millisecondsPerDay)
          catalog.baseBackups).getLast? with
      | none =>
          have hempty : catalog.baseBackups = [] := by
            cases hbases : catalog.baseBackups with
            | nil => rfl
            | cons first rest =>
                rw [hbases, List.getLast?_eq_none_iff] at hlast
                cases hlast
          simp [hempty]
      | some last =>
          have hbases : catalog.baseBackups ≠ [] := by
            intro hempty
            rw [hempty] at hlast
            cases hlast
          cases hstart : dateParse last.takenAt with
          | none => simp [hbases, hstart]
          | some start =>
              simp only [Option.map_some, decide_eq_false_iff_not, not_lt, min_le_iff,
                Int.cast_le, Option.some.injEq, Option.mem_def, hbases, false_and, false_or,
                exists_eq_left', hstart]

/-- The deletions of a prune. -/
theorem delete_mem_prune : .delete key ∈ prune dateParse storePrefix retention now walNow bucket ↔
    ∃ catalog, readCatalog storePrefix bucket = some catalog ∧
      (KeyGoes dateParse storePrefix retention now catalog key ∨
        (∀ point ∈ catalog.baseBackups.tail, PastWindow dateParse retention now point →
          point.id.isSome = true) ∧
        ∃ object ∈ walListing storePrefix bucket,
          (¬∃ time ∈ dateParse object.lastModified,
            WalStays dateParse retention now walNow catalog time) ∧
          storePrefix ++ walObjectKey (walSegmentName object.key) = key) := by
  have hreads (count : ℕ) : StoreRequest.delete key ∉ List.replicate count .read := by simp
  rw [prune, List.mem_append, or_iff_right (hreads _)]
  cases readCatalog storePrefix bucket with
  | none => simp
  | some catalog =>
      simp only [Option.some.injEq, exists_eq_left']
      rw [← named_bases_length, KeyGoes]
      simp only [deletions, ← mem_expendable_logical, ← mem_named_bases, ← not_walExpendable_iff,
        Bool.not_eq_false]
      split
      · next hunnamed => simp [deletePoint, hunnamed]
      · next hnamed => simp [deletePoint, hnamed, or_assoc, and_assoc]

end Deleted

/-! ## The three parts of the bucket -/

section Parts

variable {dateParse : String → Option ℤ} {storePrefix : String}
  {retention : RetentionConfiguration} {now walNow : ℤ} {catalog : Catalog} {bucket : Bucket}
  {key : String}

theorem startsWith_append (start rest : String) :
    startsWith (storePrefix ++ (start ++ rest)) (storePrefix ++ start) = true := by
  simp [startsWith, ← List.append_assoc]

/-- A key is in one part only. -/
theorem startsWith_unique {start other : String}
    (h : startsWith key (storePrefix ++ start) = true)
    (hother : startsWith key (storePrefix ++ other) = true) :
    start.toList <+: other.toList ∨ other.toList <+: start.toList := by
  simp only [startsWith, String.toList_append, List.isPrefixOf_iff_prefix] at h hother
  rcases List.prefix_or_prefix_of_prefix h hother with hle | hle
  · exact .inl ((List.prefix_append_right_inj _).mp hle)
  · exact .inr ((List.prefix_append_right_inj _).mp hle)

/-- Points take no WAL with them. -/
theorem KeyGoes.not_wal (h : KeyGoes dateParse storePrefix retention now catalog key) :
    ¬startsWith key (storePrefix ++ "wal/") = true := by
  intro hwal
  rcases h with ⟨point, -, rfl | rfl⟩ | ⟨point, -, rfl | rfl⟩
  · exact absurd (startsWith_unique (startsWith_append "logical/" _) hwal) (by decide)
  · exact absurd (startsWith_unique (startsWith_append "logical/" _) hwal) (by decide)
  · exact absurd (startsWith_unique (startsWith_append "basebackup/" _) hwal) (by decide)
  · exact absurd (startsWith_unique (startsWith_append "basebackup/" _) hwal) (by decide)

/-- What goes from `logical/` stands behind the places of the minimum. -/
theorem KeyGoes.logical_places (h : KeyGoes dateParse storePrefix retention now catalog key)
    (hkey : startsWith key (storePrefix ++ "logical/") = true) :
    ⌊retention.logicalMinimum⌋₊ ≤ catalog.logical.length := by
  rcases h with ⟨point, ⟨front, back, hsplit, hle, -⟩, -⟩ | ⟨point, -, rfl | rfl⟩
  · rw [hsplit, List.length_append]
    omega
  · exact absurd (startsWith_unique (startsWith_append "basebackup/" _) hkey) (by decide)
  · exact absurd (startsWith_unique (startsWith_append "basebackup/" _) hkey) (by decide)

/-- What goes from `basebackup/` stands behind one point. -/
theorem KeyGoes.base_places (h : KeyGoes dateParse storePrefix retention now catalog key)
    (hkey : startsWith key (storePrefix ++ "basebackup/") = true) :
    1 ≤ catalog.baseBackups.length := by
  rcases h with ⟨point, -, rfl | rfl⟩ | ⟨point, ⟨first, middle, back, hsplit, -⟩, -⟩
  · exact absurd (startsWith_unique (startsWith_append "logical/" _) hkey) (by decide)
  · exact absurd (startsWith_unique (startsWith_append "logical/" _) hkey) (by decide)
  · simp [hsplit]

/-- Outside of the WAL only points take keys with them. -/
theorem delete_mem_prune_of_not_wal (hcatalog : readCatalog storePrefix bucket = some catalog)
    (h : ¬startsWith key (storePrefix ++ "wal/") = true) :
    .delete key ∈ prune dateParse storePrefix retention now walNow bucket ↔
      KeyGoes dateParse storePrefix retention now catalog key := by
  rw [delete_mem_prune]
  simp only [hcatalog, Option.some.injEq, exists_eq_left']
  refine or_iff_left ?_
  rintro ⟨-, object, -, -, rfl⟩
  exact h (startsWith_append "wal/" _)

/-- What is left of the bucket. -/
theorem objects_prune : (performRequests (prune dateParse storePrefix retention now walNow bucket)
    bucket).objects = bucket.objects.filter fun object =>
      decide (StoreRequest.delete object.key ∉
        prune dateParse storePrefix retention now walNow bucket) :=
  objects_performRequests fun _ hrequest => not_put_of_mem_prune hrequest

theorem list_prune (start : String) :
    (performRequests (prune dateParse storePrefix retention now walNow bucket) bucket).list start =
      (bucket.list start).filter fun object =>
        decide (StoreRequest.delete object.key ∉
          prune dateParse storePrefix retention now walNow bucket) := by
  rw [Bucket.list, objects_prune, Bucket.list, List.filter_filter, List.filter_filter]
  simp only [Bool.and_comm]

theorem storedBackups_keys {listing : List BucketObject} {backup : StoredBackup}
    (h : backup ∈ storedBackups listing) :
    (∃ object ∈ listing, object.key = backup.key) ∧
      ∃ object ∈ listing, object.key = backup.objectKey := by
  obtain ⟨document, hdocument, hbackup⟩ := List.mem_filterMap.mp h
  obtain ⟨stored, hstored, rfl⟩ := Option.map_eq_some_iff.mp hbackup
  obtain ⟨object, hobject, hkey⟩ := List.mem_filterMap.mp hdocument
  unfold backupDocument at hkey
  split at hkey
  · obtain rfl := Option.some.inj hkey
    exact ⟨⟨object, (List.mem_filter.mp hobject).1, rfl⟩,
      ⟨stored, List.mem_of_find?_eq_some hstored, rfl⟩⟩
  · cases hkey

/-- A backup goes with a key of its part. -/
theorem BackupGoes.exists_key {start : String} {backup : StoredBackup}
    (hgoes : BackupGoes dateParse storePrefix retention now catalog backup)
    (h : backup ∈ storedBackups (bucket.list (storePrefix ++ start))) :
    ∃ key, KeyGoes dateParse storePrefix retention now catalog key ∧
      startsWith key (storePrefix ++ start) = true := by
  obtain ⟨⟨document, hdocument, hkey⟩, ⟨artifact, hartifact, hobjectKey⟩⟩ := storedBackups_keys h
  rcases hgoes with hgoes | hgoes
  · exact ⟨backup.key, hgoes, hkey ▸ (List.mem_filter.mp hdocument).2⟩
  · exact ⟨backup.objectKey, hgoes, hobjectKey ▸ (List.mem_filter.mp hartifact).2⟩

/-- In a part without WAL, the backups that go lose one of their objects. -/
theorem backupGoes_iff {start : String} {backup : StoredBackup}
    (hcatalog : readCatalog storePrefix bucket = some catalog)
    (hstart : ¬start.toList <+: "wal/".toList ∧ ¬"wal/".toList <+: start.toList)
    (h : backup ∈ storedBackups (bucket.list (storePrefix ++ start))) :
    (decide (StoreRequest.delete backup.key ∉
        prune dateParse storePrefix retention now walNow bucket) &&
        decide (StoreRequest.delete backup.objectKey ∉
          prune dateParse storePrefix retention now walNow bucket)) = true ↔
      ¬BackupGoes dateParse storePrefix retention now catalog backup := by
  have hkey (object : BucketObject) (hobject : object ∈ bucket.list (storePrefix ++ start)) :
      ¬startsWith object.key (storePrefix ++ "wal/") = true := fun hwal =>
    (startsWith_unique (List.mem_filter.mp hobject).2 hwal).elim hstart.1 hstart.2
  obtain ⟨⟨document, hdocument, hdocumentKey⟩, ⟨artifact, hartifact, hartifactKey⟩⟩ :=
    storedBackups_keys h
  rw [← hdocumentKey, ← hartifactKey, Bool.and_eq_true, decide_eq_true_iff, decide_eq_true_iff,
    delete_mem_prune_of_not_wal hcatalog (hkey document hdocument),
    delete_mem_prune_of_not_wal hcatalog (hkey artifact hartifact), BackupGoes, not_or,
    hdocumentKey, hartifactKey]

/-- The backups of a part that are left. -/
theorem sublist_storedBackups_prune {start : String} {others : List StoredBackup}
    (hcatalog : readCatalog storePrefix bucket = some catalog)
    (hstart : ¬start.toList <+: "wal/".toList ∧ ¬"wal/".toList <+: start.toList) :
    others.Sublist (storedBackups ((performRequests
        (prune dateParse storePrefix retention now walNow bucket) bucket).list
          (storePrefix ++ start))) ↔
      others.Sublist (storedBackups (bucket.list (storePrefix ++ start))) ∧
        ∀ other ∈ others, ¬BackupGoes dateParse storePrefix retention now catalog other := by
  rw [list_prune, storedBackups_filter fun key =>
    decide (StoreRequest.delete key ∉ prune dateParse storePrefix retention now walNow bucket)]
  constructor
  · intro hothers
    refine ⟨hothers.trans List.filter_sublist, fun other hother => ?_⟩
    obtain ⟨hmem, hkept⟩ := List.mem_filter.mp (hothers.subset hother)
    exact (backupGoes_iff hcatalog hstart hmem).mp hkept
  · rintro ⟨hothers, hstay⟩
    have hfilter := hothers.filter fun backup : StoredBackup =>
      decide (StoreRequest.delete backup.key ∉
          prune dateParse storePrefix retention now walNow bucket) &&
        decide (StoreRequest.delete backup.objectKey ∉
          prune dateParse storePrefix retention now walNow bucket)
    rwa [List.filter_eq_self.mpr fun other hother =>
      (backupGoes_iff hcatalog hstart (hothers.subset hother)).mpr (hstay other hother)] at hfilter

theorem mem_storedBackups_prune {start : String} {backup : StoredBackup}
    (hcatalog : readCatalog storePrefix bucket = some catalog)
    (hstart : ¬start.toList <+: "wal/".toList ∧ ¬"wal/".toList <+: start.toList) :
    backup ∈ storedBackups ((performRequests
        (prune dateParse storePrefix retention now walNow bucket) bucket).list
          (storePrefix ++ start)) ↔
      backup ∈ storedBackups (bucket.list (storePrefix ++ start)) ∧
        ¬BackupGoes dateParse storePrefix retention now catalog backup := by
  rw [← List.singleton_sublist, sublist_storedBackups_prune hcatalog hstart,
    List.singleton_sublist]
  simp

/-- WAL goes when some WAL by whose name it is deleted does not stay. -/
theorem delete_mem_prune_wal {object : BucketObject}
    (hcatalog : readCatalog storePrefix bucket = some catalog)
    (h : object ∈ walListing storePrefix bucket) :
    .delete object.key ∈ prune dateParse storePrefix retention now walNow bucket ↔
      (∀ point ∈ catalog.baseBackups.tail, PastWindow dateParse retention now point →
          point.id.isSome = true) ∧
        ∃ other ∈ walListing storePrefix bucket,
          (¬∃ time ∈ dateParse other.lastModified,
            WalStays dateParse retention now walNow catalog time) ∧
          storePrefix ++ walObjectKey (walSegmentName other.key) = object.key := by
  have hwal : startsWith object.key (storePrefix ++ "wal/") = true :=
    (List.mem_filter.mp (List.mem_filter.mp h).1).2
  rw [delete_mem_prune]
  simp only [hcatalog, Option.some.injEq, exists_eq_left']
  exact or_iff_right fun hgoes => hgoes.not_wal hwal

end Parts

section Places

variable {dateParse : String → Option ℤ} {storePrefix : String}
  {retention : RetentionConfiguration} {now walNow : ℤ} {catalog : Catalog} {bucket : Bucket}
  {listing : List BucketObject} {backup : StoredBackup}

theorem exists_sublist_iff_le_countP {α : Type*} {l : List α} {p : α → Bool} {count : ℚ} :
    (∃ others : List α, others.Sublist l ∧ count ≤ others.length ∧ ∀ other ∈ others, p other) ↔
      count ≤ l.countP p := by
  constructor
  · rintro ⟨others, hothers, hcount, hall⟩
    have hle : others.length ≤ l.countP p := by
      rw [← List.countP_eq_length.mpr hall]
      exact hothers.countP_le
    exact hcount.trans (by exact_mod_cast hle)
  · intro hcount
    rw [List.countP_eq_length_filter] at hcount
    exact ⟨l.filter p, List.filter_sublist, hcount, fun other hother =>
      (List.mem_filter.mp hother).2⟩

open scoped Classical in
/-- Where `p` does not hold in the whole list, by the first places where it holds and
the later ones where it does not. -/
theorem countP_add_countP_take {α : Type*} (p : α → Prop) {l : List α} {places : ℕ}
    (h : places ≤ l.length) :
    l.countP (fun a => ¬p a) + (l.take places).countP (fun a => p a) =
      places + (l.drop places).countP fun a => ¬p a := by
  have hfirst := List.length_eq_countP_add_countP (fun a => decide (p a)) (l := l.take places)
  rw [List.length_take, Nat.min_eq_left h] at hfirst
  have hall : l.countP (fun a => ¬p a) =
      (l.take places).countP (fun a => ¬p a) + (l.drop places).countP fun a => ¬p a := by
    rw [← List.countP_append, List.take_append_drop]
  simp only [decide_eq_true_iff] at hfirst
  omega

/-- The points of a catalog are those of the documents. -/
theorem collect_eq {kind : BackupKind} {objects : List BucketObject} {points : List RecoveryPoint}
    (h : collect listing kind objects = some points) :
    points = (objects.filterMap backupDocument).map (·.point listing kind) := by
  induction objects generalizing points with
  | nil => exact (Option.some.inj h).symm
  | cons first rest ih =>
      cases hfirst : first.body with
      | document metadata =>
          simp only [collect, hfirst, Option.bind_eq_bind, Option.bind_eq_some_iff] at h
          obtain ⟨others, hothers, hpoints⟩ := h
          obtain rfl := Option.some.inj hpoints
          simp only [List.filterMap_cons, backupDocument, hfirst, List.map_cons]
          rw [ih hothers]
          rfl
      | empty =>
          simp only [collect, hfirst] at h
          simpa only [List.filterMap_cons, backupDocument, hfirst] using ih h
      | file | malformed => simp [collect, hfirst] at h

/-- The catalog ranks its points as the documents are ranked. -/
theorem insertionSort_points (listing : List BucketObject) (kind : BackupKind) :
    ((backupDocuments listing).map (·.point listing kind)).insertionSort ByTakenAtDescending =
      (rankedDocuments listing).map (·.point listing kind) :=
  (List.map_insertionSort ByCreatedAtDescending ByTakenAtDescending (·.point listing kind) _
    fun _ _ _ _ => Iff.rfl).symm

theorem readCatalog_points (hcatalog : readCatalog storePrefix bucket = some catalog) :
    catalog.logical = (rankedDocuments (logicalListing storePrefix bucket)).map
        (·.point (logicalListing storePrefix bucket) .logical) ∧
      catalog.baseBackups = (rankedDocuments (baseListing storePrefix bucket)).map
        (·.point (baseListing storePrefix bucket) .base) := by
  simp only [readCatalog, Option.bind_eq_bind, Option.bind_eq_some_iff] at hcatalog
  obtain ⟨logical, hlogical, bases, hbases, hbuilt⟩ := hcatalog
  obtain rfl := Option.some.inj hbuilt
  rw [collect_eq hlogical, collect_eq hbases]
  exact ⟨insertionSort_points _ _, insertionSort_points _ _⟩

open scoped Classical in
/-- Of the backups those serve that stay and are as new, one for each place that
does not keep none. -/
theorem countP_storedBackups :
    (storedBackups listing).countP (fun other => decide (other.NotOlder dateParse backup ∧
        ¬BackupGoes dateParse storePrefix retention now catalog other)) =
      (rankedDocuments listing).countP fun document =>
        ¬KeepsNone dateParse storePrefix retention now catalog listing backup document := by
  rw [storedBackups, List.countP_filterMap, rankedDocuments,
    (List.perm_insertionSort _ (backupDocuments listing)).countP_eq]
  refine congrArg (List.countP · _) (funext fun document => ?_)
  cases hstored : document.stored listing with
  | none => simp [KeepsNone, hstored]
  | some other => simp [KeepsNone, hstored]

/-- Enough backups as new are left exactly when the places that keep none are made
up for. -/
theorem enough_left_iff (walNow : ℤ) {start : String} {minimum : ℚ}
    (hcatalog : readCatalog storePrefix bucket = some catalog)
    (hstart : ¬start.toList <+: "wal/".toList ∧ ¬"wal/".toList <+: start.toList)
    (hplaces : ⌊minimum⌋₊ ≤ (rankedDocuments (bucket.list (storePrefix ++ start))).length) :
    (∃ others : List StoredBackup,
        others.Sublist (storedBackups ((performRequests
          (prune dateParse storePrefix retention now walNow bucket) bucket).list
            (storePrefix ++ start))) ∧
        minimum ≤ others.length ∧ ∀ other ∈ others, other.NotOlder dateParse backup) ↔
      MadeUpFor dateParse storePrefix retention now catalog minimum
        (bucket.list (storePrefix ++ start)) backup := by
  classical
  have hleft (others : List StoredBackup) :
      (others.Sublist (storedBackups ((performRequests
          (prune dateParse storePrefix retention now walNow bucket) bucket).list
            (storePrefix ++ start))) ∧
          minimum ≤ others.length ∧ ∀ other ∈ others, other.NotOlder dateParse backup) ↔
        others.Sublist (storedBackups (bucket.list (storePrefix ++ start))) ∧
          minimum ≤ others.length ∧ ∀ other ∈ others, decide (other.NotOlder dateParse backup ∧
            ¬BackupGoes dateParse storePrefix retention now catalog other) = true := by
    simp only [sublist_storedBackups_prune hcatalog hstart, decide_eq_true_iff, forall_and]
    tauto
  rw [exists_congr hleft, exists_sublist_iff_le_countP, countP_storedBackups, MadeUpFor]
  have hcount := countP_add_countP_take (KeepsNone dateParse storePrefix retention now catalog
    (bucket.list (storePrefix ++ start)) backup) hplaces
  rw [← Nat.cast_add, ← hcount, Nat.cast_add, add_le_add_iff_right]

theorem lost_iff {start : String}
    (hcatalog : readCatalog storePrefix bucket = some catalog)
    (hstart : ¬start.toList <+: "wal/".toList ∧ ¬"wal/".toList <+: start.toList)
    (h : backup ∈ storedBackups (bucket.list (storePrefix ++ start))) :
    backup ∉ storedBackups ((performRequests
        (prune dateParse storePrefix retention now walNow bucket) bucket).list
          (storePrefix ++ start)) ↔
      BackupGoes dateParse storePrefix retention now catalog backup := by
  rw [mem_storedBackups_prune hcatalog hstart, not_and, not_not]
  exact forall_prop_of_true h

/-- The part of logical backups. -/
theorem logical_kept_iff (hcatalog : readCatalog storePrefix bucket = some catalog) :
    (∀ backup ∈ storedBackups (logicalListing storePrefix bucket),
        backup ∉ storedBackups (logicalListing storePrefix (performRequests
            (prune dateParse storePrefix retention now walNow bucket) bucket)) →
          ∃ others : List StoredBackup,
            others.Sublist (storedBackups (logicalListing storePrefix (performRequests
              (prune dateParse storePrefix retention now walNow bucket) bucket))) ∧
            retention.logicalMinimum ≤ others.length ∧
              ∀ other ∈ others, other.NotOlder dateParse backup) ↔
      ∀ backup ∈ storedBackups (logicalListing storePrefix bucket),
        BackupGoes dateParse storePrefix retention now catalog backup →
          MadeUpFor dateParse storePrefix retention now catalog retention.logicalMinimum
            (logicalListing storePrefix bucket) backup := by
  have hstart : ¬"logical/".toList <+: "wal/".toList ∧ ¬"wal/".toList <+: "logical/".toList := by
    decide
  refine forall₂_congr fun backup hbackup => ?_
  rw [logicalListing, lost_iff hcatalog hstart hbackup]
  refine forall_congr' fun hgoes => enough_left_iff walNow hcatalog hstart ?_
  obtain ⟨key, hkey, hpart⟩ := hgoes.exists_key hbackup
  have hplaces := hkey.logical_places hpart
  rwa [(readCatalog_points hcatalog).1, List.length_map] at hplaces

/-- The part of base backups. -/
theorem base_kept_iff (hcatalog : readCatalog storePrefix bucket = some catalog) :
    (∀ backup ∈ storedBackups (baseListing storePrefix bucket),
        backup ∉ storedBackups (baseListing storePrefix (performRequests
            (prune dateParse storePrefix retention now walNow bucket) bucket)) →
          ∃ other ∈ storedBackups (baseListing storePrefix (performRequests
            (prune dateParse storePrefix retention now walNow bucket) bucket)),
            other.NotOlder dateParse backup) ↔
      ∀ backup ∈ storedBackups (baseListing storePrefix bucket),
        BackupGoes dateParse storePrefix retention now catalog backup →
          MadeUpFor dateParse storePrefix retention now catalog 1
            (baseListing storePrefix bucket) backup := by
  have hstart : ¬"basebackup/".toList <+: "wal/".toList ∧
      ¬"wal/".toList <+: "basebackup/".toList := by
    decide
  refine forall₂_congr fun backup hbackup => ?_
  rw [baseListing, lost_iff hcatalog hstart hbackup]
  refine forall_congr' fun hgoes => ?_
  have hplaces : ⌊(1 : ℚ)⌋₊ ≤
      (rankedDocuments (bucket.list (storePrefix ++ "basebackup/"))).length := by
    obtain ⟨key, hkey, hpart⟩ := hgoes.exists_key hbackup
    have hplaces := hkey.base_places hpart
    rwa [(readCatalog_points hcatalog).2, List.length_map, ← Nat.floor_one (R := ℚ)] at hplaces
  refine Iff.trans ?_ (enough_left_iff walNow hcatalog hstart hplaces)
  constructor
  · rintro ⟨other, hother, hnewer⟩
    exact ⟨[other], List.singleton_sublist.mpr hother, by simp, by simpa using hnewer⟩
  · rintro ⟨others, hothers, hcount, hnewer⟩
    cases others with
    | nil => norm_num at hcount
    | cons other _ =>
        exact ⟨other, hothers.subset List.mem_cons_self, hnewer other List.mem_cons_self⟩

/-- The part of WAL. -/
theorem wal_kept_iff (hcatalog : readCatalog storePrefix bucket = some catalog) :
    (∀ object ∈ walListing storePrefix bucket,
        object ∉ (performRequests
            (prune dateParse storePrefix retention now walNow bucket) bucket).objects →
          ∃ time, dateParse object.lastModified = some time ∧
            ∀ backup ∈ storedBackups (baseListing storePrefix (performRequests
                (prune dateParse storePrefix retention now walNow bucket) bucket)),
              ∀ start ∈ backup.takenAt dateParse, time < start) ↔
      ((∀ point ∈ catalog.baseBackups.tail, PastWindow dateParse retention now point →
          point.id.isSome = true) →
        ∀ object ∈ walListing storePrefix bucket,
          WalNeeded dateParse storePrefix retention now catalog bucket object →
            ∀ other ∈ walListing storePrefix bucket,
              storePrefix ++ walObjectKey (walSegmentName other.key) = object.key →
                ∃ time ∈ dateParse other.lastModified,
                  WalStays dateParse retention now walNow catalog time) := by
  have hstart : ¬"basebackup/".toList <+: "wal/".toList ∧
      ¬"wal/".toList <+: "basebackup/".toList := by
    decide
  have hneeded (object : BucketObject) :
      (¬∃ time, dateParse object.lastModified = some time ∧
        ∀ backup ∈ storedBackups (baseListing storePrefix (performRequests
            (prune dateParse storePrefix retention now walNow bucket) bucket)),
          ∀ start ∈ backup.takenAt dateParse, time < start) ↔
        WalNeeded dateParse storePrefix retention now catalog bucket object := by
    rw [WalNeeded, baseListing]
    simp only [mem_storedBackups_prune hcatalog hstart]
    cases dateParse object.lastModified with
    | none => simp
    | some time => simp [baseListing]
  have hlost (object : BucketObject) (hobject : object ∈ walListing storePrefix bucket) :
      object ∉ (performRequests
          (prune dateParse storePrefix retention now walNow bucket) bucket).objects ↔
        .delete object.key ∈ prune dateParse storePrefix retention now walNow bucket := by
    rw [mem_performRequests fun _ hrequest => not_put_of_mem_prune hrequest]
    simp [(List.mem_filter.mp (List.mem_filter.mp hobject).1).1]
  constructor
  · intro h hnamed object hobject hneed other hother hkey
    by_contra hexpired
    refine (hneeded object).mpr hneed (h object hobject ((hlost object hobject).mpr ?_))
    exact (delete_mem_prune_wal hcatalog hobject).mpr ⟨hnamed, other, hother, hexpired, hkey⟩
  · intro h object hobject hgone
    obtain ⟨hnamed, other, hother, hexpired, hkey⟩ :=
      (delete_mem_prune_wal hcatalog hobject).mp ((hlost object hobject).mp hgone)
    by_contra hlate
    exact hexpired (h hnamed object hobject ((hneeded object).mp hlate) other hother hkey)

end Places

def sampleDocument (name createdAt : String) : BucketObject :=
  { key := "orgistry/production/logical/" ++ name ++ ".meta.json", size := 0,
    lastModified := createdAt,
    body := .document
      { artifact := some name, createdAt := some createdAt,
        objectKey := some ("orgistry/production/logical/" ++ name ++ ".enc"),
        encryptedSha256 := some name, encryptedBytes := some 1 } }

/-- The backup `a.dump`, and the document of a later one whose artifact is not
there. -/
def orphanedBucket : Bucket where
  objects :=
    [{ key := "orgistry/production/logical/a.dump.enc", size := 1,
       lastModified := "2026-01-01T00:00:00Z", body := .file "a.dump" },
      sampleDocument "a.dump" "2026-01-01T00:00:00Z",
      sampleDocument "b.dump" "2026-01-02T00:00:00Z"]
  distinct := by decide

end Orgistry.Model
