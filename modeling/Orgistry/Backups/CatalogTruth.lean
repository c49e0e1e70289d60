import Orgistry.Model.BackupOps
import Mathlib.Data.List.Induction

/-!
# What the catalog advertises

Every metadata document should describe an artifact that is stored.  The uploads
write the artifact first; `prune` deletes it first, too, and an upload under a
stored name replaces it first.  This file says which interruptions that allows.
-/

namespace Orgistry.Model

open Sorting

/-- The document records what the artifact is. -/
def MetadataDocument.Describes (metadata : MetadataDocument) (artifact : BucketObject) : Prop :=
  metadata.objectKey = some artifact.key ∧ metadata.encryptedBytes = some artifact.size ∧
    ∃ sha256, artifact.body = .file sha256 ∧ metadata.encryptedSha256 = some sha256

/-- Every document describes an artifact that is stored. -/
def AdvertisesOnlyStored (bucket : Bucket) : Prop :=
  ∀ object ∈ bucket.objects, ∀ metadata, object.body = .document metadata →
    ∃ artifact ∈ bucket.objects, metadata.Describes artifact

inductive BackupRun
  | shipBackup (artifactName createdAt : String) (upload : Upload)
  | shipBaseBackup (startedAt : String) (upload : Upload)
  | prune (retention : RetentionConfiguration) (now walNow : ℤ)

/-- A run that fails after so many requests, or not at all. -/
structure InterruptedRun where
  run : BackupRun
  completed : ℕ

section Runs

variable (dateParse : String → Option ℤ) (storePrefix : String)

def BackupRun.requests (bucket : Bucket) : BackupRun → List StoreRequest
  | .shipBackup artifactName createdAt upload =>
      Orgistry.Model.shipBackup storePrefix artifactName createdAt upload
  | .shipBaseBackup startedAt upload =>
      Orgistry.Model.shipBaseBackup storePrefix startedAt upload
  | .prune retention now walNow =>
      Orgistry.Model.prune dateParse storePrefix retention now walNow bucket

def performRequests (requests : List StoreRequest) (bucket : Bucket) : Bucket :=
  requests.foldl StoreRequest.perform bucket

def InterruptedRun.requests (interrupted : InterruptedRun) (bucket : Bucket) : List StoreRequest :=
  (interrupted.run.requests dateParse storePrefix bucket).take interrupted.completed

def InterruptedRun.perform (interrupted : InterruptedRun) (bucket : Bucket) : Bucket :=
  performRequests (interrupted.requests dateParse storePrefix bucket) bucket

def performRuns (runs : List InterruptedRun) (bucket : Bucket) : Bucket :=
  runs.foldl (fun bucket interrupted => interrupted.perform dateParse storePrefix bucket) bucket

/-- The last request that changed the bucket put or deleted the artifact of a
stored document, which does not describe what is there now. -/
def InterruptedRun.Tears (interrupted : InterruptedRun) (bucket : Bucket) : Prop :=
  ∃ object ∈ bucket.objects, ∃ metadata, object.body = .document metadata ∧
    match ((interrupted.requests dateParse storePrefix bucket).filter (· ≠ .read)).getLast? with
    | some (.put artifact) =>
        metadata.objectKey = some artifact.key ∧ ¬metadata.Describes artifact
    | some (.delete key) => metadata.objectKey = some key
    | _ => False

end Runs

/-- The keys of a backup of either kind. -/
def BackupKind.keys (kind : BackupKind) (name : String) : ObjectKeys :=
  match kind with
  | .logical => logicalObjectKeys name
  | .base => baseBackupObjectKeys name

section Keys

variable {storePrefix : String} {kind kind' : BackupKind} {name name' : String}

theorem artifact_key_injective (h : storePrefix ++ (kind.keys name).artifact =
    storePrefix ++ (kind'.keys name').artifact) : kind.keys name = kind'.keys name' := by
  have hlist := congrArg String.toList h
  simp only [String.toList_append, List.append_cancel_left_eq] at hlist
  cases kind <;> cases kind' <;>
    simp [BackupKind.keys, logicalObjectKeys, baseBackupObjectKeys] at hlist ⊢ <;>
    exact String.toList_inj.mp hlist

theorem artifact_key_ne_metadata_key : storePrefix ++ (kind.keys name).artifact ≠
    storePrefix ++ (kind'.keys name').metadata := by
  intro h
  have hlast := congrArg (fun key : String => key.toList.reverse.head?) h
  cases kind <;> cases kind' <;>
    simp [BackupKind.keys, logicalObjectKeys, baseBackupObjectKeys, encryptedSuffix,
      metadataSuffix] at hlast

theorem artifact_key_ne_wal_key {segmentName : String} :
    storePrefix ++ (kind.keys name).artifact ≠ storePrefix ++ walObjectKey segmentName := by
  intro h
  have hlist := congrArg String.toList h
  simp only [String.toList_append, List.append_cancel_left_eq] at hlist
  cases kind <;>
    simp [BackupKind.keys, logicalObjectKeys, baseBackupObjectKeys, walObjectKey] at hlist

end Keys

section Requests

variable {bucket : Bucket} {object other : BucketObject} {key : String}

theorem Bucket.mem_deleteObject :
    object ∈ (bucket.deleteObject key).objects ↔ object ∈ bucket.objects ∧ object.key ≠ key := by
  simp [Bucket.deleteObject]

theorem Bucket.mem_put : object ∈ (bucket.put other).objects ↔
    (object ∈ bucket.objects ∧ object.key ≠ other.key) ∨ object = other := by
  simp [Bucket.put, Bucket.mem_deleteObject]

/-- Without uploads, what is left is what no request deletes. -/
theorem objects_performRequests {requests : List StoreRequest}
    (h : ∀ request ∈ requests, ∀ object, request ≠ .put object) :
    (performRequests requests bucket).objects =
      bucket.objects.filter fun object => decide (StoreRequest.delete object.key ∉ requests) := by
  induction requests generalizing bucket with
  | nil => simp [performRequests]
  | cons request requests ih =>
      have hrest := fun other hother => h other (List.mem_cons_of_mem request hother)
      have hstep : performRequests (request :: requests) bucket =
          performRequests requests (request.perform bucket) := rfl
      rw [hstep, ih hrest]
      cases request with
      | put other => exact absurd rfl (h _ List.mem_cons_self other)
      | delete key =>
          simp only [StoreRequest.perform, Bucket.deleteObject, List.filter_filter]
          refine List.filter_congr fun object _ => ?_
          simp [Bool.and_comm]
      | read => simp [StoreRequest.perform]

theorem mem_performRequests {requests : List StoreRequest}
    (h : ∀ request ∈ requests, ∀ object, request ≠ .put object) :
    object ∈ (performRequests requests bucket).objects ↔
      object ∈ bucket.objects ∧ .delete object.key ∉ requests := by
  rw [objects_performRequests h, List.mem_filter, decide_eq_true_iff]

end Requests

/-- The deletion of the one key is followed by that of the other. -/
def Followed (first second : String) (requests : List StoreRequest) : Prop :=
  ∀ i, requests[i]? = some (.delete first) → requests[i + 1]? = some (.delete second)

section Followed

variable {first second : String} {requests requests' : List StoreRequest}

theorem Followed.append (h : Followed first second requests)
    (h' : Followed first second requests') : Followed first second (requests ++ requests') := by
  intro i hi
  by_cases hlt : i < requests.length
  · rw [List.getElem?_append_left hlt] at hi
    have hnext := h i hi
    obtain ⟨hlt', -⟩ := List.getElem?_eq_some_iff.mp hnext
    rw [List.getElem?_append_left hlt', hnext]
  · rw [List.getElem?_append_right (by omega)] at hi
    have hnext := h' _ hi
    rw [List.getElem?_append_right (by omega), ← hnext]
    congr 1
    omega

theorem Followed.of_not_mem (h : .delete first ∉ requests) : Followed first second requests :=
  fun _ hi => absurd (List.mem_of_getElem? hi) h

theorem Followed.flatMap {α : Type*} {pair : α → List StoreRequest} {l : List α}
    (h : ∀ a ∈ l, Followed first second (pair a)) : Followed first second (l.flatMap pair) := by
  induction l with
  | nil => exact .of_not_mem (by simp)
  | cons a l ih =>
      rw [List.flatMap_cons]
      exact (h a List.mem_cons_self).append (ih fun b hb => h b (List.mem_cons_of_mem a hb))

/-- If such a list is cut and the first key is deleted, then so is the second,
or the first deletion is the last request. -/
theorem Followed.take (h : Followed first second requests) {n : ℕ}
    (hfirst : .delete first ∈ requests.take n) :
    .delete second ∈ requests.take n ∨ (requests.take n).getLast? = some (.delete first) := by
  obtain ⟨i, hi, hget⟩ := List.getElem_of_mem hfirst
  have hsome : requests[i]? = some (.delete first) := by
    rw [← List.getElem?_take_of_lt (by simp at hi; omega : i < n)]
    exact List.getElem?_eq_some_iff.mpr ⟨hi, hget⟩
  have hnext := h i hsome
  by_cases hlt : i + 1 < n
  · refine .inl (List.mem_of_getElem? (i := i + 1) ?_)
    rw [List.getElem?_take_of_lt hlt, hnext]
  · have hlast : (requests.take n).length - 1 = i := by
      rw [List.length_take] at hi ⊢
      omega
    rw [List.getLast?_eq_getElem?, hlast]
    exact .inr (List.getElem?_eq_some_iff.mpr ⟨hi, hget⟩)

end Followed

section Prune

variable {dateParse : String → Option ℤ} {storePrefix : String} {kind kind' : BackupKind}
  {name name' : String}

theorem followed_deletePoint (kind' : BackupKind) :
    Followed (storePrefix ++ (kind.keys name).artifact) (storePrefix ++ (kind.keys name).metadata)
    (deletePoint storePrefix (kind'.keys name')) := by
  intro i hi
  match i with
  | 0 =>
      have hkey : storePrefix ++ (kind'.keys name').artifact =
          storePrefix ++ (kind.keys name).artifact := by simpa [deletePoint] using hi
      simp [deletePoint, artifact_key_injective hkey]
  | 1 =>
      have hkey : storePrefix ++ (kind'.keys name').metadata =
          storePrefix ++ (kind.keys name).artifact := by simpa [deletePoint] using hi
      exact absurd hkey.symm artifact_key_ne_metadata_key
  | i + 2 => simp [deletePoint] at hi

/-- `prune` deletes the metadata of an artifact right after the artifact. -/
theorem followed_prune (retention : RetentionConfiguration) (now walNow : ℤ) (bucket : Bucket) :
    Followed (storePrefix ++ (kind.keys name).artifact)
      (storePrefix ++ (kind.keys name).metadata)
      (prune dateParse storePrefix retention now walNow bucket) := by
  refine .append (.of_not_mem (by simp)) ?_
  split
  · exact .of_not_mem (by simp)
  · simp only [deletions]
    split
    · exact .append (.flatMap fun point _ => followed_deletePoint .logical)
        (.flatMap fun point _ => followed_deletePoint .base)
    · refine .append (.append (.flatMap fun point _ => followed_deletePoint .logical)
        (.flatMap fun point _ => followed_deletePoint .base)) (.of_not_mem ?_)
      simp only [List.mem_cons, reduceCtorEq, List.mem_map, StoreRequest.delete.injEq, false_or,
        not_exists, not_and]
      exact fun _ _ hkey => artifact_key_ne_wal_key hkey.symm

/-- `prune` puts nothing. -/
theorem not_put_of_mem_prune {retention : RetentionConfiguration} {now walNow : ℤ} {bucket : Bucket}
    {request : StoreRequest} (h : request ∈ prune dateParse storePrefix retention now walNow bucket)
    (object : BucketObject) : request ≠ .put object := by
  rintro rfl
  rcases List.mem_append.mp h with h | h
  · simp at h
  · split at h
    · simp at h
    · simp only [deletions] at h
      split at h <;> simp [deletePoint] at h

end Prune

/-! ## One run -/

/-- Every document is stored beside the artifact that it names. -/
def DocumentsKeyed (storePrefix : String) (bucket : Bucket) : Prop :=
  ∀ object ∈ bucket.objects, ∀ metadata, object.body = .document metadata →
    ∃ (kind : BackupKind) (name : String), object.key = storePrefix ++ (kind.keys name).metadata ∧
      metadata.objectKey = some (storePrefix ++ (kind.keys name).artifact)

section Upload

variable {storePrefix : String} {kind : BackupKind} {name : String} {bucket : Bucket}
  {artifact description : BucketObject}

theorem DocumentsKeyed.put (h : DocumentsKeyed storePrefix bucket)
    (hnew : ∀ metadata, artifact.body = .document metadata →
      ∃ (kind : BackupKind) (name : String),
        artifact.key = storePrefix ++ (kind.keys name).metadata ∧
          metadata.objectKey = some (storePrefix ++ (kind.keys name).artifact)) :
    DocumentsKeyed storePrefix (bucket.put artifact) := by
  intro object hobject metadata hbody
  rcases Bucket.mem_put.mp hobject with ⟨hold, -⟩ | rfl
  · exact h object hold metadata hbody
  · exact hnew metadata hbody

/-- A new artifact leaves every document true that does not name its key. -/
theorem describes_put_artifact (h : AdvertisesOnlyStored bucket)
    (hfile : ∀ metadata, artifact.body ≠ .document metadata) {object : BucketObject}
    (hobject : object ∈ (bucket.put artifact).objects) {metadata : MetadataDocument}
    (hbody : object.body = .document metadata)
    (hnamed : metadata.objectKey = some artifact.key → metadata.Describes artifact) :
    ∃ described ∈ (bucket.put artifact).objects, metadata.Describes described := by
  rcases Bucket.mem_put.mp hobject with ⟨hold, -⟩ | rfl
  · obtain ⟨described, hdescribed, hdescribes⟩ := h object hold metadata hbody
    by_cases hkey : described.key = artifact.key
    · exact ⟨artifact, Bucket.mem_put.mpr (.inr rfl), hnamed (hkey ▸ hdescribes.1)⟩
    · exact ⟨described, Bucket.mem_put.mpr (.inl ⟨hdescribed, hkey⟩), hdescribes⟩
  · exact absurd hbody (hfile metadata)

/-- The document of the new artifact makes all documents true again. -/
theorem advertisesOnlyStored_put_document {new : MetadataDocument}
    (hkeyed : DocumentsKeyed storePrefix bucket)
    (hothers : ∀ object ∈ bucket.objects, ∀ metadata, object.body = .document metadata →
      metadata.objectKey ≠ some artifact.key →
        ∃ described ∈ bucket.objects, metadata.Describes described)
    (hartifact : artifact ∈ bucket.objects)
    (hkey : artifact.key = storePrefix ++ (kind.keys name).artifact)
    (hdescription : description.key = storePrefix ++ (kind.keys name).metadata)
    (hbody : description.body = .document new) (hnew : new.Describes artifact) :
    AdvertisesOnlyStored (bucket.put description) := by
  intro object hobject metadata hmetadata
  rcases Bucket.mem_put.mp hobject with ⟨hold, hne⟩ | rfl
  · obtain ⟨kind', name', hobjectKey, hnames⟩ := hkeyed object hold metadata hmetadata
    have hother : metadata.objectKey ≠ some artifact.key := by
      rw [hnames, hkey]
      intro hsame
      have hkeys := artifact_key_injective (Option.some.inj hsame)
      exact hne (by rw [hobjectKey, hdescription, hkeys])
    obtain ⟨described, hdescribed, hdescribes⟩ := hothers object hold metadata hmetadata hother
    refine ⟨described, Bucket.mem_put.mpr (.inl ⟨hdescribed, ?_⟩), hdescribes⟩
    have hsame : described.key = storePrefix ++ (kind'.keys name').artifact :=
      Option.some.inj (hdescribes.1.symm.trans hnames)
    rw [hsame, hdescription]
    exact artifact_key_ne_metadata_key
  · obtain rfl : new = metadata := by
      rw [hbody] at hmetadata
      exact StoredBody.document.inj hmetadata
    refine ⟨artifact, Bucket.mem_put.mpr (.inl ⟨hartifact, ?_⟩), hnew⟩
    rw [hkey, hdescription]
    exact artifact_key_ne_metadata_key

end Upload

/-- What every run keeps that is not torn. -/
structure CatalogInvariant (storePrefix : String) (bucket : Bucket) : Prop where
  keyed : DocumentsKeyed storePrefix bucket
  stored : AdvertisesOnlyStored bucket

section Steps

variable {dateParse : String → Option ℤ} {storePrefix : String} {bucket : Bucket}

/-- An upload that fails after its artifact must not have replaced the artifact
of a stored document. -/
theorem catalogInvariant_upload (kind : BackupKind) {name artifact createdAt : String}
    {upload : Upload} {n : ℕ} (h : CatalogInvariant storePrefix bucket)
    (hfails : ∀ object ∈ bucket.objects, ∀ metadata, object.body = .document metadata →
      ∀ stored, (((encryptAndStore storePrefix (kind.keys name) artifact createdAt upload).take
          n).filter (· ≠ .read)).getLast? = some (.put stored) →
        metadata.objectKey = some stored.key → metadata.Describes stored) :
    CatalogInvariant storePrefix (performRequests
      ((encryptAndStore storePrefix (kind.keys name) artifact createdAt upload).take n)
      bucket) := by
  let stored : BucketObject :=
    { key := storePrefix ++ (kind.keys name).artifact, size := upload.size,
      lastModified := upload.storedAt, body := .file upload.sha256 }
  have hfile : ∀ metadata, stored.body ≠ .document metadata := by simp [stored]
  have hkeyed : DocumentsKeyed storePrefix (bucket.put stored) :=
    h.keyed.put fun metadata hbody => absurd hbody (hfile metadata)
  have htorn (hlast : (((encryptAndStore storePrefix (kind.keys name) artifact createdAt
      upload).take n).filter (· ≠ .read)).getLast? = some (.put stored)) :
      CatalogInvariant storePrefix (bucket.put stored) := by
    refine ⟨hkeyed, fun object hobject metadata hbody => ?_⟩
    refine describes_put_artifact h.stored hfile hobject hbody fun hnamed => ?_
    rcases Bucket.mem_put.mp hobject with ⟨hold, -⟩ | rfl
    · exact hfails object hold metadata hbody stored hlast hnamed
    · exact absurd hbody (hfile metadata)
  match n, htorn with
  | 0, _ => exact h
  | 1, htorn => exact htorn rfl
  | 2, htorn => exact htorn rfl
  | n + 3, _ =>
      rw [List.take_of_length_le (Nat.le_add_left 3 n)]
      let new : MetadataDocument :=
        { artifact := some artifact, createdAt := some createdAt, objectKey := some stored.key,
          encryptedSha256 := some upload.sha256, encryptedBytes := some upload.size }
      let description : BucketObject :=
        { key := storePrefix ++ (kind.keys name).metadata, size := 0,
          lastModified := upload.describedAt, body := .document new }
      have hothers : ∀ object ∈ (bucket.put stored).objects, ∀ metadata,
          object.body = .document metadata → metadata.objectKey ≠ some stored.key →
            ∃ described ∈ (bucket.put stored).objects, metadata.Describes described :=
        fun object hobject metadata hbody hother =>
          describes_put_artifact h.stored hfile hobject hbody fun hnamed => absurd hnamed hother
      have hstored : AdvertisesOnlyStored ((bucket.put stored).put description) :=
        advertisesOnlyStored_put_document hkeyed hothers (Bucket.mem_put.mpr (.inr rfl)) rfl rfl
          rfl ⟨rfl, rfl, upload.sha256, rfl, rfl⟩
      refine ⟨DocumentsKeyed.put hkeyed ?_, hstored⟩
      rintro _ ⟨⟩
      exact ⟨kind, name, rfl, rfl⟩

/-- A prune that fails between the deletions of an artifact and of its metadata
is the only one that leaves a document without artifact. -/
theorem catalogInvariant_prune {retention : RetentionConfiguration} {now walNow : ℤ} {n : ℕ}
    (h : CatalogInvariant storePrefix bucket)
    (hfails : ∀ object ∈ bucket.objects, ∀ metadata, object.body = .document metadata →
      ∀ key, (((prune dateParse storePrefix retention now walNow bucket).take n).filter
          (· ≠ .read)).getLast? = some (.delete key) → metadata.objectKey ≠ some key) :
    CatalogInvariant storePrefix
      (performRequests ((prune dateParse storePrefix retention now walNow bucket).take n)
        bucket) := by
  have hputs : ∀ request ∈ (prune dateParse storePrefix retention now walNow bucket).take n,
      ∀ object, request ≠ .put object :=
    fun request hrequest => not_put_of_mem_prune (List.mem_of_mem_take hrequest)
  refine ⟨fun object hobject => h.keyed object ((mem_performRequests hputs).mp hobject).1, ?_⟩
  intro object hobject metadata hbody
  obtain ⟨hold, hkept⟩ := (mem_performRequests hputs).mp hobject
  obtain ⟨described, hdescribed, hdescribes⟩ := h.stored object hold metadata hbody
  refine ⟨described, (mem_performRequests hputs).mpr ⟨hdescribed, fun hdeleted => ?_⟩, hdescribes⟩
  obtain ⟨kind, name, hobjectKey, hnames⟩ := h.keyed object hold metadata hbody
  have hkey : described.key = storePrefix ++ (kind.keys name).artifact :=
    Option.some.inj (hdescribes.1.symm.trans hnames)
  rw [hkey] at hdeleted
  rcases (followed_prune retention now walNow bucket).take hdeleted with hmetadata | hlast
  · rw [← hobjectKey] at hmetadata
    exact hkept hmetadata
  · obtain ⟨front, hfront⟩ := List.getLast?_eq_some_iff.mp hlast
    refine hfails object hold metadata hbody _ ?_ hnames
    rw [hfront]
    simp

/-- A run that does not tear an artifact from its document keeps the catalog
true. -/
theorem catalogInvariant_perform {interrupted : InterruptedRun}
    (h : CatalogInvariant storePrefix bucket)
    (htears : ¬interrupted.Tears dateParse storePrefix bucket) :
    CatalogInvariant storePrefix (interrupted.perform dateParse storePrefix bucket) := by
  obtain ⟨run, completed⟩ := interrupted
  have hput : ∀ object ∈ bucket.objects, ∀ metadata, object.body = .document metadata →
      ∀ stored, (((run.requests dateParse storePrefix bucket).take completed).filter
          (· ≠ .read)).getLast? = some (.put stored) →
        metadata.objectKey = some stored.key → metadata.Describes stored := by
    intro object hobject metadata hbody stored hlast hnamed
    by_contra hnot
    refine htears ⟨object, hobject, metadata, hbody, ?_⟩
    simp only [InterruptedRun.requests, hlast]
    exact ⟨hnamed, hnot⟩
  cases run with
  | shipBackup artifactName createdAt upload =>
      exact catalogInvariant_upload .logical h hput
  | shipBaseBackup startedAt upload => exact catalogInvariant_upload .base h hput
  | prune retention now walNow =>
      refine catalogInvariant_prune h fun object hobject metadata hbody key hlast hnamed => ?_
      refine htears ⟨object, hobject, metadata, hbody, ?_⟩
      simp only [InterruptedRun.requests, BackupRun.requests, hlast]
      exact hnamed

end Steps

section Reachable

variable {dateParse : String → Option ℤ} {storePrefix : String}

theorem catalogInvariant_empty : CatalogInvariant storePrefix .empty :=
  ⟨fun _ hobject => absurd hobject List.not_mem_nil,
    fun _ hobject => absurd hobject List.not_mem_nil⟩

theorem performRuns_concat (done : List InterruptedRun) (interrupted : InterruptedRun)
    (bucket : Bucket) : performRuns dateParse storePrefix (done ++ [interrupted]) bucket =
      interrupted.perform dateParse storePrefix
        (performRuns dateParse storePrefix done bucket) := by
  simp [performRuns]

/-- Whatever is shipped and pruned, and wherever the runs fail, the catalog is
true as long as no run tears an artifact from its document. -/
theorem catalog_true_of_untorn (runs : List InterruptedRun)
    (huntorn : ∀ done interrupted, done ++ [interrupted] <+: runs →
      ¬interrupted.Tears dateParse storePrefix (performRuns dateParse storePrefix done .empty)) :
    AdvertisesOnlyStored (performRuns dateParse storePrefix runs .empty) := by
  suffices hall : ∀ done, done <+: runs →
      CatalogInvariant storePrefix (performRuns dateParse storePrefix done .empty) from
    (hall runs List.prefix_rfl).stored
  intro done
  induction done using List.reverseRecOn with
  | nil => exact fun _ => catalogInvariant_empty
  | append_singleton done interrupted ih =>
      intro hprefix
      rw [performRuns_concat]
      exact catalogInvariant_perform (ih ((List.prefix_append done [interrupted]).trans hprefix))
        (huntorn done interrupted hprefix)

end Reachable

def sampleUpload (sha256 : String) : Upload :=
  { size := 1, sha256, storedAt := "2026-01-01T00:00:01Z", describedAt := "2026-01-01T00:00:02Z" }

def sampleRetention : RetentionConfiguration :=
  { logicalDays := 1, logicalMinimum := 1, walDays := 1, logicalDays_pos := by norm_num,
    logicalMinimum_pos := by norm_num, walDays_pos := by norm_num }

/-- Nothing is torn when the first upload of a backup fails before its metadata
and the second one succeeds. -/
theorem catalog_true_of_retried_upload : AdvertisesOnlyStored
    (performRuns parseUtc "orgistry/production/"
      [⟨.shipBackup "a.dump" "2026-01-01T00:00:00Z" (sampleUpload "1"), 1⟩,
        ⟨.shipBackup "a.dump" "2026-01-01T00:00:00Z" (sampleUpload "2"), 3⟩] .empty) := by
  refine catalog_true_of_untorn _ fun done interrupted hprefix => ?_
  rintro ⟨object, hobject, metadata, hbody, -⟩
  -- before each of the two runs the bucket holds no document
  have hnone : done = [] ∨
      done = [⟨.shipBackup "a.dump" "2026-01-01T00:00:00Z" (sampleUpload "1"), 1⟩] := by
    match done, hprefix with
    | [], _ => exact .inl rfl
    | [first], hprefix => simp_all
    | first :: second :: rest, hprefix =>
        have hlength := hprefix.length_le
        simp at hlength
  rcases hnone with rfl | rfl
  · cases hobject
  · obtain rfl := List.mem_singleton.mp hobject
    cases hbody

/-- Two backups, and a prune that fails after it has deleted the artifact of the
older one. -/
def tornPrune : List InterruptedRun :=
  [⟨.shipBackup "a.dump" "2026-01-01T00:00:00Z" (sampleUpload "1"), 3⟩,
    ⟨.shipBackup "b.dump" "2026-01-02T00:00:00Z" (sampleUpload "2"), 3⟩,
    ⟨.prune sampleRetention 1767500000000 1767500000000, 6⟩]

/-- What is left of the older backup. -/
def leftDocument : BucketObject :=
  { key := "orgistry/production/logical/a.dump.meta.json", size := 0,
    lastModified := "2026-01-01T00:00:02Z",
    body := .document
      { artifact := some "a.dump", createdAt := some "2026-01-01T00:00:00Z",
        objectKey := some "orgistry/production/logical/a.dump.enc", encryptedSha256 := some "1",
        encryptedBytes := some 1 } }

/-- The catalog shows a backup without artifact. -/
theorem torn_prune_advertises_deleted : ¬AdvertisesOnlyStored
    (performRuns parseUtc "orgistry/production/" tornPrune .empty) := by
  intro h
  have hkeys : (performRuns parseUtc "orgistry/production/" tornPrune .empty).objects.map
      (fun object => object.key) = ["orgistry/production/logical/a.dump.meta.json",
        "orgistry/production/logical/b.dump.enc",
        "orgistry/production/logical/b.dump.meta.json"] := by
    decide +kernel
  have hdocument : leftDocument ∈
      (performRuns parseUtc "orgistry/production/" tornPrune .empty).objects := by
    decide +kernel
  obtain ⟨artifact, hartifact, hnamed, -⟩ := h _ hdocument _ rfl
  have hkey := List.mem_map_of_mem (f := fun object => object.key) hartifact
  rw [hkeys, ← Option.some.inj hnamed] at hkey
  exact absurd hkey (by decide)

end Orgistry.Model
