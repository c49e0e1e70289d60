import Orgistry.Backups.Encryption
import Orgistry.Model.BackupFetch

/-!
# What a failed fetch leaves behind

The commands remove the encrypted copy when they fail, and never the
destination.  So the destination of a failed fetch is absent exactly when it was
absent before and the fetch failed before it opened it: plaintext that the tag
check has refused stays.
-/

namespace Orgistry.Backups

open Text Model

theorem Disk.remove_apply {disk : Disk} {path other : String} (h : other ≠ path) :
    disk.remove path other = disk other := Function.update_of_ne h _ _

@[simp]
theorem Disk.write_apply_self (disk : Disk) (path : String) (content : List Byte) :
    disk.write path content path = some content := Function.update_self _ _ _

theorem Disk.write_apply {disk : Disk} {path other : String} {content : List Byte}
    (h : other ≠ path) : disk.write path content other = disk other :=
  Function.update_of_ne h _ _

theorem output_ne_encryptedPath (output : String) : output ≠ encryptedPath output := by
  intro h
  have hlength := congrArg String.length h
  rw [encryptedPath, String.length_append] at hlength
  have : ".enc.tmp".length = 8 := rfl
  omega

/-- A decipher is created for the artifact. -/
def opensDecipher (crypto : NodeCrypto) (key : EncryptionKey) (artifact : List Byte) : Bool :=
  match readHeader artifact with
  | .error _ => false
  | .ok { header, dataStart, .. } =>
      !namesOtherKey crypto header key &&
        (headerIv crypto header).any fun iv =>
          (crypto.decipher key iv
            ((artifact.drop dataStart).take (artifact.length - tagBytes - dataStart))).isSome

/-- The destination is opened: with `raw` for any successful answer, and
otherwise once the whole artifact has arrived and a decipher exists. -/
def opensOutput (crypto : NodeCrypto) (key : EncryptionKey) (raw : Bool) (attempt : FetchAttempt) :
    Bool :=
  match attempt.answer with
  | none => false
  | some artifact =>
      attempt.downloadOpens && (raw ||
        attempt.receivedBeforeBreak.isNone && attempt.downloadReads && attempt.outputOpens &&
          opensDecipher crypto key artifact)

section Fetch

variable (crypto : NodeCrypto) (key : EncryptionKey)

/-- A decipher decides whether `decryptFile` refuses the artifact. -/
theorem decryptFile_refused_iff (artifact : List Byte) (streaming : Streaming) :
    (∃ error, decryptFile crypto key artifact streaming = .refused error) ↔
      opensDecipher crypto key artifact = false := by
  unfold decryptFile opensDecipher
  cases hread : readHeader artifact with
  | error error => simp
  | ok found =>
      obtain ⟨header, aad, dataStart⟩ := found
      simp only
      cases namesOtherKey crypto header key with
      | true => simp
      | false =>
          cases headerIv crypto header with
          | none => simp
          | some iv =>
              simp only [Bool.not_false, Bool.true_and, Option.any_some, Bool.false_eq_true,
                if_false]
              cases crypto.decipher key iv _ with
              | none => simp
              | some content =>
                  simp only [Option.isSome_some, Bool.true_eq_false, iff_false]
                  rintro ⟨error, h⟩
                  split at h
                  · cases h
                  split at h
                  · cases h
                  split at h <;> cases h

/-- No file is opened, or the transfer breaks off, or the body is there. -/
theorem getFile_cases (attempt : FetchAttempt) (path : String) (disk : Disk) :
    ((attempt.answer = none ∨ attempt.downloadOpens = false) ∧
      getFile attempt path disk = (.error .download, disk)) ∨
    ∃ body, attempt.answer = some body ∧ attempt.downloadOpens = true ∧
      ((∃ bytes, attempt.receivedBeforeBreak = some bytes ∧
        getFile attempt path disk = (.error .download, disk.write path (body.take bytes))) ∨
      (attempt.receivedBeforeBreak = none ∧
        getFile attempt path disk = (.ok (), disk.write path body))) := by
  unfold getFile
  cases hanswer : attempt.answer with
  | none => exact .inl ⟨.inl rfl, rfl⟩
  | some body =>
      cases hopens : attempt.downloadOpens with
      | false => exact .inl ⟨.inr rfl, rfl⟩
      | true =>
          refine .inr ⟨body, rfl, rfl, ?_⟩
          cases hbreak : attempt.receivedBeforeBreak with
          | some bytes => exact .inl ⟨bytes, rfl, rfl⟩
          | none => exact .inr ⟨rfl, rfl⟩

/-- `decryptTo` leaves something at the destination when a decipher exists and the
destination can be opened, and otherwise what was there. -/
theorem decryptTo_output (attempt : FetchAttempt) {source : String} (output : String) {disk : Disk}
    {artifact : List Byte} (hsource : disk source = some artifact) :
    let opened := attempt.downloadReads && attempt.outputOpens && opensDecipher crypto key artifact
    (opened = true →
      ((decryptTo crypto key attempt source output disk).2 output).isSome) ∧
      (opened = false →
        (decryptTo crypto key attempt source output disk).2 output = disk output ∧
          ∃ error, (decryptTo crypto key attempt source output disk).1 = .error error) := by
  intro opened
  unfold decryptTo
  cases hreads : attempt.downloadReads with
  | false => simp [opened, hreads]
  | true =>
      rw [if_pos rfl, hsource]
      simp only
      have hrefused := decryptFile_refused_iff crypto key artifact attempt.streaming
      cases hresult : decryptFile crypto key artifact attempt.streaming with
      | refused error =>
          have hdecipher := hrefused.mp ⟨error, hresult⟩
          simp [opened, hdecipher]
      | failed error written =>
          have hdecipher : opensDecipher crypto key artifact = true := by
            by_contra hno
            obtain ⟨_, h⟩ := hrefused.mpr (by simpa using hno)
            rw [hresult] at h
            cases h
          cases hopens : attempt.outputOpens <;> simp [opened, hreads, hopens, hdecipher]
      | decrypted header content digest =>
          have hdecipher : opensDecipher crypto key artifact = true := by
            by_contra hno
            obtain ⟨_, h⟩ := hrefused.mpr (by simpa using hno)
            rw [hresult] at h
            cases h
          cases hopens : attempt.outputOpens <;> simp [opened, hreads, hopens, hdecipher]

/-- What the `try` leaves at the destination. -/
theorem retrieve_output (attempt : FetchAttempt) (output : String) (disk : Disk) :
    (opensOutput crypto key false attempt = true →
      ((retrieve crypto key attempt output disk).2 output).isSome) ∧
      (opensOutput crypto key false attempt = false →
        (retrieve crypto key attempt output disk).2 output = disk output) := by
  have hne := output_ne_encryptedPath output
  unfold retrieve opensOutput
  obtain ⟨hclosed, hget⟩ | ⟨body, hbody, hopens, ⟨bytes, hbreak, hget⟩ | ⟨hbreak, hget⟩⟩ :=
    getFile_cases attempt (encryptedPath output) disk
  · rw [hget]
    rcases hclosed with h | h
    · simp [h]
    · cases attempt.answer <;> simp [h]
  · rw [hget]
    simp [hbody, hbreak, Disk.write_apply hne]
  · rw [hget]
    have houtput := decryptTo_output crypto key attempt output
      (Disk.write_apply_self disk (encryptedPath output) body)
    simp only [Disk.write_apply hne] at houtput
    simp only [hbody, hopens, hbreak, Bool.true_and, Bool.false_or, Option.isNone_none]
    exact ⟨houtput.1, fun h => (houtput.2 h).1⟩

/-- Downloading or decrypting fails, which is all that can fail of `fetch` but
the removal of the encrypted copy. -/
def Fails (raw : Bool) (attempt : FetchAttempt) (output : String) (disk : Disk) : Prop :=
  if raw then (getFile attempt output disk).1 ≠ .ok ()
  else ∀ header, (retrieve crypto key attempt output disk).1 ≠ .ok header

/-- The removal of the encrypted copy does not touch the destination. -/
theorem fetchDecrypted_output (attempt : FetchAttempt) (output : String) (disk : Disk) :
    (fetchDecrypted crypto key attempt output disk).2 output =
      (retrieve crypto key attempt output disk).2 output := by
  unfold fetchDecrypted
  cases attempt.removes with
  | true => exact Disk.remove_apply (output_ne_encryptedPath output)
  | false => rfl

theorem fetchDecrypted_error {attempt : FetchAttempt} {output : String} {disk : Disk}
    (h : Fails crypto key false attempt output disk) :
    ∃ error, (fetchDecrypted crypto key attempt output disk).1 = .error error := by
  unfold fetchDecrypted
  cases attempt.removes with
  | false => exact ⟨_, rfl⟩
  | true =>
      cases hresult : (retrieve crypto key attempt output disk).1 with
      | ok header => exact absurd hresult (h header)
      | error error => exact ⟨error, hresult⟩

/-- The destination after downloading and decrypting, whatever came of it. -/
theorem fetchDecrypted_output_eq_none_iff (attempt : FetchAttempt) (output : String) (disk : Disk) :
    (fetchDecrypted crypto key attempt output disk).2 output = none ↔
      disk output = none ∧ opensOutput crypto key false attempt = false := by
  obtain ⟨hopened, hclosed⟩ := retrieve_output crypto key attempt output disk
  rw [fetchDecrypted_output]
  cases hopens : opensOutput crypto key false attempt with
  | true =>
      have hsome := hopened hopens
      constructor
      · intro hnone
        rw [hnone] at hsome
        cases hsome
      · rintro ⟨-, h⟩
        cases h
  | false => rw [hclosed hopens, and_iff_left rfl]

/-- Nothing is at the destination exactly when nothing was and the command never opens it. -/
theorem commandFetch_output_eq_none_iff {raw : Bool} {attempt : FetchAttempt} {output : String}
    {disk : Disk} :
    (commandFetch crypto key raw attempt output disk).2 output = none ↔
      disk output = none ∧ opensOutput crypto key raw attempt = false := by
  cases raw with
  | false => exact fetchDecrypted_output_eq_none_iff crypto key attempt output disk
  | true =>
      have hcommand : (commandFetch crypto key true attempt output disk).2 =
          (getFile attempt output disk).2 := rfl
      rw [hcommand, opensOutput]
      obtain ⟨hclosed, hget⟩ | ⟨body, hbody, hopens, ⟨bytes, -, hget⟩ | ⟨-, hget⟩⟩ :=
        getFile_cases attempt output disk
      · rw [hget]
        rcases hclosed with h | h
        · simp [h]
        · cases attempt.answer <;> simp [h]
      · rw [hget]
        simp [hbody, hopens]
      · rw [hget]
        simp [hbody, hopens]

theorem commandFetch_error {raw : Bool} {attempt : FetchAttempt} {output : String} {disk : Disk}
    (h : Fails crypto key raw attempt output disk) :
    ∃ error, (commandFetch crypto key raw attempt output disk).1 = .error error := by
  cases raw with
  | false =>
      obtain ⟨error, herror⟩ := fetchDecrypted_error crypto key h
      refine ⟨error, ?_⟩
      change (fetchDecrypted crypto key attempt output disk).1.map _ = _
      rw [herror]
      rfl
  | true =>
      cases hresult : (getFile attempt output disk).1 with
      | ok => exact absurd hresult h
      | error error => exact ⟨error, hresult⟩

/-- Where `fetch-wal` throws, the segments before it have been retrieved. -/
theorem commandFetchWal_failed {directory since segment : String} {error : FetchError}
    {disk' : Disk} :
    ∀ {objects : List (String × FetchAttempt)} {disk : Disk},
      commandFetchWal crypto key directory since objects disk = .failed segment error disk' →
        ∃ earlier objectKey attempt later before,
          objects = earlier ++ (objectKey, attempt) :: later ∧
            segment = walSegmentName objectKey ∧
            commandFetchWal crypto key directory since earlier disk = .retrieved before ∧
            fetchDecrypted crypto key attempt (join directory segment) before =
              (.error error, disk') := by
  intro objects
  induction objects with
  | nil =>
      intro disk h
      cases h
  | cons object objects ih =>
      intro disk h
      obtain ⟨objectKey, attempt⟩ := object
      rw [commandFetchWal] at h
      split at h
      next hskipped =>
        obtain ⟨earlier, objectKey', attempt', later, before, rfl, hsegment, hearlier, hfetch⟩ :=
          ih h
        refine ⟨(objectKey, attempt) :: earlier, objectKey', attempt', later, before, rfl,
          hsegment, ?_, hfetch⟩
        rw [commandFetchWal, if_pos hskipped, hearlier]
      next hkept =>
        split at h
        next error' disk₁ hfetch =>
          cases h
          exact ⟨[], objectKey, attempt, objects, disk, rfl, rfl, rfl, hfetch⟩
        next header disk₁ hfetch =>
          obtain ⟨earlier, objectKey', attempt', later, before, rfl, hsegment, hearlier, hlast⟩ :=
            ih h
          refine ⟨(objectKey, attempt) :: earlier, objectKey', attempt', later, before, rfl,
            hsegment, ?_, hlast⟩
          rw [commandFetchWal, if_neg hkept, hfetch]
          exact hearlier

/-- After downloading or decrypting has failed, there is no file at the
destination if and only if there was none and it has not been opened. -/
theorem failed_fetch_leaves_nothing_iff :
    (∀ raw attempt output disk, Fails crypto key raw attempt output disk →
      (∃ error, (commandFetch crypto key raw attempt output disk).1 = .error error) ∧
        ((commandFetch crypto key raw attempt output disk).2 output = none ↔
          disk output = none ∧ opensOutput crypto key raw attempt = false)) ∧
      ∀ directory since objects disk segment error disk',
        commandFetchWal crypto key directory since objects disk = .failed segment error disk' →
          ∃ earlier objectKey attempt later before,
            objects = earlier ++ (objectKey, attempt) :: later ∧
              segment = walSegmentName objectKey ∧
              commandFetchWal crypto key directory since earlier disk = .retrieved before ∧
              (disk' (join directory segment) = none ↔
                before (join directory segment) = none ∧
                  opensOutput crypto key false attempt = false) := by
  refine ⟨fun raw attempt output disk hfails => ⟨commandFetch_error crypto key hfails,
    commandFetch_output_eq_none_iff crypto key⟩, ?_⟩
  intro directory since objects disk segment error disk' h
  obtain ⟨earlier, objectKey, attempt, later, before, hobjects, hsegment, hearlier, hfetch⟩ :=
    commandFetchWal_failed crypto key h
  refine ⟨earlier, objectKey, attempt, later, before, hobjects, hsegment, hearlier, ?_⟩
  have hiff := fetchDecrypted_output_eq_none_iff crypto key attempt (join directory segment) before
  rwa [hfetch] at hiff

end Fetch

/-- Everything works until the tag is checked; what so small an artifact decrypts to is still
buffered then. -/
def attemptWith (answer : Option (List Byte)) : FetchAttempt :=
  { answer, downloadOpens := true, receivedBeforeBreak := none, downloadReads := true,
    outputOpens := true, streaming := { breaksAfter := none, flushed := 0 }, removes := true }

theorem failed_fetch_leaves_nothing_absent :
    (commandFetch recordedCrypto zeroKey false (attemptWith none) "/restore/a" fun _ => none).2
        "/restore/a" = none ∧
      ∃ disk', commandFetchWal recordedCrypto zeroKey "/restore" ""
          [("wal/a.enc", attemptWith none)] (fun _ => none) = .failed "a" .download disk' ∧
        disk' "/restore/a" = none := by
  obtain ⟨hfetch, hwal⟩ := failed_fetch_leaves_nothing_iff recordedCrypto zeroKey
  refine ⟨(hfetch false (attemptWith none) "/restore/a" (fun _ => none) ?_).2.mpr ⟨rfl, rfl⟩, ?_⟩
  · intro header h
    cases h
  have hsegment : walSegmentName "wal/a.enc" = "a" := by decide
  have hrun : commandFetchWal recordedCrypto zeroKey "/restore" ""
      [("wal/a.enc", attemptWith none)] (fun _ => none) =
        .failed "a" .download (Disk.remove (fun _ => none) (encryptedPath "/restore/a")) := by
    rw [commandFetchWal, hsegment]
    rfl
  refine ⟨_, hrun, ?_⟩
  obtain ⟨earlier, objectKey, attempt, later, before, hobjects, -, hearlier, hiff⟩ :=
    hwal "/restore" "" _ _ "a" .download _ hrun
  cases earlier with
  | nil =>
      cases hobjects
      cases hearlier
      exact hiff.mpr ⟨rfl, rfl⟩
  | cons first earlier =>
      have hlength := congrArg List.length hobjects
      simp at hlength

/-- An artifact with one bit of its tag changed. -/
def alteredArtifact : List Byte :=
  frame (aadOf recordedDigest 3) ++ mask recordedContent ++
    [31, 54, 234, 44, 79, 101, 177, 30, 168, 150, 195, 70, 145, 6, 188, 184].map byte

/-- A file is at the destination although the cipher refuses to authenticate the artifact. -/
theorem fetch_leaves_unauthenticated :
    (commandFetch recordedCrypto zeroKey false (attemptWith (some alteredArtifact)) "/restore/a"
        fun _ => none).1 = .error (.decrypt .authentication) ∧
      (commandFetch recordedCrypto zeroKey false (attemptWith (some alteredArtifact)) "/restore/a"
        fun _ => none).2 "/restore/a" = some [] := by
  decide +kernel

end Orgistry.Backups
