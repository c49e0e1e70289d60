import Orgistry.Backups.Encryption
import Orgistry.Model.WalSpool

/-!
# No segment is lost between archiver and shipper

The shipper may take a copy that is still growing.  When it deletes the file
before `chmod`, that makes `archive_command` fail and PostgreSQL tries again;
when it deletes it later, what it has read before the end of the copy is all
that is left.  `chmod` excludes this for a shipper that cannot read the copy
before.
-/

namespace Orgistry.Backups

open Sorting Text Model

section Handover

variable (handover : Handover)

/-- The stored object of a segment decrypts to the whole segment. -/
def Recovers (stored : String → Option (List Byte)) (segment : String) : Prop :=
  ∃ artifact, stored (walObjectKey segment) = some artifact ∧ ∀ flushed, ∃ header digest,
    decryptFile handover.crypto handover.key artifact ⟨none, flushed⟩ =
      .decrypted header (handover.content segment) digest

def NoSegmentLost (system : SpoolSystem) : Prop :=
  ∀ segment ∈ system.succeeded, system.spool.lookup segment = none →
    Recovers handover system.stored segment

/-- For the file that the shipper is about to delete, `archive_command` has not
succeeded yet, or both reads met the end of the segment. -/
def ReadsComplete (system : SpoolSystem) : Prop :=
  match system.shipper with
  | .working segment (.checked digestRead call _) _ =>
      segment ∈ system.succeeded →
        digestRead = handover.content segment ∧ call.content = handover.content segment
  | _ => True

/-- The states of the runs in which every deletion meets the condition, unless the
shipper cannot read fresh copies. -/
inductive SpoolRun (stored : String → Option (List Byte)) : SpoolSystem → Prop
  | fresh : SpoolRun stored (.fresh stored)
  | step {system next : SpoolSystem} {step : SpoolStep} (hrun : SpoolRun stored system)
      (hdelete : step = .delete → handover.readsFresh = true → ReadsComplete handover system)
      (hstep : system.step handover step = some next) : SpoolRun stored next

abbrev Spool := AList fun _ : String => SpooledSegment

/-- A shared file is complete. -/
def SharedComplete (spool : Spool) : Prop :=
  ∀ segment entry, spool.lookup segment = some entry → entry.shared = true →
    entry.bytes = handover.content segment

/-- The file that `archive_command` copies, if it is still there. -/
def ArchiverFits (spool : Spool) : Archiver → Prop
  | .idle => True
  | .copying segment written => ∀ entry, spool.lookup segment = some entry →
      entry = { bytes := (handover.content segment).take written, shared := false }
  | .copied segment => ∀ entry, spool.lookup segment = some entry →
      entry.bytes = handover.content segment

/-- What was read of a file that the shipper can only read when it is shared. -/
def ReadFits (segment : String) (bytes : List Byte) : Prop :=
  handover.readsFresh = false → bytes = handover.content segment

structure CallFits (segment : String) (digestRead : List Byte) (call : EncryptCall)
    (artifact : List Byte) : Prop where
  key : call.key = handover.key
  digest : call.plaintextSha256 = encodeHex (handover.crypto.sha256 digestRead)
  made : encryptFile handover.crypto call = some artifact
  digestRead : ReadFits handover segment digestRead
  content : ReadFits handover segment call.content

def StageFits (stored : String → Option (List Byte)) (segment : String) : ShipStage → Prop
  | .digested digestRead => ReadFits handover segment digestRead
  | .measured digestRead _ => ReadFits handover segment digestRead
  | .encrypted digestRead call artifact => CallFits handover segment digestRead call artifact
  | .uploaded digestRead call artifact =>
      CallFits handover segment digestRead call artifact ∧
        stored (walObjectKey segment) = some artifact
  | .checked digestRead call artifact =>
      CallFits handover segment digestRead call artifact ∧
        stored (walObjectKey segment) = some artifact

/-- The segment that the shipper works on is in the spool until it deletes it. -/
def ShipperFits (spool : Spool) (stored : String → Option (List Byte)) : Shipper → Prop
  | .working segment stage _ =>
      (spool.lookup segment).isSome ∧ StageFits handover stored segment stage
  | _ => True

/-- What has been archived is in the spool or can be recovered. -/
def Covered (spool : Spool) (stored : String → Option (List Byte)) (succeeded : List String) :
    Prop :=
  ∀ segment ∈ succeeded, (spool.lookup segment).isSome ∨ Recovers handover stored segment

structure SpoolInvariant (system : SpoolSystem) : Prop where
  shared : SharedComplete handover system.spool
  archiver : ArchiverFits handover system.spool system.archiver
  shipper : ShipperFits handover system.spool system.stored system.shipper
  covered : Covered handover system.spool system.stored system.succeeded

end Handover

section Steps

variable {handover : Handover} {system next : SpoolSystem} {layout : WalLayout}

theorem afterHex_hexDigits (width n : ℕ) (suffix : List Char) :
    afterHex width (hexDigits width n ++ suffix) = some suffix := by
  have hdigit : ∀ d : Fin 16, isHexDigit (hexDigit d) = true := by decide
  have hall : (hexDigits width n).all isHexDigit = true := by
    induction width generalizing n with
    | zero => rfl
    | succ width ih =>
        rw [hexDigits, List.all_append, ih, List.all_cons,
          hdigit ⟨n % 16, Nat.mod_lt _ (by decide)⟩]
        rfl
  have htake : (hexDigits width n ++ suffix).take width = hexDigits width n :=
    List.take_left' (length_hexDigits width n)
  rw [afterHex, htake, if_pos ⟨by simp, hall⟩, List.drop_left' (length_hexDigits width n)]

theorem afterHex_add {m n : ℕ} {text middle suffix : List Char}
    (hfirst : afterHex m text = some middle) (hsecond : afterHex n middle = some suffix) :
    afterHex (m + n) text = some suffix := by
  unfold afterHex at *
  split at hfirst
  · next h =>
      cases hfirst
      split at hsecond
      · next h' =>
          cases hsecond
          rw [List.length_drop] at h'
          have hdigits : (text.take (m + n)).all isHexDigit = true := by
            rw [List.take_add, List.all_append, h.2, h'.2]
            rfl
          rw [if_pos ⟨by omega, hdigits⟩, List.drop_drop]
      · cases hsecond
  · cases hfirst

theorem afterHex_name (segment : WalSegment layout) (suffix : List Char) :
    afterHex 24 (segment.name.toList ++ suffix) = some suffix := by
  simp only [WalSegment.name, hex8, String.toList_append, String.toList_ofList, List.append_assoc]
  change afterHex (8 + 8 + 8) _ = _
  exact afterHex_add (afterHex_add (afterHex_hexDigits ..) (afterHex_hexDigits ..))
    (afterHex_hexDigits ..)

/-- Names of WAL files pass the pattern of the shipper. -/
theorem isWalFileName_name (file : WalFile layout) : isWalFileName file.name = true := by
  rw [isWalFileName, Bool.or_eq_true, Option.any_eq_true]
  cases file with
  | segment wal =>
      exact Or.inl ⟨[], by simpa [WalFile.name] using afterHex_name wal [], rfl⟩
  | history timeline =>
      refine Or.inr (decide_eq_true ?_)
      rw [WalFile.name, hex8, String.toList_append, String.toList_ofList]
      exact afterHex_hexDigits ..
  | backup wal offset =>
      refine Or.inl ⟨('.' :: hexDigits 8 offset) ++ ".backup".toList, ?_, ?_⟩
      · rw [WalFile.name, String.toList_append]
        simpa [hex8] using afterHex_name wal _
      · simp [afterHex_hexDigits]
  | partialCopy wal =>
      refine Or.inl ⟨".partial".toList, ?_, rfl⟩
      rw [WalFile.name, String.toList_append]
      exact afterHex_name wal _

/-- The shipper lists every file of the archive that is in the spool. -/
theorem mem_list (file : WalFile layout)
    (hspooled : (system.spool.lookup file.name).isSome) (hstep : system.list = some next) :
    ∃ entries, next.shipper = .listed entries ∧ file.name ∈ entries := by
  rw [SpoolSystem.list] at hstep
  split at hstep
  · cases hstep
    refine ⟨_, rfl, (List.mem_insertionSort _).mpr (List.mem_filter.mpr ⟨?_, ?_⟩)⟩
    · exact AList.mem_keys.mp (AList.lookup_isSome.mp hspooled)
    · exact isWalFileName_name file
  · cases hstep

theorem SpoolInvariant.stop (h : SpoolInvariant handover system) :
    SpoolInvariant handover system.stop := ⟨h.shared, h.archiver, trivial, h.covered⟩

theorem SpoolInvariant.archiverStops (h : SpoolInvariant handover system) :
    SpoolInvariant handover { system with archiver := .idle } :=
  ⟨h.shared, trivial, h.shipper, h.covered⟩

theorem lookup_insert_cases {spool : Spool} {segment other : String}
    {entry found : SpooledSegment} (h : (spool.insert segment entry).lookup other = some found) :
    (other = segment ∧ found = entry) ∨ (other ≠ segment ∧ spool.lookup other = some found) := by
  by_cases hsame : other = segment
  · subst hsame
    rw [AList.lookup_insert, Option.some.injEq] at h
    exact .inl ⟨rfl, h.symm⟩
  · rw [AList.lookup_insert_ne hsame] at h
    exact .inr ⟨hsame, h⟩

theorem isSome_lookup_insert {spool : Spool} {segment other : String} {entry : SpooledSegment}
    (h : (spool.lookup other).isSome) : ((spool.insert segment entry).lookup other).isSome := by
  by_cases hsame : other = segment
  · subst hsame
    simp
  · rwa [AList.lookup_insert_ne hsame]

theorem ShipperFits.insert {spool : Spool} {stored : String → Option (List Byte)}
    {shipper : Shipper} (segment : String) (entry : SpooledSegment)
    (h : ShipperFits handover spool stored shipper) :
    ShipperFits handover (spool.insert segment entry) stored shipper := by
  cases shipper with
  | idle => trivial
  | listed entries => trivial
  | working worked stage entries => exact ⟨isSome_lookup_insert h.1, h.2⟩

theorem Covered.insert {spool : Spool} {stored : String → Option (List Byte)}
    {succeeded : List String} (segment : String) (entry : SpooledSegment)
    (h : Covered handover spool stored succeeded) :
    Covered handover (spool.insert segment entry) stored succeeded :=
  fun other hother => (h other hother).imp_left isSome_lookup_insert

theorem SharedComplete.insert {spool : Spool} {segment : String} {entry : SpooledSegment}
    (h : SharedComplete handover spool)
    (hentry : entry.shared = true → entry.bytes = handover.content segment) :
    SharedComplete handover (spool.insert segment entry) := by
  intro other found hfound hshared
  rcases lookup_insert_cases hfound with ⟨rfl, rfl⟩ | ⟨-, hold⟩
  · exact hentry hshared
  · exact h other found hold hshared

theorem SpoolInvariant.archive (h : SpoolInvariant handover system) {segment : String}
    (hstep : system.archive segment = some next) : SpoolInvariant handover next := by
  unfold SpoolSystem.archive at hstep
  split at hstep
  · split at hstep
    · cases hstep
      exact h
    · cases hstep
      refine ⟨h.shared.insert fun hshared => (nomatch hshared), ?_, h.shipper.insert _ _,
        h.covered.insert _ _⟩
      intro entry hentry
      rcases lookup_insert_cases hentry with ⟨-, rfl⟩ | ⟨hne, -⟩
      · rw [List.take_zero]
      · exact absurd rfl hne
  · cases hstep

/-- A file that is being copied is not shared yet. -/
theorem SpoolInvariant.copy (h : SpoolInvariant handover system) {count : ℕ}
    (hstep : system.copy handover count = some next) : SpoolInvariant handover next := by
  unfold SpoolSystem.copy at hstep
  split at hstep
  next segment written harchiver =>
    cases hstep
    have hfits := h.archiver
    rw [harchiver] at hfits
    cases hentry : system.spool.lookup segment with
    | none =>
        refine ⟨by simpa [hentry] using h.shared, ?_, by simpa [hentry] using h.shipper,
          by simpa [hentry] using h.covered⟩
        intro entry hfound
        simp [hentry] at hfound
    | some entry =>
        have hentry' := hfits entry hentry
        subst hentry'
        refine ⟨h.shared.insert fun hshared => (nomatch hshared), ?_, h.shipper.insert _ _,
          h.covered.insert _ _⟩
        intro found hfound
        rcases lookup_insert_cases hfound with ⟨-, rfl⟩ | ⟨hne, -⟩
        · rfl
        · exact absurd rfl hne
  · cases hstep

theorem SpoolInvariant.copyEnds (h : SpoolInvariant handover system)
    (hstep : system.copyEnds handover = some next) : SpoolInvariant handover next := by
  unfold SpoolSystem.copyEnds at hstep
  split at hstep
  next segment written harchiver =>
    split at hstep
    next hlength =>
      cases hstep
      have hfits := h.archiver
      rw [harchiver] at hfits
      refine ⟨h.shared, fun entry hentry => ?_, h.shipper, h.covered⟩
      rw [hfits entry hentry]
      exact List.take_of_length_le hlength
    · cases hstep
  · cases hstep

/-- With `chmod` the segment counts as archived, and its file is there. -/
theorem SpoolInvariant.chmod (h : SpoolInvariant handover system)
    (hstep : system.chmod = some next) : SpoolInvariant handover next := by
  unfold SpoolSystem.chmod at hstep
  split at hstep
  next segment harchiver =>
    have hfits := h.archiver
    rw [harchiver] at hfits
    split at hstep
    · cases hstep
      exact h.archiverStops
    next entry hentry =>
      cases hstep
      refine ⟨h.shared.insert fun _ => hfits entry hentry, trivial, h.shipper.insert _ _, ?_⟩
      intro other hother
      rcases List.mem_cons.mp hother with rfl | hold
      · exact .inl (by simp)
      · exact h.covered.insert _ _ other hold
  · cases hstep

/-! ## Files that are shipped -/

/-- Who can only read shared files reads them whole. -/
theorem SpoolInvariant.read (h : SpoolInvariant handover system) {segment : String}
    {bytes : List Byte} (hread : system.read handover segment = some bytes) :
    (system.spool.lookup segment).isSome ∧ ReadFits handover segment bytes := by
  unfold SpoolSystem.read at hread
  obtain ⟨entry, hentry, hbytes⟩ := Option.bind_eq_some_iff.mp hread
  refine ⟨by simp [hentry], fun hfresh => ?_⟩
  split at hbytes
  next hcan =>
    cases hbytes
    refine h.shared segment entry hentry ?_
    simpa [SpoolSystem.canRead, hfresh] using hcan
  · cases hbytes

theorem walObjectKey_injective : Function.Injective walObjectKey := by
  intro left right h
  unfold walObjectKey at h
  have hlist := congrArg String.toList h
  simp only [String.toList_append, List.append_cancel_left_eq, List.append_cancel_right_eq] at hlist
  exact String.toList_inj.mp hlist

theorem Recovers.update {stored : String → Option (List Byte)} {segment other : String}
    {artifact : List Byte} (hne : other ≠ segment) (h : Recovers handover stored other) :
    Recovers handover (Function.update stored (walObjectKey segment) (some artifact)) other := by
  obtain ⟨found, hfound, hdecrypts⟩ := h
  refine ⟨found, ?_, hdecrypts⟩
  rwa [Function.update_of_ne fun hkey => hne (walObjectKey_injective hkey)]

theorem SpoolInvariant.digest (h : SpoolInvariant handover system)
    (hstep : system.digest handover = some next) : SpoolInvariant handover next := by
  unfold SpoolSystem.digest at hstep
  split at hstep
  · cases hstep
    exact h.stop
  · split at hstep
    · cases hstep
      exact h.stop
    next hread =>
      cases hstep
      exact ⟨h.shared, h.archiver, h.read hread, h.covered⟩
  · cases hstep

theorem SpoolInvariant.measure (h : SpoolInvariant handover system)
    (hstep : system.measure = some next) : SpoolInvariant handover next := by
  unfold SpoolSystem.measure at hstep
  split at hstep
  next segment digestRead entries hshipper =>
    have hfits := h.shipper
    rw [hshipper] at hfits
    split at hstep
    · cases hstep
      exact h.stop
    · cases hstep
      exact ⟨h.shared, h.archiver, hfits, h.covered⟩
  · cases hstep

/-- The artifact is made of what the shipper reads now, beside the digest taken before. -/
theorem SpoolInvariant.encrypt (h : SpoolInvariant handover system) {iv : InitializationVector}
    (hstep : system.encrypt handover iv = some next) : SpoolInvariant handover next := by
  unfold SpoolSystem.encrypt at hstep
  split at hstep
  next segment digestRead size entries hshipper =>
    have hfits := h.shipper
    rw [hshipper] at hfits
    split at hstep
    · cases hstep
      exact h.stop
    next content hread =>
      simp only at hstep
      split at hstep
      · cases hstep
        exact h.stop
      next artifact hmade =>
        cases hstep
        exact ⟨h.shared, h.archiver,
          ⟨hfits.1, ⟨rfl, rfl, hmade, hfits.2, (h.read hread).2⟩⟩, h.covered⟩
  · cases hstep

theorem SpoolInvariant.upload (h : SpoolInvariant handover system)
    (hstep : system.upload = some next) : SpoolInvariant handover next := by
  unfold SpoolSystem.upload at hstep
  split at hstep
  next segment digestRead call artifact entries hshipper =>
    cases hstep
    have hfits := h.shipper
    rw [hshipper] at hfits
    refine ⟨h.shared, h.archiver, ⟨hfits.1, hfits.2, Function.update_self _ _ _⟩, ?_⟩
    intro other hother
    by_cases hsame : other = segment
    · exact .inl (hsame ▸ hfits.1)
    · exact (h.covered other hother).imp_right (Recovers.update hsame)
  · cases hstep

theorem SpoolInvariant.checkSize (h : SpoolInvariant handover system)
    (hstep : system.checkSize = some next) : SpoolInvariant handover next := by
  unfold SpoolSystem.checkSize at hstep
  split at hstep
  next segment digestRead call artifact entries hshipper =>
    have hfits := h.shipper
    rw [hshipper] at hfits
    split at hstep
    · cases hstep
      exact ⟨h.shared, h.archiver, hfits, h.covered⟩
    · cases hstep
      exact h.stop
  · cases hstep

/-- Whatever is sealed with an iv of the usual length. -/
def usualSealings : Set Sealing := {use | use.iv.length = 12}

theorem fits_of_encryptFile {crypto : NodeCrypto} {call : EncryptCall} {artifact : List Byte}
    (h : encryptFile crypto call = some artifact) :
    (call.aad crypto).length ≤ maxHeaderBytes := by
  obtain ⟨framed, hframed, -⟩ := Option.map_eq_some_iff.mp h
  unfold encodeHeader at hframed
  split at hframed
  · cases hframed
  next hfits => exact not_lt.mp hfits

/-- What was read whole can be recovered. -/
theorem CallFits.recovers (hcipher : CorrectCipher handover.crypto usualSealings)
    {stored : String → Option (List Byte)} {segment : String} {digestRead : List Byte}
    {call : EncryptCall} {artifact : List Byte}
    (h : CallFits handover segment digestRead call artifact)
    (hstored : stored (walObjectKey segment) = some artifact)
    (hdigest : digestRead = handover.content segment)
    (hcontent : call.content = handover.content segment) : Recovers handover stored segment := by
  have hsealing : sealing handover.crypto call ∈ usualSealings := call.iv.length_eq
  have hsha : call.plaintextSha256 = encodeHex (handover.crypto.sha256 call.content) := by
    rw [h.digest, hdigest, hcontent]
  obtain ⟨made, header, hmade, hdecrypts⟩ :=
    decryptFile_encryptFile hcipher hsealing (fits_of_encryptFile h.made) hsha
  obtain rfl := Option.some.inj (h.made.symm.trans hmade)
  refine ⟨artifact, hstored, fun flushed => ⟨header, call.plaintextSha256, ?_⟩⟩
  rw [← h.key, ← hcontent]
  exact hdecrypts flushed

theorem lookup_erase_eq_some {spool : Spool} {segment other : String} {found : SpooledSegment}
    (h : (spool.erase segment).lookup other = some found) :
    other ≠ segment ∧ spool.lookup other = some found := by
  by_cases hsame : other = segment
  · subst hsame
    simp at h
  · rw [AList.lookup_erase_ne hsame] at h
    exact ⟨hsame, h⟩

/-- A deletion that meets the condition leaves nothing uncovered. -/
theorem SpoolInvariant.delete (hcipher : CorrectCipher handover.crypto usualSealings)
    (h : SpoolInvariant handover system)
    (hreads : handover.readsFresh = true → ReadsComplete handover system)
    (hstep : system.delete = some next) : SpoolInvariant handover next := by
  unfold SpoolSystem.delete at hstep
  split at hstep
  next segment digestRead call artifact entries hshipper =>
    cases hstep
    have hfits := h.shipper
    rw [hshipper] at hfits
    obtain ⟨-, hcall, hstored⟩ := hfits
    refine ⟨fun other entry hentry => h.shared other entry (lookup_erase_eq_some hentry).2, ?_,
      trivial, ?_⟩
    · cases harchiver : system.archiver with
      | idle => trivial
      | copying copied written =>
          have hcopy := h.archiver
          rw [harchiver] at hcopy
          exact fun entry hentry => hcopy entry (lookup_erase_eq_some hentry).2
      | copied copied =>
          have hcopy := h.archiver
          rw [harchiver] at hcopy
          exact fun entry hentry => hcopy entry (lookup_erase_eq_some hentry).2
    · intro other hother
      by_cases hsame : other = segment
      · subst hsame
        refine .inr ?_
        cases hfresh : handover.readsFresh with
        | false =>
            exact hcall.recovers hcipher hstored (hcall.digestRead hfresh) (hcall.content hfresh)
        | true =>
            have hcomplete := hreads hfresh
            rw [ReadsComplete, hshipper] at hcomplete
            obtain ⟨hdigest, hcontent⟩ := hcomplete hother
            exact hcall.recovers hcipher hstored hdigest hcontent
      · rcases h.covered other hother with hspooled | hrecovers
        · exact .inl (by rwa [AList.lookup_erase_ne hsame])
        · exact .inr hrecovers
  · cases hstep

/-- One step of any of the parties. -/
theorem SpoolInvariant.step (hcipher : CorrectCipher handover.crypto usualSealings)
    (h : SpoolInvariant handover system) {step : SpoolStep}
    (hdelete : step = .delete → handover.readsFresh = true → ReadsComplete handover system)
    (hstep : system.step handover step = some next) : SpoolInvariant handover next := by
  cases step with
  | archive segment =>
      rw [SpoolSystem.step] at hstep
      exact h.archive hstep
  | copy count =>
      rw [SpoolSystem.step] at hstep
      exact h.copy hstep
  | copyEnds =>
      rw [SpoolSystem.step] at hstep
      exact h.copyEnds hstep
  | chmod =>
      rw [SpoolSystem.step] at hstep
      exact h.chmod hstep
  | archiverStops =>
      cases hstep
      exact h.archiverStops
  | list =>
      rw [SpoolSystem.step, SpoolSystem.list] at hstep
      split at hstep
      · cases hstep
        exact ⟨h.shared, h.archiver, trivial, h.covered⟩
      · cases hstep
  | digest =>
      rw [SpoolSystem.step] at hstep
      exact h.digest hstep
  | measure =>
      rw [SpoolSystem.step] at hstep
      exact h.measure hstep
  | encrypt iv =>
      rw [SpoolSystem.step] at hstep
      exact h.encrypt hstep
  | upload =>
      rw [SpoolSystem.step] at hstep
      exact h.upload hstep
  | checkSize =>
      rw [SpoolSystem.step] at hstep
      exact h.checkSize hstep
  | delete =>
      rw [SpoolSystem.step] at hstep
      exact h.delete hcipher (hdelete rfl) hstep
  | shipperStops =>
      cases hstep
      exact h.stop

theorem SpoolRun.invariant (hcipher : CorrectCipher handover.crypto usualSealings)
    {stored : String → Option (List Byte)} (hrun : SpoolRun handover stored system) :
    SpoolInvariant handover system := by
  induction hrun with
  | fresh =>
      refine ⟨fun segment entry hentry => ?_, trivial, trivial, fun segment hsegment => ?_⟩
      · simp [SpoolSystem.fresh] at hentry
      · cases hsegment
  | step hrun hdelete hstep ih => exact ih.step hcipher hdelete hstep

/-- In every interleaving whose deletions meet the condition, or whose shipper
cannot read a copy before `chmod`, no archived segment is lost. -/
theorem no_segment_lost (hcipher : CorrectCipher handover.crypto usualSealings)
    {stored : String → Option (List Byte)} (hrun : SpoolRun handover stored system) :
    NoSegmentLost handover system := by
  intro segment hsegment hgone
  rcases (hrun.invariant hcipher).covered segment hsegment with hspooled | hrecovers
  · rw [hgone] at hspooled
    cases hspooled
  · exact hrecovers

end Steps

/-! ## One schedule on either side -/

def sampleHandover (readsFresh : Bool) : Handover :=
  { crypto := recordedCrypto, key := zeroKey, readsFresh
    content := fun segment => if segment = recordedName then recordedContent else [] }

/-- The shipper lists the spool when the copy has just been opened, and deletes the
file after `chmod`. -/
def hastySteps : List SpoolStep :=
  [.archive recordedName, .list, .digest, .measure, .encrypt zeroIv, .upload, .checkSize, .copy 3,
    .copyEnds, .chmod, .delete]

/-- The shipper waits for the end of the copy. -/
def patientSteps : List SpoolStep :=
  [.archive recordedName, .copy 3, .copyEnds, .list, .digest, .measure, .encrypt zeroIv, .upload,
    .checkSize, .chmod]

def noObjects : String → Option (List Byte) := fun _ => none

theorem SpoolRun.steps {handover : Handover} {stored : String → Option (List Byte)}
    {system next : SpoolSystem} {steps : List SpoolStep} (hrun : SpoolRun handover stored system)
    (hsteps : system.run handover steps = some next) (hkept : .delete ∉ steps) :
    SpoolRun handover stored next := by
  induction steps generalizing system with
  | nil =>
      cases hsteps
      exact hrun
  | cons step steps ih =>
      obtain ⟨between, hstep, hrest⟩ := Option.bind_eq_some_iff.mp hsteps
      rw [List.mem_cons, not_or] at hkept
      exact ih (hrun.step (fun hdelete => absurd hdelete.symm hkept.1) hstep) hrest hkept.2

/-- What the shipper has read before it deletes the file. -/
def readsOf : Shipper → Option (String × List Byte × List Byte)
  | .working segment (.checked digestRead call _) _ => some (segment, digestRead, call.content)
  | _ => none

theorem readsComplete_of_readsOf {handover : Handover} {system : SpoolSystem} (segment : String)
    (h : readsOf system.shipper =
      some (segment, handover.content segment, handover.content segment)) :
    ReadsComplete handover system := by
  unfold ReadsComplete
  split
  next segment' digestRead call artifact entries hshipper =>
    rw [hshipper, readsOf] at h
    simp only [Option.some.injEq, Prod.mk.injEq] at h
    obtain ⟨rfl, hdigest, hcontent⟩ := h
    exact fun _ => ⟨hdigest, hcontent⟩
  · trivial

/-- A segment is handed over whole, deleted from the spool, and can be recovered. -/
theorem no_segment_lost_patient : ∃ system : SpoolSystem,
    recordedName ∈ system.succeeded ∧ system.spool.lookup recordedName = none ∧
      Recovers (sampleHandover true) system.stored recordedName := by
  have hbefore : ((SpoolSystem.fresh noObjects).run (sampleHandover true) patientSteps).map
      (fun system => (readsOf system.shipper, system.delete.map fun next =>
        decide (recordedName ∈ next.succeeded) && (next.spool.lookup recordedName).isNone)) =
      some (some (recordedName, recordedContent, recordedContent), some true) := by
    decide +kernel
  obtain ⟨before, hrun, hfields⟩ := Option.map_eq_some_iff.mp hbefore
  obtain ⟨hreads, hdelete⟩ := Prod.mk.inj hfields
  obtain ⟨after, hstep, hend⟩ := Option.map_eq_some_iff.mp hdelete
  simp only [Bool.and_eq_true, decide_eq_true_eq, Option.isNone_iff_eq_none] at hend
  have hcomplete : ReadsComplete (sampleHandover true) before := by
    refine readsComplete_of_readsOf recordedName ?_
    simp only [sampleHandover, if_true]
    exact hreads
  have hstep' : before.step (sampleHandover true) .delete = some after := hstep
  have hafter := (SpoolRun.fresh.steps hrun (by decide)).step (fun _ _ => hcomplete) hstep'
  exact ⟨after, hend.1, hend.2, no_segment_lost (recordedCrypto_correct _) hafter recordedName
    hend.1 hend.2⟩

/-- A reader of fresh copies ships the empty file, and the segment is gone. -/
theorem hasty_shipper_loses_segment : ∃ system,
    (SpoolSystem.fresh noObjects).run (sampleHandover true) hastySteps = some system ∧
      ¬NoSegmentLost (sampleHandover true) system := by
  have hend : ((SpoolSystem.fresh noObjects).run (sampleHandover true) hastySteps).map
      (fun system => (decide (recordedName ∈ system.succeeded),
        system.spool.lookup recordedName, system.stored (walObjectKey recordedName))) =
      some (true, none, encryptFile recordedCrypto emptyCall) := by
    decide +kernel
  obtain ⟨system, hrun, hfields⟩ := Option.map_eq_some_iff.mp hend
  simp only [Prod.mk.injEq, decide_eq_true_eq] at hfields
  obtain ⟨hsucceeded, hgone, hstored⟩ := hfields
  refine ⟨system, hrun, fun hkept => ?_⟩
  obtain ⟨artifact, hartifact, hwhole⟩ := hkept recordedName hsucceeded hgone
  obtain ⟨header, digest, hwhole⟩ := hwhole 0
  have hfits : (emptyCall.aad recordedCrypto).length ≤ maxHeaderBytes := by
    rw [emptyCall, callOf_aad]
    decide +kernel
  obtain ⟨made, header', hmade, hempty⟩ := decryptFile_encryptFile
    (recordedCrypto_correct {sealing recordedCrypto emptyCall}) rfl hfits (by decide +kernel)
  obtain rfl : artifact = made := Option.some.inj (hartifact.symm.trans (hstored.trans hmade))
  have hboth := hwhole.symm.trans (hempty 0)
  injection hboth with _ hcontent
  revert hcontent
  decide +kernel

end Orgistry.Backups
