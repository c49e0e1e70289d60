import Orgistry.Backups.RecoveryWindow
import Orgistry.Model.BackupHealth
import Orgistry.Model.BackupOps
import Mathlib.Tactic.Linarith
import Mathlib.Tactic.NormNum

/-!
# What a healthy WAL archive says

The spool check sees every file that has been archived and not been shipped, by
the time since it was archived.  What has not been archived at all is only seen
through the age of the last success, and that is not looked at while the current
segment is empty.
-/

namespace Orgistry.Backups

open Model

variable {layout : WalLayout}

def IsStored (storePrefix : String) (system : WalSystem layout) (file : WalFile layout) : Prop :=
  ∃ object ∈ system.stored, object.key = storePrefix ++ walObjectKey file.name

/-- Every file for which `archive_command` has succeeded is in the spool since
then at the latest, or stored. -/
def Accounted (storePrefix : String) (system : WalSystem layout) : Prop :=
  ∀ entry ∈ system.completed, ∀ time, entry.archivedAt = some time →
    (∃ spooled ∈ system.spool, spooled.file = entry.file ∧ spooled.mtime ≤ time) ∨
      IsStored storePrefix system entry.file

theorem IsStored.ship {storePrefix : String} {system : WalSystem layout} {file : WalFile layout}
    {object : StoredObject} (h : IsStored storePrefix system file) :
    ∃ other ∈ (system.stored.filter fun other => other.key ≠ object.key) ++ [object],
      other.key = storePrefix ++ walObjectKey file.name := by
  obtain ⟨other, hother, hkey⟩ := h
  by_cases hsame : other.key = object.key
  · exact ⟨object, by simp, hsame.symm.trans hkey⟩
  · exact ⟨other, by simp [hother, hsame], hkey⟩

/-- One step keeps track of every archived file. -/
theorem Accounted.step {storePrefix : String} {system next : WalSystem layout}
    {step : WalStep layout} (h : Accounted storePrefix system)
    (hstep : system.step storePrefix step = some next) : Accounted storePrefix next := by
  cases step with
  | tick elapsed =>
      cases hstep
      exact h
  | write bytes =>
      cases hstep
      exact h
  | archiveFails =>
      cases hstep
      exact h
  | resetStatistics =>
      cases hstep
      exact h
  | complete file offset =>
      rw [WalSystem.step] at hstep
      split at hstep
      · cases hstep
      cases hstep
      intro entry hentry time htime
      rcases List.mem_append.mp hentry with hold | hnew
      · exact h entry hold time htime
      · rw [List.mem_singleton.mp hnew] at htime
        cases htime
  | archive file mtime =>
      rw [WalSystem.step] at hstep
      split at hstep
      next hmay =>
        cases hstep
        intro entry hentry time htime
        obtain ⟨old, hold, rfl⟩ := List.mem_map.mp hentry
        unfold CompletedFile.archived at htime ⊢
        split at htime
        next hfile =>
          cases htime
          rw [if_pos hfile]
          exact .inl ⟨⟨file, mtime⟩, by simp, hfile.symm, hmay.2.2⟩
        next hfile =>
          rw [if_neg hfile]
          refine (h old hold time htime).imp_left ?_
          rintro ⟨spooled, hspooled, hsame⟩
          exact ⟨spooled, List.mem_append_left _ hspooled, hsame⟩
      · cases hstep
  | ship file object =>
      rw [WalSystem.step] at hstep
      split at hstep
      next hmay =>
        cases hstep
        intro entry hentry time htime
        rcases h entry hentry time htime with ⟨spooled, hspooled, hsame, hmtime⟩ | hstored
        · by_cases hfile : entry.file = file
          · refine .inr ⟨object, by simp, ?_⟩
            rw [hfile]
            exact hmay.2
          · exact .inl ⟨spooled, by simp [hspooled, hsame, hfile], hsame, hmtime⟩
        · exact .inr hstored.ship
      · cases hstep

theorem Accounted.run {storePrefix : String} {system next : WalSystem layout}
    {steps : List (WalStep layout)} (h : Accounted storePrefix system)
    (hrun : system.run storePrefix steps = some next) : Accounted storePrefix next := by
  induction steps generalizing system with
  | nil =>
      cases hrun
      exact h
  | cons step steps ih =>
      obtain ⟨between, hstep, hrest⟩ := Option.bind_eq_some_iff.mp hrun
      exact ih (h.step hstep) hrest

theorem check_passes {name : String} {passes : Bool} :
    (check name passes).status ≠ .fail ↔ passes = true := by
  cases passes <;> simp [check]

section Health

variable {dateParse : String → Option ℤ} {archiver : ArchiverState} {spool : SpoolState}
  {walWindow : WalWindow} {now : ℤ} {walMaxAgeMinutes : ℚ}

/-- The check fails on a failure that no success has followed. -/
theorem archiveCommandCheck_passes : (archiveCommandCheck archiver).status ≠ .fail ↔
    ∀ failed, 0 < archiver.failedCount → archiver.lastFailedTime = some failed →
      ∃ archived, archiver.lastArchivedTime = some archived ∧ failed < archived := by
  unfold archiveCommandCheck
  split
  next count lastFailed hcount hfailed =>
    have hiff : recovered archiver lastFailed = true ↔
        ∃ archived, archiver.lastArchivedTime = some archived ∧ lastFailed < archived := by
      simp [recovered, Option.any_eq_true]
    simp only [hcount, hfailed, Option.some.injEq, Nat.zero_lt_succ, forall_true_left,
      forall_eq', ← hiff]
    cases recovered archiver lastFailed <;> simp
  next hnone =>
    refine iff_of_true (check_passes.mpr rfl) fun failed hcount hfailed => ?_
    obtain ⟨count, hcount⟩ := Nat.exists_eq_add_of_lt hcount
    exact absurd hfailed (hnone count failed (by omega))

theorem recentArchiveCheck_passes :
    (∀ entry ∈ recentArchiveCheck archiver now walMaxAgeMinutes, entry.status ≠ .fail) ↔
      (archiver.walPending = true → ∀ archived, archiver.lastArchivedTime = some archived →
        minutesBetween now archived ≤ walMaxAgeMinutes) := by
  unfold recentArchiveCheck
  cases archiver.lastArchivedTime with
  | none => simp
  | some archived =>
      simp only [List.mem_singleton, forall_eq, check_passes, withinLimit, Option.some.injEq,
        forall_eq']
      cases archiver.walPending <;> simp

theorem offHostCheck_passes :
    (∀ entry ∈ offHostCheck dateParse archiver walWindow now walMaxAgeMinutes,
      entry.status ≠ .fail) ↔
      (archiver.walPending = true → walWindow.latestArchivedAt ≠ "" →
        ∃ stored, dateParse walWindow.latestArchivedAt = some stored ∧
          minutesBetween now stored ≤ walMaxAgeMinutes * 2) := by
  unfold offHostCheck
  split
  next hempty => simp [hempty]
  next hstored =>
    simp only [List.mem_singleton, forall_eq, check_passes, hstored, ne_eq, not_false_eq_true,
      forall_true_left]
    cases archiver.walPending <;> simp [Option.any_eq_true]

/-- Healthy is what no check fails. -/
theorem healthy_iff :
    (evaluateWalArchiveHealth dateParse archiver spool walWindow now
      walMaxAgeMinutes).healthy = true ↔
      (archiver.archiveMode = "on" ∧ 0 < archiver.archivedCount ∧
        (∀ failed, 0 < archiver.failedCount → archiver.lastFailedTime = some failed →
          ∃ archived, archiver.lastArchivedTime = some archived ∧ failed < archived)) ∧
        (archiver.walPending = true → ∀ archived, archiver.lastArchivedTime = some archived →
          minutesBetween now archived ≤ walMaxAgeMinutes) ∧
        ((spool.pendingSegments = 0 ∨ spool.oldestPendingAgeMinutes ≤ walMaxAgeMinutes) ∧
          0 < walWindow.segments) ∧
        (archiver.walPending = true → walWindow.latestArchivedAt ≠ "" →
          ∃ stored, dateParse walWindow.latestArchivedAt = some stored ∧
            minutesBetween now stored ≤ walMaxAgeMinutes * 2) := by
  rw [← archiveCommandCheck_passes, ← recentArchiveCheck_passes, ← offHostCheck_passes]
  simp only [evaluateWalArchiveHealth, summarise, List.length_eq_zero_iff, decide_eq_true_eq,
    List.filter_eq_nil_iff, List.forall_mem_append, List.forall_mem_cons, spoolCheck,
    ← ne_eq, check_passes, Bool.or_eq_true]
  simp [and_assoc]

end Health

theorem minutesBetween_le (now : ℤ) {earlier later : ℤ} (h : earlier ≤ later) :
    minutesBetween now later ≤ minutesBetween now earlier := by
  have hcast : ((now - later : ℤ) : ℚ) ≤ ((now - earlier : ℤ) : ℚ) := by
    exact_mod_cast by omega
  exact div_le_div_of_nonneg_right hcast (by norm_num [millisecondsPerMinute])

theorem foldl_min_le (entries : List (SpoolFile layout)) (time : ℤ) :
    entries.foldl (fun oldest entry => min oldest entry.mtime) time ≤ time ∧
      ∀ entry ∈ entries,
        entries.foldl (fun oldest entry => min oldest entry.mtime) time ≤ entry.mtime := by
  induction entries generalizing time with
  | nil => simp
  | cons first entries ih =>
      obtain ⟨htime, hentries⟩ := ih (min time first.mtime)
      simp only [List.foldl_cons, List.mem_cons, forall_eq_or_imp]
      exact ⟨htime.trans (min_le_left _ _), htime.trans (min_le_right _ _), hentries⟩

section Health

variable (dateParse : String → Option ℤ) (walMaxAgeMinutes : ℚ)

/-- A healthy spool holds nothing older than the limit. -/
theorem spool_young {system : WalSystem layout}
    (h : (walHealth dateParse true true walMaxAgeMinutes system).healthy)
    {spooled : SpoolFile layout} (hspooled : spooled ∈ system.spool) :
    minutesBetween system.now spooled.mtime ≤ walMaxAgeMinutes := by
  have hyoung := (healthy_iff.mp h).2.2.1.1
  have hne : system.spool.length ≠ 0 := by
    intro hzero
    rw [List.length_eq_zero_iff.mp hzero] at hspooled
    cases hspooled
  simp only [readSpoolState, Bool.not_true, Bool.false_eq_true, if_false, if_true, hne,
    false_or] at hyoung
  have holdest := (foldl_min_le system.spool system.now).2 spooled hspooled
  refine le_trans ?_ hyoung
  exact minutesBetween_le system.now holdest

/-- The checks of the archiver that fail when something is behind. -/
def ArchiverSeenBehind (system : WalSystem layout) : Prop :=
  system.archivedCount = 0 ∨
    (0 < system.failedCount ∧ ∃ failed, system.lastFailedTime = some failed ∧
      ∀ archived, system.lastArchivedTime = some archived → toIso archived ≤ toIso failed) ∨
    (emptyWalSegmentAllowanceBytes < system.currentOffset ∧
      ∃ archived, system.lastArchivedTime = some archived ∧
        walMaxAgeMinutes < minutesBetween (toIso system.now) (toIso archived))

theorem not_seenBehind {configured readable : Bool} {system : WalSystem layout}
    (h : (walHealth dateParse configured readable walMaxAgeMinutes system).healthy) :
    ¬ArchiverSeenBehind walMaxAgeMinutes system := by
  obtain ⟨⟨-, hcount, hfailed⟩, hrecent, -, -⟩ := healthy_iff.mp h
  simp only [readArchiverState] at hcount hfailed hrecent
  rintro (hzero | ⟨hfailures, failed, hlast, hbefore⟩ | ⟨hpending, archived, hlast, hold⟩)
  · omega
  · rw [hlast] at hfailed
    obtain ⟨_, harchived, hlt⟩ := hfailed (toIso failed) hfailures rfl
    obtain ⟨archived, htime, rfl⟩ := Option.map_eq_some_iff.mp harchived
    exact absurd (hbefore archived htime) (not_le.mpr hlt)
  · rw [hlast] at hrecent
    exact absurd (hrecent (by simpa using hpending) _ rfl) (not_le.mpr hold)

/-! ## Soundness -/

/-- Completed longer than twice the limit ago, and not archived one limit ago. -/
def LateForArchiver (system : WalSystem layout) (entry : CompletedFile layout) : Prop :=
  walMaxAgeMinutes * 2 < minutesBetween system.now entry.completedAt ∧
    ∀ time, entry.archivedAt = some time → minutesBetween system.now time ≤ walMaxAgeMinutes

/-- What was completed longer than twice the limit ago is stored. -/
def StoredInTime (storePrefix : String) (system : WalSystem layout) : Prop :=
  ∀ entry ∈ system.completed,
    walMaxAgeMinutes * 2 < minutesBetween system.now entry.completedAt →
      IsStored storePrefix system entry.file

/-- After every history, what is reported healthy is stored in time, if the spool
is read and the archiver is not late without being seen. -/
theorem wal_health_sound {storePrefix : String} {start system : WalSystem layout}
    {steps : List (WalStep layout)} (hstart : start.completed = [])
    (hrun : start.run storePrefix steps = some system)
    (hseen : ∀ entry ∈ system.completed, LateForArchiver walMaxAgeMinutes system entry →
      ArchiverSeenBehind walMaxAgeMinutes system)
    (hhealthy : (walHealth dateParse true true walMaxAgeMinutes system).healthy) :
    StoredInTime walMaxAgeMinutes storePrefix system := by
  have haccounted : Accounted storePrefix system := by
    refine Accounted.run ?_ hrun
    intro entry hentry
    rw [hstart] at hentry
    cases hentry
  intro entry hentry hold
  by_contra hnot
  refine not_seenBehind dateParse walMaxAgeMinutes hhealthy (hseen entry hentry ⟨hold, ?_⟩)
  intro time htime
  rcases haccounted entry hentry time htime with ⟨spooled, hspooled, -, hmtime⟩ | hstored
  · exact (minutesBetween_le system.now hmtime).trans
      (spool_young dateParse walMaxAgeMinutes hhealthy hspooled)
  · exact absurd hstored hnot

end Health

/-- A segment of the first log, on the first timeline. -/
def sampleFile (number : ℕ) : WalFile defaultLayout :=
  .segment
    { timeline := ⟨1, by decide⟩, number := number % 256
      named := by
        have hzero : number % 256 / defaultLayout.segmentsPerLog = 0 :=
          Nat.div_eq_of_lt (Nat.mod_lt _ (by decide))
        rw [hzero]
        decide }

def sampleObject (number : ℕ) (lastModified : String) : StoredObject :=
  { key := walObjectKey (sampleFile number).name, size := 16777800, lastModified }

/-- A new server at the start of 2026. -/
def sampleStart : WalSystem defaultLayout :=
  { now := 1767225600000, archiveMode := "on", completed := [], currentOffset := 4096,
    archivedCount := 0, lastArchivedTime := none, failedCount := 0, lastFailedTime := none,
    spool := [], stored := [] }

/-- The first segment is archived and shipped within a minute. -/
def firstShipped : List (WalStep defaultLayout) :=
  [.complete (sampleFile 0) 96, .tick 1000, .archive (sampleFile 0) 1767225601000, .tick 29000,
    .ship (sampleFile 0) (sampleObject 0 "2026-01-01T00:00:30.000Z"), .tick 30000]

/-- The system an hour later. -/
def firstStored : WalSystem defaultLayout :=
  { sampleStart with
    now := 1767229260000
    completed := [⟨sampleFile 0, 1767225600000, some 1767225601000⟩]
    currentOffset := 96
    archivedCount := 1
    lastArchivedTime := some 1767225601000
    stored := [sampleObject 0 "2026-01-01T00:00:30.000Z"] }

theorem firstStored_run :
    sampleStart.run "" (firstShipped ++ [.tick 3600000]) = some firstStored := rfl

theorem wal_health_sound_first : StoredInTime 15 "" firstStored := by
  refine wal_health_sound parseUtc 15 (show sampleStart.completed = [] from rfl) firstStored_run ?_
    (by decide +kernel)
  intro entry hentry hlate
  obtain rfl := List.mem_singleton.mp hentry
  have hlong : ¬minutesBetween firstStored.now 1767225601000 ≤ 15 := by decide +kernel
  exact absurd (hlate.2 1767225601000 rfl) hlong

/-- The archiver hangs on the second segment for an hour, in which the server fills
it and switches to a third one. -/
def archiverHangs : List (WalStep defaultLayout) :=
  firstShipped ++ [.write 8192, .complete (sampleFile 1) 96, .tick 3600000, .write 8192,
    .complete (sampleFile 2) 96, .tick 1000]

def secondMissing : WalSystem defaultLayout :=
  { firstStored with
    now := 1767229261000
    completed := [⟨sampleFile 0, 1767225600000, some 1767225601000⟩,
      ⟨sampleFile 1, 1767225660000, none⟩, ⟨sampleFile 2, 1767229260000, none⟩] }

/-- Just after the switch nothing looks pending, and the second segment is nowhere
but on the server. -/
theorem hung_archiver_reported_healthy :
    sampleStart.run "" archiverHangs = some secondMissing ∧
      (walHealth parseUtc true true 15 secondMissing).healthy = true ∧
      ¬StoredInTime 15 "" secondMissing := by
  refine ⟨rfl, by decide +kernel, fun hstored => ?_⟩
  obtain ⟨object, hobject, hkey⟩ := hstored ⟨sampleFile 1, 1767225660000, none⟩ (by decide +kernel)
    (by decide +kernel)
  obtain rfl := List.mem_singleton.mp hobject
  revert hkey
  decide +kernel

end Orgistry.Backups
