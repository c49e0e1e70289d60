import Orgistry.Model.DeployEvidence
import Orgistry.Sorting.Stable

/-!
# The release that a rollback restores

A rollback should restore the latest release that passed smoke, is not the
current one, and was not running when a later rollback was performed.  The
ledger tells what was running: a record whose attempt started no container
changes nothing.  The selection goes by the API image and by the record before
any rollback instead, and this file says which ledgers mislead it.
-/

namespace Orgistry.Model

open DeploymentRecord

/-- The references that the two services run. -/
structure Running where
  api : Option String
  web : Option String
  deriving DecidableEq

/-- Nothing has been started yet. -/
def Running.nothing : Running := ⟨none, none⟩

/-- A service runs what the last attempt that started it brought. -/
def Running.observe (running : Running) (record : DeploymentRecord) : Running :=
  { api := if record.runtimeDigests.api.isSome then some record.release.apiReference
      else running.api
    web := if record.runtimeDigests.web.isSome then some record.release.webReference
      else running.web }

/-- A release is its API and web references together. -/
def Release.running (release : Release) : Running :=
  ⟨some release.apiReference, some release.webReference⟩

/-- What was running at each rollback of a ledger in the order of its
timestamps. -/
def runningAtRollbacks (running : Running) : List DeploymentRecord → List Running
  | [] => []
  | record :: later =>
      let rest := runningAtRollbacks (running.observe record) later
      if record.mode = .rollback then running :: rest else rest

/-- The records of a ledger whose release was not running at any rollback behind
them. -/
def neverLeft (running : Running) : List DeploymentRecord → List DeploymentRecord
  | [] => []
  | record :: later =>
      let rest := neverLeft (running.observe record) later
      if record.release.running ∈ runningAtRollbacks (running.observe record) later then rest
      else record :: rest

/-- The record is one of the current release. -/
def IsCurrent (current : Option DeploymentRecord) (record : DeploymentRecord) : Prop :=
  current.map (fun now => now.release.running) = some record.release.running

/-- The release of the record may be restored. -/
def MayBeRestored (records : List DeploymentRecord) (current : Option DeploymentRecord)
    (record : DeploymentRecord) : Prop :=
  record.smoke = .passed ∧ ¬IsCurrent current record ∧
    record ∈ neverLeft .nothing (orderedRecords records)

instance (records : List DeploymentRecord) (current : Option DeploymentRecord)
    (record : DeploymentRecord) : Decidable (MayBeRestored records current record) :=
  inferInstanceAs (Decidable (_ ∧ ¬(_ = _) ∧ _))

/-- The result is the latest record that may be restored, if there is one. -/
structure SelectsTarget (records : List DeploymentRecord) (current : Option DeploymentRecord)
    (result : Option DeploymentRecord) : Prop where
  latest : ∀ record, result = some record → record ∈ records ∧
    MayBeRestored records current record ∧
    ∀ other ∈ records, MayBeRestored records current other →
      other.deployedAt ≤ record.deployedAt
  none_iff : result = none ↔ ∀ record ∈ records, ¬MayBeRestored records current record

/-- The API image of the record is the current one. -/
def SharesCurrent (current : Option DeploymentRecord) (record : DeploymentRecord) : Prop :=
  current.map (fun now => now.release.apiReference) = some record.release.apiReference

/-- A record with the API image of this one stands directly before a rollback. -/
def SharesSuperseded (records : List DeploymentRecord) (record : DeploymentRecord) : Prop :=
  ∃ front previous rollback back,
    orderedRecords records = front ++ previous :: rollback :: back ∧
      rollback.mode = .rollback ∧ previous.release.apiReference = record.release.apiReference

/-- The release may be restored, but it shares its API image with the current one or
with the record before some rollback: a release with another web image, one that was
left before it was deployed again, or one of which a failed attempt stands there. -/
def Hidden (records : List DeploymentRecord) (current : Option DeploymentRecord)
    (record : DeploymentRecord) : Prop :=
  MayBeRestored records current record ∧
    (SharesCurrent current record ∨ SharesSuperseded records record)

/-- The release was running at a later rollback, but the records before rollbacks are of
other API images, and so is the current one: an attempt that never started stands
there. -/
def Escapes (records : List DeploymentRecord) (current : Option DeploymentRecord)
    (record : DeploymentRecord) : Prop :=
  record.smoke = .passed ∧ record ∉ neverLeft .nothing (orderedRecords records) ∧
    ¬SharesCurrent current record ∧ ¬SharesSuperseded records record

/-- No hidden release is later than all that may be restored and are not hidden, and no
escaping one stands in front of them. -/
structure MisleadsNowhere (records : List DeploymentRecord)
    (current : Option DeploymentRecord) : Prop where
  hidden : ∀ record ∈ records, Hidden records current record →
    ∃ other ∈ records, MayBeRestored records current other ∧ ¬Hidden records current other ∧
      record.deployedAt ≤ other.deployedAt
  escaping : ∀ front record back,
    records.insertionSort NotEarlier = front ++ record :: back →
      Escapes records current record →
        ∃ other ∈ front, MayBeRestored records current other ∧ ¬Hidden records current other

section Selection

variable {records : List DeploymentRecord} {current : Option DeploymentRecord}
  {record : DeploymentRecord}

/-- The code's list of superseded images. -/
theorem mem_releasesRolledAwayFrom_iff :
    record.release.apiReference ∈ releasesRolledAwayFrom records ↔
      SharesSuperseded records record := by
  unfold releasesRolledAwayFrom SharesSuperseded
  simp only [List.mem_filterMap, Prod.exists]
  constructor
  · rintro ⟨previous, rollback, hpair, hmode⟩
    obtain ⟨i, hi, hpair⟩ := List.mem_iff_getElem.mp hpair
    rw [List.getElem_zip, List.getElem_tail, Prod.mk.injEq] at hpair
    obtain ⟨hprevious, hrollback⟩ := hpair
    have hlength : i + 1 < (orderedRecords records).length := by
      rw [List.length_zip, List.length_tail] at hi
      omega
    split at hmode
    · next hmode' =>
        refine ⟨(orderedRecords records).take i, previous, rollback,
          (orderedRecords records).drop (i + 2), ?_, hmode', Option.some.inj hmode⟩
        rw [← hprevious, ← hrollback, List.getElem_cons_drop, List.getElem_cons_drop,
          List.take_append_drop]
    · cases hmode
  · rintro ⟨front, previous, rollback, back, hsplit, hmode, himage⟩
    refine ⟨previous, rollback, ?_, by rw [if_pos hmode, himage]⟩
    rw [hsplit]
    refine List.mem_iff_getElem.mpr ⟨front.length, by simp, ?_⟩
    simp

theorem isRollbackCandidate_iff : isRollbackCandidate records current record ↔
    record.smoke = .passed ∧ ¬SharesCurrent current record ∧
      ¬SharesSuperseded records record := by
  rw [← mem_releasesRolledAwayFrom_iff]
  unfold isRollbackCandidate SharesCurrent
  rw [Bool.and_eq_true, Bool.and_eq_true, decide_eq_true_eq, decide_eq_true_eq,
    Bool.not_eq_true', ← Bool.not_eq_true, List.contains_iff_mem, and_assoc, ne_comm]

/-- A candidate may rightly be restored or escapes the rule. -/
theorem candidate_iff : isRollbackCandidate records current record ↔
    (MayBeRestored records current record ∧ ¬Hidden records current record) ∨
      Escapes records current record := by
  rw [isRollbackCandidate_iff]
  constructor
  · rintro ⟨hsmoke, hcurrent, hsuperseded⟩
    by_cases hleft : record ∈ neverLeft .nothing (orderedRecords records)
    · refine Or.inl ⟨⟨hsmoke, fun hsame => hcurrent ?_, hleft⟩, fun h => ?_⟩
      · obtain ⟨now, hnow, hrunning⟩ := Option.map_eq_some_iff.mp hsame
        have himage := congrArg Running.api hrunning
        exact Option.map_eq_some_iff.mpr ⟨now, hnow, Option.some.inj himage⟩
      · exact h.2.elim hcurrent hsuperseded
    · exact Or.inr ⟨hsmoke, hleft, hcurrent, hsuperseded⟩
  · rintro (⟨hmay, hhidden⟩ | ⟨hsmoke, -, hcurrent, hsuperseded⟩)
    · exact ⟨hmay.1, fun h => hhidden ⟨hmay, Or.inl h⟩, fun h => hhidden ⟨hmay, Or.inr h⟩⟩
    · exact ⟨hsmoke, hcurrent, hsuperseded⟩

theorem Escapes.not_mayBeRestored (h : Escapes records current record) :
    ¬MayBeRestored records current record := fun hmay => h.2.1 hmay.2.2

/-- The selection is the first candidate of the ledger, latest records first. -/
theorem selectRollbackTarget_eq_find (records : List DeploymentRecord)
    (current : Option DeploymentRecord) : selectRollbackTarget records current =
      (records.insertionSort NotEarlier).find? (isRollbackCandidate records current) := by
  rw [selectRollbackTarget, ← Sorting.filter_insertionSort, List.head?_filter]

/-- The selected record is a latest candidate. -/
theorem selectRollbackTarget_latest
    (h : selectRollbackTarget records current = some record) :
    record ∈ records ∧ isRollbackCandidate records current record ∧
      ∀ other ∈ records, isRollbackCandidate records current other →
        other.deployedAt ≤ record.deployedAt := by
  have hmem : record ∈ (records.filter (isRollbackCandidate records current)).insertionSort
      NotEarlier := List.mem_of_mem_head? h
  rw [List.mem_insertionSort, List.mem_filter] at hmem
  refine ⟨hmem.1, hmem.2, fun other hother hcandidate => ?_⟩
  refine Sorting.head_le (r := NotEarlier) (List.pairwise_insertionSort _ _) h ?_
  rw [List.mem_insertionSort, List.mem_filter]
  exact ⟨hother, hcandidate⟩

theorem selectRollbackTarget_eq_none : selectRollbackTarget records current = none ↔
    ∀ record ∈ records, ¬isRollbackCandidate records current record := by
  rw [selectRollbackTarget_eq_find, List.find?_eq_none]
  simp only [List.mem_insertionSort]

/-- Whatever the ledger, the selection follows the rule exactly when the ledger
misleads it nowhere. -/
theorem selects_target_iff (records : List DeploymentRecord)
    (current : Option DeploymentRecord) :
    SelectsTarget records current (selectRollbackTarget records current) ↔
      MisleadsNowhere records current := by
  constructor
  · intro h
    -- a selected record may be restored, and as a candidate it is not hidden
    have hselects : ∀ selected, selectRollbackTarget records current = some selected →
        MayBeRestored records current selected ∧ ¬Hidden records current selected := by
      intro selected hselected
      have hmay := (h.latest selected hselected).2.1
      rcases candidate_iff.mp (selectRollbackTarget_latest hselected).2.1 with hright | hescapes
      · exact hright
      · exact absurd hmay hescapes.not_mayBeRestored
    constructor
    · intro record hrecord hhidden
      cases hselected : selectRollbackTarget records current with
      | none => exact absurd hhidden.1 (h.none_iff.mp hselected record hrecord)
      | some selected =>
          obtain ⟨hmay, hnot⟩ := hselects selected hselected
          obtain ⟨hmem, -, hlatest⟩ := h.latest selected hselected
          exact ⟨selected, hmem, hmay, hnot, hlatest record hrecord hhidden.1⟩
    · intro front record back hsplit hescapes
      -- the first candidate is at or before this record, and it is not this one
      have hcandidate := candidate_iff.mpr (Or.inr hescapes)
      have hfound := selectRollbackTarget_eq_find records current
      rw [hsplit, List.find?_append, List.find?_cons_of_pos hcandidate] at hfound
      cases hfront : front.find? (isRollbackCandidate records current) with
      | none =>
          rw [hfront, Option.none_or] at hfound
          exact absurd (hselects record hfound).1 hescapes.not_mayBeRestored
      | some other =>
          rw [hfront, Option.some_or] at hfound
          exact ⟨other, List.mem_of_find?_eq_some hfront, hselects other hfound⟩
  · intro h
    cases hselected : selectRollbackTarget records current with
    | none =>
        have hnone := selectRollbackTarget_eq_none.mp hselected
        refine ⟨by simp, iff_of_true rfl fun record hrecord hmay => ?_⟩
        by_cases hhidden : Hidden records current record
        · obtain ⟨other, hother, hright, hnot, -⟩ := h.hidden record hrecord hhidden
          exact hnone other hother (candidate_iff.mpr (Or.inl ⟨hright, hnot⟩))
        · exact hnone record hrecord (candidate_iff.mpr (Or.inl ⟨hmay, hhidden⟩))
    | some selected =>
        obtain ⟨hmem, hcandidate, hlatest⟩ := selectRollbackTarget_latest hselected
        have hmay : MayBeRestored records current selected := by
          rcases candidate_iff.mp hcandidate with hright | hescapes
          · exact hright.1
          · rw [selectRollbackTarget_eq_find, List.find?_eq_some_iff_append] at hselected
            obtain ⟨-, front, back, hsplit, hfront⟩ := hselected
            obtain ⟨other, hother, hright⟩ := h.escaping front selected back hsplit hescapes
            have hdropped := hfront other hother
            rw [candidate_iff.mpr (Or.inl hright)] at hdropped
            cases hdropped
        refine ⟨?_, iff_of_false (by simp) fun hall => hall selected hmem hmay⟩
        rintro _ ⟨⟩
        refine ⟨hmem, hmay, fun other hother hmayOther => ?_⟩
        by_cases hhidden : Hidden records current other
        · obtain ⟨later, hlater, hright, hnot, hle⟩ := h.hidden other hother hhidden
          exact Nat.le_trans hle
            (hlatest later hlater (candidate_iff.mpr (Or.inl ⟨hright, hnot⟩)))
        · exact hlatest other hother (candidate_iff.mpr (Or.inl ⟨hmayOther, hhidden⟩))

end Selection

def sampleRelease (name : String) : Release :=
  { commit := name, apiReference := "api@" ++ name, webReference := "web@" ++ name,
    manifestFile := "releases/" ++ name }

/-- A record whose smoke passed, with both services running. -/
def passedRecord (mode : DeploymentMode) (deployedAt : ℕ) (name : String) : DeploymentRecord :=
  { mode, deployedAt, release := sampleRelease name, publicConfigFingerprint := "public",
    migration := .applied, smoke := .passed, runtimeDigests := ⟨some name, some name⟩,
    rollbackTarget := none }

/-- `a` and `b` ran, the migration of `c` failed, and a rollback left `b` for
`a`. -/
def failedBeforeRollback : List DeploymentRecord :=
  [passedRecord .deploy 1 "a", passedRecord .deploy 2 "b",
    { passedRecord .deploy 3 "c" with
      migration := .failed, smoke := .notRun, runtimeDigests := ⟨none, none⟩ },
    passedRecord .rollback 4 "a"]

/-- The next rollback goes back to the release that the last one left. -/
theorem rollback_returns_to_bad_release :
    ¬SelectsTarget failedBeforeRollback (some (passedRecord .rollback 4 "a"))
      (selectRollbackTarget failedBeforeRollback (some (passedRecord .rollback 4 "a"))) := by
  intro h
  have hselected : selectRollbackTarget failedBeforeRollback
      (some (passedRecord .rollback 4 "a")) = some (passedRecord .deploy 2 "b") := by decide
  exact absurd (h.latest _ hselected).2.1 (by decide)

end Orgistry.Model
