import Orgistry.Deployments.RollbackSelection
import Orgistry.Model.Deploy
import Mathlib.Data.List.Induction

/-!
# What the ledger says is deployed

A rollback takes the newest record for the running release and the ledger for the
history of the target.  This file says in which runs that is right: an observer of the
runs keeps what really happened beside the ledger, which it does not read.
-/

namespace Orgistry.Model

namespace Attempt

/-- The attempt gets as far as starting the API. -/
def ReachesApi (attempt : Attempt) : Prop :=
  attempt.stopsAt .validation = false ∧ attempt.stopsAt .backup = false ∧
    (attempt.runMigrations && attempt.stopsAt .migration) = false ∧
    attempt.stopsAt .head = false

/-- A container is replaced by one of another image. -/
def Changes (attempt : Attempt) (env : Environment) : Prop :=
  attempt.ReachesApi ∧
    ((env.api ≠ some attempt.release.apiReference ∧
        (attempt.stopsAt .api = true → attempt.replaced = true)) ∨
      (env.web ≠ some attempt.release.webReference ∧ attempt.stopsAt .api = false ∧
        (attempt.stopsAt .web = true → attempt.replaced = true)))

/-- The attempt comes to one of the three `record` commands. -/
def ReachesRecord (attempt : Attempt) : Prop :=
  (attempt.stopsAt .validation = false ∧ attempt.stopsAt .backup = false ∧
      (attempt.runMigrations && attempt.stopsAt .migration) = true) ∨
    (attempt.ReachesApi ∧ attempt.stopsAt .api = false ∧ attempt.stopsAt .web = false ∧
      attempt.stopsAt .readiness = false ∧ attempt.stopsAt .digests = false)

/-- The attempt passes its smoke. -/
def Passes (attempt : Attempt) : Prop :=
  attempt.ReachesApi ∧ attempt.stopsAt .api = false ∧ attempt.stopsAt .web = false ∧
    attempt.stopsAt .readiness = false ∧ attempt.stopsAt .digests = false ∧
      attempt.stopsAt .smoke = false

/-- The attempt leaves a record. -/
def Recorded (attempt : Attempt) : Prop :=
  attempt.ReachesRecord ∧ (attempt.evidence = .recordOnly ∨ attempt.evidence = .complete)

/-- The attempt leaves all of its evidence if it changes the target.  If it does not, it
leaves no record unless it deploys the release that the target has, and one if it passes
its smoke.  Its record is the newest by its time as well. -/
structure Accounted (attempt : Attempt) (env : Environment) : Prop where
  changed : attempt.Changes env → attempt.ReachesRecord ∧ attempt.evidence = .complete
  unchanged : attempt.Recorded → attempt.Changes env ∨ attempt.mode = .deploy ∧
    env.lastChanged.map Release.running = some attempt.release.running
  passed : attempt.Passes → attempt.Recorded
  later : attempt.Recorded → ∀ record ∈ env.records, record.deployedAt < attempt.deployedAt

instance (attempt : Attempt) : Decidable attempt.ReachesApi :=
  inferInstanceAs (Decidable (_ ∧ _))

instance (attempt : Attempt) (env : Environment) : Decidable (attempt.Changes env) :=
  inferInstanceAs (Decidable (_ ∧ _))

instance (attempt : Attempt) : Decidable attempt.ReachesRecord :=
  inferInstanceAs (Decidable (_ ∨ _))

instance (attempt : Attempt) : Decidable attempt.Passes := inferInstanceAs (Decidable (_ ∧ _))

instance (attempt : Attempt) : Decidable attempt.Recorded := inferInstanceAs (Decidable (_ ∧ _))

instance (attempt : Attempt) (env : Environment) : Decidable (attempt.Accounted env) :=
  decidable_of_iff
    ((attempt.Changes env → attempt.ReachesRecord ∧ attempt.evidence = .complete) ∧
      (attempt.Recorded → attempt.Changes env ∨ attempt.mode = .deploy ∧
        env.lastChanged.map Release.running = some attempt.release.running) ∧
      (attempt.Passes → attempt.Recorded) ∧
      (attempt.Recorded → ∀ record ∈ env.records, record.deployedAt < attempt.deployedAt))
    ⟨fun h => ⟨h.1, h.2.1, h.2.2.1, h.2.2.2⟩,
      fun h => ⟨h.changed, h.unchanged, h.passed, h.later⟩⟩

end Attempt

namespace Environment

variable {env : Environment} {release : Release}

@[simp]
theorem records_startApi : (env.startApi release).records = env.records := by
  unfold startApi
  split <;> rfl

@[simp]
theorem current_startApi : (env.startApi release).current = env.current := by
  unfold startApi
  split <;> rfl

@[simp]
theorem web_startApi : (env.startApi release).web = env.web := by
  unfold startApi
  split <;> rfl

@[simp]
theorem records_startWeb : (env.startWeb release).records = env.records := by
  unfold startWeb
  split <;> rfl

@[simp]
theorem current_startWeb : (env.startWeb release).current = env.current := by
  unfold startWeb
  split <;> rfl

theorem lastChanged_startApi : (env.startApi release).lastChanged =
    if env.api = some release.apiReference then env.lastChanged else some release := by
  unfold startApi
  split <;> rfl

theorem lastChanged_startWeb : (env.startWeb release).lastChanged =
    if env.web = some release.webReference then env.lastChanged else some release := by
  unfold startWeb
  split <;> rfl

end Environment

namespace Attempt

variable {attempt : Attempt} {env : Environment}

@[simp]
theorem lastChanged_record {migration : MigrationResult} {smoke : SmokeResult}
    {runtimeDigests : RuntimeDigests} :
    (attempt.record migration smoke runtimeDigests env).lastChanged = env.lastChanged := by
  unfold record
  split <;> rfl

/-- The history of the target's containers after an attempt. -/
theorem lastChanged_deploy (attempt : Attempt) (env : Environment) :
    (attempt.Changes env ∧ (attempt.deploy env).lastChanged = some attempt.release) ∨
      (¬attempt.Changes env ∧ (attempt.deploy env).lastChanged = env.lastChanged) := by
  by_cases hreaches : attempt.ReachesApi
  · have hreaches' := hreaches
    obtain ⟨hvalidation, hbackup, hmigration, hhead⟩ := hreaches'
    simp only [Changes, hreaches, true_and]
    unfold deploy
    simp only [hvalidation, hbackup, hmigration, hhead, Bool.false_eq_true, if_false]
    split
    · next hapi =>
        split
        · next hreplaced => grind [Environment.lastChanged_startApi]
        · next hreplaced => grind
    · next hapi =>
        split
        · next hweb =>
            split
            · next hreplaced =>
                grind [Environment.lastChanged_startApi, Environment.lastChanged_startWeb,
                  Environment.web_startApi]
            · next hreplaced => grind [Environment.lastChanged_startApi]
        · next hweb =>
            grind [Environment.lastChanged_startApi, Environment.lastChanged_startWeb,
              Environment.web_startApi, lastChanged_record]
  · refine .inr ⟨fun h => hreaches h.1, ?_⟩
    simp only [ReachesApi, not_and_or, Bool.not_eq_false] at hreaches
    unfold deploy
    grind [lastChanged_record]

/-- The record that an attempt would leave. -/
def RecordOf (attempt : Attempt) (record : DeploymentRecord) : Prop :=
  record.release = attempt.release ∧ record.mode = attempt.mode ∧
    record.deployedAt = attempt.deployedAt ∧ (record.smoke = .passed ↔ attempt.Passes)

theorem ledger_record (attempt : Attempt) (env : Environment) {migration : MigrationResult}
    {smoke : SmokeResult} {runtimeDigests : RuntimeDigests}
    (hsmoke : smoke = .passed ↔ attempt.Passes) :
    ∃ record : DeploymentRecord, attempt.RecordOf record ∧
      (attempt.record migration smoke runtimeDigests env).records = env.records ++
        (if attempt.evidence = .recordOnly ∨ attempt.evidence = .complete then [record] else []) ∧
      (attempt.record migration smoke runtimeDigests env).current =
        if attempt.evidence = .complete then some record else env.current := by
  refine ⟨attempt.buildDeploymentRecord env.records migration smoke runtimeDigests,
    ⟨rfl, rfl, rfl, hsmoke⟩, ?_⟩
  unfold record
  cases hevidence : attempt.evidence <;> simp

/-- What an attempt leaves in the ledger. -/
theorem ledger_deploy (attempt : Attempt) (env : Environment) :
    (attempt.ReachesRecord ∧ ∃ record : DeploymentRecord, attempt.RecordOf record ∧
      (attempt.deploy env).records = env.records ++
        (if attempt.evidence = .recordOnly ∨ attempt.evidence = .complete then [record] else []) ∧
      (attempt.deploy env).current =
        if attempt.evidence = .complete then some record else env.current) ∨
    (¬attempt.ReachesRecord ∧ (attempt.deploy env).records = env.records ∧
      (attempt.deploy env).current = env.current) := by
  by_cases hreaches : attempt.ReachesApi
  · have hreaches' := hreaches
    obtain ⟨hvalidation, hbackup, hmigration, hhead⟩ := hreaches'
    have hiff : attempt.ReachesRecord ↔ attempt.stopsAt .api = false ∧
        attempt.stopsAt .web = false ∧ attempt.stopsAt .readiness = false ∧
          attempt.stopsAt .digests = false := by
      simp [ReachesRecord, hmigration, hreaches]
    rw [hiff]
    unfold deploy
    simp only [hvalidation, hbackup, hmigration, hhead, Bool.false_eq_true, if_false]
    cases hapi : attempt.stopsAt .api
    · cases hweb : attempt.stopsAt .web
      · cases hready : attempt.stopsAt .readiness
        · cases hdigests : attempt.stopsAt .digests
          · have hsmoke : (if attempt.stopsAt .smoke then SmokeResult.failed else .passed) =
                .passed ↔ attempt.Passes := by
              cases hsmoke : attempt.stopsAt .smoke <;>
                simp [Passes, hreaches, hapi, hweb, hready, hdigests, hsmoke]
            refine .inl ⟨⟨rfl, rfl, rfl, rfl⟩, ?_⟩
            simpa using ledger_record attempt
              ((env.startApi attempt.release).startWeb attempt.release) hsmoke
          · simp
        · simp
      · simp only [Bool.false_eq_true, if_false, if_true]
        split <;> simp
    · simp only [if_true]
      split <;> simp
  · have hpasses : SmokeResult.notRun = .passed ↔ attempt.Passes := by
      simp [Passes, hreaches]
    cases hvalidation : attempt.stopsAt .validation
    · cases hbackup : attempt.stopsAt .backup
      · cases hmigration : attempt.runMigrations && attempt.stopsAt .migration
        · -- the head is not the expected one
          have hhead : attempt.stopsAt .head = true := by
            simpa [ReachesApi, hvalidation, hbackup, hmigration] using hreaches
          refine .inr ?_
          simp [ReachesRecord, deploy, hreaches, hvalidation, hbackup, hmigration, hhead]
        · refine .inl ⟨.inl ⟨hvalidation, hbackup, hmigration⟩, ?_⟩
          unfold deploy
          simp only [hvalidation, hbackup, hmigration, Bool.false_eq_true, if_false, if_true]
          exact ledger_record _ _ hpasses
      · refine .inr ?_
        simp [ReachesRecord, deploy, hreaches, hvalidation, hbackup]
    · refine .inr ?_
      simp [ReachesRecord, deploy, hreaches, hvalidation]

/-- An attempt leaves its record in the ledger, and `current.json` names it if its
evidence is complete, or neither changes. -/
theorem ledger_cases (attempt : Attempt) (env : Environment) :
    (attempt.Recorded ∧ ∃ record, attempt.RecordOf record ∧
      (attempt.deploy env).records = env.records ++ [record] ∧
      (attempt.deploy env).current =
        if attempt.evidence = .complete then some record else env.current) ∨
    (¬attempt.Recorded ∧ (attempt.deploy env).records = env.records ∧
      (attempt.deploy env).current = env.current) := by
  rcases ledger_deploy attempt env with ⟨hreaches, record, hof, hrecords, hcurrent⟩ |
    ⟨hreaches, hrecords, hcurrent⟩
  · by_cases hevidence : attempt.evidence = .recordOnly ∨ attempt.evidence = .complete
    · rw [if_pos hevidence] at hrecords
      exact .inl ⟨⟨hreaches, hevidence⟩, record, hof, hrecords, hcurrent⟩
    · rw [if_neg hevidence, List.append_nil] at hrecords
      rw [if_neg fun h => hevidence (.inr h)] at hcurrent
      exact .inr ⟨fun h => hevidence h.2, hrecords, hcurrent⟩
  · exact .inr ⟨fun h => hreaches h.1, hrecords, hcurrent⟩

end Attempt

/-! ## The ledger in order -/

/-- Every record is later than all before it. -/
def Ascending (records : List DeploymentRecord) : Prop :=
  records.Pairwise fun earlier later => earlier.deployedAt < later.deployedAt

section Ascending

variable {records : List DeploymentRecord}

theorem Ascending.orderedRecords_eq (h : Ascending records) : orderedRecords records = records :=
  List.Pairwise.insertionSort_eq (h.imp fun hlt => Nat.le_of_lt hlt)

/-- The latest records come first. -/
theorem Ascending.insertionSort_eq (h : Ascending records) :
    records.insertionSort DeploymentRecord.NotEarlier = records.reverse := by
  have hreverse : records.reverse.Pairwise DeploymentRecord.NotEarlier :=
    List.pairwise_reverse.mpr (h.imp fun hlt => Nat.le_of_lt hlt)
  have hunique : ∀ left ∈ records, ∀ right ∈ records,
      left.deployedAt = right.deployedAt → left = right := by
    intro left hleft right hright htime
    obtain ⟨i, hi, rfl⟩ := List.mem_iff_getElem.mp hleft
    obtain ⟨j, hj, rfl⟩ := List.mem_iff_getElem.mp hright
    have hpairs := List.pairwise_iff_getElem.mp h
    rcases Nat.lt_trichotomy i j with hlt | rfl | hlt
    · exact absurd htime (Nat.ne_of_lt (hpairs i j hi hj hlt))
    · rfl
    · exact absurd htime.symm (Nat.ne_of_lt (hpairs j i hj hi hlt))
  refine List.Perm.eq_of_pairwise ?_ (List.pairwise_insertionSort _ _) hreverse
    ((List.perm_insertionSort _ _).trans (List.reverse_perm _).symm)
  intro left right hleft hright hle hge
  rw [List.mem_insertionSort] at hleft
  exact hunique left hleft right (List.mem_reverse.mp hright) (Nat.le_antisymm hge hle)

theorem Ascending.concat (h : Ascending records) {record : DeploymentRecord}
    (hlater : ∀ earlier ∈ records, earlier.deployedAt < record.deployedAt) :
    Ascending (records ++ [record]) :=
  List.pairwise_append.mpr ⟨h, List.pairwise_singleton _ _, fun earlier hearlier _ hlast =>
    List.mem_singleton.mp hlast ▸ hlater earlier hearlier⟩

theorem zip_tail_concat {α : Type} (l : List α) (a : α) :
    (l ++ [a]).zip (l ++ [a]).tail = l.zip l.tail ++ (l.getLast?.map (·, a)).toList := by
  induction l with
  | nil => rfl
  | cons b l ih =>
      cases l with
      | nil => rfl
      | cons c l =>
          simp only [List.cons_append, List.tail_cons, List.zip_cons_cons] at ih ⊢
          rw [ih, List.getLast?_cons_cons]

/-- A rollback supersedes the record before it. -/
theorem releasesRolledAwayFrom_concat {record : DeploymentRecord}
    (h : Ascending (records ++ [record])) :
    releasesRolledAwayFrom (records ++ [record]) = releasesRolledAwayFrom records ++
      if record.mode = .rollback then
        (records.getLast?.map fun previous => previous.release.apiReference).toList
      else [] := by
  have hfront : Ascending records := (List.pairwise_append.mp h).1
  unfold releasesRolledAwayFrom
  rw [h.orderedRecords_eq, hfront.orderedRecords_eq]
  dsimp only
  rw [zip_tail_concat, List.filterMap_append]
  refine congrArg _ ?_
  cases records.getLast? with
  | none => simp
  | some previous =>
      by_cases hmode : record.mode = .rollback <;> simp [hmode]

end Ascending

/-- A target with its observer, who keeps the releases that passed smoke and were not left
by a rollback since, latest first, and the releases that rollbacks have left. -/
structure Observed where
  env : Environment
  good : List Running
  left : List Running
  deriving DecidableEq

namespace Observed

def fresh : Observed := ⟨.fresh, [], []⟩

/-- The release that the target was last changed to. -/
def last (seen : Observed) : Option Running := seen.env.lastChanged.map Release.running

/-- The last known-good release besides. -/
def lastKnownGood (seen : Observed) : Option Running :=
  seen.good.find? fun release => seen.last ≠ some release

/-- A rollback that replaces a container leaves the release that the target had. -/
def leaves (seen : Observed) (attempt : Attempt) : List Running :=
  if attempt.mode = .rollback ∧ attempt.Changes seen.env then seen.last.toList else []

def observe (seen : Observed) (attempt : Attempt) : Observed :=
  let remaining := seen.good.filter fun release => release ∉ seen.leaves attempt
  { env := attempt.deploy seen.env
    good := if attempt.Passes then attempt.release.running :: remaining else remaining
    left := seen.left ++ seen.leaves attempt }

def perform (seen : Observed) (run : Run) : Observed :=
  match run.attempt seen.env with
  | none => seen
  | some attempt => seen.observe attempt

end Observed

/-- One run after the other, under observation. -/
def observeAll (runs : List Run) : Observed := runs.foldl Observed.perform .fresh

theorem observeAll_concat (done : List Run) (run : Run) :
    observeAll (done ++ [run]) = (observeAll done).perform run := by
  simp [observeAll]

/-- The observer does not interfere. -/
theorem env_observeAll (runs : List Run) : (observeAll runs).env = performAll runs .fresh := by
  induction runs using List.reverseRecOn with
  | nil => rfl
  | append_singleton done run ih =>
      rw [observeAll_concat, performAll, List.foldl_append, List.foldl_cons, List.foldl_nil,
        ← performAll, ← ih, Observed.perform, Run.perform]
      cases run.attempt (observeAll done).env with
      | none => rfl
      | some attempt => rfl

/-- The newest record and `current.json` name the release that the target was last
changed to, and a rollback restores the last known-good release besides, if there is
one. -/
structure LedgerNamesTarget (seen : Observed) : Prop where
  newest : seen.env.records.getLast?.map (fun record => record.release.running) = seen.last
  current : seen.env.current.map (fun record => record.release.running) = seen.last
  rollback : (selectRollbackTarget seen.env.records seen.env.current).map
    (fun record => record.release.running) = seen.lastKnownGood

/-- The last known-good release shares its API image neither with the release that the
target was last changed to nor with one that a rollback has left. -/
def Observed.Distinguished (seen : Observed) : Prop :=
  ∀ release ∈ seen.lastKnownGood,
    (∀ other ∈ seen.last, other.api ≠ release.api) ∧
      ∀ other ∈ seen.left, other.api ≠ release.api

instance (seen : Observed) : Decidable seen.Distinguished :=
  inferInstanceAs (Decidable (∀ release ∈ seen.lastKnownGood, _))

/-- The releases that passed, latest first. -/
def passedReleases (records : List DeploymentRecord) : List Running :=
  (records.reverse.filter fun record => record.smoke = .passed).map fun record =>
    record.release.running

/-- What the ledger has in common with the observer's notes. -/
structure Faithful (seen : Observed) : Prop where
  newest : seen.env.records.getLast?.map (fun record => record.release.running) = seen.last
  current : seen.env.current.map (fun record => record.release.running) = seen.last
  ascending : Ascending seen.env.records
  left : (releasesRolledAwayFrom seen.env.records).map some = seen.left.map Running.api
  good : (passedReleases seen.env.records).filter (· ∉ seen.left) =
    seen.good.filter (· ∉ seen.left)

theorem faithful_fresh : Faithful .fresh where
  newest := rfl
  current := rfl
  ascending := List.Pairwise.nil
  left := rfl
  good := rfl

section Step

variable {seen : Observed} {attempt : Attempt}

/-- The API image of the record is neither the current one nor superseded. -/
def Observed.mayRestore (seen : Observed) (release : Running) : Bool :=
  seen.last.map Running.api ≠ some release.api && !(seen.left.map Running.api).contains release.api

/-- On a faithful ledger the filters ask what the observer would ask. -/
theorem Faithful.isRollbackCandidate_eq (h : Faithful seen) (record : DeploymentRecord) :
    isRollbackCandidate seen.env.records seen.env.current record =
      (decide (record.smoke = .passed) && seen.mayRestore record.release.running) := by
  have hcurrent : seen.last.map Running.api =
      (seen.env.current.map fun now => now.release.apiReference).map some := by
    rw [← h.current, Option.map_map, Option.map_map]
    rfl
  have hleft : (seen.left.map Running.api).contains (some record.release.apiReference) =
      (releasesRolledAwayFrom seen.env.records).contains record.release.apiReference := by
    rw [← h.left, Bool.eq_iff_iff, List.contains_iff_mem, List.contains_iff_mem]
    exact List.mem_map_of_injective (Option.some_injective _)
  have himage : (some record.release.apiReference ≠
      seen.env.current.map fun now => now.release.apiReference) ↔
        (seen.env.current.map fun now => now.release.apiReference).map some ≠
          some (some record.release.apiReference) := by
    cases seen.env.current <;> simp [eq_comm]
  unfold isRollbackCandidate Observed.mayRestore
  rw [hcurrent, Bool.and_assoc]
  change _ = (_ && (_ && !(seen.left.map Running.api).contains
    (some record.release.apiReference)))
  rw [hleft, decide_eq_decide.mpr himage]
  rfl

/-- The release that a rollback would restore. -/
theorem Faithful.selected_eq (h : Faithful seen) :
    (selectRollbackTarget seen.env.records seen.env.current).map
      (fun record => record.release.running) = seen.good.find? seen.mayRestore := by
  -- what may be restored has not been left, so that the notes agree with the ledger
  have hnotLeft : ∀ release, seen.mayRestore release → release ∉ seen.left := by
    intro release hmay hleft
    unfold Observed.mayRestore at hmay
    rw [Bool.and_eq_true, Bool.not_eq_true', ← Bool.not_eq_true, List.contains_iff_mem] at hmay
    exact hmay.2 (List.mem_map_of_mem hleft)
  have hfilter : ∀ releases : List Running,
      (releases.filter (· ∉ seen.left)).find? seen.mayRestore =
        releases.find? seen.mayRestore := by
    intro releases
    rw [List.find?_filter]
    refine congrArg (releases.find? ·) (funext fun release => ?_)
    cases hmay : seen.mayRestore release with
    | false => simp
    | true => simpa using hnotLeft release hmay
  rw [selectRollbackTarget_eq_find, h.ascending.insertionSort_eq,
    ← hfilter seen.good, ← h.good, hfilter, passedReleases, List.find?_map, List.find?_filter]
  refine congrArg _ (congrArg (List.find? · _) (funext fun record => ?_))
  rw [h.isRollbackCandidate_eq, Bool.decide_and, Bool.decide_eq_true, Bool.decide_eq_true,
    Function.comp_apply]

theorem mayRestore_iff {release : Running} : seen.mayRestore release ↔
    (∀ other ∈ seen.last, other.api ≠ release.api) ∧
      ∀ other ∈ seen.left, other.api ≠ release.api := by
  unfold Observed.mayRestore
  rw [Bool.and_eq_true, decide_eq_true_eq, Bool.not_eq_true', ← Bool.not_eq_true,
    List.contains_iff_mem, List.mem_map]
  refine and_congr ?_ ?_
  · cases seen.last <;> simp
  · exact ⟨fun h other hother himage => h ⟨other, hother, himage⟩,
      fun h ⟨other, hother, himage⟩ => h other hother himage⟩

theorem mayRestore_other {release : Running} (h : seen.mayRestore release) :
    seen.last ≠ some release := fun hlast => (mayRestore_iff.mp h).1 release hlast rfl

/-- The last known-good release is found exactly if its API image tells it apart. -/
theorem Faithful.ledgerNamesTarget_iff (h : Faithful seen) :
    LedgerNamesTarget seen ↔ seen.Distinguished := by
  constructor
  · intro hnames release hrelease
    have hselected := hnames.rollback
    rw [h.selected_eq, hrelease] at hselected
    exact mayRestore_iff.mp (List.find?_some hselected)
  · intro hdistinguished
    refine ⟨h.newest, h.current, ?_⟩
    rw [h.selected_eq]
    cases hlast : seen.lastKnownGood with
    | none =>
        unfold Observed.lastKnownGood at hlast
        rw [List.find?_eq_none] at hlast ⊢
        exact fun release hrelease hmay =>
          hlast release hrelease (decide_eq_true (mayRestore_other hmay))
    | some good =>
        have hmay := mayRestore_iff.mpr (hdistinguished good hlast)
        unfold Observed.lastKnownGood at hlast
        rw [List.find?_eq_some_iff_append] at hlast ⊢
        obtain ⟨-, front, back, hsplit, hfront⟩ := hlast
        refine ⟨hmay, front, back, hsplit, fun release hrelease => ?_⟩
        have hcurrent := hfront release hrelease
        rw [Bool.not_eq_true', ← Bool.not_eq_true] at hcurrent ⊢
        exact fun hmay => hcurrent (decide_eq_true (mayRestore_other hmay))

theorem passedReleases_concat (records : List DeploymentRecord) (record : DeploymentRecord) :
    passedReleases (records ++ [record]) =
      if record.smoke = .passed then record.release.running :: passedReleases records
      else passedReleases records := by
  unfold passedReleases
  rw [List.reverse_append, List.reverse_singleton, List.singleton_append, List.filter_cons]
  by_cases hsmoke : record.smoke = .passed <;> simp [hsmoke]

/-- Notes that agree keep agreeing when a rollback leaves a release. -/
theorem filter_left (leaving : List Running) {ledger notes left : List Running}
    (h : ledger.filter (· ∉ left) = notes.filter (· ∉ left)) :
    ledger.filter (· ∉ left ++ leaving) =
      (notes.filter (· ∉ leaving)).filter (· ∉ left ++ leaving) := by
  have hsplit : ∀ releases : List Running, releases.filter (· ∉ left ++ leaving) =
      (releases.filter (· ∉ left)).filter (· ∉ leaving) := by
    intro releases
    rw [List.filter_filter]
    refine List.filter_congr fun release _ => ?_
    simp [not_or, Bool.and_comm]
  rw [hsplit, h, hsplit, List.filter_filter, List.filter_filter, List.filter_filter]
  refine List.filter_congr fun release _ => ?_
  by_cases hleaving : release ∈ leaving <;> simp [hleaving]

/-- The target after an attempt that is accounted for. -/
theorem last_observe (haccounted : attempt.Accounted seen.env) :
    (seen.observe attempt).last =
      if attempt.Recorded then some attempt.release.running else seen.last := by
  change (attempt.deploy seen.env).lastChanged.map Release.running = _
  rcases Attempt.lastChanged_deploy attempt seen.env with ⟨hchanges, hlast⟩ | ⟨hchanges, hlast⟩
  · obtain ⟨hreaches, hevidence⟩ := haccounted.changed hchanges
    rw [hlast, if_pos ⟨hreaches, Or.inr hevidence⟩]
    rfl
  · rw [hlast]
    split
    · next hrecorded =>
        rcases haccounted.unchanged hrecorded with h | h
        · exact absurd h hchanges
        · exact h.2
    · rfl

/-- What a recorded attempt leaves is what its record supersedes. -/
theorem leaves_eq (h : Faithful seen) (haccounted : attempt.Accounted seen.env)
    (hrecorded : attempt.Recorded) : (seen.leaves attempt).map Running.api =
      (if attempt.mode = .rollback then
        (seen.env.records.getLast?.map fun previous => previous.release.apiReference).toList
      else []).map some := by
  unfold Observed.leaves
  by_cases hmode : attempt.mode = .rollback
  · have hchanges : attempt.Changes seen.env := by
      rcases haccounted.unchanged hrecorded with hchanges | ⟨hdeploy, -⟩
      · exact hchanges
      · rw [hmode] at hdeploy
        cases hdeploy
    rw [if_pos ⟨hmode, hchanges⟩, if_pos hmode, ← h.newest]
    cases seen.env.records.getLast? <;> rfl
  · rw [if_neg fun hleaves => hmode hleaves.1, if_neg hmode]
    rfl

/-- An attempt that leaves no record leaves no release. -/
theorem leaves_eq_nil (haccounted : attempt.Accounted seen.env)
    (hrecorded : ¬attempt.Recorded) : seen.leaves attempt = [] := by
  refine if_neg fun hleaves => hrecorded ?_
  obtain ⟨hreaches, hevidence⟩ := haccounted.changed hleaves.2
  exact ⟨hreaches, Or.inr hevidence⟩

/-- One attempt that is accounted for. -/
theorem Faithful.observe (h : Faithful seen) (haccounted : attempt.Accounted seen.env) :
    Faithful (seen.observe attempt) := by
  have hlast := last_observe haccounted
  rcases Attempt.ledger_cases attempt seen.env with
    ⟨hrecorded, record, ⟨hrelease, hmode, htime, hsmoke⟩, hrecords, hcurrent⟩ |
    ⟨hrecorded, hrecords, hcurrent⟩
  · rw [if_pos hrecorded] at hlast
    have hascending : Ascending (seen.env.records ++ [record]) :=
      h.ascending.concat fun earlier hearlier => htime ▸ haccounted.later hrecorded earlier hearlier
    have hleaves : (seen.leaves attempt).map Running.api = _ := leaves_eq h haccounted hrecorded
    refine ⟨?_, ?_, ?_, ?_, ?_⟩
    · change (attempt.deploy seen.env).records.getLast?.map _ = _
      rw [hrecords, hlast, List.getLast?_concat, Option.map_some, hrelease]
    · change (attempt.deploy seen.env).current.map _ = _
      rw [hcurrent, hlast]
      split
      · rw [Option.map_some, hrelease]
      · next hevidence =>
          -- an incomplete record can only be one of the release that the target has
          rcases haccounted.unchanged hrecorded with hchanges | ⟨-, hsame⟩
          · exact absurd (haccounted.changed hchanges).2 hevidence
          · exact h.current.trans hsame
    · change Ascending (attempt.deploy seen.env).records
      rw [hrecords]
      exact hascending
    · change (releasesRolledAwayFrom (attempt.deploy seen.env).records).map some =
        (seen.left ++ seen.leaves attempt).map Running.api
      rw [hrecords, releasesRolledAwayFrom_concat hascending, List.map_append, List.map_append,
        h.left, hleaves, hmode]
    · change (passedReleases (attempt.deploy seen.env).records).filter
        (· ∉ seen.left ++ seen.leaves attempt) = List.filter (· ∉ seen.left ++ seen.leaves attempt)
          (if attempt.Passes then attempt.release.running :: _ else _)
      have hremaining := filter_left (seen.leaves attempt) h.good
      rw [hrecords, passedReleases_concat]
      by_cases hpasses : attempt.Passes
      · rw [if_pos hpasses, if_pos (hsmoke.mpr hpasses), hrelease, List.filter_cons,
          List.filter_cons, hremaining]
      · rw [if_neg hpasses, if_neg (mt hsmoke.mp hpasses), hremaining]
  · rw [if_neg hrecorded] at hlast
    have hleaves : seen.leaves attempt = [] := leaves_eq_nil haccounted hrecorded
    have hpasses : ¬attempt.Passes := mt haccounted.passed hrecorded
    have hgood : (seen.observe attempt).good = seen.good := by
      change (if attempt.Passes then _ else _) = _
      rw [if_neg hpasses, hleaves]
      simp
    have hleft : (seen.observe attempt).left = seen.left := by
      change seen.left ++ seen.leaves attempt = seen.left
      rw [hleaves, List.append_nil]
    have hledger : (seen.observe attempt).env.records = seen.env.records := hrecords
    have hnow : (seen.observe attempt).env.current = seen.env.current := hcurrent
    refine ⟨?_, ?_, ?_, ?_, ?_⟩
    · rw [hledger, hlast, h.newest]
    · rw [hnow, hlast, h.current]
    · rw [hledger]
      exact h.ascending
    · rw [hledger, hleft, h.left]
    · rw [hledger, hleft, hgood, h.good]

end Step

/-! ## Runs of the scripts -/

/-- Every attempt is accounted for, and after each the API image of the last known-good
release tells it apart. -/
def AllAccounted : Observed → List Run → Prop
  | _, [] => True
  | seen, run :: later =>
      (∀ attempt ∈ run.attempt seen.env, attempt.Accounted seen.env) ∧
        (seen.perform run).Distinguished ∧ AllAccounted (seen.perform run) later

instance decidableAllAccounted (seen : Observed) (runs : List Run) :
    Decidable (AllAccounted seen runs) :=
  match runs with
  | [] => .isTrue trivial
  | run :: later =>
      have := decidableAllAccounted (seen.perform run) later
      inferInstanceAs (Decidable (_ ∧ _ ∧ AllAccounted (seen.perform run) later))

theorem Faithful.perform {seen : Observed} (h : Faithful seen) {run : Run}
    (haccounted : ∀ attempt ∈ run.attempt seen.env, attempt.Accounted seen.env) :
    Faithful (seen.perform run) := by
  unfold Observed.perform
  cases hattempt : run.attempt seen.env with
  | none => exact h
  | some attempt => exact h.observe (haccounted attempt hattempt)

/-- What one run keeps, all keep. -/
theorem Faithful.ledgerNamesTarget_of_run {seen : Observed} (h : Faithful seen)
    (hdistinguished : seen.Distinguished) {runs : List Run} (haccounted : AllAccounted seen runs) :
    ∀ done, done <+: runs → LedgerNamesTarget (done.foldl Observed.perform seen) := by
  induction runs generalizing seen with
  | nil =>
      intro done hdone
      rw [List.prefix_nil.mp hdone]
      exact h.ledgerNamesTarget_iff.mpr hdistinguished
  | cons run later ih =>
      obtain ⟨hrun, hnext, hlater⟩ := haccounted
      intro done hdone
      cases done with
      | nil => exact h.ledgerNamesTarget_iff.mpr hdistinguished
      | cons first done =>
          obtain ⟨rfl, hrest⟩ := List.cons_prefix_cons.mp hdone
          exact ih (h.perform hrun) hnext hlater done hrest

/-- A deployment of a release, with migrations and complete evidence. -/
def sampleAttempt (name : String) (deployedAt : ℕ) : Attempt :=
  { mode := .deploy, release := sampleRelease name, apiDigest := name, webDigest := name,
    runMigrations := true, publicConfigFingerprint := "public", deployedAt, fails := none,
    replaced := false, evidence := .complete }

/-- `a` and `b` are deployed, the smoke of `c` fails, a rollback restores `b` and another
one `a`. -/
def rolledBackTwice : List Run :=
  [.deploy (sampleAttempt "a" 1), .deploy (sampleAttempt "b" 2),
    .deploy { sampleAttempt "c" 3 with fails := some .smoke },
    .rollback (sampleAttempt "c" 4), .rollback (sampleAttempt "b" 5)]

/-- `a` and `b` are deployed, and the API of `c` does not become ready. -/
def unreadyRelease : List Run :=
  [.deploy (sampleAttempt "a" 1), .deploy (sampleAttempt "b" 2),
    .deploy { sampleAttempt "c" 3 with fails := some .readiness }]

end Orgistry.Model
