import Mathlib.Data.List.Sort
import Mathlib.Tactic.Common

/-!
# Deployment evidence

The append-only ledger of `tooling/deploy-evidence.mjs` and its selection of a
rollback target in `tooling/lib/deploy-evidence.mjs`.  Times are epoch
milliseconds.  What a record only keeps for its readers (actor, authorization,
backup preflight, limitations, and the reasons and counts beside the results) is
left out.
-/

namespace Orgistry.Model

inductive DeploymentMode
  | deploy
  | rollback
  deriving DecidableEq

inductive MigrationResult
  | applied
  | skipped
  | failed
  deriving DecidableEq

inductive SmokeResult
  | passed
  | failed
  | notRun
  deriving DecidableEq

/-- What a record keeps of a release manifest.  The references are pinned by
digest. -/
structure Release where
  commit : String
  apiReference : String
  webReference : String
  manifestFile : String
  deriving DecidableEq

/-- A member is `none` when that service was never started. -/
structure RuntimeDigests where
  api : Option String
  web : Option String
  deriving DecidableEq

/-- The identity that a later rollback needs. -/
structure RollbackTarget where
  commit : String
  apiReference : String
  webReference : String
  manifestFile : String
  publicConfigFingerprint : String
  deployedAt : ℕ
  deriving DecidableEq

structure DeploymentRecord where
  mode : DeploymentMode
  deployedAt : ℕ
  release : Release
  publicConfigFingerprint : String
  migration : MigrationResult
  smoke : SmokeResult
  runtimeDigests : RuntimeDigests
  rollbackTarget : Option RollbackTarget
  deriving DecidableEq

namespace DeploymentRecord

def toRollbackTarget (record : DeploymentRecord) : RollbackTarget :=
  { commit := record.release.commit, apiReference := record.release.apiReference,
    webReference := record.release.webReference, manifestFile := record.release.manifestFile,
    publicConfigFingerprint := record.publicConfigFingerprint, deployedAt := record.deployedAt }

/-- `byDeployedAtAscending`. -/
def NotLater (left right : DeploymentRecord) : Prop := left.deployedAt ≤ right.deployedAt

/-- The comparison of `selectRollbackTarget`, latest first. -/
def NotEarlier (left right : DeploymentRecord) : Prop := right.deployedAt ≤ left.deployedAt

instance : DecidableRel NotLater := fun _ _ => inferInstanceAs (Decidable (_ ≤ _))

instance : DecidableRel NotEarlier := fun _ _ => inferInstanceAs (Decidable (_ ≤ _))

instance : Std.Total NotEarlier := ⟨fun _ _ => Nat.le_total _ _⟩

instance : IsTrans DeploymentRecord NotEarlier := ⟨fun _ _ _ hab hbc => Nat.le_trans hbc hab⟩

end DeploymentRecord

open DeploymentRecord

/-- The ledger in the order of its timestamps. -/
def orderedRecords (records : List DeploymentRecord) : List DeploymentRecord :=
  records.insertionSort NotLater

/-- The API references of the releases that a rollback record superseded. -/
def releasesRolledAwayFrom (records : List DeploymentRecord) : List String :=
  let ordered := orderedRecords records
  (ordered.zip ordered.tail).filterMap fun (previous, record) =>
    if record.mode = .rollback then some previous.release.apiReference else none

/-- The three filters of `selectRollbackTarget`. -/
def isRollbackCandidate (records : List DeploymentRecord) (current : Option DeploymentRecord)
    (record : DeploymentRecord) : Bool :=
  record.smoke = .passed &&
    some record.release.apiReference ≠ current.map (fun now => now.release.apiReference) &&
      !(releasesRolledAwayFrom records).contains record.release.apiReference

def selectRollbackTarget (records : List DeploymentRecord) (current : Option DeploymentRecord) :
    Option DeploymentRecord :=
  ((records.filter (isRollbackCandidate records current)).insertionSort NotEarlier).head?

end Orgistry.Model
