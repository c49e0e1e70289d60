import Orgistry.Model.DeployEvidence

/-!
# The deployment script

`tooling/deploy.sh` and `tooling/deploy-rollback.sh` on one target, with the
`record` and `rollback-target` commands of `tooling/deploy-evidence.mjs`.  What
the script cannot decide is part of an attempt: the stage that fails, what
Compose had done by then, and how far the evidence gets onto the disk.
-/

namespace Orgistry.Model

/-- The target of one environment: its ledger, with the records as they were
written and the manifest copies of `releases/`, and the images its two
containers were last created from.  `lastChanged` is a history variable: the
release of the last attempt that replaced a container. -/
structure Environment where
  records : List DeploymentRecord
  current : Option DeploymentRecord
  manifests : List (String × Release)
  api : Option String
  web : Option String
  lastChanged : Option Release
  deriving DecidableEq

namespace Environment

/-- Nothing deployed yet. -/
def fresh : Environment := ⟨[], none, [], none, none, none⟩

/-- `docker compose up api` replaces a container of another image. -/
def startApi (env : Environment) (release : Release) : Environment :=
  if env.api = some release.apiReference then env
  else { env with api := some release.apiReference, lastChanged := some release }

def startWeb (env : Environment) (release : Release) : Environment :=
  if env.web = some release.webReference then env
  else { env with web := some release.webReference, lastChanged := some release }

end Environment

/-- The stages that can fail before the evidence of a successful deployment is
written. -/
inductive Stage
  | validation
  | backup
  | migration
  | head
  | api
  | web
  | readiness
  | digests
  | smoke
  deriving DecidableEq

/-- How far a `record` command gets: it copies the manifest, writes the record
and then writes `current.json`. -/
inductive EvidenceWrite
  | nothing
  | manifestOnly
  | recordOnly
  | complete
  deriving DecidableEq

/-- `replaced` says whether a container start that failed had replaced the
container. -/
structure Attempt where
  mode : DeploymentMode
  release : Release
  apiDigest : String
  webDigest : String
  runMigrations : Bool
  publicConfigFingerprint : String
  deployedAt : ℕ
  fails : Option Stage
  replaced : Bool
  evidence : EvidenceWrite
  deriving DecidableEq

namespace Attempt

def stopsAt (attempt : Attempt) (stage : Stage) : Bool := attempt.fails = some stage

/-- `buildDeploymentRecord`, with the rollback target against the history that
existed before. -/
def buildDeploymentRecord (attempt : Attempt) (existingRecords : List DeploymentRecord)
    (migration : MigrationResult) (smoke : SmokeResult) (runtimeDigests : RuntimeDigests) :
    DeploymentRecord :=
  let record : DeploymentRecord :=
    { mode := attempt.mode, deployedAt := attempt.deployedAt, release := attempt.release,
      publicConfigFingerprint := attempt.publicConfigFingerprint, migration, smoke,
      runtimeDigests, rollbackTarget := none }
  { record with
    rollbackTarget :=
      (selectRollbackTarget existingRecords (some record)).map
        DeploymentRecord.toRollbackTarget }

/-- `record_deployment`. -/
def record (attempt : Attempt) (migration : MigrationResult) (smoke : SmokeResult)
    (runtimeDigests : RuntimeDigests) (env : Environment) : Environment :=
  let record := attempt.buildDeploymentRecord env.records migration smoke runtimeDigests
  let manifests := (attempt.release.manifestFile, attempt.release) :: env.manifests
  match attempt.evidence with
  | .nothing => env
  | .manifestOnly => { env with manifests }
  | .recordOnly => { env with manifests, records := env.records ++ [record] }
  | .complete => { env with manifests, records := env.records ++ [record], current := some record }

/-- What stage 5 leaves in `MIGRATION_RESULT`. -/
def migrationResult (attempt : Attempt) : MigrationResult :=
  if attempt.runMigrations then .applied else .skipped

/-- `deploy.sh`.  Only a failed migration, a failed smoke and a success are
recorded; the other failures leave through `deploy_die`. -/
def deploy (attempt : Attempt) (env : Environment) : Environment :=
  if attempt.stopsAt .validation then env
  else if attempt.stopsAt .backup then env
  else if attempt.runMigrations && attempt.stopsAt .migration then
    attempt.record .failed .notRun ⟨none, none⟩ env
  else if attempt.stopsAt .head then env
  else if attempt.stopsAt .api then
    if attempt.replaced then env.startApi attempt.release else env
  else
    let env := env.startApi attempt.release
    if attempt.stopsAt .web then
      if attempt.replaced then env.startWeb attempt.release else env
    else
      let env := env.startWeb attempt.release
      if attempt.stopsAt .readiness then env
      else if attempt.stopsAt .digests then env
      else
        let smoke := if attempt.stopsAt .smoke then SmokeResult.failed else .passed
        attempt.record attempt.migrationResult smoke
          ⟨some attempt.apiDigest, some attempt.webDigest⟩ env

end Attempt

/-- `rollback-target`: the release whose manifest copy the selected record
names. -/
def Environment.rollbackRelease (env : Environment) : Option Release := do
  let target ← selectRollbackTarget env.records env.current
  env.manifests.lookup target.release.manifestFile

/-- A run of one of the two scripts.  The release of a rollback comes from the
ledger, and a rollback never migrates. -/
inductive Run
  | deploy (attempt : Attempt)
  | rollback (attempt : Attempt)
  deriving DecidableEq

/-- The attempt that a run makes, or `none` when `deploy-rollback.sh` finds
nothing to roll back from or to. -/
def Run.attempt (env : Environment) : Run → Option Attempt
  | .deploy attempt => some attempt
  | .rollback attempt => do
      let _ ← env.current
      let release ← env.rollbackRelease
      return { attempt with mode := .rollback, release, runMigrations := false }

def Run.perform (run : Run) (env : Environment) : Environment :=
  match run.attempt env with
  | none => env
  | some attempt => attempt.deploy env

/-- One run after the other. -/
def performAll (runs : List Run) (env : Environment) : Environment :=
  runs.foldl (fun env run => run.perform env) env

end Orgistry.Model
