import Orgistry.Model.ReleaseManifest

/-!
# Validating deployment records

`validateDeploymentRecord` of `tooling/lib/deploy-evidence.mjs`.  Each issue is kept with
the rule it reports.
-/

namespace Orgistry.Model

open Text Json Validation

def deploymentRecordKind : String := "orgistry.deployment-record"

def deploymentModes : List String := ["deploy", "rollback"]

def migrationResults : List String := ["applied", "skipped", "failed"]

def backupPreflightResults : List String := ["taken", "skipped", "unavailable", "failed"]

def smokeResults : List String := ["passed", "failed", "not-run"]

def publicConfigKeys : List String := ["apiBaseUrl", "csrfHeaderName", "mailpitUrl"]

inductive RecordRule
  | document
  | kind
  | schemaVersion
  | environment
  | actor
  | mode
  | deployedAt
  | release
  | commit
  | manifestFile
  | digest (name : ImageName)
  | reference (name : ImageName)
  | migration
  | backupPreflight
  | smoke
  | backupReason
  | migrationReason
  | authorization
  | releaseType
  | provenance
  | deployable
  | gateRuns
  | unexpectedGateRuns
  | publicConfig
  | fingerprint
  | values
  | publicKeys
  | runtimeDigests
  | runtimeDigest (name : ImageName)
  | smokeDigests
  | limitations
  | credential
  deriving DecidableEq

abbrev RecordCheck := Check RecordRule (List Char) Thrown

def requireEnum (rule : RecordRule) (value : Option Json) (allowed : List String)
    (label : String) : RecordCheck :=
  .plain rule (!isOneOf value allowed)
    (label.toList ++ " must be one of ".toList ++ commaSeparated (allowed.map String.toList) ++
      " (got ".toList ++ got value ++ [')'])

def requireNonEmptyString (rule : RecordRule) (value : Option Json) (label : String) :
    RecordCheck :=
  .plain rule (nonEmptyText value).isNone (label ++ " must be a non-empty string").toList

/-- `text.includes('@sha256:')` -/
def pinsDigest (text : List Char) : Bool :=
  text.tails.any fun rest => "@sha256:".toList.isPrefixOf rest

section Parts

variable (toIso : List Char → Option (List Char)) (record : Option Json)

def headerChecks : List RecordCheck :=
  [.plain .kind (!strictEquals (get record "kind") (some (.string deploymentRecordKind.toList)))
      ("kind must be \"" ++ deploymentRecordKind ++ "\"").toList,
    .plain .schemaVersion (integerOf (get record "schemaVersion") ≠ some 1)
      "schemaVersion must be 1".toList,
    requireNonEmptyString .environment (get record "environment") "environment",
    requireNonEmptyString .actor (get record "actor") "actor",
    requireEnum .mode (get record "mode") deploymentModes "mode",
    { rule := .deployedAt
      broken := notIsoText toIso (get record "deployedAt")
      message := .ok "deployedAt must be an ISO-8601 UTC timestamp".toList }]

/-- The fields of a release that belong to an image, `apiDigest` and `apiReference`. -/
def ImageName.field (name : ImageName) (suffix : String) : String := name.text ++ suffix

def releaseChecks : List RecordCheck :=
  let release := get record "release"
  withObject .release release "release must be an object"
    ([requireNonEmptyString .commit (get release "commit") "release.commit",
      requireNonEmptyString .manifestFile (get release "manifestFile") "release.manifestFile"] ++
    ([.api, .web].map fun name : ImageName =>
      .plain (.digest name) (!isText (get release (name.field "Digest")) isDigestText)
        ("release." ++ name.field "Digest" ++ " must be a sha256 digest").toList) ++
    [.api, .web].map fun name : ImageName =>
      .plain (.reference name) (!isText (get release (name.field "Reference")) pinsDigest)
        ("release." ++ name.field "Reference" ++
          " must be a digest-pinned image reference").toList)

def resultChecks : List RecordCheck :=
  let migration := get record "migration"
  let backupPreflight := get record "backupPreflight"
  [requireEnum .migration (get migration "result") migrationResults "migration.result",
    requireEnum .backupPreflight (get backupPreflight "result") backupPreflightResults
      "backupPreflight.result",
    requireEnum .smoke (get (get record "smoke") "result") smokeResults "smoke.result",
    .plain .backupReason
      (isOneOf (get backupPreflight "result") ["skipped", "unavailable", "failed"] &&
        (nonEmptyText (get backupPreflight "reason")).isNone)
      ("backupPreflight.reason is required whenever the preflight did not take a " ++
        "backup").toList,
    .plain .migrationReason
      (isOneOf (get migration "result") ["skipped"] &&
        (nonEmptyText (get migration "reason")).isNone)
      "migration.reason is required whenever migrations were skipped".toList]

def isBool : Option Json → Bool
  | some (.bool _) => true
  | _ => false

def isArray : Option Json → Bool
  | some (.array _) => true
  | _ => false

def authorizationChecks : List RecordCheck :=
  let authorization := get record "authorization"
  let deployable := get authorization "deployable"
  let gateRuns := get authorization "gateRuns"
  withObject .authorization authorization "authorization must record what authorised this release"
    [requireNonEmptyString .releaseType (get authorization "releaseType")
        "authorization.releaseType",
      requireNonEmptyString .provenance (get authorization "provenance")
        "authorization.provenance",
      .plain .deployable (!isBool deployable) "authorization.deployable must be a boolean".toList,
      .plain .gateRuns (strictEquals deployable (some (.bool true)) && !isArray gateRuns)
        ("authorization.gateRuns must list the gate runs that authorised a deployable " ++
          "release").toList,
      .plain .unexpectedGateRuns
        (strictEquals deployable (some (.bool false)) && gateRuns.isSome)
        ("authorization.gateRuns must be absent for a release that was not " ++
          "deployable").toList]

def unexpectedKeys (values : Option Json) : List (List Char) :=
  (keys values).filter fun key => !(publicConfigKeys.map String.toList).contains key

def publicConfigChecks : List RecordCheck :=
  let publicConfig := get record "publicConfig"
  let values := get publicConfig "values"
  withObject .publicConfig publicConfig
    "publicConfig must record the public browser configuration this deployment applied"
    (.plain .fingerprint (!isText (get publicConfig "fingerprint") isDigestText)
        ("publicConfig.fingerprint must be a sha256 fingerprint of the applied " ++
          "configuration").toList ::
      withObject .values values "publicConfig.values must be an object"
        [.plain .publicKeys (unexpectedKeys values ≠ [])
          ("publicConfig.values may only contain public keys (".toList ++
            commaSeparated (publicConfigKeys.map String.toList) ++ "); got ".toList ++
            commaSeparated (unexpectedKeys values))])

def isNull : Option Json → Bool
  | some .null => true
  | _ => false

def runtimeDigestsChecks : List RecordCheck :=
  let runtimeDigests := get record "runtimeDigests"
  withObject .runtimeDigests runtimeDigests
    "runtimeDigests must be an object with `api` and `web` members"
    (([.api, .web].map fun name : ImageName =>
      let digest := get runtimeDigests name.text
      .plain (.runtimeDigest name) (!isNull digest && !isText digest isDigestText)
        ("runtimeDigests." ++ name.text ++ " must be a sha256 digest, or null when the service " ++
          "was never started").toList) ++
    [.plain .smokeDigests
      (isOneOf (get (get record "smoke") "result") ["passed"] &&
        (isNull (get runtimeDigests "api") || isNull (get runtimeDigests "web")))
      "runtimeDigests.api and runtimeDigests.web are required when smoke passed".toList])

def limitationsChecks : List RecordCheck :=
  [.plain .limitations (!isArray (get record "limitations"))
    "limitations must be an array (empty is fine, absent is not)".toList]

end Parts

def recordChecks (toIso : List Char → Option (List Char)) (record : Json) : List RecordCheck :=
  headerChecks toIso (some record) ++ releaseChecks (some record) ++ resultChecks (some record) ++
    authorizationChecks (some record) ++ publicConfigChecks (some record) ++
    runtimeDigestsChecks (some record) ++ limitationsChecks (some record) ++
    [.plain .credential (findEmbeddedCredential record).isSome
      (credentialText record "; deployment evidence must contain no secrets")]

def validateDeploymentRecord (toIso : List Char → Option (List Char)) (record : Json) :
    Except Thrown (Verdict RecordRule) :=
  match record with
  | .object _ => (reportAll (recordChecks toIso record)).map fun issues =>
      ⟨issues.isEmpty, issues⟩
  | _ => .ok ⟨false, [⟨.document, "deployment record must be a JSON object".toList⟩]⟩

end Orgistry.Model
