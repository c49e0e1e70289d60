import Orgistry.Model.CredentialGuard
import Orgistry.Model.ReleaseGates
import Orgistry.Validation.Checks

/-!
# Release manifests

Building and validating a release manifest in `tooling/lib/release-manifest.mjs`.  Each
issue is kept with the rule it reports.  `toIso` is `new Date(text).toISOString()`, and
`none` where that fails for an invalid date.
-/

namespace Orgistry.Model

open Text Json Validation

def releaseManifestKind : String := "orgistry.release-manifest"

def releaseTypes : List String := ["published", "rehearsal"]

def sourceProvenance : List String := ["commit", "working-tree"]

def migrationArtifact : String := "api-image"

def migrationEntrypoint : String := "node dist/migrate.mjs"

def artifactSmokeResults : List String := ["passed", "not-run"]

def isLowerHex (c : Char) : Bool := c.isDigit || ('a' ≤ c && c ≤ 'f')

/-- `/^[0-9a-f]{40}$/` -/
def isCommit (text : List Char) : Bool := text.length = 40 && text.all isLowerHex

/-- `/^sha256:[0-9a-f]{64}$/` -/
def isDigestText (text : List Char) : Bool :=
  text.take 7 = "sha256:".toList && (text.drop 7).length = 64 && (text.drop 7).all isLowerHex

def isHeadCharacter (c : Char) : Bool := c.isLower || c.isDigit || c = '_'

/-- `/^[0-9]{4}_[a-z0-9_]+$/` -/
def isMigrationHead (text : List Char) : Bool :=
  (text.take 4).length = 4 && (text.take 4).all Char.isDigit && (text.drop 4).head? = some '_' &&
    text.drop 5 ≠ [] && (text.drop 5).all isHeadCharacter

def isRepositoryCharacter (c : Char) : Bool := c.isLower || c.isDigit || c ∈ "._-".toList

/-- `/^[a-z0-9._:-]+(\/[a-z0-9._-]+)+$/` -/
def isRepositoryText (text : List Char) : Bool :=
  match splitOn '/' text with
  | first :: second :: rest =>
      first ≠ [] && first.all (fun c => isRepositoryCharacter c || c = ':') &&
        (second :: rest).all fun piece => piece ≠ [] && piece.all isRepositoryCharacter
  | _ => false

/-- `/^[0-9]+$/` -/
def isNumeric (text : List Char) : Bool := text ≠ [] && text.all Char.isDigit

/-- A string that matches. -/
def isText (value : Option Json) (pattern : List Char → Bool) : Bool :=
  match textOf value with
  | none => false
  | some text => pattern text

inductive ImageName
  | api
  | web
  deriving DecidableEq

def ImageName.text : ImageName → String
  | api => "api"
  | web => "web"

inductive ImageRule
  | object
  | repository
  | tag
  | digest
  | reference
  | fields
  deriving DecidableEq

inductive GateRule
  | object
  | conclusion
  | headSha
  | runId
  | workflowFile
  deriving DecidableEq

/-- The rules of a manifest; those of a gate with its index. -/
inductive ManifestRule
  | document
  | kind
  | schemaVersion
  | releaseType
  | deployable
  | commit
  | commitForm
  | ref
  | builtAt
  | builtAtForm
  | provenance
  | workingTreeDigest
  | workingTreePublished
  | unexpectedDigest
  | images
  | image (name : ImageName) (rule : ImageRule)
  | migrations
  | migrationHead
  | migrationCount
  | appliedAtMs
  | artifact
  | entrypoint
  | build
  | artifactSmoke
  | rehearsalGates
  | gates
  | gatesHeadSha
  | verifiedAt
  | required
  | gate (index : ℕ) (rule : GateRule)
  | requiredCheck (check : String)
  | credential
  deriving DecidableEq

/-- What is thrown: for an invalid date, or when a value has no text. -/
inductive Thrown
  | rangeError
  | typeError
  deriving DecidableEq

abbrev ManifestCheck := Check ManifestRule (List Char) Thrown

structure Verdict (Rule : Type) where
  valid : Bool
  issues : List (Issue Rule (List Char))

/-- Checks of what is in an object, and an issue for what is none. -/
def withObject {Rule : Type} (rule : Rule) (value : Option Json) (text : String)
    (checks : List (Check Rule (List Char) Thrown)) : List (Check Rule (List Char) Thrown) :=
  if isObject value then checks else [.plain rule true text.toList]

section Checks

variable (toIso : List Char → Option (List Char))

/-- `new Date(text).toISOString() !== text` -/
def notIso (text : List Char) : Except Thrown Bool :=
  match toIso text with
  | none => .error .rangeError
  | some iso => .ok (iso ≠ text)

/-- `typeof value !== 'string' || new Date(value).toISOString() !== value` -/
def notIsoText (value : Option Json) : Except Thrown Bool :=
  match textOf value with
  | none => .ok true
  | some text => notIso toIso text

/-- A text with a value in it. -/
def message (front : List Char) (value : Option Json) (back : List Char) :
    Except Thrown (List Char) :=
  match printed value with
  | none => .error .typeError
  | some text => .ok (front ++ text ++ back)

/-- The reference that belongs to a repository and a digest. -/
def referenceText (repository digest : Option Json) : Except Thrown (List Char) :=
  match printed repository, printed digest with
  | some repository, some digest => .ok (repository ++ '@' :: digest)
  | _, _ => .error .typeError

def unexpectedFields (image : Option Json) : List (List Char) :=
  (keys image).filter fun key =>
    !(["repository", "tag", "digest", "reference"].map String.toList).contains key

/-- `', '` between the texts. -/
def commaSeparated : List (List Char) → List Char
  | [] => []
  | [text] => text
  | text :: texts => text ++ ", ".toList ++ commaSeparated texts

def validateImage (image : Option Json) (name : ImageName) (expectedTag : Option Json) :
    List ManifestCheck :=
  let label := "images.".toList ++ name.text.toList
  let repository := get image "repository"
  let tag := get image "tag"
  let digest := get image "digest"
  let reference := get image "reference"
  withObject (.image name .object) image ("images." ++ name.text ++ " must be an object")
    ([.plain (.image name .repository) (!isText repository isRepositoryText)
        (label ++ ".repository must be a lowercase registry path (got ".toList ++
          got repository ++ [')']),
      .plain (.image name .tag) (!strictEquals tag expectedTag)
        (label ++ (".tag must equal source.commit — the image tag IS the commit SHA " ++
          "(got ").toList ++ got tag ++ [')']),
      .plain (.image name .digest) (!isText digest isDigestText)
        (label ++ ".digest must be a sha256 digest (got ".toList ++ got digest ++ [')'])] ++
    -- a digest of another form ends the validation of the image
    if !isText digest isDigestText then []
    else
      [{ rule := .image name .reference
         broken := (referenceText repository digest).map fun text =>
          !strictEquals reference (some (.string text))
         message := .ok (label ++ (".reference must be \"<repository>@<digest>\" — a deployment " ++
          "may never resolve an image by tag").toList) },
        .plain (.image name .fields) (unexpectedFields image ≠ [])
          (label ++ " carries non-identity field(s) ".toList ++
            commaSeparated (unexpectedFields image) ++
            (" — an image identity must not describe where it is " ++ "deployed").toList)])

/-- The checks of an entry of `gates.required`. -/
def validateGate (commit : Json) (index : ℕ) (gate : Option Json) : List ManifestCheck :=
  let check := get gate "check"
  withObject (.gate index .object) gate "each entry in gates.required must be an object"
    [{ rule := .gate index .conclusion
       broken := .ok (!strictEquals (get gate "conclusion") (some (.string "success".toList)))
       message := message "gate \"".toList check ("\" concluded ".toList ++
        got (get gate "conclusion") ++ "; only success authorises a release".toList) },
      { rule := .gate index .headSha
        broken := .ok (!strictEquals (get gate "headSha") (some commit))
        message := message "gate \"".toList check ("\" ran against ".toList ++
          got (get gate "headSha") ++ ", not this release's commit".toList) },
      { rule := .gate index .runId
        broken := .ok (!isText (get gate "runId") isNumeric)
        message := message "gate \"".toList check
          "\" must record the numeric GitHub run ID that produced it".toList },
      { rule := .gate index .workflowFile
        broken := .ok (nonEmptyText (get gate "workflowFile")).isNone
        message := message "gate \"".toList check
          "\" must name the workflow file it came from".toList }]

/-- `recordedChecks.has(check)` -/
def recordsCheck (required : List Json) (check : String) : Bool :=
  required.any fun gate =>
    isObject (some gate) && strictEquals (get (some gate) "check") (some (.string check.toList))

def validateRequired (commit : Json) (required : List Json) : List ManifestCheck :=
  (required.zipIdx.flatMap fun (gate, index) => validateGate commit index (some gate)) ++
    requiredGates.map fun gate =>
      .plain (.requiredCheck gate.check) (!recordsCheck required gate.check)
        ("gates.required is missing the required check \"".toList ++ gate.check.toList ++ ['"'])

def validateGates (manifest : Option Json) (releaseType : Option Json) (commit : Json) :
    List ManifestCheck :=
  let gates := get manifest "gates"
  if isOneOf releaseType ["rehearsal"] then
    [.plain .rehearsalGates gates.isSome
      ("a rehearsal manifest must not carry gate evidence — no GitHub run authorised it, and " ++
        "fabricated run identities are never acceptable").toList]
  else if !isOneOf releaseType ["published"] then []
  else withObject .gates gates
    "a published release must carry `gates` evidence for the required checks"
    ([.plain .gatesHeadSha (!strictEquals (get gates "headSha") (some commit))
        (("gates.headSha must equal source.commit — gate evidence for a different commit " ++
          "authorises nothing (got ").toList ++ got (get gates "headSha") ++ [')']),
      { rule := .verifiedAt
        broken := notIsoText toIso (get gates "verifiedAt")
        message := .ok "gates.verifiedAt must be an ISO-8601 UTC timestamp".toList }] ++
    -- without a list of checks the validation of the evidence ends
    if (items (get gates "required")).isEmpty then
      [.plain .required true
        "gates.required must list the required checks that authorised this release".toList]
    else validateRequired commit (items (get gates "required")))

/-- `requireString` returns `null` for what is no such string. -/
def requireString (rule : ManifestRule) (value : Option Json) (path label : String) :
    ManifestCheck :=
  .plain rule (nonEmptyText value).isNone
    (label ++ " (" ++ path ++ ") must be a non-empty string").toList

/-- The commit that is recorded, or `null`. -/
def recordedCommit (manifest : Option Json) : Json :=
  match nonEmptyText (get (get manifest "source") "commit") with
  | none => .null
  | some commit => .string commit

section Parts

variable (manifest : Option Json)

def releaseType : Option Json := get (get manifest "release") "type"

def identityChecks : List ManifestCheck :=
  [.plain .kind
      (!strictEquals (get manifest "kind") (some (.string releaseManifestKind.toList)))
      ("kind must be \"".toList ++ releaseManifestKind.toList ++ "\" (got ".toList ++
        got (get manifest "kind") ++ [')']),
    .plain .schemaVersion (integerOf (get manifest "schemaVersion") ≠ some 2)
      ("schemaVersion must be 2 (got ".toList ++ got (get manifest "schemaVersion") ++ [')']),
    .plain .releaseType (!isOneOf (releaseType manifest) releaseTypes)
      ("release.type must be one of ".toList ++
        commaSeparated (releaseTypes.map String.toList) ++ " (got ".toList ++
        got (releaseType manifest) ++ [')']),
    .plain .deployable (!strictEquals (get (get manifest "release") "deployable")
        (some (.bool (isOneOf (releaseType manifest) ["published"]))))
      ("release.deployable must be true for a published release and false for a rehearsal — " ++
        "the two must never disagree").toList]

def sourceChecks : List ManifestCheck :=
  let source := get manifest "source"
  let commit := get source "commit"
  let builtAt := get source "builtAt"
  let provenance := get source "provenance"
  [requireString .commit commit "source.commit" "source commit",
    .plain .commitForm ((nonEmptyText commit).any fun text => !isCommit text)
      "source.commit must be a full 40-character lowercase git SHA".toList,
    requireString .ref (get source "ref") "source.ref" "source ref",
    requireString .builtAt builtAt "source.builtAt" "build timestamp",
    { rule := .builtAtForm
      broken := match nonEmptyText builtAt with
        | none => .ok false
        | some text => notIso toIso text
      message := .ok ("source.builtAt must be an ISO-8601 UTC timestamp " ++
        "(e.g. 2026-08-24T09:00:00.000Z)").toList },
    .plain .provenance (!isOneOf provenance sourceProvenance)
      ("source.provenance must be one of ".toList ++
        commaSeparated (sourceProvenance.map String.toList) ++ " (got ".toList ++
        got provenance ++ [')'])]

def provenanceChecks : List ManifestCheck :=
  let source := get manifest "source"
  if isOneOf (get source "provenance") ["working-tree"] then
    [.plain .workingTreeDigest (!isText (get source "workingTreeDigest") isDigestText)
        ("source.workingTreeDigest must be a sha256 fingerprint of the uncommitted " ++
          "tree").toList,
      .plain .workingTreePublished (isOneOf (releaseType manifest) ["published"])
        ("a published release may not be built from a working tree — its images would not be " ++
          "the recorded commit").toList]
  else
    [.plain .unexpectedDigest (get source "workingTreeDigest").isSome
      ("source.workingTreeDigest is only meaningful when source.provenance is " ++
        "working-tree").toList]

def imagesChecks : List ManifestCheck :=
  let images := get manifest "images"
  let commit := get (get manifest "source") "commit"
  withObject .images images "images must be an object with `api` and `web` entries"
    (validateImage (get images "api") .api commit ++ validateImage (get images "web") .web commit)

def migrationsChecks : List ManifestCheck :=
  let migrations := get manifest "migrations"
  withObject .migrations migrations "migrations must be an object"
    [.plain .migrationHead (!isText (get migrations "head") isMigrationHead)
        ("migrations.head must be a migration tag such as 0012_example (got ".toList ++
          got (get migrations "head") ++ [')']),
      .plain .migrationCount ((integerOf (get migrations "count")).all (· < 1))
        "migrations.count must be a positive integer".toList,
      .plain .appliedAtMs ((integerOf (get migrations "appliedAtMs")).all (· < 1))
        ("migrations.appliedAtMs must be the head migration's journal timestamp in " ++
          "milliseconds").toList,
      .plain .artifact (!isOneOf (get migrations "artifact") [migrationArtifact])
        ("migrations.artifact must be \"" ++ migrationArtifact ++ "\" — migrations run from " ++
          "the API image, not a separate artifact").toList,
      .plain .entrypoint (!isOneOf (get migrations "entrypoint") [migrationEntrypoint])
        ("migrations.entrypoint must be \"" ++ migrationEntrypoint ++ "\"").toList]

def buildChecks : List ManifestCheck :=
  match get manifest "build" with
  | none => []
  | some build =>
      withObject .build (some build) "build, when present, must be an object"
        [.plain .artifactSmoke
          (!isOneOf (get (some build) "artifactSmoke") artifactSmokeResults)
          ("build.artifactSmoke must be one of ".toList ++
            commaSeparated (artifactSmokeResults.map String.toList) ++
            (" — it records whether the artifact gate actually ran for this " ++
              "build").toList)]

end Parts

/-- The text about what looks like a credential, and nothing if nothing does. -/
def credentialText (record : Json) (back : String) : List Char :=
  match findEmbeddedCredential record with
  | none => []
  | some credential =>
      credential.path ++ " looks like ".toList ++ credential.reason.toList ++ back.toList

def manifestChecks (manifest : Json) : List ManifestCheck :=
  identityChecks (some manifest) ++ sourceChecks toIso (some manifest) ++
    provenanceChecks (some manifest) ++ imagesChecks (some manifest) ++
    migrationsChecks (some manifest) ++ buildChecks (some manifest) ++
    validateGates toIso (some manifest) (releaseType (some manifest))
      (recordedCommit (some manifest)) ++
    [.plain .credential (findEmbeddedCredential manifest).isSome
      (credentialText manifest "; a release manifest must contain no secrets")]

def validateReleaseManifest (manifest : Json) : Except Thrown (Verdict ManifestRule) :=
  match manifest with
  | .object _ => (reportAll (manifestChecks toIso manifest)).map fun issues =>
      ⟨issues.isEmpty, issues⟩
  | _ => .ok ⟨false, [⟨.document, "manifest must be a JSON object".toList⟩]⟩

end Checks

/-! ## Building -/

structure MigrationBaseline where
  head : List Char
  count : ℕ
  appliedAtMs : List Char

/-- From the parsed journal; `none` when it throws. -/
def readMigrationBaseline (journal : Json) : Option MigrationBaseline :=
  match get (some journal) "entries" with
  | some (.array entries) =>
      match entries.getLast? with
      | none => none
      | some head =>
          match get (some head) "tag", get (some head) "when" with
          | some (.string tag), some (.number appliedAtMs) =>
              some ⟨tag, entries.length, appliedAtMs⟩
          | _, _ => none
  | _ => none

structure ImageInput where
  repository : List Char
  tag : List Char
  digest : List Char

def ImageInput.reference (image : ImageInput) : List Char :=
  image.repository ++ '@' :: image.digest

def buildImageIdentity (image : ImageInput) : Json :=
  .object [("repository".toList, .string image.repository), ("tag".toList, .string image.tag),
    ("digest".toList, .string image.digest), ("reference".toList, .string image.reference)]

structure ReleaseInputs where
  releaseType : List Char
  provenance : List Char
  commit : List Char
  ref : List Char
  builtAt : List Char
  workingTreeDigest : Option (List Char)
  api : ImageInput
  web : ImageInput
  gates : Option Json
  build : Option Json
  journal : Json

/-- A member for a value that is there. -/
def optionalMember (name : String) (value : Option Json) : List (List Char × Json) :=
  (value.map fun value => (name.toList, value)).toList

/-- `none` when reading the journal throws. -/
def buildReleaseManifest (inputs : ReleaseInputs) : Option Json :=
  (readMigrationBaseline inputs.journal).map fun baseline =>
    .object (
      [("schemaVersion".toList, .number ['2']),
        ("kind".toList, .string releaseManifestKind.toList),
        ("release".toList, .object [("type".toList, .string inputs.releaseType),
          ("deployable".toList, .bool (inputs.releaseType = "published".toList))]),
        ("source".toList, .object (
          [("provenance".toList, .string inputs.provenance),
            ("commit".toList, .string inputs.commit), ("ref".toList, .string inputs.ref),
            ("builtAt".toList, .string inputs.builtAt)] ++
          optionalMember "workingTreeDigest" (inputs.workingTreeDigest.map .string))),
        ("images".toList, .object [("api".toList, buildImageIdentity inputs.api),
          ("web".toList, buildImageIdentity inputs.web)]),
        ("migrations".toList, .object [("head".toList, .string baseline.head),
          ("count".toList, .number (decimal baseline.count)),
          ("appliedAtMs".toList, .number baseline.appliedAtMs),
          ("artifact".toList, .string migrationArtifact.toList),
          ("entrypoint".toList, .string migrationEntrypoint.toList)])] ++
      optionalMember "gates" inputs.gates ++ optionalMember "build" inputs.build)

end Orgistry.Model
