import Orgistry.Deployments.RecordValidator

/-!
# The rules for release manifests

What it means for a manifest to break a rule, what the validator cannot report, and at
what it fails.
-/

namespace Orgistry.Deployments

open Text Json Model Validation

section Manifests

variable (toIso : List Char → Option (List Char)) (manifest : Option Json)

def Published : Prop := isOneOf (releaseType manifest) ["published"]

/-- `source.commit` as it is written. -/
def sourceCommit : Option Json := get (get manifest "source") "commit"

def imageOf (name : ImageName) : Option Json := get (get manifest "images") name.text

/-- The reference of an image is `<repository>@<digest>`. -/
def IsReference (image : Option Json) : Prop :=
  ∃ text, referenceText (get image "repository") (get image "digest") = .ok text ∧
    strictEquals (get image "reference") (some (.string text))

/-- What it means for an image to break a rule. -/
def BreaksImage (image : Option Json) : ImageRule → Prop
  | .object => ¬isObject image
  | .repository => isObject image ∧ ¬isText (get image "repository") isRepositoryText
  | .tag => isObject image ∧ ¬strictEquals (get image "tag") (sourceCommit manifest)
  | .digest => isObject image ∧ ¬isText (get image "digest") isDigestText
  | .reference => isObject image ∧ ¬IsReference image
  | .fields => isObject image ∧ unexpectedFields image ≠ []

/-- The entries of `gates.required`. -/
def requiredEntries : List Json := items (get (get manifest "gates") "required")

/-- What it means for an entry to break a rule. -/
def BreaksGate (gate : Option Json) : GateRule → Prop
  | .object => ¬isObject gate
  | .conclusion => isObject gate ∧
      ¬strictEquals (get gate "conclusion") (some (.string "success".toList))
  | .headSha => isObject gate ∧ ¬strictEquals (get gate "headSha") (sourceCommit manifest)
  | .runId => isObject gate ∧ ¬isText (get gate "runId") isNumeric
  | .workflowFile => isObject gate ∧ nonEmptyText (get gate "workflowFile") = none

/-- What it means for a manifest, an object, to break a rule. -/
def BreaksManifest : ManifestRule → Prop
  | .document => False
  | .kind => ¬strictEquals (get manifest "kind") (some (.string releaseManifestKind.toList))
  | .schemaVersion => integerOf (get manifest "schemaVersion") ≠ some 2
  | .releaseType => ¬isOneOf (releaseType manifest) releaseTypes
  | .deployable => ¬strictEquals (get (get manifest "release") "deployable")
      (some (.bool (isOneOf (releaseType manifest) ["published"])))
  | .commit => nonEmptyText (sourceCommit manifest) = none
  | .commitForm => ∃ text, nonEmptyText (sourceCommit manifest) = some text ∧ ¬isCommit text
  | .ref => nonEmptyText (get (get manifest "source") "ref") = none
  | .builtAt => nonEmptyText (get (get manifest "source") "builtAt") = none
  | .builtAtForm => ∃ text, nonEmptyText (get (get manifest "source") "builtAt") = some text ∧
      toIso text ≠ some text
  | .provenance => ¬isOneOf (get (get manifest "source") "provenance") sourceProvenance
  | .workingTreeDigest => isOneOf (get (get manifest "source") "provenance") ["working-tree"] ∧
      ¬isText (get (get manifest "source") "workingTreeDigest") isDigestText
  | .workingTreePublished =>
      isOneOf (get (get manifest "source") "provenance") ["working-tree"] ∧ Published manifest
  | .unexpectedDigest => ¬isOneOf (get (get manifest "source") "provenance") ["working-tree"] ∧
      (get (get manifest "source") "workingTreeDigest").isSome
  | .images => ¬isObject (get manifest "images")
  | .image name rule => isObject (get manifest "images") ∧
      BreaksImage manifest (imageOf manifest name) rule
  | .migrations => ¬isObject (get manifest "migrations")
  | .migrationHead => isObject (get manifest "migrations") ∧
      ¬isText (get (get manifest "migrations") "head") isMigrationHead
  | .migrationCount => isObject (get manifest "migrations") ∧
      ∀ count ∈ integerOf (get (get manifest "migrations") "count"), count < 1
  | .appliedAtMs => isObject (get manifest "migrations") ∧
      ∀ time ∈ integerOf (get (get manifest "migrations") "appliedAtMs"), time < 1
  | .artifact => isObject (get manifest "migrations") ∧
      ¬isOneOf (get (get manifest "migrations") "artifact") [migrationArtifact]
  | .entrypoint => isObject (get manifest "migrations") ∧
      ¬isOneOf (get (get manifest "migrations") "entrypoint") [migrationEntrypoint]
  | .build => ∃ build, get manifest "build" = some build ∧ ¬isObject (some build)
  | .artifactSmoke => ∃ build, get manifest "build" = some build ∧ isObject (some build) ∧
      ¬isOneOf (get (some build) "artifactSmoke") artifactSmokeResults
  | .rehearsalGates => isOneOf (releaseType manifest) ["rehearsal"] ∧
      (get manifest "gates").isSome
  | .gates => Published manifest ∧ ¬isObject (get manifest "gates")
  | .gatesHeadSha => Published manifest ∧ isObject (get manifest "gates") ∧
      ¬strictEquals (get (get manifest "gates") "headSha") (sourceCommit manifest)
  | .verifiedAt => Published manifest ∧ isObject (get manifest "gates") ∧
      ¬IsIso toIso (get (get manifest "gates") "verifiedAt")
  | .required => Published manifest ∧ isObject (get manifest "gates") ∧
      requiredEntries manifest = []
  | .gate index rule => Published manifest ∧ isObject (get manifest "gates") ∧
      ∃ gate, (requiredEntries manifest)[index]? = some gate ∧
        BreaksGate manifest (some gate) rule
  | .requiredCheck check => Published manifest ∧ isObject (get manifest "gates") ∧
      check ∈ requiredGates.map RequiredGate.check ∧
      ¬recordsCheck (requiredEntries manifest) check
  | .credential => ∃ document, manifest = some document ∧
      (findEmbeddedCredential document).isSome

/-- What a manifest breaks; one that is no object only the first rule. -/
def BrokenManifestRule (manifest : Json) (rule : ManifestRule) : Prop :=
  match manifest with
  | .object _ => BreaksManifest toIso (some manifest) rule
  | _ => rule = .document

/-- The value does not make a template literal fail. -/
def HasText (value : Option Json) : Prop := (printed value).isSome

/-- The checks of an image come to an end and leave nothing out. -/
structure ImageReportable (image : Option Json) : Prop where
  repository : isText (get image "digest") isDigestText → HasText (get image "repository")
  digest : ¬isText (get image "digest") isDigestText →
    IsReference image ∧ unexpectedFields image = []

/-- There is nothing to report about an entry, for the commit that is recorded. -/
structure GateQuiet (gate : Option Json) : Prop where
  conclusion : strictEquals (get gate "conclusion") (some (.string "success".toList))
  headSha : strictEquals (get gate "headSha") (some (recordedCommit manifest))
  runId : isText (get gate "runId") isNumeric
  workflowFile : nonEmptyText (get gate "workflowFile") ≠ none

/-- The evidence of a published release can be reported on. -/
structure GatesReportable : Prop where
  verifiedAt : NoInvalidDate toIso (get (get manifest "gates") "verifiedAt")
  required : requiredEntries manifest ≠ []
  check : ∀ gate ∈ requiredEntries manifest, isObject (some gate) →
    HasText (get (some gate) "check") ∨ GateQuiet manifest (some gate)
  commit : nonEmptyText (sourceCommit manifest) = none → ¬isNull (sourceCommit manifest) →
    ¬isNull (get (get manifest "gates") "headSha") ∧
      ∀ gate ∈ requiredEntries manifest, isObject (some gate) →
        ¬isNull (get (some gate) "headSha")

/-- When the validator of manifests comes to a verdict that names every broken rule. -/
structure ManifestReportable : Prop where
  builtAt : ∀ text, nonEmptyText (get (get manifest "source") "builtAt") = some text →
    (toIso text).isSome
  image : isObject (get manifest "images") → ∀ name, isObject (imageOf manifest name) →
    ImageReportable (imageOf manifest name)
  gates : Published manifest → isObject (get manifest "gates") → GatesReportable toIso manifest

end Manifests

section Complete

variable {toIso : List Char → Option (List Char)} {manifest image gate : Option Json}

theorem completes_identity : ∀ check ∈ identityChecks manifest, check.Completes := by
  unfold identityChecks
  simp only [List.forall_mem_cons, completes_plain, true_and, List.not_mem_nil, false_imp_iff,
    implies_true]

theorem completes_source : (∀ check ∈ sourceChecks toIso manifest, check.Completes) ↔
    ∀ text, nonEmptyText (get (get manifest "source") "builtAt") = some text →
      (toIso text).isSome := by
  unfold sourceChecks requireString
  simp only [List.forall_mem_cons, completes_plain, List.not_mem_nil, false_imp_iff, implies_true,
    and_true, true_and]
  cases nonEmptyText (get (get manifest "source") "builtAt") with
  | none => exact iff_of_true (Or.inl rfl) nofun
  | some text =>
      dsimp only
      rw [completes_notIso_iff]
      simp

theorem completes_provenance : ∀ check ∈ provenanceChecks manifest, check.Completes := by
  unfold provenanceChecks
  dsimp only
  split <;>
    simp only [List.forall_mem_cons, completes_plain, true_and, List.not_mem_nil, false_imp_iff,
      implies_true]

/-- The text of a digest can always be printed, that of a repository has to be. -/
theorem referenceText_eq_ok_iff (hdigest : isText (get image "digest") isDigestText) :
    (∃ text, referenceText (get image "repository") (get image "digest") = .ok text) ↔
      HasText (get image "repository") := by
  obtain ⟨digest, hdigest⟩ : ∃ digest, printed (get image "digest") = some digest := by
    unfold isText textOf at hdigest
    split at hdigest
    · cases hdigest
    · next htext =>
        split at htext
        · next h =>
            rw [h]
            exact ⟨_, rfl⟩
        · cases htext
  unfold referenceText HasText
  rw [hdigest]
  cases printed (get image "repository") with
  | none => simp
  | some repository => exact iff_of_true ⟨_, rfl⟩ rfl

theorem completes_reference_iff {Rule : Type} {rule : Rule} {message : List Char}
    (hdigest : isText (get image "digest") isDigestText) :
    (⟨rule, (referenceText (get image "repository") (get image "digest")).map fun text =>
        !strictEquals (get image "reference") (some (.string text)), .ok message⟩ :
      Check Rule (List Char) Thrown).Completes ↔ HasText (get image "repository") := by
  rw [← referenceText_eq_ok_iff hdigest]
  unfold Check.Completes
  cases referenceText (get image "repository") (get image "digest") with
  | error e => simp [Except.map]
  | ok text =>
      refine iff_of_true ?_ ⟨text, rfl⟩
      dsimp only [Except.map]
      cases !strictEquals (get image "reference") (some (.string text)) with
      | false => exact Or.inl rfl
      | true => exact Or.inr ⟨rfl, message, rfl⟩

/-- Only the expected reference is printed. -/
theorem completes_image {name : ImageName} {commit : Option Json} :
    (∀ check ∈ validateImage image name commit, check.Completes) ↔
      (isObject image → isText (get image "digest") isDigestText →
        HasText (get image "repository")) := by
  unfold validateImage
  rw [completes_withObject]
  refine forall_congr' fun _ => ?_
  rw [List.forall_mem_append]
  simp only [List.forall_mem_cons, completes_plain, List.not_mem_nil, false_imp_iff, implies_true,
    and_true, true_and]
  by_cases hdigest : isText (get image "digest") isDigestText
  · rw [if_neg (by rw [hdigest]; exact Bool.false_ne_true)]
    simp only [List.forall_mem_cons, completes_plain, completes_reference_iff hdigest, hdigest,
      List.not_mem_nil, false_imp_iff, implies_true, and_true, true_imp_iff]
  · rw [if_pos (not_eq_true hdigest)]
    exact iff_of_true nofun fun h => absurd h hdigest

theorem completes_images : (∀ check ∈ imagesChecks manifest, check.Completes) ↔
    (isObject (get manifest "images") → ∀ name, isObject (imageOf manifest name) →
      isText (get (imageOf manifest name) "digest") isDigestText →
        HasText (get (imageOf manifest name) "repository")) := by
  unfold imagesChecks
  simp only [completes_withObject, List.forall_mem_append, completes_image]
  refine forall_congr' fun _ => ⟨?_, ?_⟩
  · rintro ⟨hapi, hweb⟩ name
    cases name with
    | api => exact hapi
    | web => exact hweb
  · exact fun h => ⟨h .api, h .web⟩

theorem completes_migrations : ∀ check ∈ migrationsChecks manifest, check.Completes := by
  unfold migrationsChecks
  rw [completes_withObject]
  intro _
  simp only [List.forall_mem_cons, completes_plain, true_and, List.not_mem_nil, false_imp_iff,
    implies_true]

theorem completes_build : ∀ check ∈ buildChecks manifest, check.Completes := by
  unfold buildChecks
  split
  · exact nofun
  · rw [completes_withObject]
    intro _
    simp only [List.forall_mem_cons, completes_plain, true_and, List.not_mem_nil, false_imp_iff,
      implies_true]

theorem completes_message_iff {Rule : Type} {rule : Rule} {broken : Bool} {value : Option Json}
    {front back : List Char} :
    (⟨rule, .ok broken, message front value back⟩ :
      Check Rule (List Char) Thrown).Completes ↔ (broken = true → HasText value) := by
  unfold Check.Completes message HasText
  cases broken with
  | false => simp
  | true => cases printed value <;> simp

/-- Only the name of the check is printed. -/
theorem completes_gate {index : ℕ} :
    (∀ check ∈ validateGate (recordedCommit manifest) index gate, check.Completes) ↔
      (isObject gate → HasText (get gate "check") ∨ GateQuiet manifest gate) := by
  unfold validateGate
  simp only [completes_withObject, List.forall_mem_cons, completes_message_iff, List.not_mem_nil,
    false_imp_iff, implies_true, and_true]
  refine forall_congr' fun _ => ⟨?_, ?_⟩
  · rintro ⟨hconclusion, hheadSha, hrunId, hworkflowFile⟩
    by_cases htext : HasText (get gate "check")
    · exact Or.inl htext
    · refine Or.inr ⟨?_, ?_, ?_, ?_⟩
      · by_contra h
        exact htext (hconclusion (not_eq_true h))
      · by_contra h
        exact htext (hheadSha (not_eq_true h))
      · by_contra h
        exact htext (hrunId (not_eq_true h))
      · exact fun h => htext (hworkflowFile (isNone_eq_true h))
  · rintro (htext | hquiet)
    · exact ⟨fun _ => htext, fun _ => htext, fun _ => htext, fun _ => htext⟩
    · refine ⟨fun h => ?_, fun h => ?_, fun h => ?_, fun h => ?_⟩
      · rw [hquiet.conclusion] at h
        cases h
      · rw [hquiet.headSha] at h
        cases h
      · rw [hquiet.runId] at h
        cases h
      · exact absurd (Option.isNone_iff_eq_none.mp h) hquiet.workflowFile

/-- The messages about an entry print its check. -/
theorem completes_required {required : List Json} :
    (∀ check ∈ validateRequired (recordedCommit manifest) required, check.Completes) ↔
      ∀ gate ∈ required, isObject (some gate) →
        HasText (get (some gate) "check") ∨ GateQuiet manifest (some gate) := by
  unfold validateRequired
  simp only [List.forall_mem_append, List.forall_mem_map, completes_plain, implies_true, and_true]
  constructor
  · intro h gate hgate
    obtain ⟨index, hindex⟩ := List.mem_iff_getElem?.mp hgate
    refine completes_gate.mp fun check hcheck =>
      h check (List.mem_flatMap.mpr ⟨(gate, index), ?_, hcheck⟩)
    exact List.mk_mem_zipIdx_iff_getElem?.mpr hindex
  · intro h check hcheck
    obtain ⟨⟨gate, index⟩, hpair, hcheck⟩ := List.mem_flatMap.mp hcheck
    exact completes_gate.mpr (h gate (List.fst_mem_of_mem_zipIdx hpair)) check hcheck

theorem isOneOf_singleton_iff {value : Option Json} {text : String} :
    isOneOf value [text] ↔ value = some (.string text.toList) := by
  rw [isOneOf_iff]
  simp only [List.mem_singleton, exists_eq_left]

/-- A release has one type. -/
theorem not_rehearsal (h : Published manifest) :
    ¬isOneOf (releaseType manifest) ["rehearsal"] := by
  rw [Published, isOneOf_singleton_iff] at h
  rw [isOneOf_singleton_iff, h]
  intro htext
  exact absurd (Json.string.inj (Option.some.inj htext)) (by decide)

/-- The checks of the evidence of a published release. -/
theorem validateGates_published (h : Published manifest) :
    validateGates toIso manifest (releaseType manifest) (recordedCommit manifest) =
      withObject .gates (get manifest "gates")
        "a published release must carry `gates` evidence for the required checks"
        ([.plain .gatesHeadSha
            (!strictEquals (get (get manifest "gates") "headSha")
              (some (recordedCommit manifest)))
            (("gates.headSha must equal source.commit — gate evidence for a different commit " ++
              "authorises nothing (got ").toList ++ got (get (get manifest "gates") "headSha") ++
              [')']),
          { rule := .verifiedAt
            broken := notIsoText toIso (get (get manifest "gates") "verifiedAt")
            message := .ok "gates.verifiedAt must be an ISO-8601 UTC timestamp".toList }] ++
        if (requiredEntries manifest).isEmpty then
          [.plain .required true
            "gates.required must list the required checks that authorised this release".toList]
        else validateRequired (recordedCommit manifest) (requiredEntries manifest)) := by
  unfold validateGates
  dsimp only
  rw [if_neg (not_rehearsal h), if_neg (by rw [h]; exact Bool.false_ne_true)]
  rfl

/-- The evidence of gates is gone through without a throw. -/
theorem completes_gates :
    (∀ check ∈ validateGates toIso manifest (releaseType manifest) (recordedCommit manifest),
      check.Completes) ↔
    (Published manifest → isObject (get manifest "gates") →
      NoInvalidDate toIso (get (get manifest "gates") "verifiedAt") ∧
      ∀ gate ∈ requiredEntries manifest, isObject (some gate) →
        HasText (get (some gate) "check") ∨ GateQuiet manifest (some gate)) := by
  by_cases hpublished : Published manifest
  · rw [validateGates_published hpublished, completes_withObject]
    simp only [hpublished, true_imp_iff]
    refine forall_congr' fun _ => ?_
    rw [List.forall_mem_append]
    simp only [List.forall_mem_cons, completes_plain, completes_notIsoText_iff, List.not_mem_nil,
      false_imp_iff, implies_true, and_true, true_and]
    refine and_congr_right fun _ => ?_
    cases hrequired : requiredEntries manifest with
    | nil => exact iff_of_true (by simp [completes_plain]) nofun
    | cons gate more => exact completes_required
  · refine iff_of_true ?_ fun h => absurd h hpublished
    unfold validateGates
    dsimp only
    split
    · simp only [List.forall_mem_cons, completes_plain, List.not_mem_nil, false_imp_iff,
        implies_true, and_true]
    · rw [if_pos (not_eq_true hpublished)]
      exact nofun

/-- The validator fails at dates and at values without text, and at nothing else. -/
theorem completes_manifest_iff {document : Json} :
    (∀ check ∈ manifestChecks toIso document, check.Completes) ↔
      (∀ text, nonEmptyText (get (get (some document) "source") "builtAt") = some text →
        (toIso text).isSome) ∧
      (isObject (get (some document) "images") → ∀ name,
        isObject (imageOf (some document) name) →
          isText (get (imageOf (some document) name) "digest") isDigestText →
            HasText (get (imageOf (some document) name) "repository")) ∧
      (Published (some document) → isObject (get (some document) "gates") →
        NoInvalidDate toIso (get (get (some document) "gates") "verifiedAt") ∧
        ∀ gate ∈ requiredEntries (some document), isObject (some gate) →
          HasText (get (some gate) "check") ∨ GateQuiet (some document) (some gate)) := by
  unfold manifestChecks
  simp only [List.forall_mem_append, completes_source, completes_images, completes_gates,
    List.forall_mem_cons, completes_plain, List.not_mem_nil, false_imp_iff, implies_true, and_true]
  constructor
  · rintro ⟨⟨⟨⟨⟨⟨-, hsource⟩, -⟩, himages⟩, -⟩, -⟩, hgates⟩
    exact ⟨hsource, himages, hgates⟩
  · rintro ⟨hsource, himages, hgates⟩
    exact ⟨⟨⟨⟨⟨⟨completes_identity, hsource⟩, completes_provenance⟩, himages⟩,
      completes_migrations⟩, completes_build⟩, hgates⟩

end Complete

end Orgistry.Deployments
