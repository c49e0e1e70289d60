import Orgistry.Deployments.CredentialUrls
import Orgistry.Deployments.ManifestValidator

/-!
# Deployable releases

What an accepted manifest of a deployable release states, exactly, and that a release
whose gates are satisfied can be given such a manifest.
-/

namespace Orgistry.Deployments

open Text Json Model Validation

def Accepts (toIso : List Char → Option (List Char)) (manifest : Json) : Prop :=
  ∃ verdict, validateReleaseManifest toIso manifest = .ok verdict ∧ verdict.valid

/-- The document says that it is deployable. -/
def SaysDeployable (manifest : Json) : Prop :=
  get (get (some manifest) "release") "deployable" = some (.bool true)

/-- The image is pinned by its digest, and its tag is the commit. -/
structure ImagePinned (image : Option Json) (commit : List Char) : Prop where
  object : isObject image
  tag : get image "tag" = some (.string commit)
  reference : ∃ repository digest, isRepositoryText repository ∧ isDigestText digest ∧
    get image "repository" = some (.string repository) ∧
    get image "digest" = some (.string digest) ∧
    get image "reference" = some (.string (repository ++ '@' :: digest))
  fields : unexpectedFields image = []

/-- The check succeeded for the commit. -/
structure GateSucceeded (gate : Option Json) (commit : List Char) : Prop where
  object : isObject gate
  conclusion : get gate "conclusion" = some (.string "success".toList)
  headSha : get gate "headSha" = some (.string commit)
  runId : isText (get gate "runId") isNumeric
  workflowFile : nonEmptyText (get gate "workflowFile") ≠ none

/-- All required checks succeeded for the commit. -/
structure GatesSucceeded (toIso : List Char → Option (List Char)) (manifest : Option Json)
    (commit : List Char) : Prop where
  object : isObject (get manifest "gates")
  headSha : get (get manifest "gates") "headSha" = some (.string commit)
  verifiedAt : IsIso toIso (get (get manifest "gates") "verifiedAt")
  ne_nil : requiredEntries manifest ≠ []
  succeeded : ∀ gate ∈ requiredEntries manifest, GateSucceeded (some gate) commit
  required : ∀ required ∈ requiredGates, ∃ gate ∈ requiredEntries manifest,
    get (some gate) "check" = some (.string required.check.toList)

/-- The migrations are described. -/
structure MigrationsDescribed (migrations : Option Json) : Prop where
  object : isObject migrations
  head : isText (get migrations "head") isMigrationHead
  count : ∃ n ∈ integerOf (get migrations "count"), 1 ≤ n
  appliedAtMs : ∃ n ∈ integerOf (get migrations "appliedAtMs"), 1 ≤ n
  artifact : get migrations "artifact" = some (.string migrationArtifact.toList)
  entrypoint : get migrations "entrypoint" = some (.string migrationEntrypoint.toList)

/-- A manifest for a deployable release of a commit. -/
structure Deployable (toIso : List Char → Option (List Char)) (manifest : Json)
    (commit : List Char) : Prop where
  kind : get (some manifest) "kind" = some (.string releaseManifestKind.toList)
  schemaVersion : integerOf (get (some manifest) "schemaVersion") = some 2
  published : releaseType (some manifest) = some (.string "published".toList)
  deployable : SaysDeployable manifest
  source : sourceCommit (some manifest) = some (.string commit)
  commitForm : isCommit commit
  ref : nonEmptyText (get (get (some manifest) "source") "ref") ≠ none
  builtAt : ∃ text, nonEmptyText (get (get (some manifest) "source") "builtAt") = some text ∧
    toIso text = some text
  provenance : get (get (some manifest) "source") "provenance" =
    some (.string "commit".toList)
  unmodified : get (get (some manifest) "source") "workingTreeDigest" = none
  images : isObject (get (some manifest) "images")
  image : ∀ name, ImagePinned (imageOf (some manifest) name) commit
  migrations : MigrationsDescribed (get (some manifest) "migrations")
  build : ∀ build, get (some manifest) "build" = some build → isObject (some build) ∧
    isOneOf (get (some build) "artifactSmoke") artifactSmokeResults
  gates : GatesSucceeded toIso (some manifest) commit
  noCredential : findEmbeddedCredential manifest = none

section Parts

variable {toIso : List Char → Option (List Char)} {manifest image gate migrations : Option Json}
  {commit : List Char} {name : ImageName}

theorem unbroken_withObject {Rule : Type} {rule : Rule} {value : Option Json} {text : String}
    {checks : List (Check Rule (List Char) Thrown)} :
    Unbroken (withObject rule value text checks) ↔ isObject value ∧ Unbroken checks := by
  unfold withObject
  split
  · next h => simp [h]
  · next h =>
      refine iff_of_false (fun hunbroken => ?_) fun hobject => h hobject.1
      cases hunbroken _ List.mem_cons_self

theorem not_eq_false_iff {b : Bool} : (!b) = false ↔ b = true := by
  cases b <;> simp

theorem notIso_eq_false_iff {text : List Char} :
    notIso toIso text = .ok false ↔ toIso text = some text := by
  unfold notIso
  cases toIso text with
  | none => simp
  | some iso => simp

theorem notIsoText_eq_false_iff {value : Option Json} :
    notIsoText toIso value = .ok false ↔ IsIso toIso value := by
  unfold notIsoText IsIso
  cases textOf value with
  | none => simp
  | some text => simp [notIso_eq_false_iff]

theorem isText_iff {value : Option Json} {pattern : List Char → Bool} :
    isText value pattern ↔ ∃ text, value = some (.string text) ∧ pattern text := by
  unfold isText textOf
  cases value with
  | none => simp
  | some value => cases value <;> simp

/-- An image without findings is pinned. -/
theorem unbroken_image : Unbroken (validateImage image name (some (.string commit))) ↔
    ImagePinned image commit := by
  unfold validateImage
  rw [unbroken_withObject, unbroken_append]
  simp only [unbroken_cons, plain_unbroken_iff, not_eq_false_iff, strictEquals_string_iff,
    and_iff_left unbroken_nil]
  constructor
  · rintro ⟨hobject, ⟨hrepository, htag, hdigest⟩, hrest⟩
    rw [if_neg (by rw [hdigest]; exact Bool.false_ne_true)] at hrest
    simp only [unbroken_cons, plain_unbroken_iff, and_iff_left unbroken_nil] at hrest
    obtain ⟨repository, hrepository, hrepositoryText⟩ := isText_iff.mp hrepository
    obtain ⟨digest, hdigest, hdigestText⟩ := isText_iff.mp hdigest
    refine ⟨hobject, htag, ⟨repository, digest, hrepositoryText, hdigestText, hrepository, hdigest,
      ?_⟩, by simpa using hrest.2⟩
    have hreference := hrest.1
    rw [hrepository, hdigest] at hreference
    exact strictEquals_string_iff.mp (not_eq_false_iff.mp (Except.ok.inj hreference))
  · rintro ⟨hobject, htag, ⟨repository, digest, hrepositoryText, hdigestText, hrepository, hdigest,
      hreference⟩, hfields⟩
    have hdigestIs := isText_iff.mpr ⟨digest, hdigest, hdigestText⟩
    refine ⟨hobject, ⟨isText_iff.mpr ⟨repository, hrepository, hrepositoryText⟩, htag, hdigestIs⟩,
      ?_⟩
    rw [if_neg (by rw [hdigestIs]; exact Bool.false_ne_true)]
    simp only [unbroken_cons, plain_unbroken_iff, and_iff_left unbroken_nil]
    refine ⟨?_, by simpa using hfields⟩
    rw [hrepository, hdigest, hreference]
    exact congrArg Except.ok (not_eq_false_iff.mpr (strictEquals_string_iff.mpr rfl))

theorem unbroken_gate {index : ℕ} :
    Unbroken (validateGate (.string commit) index gate) ↔ GateSucceeded gate commit := by
  unfold validateGate
  rw [unbroken_withObject]
  simp only [unbroken_cons, Except.ok.injEq, not_eq_false_iff, strictEquals_string_iff,
    and_iff_left unbroken_nil, Option.isNone_eq_false_iff, Option.isSome_iff_ne_none]
  exact ⟨fun ⟨hobject, hconclusion, hheadSha, hrunId, hfile⟩ =>
    ⟨hobject, hconclusion, hheadSha, hrunId, hfile⟩,
    fun h => ⟨h.object, h.conclusion, h.headSha, h.runId, h.workflowFile⟩⟩

theorem all_eq_false_iff {value : Option ℤ} :
    value.all (· < 1) = false ↔ ∃ n ∈ value, 1 ≤ n := by
  cases value with
  | none => simp
  | some n => simp

theorem unbroken_migrations : Unbroken (migrationsChecks manifest) ↔
    MigrationsDescribed (get manifest "migrations") := by
  unfold migrationsChecks
  rw [unbroken_withObject]
  simp only [unbroken_cons, plain_unbroken_iff, not_eq_false_iff, isOneOf_singleton_iff,
    all_eq_false_iff, and_iff_left unbroken_nil]
  exact ⟨fun ⟨hobject, hhead, hcount, htime, hartifact, hentrypoint⟩ =>
    ⟨hobject, hhead, hcount, htime, hartifact, hentrypoint⟩,
    fun h => ⟨h.object, h.head, h.count, h.appliedAtMs, h.artifact, h.entrypoint⟩⟩

theorem recordsCheck_iff {required : List Json} {check : String}
    (hobjects : ∀ gate ∈ required, isObject (some gate)) :
    recordsCheck required check ↔
      ∃ gate ∈ required, get (some gate) "check" = some (.string check.toList) := by
  unfold recordsCheck
  rw [List.any_eq_true]
  refine exists_congr fun gate => and_congr_right fun hgate => ?_
  rw [Bool.and_eq_true, and_iff_right (hobjects gate hgate), strictEquals_string_iff]

theorem unbroken_entries {required : List Json} {start : ℕ} :
    Unbroken ((required.zipIdx start).flatMap fun (gate, index) =>
        validateGate (.string commit) index (some gate)) ↔
      ∀ gate ∈ required, GateSucceeded (some gate) commit := by
  induction required generalizing start with
  | nil => exact iff_of_true unbroken_nil nofun
  | cons gate required ih =>
      rw [List.zipIdx_cons, List.flatMap_cons, unbroken_append, unbroken_gate, ih,
        List.forall_mem_cons]

theorem unbroken_required {required : List Json} :
    Unbroken (validateRequired (.string commit) required) ↔
      (∀ gate ∈ required, GateSucceeded (some gate) commit) ∧
        ∀ gate ∈ requiredGates, ∃ entry ∈ required,
          get (some entry) "check" = some (.string gate.check.toList) := by
  unfold validateRequired
  rw [unbroken_append, unbroken_entries]
  refine and_congr_right fun hsucceeded => ?_
  unfold Validation.Unbroken
  rw [List.forall_mem_map]
  refine forall₂_congr fun gate _ => ?_
  rw [plain_unbroken_iff, not_eq_false_iff,
    recordsCheck_iff fun entry hentry => (hsucceeded entry hentry).object]

/-- Gates without findings have succeeded for the commit. -/
theorem unbroken_gates (hpublished : Published manifest)
    (hcommit : recordedCommit manifest = .string commit) :
    Unbroken (validateGates toIso manifest (releaseType manifest) (recordedCommit manifest)) ↔
      GatesSucceeded toIso manifest commit := by
  rw [validateGates_published hpublished, unbroken_withObject, unbroken_append, hcommit]
  simp only [unbroken_cons, plain_unbroken_iff, not_eq_false_iff, strictEquals_string_iff,
    notIsoText_eq_false_iff, and_iff_left unbroken_nil]
  constructor
  · rintro ⟨hobject, ⟨hheadSha, hdate⟩, hrequired⟩
    split at hrequired
    · cases (unbroken_cons.mp hrequired).1
    · next hne =>
        obtain ⟨hsucceeded, hall⟩ := unbroken_required.mp hrequired
        exact ⟨hobject, hheadSha, hdate, fun h => hne (List.isEmpty_iff.mpr h), hsucceeded, hall⟩
  · intro h
    refine ⟨h.object, ⟨h.headSha, h.verifiedAt⟩, ?_⟩
    rw [if_neg fun hempty => h.ne_nil (List.isEmpty_iff.mp hempty)]
    exact unbroken_required.mpr ⟨h.succeeded, h.required⟩

theorem strictEquals_bool_iff {value : Option Json} {b : Bool} :
    strictEquals value (some (.bool b)) ↔ value = some (.bool b) := by
  constructor
  · intro h
    unfold strictEquals at h
    split at h <;> simp_all
  · rintro rfl
    exact decide_eq_true rfl

theorem nonEmptyText_string {text : List Char} (h : text ≠ []) :
    nonEmptyText (some (.string text)) = some text := by
  cases text with
  | nil => cases h rfl
  | cons c text => rfl

theorem ne_nil_of_isCommit {text : List Char} (h : isCommit text) : text ≠ [] := by
  rintro rfl
  cases h

theorem recordedCommit_eq (hsource : sourceCommit manifest = some (.string commit))
    (hcommit : isCommit commit) : recordedCommit manifest = .string commit := by
  unfold sourceCommit at hsource
  unfold recordedCommit
  rw [hsource, nonEmptyText_string (ne_nil_of_isCommit hcommit)]

/-- What a deployable release says of itself. -/
theorem unbroken_identity
    (hdeployable : get (get manifest "release") "deployable" = some (.bool true)) :
    Unbroken (identityChecks manifest) ↔
      get manifest "kind" = some (.string releaseManifestKind.toList) ∧
        integerOf (get manifest "schemaVersion") = some 2 ∧ Published manifest := by
  unfold identityChecks Published
  simp only [unbroken_cons, plain_unbroken_iff, not_eq_false_iff, strictEquals_string_iff,
    strictEquals_bool_iff, hdeployable, and_iff_left unbroken_nil, decide_eq_false_iff_not,
    not_not]
  refine and_congr_right fun _ => and_congr_right fun _ => ?_
  constructor
  · rintro ⟨-, hpublished⟩
    injection hpublished with hpublished
    injection hpublished with hpublished
    exact hpublished.symm
  · intro hpublished
    rw [isOneOf_singleton_iff] at hpublished
    rw [isOneOf_iff, isOneOf_singleton_iff.mpr hpublished]
    exact ⟨⟨"published", List.mem_cons_self, hpublished⟩, rfl⟩

theorem recorded_form_iff :
    (nonEmptyText (sourceCommit manifest) ≠ none ∧
      (nonEmptyText (sourceCommit manifest)).any (fun text => !isCommit text) = false) ↔
    ∃ commit, sourceCommit manifest = some (.string commit) ∧ isCommit commit := by
  constructor
  · rintro ⟨hnonempty, hform⟩
    obtain ⟨commit, hcommit⟩ := Option.ne_none_iff_exists'.mp hnonempty
    rw [hcommit, Option.any_some, not_eq_false_iff] at hform
    exact ⟨commit, nonEmptyText_eq_some hcommit, hform⟩
  · rintro ⟨commit, hsource, hcommit⟩
    rw [hsource, nonEmptyText_string (ne_nil_of_isCommit hcommit), Option.any_some,
      not_eq_false_iff]
    exact ⟨nofun, hcommit⟩

theorem builtAt_form_iff {value : Option Json} :
    (nonEmptyText value ≠ none ∧
      (match nonEmptyText value with
        | none => .ok false
        | some text => notIso toIso text) = Except.ok false) ↔
    ∃ text, nonEmptyText value = some text ∧ toIso text = some text := by
  cases nonEmptyText value with
  | none => simp
  | some text => simp [notIso_eq_false_iff]

theorem unbroken_source : Unbroken (sourceChecks toIso manifest) ↔
    (∃ commit, sourceCommit manifest = some (.string commit) ∧ isCommit commit) ∧
      nonEmptyText (get (get manifest "source") "ref") ≠ none ∧
      (∃ text, nonEmptyText (get (get manifest "source") "builtAt") = some text ∧
        toIso text = some text) ∧
      isOneOf (get (get manifest "source") "provenance") sourceProvenance := by
  unfold sourceChecks requireString
  change Unbroken (_ :: _ :: _) ↔ _
  simp only [unbroken_cons, plain_unbroken_iff, not_eq_false_iff, Option.isNone_eq_false_iff,
    Option.isSome_iff_ne_none, and_iff_left unbroken_nil]
  change nonEmptyText (sourceCommit manifest) ≠ none ∧
    (nonEmptyText (sourceCommit manifest)).any _ = false ∧ _ ↔ _
  rw [← and_assoc, recorded_form_iff]
  refine and_congr_right fun _ => and_congr_right fun _ => ?_
  rw [← and_assoc]
  exact and_congr_left fun _ => builtAt_form_iff

theorem unbroken_provenance (hpublished : Published manifest) :
    Unbroken (provenanceChecks manifest) ↔
      ¬isOneOf (get (get manifest "source") "provenance") ["working-tree"] ∧
        get (get manifest "source") "workingTreeDigest" = none := by
  unfold provenanceChecks
  dsimp only
  split
  · next h =>
      refine iff_of_false (fun hunbroken => ?_) fun hno => hno.1 h
      have hbroken := (unbroken_cons.mp (unbroken_cons.mp hunbroken).2).1
      rw [plain_unbroken_iff] at hbroken
      exact absurd hpublished (Bool.eq_false_iff.mp hbroken)
  · next h =>
      rw [unbroken_cons, plain_unbroken_iff, and_iff_left unbroken_nil, and_iff_right h,
        Option.isSome_eq_false_iff, Option.isNone_iff_eq_none]

theorem unbroken_images (hsource : sourceCommit manifest = some (.string commit)) :
    Unbroken (imagesChecks manifest) ↔ isObject (get manifest "images") ∧
      ∀ name, ImagePinned (imageOf manifest name) commit := by
  unfold imagesChecks
  rw [unbroken_withObject]
  change _ ∧ Unbroken (validateImage (imageOf manifest .api) .api (sourceCommit manifest) ++
    validateImage (imageOf manifest .web) .web (sourceCommit manifest)) ↔ _
  rw [unbroken_append, hsource, unbroken_image, unbroken_image]
  refine and_congr_right fun _ => ⟨?_, fun h => ⟨h .api, h .web⟩⟩
  rintro ⟨hapi, hweb⟩ name
  cases name with
  | api => exact hapi
  | web => exact hweb

theorem unbroken_build : Unbroken (buildChecks manifest) ↔
    ∀ build, get manifest "build" = some build → isObject (some build) ∧
      isOneOf (get (some build) "artifactSmoke") artifactSmokeResults := by
  unfold buildChecks
  split
  · next h =>
      rw [h]
      exact iff_of_true unbroken_nil nofun
  · next build h =>
      rw [h, unbroken_withObject, unbroken_cons, plain_unbroken_iff, not_eq_false_iff,
        and_iff_left unbroken_nil]
      exact ⟨fun hbuild other hother => Option.some.inj hother ▸ hbuild, fun hall => hall build rfl⟩

end Parts

theorem object_of_member {value member : Json} {name : String}
    (h : get (some value) name = some member) : ∃ members, value = .object members := by
  cases value with
  | object members => exact ⟨members, rfl⟩
  | _ => cases h

/-- A manifest is accepted when it is an object that breaks no rule. -/
theorem accepts_iff {toIso : List Char → Option (List Char)} {manifest : Json} :
    Accepts toIso manifest ↔
      (∃ members, manifest = .object members) ∧ Unbroken (manifestChecks toIso manifest) := by
  cases manifest with
  | object members =>
      rw [and_iff_right ⟨members, rfl⟩, ← reportAll_eq_nil_iff]
      unfold Accepts validateReleaseManifest
      cases reportAll (manifestChecks toIso (.object members)) with
      | error e => exact iff_of_false (fun ⟨_, h, _⟩ => nomatch h) nofun
      | ok issues =>
          constructor
          · rintro ⟨verdict, hverdict, hvalid⟩
            obtain rfl := Except.ok.inj hverdict
            exact congrArg Except.ok (List.isEmpty_iff.mp hvalid)
          · intro h
            obtain rfl := Except.ok.inj h
            exact ⟨_, rfl, rfl⟩
  | _ =>
      refine iff_of_false (fun ⟨verdict, hverdict, hvalid⟩ => ?_) fun ⟨⟨_, h⟩, _⟩ => nomatch h
      obtain rfl := Except.ok.inj hverdict
      cases hvalid

/-- What an accepted manifest of a deployable release states. -/
theorem accepts_deployable_iff {toIso : List Char → Option (List Char)} {manifest : Json} :
    Accepts toIso manifest ∧ SaysDeployable manifest ↔
      ∃ commit, Deployable toIso manifest commit := by
  rw [accepts_iff]
  unfold manifestChecks
  simp only [unbroken_append, unbroken_cons, plain_unbroken_iff, and_iff_left unbroken_nil,
    and_assoc]
  constructor
  · rintro ⟨⟨members, hmembers⟩, hidentity, hsource, hprovenance, himages, hmigrations, hbuild,
      hgates, hcredential, hdeployable⟩
    obtain ⟨hkind, hversion, hpublished⟩ := (unbroken_identity hdeployable).mp hidentity
    obtain ⟨⟨commit, hcommit, hform⟩, href, hbuiltAt, hfrom⟩ := unbroken_source.mp hsource
    obtain ⟨hclean, hunmodified⟩ := (unbroken_provenance hpublished).mp hprovenance
    obtain ⟨himages, himage⟩ := (unbroken_images hcommit).mp himages
    refine ⟨commit, {
      kind := hkind
      schemaVersion := hversion
      published := isOneOf_singleton_iff.mp hpublished
      deployable := hdeployable
      source := hcommit
      commitForm := hform
      ref := href
      builtAt := hbuiltAt
      provenance := ?_
      unmodified := hunmodified
      images := himages
      image := himage
      migrations := unbroken_migrations.mp hmigrations
      build := unbroken_build.mp hbuild
      gates := (unbroken_gates hpublished (recordedCommit_eq hcommit hform)).mp hgates
      noCredential := by simpa using hcredential }⟩
    obtain ⟨text, htext, hprovenance⟩ := isOneOf_iff.mp hfrom
    rcases List.mem_pair.mp htext with rfl | rfl
    · exact hprovenance
    · exact absurd (isOneOf_singleton_iff.mpr hprovenance) hclean
  · rintro ⟨commit, h⟩
    have hpublished : Published (some manifest) := isOneOf_singleton_iff.mpr h.published
    have hclean : ¬isOneOf (get (get (some manifest) "source") "provenance") ["working-tree"] := by
      rw [isOneOf_singleton_iff, h.provenance]
      simp
    exact ⟨object_of_member h.kind,
      (unbroken_identity h.deployable).mpr ⟨h.kind, h.schemaVersion, hpublished⟩,
      unbroken_source.mpr ⟨⟨commit, h.source, h.commitForm⟩, h.ref, h.builtAt,
        isOneOf_iff.mpr ⟨"commit", List.mem_cons_self, h.provenance⟩⟩,
      (unbroken_provenance hpublished).mpr ⟨hclean, h.unmodified⟩,
      (unbroken_images h.source).mpr ⟨h.images, h.image⟩, unbroken_migrations.mpr h.migrations,
      unbroken_build.mpr h.build,
      (unbroken_gates hpublished (recordedCommit_eq h.source h.commitForm)).mpr h.gates,
      by simpa using h.noCredential, h.deployable⟩

end Orgistry.Deployments
