import Orgistry.Deployments.ManifestRules

/-!
# Validating manifests

The validator of manifests finds every broken rule, except where it fails or stops before
the end, and these exceptions are exact.
-/

namespace Orgistry.Deployments

open Text Json Model Validation

section Found

variable {toIso : List Char → Option (List Char)} {manifest image gate : Option Json}
  {commit : Option Json} {recorded : Json} {name : ImageName} {rule : ManifestRule}

inductive ManifestPart
  | document
  | identity
  | source
  | provenance
  | images
  | migrations
  | build
  | gates
  | credential

/-- The part of the validator that a rule belongs to. -/
def partOf : ManifestRule → ManifestPart
  | .document => .document
  | .kind | .schemaVersion | .releaseType | .deployable => .identity
  | .commit | .commitForm | .ref | .builtAt | .builtAtForm | .provenance => .source
  | .workingTreeDigest | .workingTreePublished | .unexpectedDigest => .provenance
  | .images | .image _ _ => .images
  | .migrations | .migrationHead | .migrationCount | .appliedAtMs | .artifact
  | .entrypoint => .migrations
  | .build | .artifactSmoke => .build
  | .rehearsalGates | .gates | .gatesHeadSha | .verifiedAt | .required | .gate _ _
  | .requiredCheck _ => .gates
  | .credential => .credential

theorem rule_image : ∀ check ∈ validateImage image name commit,
    ∃ rule, check.rule = .image name rule := by
  unfold validateImage withObject
  dsimp only
  split
  · rw [List.forall_mem_append]
    refine ⟨?_, ?_⟩
    · simp only [List.forall_mem_cons, Check.plain, ManifestRule.image.injEq, true_and,
        exists_eq', List.not_mem_nil, false_imp_iff, implies_true]
    · split
      · exact List.forall_mem_nil _
      · simp only [List.forall_mem_cons, Check.plain, ManifestRule.image.injEq, true_and,
          exists_eq', List.not_mem_nil, false_imp_iff, implies_true]
  · simp only [List.forall_mem_cons, Check.plain, ManifestRule.image.injEq, true_and,
      exists_eq', List.not_mem_nil, false_imp_iff, implies_true]

theorem rule_gate {index : ℕ} : ∀ check ∈ validateGate recorded index gate,
    ∃ rule, check.rule = .gate index rule := by
  unfold validateGate withObject
  dsimp only
  split <;>
    simp only [List.forall_mem_cons, Check.plain, ManifestRule.gate.injEq, true_and, exists_eq',
      List.not_mem_nil, false_imp_iff, implies_true]

/-- The entries are checked one by one. -/
theorem finds_required_gate {required : List Json} {index : ℕ} {gateRule : GateRule} :
    Finds (validateRequired recorded required) (.gate index gateRule) ↔
      ∃ gate, required[index]? = some gate ∧
        Finds (validateGate recorded index (some gate)) (.gate index gateRule) := by
  unfold validateRequired
  rw [finds_append]
  constructor
  · rintro (⟨check, hcheck, hrule, hbroken⟩ | ⟨check, hcheck, hrule, -⟩)
    · obtain ⟨⟨gate, i⟩, hpair, hmem⟩ := List.mem_flatMap.mp hcheck
      obtain ⟨found, hfound⟩ := rule_gate check hmem
      rw [hrule] at hfound
      cases hfound
      exact ⟨gate, List.mk_mem_zipIdx_iff_getElem?.mp hpair, check, hmem, hrule, hbroken⟩
    · obtain ⟨required, -, rfl⟩ := List.mem_map.mp hcheck
      cases hrule
  · rintro ⟨gate, hgate, check, hcheck, hrule, hbroken⟩
    exact Or.inl ⟨check, List.mem_flatMap.mpr
      ⟨(gate, index), List.mk_mem_zipIdx_iff_getElem?.mpr hgate, hcheck⟩, hrule, hbroken⟩

theorem part_identity : ∀ check ∈ identityChecks manifest, partOf check.rule = .identity := by
  unfold identityChecks
  simp only [List.forall_mem_cons, Check.plain, partOf, true_and, List.not_mem_nil,
    false_imp_iff, implies_true]

theorem part_source : ∀ check ∈ sourceChecks toIso manifest, partOf check.rule = .source := by
  unfold sourceChecks requireString
  simp only [List.forall_mem_cons, Check.plain, partOf, true_and, List.not_mem_nil,
    false_imp_iff, implies_true]

theorem part_provenance : ∀ check ∈ provenanceChecks manifest, partOf check.rule = .provenance := by
  unfold provenanceChecks
  dsimp only
  split <;>
    simp only [List.forall_mem_cons, Check.plain, partOf, true_and, List.not_mem_nil,
      false_imp_iff, implies_true]

theorem part_images : ∀ check ∈ imagesChecks manifest, partOf check.rule = .images := by
  unfold imagesChecks withObject
  dsimp only
  split
  · intro check hcheck
    rcases List.mem_append.mp hcheck with hcheck | hcheck
    · obtain ⟨rule, hrule⟩ := rule_image check hcheck
      rw [hrule]
      rfl
    · obtain ⟨rule, hrule⟩ := rule_image check hcheck
      rw [hrule]
      rfl
  · simp only [List.forall_mem_cons, Check.plain, partOf, true_and, List.not_mem_nil,
      false_imp_iff, implies_true]

theorem part_migrations : ∀ check ∈ migrationsChecks manifest, partOf check.rule = .migrations := by
  unfold migrationsChecks withObject
  dsimp only
  split <;>
    simp only [List.forall_mem_cons, Check.plain, partOf, true_and, List.not_mem_nil,
      false_imp_iff, implies_true]

theorem part_build : ∀ check ∈ buildChecks manifest, partOf check.rule = .build := by
  unfold buildChecks withObject
  split
  · exact nofun
  · split <;>
      simp only [List.forall_mem_cons, Check.plain, partOf, true_and, List.not_mem_nil,
        false_imp_iff, implies_true]

theorem part_gates : ∀ check ∈ validateGates toIso manifest (releaseType manifest) recorded,
    partOf check.rule = .gates := by
  unfold validateGates withObject
  dsimp only
  split
  · simp only [List.forall_mem_cons, Check.plain, partOf, true_and, List.not_mem_nil,
      false_imp_iff, implies_true]
  split
  · exact List.forall_mem_nil _
  split
  · rw [List.forall_mem_append]
    refine ⟨?_, ?_⟩
    · simp only [List.forall_mem_cons, Check.plain, partOf, true_and, List.not_mem_nil,
        false_imp_iff, implies_true]
    · split
      · simp only [List.forall_mem_cons, Check.plain, partOf, true_and, List.not_mem_nil,
          false_imp_iff, implies_true]
      · intro check hcheck
        rcases List.mem_append.mp hcheck with hcheck | hcheck
        · obtain ⟨pair, -, hcheck⟩ := List.mem_flatMap.mp hcheck
          obtain ⟨rule, hrule⟩ := rule_gate check hcheck
          rw [hrule]
          rfl
        · obtain ⟨required, -, rfl⟩ := List.mem_map.mp hcheck
          rfl
  · simp only [List.forall_mem_cons, Check.plain, partOf, true_and, List.not_mem_nil,
      false_imp_iff, implies_true]

theorem finds_manifest_iff {document : Json} : Finds (manifestChecks toIso document) rule ↔
    Finds (identityChecks (some document)) rule ∨ Finds (sourceChecks toIso (some document)) rule ∨
    Finds (provenanceChecks (some document)) rule ∨ Finds (imagesChecks (some document)) rule ∨
    Finds (migrationsChecks (some document)) rule ∨ Finds (buildChecks (some document)) rule ∨
    Finds (validateGates toIso (some document) (releaseType (some document))
      (recordedCommit (some document))) rule ∨
    (.credential = rule ∧ (findEmbeddedCredential document).isSome) := by
  unfold manifestChecks
  simp only [finds_append, or_assoc]
  rw [finds_cons, or_iff_left finds_nil]
  simp only [Check.plain, Except.ok.injEq]

theorem not_finds {checks : List ManifestCheck} {part : ManifestPart}
    (hparts : ∀ check ∈ checks, partOf check.rule = part) (hne : partOf rule ≠ part) :
    ¬Finds checks rule := by
  rintro ⟨check, hcheck, rfl, -⟩
  exact hne (hparts check hcheck)

/-- A rule is found by its own part. -/
theorem finds_images {document : Json} (hpart : partOf rule = .images)
    (h : Finds (manifestChecks toIso document) rule) :
    Finds (imagesChecks (some document)) rule := by
  rcases finds_manifest_iff.mp h with h | h | h | h | h | h | h | ⟨rfl, -⟩
  · exact absurd h (not_finds part_identity (by rw [hpart]; nofun))
  · exact absurd h (not_finds part_source (by rw [hpart]; nofun))
  · exact absurd h (not_finds part_provenance (by rw [hpart]; nofun))
  · exact h
  · exact absurd h (not_finds part_migrations (by rw [hpart]; nofun))
  · exact absurd h (not_finds part_build (by rw [hpart]; nofun))
  · exact absurd h (not_finds part_gates (by rw [hpart]; nofun))
  · cases hpart

theorem finds_gates {document : Json} (hpart : partOf rule = .gates)
    (h : Finds (manifestChecks toIso document) rule) :
    Finds (validateGates toIso (some document) (releaseType (some document))
      (recordedCommit (some document))) rule := by
  rcases finds_manifest_iff.mp h with h | h | h | h | h | h | h | ⟨rfl, -⟩
  · exact absurd h (not_finds part_identity (by rw [hpart]; nofun))
  · exact absurd h (not_finds part_source (by rw [hpart]; nofun))
  · exact absurd h (not_finds part_provenance (by rw [hpart]; nofun))
  · exact absurd h (not_finds part_images (by rw [hpart]; nofun))
  · exact absurd h (not_finds part_migrations (by rw [hpart]; nofun))
  · exact absurd h (not_finds part_build (by rw [hpart]; nofun))
  · exact h
  · cases hpart

/-- What an image breaks is found, unless its digest ends the validation first. -/
theorem finds_image {imageRule : ImageRule}
    (hreport : isObject image → ImageReportable image)
    (h : BreaksImage manifest image imageRule) :
    Finds (validateImage image name (sourceCommit manifest)) (.image name imageRule) := by
  unfold validateImage
  cases imageRule with
  | object => exact finds_no_object h
  | repository =>
      exact finds_in_object h.1 (finds_append.mpr (Or.inl
        (finds_at 0 rfl rfl (congrArg Except.ok (not_eq_true h.2)))))
  | tag =>
      exact finds_in_object h.1 (finds_append.mpr (Or.inl
        (finds_at 1 rfl rfl (congrArg Except.ok (not_eq_true h.2)))))
  | digest =>
      exact finds_in_object h.1 (finds_append.mpr (Or.inl
        (finds_at 2 rfl rfl (congrArg Except.ok (not_eq_true h.2)))))
  | reference =>
      refine finds_in_object h.1 (finds_append.mpr (Or.inr ?_))
      have hdigest : isText (get image "digest") isDigestText := by
        by_contra hdigest
        exact h.2 ((hreport h.1).digest hdigest).1
      rw [if_neg (by rw [hdigest]; exact Bool.false_ne_true)]
      obtain ⟨text, htext⟩ :=
        (referenceText_eq_ok_iff hdigest).mpr ((hreport h.1).repository hdigest)
      refine finds_at 0 rfl rfl ?_
      dsimp only
      rw [htext]
      exact congrArg Except.ok (not_eq_true fun hsame => h.2 ⟨text, htext, hsame⟩)
  | fields =>
      refine finds_in_object h.1 (finds_append.mpr (Or.inr ?_))
      have hdigest : isText (get image "digest") isDigestText := by
        by_contra hdigest
        exact h.2 ((hreport h.1).digest hdigest).2
      rw [if_neg (by rw [hdigest]; exact Bool.false_ne_true)]
      exact finds_at 1 rfl rfl (congrArg Except.ok (decide_eq_true h.2))

/-- What an entry breaks is found, for a commit that is recorded. -/
theorem finds_gate {index : ℕ} {gateRule : GateRule}
    (hcommit : isObject gate →
      strictEquals (get gate "headSha") (some (recordedCommit manifest)) →
        strictEquals (get gate "headSha") (sourceCommit manifest))
    (h : BreaksGate manifest gate gateRule) :
    Finds (validateGate (recordedCommit manifest) index gate) (.gate index gateRule) := by
  unfold validateGate
  cases gateRule with
  | object => exact finds_no_object h
  | conclusion =>
      exact finds_in_object h.1 (finds_at 0 rfl rfl (congrArg Except.ok (not_eq_true h.2)))
  | headSha =>
      exact finds_in_object h.1 (finds_at 1 rfl rfl
        (congrArg Except.ok (not_eq_true fun hsame => h.2 (hcommit h.1 hsame))))
  | runId =>
      exact finds_in_object h.1 (finds_at 2 rfl rfl (congrArg Except.ok (not_eq_true h.2)))
  | workflowFile =>
      exact finds_in_object h.1 (finds_at 3 rfl rfl (congrArg Except.ok (isNone_eq_true h.2)))

theorem nonEmptyText_eq_some {value : Option Json} {text : List Char}
    (h : nonEmptyText value = some text) : value = some (.string text) := by
  unfold nonEmptyText at h
  split at h
  · cases h
    rfl
  · cases h

theorem isNull_iff {value : Option Json} : isNull value ↔ value = some .null := by
  unfold isNull
  split <;> simp_all

/-- What equals the recorded commit equals the commit of the source, unless it is `null`. -/
theorem equals_source {value : Option Json}
    (hnull : nonEmptyText (sourceCommit manifest) = none → ¬isNull (sourceCommit manifest) →
      ¬isNull value)
    (h : strictEquals value (some (recordedCommit manifest))) :
    strictEquals value (sourceCommit manifest) := by
  unfold recordedCommit at h
  rw [← sourceCommit] at h
  cases hcommit : nonEmptyText (sourceCommit manifest) with
  | some commit =>
      rw [hcommit] at h
      rw [nonEmptyText_eq_some hcommit]
      exact h
  | none =>
      rw [hcommit] at h
      have hvalue : value = some .null := by
        unfold strictEquals at h
        split at h <;> simp_all
      have hsource : isNull (sourceCommit manifest) := by
        by_contra hsource
        exact hnull hcommit hsource (isNull_iff.mpr hvalue)
      rw [hvalue, isNull_iff.mp hsource]
      rfl

theorem all_lt_one {value : Option ℤ} (h : ∀ n ∈ value, n < 1) : value.all (· < 1) = true := by
  cases value with
  | none => rfl
  | some n => exact decide_eq_true (h n rfl)

section Parts

variable (hbroken : BreaksManifest toIso manifest rule)

include hbroken

theorem identity_found (hpart : partOf rule = .identity) :
    Finds (identityChecks manifest) rule := by
  cases rule with
  | kind => exact finds_at 0 rfl rfl (congrArg Except.ok (not_eq_true hbroken))
  | schemaVersion => exact finds_at 1 rfl rfl (congrArg Except.ok (decide_eq_true hbroken))
  | releaseType => exact finds_at 2 rfl rfl (congrArg Except.ok (not_eq_true hbroken))
  | deployable => exact finds_at 3 rfl rfl (congrArg Except.ok (not_eq_true hbroken))
  | _ => cases hpart

/-- What the source breaks is found, if its date can be converted. -/
theorem source_found (hpart : partOf rule = .source)
    (hbuiltAt : ∀ text, nonEmptyText (get (get manifest "source") "builtAt") = some text →
      (toIso text).isSome) : Finds (sourceChecks toIso manifest) rule := by
  cases rule with
  | commit => exact finds_at 0 rfl rfl (congrArg Except.ok (isNone_eq_true hbroken))
  | commitForm =>
      obtain ⟨text, htext, hform⟩ := hbroken
      refine finds_at 1 rfl rfl (congrArg Except.ok ?_)
      change (nonEmptyText (sourceCommit manifest)).any _ = true
      rw [htext]
      exact not_eq_true hform
  | ref => exact finds_at 2 rfl rfl (congrArg Except.ok (isNone_eq_true hbroken))
  | builtAt => exact finds_at 3 rfl rfl (congrArg Except.ok (isNone_eq_true hbroken))
  | builtAtForm =>
      obtain ⟨text, htext, hform⟩ := hbroken
      obtain ⟨iso, hiso⟩ := Option.isSome_iff_exists.mp (hbuiltAt text htext)
      refine finds_at 4 rfl rfl ?_
      dsimp only
      rw [htext]
      exact notIso_eq_true hiso hform
  | provenance => exact finds_at 5 rfl rfl (congrArg Except.ok (not_eq_true hbroken))
  | _ => cases hpart

theorem provenance_found (hpart : partOf rule = .provenance) :
    Finds (provenanceChecks manifest) rule := by
  unfold provenanceChecks
  dsimp only
  cases rule with
  | workingTreeDigest =>
      rw [if_pos hbroken.1]
      exact finds_at 0 rfl rfl (congrArg Except.ok (not_eq_true hbroken.2))
  | workingTreePublished =>
      rw [if_pos hbroken.1]
      exact finds_at 1 rfl rfl (congrArg Except.ok hbroken.2)
  | unexpectedDigest =>
      rw [if_neg hbroken.1]
      exact finds_at 0 rfl rfl (congrArg Except.ok hbroken.2)
  | _ => cases hpart

theorem images_found (hpart : partOf rule = .images)
    (hreport : isObject (get manifest "images") → ∀ name, isObject (imageOf manifest name) →
      ImageReportable (imageOf manifest name)) : Finds (imagesChecks manifest) rule := by
  cases rule with
  | images => exact finds_no_object hbroken
  | image name imageRule =>
      have hfound : Finds (validateImage (imageOf manifest name) name (sourceCommit manifest))
          (.image name imageRule) := finds_image (hreport hbroken.1 name) hbroken.2
      refine finds_in_object hbroken.1 (finds_append.mpr ?_)
      cases name with
      | api => exact Or.inl hfound
      | web => exact Or.inr hfound
  | _ => cases hpart

/-- What the migrations break is found. -/
theorem migrations_found (hpart : partOf rule = .migrations) :
    Finds (migrationsChecks manifest) rule := by
  cases rule with
  | migrations => exact finds_no_object hbroken
  | migrationHead =>
      exact finds_in_object hbroken.1
        (finds_at 0 rfl rfl (congrArg Except.ok (not_eq_true hbroken.2)))
  | migrationCount =>
      exact finds_in_object hbroken.1
        (finds_at 1 rfl rfl (congrArg Except.ok (all_lt_one hbroken.2)))
  | appliedAtMs =>
      exact finds_in_object hbroken.1
        (finds_at 2 rfl rfl (congrArg Except.ok (all_lt_one hbroken.2)))
  | artifact =>
      exact finds_in_object hbroken.1
        (finds_at 3 rfl rfl (congrArg Except.ok (not_eq_true hbroken.2)))
  | entrypoint =>
      exact finds_in_object hbroken.1
        (finds_at 4 rfl rfl (congrArg Except.ok (not_eq_true hbroken.2)))
  | _ => cases hpart

theorem build_found (hpart : partOf rule = .build) : Finds (buildChecks manifest) rule := by
  unfold buildChecks
  cases rule with
  | build =>
      obtain ⟨build, hbuild, hobject⟩ := hbroken
      rw [hbuild]
      exact finds_no_object hobject
  | artifactSmoke =>
      obtain ⟨build, hbuild, hobject, hsmoke⟩ := hbroken
      rw [hbuild]
      exact finds_in_object hobject
        (finds_at 0 rfl rfl (congrArg Except.ok (not_eq_true hsmoke)))
  | _ => cases hpart

/-- What the gates break is found, where their evidence can be reported on. -/
theorem gates_found (hpart : partOf rule = .gates)
    (hreport : Published manifest → isObject (get manifest "gates") →
      GatesReportable toIso manifest) :
    Finds (validateGates toIso manifest (releaseType manifest) (recordedCommit manifest))
      rule := by
  cases rule with
  | rehearsalGates =>
      unfold validateGates
      dsimp only
      rw [if_pos hbroken.1]
      exact finds_at 0 rfl rfl (congrArg Except.ok hbroken.2)
  | gates =>
      rw [validateGates_published hbroken.1]
      exact finds_no_object hbroken.2
  | gatesHeadSha =>
      obtain ⟨hpublished, hobject, hsha⟩ := hbroken
      rw [validateGates_published hpublished]
      have hnull := (hreport hpublished hobject).commit
      exact finds_in_object hobject (finds_at 0 rfl rfl (congrArg Except.ok
        (not_eq_true fun hsame =>
          hsha (equals_source (fun hnone hsource => (hnull hnone hsource).1) hsame))))
  | verifiedAt =>
      obtain ⟨hpublished, hobject, hdate⟩ := hbroken
      rw [validateGates_published hpublished]
      exact finds_in_object hobject (finds_at 1 rfl rfl
        (notIsoText_eq_true (hreport hpublished hobject).verifiedAt hdate))
  | required =>
      obtain ⟨hpublished, hobject, hempty⟩ := hbroken
      rw [validateGates_published hpublished, hempty]
      exact finds_in_object hobject (finds_at 2 rfl rfl rfl)
  | gate index gateRule =>
      obtain ⟨hpublished, hobject, gate, hgate, hgateBroken⟩ := hbroken
      have hmem := List.mem_of_getElem? hgate
      rw [validateGates_published hpublished,
        if_neg (by rw [List.isEmpty_iff]; exact List.ne_nil_of_mem hmem)]
      refine finds_in_object hobject (finds_append.mpr (Or.inr (finds_required_gate.mpr
        ⟨gate, hgate, finds_gate (fun hgateObject => equals_source fun hnone hsource => ?_)
          hgateBroken⟩)))
      exact ((hreport hpublished hobject).commit hnone hsource).2 gate hmem hgateObject
  | requiredCheck check =>
      obtain ⟨hpublished, hobject, hrequired, hmissing⟩ := hbroken
      -- the checks are only compared where there are entries
      have hne := (hreport hpublished hobject).required
      rw [validateGates_published hpublished, if_neg (by rwa [List.isEmpty_iff])]
      obtain ⟨required, hmem, rfl⟩ := List.mem_map.mp hrequired
      refine finds_in_object hobject (finds_append.mpr (Or.inr (finds_append.mpr (Or.inr ?_))))
      exact ⟨_, List.mem_map_of_mem hmem, rfl, congrArg Except.ok (not_eq_true hmissing)⟩
  | _ => cases hpart

end Parts

/-- Every broken rule is found. -/
theorem finds_manifest {document : Json} (hreport : ManifestReportable toIso (some document))
    (h : BreaksManifest toIso (some document) rule) :
    Finds (manifestChecks toIso document) rule := by
  rw [finds_manifest_iff]
  cases hpart : partOf rule with
  | document =>
      cases rule with
      | document => exact absurd h id
      | _ => cases hpart
  | identity => exact .inl (identity_found h hpart)
  | source => exact .inr (.inl (source_found h hpart hreport.builtAt))
  | provenance => exact .inr (.inr (.inl (provenance_found h hpart)))
  | images => exact .inr (.inr (.inr (.inl (images_found h hpart hreport.image))))
  | migrations => exact .inr (.inr (.inr (.inr (.inl (migrations_found h hpart)))))
  | build => exact .inr (.inr (.inr (.inr (.inr (.inl (build_found h hpart))))))
  | gates =>
      exact .inr (.inr (.inr (.inr (.inr (.inr (.inl (gates_found h hpart hreport.gates)))))))
  | credential =>
      cases rule with
      | credential =>
          obtain ⟨other, hother, hfound⟩ := h
          cases hother
          exact .inr (.inr (.inr (.inr (.inr (.inr (.inr ⟨rfl, hfound⟩))))))
      | _ => cases hpart

end Found

/-! ## What is left out -/

section Missed

variable {toIso : List Char → Option (List Char)} {manifest image gate : Option Json}
  {commit : Option Json} {recorded : Json} {name : ImageName} {imageRule : ImageRule}

theorem finds_images_image (h : Finds (imagesChecks manifest) (.image name imageRule)) :
    Finds (validateImage (imageOf manifest name) name (sourceCommit manifest))
      (.image name imageRule) := by
  rcases finds_withObject.mp h with ⟨-, h⟩ | ⟨-, hrule⟩
  · rcases finds_append.mp h with h | h
    · obtain ⟨check, hcheck, hrule, hbroken⟩ := h
      obtain ⟨other, hother⟩ := rule_image check hcheck
      rw [hrule] at hother
      cases hother
      exact ⟨check, hcheck, hrule, hbroken⟩
    · obtain ⟨check, hcheck, hrule, hbroken⟩ := h
      obtain ⟨other, hother⟩ := rule_image check hcheck
      rw [hrule] at hother
      cases hother
      exact ⟨check, hcheck, hrule, hbroken⟩
  · cases hrule

/-- After a digest of another form nothing more is said about the image. -/
theorem image_ends (hdigest : ¬isText (get image "digest") isDigestText)
    (h : Finds (validateImage image name commit) (.image name imageRule)) :
    imageRule ≠ .reference ∧ imageRule ≠ .fields := by
  unfold validateImage at h
  rw [finds_withObject] at h
  rcases h with ⟨-, h⟩ | ⟨-, hrule⟩
  · rw [if_pos (not_eq_true hdigest), List.append_nil] at h
    simp only [finds_cons, Check.plain, ManifestRule.image.injEq, true_and] at h
    rcases h with ⟨rfl, -⟩ | ⟨rfl, -⟩ | ⟨rfl, -⟩ | h
    · decide
    · decide
    · decide
    · exact absurd h finds_nil
  · cases hrule
    decide

/-- So does the head of the whole evidence. -/
theorem headSha_of_finds (hpublished : Published manifest)
    (h : Finds (validateGates toIso manifest (releaseType manifest) (recordedCommit manifest))
      .gatesHeadSha) :
    ¬strictEquals (get (get manifest "gates") "headSha") (some (recordedCommit manifest)) := by
  rw [validateGates_published hpublished, finds_withObject] at h
  rcases h with ⟨-, h⟩ | ⟨-, hrule⟩
  · rw [finds_append, finds_cons, finds_cons] at h
    rcases h with (⟨-, hbroken⟩ | ⟨hrule, -⟩ | h) | h
    · intro hsame
      rw [Check.plain, hsame] at hbroken
      cases hbroken
    · cases hrule
    · exact absurd h finds_nil
    · split at h
      · rcases finds_cons.mp h with ⟨hrule, -⟩ | h
        · cases hrule
        · exact absurd h finds_nil
      · obtain ⟨check, hcheck, hrule, -⟩ := h
        rcases List.mem_append.mp hcheck with hcheck | hcheck
        · obtain ⟨pair, -, hcheck⟩ := List.mem_flatMap.mp hcheck
          obtain ⟨other, hother⟩ := rule_gate check hcheck
          rw [hrule] at hother
          cases hother
        · obtain ⟨required, -, rfl⟩ := List.mem_map.mp hcheck
          cases hrule
  · cases hrule

/-- A head that is reported differs from the recorded commit. -/
theorem gate_headSha_of_finds {index : ℕ} (hpublished : Published manifest)
    (hgate : (requiredEntries manifest)[index]? = some recorded)
    (h : Finds (validateGates toIso manifest (releaseType manifest) (recordedCommit manifest))
      (.gate index .headSha)) :
    ¬strictEquals (get (some recorded) "headSha") (some (recordedCommit manifest)) := by
  rw [validateGates_published hpublished, finds_withObject] at h
  rcases h with ⟨-, h⟩ | ⟨-, hrule⟩
  · rw [finds_append, finds_cons, finds_cons] at h
    rcases h with (⟨hrule, -⟩ | ⟨hrule, -⟩ | h) | h
    · cases hrule
    · cases hrule
    · exact absurd h finds_nil
    · split at h
      · rcases finds_cons.mp h with ⟨hrule, -⟩ | h
        · cases hrule
        · exact absurd h finds_nil
      · obtain ⟨other, hother, h⟩ := finds_required_gate.mp h
        rw [hgate] at hother
        cases hother
        unfold validateGate at h
        rcases finds_withObject.mp h with ⟨-, h⟩ | ⟨-, hrule⟩
        · simp only [finds_cons, ManifestRule.gate.injEq, true_and, reduceCtorEq, false_and,
            false_or] at h
          rcases h with hbroken | h
          · intro hsame
            rw [hsame] at hbroken
            cases hbroken
          · exact absurd h finds_nil
        · cases hrule
  · cases hrule

/-- Without entries no check is found missing. -/
theorem ne_nil_of_finds {check : String} (hpublished : Published manifest)
    (h : Finds (validateGates toIso manifest (releaseType manifest) (recordedCommit manifest))
      (.requiredCheck check)) : requiredEntries manifest ≠ [] := by
  intro hempty
  rw [validateGates_published hpublished, hempty] at h
  rcases finds_withObject.mp h with ⟨-, h⟩ | ⟨-, hrule⟩
  · change Finds [_, _, _] _ at h
    simp only [finds_cons, Check.plain, reduceCtorEq, false_and, false_or] at h
    exact finds_nil h
  · cases hrule

theorem strictEquals_null {value : Option Json} (hvalue : isNull value)
    (h : ¬isNull (sourceCommit manifest)) : ¬strictEquals value (sourceCommit manifest) := by
  rw [isNull_iff.mp hvalue]
  intro hsame
  unfold strictEquals at hsame
  split at hsame <;> simp_all [isNull]

theorem recorded_null (h : nonEmptyText (sourceCommit manifest) = none) :
    recordedCommit manifest = .null := by
  unfold sourceCommit at h
  unfold recordedCommit
  rw [h]

end Missed

section Reports

variable {toIso : List Char → Option (List Char)}

/-- The validator comes to a verdict that has an issue for every broken rule. -/
def ReportsManifest (toIso : List Char → Option (List Char)) (manifest : Json) : Prop :=
  ∃ verdict, validateReleaseManifest toIso manifest = .ok verdict ∧
    ∀ rule, BrokenManifestRule toIso manifest rule → ∃ issue ∈ verdict.issues, issue.rule = rule

/-- Conversely, each condition is needed: where it fails a rule is missed. -/
theorem manifestReportable_of_reports {document : Json}
    (hcomplete : ∀ check ∈ manifestChecks toIso document, check.Completes)
    (hfound : ∀ rule, BreaksManifest toIso (some document) rule →
      Finds (manifestChecks toIso document) rule) :
    ManifestReportable toIso (some document) := by
  obtain ⟨hbuiltAt, himages, hgates⟩ := completes_manifest_iff.mp hcomplete
  refine ⟨hbuiltAt, fun hobject name himage => ⟨himages hobject name himage, fun hdigest => ?_⟩,
    fun hpublished hobject => ?_⟩
  · have hends (rule : ImageRule)
        (hbroken : BreaksImage (some document) (imageOf (some document) name) rule) :=
      image_ends hdigest (finds_images_image (finds_images rfl
        (hfound (.image name rule) ⟨hobject, hbroken⟩)))
    constructor
    · by_contra hreference
      exact (hends .reference ⟨himage, hreference⟩).1 rfl
    · by_contra hfields
      exact (hends .fields ⟨himage, hfields⟩).2 rfl
  · obtain ⟨hverifiedAt, hcheck⟩ := hgates hpublished hobject
    have hentries : requiredEntries (some document) ≠ [] := by
      by_contra hempty
      refine ne_nil_of_finds hpublished (finds_gates rfl
        (hfound (.requiredCheck "Validate (offline)") ⟨hpublished, hobject, by decide, ?_⟩)) hempty
      rw [hempty]
      exact Bool.false_ne_true
    refine ⟨hverifiedAt, hentries, hcheck, fun hnone hsource => ⟨fun hnull => ?_, ?_⟩⟩
    · have hsha := headSha_of_finds hpublished (finds_gates rfl
        (hfound .gatesHeadSha ⟨hpublished, hobject, strictEquals_null hnull hsource⟩))
      rw [recorded_null hnone, isNull_iff.mp hnull] at hsha
      exact hsha rfl
    · intro gate hgate hgateObject hnull
      obtain ⟨index, hindex⟩ := List.mem_iff_getElem?.mp hgate
      have hsha := gate_headSha_of_finds hpublished hindex (finds_gates rfl
        (hfound (.gate index .headSha) ⟨hpublished, hobject, gate, hindex, hgateObject,
          strictEquals_null hnull hsource⟩))
      rw [recorded_null hnone, isNull_iff.mp hnull] at hsha
      exact hsha rfl

/-- The validator reports every broken rule exactly of reportable manifests. -/
theorem reportsManifest_iff {manifest : Json} :
    ReportsManifest toIso manifest ↔ ManifestReportable toIso (some manifest) := by
  cases manifest with
  | object members =>
      change (∃ verdict : Verdict ManifestRule,
        (reportAll (manifestChecks toIso (.object members))).map _ = .ok verdict ∧
          ∀ rule, BreaksManifest toIso (some (.object members)) rule → _) ↔ _
      rw [verdict_iff]
      refine ⟨fun h => manifestReportable_of_reports h.1 h.2, fun h => ⟨?_, ?_⟩⟩
      · exact completes_manifest_iff.mpr ⟨h.builtAt,
          fun hobject name himage => (h.image hobject name himage).repository,
          fun hpublished hobject => ⟨(h.gates hpublished hobject).verifiedAt,
            (h.gates hpublished hobject).check⟩⟩
      · exact fun rule => finds_manifest h
  | _ =>
      refine iff_of_true ⟨_, rfl, fun rule hrule => ⟨_, List.mem_singleton_self _, hrule.symm⟩⟩ ?_
      exact ⟨fun _ => nofun, nofun, nofun⟩

/-- The validators come to a verdict with an issue for every broken rule, if and only if
the dates are valid, the values that messages print have texts, the digests of images
have their form or nothing else is wrong with the image, the evidence lists some check,
and no commit of the evidence is `null` where that of the source is neither a text nor
`null`. -/
theorem validators_report_iff (toIso : List Char → Option (List Char)) (manifest record : Json) :
    (ReportsManifest toIso manifest ↔ ManifestReportable toIso (some manifest)) ∧
      (ReportsRecord toIso record ↔ NoInvalidDate toIso (get (some record) "deployedAt")) :=
  ⟨reportsManifest_iff, reportsRecord_iff⟩

/-- Dates of which one is valid. -/
def oneDate (text : List Char) : Option (List Char) :=
  if text = "2026-08-24T09:00:00.000Z".toList then some text else none

theorem invalid_date_escapes :
    ¬ ∀ manifest record : Json,
      ReportsManifest oneDate manifest ∧ ReportsRecord oneDate record := by
  intro h
  have hreports := (h .null (.object [("deployedAt".toList, .string "yesterday".toList)])).2
  have hdate := reportsRecord_iff.mp hreports "yesterday".toList rfl
  exact absurd hdate (by decide)

end Reports

end Orgistry.Deployments
