import Orgistry.Model.DeploymentRecord

/-!
# Validating records

What the rules for a deployment record are, apart from how they are checked, and when the
validator comes to a verdict that names every rule that is broken.
-/

namespace Orgistry.Deployments

open Text Json Model Validation

/-- The text is a date as `toISOString` prints it. -/
def IsIso (toIso : List Char → Option (List Char)) (value : Option Json) : Prop :=
  ∃ text, textOf value = some text ∧ toIso text = some text

/-- No text of the value is an invalid date. -/
def NoInvalidDate (toIso : List Char → Option (List Char)) (value : Option Json) : Prop :=
  ∀ text, textOf value = some text → (toIso text).isSome

section Dates

variable {toIso : List Char → Option (List Char)} {value : Option Json}

theorem notIso_eq_true {text iso : List Char} (hiso : toIso text = some iso)
    (hne : ¬toIso text = some text) : notIso toIso text = .ok true := by
  unfold notIso
  rw [hiso] at hne ⊢
  exact congrArg Except.ok (decide_eq_true fun h => hne (by rw [h]))

theorem notIsoText_eq_true (hdate : NoInvalidDate toIso value) (hbroken : ¬IsIso toIso value) :
    notIsoText toIso value = .ok true := by
  unfold notIsoText
  cases htext : textOf value with
  | none => rfl
  | some text =>
      obtain ⟨iso, hiso⟩ := Option.isSome_iff_exists.mp (hdate text htext)
      exact notIso_eq_true hiso fun h => hbroken ⟨text, htext, h⟩

theorem completes_notIso_iff {Rule : Type} {rule : Rule} {text message : List Char} :
    (⟨rule, notIso toIso text, .ok message⟩ : Check Rule (List Char) Thrown).Completes ↔
      (toIso text).isSome := by
  unfold notIso Check.Completes
  cases toIso text with
  | none => simp
  | some iso =>
      refine iff_of_true ?_ rfl
      dsimp only
      cases decide (iso ≠ text) with
      | false => exact Or.inl rfl
      | true => exact Or.inr ⟨rfl, message, rfl⟩

theorem completes_notIsoText_iff {Rule : Type} {rule : Rule} {message : List Char} :
    (⟨rule, notIsoText toIso value, .ok message⟩ : Check Rule (List Char) Thrown).Completes ↔
      NoInvalidDate toIso value := by
  unfold notIsoText NoInvalidDate
  cases textOf value with
  | none => exact iff_of_true (Or.inr ⟨rfl, message, rfl⟩) nofun
  | some text =>
      dsimp only
      rw [completes_notIso_iff]
      simp

end Dates

theorem not_eq_true {b : Bool} (h : ¬b = true) : (!b) = true := by
  rw [Bool.eq_false_of_not_eq_true h]
  rfl

theorem isNone_eq_true {α : Type} {value : Option α} (h : value = none) : value.isNone = true := by
  rw [h]
  rfl

section WithObject

variable {Rule : Type} {rule other : Rule} {value : Option Json} {text : String}
  {checks : List (Check Rule (List Char) Thrown)}

theorem finds_withObject : Finds (withObject rule value text checks) other ↔
    (isObject value ∧ Finds checks other) ∨ (¬isObject value ∧ rule = other) := by
  unfold withObject
  split
  · next h => simp [h]
  · next h =>
      rw [finds_cons, or_iff_left finds_nil]
      simp [h, Check.plain]

theorem finds_in_object (hvalue : isObject value) (h : Finds checks other) :
    Finds (withObject rule value text checks) other := finds_withObject.mpr (Or.inl ⟨hvalue, h⟩)

theorem finds_no_object (hvalue : ¬isObject value) :
    Finds (withObject rule value text checks) rule := finds_withObject.mpr (Or.inr ⟨hvalue, rfl⟩)

theorem completes_withObject : (∀ check ∈ withObject rule value text checks, check.Completes) ↔
    (isObject value → ∀ check ∈ checks, check.Completes) := by
  unfold withObject
  split
  · next h => simp [h]
  · next h => simp [h, completes_plain]

end WithObject

section Records

variable (toIso : List Char → Option (List Char)) (record : Option Json)

/-- What it means for a record, an object, to break a rule. -/
def BreaksRecord : RecordRule → Prop
  | .document => False
  | .kind => ¬strictEquals (get record "kind") (some (.string deploymentRecordKind.toList))
  | .schemaVersion => integerOf (get record "schemaVersion") ≠ some 1
  | .environment => nonEmptyText (get record "environment") = none
  | .actor => nonEmptyText (get record "actor") = none
  | .mode => ¬isOneOf (get record "mode") deploymentModes
  | .deployedAt => ¬IsIso toIso (get record "deployedAt")
  | .release => ¬isObject (get record "release")
  | .commit => isObject (get record "release") ∧
      nonEmptyText (get (get record "release") "commit") = none
  | .manifestFile => isObject (get record "release") ∧
      nonEmptyText (get (get record "release") "manifestFile") = none
  | .digest name => isObject (get record "release") ∧
      ¬isText (get (get record "release") (name.field "Digest")) isDigestText
  | .reference name => isObject (get record "release") ∧
      ¬isText (get (get record "release") (name.field "Reference")) pinsDigest
  | .migration => ¬isOneOf (get (get record "migration") "result") migrationResults
  | .backupPreflight =>
      ¬isOneOf (get (get record "backupPreflight") "result") backupPreflightResults
  | .smoke => ¬isOneOf (get (get record "smoke") "result") smokeResults
  | .backupReason =>
      isOneOf (get (get record "backupPreflight") "result") ["skipped", "unavailable", "failed"] ∧
        nonEmptyText (get (get record "backupPreflight") "reason") = none
  | .migrationReason => isOneOf (get (get record "migration") "result") ["skipped"] ∧
      nonEmptyText (get (get record "migration") "reason") = none
  | .authorization => ¬isObject (get record "authorization")
  | .releaseType => isObject (get record "authorization") ∧
      nonEmptyText (get (get record "authorization") "releaseType") = none
  | .provenance => isObject (get record "authorization") ∧
      nonEmptyText (get (get record "authorization") "provenance") = none
  | .deployable => isObject (get record "authorization") ∧
      ¬isBool (get (get record "authorization") "deployable")
  | .gateRuns => isObject (get record "authorization") ∧
      strictEquals (get (get record "authorization") "deployable") (some (.bool true)) ∧
      ¬isArray (get (get record "authorization") "gateRuns")
  | .unexpectedGateRuns => isObject (get record "authorization") ∧
      strictEquals (get (get record "authorization") "deployable") (some (.bool false)) ∧
      (get (get record "authorization") "gateRuns").isSome
  | .publicConfig => ¬isObject (get record "publicConfig")
  | .fingerprint => isObject (get record "publicConfig") ∧
      ¬isText (get (get record "publicConfig") "fingerprint") isDigestText
  | .values => isObject (get record "publicConfig") ∧
      ¬isObject (get (get record "publicConfig") "values")
  | .publicKeys => isObject (get record "publicConfig") ∧
      isObject (get (get record "publicConfig") "values") ∧
      unexpectedKeys (get (get record "publicConfig") "values") ≠ []
  | .runtimeDigests => ¬isObject (get record "runtimeDigests")
  | .runtimeDigest name => isObject (get record "runtimeDigests") ∧
      ¬isNull (get (get record "runtimeDigests") name.text) ∧
      ¬isText (get (get record "runtimeDigests") name.text) isDigestText
  | .smokeDigests => isObject (get record "runtimeDigests") ∧
      isOneOf (get (get record "smoke") "result") ["passed"] ∧
      (isNull (get (get record "runtimeDigests") "api") ∨
        isNull (get (get record "runtimeDigests") "web"))
  | .limitations => ¬isArray (get record "limitations")
  | .credential => ∃ document, record = some document ∧ (findEmbeddedCredential document).isSome

/-- What a record breaks; one that is no object only the first rule. -/
def BrokenRecordRule (record : Json) (rule : RecordRule) : Prop :=
  match record with
  | .object _ => BreaksRecord toIso (some record) rule
  | _ => rule = .document

end Records

section RecordChecks

variable {toIso : List Char → Option (List Char)} {record : Option Json} {rule : RecordRule}

theorem completes_header : (∀ check ∈ headerChecks toIso record, check.Completes) ↔
    NoInvalidDate toIso (get record "deployedAt") := by
  unfold headerChecks requireNonEmptyString requireEnum
  simp only [List.forall_mem_cons, completes_plain, completes_notIsoText_iff, true_and,
    List.not_mem_nil, false_imp_iff, implies_true, and_true]

theorem completes_release : ∀ check ∈ releaseChecks record, check.Completes := by
  unfold releaseChecks requireNonEmptyString
  rw [completes_withObject]
  intro _
  simp only [List.forall_mem_append, List.forall_mem_cons, List.forall_mem_map, completes_plain,
    List.not_mem_nil, false_imp_iff, implies_true, and_true]

theorem completes_result : ∀ check ∈ resultChecks record, check.Completes := by
  unfold resultChecks requireEnum
  simp only [List.forall_mem_cons, completes_plain, true_and, List.not_mem_nil, false_imp_iff,
    implies_true]

theorem completes_authorization : ∀ check ∈ authorizationChecks record, check.Completes := by
  unfold authorizationChecks requireNonEmptyString
  rw [completes_withObject]
  intro _
  simp only [List.forall_mem_cons, completes_plain, true_and, List.not_mem_nil, false_imp_iff,
    implies_true]

theorem completes_publicConfig : ∀ check ∈ publicConfigChecks record, check.Completes := by
  unfold publicConfigChecks
  rw [completes_withObject]
  intro _
  rw [List.forall_mem_cons, completes_withObject]
  refine ⟨completes_plain _ _ _, fun _ => ?_⟩
  simp only [List.forall_mem_cons, completes_plain, true_and, List.not_mem_nil, false_imp_iff,
    implies_true]

theorem completes_runtimeDigests : ∀ check ∈ runtimeDigestsChecks record, check.Completes := by
  unfold runtimeDigestsChecks
  rw [completes_withObject]
  intro _
  simp only [List.forall_mem_append, List.forall_mem_cons, List.forall_mem_map, completes_plain,
    List.not_mem_nil, false_imp_iff, implies_true, and_true]

/-- Only the date can end the validation of a record. -/
theorem completes_record_iff {document : Json} :
    (∀ check ∈ recordChecks toIso document, check.Completes) ↔
      NoInvalidDate toIso (get (some document) "deployedAt") := by
  unfold recordChecks limitationsChecks
  simp only [List.forall_mem_append, completes_header, List.forall_mem_cons, completes_plain,
    List.not_mem_nil, false_imp_iff, implies_true, and_true]
  exact ⟨fun h => h.1.1.1.1.1, fun h => ⟨⟨⟨⟨⟨h, completes_release⟩, completes_result⟩,
    completes_authorization⟩, completes_publicConfig⟩, completes_runtimeDigests⟩⟩

section Found

variable {document : Json}

theorem found_record (h : Finds (headerChecks toIso (some document)) rule ∨
    Finds (releaseChecks (some document)) rule ∨ Finds (resultChecks (some document)) rule ∨
    Finds (authorizationChecks (some document)) rule ∨
    Finds (publicConfigChecks (some document)) rule ∨
    Finds (runtimeDigestsChecks (some document)) rule ∨
    Finds (limitationsChecks (some document)) rule) : Finds (recordChecks toIso document) rule := by
  unfold recordChecks
  simp only [finds_append, or_assoc] at h ⊢
  tauto

/-- Every broken rule is found. -/
theorem finds_record (hdate : NoInvalidDate toIso (get (some document) "deployedAt"))
    (h : BreaksRecord toIso (some document) rule) : Finds (recordChecks toIso document) rule := by
  have header {rule} (h : Finds (headerChecks toIso (some document)) rule) :
      Finds (recordChecks toIso document) rule := found_record (.inl h)
  have release {rule} (h : Finds (releaseChecks (some document)) rule) :
      Finds (recordChecks toIso document) rule := found_record (.inr (.inl h))
  have result {rule} (h : Finds (resultChecks (some document)) rule) :
      Finds (recordChecks toIso document) rule := found_record (.inr (.inr (.inl h)))
  have authorization {rule} (h : Finds (authorizationChecks (some document)) rule) :
      Finds (recordChecks toIso document) rule := found_record (.inr (.inr (.inr (.inl h))))
  have publicConfig {rule} (h : Finds (publicConfigChecks (some document)) rule) :
      Finds (recordChecks toIso document) rule :=
    found_record (.inr (.inr (.inr (.inr (.inl h)))))
  have runtimeDigests {rule} (h : Finds (runtimeDigestsChecks (some document)) rule) :
      Finds (recordChecks toIso document) rule :=
    found_record (.inr (.inr (.inr (.inr (.inr (.inl h))))))
  have limitations {rule} (h : Finds (limitationsChecks (some document)) rule) :
      Finds (recordChecks toIso document) rule :=
    found_record (.inr (.inr (.inr (.inr (.inr (.inr h))))))
  cases rule with
  | document => exact absurd h id
  | kind => exact header (finds_at 0 rfl rfl (congrArg Except.ok (not_eq_true h)))
  | schemaVersion => exact header (finds_at 1 rfl rfl (congrArg Except.ok (decide_eq_true h)))
  | environment => exact header (finds_at 2 rfl rfl (congrArg Except.ok (isNone_eq_true h)))
  | actor => exact header (finds_at 3 rfl rfl (congrArg Except.ok (isNone_eq_true h)))
  | mode => exact header (finds_at 4 rfl rfl (congrArg Except.ok (not_eq_true h)))
  | deployedAt => exact header (finds_at 5 rfl rfl (notIsoText_eq_true hdate h))
  | release => exact release (finds_no_object h)
  | commit =>
      exact release (finds_in_object h.1
        (finds_at 0 rfl rfl (congrArg Except.ok (isNone_eq_true h.2))))
  | manifestFile =>
      exact release (finds_in_object h.1
        (finds_at 1 rfl rfl (congrArg Except.ok (isNone_eq_true h.2))))
  | digest name =>
      refine release (finds_in_object h.1 ?_)
      cases name with
      | api => exact finds_at 2 rfl rfl (congrArg Except.ok (not_eq_true h.2))
      | web => exact finds_at 3 rfl rfl (congrArg Except.ok (not_eq_true h.2))
  | reference name =>
      refine release (finds_in_object h.1 ?_)
      cases name with
      | api => exact finds_at 4 rfl rfl (congrArg Except.ok (not_eq_true h.2))
      | web => exact finds_at 5 rfl rfl (congrArg Except.ok (not_eq_true h.2))
  | migration => exact result (finds_at 0 rfl rfl (congrArg Except.ok (not_eq_true h)))
  | backupPreflight => exact result (finds_at 1 rfl rfl (congrArg Except.ok (not_eq_true h)))
  | smoke => exact result (finds_at 2 rfl rfl (congrArg Except.ok (not_eq_true h)))
  | backupReason =>
      exact result (finds_at 3 rfl rfl (congrArg Except.ok
        (Bool.and_eq_true_iff.mpr ⟨h.1, isNone_eq_true h.2⟩)))
  | migrationReason =>
      exact result (finds_at 4 rfl rfl (congrArg Except.ok
        (Bool.and_eq_true_iff.mpr ⟨h.1, isNone_eq_true h.2⟩)))
  | authorization => exact authorization (finds_no_object h)
  | releaseType =>
      exact authorization (finds_in_object h.1
        (finds_at 0 rfl rfl (congrArg Except.ok (isNone_eq_true h.2))))
  | provenance =>
      exact authorization (finds_in_object h.1
        (finds_at 1 rfl rfl (congrArg Except.ok (isNone_eq_true h.2))))
  | deployable =>
      exact authorization (finds_in_object h.1
        (finds_at 2 rfl rfl (congrArg Except.ok (not_eq_true h.2))))
  | gateRuns =>
      exact authorization (finds_in_object h.1 (finds_at 3 rfl rfl (congrArg Except.ok
        (Bool.and_eq_true_iff.mpr ⟨h.2.1, not_eq_true h.2.2⟩))))
  | unexpectedGateRuns =>
      exact authorization (finds_in_object h.1 (finds_at 4 rfl rfl (congrArg Except.ok
        (Bool.and_eq_true_iff.mpr h.2))))
  | publicConfig => exact publicConfig (finds_no_object h)
  | fingerprint =>
      exact publicConfig (finds_in_object h.1
        (finds_at 0 rfl rfl (congrArg Except.ok (not_eq_true h.2))))
  | values =>
      exact publicConfig (finds_in_object h.1
        (finds_cons.mpr (Or.inr (finds_no_object h.2))))
  | publicKeys =>
      exact publicConfig (finds_in_object h.1 (finds_cons.mpr (Or.inr (finds_in_object h.2.1
        (finds_at 0 rfl rfl (congrArg Except.ok (decide_eq_true h.2.2)))))))
  | runtimeDigests => exact runtimeDigests (finds_no_object h)
  | runtimeDigest name =>
      have hbroken := Bool.and_eq_true_iff.mpr ⟨not_eq_true h.2.1, not_eq_true h.2.2⟩
      refine runtimeDigests (finds_in_object h.1 ?_)
      cases name with
      | api => exact finds_at 0 rfl rfl (congrArg Except.ok hbroken)
      | web => exact finds_at 1 rfl rfl (congrArg Except.ok hbroken)
  | smokeDigests =>
      exact runtimeDigests (finds_in_object h.1 (finds_at 2 rfl rfl (congrArg Except.ok
        (Bool.and_eq_true_iff.mpr ⟨h.2.1, Bool.or_eq_true_iff.mpr h.2.2⟩))))
  | limitations => exact limitations (finds_at 0 rfl rfl (congrArg Except.ok (not_eq_true h)))
  | credential =>
      obtain ⟨other, hother, hfound⟩ := h
      cases hother
      unfold recordChecks
      exact finds_append.mpr (Or.inr (finds_at 0 rfl rfl (congrArg Except.ok hfound)))

end Found

end RecordChecks

section Reports

variable (toIso : List Char → Option (List Char))

/-- The validator comes to a verdict that has an issue for every broken rule. -/
def ReportsRecord (record : Json) : Prop :=
  ∃ verdict, validateDeploymentRecord toIso record = .ok verdict ∧
    ∀ rule, BrokenRecordRule toIso record rule → ∃ issue ∈ verdict.issues, issue.rule = rule

variable {toIso}

/-- A verdict names every broken rule when all checks complete and each rule is found. -/
theorem verdict_iff {Rule : Type} {checks : List (Check Rule (List Char) Thrown)}
    {Broken : Rule → Prop} :
    (∃ verdict : Verdict Rule,
      (reportAll checks).map (fun issues => (⟨issues.isEmpty, issues⟩ : Verdict Rule)) =
        .ok verdict ∧
      ∀ rule, Broken rule → ∃ issue ∈ verdict.issues, issue.rule = rule) ↔
    (∀ check ∈ checks, check.Completes) ∧ ∀ rule, Broken rule → Finds checks rule := by
  rw [← reports_iff]
  constructor
  · rintro ⟨verdict, hverdict, hissues⟩
    cases hreport : reportAll checks with
    | error e =>
        rw [hreport] at hverdict
        cases hverdict
    | ok issues =>
        rw [hreport] at hverdict
        cases hverdict
        exact ⟨issues, rfl, hissues⟩
  · rintro ⟨issues, hreport, hissues⟩
    exact ⟨⟨issues.isEmpty, issues⟩, by rw [hreport]; rfl, hissues⟩

theorem reportsRecord_iff {record : Json} : ReportsRecord toIso record ↔
    NoInvalidDate toIso (get (some record) "deployedAt") := by
  cases record with
  | object members =>
      change (∃ verdict : Verdict RecordRule,
        (reportAll (recordChecks toIso (.object members))).map _ = .ok verdict ∧
          ∀ rule, BreaksRecord toIso (some (.object members)) rule → _) ↔ _
      rw [verdict_iff, completes_record_iff]
      exact ⟨fun h => h.1, fun h => ⟨h, fun rule => finds_record h⟩⟩
  | _ =>
      refine iff_of_true ⟨_, rfl, fun rule hrule => ⟨_, List.mem_singleton_self _, hrule.symm⟩⟩ ?_
      exact fun _ => nofun

end Reports

end Orgistry.Deployments
