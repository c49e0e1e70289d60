import Orgistry.Deployments.CredentialFree
import Orgistry.Deployments.DeployableReleases

/-!
# Authorised releases

When the required checks are satisfied, and that the evidence of it makes a manifest that
is accepted.
-/

namespace Orgistry.Deployments

open Text Json Model Validation

section Satisfied

variable {sha : List Char} {runs : List WorkflowRun}
  {jobsByRunId : List Char → Option (List WorkflowJob)} {gate : RequiredGate}

theorem foldl_newest_mem (first : WorkflowRun) (rest : List WorkflowRun) :
    rest.foldl (fun newest run => if run.id > newest.id then run else newest) first ∈
      first :: rest := by
  induction rest generalizing first with
  | nil => exact List.mem_cons_self
  | cons run rest ih =>
      rw [List.foldl_cons]
      split
      · exact List.mem_cons_of_mem first (ih run)
      · rcases List.mem_cons.mp (ih first) with hfirst | hrest
        · rw [hfirst]
          exact List.mem_cons_self
        · exact List.mem_cons_of_mem first (List.mem_cons_of_mem run hrest)

/-- The newest run is one for the commit. -/
theorem latestRunFor_mem {workflowFile : String} {run : WorkflowRun}
    (h : latestRunFor sha runs workflowFile = some run) : run ∈ runs ∧ run.headSha = sha := by
  unfold latestRunFor at h
  dsimp only at h
  split at h
  · cases h
  · next first rest hcandidates =>
      obtain rfl := Option.some.inj h
      have hmem := foldl_newest_mem first rest
      rw [← hcandidates, List.mem_filter, Bool.and_eq_true, decide_eq_true_eq] at hmem
      exact ⟨hmem.1, hmem.2.1⟩

/-- A check succeeded when its job did in the newest run. -/
def Succeeded (jobsByRunId : List Char → Option (List WorkflowJob)) (gate : RequiredGate)
    (run : WorkflowRun) : Prop :=
  run.status = "completed".toList ∧
    ∃ job, ((jobsByRunId (decimal run.id)).getD []).find?
        (fun candidate => candidate.name = gate.check.toList) = some job ∧
      job.status = "completed".toList ∧ job.conclusion = some "success".toList

theorem evaluateGate_of_succeeded {run : WorkflowRun}
    (hrun : latestRunFor sha runs gate.workflowFile = some run)
    (h : Succeeded jobsByRunId gate run) :
    evaluateGate sha runs jobsByRunId gate = ⟨gate, some (.ofRun run), .satisfied, none⟩ := by
  obtain ⟨hcompleted, job, hjob, hstatus, hconclusion⟩ := h
  unfold evaluateGate
  rw [hrun]
  dsimp only
  rw [if_neg (not_not.mpr hcompleted), hjob]
  dsimp only
  rw [if_neg (not_not.mpr hstatus), if_neg (not_not.mpr hconclusion)]

/-- A gate is decided by the latest run for the commit. -/
theorem evaluateGate_satisfied_iff :
    (evaluateGate sha runs jobsByRunId gate).state = .satisfied ↔
      ∃ run, latestRunFor sha runs gate.workflowFile = some run ∧
        Succeeded jobsByRunId gate run := by
  refine ⟨fun h => ?_, fun ⟨run, hrun, h⟩ => by rw [evaluateGate_of_succeeded hrun h]⟩
  unfold evaluateGate at h
  split at h
  · cases h
  · next run hrun =>
      dsimp only at h
      split at h
      · cases h
      · next hcompleted =>
          split at h
          · cases h
          · next job hjob =>
              split at h
              · cases h
              · next hstatus =>
                  split at h
                  · cases h
                  · next hconclusion =>
                      exact ⟨run, hrun, not_not.mp hcompleted, job, hjob, not_not.mp hstatus,
                        not_not.mp hconclusion⟩

theorem filter_eq_nil_iff_state {gates : List GateEvaluation} {state : GateStatus} :
    gates.filter (fun gate => gate.state = state) = [] ↔ ∀ gate ∈ gates, gate.state ≠ state := by
  rw [List.filter_eq_nil_iff]
  simp only [decide_eq_true_eq, ne_eq]

/-- All required gates have to be satisfied. -/
theorem evaluateGates_satisfied_iff : (evaluateGates sha runs jobsByRunId).status = .satisfied ↔
    ∀ gate ∈ requiredGates, (evaluateGate sha runs jobsByRunId gate).state = .satisfied := by
  unfold evaluateGates
  dsimp only
  rw [← List.forall_mem_map (P := fun gate : GateEvaluation => gate.state = .satisfied)]
  split
  · next h =>
      refine iff_of_false nofun fun hall => h (filter_eq_nil_iff_state.mpr fun gate hgate => ?_)
      rw [hall gate hgate]
      nofun
  · next hfailed =>
      split
      · next h =>
          refine iff_of_false nofun fun hall =>
            h (filter_eq_nil_iff_state.mpr fun gate hgate => ?_)
          rw [hall gate hgate]
          nofun
      · next hpending =>
          refine iff_of_true rfl fun gate hgate => ?_
          have hnotFailed := filter_eq_nil_iff_state.mp (not_not.mp hfailed) gate hgate
          have hnotPending := filter_eq_nil_iff_state.mp (not_not.mp hpending) gate hgate
          cases hstate : gate.state with
          | satisfied => rfl
          | pending => exact absurd hstate hnotPending
          | failed => exact absurd hstate hnotFailed

/-- Each satisfied check has a run for the commit. -/
theorem satisfied_run (h : (evaluateGates sha runs jobsByRunId).status = .satisfied)
    (hgate : gate ∈ requiredGates) : ∃ run ∈ runs, run.headSha = sha ∧
      evaluateGate sha runs jobsByRunId gate = ⟨gate, some (.ofRun run), .satisfied, none⟩ := by
  obtain ⟨run, hrun, hsucceeded⟩ :=
    evaluateGate_satisfied_iff.mp (evaluateGates_satisfied_iff.mp h gate hgate)
  obtain ⟨hmem, hsha⟩ := latestRunFor_mem hrun
  exact ⟨run, hmem, hsha, evaluateGate_of_succeeded hrun hsucceeded⟩

end Satisfied

section Evidence

variable {toIso : List Char → Option (List Char)} {sha verifiedAt : List Char}
  {runs : List WorkflowRun} {jobsByRunId : List Char → Option (List WorkflowJob)}
  {evidence : Json} {manifest : Option Json} {gate : RequiredGate}

theorem isNumeric_decimal (n : ℕ) : isNumeric (decimal n) := by
  obtain ⟨c, digits, h, -⟩ := decimal_eq_cons n
  unfold isNumeric
  rw [Bool.and_eq_true, decide_eq_true_eq, List.all_eq_true]
  exact ⟨by simp [h], decimal_digits n⟩

theorem buildGateEvidence_eq_some_iff {evaluation : GatesEvaluation} :
    buildGateEvidence sha evaluation verifiedAt = some evidence ↔
      evaluation.status = .satisfied ∧ evidence = .object
        [("headSha".toList, .string sha), ("verifiedAt".toList, .string verifiedAt),
          ("required".toList, .array (evaluation.gates.map gateEntry))] := by
  unfold buildGateEvidence
  split
  · next h => exact iff_of_false nofun fun hsatisfied => h hsatisfied.1
  · next h => rw [and_iff_right (not_not.mp h), Option.some.injEq, eq_comm]

/-- The entry of a satisfied check. -/
abbrev entryOf (gate : RequiredGate) (run : WorkflowRun) : Json :=
  gateEntry ⟨gate, some (.ofRun run), .satisfied, none⟩

theorem mem_entries_iff (h : (evaluateGates sha runs jobsByRunId).status = .satisfied)
    {entry : Json} (hentry : entry ∈ (evaluateGates sha runs jobsByRunId).gates.map gateEntry) :
    ∃ gate ∈ requiredGates, ∃ run ∈ runs, run.headSha = sha ∧ entry = entryOf gate run := by
  obtain ⟨evaluation, hevaluation, rfl⟩ := List.mem_map.mp hentry
  obtain ⟨gate, hgate, rfl⟩ := List.mem_map.mp hevaluation
  obtain ⟨run, hrun, hsha, heq⟩ := satisfied_run h hgate
  exact ⟨gate, hgate, run, hrun, hsha, by rw [heq]⟩

theorem gateSucceeded_entry {run : WorkflowRun} (hgate : gate ∈ requiredGates)
    (hsha : run.headSha = sha) : GateSucceeded (some (entryOf gate run)) sha where
  object := rfl
  conclusion := rfl
  headSha := by
    rw [← hsha]
    rfl
  runId := isNumeric_decimal run.id
  workflowFile := by
    have hfile : ∀ gate ∈ requiredGates, gate.workflowFile.toList ≠ [] := by decide +kernel
    change nonEmptyText (some (.string gate.workflowFile.toList)) ≠ none
    rw [nonEmptyText_string (hfile gate hgate)]
    nofun

/-- The evidence of satisfied gates says so. -/
theorem gatesSucceeded_of_evidence
    (hevidence : buildGateEvidence sha (evaluateGates sha runs jobsByRunId) verifiedAt =
      some evidence)
    (hgates : get manifest "gates" = some evidence) (hdate : toIso verifiedAt = some verifiedAt) :
    GatesSucceeded toIso manifest sha := by
  obtain ⟨hsatisfied, rfl⟩ := buildGateEvidence_eq_some_iff.mp hevidence
  have hentries : requiredEntries manifest =
      (evaluateGates sha runs jobsByRunId).gates.map gateEntry := by
    unfold requiredEntries
    rw [hgates]
    rfl
  refine ⟨?_, ?_, ?_, ?_, ?_, ?_⟩
  · rw [hgates]
    rfl
  · rw [hgates]
    rfl
  · rw [hgates]
    exact ⟨verifiedAt, rfl, hdate⟩
  · rw [hentries]
    nofun
  · rw [hentries]
    intro entry hentry
    obtain ⟨gate, hgate, run, -, hsha, rfl⟩ := mem_entries_iff hsatisfied hentry
    exact gateSucceeded_entry hgate hsha
  · intro required hrequired
    obtain ⟨run, -, -, heq⟩ := satisfied_run hsatisfied hrequired
    refine ⟨entryOf required run, ?_, rfl⟩
    rw [hentries, entryOf, ← heq]
    exact List.mem_map_of_mem (List.mem_map_of_mem hrequired)

/-- Only the address of a run can look like a credential. -/
theorem noneWithin_entry {run : WorkflowRun} (hgate : gate ∈ requiredGates)
    (hcommit : isCommit run.headSha) (hurl : ∀ url ∈ run.htmlUrl, CredentialFree url) :
    NoneWithin (entryOf gate run) := by
  have htexts : ∀ gate ∈ requiredGates,
      ∀ text ∈ [gate.check.toList, gate.workflow.toList, gate.workflowFile.toList],
        ':' ∉ text ∧ '=' ∉ text := by decide +kernel
  have htext (text : List Char)
      (h : text ∈ [gate.check.toList, gate.workflow.toList, gate.workflowFile.toList]) :
      CredentialFree text :=
    credentialFree_of_notMem (htexts gate hgate text h).1 (htexts gate hgate text h).2
  have hsuccess : CredentialFree "success".toList :=
    credentialFree_of_notMem (by decide +kernel) (by decide +kernel)
  unfold entryOf gateEntry
  rw [noneWithin_object]
  change ∀ member ∈ [_, _, _, _, _, _, _, _], NoneWithin (Prod.snd member)
  simp only [List.forall_mem_cons, List.not_mem_nil, false_imp_iff, implies_true, and_true,
    noneWithin_string]
  refine ⟨htext _ (by simp), htext _ (by simp), htext _ (by simp), credentialFree_decimal _,
    credentialFree_decimal _, hsuccess, credentialFree_of_isCommit hcommit, ?_⟩
  split
  · exact noneWithin_null
  · next url h => exact noneWithin_string.mpr (hurl url h)

theorem noneWithin_evidence (hdates : WritesDates toIso)
    (hevidence : buildGateEvidence sha (evaluateGates sha runs jobsByRunId) verifiedAt =
      some evidence)
    (hcommit : isCommit sha) (hdate : toIso verifiedAt = some verifiedAt)
    (hurls : ∀ run ∈ runs, ∀ url ∈ run.htmlUrl, CredentialFree url) : NoneWithin evidence := by
  obtain ⟨hsatisfied, rfl⟩ := buildGateEvidence_eq_some_iff.mp hevidence
  rw [noneWithin_object]
  simp only [List.forall_mem_cons, List.not_mem_nil, false_imp_iff, implies_true, and_true,
    noneWithin_string, noneWithin_array]
  refine ⟨credentialFree_of_isCommit hcommit, credentialFree_of_date (hdates _ _ hdate),
    fun entry hentry => ?_⟩
  obtain ⟨gate, hgate, run, hrun, hsha, rfl⟩ := mem_entries_iff hsatisfied hentry
  exact noneWithin_entry hgate (hsha ▸ hcommit) (hurls run hrun)

end Evidence

/-! ## The manifest that is built -/

def inputOf (inputs : ReleaseInputs) : ImageName → ImageInput
  | .api => inputs.api
  | .web => inputs.web

/-- What is read of a manifest that was built. -/
structure Built (inputs : ReleaseInputs) (baseline : MigrationBaseline) (manifest : Option Json) :
    Prop where
  kind : get manifest "kind" = some (.string releaseManifestKind.toList)
  schemaVersion : get manifest "schemaVersion" = some (.number ['2'])
  releaseType : releaseType manifest = some (.string inputs.releaseType)
  deployable : get (get manifest "release") "deployable" =
    some (.bool (inputs.releaseType = "published".toList))
  commit : sourceCommit manifest = some (.string inputs.commit)
  ref : get (get manifest "source") "ref" = some (.string inputs.ref)
  builtAt : get (get manifest "source") "builtAt" = some (.string inputs.builtAt)
  provenance : get (get manifest "source") "provenance" = some (.string inputs.provenance)
  workingTreeDigest : get (get manifest "source") "workingTreeDigest" =
    inputs.workingTreeDigest.map .string
  images : isObject (get manifest "images")
  image : ∀ name, imageOf manifest name = some (buildImageIdentity (inputOf inputs name))
  migrations : isObject (get manifest "migrations")
  head : get (get manifest "migrations") "head" = some (.string baseline.head)
  count : get (get manifest "migrations") "count" = some (.number (decimal baseline.count))
  appliedAtMs : get (get manifest "migrations") "appliedAtMs" =
    some (.number baseline.appliedAtMs)
  artifact : get (get manifest "migrations") "artifact" = some (.string migrationArtifact.toList)
  entrypoint : get (get manifest "migrations") "entrypoint" =
    some (.string migrationEntrypoint.toList)
  gates : get manifest "gates" = inputs.gates
  build : get manifest "build" = inputs.build

section Building

variable {toIso : List Char → Option (List Char)} {sha verifiedAt : List Char}
  {runs : List WorkflowRun} {jobsByRunId : List Char → Option (List WorkflowJob)}
  {inputs : ReleaseInputs} {baseline : MigrationBaseline} {manifest evidence : Json}

theorem built (h : buildReleaseManifest inputs = some manifest)
    (hjournal : readMigrationBaseline inputs.journal = some baseline) :
    Built inputs baseline (some manifest) := by
  unfold buildReleaseManifest at h
  rw [hjournal] at h
  obtain rfl := Option.some.inj h
  obtain ⟨type, provenance, commit, ref, builtAt, digest, api, web, gates, build, journal⟩ := inputs
  cases digest <;> cases gates <;> cases build <;> constructor <;>
    first
    | rfl
    | rintro ⟨_⟩ <;> rfl

/-- The image is named by a digest of its form, and tagged with the commit. -/
structure ImageWellFormed (image : ImageInput) (sha : List Char) : Prop where
  tag : image.tag = sha
  repository : isRepositoryText image.repository
  digest : isDigestText image.digest
  credentialFree : CredentialFree image.reference

/-- The inputs of a published release of the commit and of the evidence for it. -/
structure WellFormed (toIso : List Char → Option (List Char)) (sha verifiedAt : List Char)
    (runs : List WorkflowRun) (inputs : ReleaseInputs) : Prop where
  releaseType : inputs.releaseType = "published".toList
  provenance : inputs.provenance = "commit".toList
  commit : inputs.commit = sha
  commitForm : isCommit sha
  ref : inputs.ref ≠ [] ∧ CredentialFree inputs.ref
  builtAt : inputs.builtAt ≠ [] ∧ toIso inputs.builtAt = some inputs.builtAt
  unmodified : inputs.workingTreeDigest = none
  image : ∀ name, ImageWellFormed (inputOf inputs name) sha
  build : ∀ build ∈ inputs.build, isObject (some build) ∧
    isOneOf (get (some build) "artifactSmoke") artifactSmokeResults ∧ NoneWithin build
  journal : ∃ baseline ∈ readMigrationBaseline inputs.journal, isMigrationHead baseline.head ∧
    ∃ n ∈ integerOf (some (.number baseline.appliedAtMs)), 1 ≤ n
  verifiedAt : toIso verifiedAt = some verifiedAt
  urls : ∀ run ∈ runs, ∀ url ∈ run.htmlUrl, CredentialFree url

theorem imagePinned_built {image : ImageInput} (h : ImageWellFormed image sha) :
    ImagePinned (some (buildImageIdentity image)) sha where
  object := rfl
  tag := by
    rw [← h.tag]
    rfl
  reference := ⟨image.repository, image.digest, h.repository, h.digest, rfl, rfl, rfl⟩
  fields := rfl

theorem one_le_count (h : readMigrationBaseline inputs.journal = some baseline) :
    1 ≤ baseline.count := by
  unfold readMigrationBaseline at h
  split at h
  · next entries _ =>
      split at h
      · cases h
      · next head hhead =>
          split at h
          · obtain rfl := Option.some.inj h
            exact List.length_pos_iff.mpr fun hnil => by simp [hnil] at hhead
          · cases h
  · cases h

theorem noneWithin_image {image : ImageInput} (hcommit : isCommit sha)
    (h : ImageWellFormed image sha) : NoneWithin (buildImageIdentity image) := by
  unfold buildImageIdentity
  rw [noneWithin_object]
  simp only [List.forall_mem_cons, List.not_mem_nil, false_imp_iff, implies_true, and_true,
    noneWithin_string]
  exact ⟨h.credentialFree.left, h.tag ▸ credentialFree_of_isCommit hcommit,
    h.credentialFree.right rfl, h.credentialFree⟩

theorem noneWithin_optionalMember {name : String} {value : Option Json}
    (h : ∀ value' ∈ value, NoneWithin value') :
    ∀ member ∈ optionalMember name value, NoneWithin member.2 := by
  cases value with
  | none => nofun
  | some value =>
      intro member hmember
      obtain rfl := List.mem_singleton.mp hmember
      exact h value rfl

/-- Nothing in a built manifest looks like a credential. -/
theorem noneWithin_built (hdates : WritesDates toIso)
    (h : WellFormed toIso sha verifiedAt runs inputs)
    (hgates : ∀ gates ∈ inputs.gates, NoneWithin gates)
    (hbuild : buildReleaseManifest inputs = some manifest) : NoneWithin manifest := by
  obtain ⟨baseline, hjournal, hhead, -⟩ := h.journal
  unfold buildReleaseManifest at hbuild
  rw [hjournal] at hbuild
  obtain rfl := Option.some.inj hbuild
  have hfixed : ∀ text ∈ ["published".toList, "commit".toList, releaseManifestKind.toList,
      migrationArtifact.toList, migrationEntrypoint.toList], ':' ∉ text ∧ '=' ∉ text := by
    decide +kernel
  have hfree (text : List Char) (htext : text ∈ ["published".toList, "commit".toList,
      releaseManifestKind.toList, migrationArtifact.toList, migrationEntrypoint.toList]) :
      CredentialFree text :=
    credentialFree_of_notMem (hfixed text htext).1 (hfixed text htext).2
  simp only [noneWithin_object, List.forall_mem_append, List.forall_mem_cons, List.not_mem_nil,
    false_imp_iff, implies_true, and_true, noneWithin_string, noneWithin_number, noneWithin_bool,
    true_and, h.unmodified, h.releaseType, h.provenance, h.commit]
  refine ⟨⟨⟨hfree _ (by simp), hfree _ (by simp), ⟨?_, nofun⟩, ?_, ?_⟩, ?_⟩, ?_⟩
  · exact ⟨hfree _ (by simp), credentialFree_of_isCommit h.commitForm, h.ref.2,
      credentialFree_of_date (hdates _ _ h.builtAt.2)⟩
  · exact ⟨noneWithin_image h.commitForm (h.image .api),
      noneWithin_image h.commitForm (h.image .web)⟩
  · exact ⟨credentialFree_of_isMigrationHead hhead, hfree _ (by simp), hfree _ (by simp)⟩
  · exact noneWithin_optionalMember hgates
  · exact noneWithin_optionalMember fun build hbuild => (h.build build hbuild).2.2

/-- A manifest that is built from satisfied gates can be deployed. -/
theorem deployable_built (hdates : WritesDates toIso)
    (h : WellFormed toIso sha verifiedAt runs inputs)
    (hevidence : buildGateEvidence sha (evaluateGates sha runs jobsByRunId) verifiedAt =
      some evidence)
    (hgates : inputs.gates = some evidence) (hbuild : buildReleaseManifest inputs = some manifest) :
    Deployable toIso manifest sha := by
  obtain ⟨baseline, hjournal, hhead, happlied⟩ := h.journal
  have hbuilt := built hbuild hjournal
  refine {
    kind := hbuilt.kind
    schemaVersion := ?_
    published := ?_
    deployable := ?_
    source := ?_
    commitForm := h.commitForm
    ref := ?_
    builtAt := ⟨inputs.builtAt, ?_, h.builtAt.2⟩
    provenance := ?_
    unmodified := ?_
    images := hbuilt.images
    image := fun name => ?_
    migrations := ?_
    build := fun build hmember => ?_
    gates := gatesSucceeded_of_evidence hevidence (hbuilt.gates.trans hgates) h.verifiedAt
    noCredential := ?_ }
  · rw [hbuilt.schemaVersion]
    rfl
  · rw [hbuilt.releaseType, h.releaseType]
  · unfold SaysDeployable
    rw [hbuilt.deployable, decide_eq_true h.releaseType]
  · rw [hbuilt.commit, h.commit]
  · rw [hbuilt.ref, nonEmptyText_string h.ref.1]
    nofun
  · rw [hbuilt.builtAt, nonEmptyText_string h.builtAt.1]
  · rw [hbuilt.provenance, h.provenance]
  · rw [hbuilt.workingTreeDigest, h.unmodified]
    rfl
  · rw [hbuilt.image name]
    exact imagePinned_built (h.image name)
  · exact {
      object := hbuilt.migrations
      head := isText_iff.mpr ⟨baseline.head, hbuilt.head, hhead⟩
      count := by
        rw [hbuilt.count, integerOf_decimal]
        exact ⟨_, rfl, by exact_mod_cast one_le_count hjournal⟩
      appliedAtMs := by
        rw [hbuilt.appliedAtMs]
        exact happlied
      artifact := hbuilt.artifact
      entrypoint := hbuilt.entrypoint }
  · rw [hbuilt.build] at hmember
    obtain ⟨hobject, hsmoke, -⟩ := h.build build hmember
    exact ⟨hobject, hsmoke⟩
  · refine findEmbeddedCredential_eq_none_iff.mpr (noneWithin_built hdates h ?_ hbuild)
    intro gates hmember
    rw [hgates] at hmember
    obtain rfl := Option.some.inj hmember
    exact noneWithin_evidence hdates hevidence h.commitForm h.verifiedAt h.urls

end Building

/-- The release is of a clean commit, its images are pinned, and every required check
succeeded for this very commit. -/
structure Authorised (manifest : Json) (commit : List Char) : Prop where
  commitForm : isCommit commit
  source : sourceCommit (some manifest) = some (.string commit)
  provenance : get (get (some manifest) "source") "provenance" =
    some (.string "commit".toList)
  unmodified : get (get (some manifest) "source") "workingTreeDigest" = none
  image : ∀ name, ImagePinned (imageOf (some manifest) name) commit
  succeeded : ∀ required ∈ requiredGates, ∃ gate ∈ requiredEntries (some manifest),
    get (some gate) "check" = some (.string required.check.toList) ∧
      GateSucceeded (some gate) commit

theorem Deployable.authorised {toIso : List Char → Option (List Char)} {manifest : Json}
    {commit : List Char} (h : Deployable toIso manifest commit) : Authorised manifest commit where
  commitForm := h.commitForm
  source := h.source
  provenance := h.provenance
  unmodified := h.unmodified
  image := h.image
  succeeded required hrequired := by
    obtain ⟨gate, hgate, hcheck⟩ := h.gates.required required hrequired
    exact ⟨gate, hgate, hcheck, h.gates.succeeded gate hgate⟩

/-- Only authorised releases are deployable, and those whose required checks are
satisfied can be. -/
theorem deployable_only_authorised {toIso : List Char → Option (List Char)}
    (hdates : WritesDates toIso) :
    (∀ manifest, Accepts toIso manifest → SaysDeployable manifest →
      ∃ commit, Authorised manifest commit) ∧
    ∀ (sha verifiedAt : List Char) (runs : List WorkflowRun)
      (jobsByRunId : List Char → Option (List WorkflowJob)) (inputs : ReleaseInputs),
      (evaluateGates sha runs jobsByRunId).status = .satisfied →
      WellFormed toIso sha verifiedAt runs inputs →
      ∃ evidence, buildGateEvidence sha (evaluateGates sha runs jobsByRunId) verifiedAt =
          some evidence ∧
        ∃ manifest, buildReleaseManifest { inputs with gates := some evidence } = some manifest ∧
          Accepts toIso manifest ∧ SaysDeployable manifest := by
  constructor
  · intro manifest haccepts hdeployable
    obtain ⟨commit, h⟩ := accepts_deployable_iff.mp ⟨haccepts, hdeployable⟩
    exact ⟨commit, h.authorised⟩
  · intro sha verifiedAt runs jobsByRunId inputs hsatisfied h
    obtain ⟨evidence, hevidence⟩ : ∃ evidence,
        buildGateEvidence sha (evaluateGates sha runs jobsByRunId) verifiedAt = some evidence :=
      ⟨_, buildGateEvidence_eq_some_iff.mpr ⟨hsatisfied, rfl⟩⟩
    have hinputs : WellFormed toIso sha verifiedAt runs { inputs with gates := some evidence } :=
      { h with }
    obtain ⟨baseline, hjournal, -⟩ := h.journal
    obtain ⟨manifest, hbuild⟩ : ∃ manifest,
        buildReleaseManifest { inputs with gates := some evidence } = some manifest := by
      unfold buildReleaseManifest
      rw [hjournal]
      exact ⟨_, rfl⟩
    exact ⟨evidence, hevidence, manifest, hbuild, accepts_deployable_iff.mpr
      ⟨sha, deployable_built hdates hinputs hevidence rfl hbuild⟩⟩

section Green

def greenCommit : List Char := List.replicate 40 'a'

def greenDate : List Char := "2026-08-24T09:00:00.000Z".toList

theorem id_lt_of_fin (id : Fin 3) : id.val < 2 ^ 53 := by omega

def greenRun (id : Fin 3) (path : String) : WorkflowRun :=
  { id := id.val
    id_lt := id_lt_of_fin id
    headSha := greenCommit
    path := some path.toList
    runAttempt := none
    status := "completed".toList
    conclusion := some "success".toList
    htmlUrl := none }

def greenRuns : List WorkflowRun :=
  [greenRun 0 ".github/workflows/ci.yml", greenRun 1 ".github/workflows/security.yml",
    greenRun 2 ".github/workflows/codeql.yml"]

/-- All jobs succeeded, in every run. -/
def greenJobs (_ : List Char) : Option (List WorkflowJob) :=
  some (requiredGates.map fun gate =>
    ⟨gate.check.toList, "completed".toList, some "success".toList⟩)

def greenImage (name : String) : ImageInput :=
  { repository := ("registry.example/orgistry/" ++ name).toList
    tag := greenCommit
    digest := "sha256:".toList ++ List.replicate 64 'b' }

def greenInputs : ReleaseInputs :=
  { releaseType := "published".toList
    provenance := "commit".toList
    commit := greenCommit
    ref := "refs/heads/main".toList
    builtAt := greenDate
    workingTreeDigest := none
    api := greenImage "api"
    web := greenImage "web"
    gates := none
    build := none
    journal := .object [("entries".toList, .array [.object [("tag".toList,
      .string "0001_users".toList), ("when".toList, .number "1000".toList)]])] }

theorem writesDates_oneDate : WritesDates oneDate := by
  intro text iso h
  unfold oneDate at h
  split at h
  · next htext =>
      obtain rfl := Option.some.inj h
      rw [htext]
      exact List.all_eq_true.mp (by decide +kernel)
  · cases h

theorem greenImage_wellFormed {name : String} (h : name ∈ ["api", "web"]) :
    ImageWellFormed (greenImage name) greenCommit where
  tag := rfl
  repository := by
    revert h name
    decide +kernel
  digest := by
    revert h name
    decide +kernel
  credentialFree := by
    simp only [credentialFree_iff]
    revert h name
    decide +kernel

theorem greenInputs_wellFormed :
    WellFormed oneDate greenCommit greenDate greenRuns greenInputs where
  releaseType := rfl
  provenance := rfl
  commit := rfl
  commitForm := by decide +kernel
  ref := ⟨by decide +kernel, credentialFree_of_notMem (by decide +kernel) (by decide +kernel)⟩
  builtAt := by decide +kernel
  unmodified := rfl
  image name := by
    cases name with
    | api => exact greenImage_wellFormed (by decide +kernel)
    | web => exact greenImage_wellFormed (by decide +kernel)
  build := nofun
  journal := ⟨⟨"0001_users".toList, 1, "1000".toList⟩, rfl, by decide +kernel, 1000,
    by decide +kernel, by decide⟩
  verifiedAt := by decide +kernel
  urls := by
    intro run hrun url hurl
    simp only [greenRuns, List.mem_cons, List.not_mem_nil, or_false] at hrun
    rcases hrun with rfl | rfl | rfl <;> cases hurl

theorem green_release_authorised : ∃ evidence manifest,
    buildReleaseManifest { greenInputs with gates := some evidence } = some manifest ∧
      ∃ commit, Authorised manifest commit := by
  obtain ⟨honly, hcan⟩ := deployable_only_authorised writesDates_oneDate
  obtain ⟨evidence, -, manifest, hbuild, haccepts, hdeployable⟩ := hcan greenCommit greenDate
    greenRuns greenJobs greenInputs (by decide +kernel) greenInputs_wellFormed
  exact ⟨evidence, manifest, hbuild, honly manifest haccepts hdeployable⟩

end Green

end Orgistry.Deployments
