import Orgistry.Text.JsonValue

/-!
# Release gates

`tooling/lib/release-gates.mjs`: whether the required checks succeeded for a commit, from
the workflow runs and jobs that were observed, and the evidence of it.
-/

namespace Orgistry.Model

open Text

structure RequiredGate where
  check : String
  workflow : String
  workflowFile : String
  deriving DecidableEq

/-- `REQUIRED_GATES` -/
def requiredGates : List RequiredGate :=
  [⟨"Validate (offline)", "CI", "ci.yml"⟩,
    ⟨"Integration (PostgreSQL + Redis)", "CI", "ci.yml"⟩,
    ⟨"Artifacts (build + smoke)", "CI", "ci.yml"⟩,
    ⟨"Dependency audit (pnpm)", "Security scans", "security.yml"⟩,
    ⟨"Secret scan (Gitleaks)", "Security scans", "security.yml"⟩,
    ⟨"Analyze (javascript-typescript)", "CodeQL", "codeql.yml"⟩]

inductive GateStatus
  | satisfied
  | pending
  | failed
  deriving DecidableEq

/-- A run as the API describes it; its number is a safe integer. -/
structure WorkflowRun where
  id : ℕ
  id_lt : id < 2 ^ 53
  headSha : List Char
  path : Option (List Char)
  runAttempt : Option ℕ
  status : List Char
  conclusion : Option (List Char)
  htmlUrl : Option (List Char)

structure WorkflowJob where
  name : List Char
  status : List Char
  conclusion : Option (List Char)

section Evaluation

variable (sha : List Char) (runs : List WorkflowRun)
  (jobsByRunId : List Char → Option (List WorkflowJob))

/-- The newest run for a workflow file, the highest number. -/
def latestRunFor (workflowFile : String) : Option WorkflowRun :=
  let candidates := runs.filter fun run =>
    run.headSha = sha && ('/' :: workflowFile.toList).isSuffixOf (run.path.getD [])
  match candidates with
  | [] => none
  | first :: rest =>
      some (rest.foldl (fun newest run => if run.id > newest.id then run else newest) first)

/-- What a run adds to its gate. -/
structure RunIdentity where
  runId : List Char
  runAttempt : List Char
  headSha : List Char
  runConclusion : Option (List Char)
  url : Option (List Char)

structure GateEvaluation where
  gate : RequiredGate
  identity : Option RunIdentity
  state : GateStatus
  reason : Option (List Char)

def RunIdentity.ofRun (run : WorkflowRun) : RunIdentity :=
  { runId := Json.decimal run.id
    runAttempt := Json.decimal (run.runAttempt.getD 1)
    headSha := run.headSha
    runConclusion := run.conclusion
    url := run.htmlUrl }

def evaluateGate (gate : RequiredGate) : GateEvaluation :=
  match latestRunFor sha runs gate.workflowFile with
  | none =>
      { gate, identity := none, state := .pending
        reason := some ("no ".toList ++ gate.workflowFile.toList ++ " run recorded for ".toList ++
          sha ++ " yet".toList) }
  | some run =>
      let identity := some (RunIdentity.ofRun run)
      if run.status ≠ "completed".toList then
        { gate, identity, state := .pending
          reason := some ("run ".toList ++ Json.decimal run.id ++ " is ".toList ++ run.status) }
      else
        let jobs := (jobsByRunId (Json.decimal run.id)).getD []
        match jobs.find? fun candidate => candidate.name = gate.check.toList with
        | none =>
            { gate, identity, state := .failed
              reason := some ("run ".toList ++ Json.decimal run.id ++
                " completed without the required job \"".toList ++ gate.check.toList ++ ['"']) }
        | some job =>
            if job.status ≠ "completed".toList then
              { gate, identity, state := .pending
                reason := some ("job \"".toList ++ gate.check.toList ++ "\" is ".toList ++
                  job.status) }
            else if job.conclusion ≠ some "success".toList then
              { gate, identity, state := .failed
                reason := some ("job \"".toList ++ gate.check.toList ++ "\" concluded ".toList ++
                  job.conclusion.getD "null".toList) }
            else { gate, identity, state := .satisfied, reason := none }

structure GatesEvaluation where
  status : GateStatus
  gates : List GateEvaluation

def evaluateGates : GatesEvaluation :=
  let gates := requiredGates.map (evaluateGate sha runs jobsByRunId)
  let failed := gates.filter fun gate => gate.state = .failed
  let pending := gates.filter fun gate => gate.state = .pending
  { status := if failed ≠ [] then .failed else if pending ≠ [] then .pending else .satisfied
    gates }

end Evaluation

/-- An entry of the evidence; what a gate without a run does not have is left out. -/
def gateEntry (gate : GateEvaluation) : Json :=
  let ofRun (name : String) (value : RunIdentity → Json) : List (List Char × Json) :=
    (gate.identity.map fun identity => (name.toList, value identity)).toList
  .object (
    [("check".toList, .string gate.gate.check.toList),
      ("workflow".toList, .string gate.gate.workflow.toList),
      ("workflowFile".toList, .string gate.gate.workflowFile.toList)] ++
    ofRun "runId" (fun identity => .string identity.runId) ++
    ofRun "runAttempt" (fun identity => .string identity.runAttempt) ++
    [("conclusion".toList, .string "success".toList)] ++
    ofRun "headSha" (fun identity => .string identity.headSha) ++
    ofRun "url" (fun identity => match identity.url with
      | none => .null
      | some url => .string url))

/-- `none` when it refuses to build evidence. -/
def buildGateEvidence (sha : List Char) (evaluation : GatesEvaluation) (verifiedAt : List Char) :
    Option Json :=
  if evaluation.status ≠ .satisfied then none
  else some (.object
    [("headSha".toList, .string sha), ("verifiedAt".toList, .string verifiedAt),
      ("required".toList, .array (evaluation.gates.map gateEntry))])

end Orgistry.Model
