import Orgistry.Model.Retention
import Orgistry.Text.JsonValue

/-!
# The arguments of the retention command

`parseRetentionArgs` of `maintenance/retention-cli.ts`.  How a template writes the
number of a row of digits is given.
-/

namespace Orgistry.Model.RetentionCli

/-- `DEFAULT_MAX_BATCHES_PER_CATEGORY` -/
def defaultMaxBatchesPerCategory : ℕ := 1000

/-- `RETENTION_MAX_BATCH_SIZE` -/
def retentionMaxBatchSize : ℕ := 50000

structure RetentionRunRequest where
  mode : RetentionMode
  categories : List RetentionCategory
  /-- None means that the configured size is used. -/
  batchSize : Option ℕ
  maxBatchesPerCategory : ℕ
  json : Bool
  deriving DecidableEq

inductive RetentionArgs
  | run (request : RetentionRunRequest)
  | help
  | error (messages : List (List Char))
  deriving DecidableEq

/-- `flagValue` -/
def flagValue (argument name : List Char) : Option (List Char) :=
  let flag := "--".toList ++ name ++ ['=']
  if flag.isPrefixOf argument then some (argument.drop flag.length) else none

/-- `findRetentionCategory` -/
def findRetentionCategory (name : List Char) : Option RetentionCategory :=
  retentionCategories.find? fun category => category.name.toList = name

/-- `RETENTION_CATEGORY_NAMES.join(', ')` -/
def categoryNames : List Char :=
  (", ".toList).intercalate (retentionCategories.map fun category => category.name.toList)

/-- The variables of the loop. -/
structure ArgumentState where
  errors : List (List Char) := []
  selected : List RetentionCategory := []
  apply : Bool := false
  dryRun : Bool := false
  batchSize : Option ℕ := none
  maxBatchesPerCategory : ℕ := defaultMaxBatchesPerCategory
  json : Bool := false

def ArgumentState.fail (state : ArgumentState) (message : List Char) : ArgumentState :=
  { state with errors := state.errors ++ [message] }

section Parse

variable (numberText : List Char → List Char)

/-- `parseBoundedInteger`: the value, or the error. -/
def parseBoundedInteger (raw flag : List Char) (max : ℕ) : Except (List Char) ℕ :=
  if raw ≠ [] ∧ raw.all Char.isDigit then
    let value := Text.Json.digitsValue raw
    if value < 1 ∨ max < value then
      .error (flag ++ " must be between 1 and ".toList ++ (toString max).toList ++
        " (got ".toList ++ numberText raw ++ ")".toList)
    else .ok value
  else .error (flag ++ " must be a positive integer (got \"".toList ++ raw ++ "\")".toList)

/-- The flags with a value, and what is no argument at all. -/
def readFlag (state : ArgumentState) (argument : List Char) : ArgumentState :=
  match flagValue argument "category".toList with
  | some categoryName =>
      match findRetentionCategory categoryName with
      | none =>
          state.fail ("Unknown --category \"".toList ++ categoryName ++
            "\". Known categories: ".toList ++ categoryNames)
      | some category =>
          if category ∈ state.selected then state
          else { state with selected := state.selected ++ [category] }
  | none =>
      match flagValue argument "batch-size".toList with
      | some raw =>
          match parseBoundedInteger numberText raw "--batch-size".toList
              retentionMaxBatchSize with
          | .error message => { state.fail message with batchSize := none }
          | .ok value => { state with batchSize := some value }
      | none =>
          match flagValue argument "max-batches".toList with
          | some raw =>
              match parseBoundedInteger numberText raw "--max-batches".toList
                  defaultMaxBatchesPerCategory with
              | .error message => state.fail message
              | .ok value => { state with maxBatchesPerCategory := value }
          | none => state.fail ("Unknown argument \"".toList ++ argument ++ ['"'])

/-- One round of the loop; none is the return with the help. -/
def readArgument (state : ArgumentState) (argument : List Char) : Option ArgumentState :=
  if argument = "--".toList then some state
  else if argument = "--help".toList ∨ argument = "-h".toList then none
  else if argument = "--apply".toList then some { state with apply := true }
  else if argument = "--dry-run".toList then some { state with dryRun := true }
  else if argument = "--json".toList then some { state with json := true }
  else some (readFlag numberText state argument)

def readArguments : ArgumentState → List (List Char) → Option ArgumentState
  | state, [] => some state
  | state, argument :: argv =>
      match readArgument numberText state argument with
      | none => none
      | some state => readArguments state argv

/-- `parseRetentionArgs` -/
def parseRetentionArgs (argv : List (List Char)) : RetentionArgs :=
  match readArguments numberText {} argv with
  | none => .help
  | some state =>
      let errors :=
        if state.apply && state.dryRun then
          state.errors ++ ["--apply and --dry-run are mutually exclusive".toList]
        else state.errors
      if errors ≠ [] then .error errors
      else
        .run {
          mode := if state.apply then .apply else .dryRun
          categories :=
            if state.selected ≠ [] then
              retentionCategories.filter fun category => decide (category ∈ state.selected)
            else retentionCategories
          batchSize := state.batchSize
          maxBatchesPerCategory := state.maxBatchesPerCategory
          json := state.json }

end Parse

end Orgistry.Model.RetentionCli
