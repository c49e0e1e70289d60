import Orgistry.Model.RetentionArgs

/-!
# Retention arguments

A round of the loop either knows its argument or records an error, and errors are never
dropped.  A run therefore comes of arguments that are all known, and it deletes only
where one of them says so.
-/

namespace Orgistry.Model.RetentionCli

variable {numberText : List Char → List Char} {state state' : ArgumentState}
  {argument name other raw : List Char} {argv : List (List Char)} {request : RetentionRunRequest}

/-- Digits whose value is from one to `max`. -/
def BoundedInteger (raw : List Char) (max : ℕ) : Prop :=
  raw ≠ [] ∧ raw.all Char.isDigit = true ∧ 1 ≤ Text.Json.digitsValue raw ∧
    Text.Json.digitsValue raw ≤ max

/-- A recognised argument with a valid value.  The two that ask for help are not among
them. -/
def Recognised (argument : List Char) : Prop :=
  argument ∈ ["--".toList, "--apply".toList, "--dry-run".toList, "--json".toList] ∨
    (∃ category ∈ retentionCategories,
      argument = "--category=".toList ++ category.name.toList) ∨
    (∃ raw, argument = "--batch-size=".toList ++ raw ∧
      BoundedInteger raw retentionMaxBatchSize) ∨
    ∃ raw, argument = "--max-batches=".toList ++ raw ∧
      BoundedInteger raw defaultMaxBatchesPerCategory

theorem flagValue_eq_some_iff :
    flagValue argument name = some raw ↔ argument = "--".toList ++ name ++ ['='] ++ raw := by
  unfold flagValue
  dsimp only
  split
  · next h =>
      obtain ⟨rest, rfl⟩ := List.isPrefixOf_iff_prefix.mp h
      rw [List.drop_left, Option.some.injEq, List.append_cancel_left_eq]
  · next h =>
      refine iff_of_false nofun ?_
      rintro rfl
      exact h (List.isPrefixOf_iff_prefix.mpr (List.prefix_append _ _))

theorem parseBoundedInteger_eq_ok {flag : List Char} {max value : ℕ}
    (h : parseBoundedInteger numberText raw flag max = .ok value) :
    BoundedInteger raw max ∧ 1 ≤ value ∧ value ≤ max := by
  unfold parseBoundedInteger at h
  split at h
  · next hdigits =>
      dsimp only at h
      split at h
      · cases h
      · next hvalue =>
          cases h
          rw [not_or, not_lt, not_lt] at hvalue
          exact ⟨⟨hdigits.1, hdigits.2, hvalue.1, hvalue.2⟩, hvalue⟩
  · cases h

theorem parseBoundedInteger_eq_error {flag message : List Char} {max : ℕ}
    (h : parseBoundedInteger numberText raw flag max = .error message) :
    ¬BoundedInteger raw max := by
  rintro ⟨hne, hdigits, hlow, hhigh⟩
  unfold parseBoundedInteger at h
  rw [if_pos ⟨hne, hdigits⟩, if_neg (not_or.mpr ⟨not_lt.mpr hlow, not_lt.mpr hhigh⟩)] at h
  cases h

theorem findRetentionCategory_eq_some {category : RetentionCategory}
    (h : findRetentionCategory name = some category) :
    category ∈ retentionCategories ∧ category.name.toList = name := by
  unfold findRetentionCategory at h
  exact ⟨List.mem_of_find?_eq_some h, by simpa using List.find?_some h⟩

theorem findRetentionCategory_eq_none (h : findRetentionCategory name = none) :
    ∀ category ∈ retentionCategories, category.name.toList ≠ name := by
  intro category hcategory
  simpa using List.find?_eq_none.mp h category hcategory

/-! What is known of an argument by its flag. -/

theorem recognised_category_iff (h : flagValue argument "category".toList = some name) :
    Recognised argument ↔ ∃ category ∈ retentionCategories, category.name.toList = name := by
  obtain rfl : argument = "--category=".toList ++ name := flagValue_eq_some_iff.mp h
  refine ⟨?_, fun ⟨category, hmem, hname⟩ => Or.inr (Or.inl ⟨category, hmem, by rw [hname]⟩)⟩
  rintro (h | ⟨category, hmem, h⟩ | ⟨raw, h, -⟩ | ⟨raw, h, -⟩)
  · simp at h
  · exact ⟨category, hmem, (List.append_cancel_left h).symm⟩
  · simp at h
  · simp at h

theorem recognised_batchSize_iff (h : flagValue argument "batch-size".toList = some raw) :
    Recognised argument ↔ BoundedInteger raw retentionMaxBatchSize := by
  obtain rfl : argument = "--batch-size=".toList ++ raw := flagValue_eq_some_iff.mp h
  simp [Recognised]

theorem recognised_maxBatches_iff (h : flagValue argument "max-batches".toList = some raw) :
    Recognised argument ↔ BoundedInteger raw defaultMaxBatchesPerCategory := by
  obtain rfl : argument = "--max-batches=".toList ++ raw := flagValue_eq_some_iff.mp h
  simp [Recognised]

theorem not_recognised_of_flags
    (hplain : argument ∉ ["--".toList, "--apply".toList, "--dry-run".toList, "--json".toList])
    (hcategory : flagValue argument "category".toList = none)
    (hbatchSize : flagValue argument "batch-size".toList = none)
    (hmaxBatches : flagValue argument "max-batches".toList = none) : ¬Recognised argument := by
  have hflag {name raw : List Char} (hnone : flagValue argument name = none) :
      argument ≠ "--".toList ++ name ++ ['='] ++ raw := fun h => by
    rw [flagValue_eq_some_iff.mpr h] at hnone
    cases hnone
  rintro (h | ⟨category, -, h⟩ | ⟨raw, h, -⟩ | ⟨raw, h, -⟩)
  · exact hplain h
  · exact hflag hcategory h
  · exact hflag hbatchSize h
  · exact hflag hmaxBatches h

/-- The numbers are in their bounds. -/
def Bounded (batchSize : Option ℕ) (maxBatchesPerCategory : ℕ) : Prop :=
  (∀ n, batchSize = some n → 1 ≤ n ∧ n ≤ retentionMaxBatchSize) ∧
    1 ≤ maxBatchesPerCategory ∧ maxBatchesPerCategory ≤ defaultMaxBatchesPerCategory

/-- What a round does with its argument. -/
structure Round (argument : List Char) (state state' : ArgumentState) : Prop where
  errors : state'.errors = [] ↔ state.errors = [] ∧ Recognised argument
  apply : state'.apply = true ↔ state.apply = true ∨ argument = "--apply".toList
  dryRun : state'.dryRun = true ↔ state.dryRun = true ∨ argument = "--dry-run".toList
  bounded : Bounded state.batchSize state.maxBatchesPerCategory →
    Bounded state'.batchSize state'.maxBatchesPerCategory

theorem fail_errors_ne_nil (state : ArgumentState) (message : List Char) :
    (state.fail message).errors ≠ [] :=
  List.append_ne_nil_of_right_ne_nil _ (List.cons_ne_nil _ _)

/-- A flag leaves an error exactly when it is not recognised. -/
theorem readFlag_errors
    (hplain : argument ∉ ["--".toList, "--apply".toList, "--dry-run".toList, "--json".toList]) :
    Recognised argument ∧ (readFlag numberText state argument).errors = state.errors ∨
      ¬Recognised argument ∧ (readFlag numberText state argument).errors ≠ [] := by
  unfold readFlag
  split
  · next categoryName hcategory =>
      rw [recognised_category_iff hcategory]
      split
      · next hfind =>
          refine Or.inr ⟨?_, fail_errors_ne_nil _ _⟩
          rintro ⟨category, hmem, hname⟩
          exact findRetentionCategory_eq_none hfind category hmem hname
      · next category hfind =>
          refine Or.inl ⟨⟨category, findRetentionCategory_eq_some hfind⟩, ?_⟩
          split <;> rfl
  · next hcategory =>
      split
      · next raw hbatchSize =>
          rw [recognised_batchSize_iff hbatchSize]
          split
          · next hvalue =>
              exact Or.inr ⟨parseBoundedInteger_eq_error hvalue, fail_errors_ne_nil _ _⟩
          · next hvalue => exact Or.inl ⟨(parseBoundedInteger_eq_ok hvalue).1, rfl⟩
      · next hbatchSize =>
          split
          · next raw hmaxBatches =>
              rw [recognised_maxBatches_iff hmaxBatches]
              split
              · next hvalue =>
                  exact Or.inr ⟨parseBoundedInteger_eq_error hvalue, fail_errors_ne_nil _ _⟩
              · next hvalue => exact Or.inl ⟨(parseBoundedInteger_eq_ok hvalue).1, rfl⟩
          · next hmaxBatches =>
              exact Or.inr ⟨not_recognised_of_flags hplain hcategory hbatchSize hmaxBatches,
                fail_errors_ne_nil _ _⟩

/-- A flag with a value decides nothing about the mode, and only a value within its bounds
is taken. -/
theorem readFlag_frame :
    (readFlag numberText state argument).apply = state.apply ∧
      (readFlag numberText state argument).dryRun = state.dryRun ∧
      (Bounded state.batchSize state.maxBatchesPerCategory →
        Bounded (readFlag numberText state argument).batchSize
          (readFlag numberText state argument).maxBatchesPerCategory) := by
  unfold readFlag
  split
  · split
    · exact ⟨rfl, rfl, id⟩
    · split <;> exact ⟨rfl, rfl, id⟩
  · split
    · split
      · exact ⟨rfl, rfl, fun hbounded => ⟨nofun, hbounded.2⟩⟩
      · next hvalue =>
          refine ⟨rfl, rfl, fun hbounded => ⟨?_, hbounded.2⟩⟩
          rintro n ⟨⟩
          exact (parseBoundedInteger_eq_ok hvalue).2
    · split
      · split
        · exact ⟨rfl, rfl, id⟩
        · next hvalue =>
            exact ⟨rfl, rfl, fun hbounded => ⟨hbounded.1, (parseBoundedInteger_eq_ok hvalue).2⟩⟩
      · exact ⟨rfl, rfl, id⟩

theorem readFlag_round
    (hplain : argument ∉ ["--".toList, "--apply".toList, "--dry-run".toList, "--json".toList]) :
    Round argument state (readFlag numberText state argument) := by
  obtain ⟨happly, hdryRun, hbounded⟩ := readFlag_frame
  have hne : argument ≠ "--apply".toList ∧ argument ≠ "--dry-run".toList := by
    simp only [List.mem_cons, List.not_mem_nil, or_false, not_or] at hplain
    exact ⟨hplain.2.1, hplain.2.2.1⟩
  constructor
  · rcases readFlag_errors hplain with h | h
    · rw [h.2]
      exact (and_iff_left h.1).symm
    · exact iff_of_false h.2 fun hrecognised => h.1 hrecognised.2
  · rw [happly, or_iff_left hne.1]
  · rw [hdryRun, or_iff_left hne.2]
  · exact hbounded

/-- The flags without a value, one of them at a time. -/
theorem readArgument_eq_some (h : readArgument numberText state argument = some state') :
    argument = "--".toList ∧ state' = state ∨
      argument = "--apply".toList ∧ state' = { state with apply := true } ∨
      argument = "--dry-run".toList ∧ state' = { state with dryRun := true } ∨
      argument = "--json".toList ∧ state' = { state with json := true } ∨
      argument ∉ ["--".toList, "--apply".toList, "--dry-run".toList, "--json".toList] ∧
        state' = readFlag numberText state argument := by
  unfold readArgument at h
  split at h
  · next hend => exact Or.inl ⟨hend, (Option.some.inj h).symm⟩
  · next hend =>
      split at h
      · cases h
      · split at h
        · next happly => exact Or.inr (Or.inl ⟨happly, (Option.some.inj h).symm⟩)
        · next happly =>
            split at h
            · next hdryRun => exact Or.inr (Or.inr (Or.inl ⟨hdryRun, (Option.some.inj h).symm⟩))
            · next hdryRun =>
                refine Or.inr (Or.inr (Or.inr ?_))
                split at h
                · next hjson => exact Or.inl ⟨hjson, (Option.some.inj h).symm⟩
                · next hjson =>
                    refine Or.inr ⟨?_, (Option.some.inj h).symm⟩
                    simp only [List.mem_cons, List.not_mem_nil, or_false, not_or]
                    exact ⟨hend, happly, hdryRun, hjson⟩

theorem readArgument_round (h : readArgument numberText state argument = some state') :
    Round argument state state' := by
  obtain ⟨rfl, rfl⟩ | ⟨rfl, rfl⟩ | ⟨rfl, rfl⟩ | ⟨rfl, rfl⟩ | ⟨hplain, rfl⟩ :=
    readArgument_eq_some h
  · constructor <;> simp [Recognised]
  · constructor <;> simp [Recognised]
  · constructor <;> simp [Recognised]
  · constructor <;> simp [Recognised]
  · exact readFlag_round hplain

theorem readArgument_eq_none (h : readArgument numberText state argument = none) :
    ¬Recognised argument := by
  have hhelp : argument = "--help".toList ∨ argument = "-h".toList := by
    unfold readArgument at h
    split at h
    · cases h
    · split at h
      · assumption
      · repeat (split at h; cases h)
        cases h
  rcases hhelp with rfl | rfl <;> simp [Recognised]

/-! ## All rounds -/

/-- What the loop has done with the arguments. -/
structure Rounds (argv : List (List Char)) (state state' : ArgumentState) : Prop where
  errors : state'.errors = [] ↔ state.errors = [] ∧ ∀ argument ∈ argv, Recognised argument
  apply : state'.apply = true ↔ state.apply = true ∨ "--apply".toList ∈ argv
  dryRun : state'.dryRun = true ↔ state.dryRun = true ∨ "--dry-run".toList ∈ argv
  bounded : Bounded state.batchSize state.maxBatchesPerCategory →
    Bounded state'.batchSize state'.maxBatchesPerCategory

/-- The arguments are read round by round. -/
theorem readArguments_rounds (h : readArguments numberText state argv = some state') :
    Rounds argv state state' := by
  induction argv generalizing state with
  | nil =>
      cases h
      constructor <;> simp
  | cons argument argv ih =>
      rw [readArguments] at h
      split at h
      · cases h
      · next between hround =>
          have hfirst := readArgument_round hround
          have hrest := ih h
          constructor
          · rw [hrest.errors, hfirst.errors, List.forall_mem_cons, and_assoc]
          · rw [hrest.apply, hfirst.apply, List.mem_cons, or_assoc, eq_comm (a := argument)]
          · rw [hrest.dryRun, hfirst.dryRun, List.mem_cons, or_assoc, eq_comm (a := argument)]
          · exact fun hbounded => hrest.bounded (hfirst.bounded hbounded)

theorem readArguments_eq_none (h : readArguments numberText state argv = none) :
    ∃ argument ∈ argv, ¬Recognised argument := by
  induction argv generalizing state with
  | nil => cases h
  | cons argument argv ih =>
      rw [readArguments] at h
      split at h
      · next hround => exact ⟨argument, List.mem_cons_self, readArgument_eq_none hround⟩
      · obtain ⟨other, hmem, hother⟩ := ih h
        exact ⟨other, List.mem_cons_of_mem _ hmem, hother⟩

/-- The arguments ask for both modes. -/
def Contradictory (argv : List (List Char)) : Prop :=
  "--apply".toList ∈ argv ∧ "--dry-run".toList ∈ argv

theorem bounded_initial : Bounded none defaultMaxBatchesPerCategory :=
  ⟨nofun, by decide, le_rfl⟩

theorem finalErrors_eq_nil (state : ArgumentState) (message : List Char) :
    (if state.apply && state.dryRun then state.errors ++ [message] else state.errors) = [] ↔
      state.errors = [] ∧ ¬(state.apply = true ∧ state.dryRun = true) := by
  split
  · next hboth =>
      rw [Bool.and_eq_true] at hboth
      exact iff_of_false (fail_errors_ne_nil state message) fun h => h.2 hboth
  · next hboth =>
      rw [Bool.and_eq_true] at hboth
      exact (and_iff_left hboth).symm

/-- What a run comes of. -/
theorem parseRetentionArgs_eq_run (h : parseRetentionArgs numberText argv = .run request) :
    (∀ argument ∈ argv, Recognised argument) ∧ ¬Contradictory argv ∧
      (request.mode = .apply ↔ "--apply".toList ∈ argv) ∧
      request.categories.Sublist retentionCategories ∧
      Bounded request.batchSize request.maxBatchesPerCategory := by
  unfold parseRetentionArgs at h
  split at h
  · cases h
  · next state hread =>
      have hrounds := readArguments_rounds hread
      have happly : state.apply = true ↔ "--apply".toList ∈ argv :=
        hrounds.apply.trans (or_iff_right Bool.false_ne_true)
      have hdryRun : state.dryRun = true ↔ "--dry-run".toList ∈ argv :=
        hrounds.dryRun.trans (or_iff_right Bool.false_ne_true)
      dsimp only at h
      have hfinal := finalErrors_eq_nil state "--apply and --dry-run are mutually exclusive".toList
      by_cases hrun : state.errors = [] ∧ ¬(state.apply = true ∧ state.dryRun = true)
      · rw [if_neg (not_not.mpr (hfinal.mpr hrun))] at h
        cases h
        rw [happly, hdryRun] at hrun
        refine ⟨(hrounds.errors.mp hrun.1).2, hrun.2, ?_, ?_, hrounds.bounded bounded_initial⟩
        · rw [← happly]
          dsimp only
          split <;> simp [*]
        · dsimp only
          split
          · exact List.filter_sublist
          · exact List.Sublist.refl _
      · rw [if_pos fun hnil => hrun (hfinal.mp hnil)] at h
        cases h

/-- Every vector of known arguments that ask for one mode is run. -/
theorem parseRetentionArgs_runs (hknown : ∀ argument ∈ argv, Recognised argument)
    (hmode : ¬Contradictory argv) :
    ∃ request, parseRetentionArgs numberText argv = .run request := by
  unfold parseRetentionArgs
  cases hread : readArguments numberText {} argv with
  | none =>
      obtain ⟨argument, hmem, hunknown⟩ := readArguments_eq_none hread
      exact absurd (hknown argument hmem) hunknown
  | some state =>
      have hrounds := readArguments_rounds hread
      have hrun : state.errors = [] ∧ ¬(state.apply = true ∧ state.dryRun = true) := by
        refine ⟨hrounds.errors.mpr ⟨rfl, hknown⟩, fun hboth => hmode ⟨?_, ?_⟩⟩
        · exact (hrounds.apply.mp hboth.1).resolve_left Bool.false_ne_true
        · exact (hrounds.dryRun.mp hboth.2).resolve_left Bool.false_ne_true
      dsimp only
      rw [if_neg (not_not.mpr ((finalErrors_eq_nil _ _).mpr hrun))]
      exact ⟨_, rfl⟩

/-- A run deletes only if `--apply` is among the arguments, and every vector with an argument
that is unknown or invalid, or with both modes, is an error or asks for help.  The categories
of a run are catalog categories in catalog order, each once, and its numbers are in their
bounds. -/
theorem parseRetentionArgs_fails_closed (numberText : List Char → List Char)
    (argv : List (List Char)) :
    (∀ request, parseRetentionArgs numberText argv = .run request →
      (request.mode = .apply → "--apply".toList ∈ argv) ∧
        request.categories.Sublist retentionCategories ∧ request.categories.Nodup ∧
        (∀ n, request.batchSize = some n → 1 ≤ n ∧ n ≤ 50000) ∧
        1 ≤ request.maxBatchesPerCategory ∧ request.maxBatchesPerCategory ≤ 1000) ∧
    ((∃ request, parseRetentionArgs numberText argv = .run request) ↔
      (∀ argument ∈ argv, Recognised argument) ∧
        ¬("--apply".toList ∈ argv ∧ "--dry-run".toList ∈ argv)) := by
  refine ⟨fun request hrun => ?_, fun ⟨request, hrun⟩ => ?_, fun h => ?_⟩
  · obtain ⟨-, -, hmode, hsublist, hbatchSize, hcap⟩ := parseRetentionArgs_eq_run hrun
    exact ⟨hmode.mp, hsublist, hsublist.nodup (by decide), hbatchSize, hcap⟩
  · obtain ⟨hknown, hmode, -⟩ := parseRetentionArgs_eq_run hrun
    exact ⟨hknown, hmode⟩
  · exact parseRetentionArgs_runs h.1 h.2

end Orgistry.Model.RetentionCli
