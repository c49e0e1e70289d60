import Mathlib.Tactic.Common

/-!
# Reporting every broken rule

A validator as a sequence of checks, each of one rule, that collects an issue for every
rule it finds broken.  To decide whether a rule is broken and to word the issue are
computations that can fail with an exception, which ends the validation without a result.
-/

namespace Orgistry.Validation

variable {Rule Message Exception : Type}

structure Issue (Rule Message : Type) where
  rule : Rule
  message : Message

structure Check (Rule Message Exception : Type) where
  rule : Rule
  broken : Except Exception Bool
  message : Except Exception Message

namespace Check

/-- A check that cannot fail. -/
def plain (rule : Rule) (broken : Bool) (message : Message) : Check Rule Message Exception :=
  ⟨rule, .ok broken, .ok message⟩

def report (check : Check Rule Message Exception) : Except Exception (List (Issue Rule Message)) :=
  match check.broken with
  | .error e => .error e
  | .ok false => .ok []
  | .ok true => check.message.map fun message => [⟨check.rule, message⟩]

/-- The check comes to a result. -/
def Completes (check : Check Rule Message Exception) : Prop :=
  check.broken = .ok false ∨ (check.broken = .ok true ∧ ∃ message, check.message = .ok message)

end Check

def reportAll : List (Check Rule Message Exception) → Except Exception (List (Issue Rule Message))
  | [] => .ok []
  | check :: checks =>
      match check.report with
      | .error e => .error e
      | .ok issues => (reportAll checks).map fun rest => issues ++ rest

variable {check : Check Rule Message Exception} {checks : List (Check Rule Message Exception)}
  {issues : List (Issue Rule Message)}

theorem Check.report_eq_ok_iff : check.report = .ok issues ↔
    (check.broken = .ok false ∧ issues = []) ∨
      (check.broken = .ok true ∧ ∃ message, check.message = .ok message ∧
        issues = [⟨check.rule, message⟩]) := by
  unfold report
  cases check.broken with
  | error e => simp
  | ok broken =>
      cases broken with
      | false => simp [eq_comm]
      | true =>
          cases check.message with
          | error e => simp [Except.map]
          | ok message => simp [Except.map, eq_comm]

theorem reportAll_cons_eq_ok_iff : reportAll (check :: checks) = .ok issues ↔
    ∃ first rest, check.report = .ok first ∧ reportAll checks = .ok rest ∧
      issues = first ++ rest := by
  rw [reportAll]
  cases check.report with
  | error e => simp
  | ok first =>
      cases reportAll checks with
      | error e => simp [Except.map]
      | ok rest => simp [Except.map, eq_comm]

/-- A check of the rule finds it broken. -/
def Finds (checks : List (Check Rule Message Exception)) (rule : Rule) : Prop :=
  ∃ check ∈ checks, check.rule = rule ∧ check.broken = .ok true

section Finds

variable {rule : Rule} {others : List (Check Rule Message Exception)}

theorem finds_nil : ¬Finds ([] : List (Check Rule Message Exception)) rule := by
  rintro ⟨_, h, -⟩
  cases h

theorem finds_cons : Finds (check :: checks) rule ↔
    (check.rule = rule ∧ check.broken = .ok true) ∨ Finds checks rule := by
  unfold Finds
  simp only [List.mem_cons, or_and_right, exists_or, exists_eq_left]

theorem finds_append : Finds (checks ++ others) rule ↔ Finds checks rule ∨ Finds others rule := by
  unfold Finds
  simp only [List.mem_append, or_and_right, exists_or]

theorem finds_at (i : ℕ) (hcheck : checks[i]? = some check) (hrule : check.rule = rule)
    (hbroken : check.broken = .ok true) : Finds checks rule :=
  ⟨check, List.mem_of_getElem? hcheck, hrule, hbroken⟩

theorem completes_plain (rule : Rule) (broken : Bool) (message : Message) :
    (Check.plain rule broken message : Check Rule Message Exception).Completes := by
  cases broken with
  | false => exact Or.inl rfl
  | true => exact Or.inr ⟨rfl, message, rfl⟩

end Finds

/-- All checks complete, and the issues are those of the broken ones. -/
theorem reportAll_eq_ok (h : reportAll checks = .ok issues) :
    (∀ check ∈ checks, check.Completes) ∧
      ∀ rule, (∃ issue ∈ issues, issue.rule = rule) ↔ Finds checks rule := by
  induction checks generalizing issues with
  | nil =>
      cases h
      exact ⟨nofun, fun rule => iff_of_false (by simp) finds_nil⟩
  | cons check checks ih =>
      obtain ⟨first, rest, hreport, hrest, rfl⟩ := reportAll_cons_eq_ok_iff.mp h
      obtain ⟨hcomplete, hrules⟩ := ih hrest
      rcases Check.report_eq_ok_iff.mp hreport with
        ⟨hbroken, rfl⟩ | ⟨hbroken, message, hmessage, rfl⟩
      · refine ⟨List.forall_mem_cons.mpr ⟨Or.inl hbroken, hcomplete⟩, fun rule => ?_⟩
        rw [List.nil_append, hrules rule, finds_cons, hbroken]
        simp
      · refine ⟨List.forall_mem_cons.mpr ⟨Or.inr ⟨hbroken, message, hmessage⟩, hcomplete⟩,
          fun rule => ?_⟩
        rw [List.singleton_append, finds_cons, hbroken, and_iff_left rfl, ← hrules rule]
        simp only [List.mem_cons, or_and_right, exists_or, exists_eq_left]

theorem exists_reportAll (h : ∀ check ∈ checks, check.Completes) :
    ∃ issues, reportAll checks = .ok issues := by
  induction checks with
  | nil => exact ⟨[], rfl⟩
  | cons check checks ih =>
      obtain ⟨hcheck, hchecks⟩ := List.forall_mem_cons.mp h
      obtain ⟨rest, hrest⟩ := ih hchecks
      rcases hcheck with hbroken | ⟨hbroken, message, hmessage⟩
      · exact ⟨_, reportAll_cons_eq_ok_iff.mpr ⟨_, rest,
          Check.report_eq_ok_iff.mpr (Or.inl ⟨hbroken, rfl⟩), hrest, rfl⟩⟩
      · exact ⟨_, reportAll_cons_eq_ok_iff.mpr ⟨_, rest,
          Check.report_eq_ok_iff.mpr (Or.inr ⟨hbroken, message, hmessage, rfl⟩), hrest, rfl⟩⟩

/-- A validation ends and reports all broken rules exactly when every check completes and
every broken rule is found broken by a check of it. -/
theorem reports_iff {Broken : Rule → Prop} :
    (∃ issues, reportAll checks = .ok issues ∧
      ∀ rule, Broken rule → ∃ issue ∈ issues, issue.rule = rule) ↔
    (∀ check ∈ checks, check.Completes) ∧ ∀ rule, Broken rule → Finds checks rule := by
  constructor
  · rintro ⟨issues, hreport, hissues⟩
    obtain ⟨hcomplete, hbroken⟩ := reportAll_eq_ok hreport
    exact ⟨hcomplete, fun rule hrule => (hbroken rule).mp (hissues rule hrule)⟩
  · rintro ⟨hcomplete, hbroken⟩
    obtain ⟨issues, hreport⟩ := exists_reportAll hcomplete
    exact ⟨issues, hreport, fun rule hrule =>
      ((reportAll_eq_ok hreport).2 rule).mpr (hbroken rule hrule)⟩

/-- No check finds its rule broken. -/
def Unbroken (checks : List (Check Rule Message Exception)) : Prop :=
  ∀ check ∈ checks, check.broken = .ok false

theorem unbroken_nil : Unbroken ([] : List (Check Rule Message Exception)) := nofun

theorem unbroken_cons : Unbroken (check :: checks) ↔
    check.broken = .ok false ∧ Unbroken checks := List.forall_mem_cons

theorem unbroken_append {others : List (Check Rule Message Exception)} :
    Unbroken (checks ++ others) ↔ Unbroken checks ∧ Unbroken others := List.forall_mem_append

theorem plain_unbroken_iff {rule : Rule} {broken : Bool} {message : Message} :
    (Check.plain rule broken message : Check Rule Message Exception).broken = .ok false ↔
      broken = false := ⟨Except.ok.inj, congrArg Except.ok⟩

/-- Nothing is reported exactly when nothing is found broken. -/
theorem reportAll_eq_nil_iff : reportAll checks = .ok [] ↔ Unbroken checks := by
  induction checks with
  | nil => exact iff_of_true rfl unbroken_nil
  | cons check checks ih =>
      rw [reportAll_cons_eq_ok_iff, unbroken_cons, ← ih]
      constructor
      · rintro ⟨first, rest, hreport, hrest, hnil⟩
        obtain ⟨rfl, rfl⟩ := List.append_eq_nil_iff.mp hnil.symm
        rcases Check.report_eq_ok_iff.mp hreport with ⟨hbroken, -⟩ | ⟨-, message, -, hissue⟩
        · exact ⟨hbroken, hrest⟩
        · cases hissue
      · rintro ⟨hbroken, hrest⟩
        exact ⟨[], [], Check.report_eq_ok_iff.mpr (Or.inl ⟨hbroken, rfl⟩), hrest, rfl⟩

end Orgistry.Validation
