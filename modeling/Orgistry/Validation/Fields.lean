import Mathlib.Logic.Function.Basic
import Mathlib.Tactic.Common

/-!
# Records of fields

A record is read field by field, each field by a schema of its own.  A schema gives up or
comes to a value, and may report issues in both cases; it never gives up in silence.
-/

namespace Orgistry.Validation

variable {Input Message α β : Type}

/-- What a schema makes of an input: a value unless it gives up, and issues. -/
structure Parsed (Message α : Type) where
  value : Option α
  issues : List Message
  reported : value = none → issues ≠ []

namespace Parsed

def map (f : α → β) (parsed : Parsed Message α) : Parsed Message β where
  value := parsed.value.map f
  issues := parsed.issues
  reported h := parsed.reported (Option.map_eq_none_iff.mp h)

def giveUp (message : Message) : Parsed Message α := ⟨none, [message], nofun⟩

/-- A value with a message for each check that it does not pass. -/
def checked (checks : List (α → Option Message)) (value : α) : Parsed Message α where
  value := some value
  issues := checks.filterMap fun check => check value
  reported := nofun

theorem exists_value {parsed : Parsed Message α} (h : parsed.issues = []) :
    ∃ value, parsed.value = some value :=
  Option.ne_none_iff_exists'.mp fun hnone => parsed.reported hnone h

theorem checked_issues_eq_nil_iff {checks : List (α → Option Message)} {value : α} :
    (checked checks value).issues = [] ↔ ∀ check ∈ checks, check value = none :=
  List.filterMap_eq_nil_iff

end Parsed

/-- The schema of an input that may be missing. -/
def required (missing : Message) (schema : α → Parsed Message β) : Option α → Parsed Message β
  | none => .giveUp missing
  | some input => schema input

def optional (schema : α → Parsed Message β) : Option α → Parsed Message (Option β)
  | none => ⟨some none, [], nofun⟩
  | some input => (schema input).map some

/-- A missing input is read like the default. -/
def withDefault (default : Parsed Message β) (schema : α → Parsed Message β) :
    Option α → Parsed Message β
  | none => default
  | some input => schema input

structure Field (Input Message α : Type) where
  name : String
  parse : Input → Parsed Message α

/-- A field of which only the issues matter. -/
def Field.slot (field : Field Input Message α) : Field Input Message Unit :=
  ⟨field.name, fun input => (field.parse input).map fun _ => ()⟩

def Field.read (field : Field Input Message α) (record : String → Input) : Option α :=
  (field.parse (record field.name)).value

/-- The value of a field in a record in which it does not give up. -/
def Field.value [Inhabited α] (field : Field Input Message α) (record : String → Input) : α :=
  (field.read record).getD default

/-- The issues of a field in a record. -/
def Field.report (field : Field Input Message α) (record : String → Input) :
    List (String × Message) :=
  (field.parse (record field.name)).issues.map (Prod.mk field.name)

def issuesOf (shape : List (Field Input Message Unit)) (record : String → Input) :
    List (String × Message) :=
  shape.flatMap fun field => field.report record

/-- A schema of the shape gives up. -/
def givesUp (shape : List (Field Input Message Unit)) (record : String → Input) : Bool :=
  shape.any fun field => (field.read record).isNone

/-- The fields of a record that a shape knows. -/
def strip (shape : List (Field (Option α) Message Unit)) (record : String → Option α) :
    String → Option α :=
  fun name => if name ∈ shape.map Field.name then record name else none

variable {shape : List (Field Input Message Unit)} {field : Field Input Message α}
  {record : String → Input}

theorem Field.report_eq_nil_iff :
    field.report record = [] ↔ (field.parse (record field.name)).issues = [] :=
  List.map_eq_nil_iff

theorem issuesOf_eq_nil_iff :
    issuesOf shape record = [] ↔ ∀ field ∈ shape, field.report record = [] :=
  List.flatMap_eq_nil_iff

theorem Field.issues_eq_nil (hfield : field.slot ∈ shape) (h : issuesOf shape record = []) :
    (field.parse (record field.name)).issues = [] :=
  Field.report_eq_nil_iff.mp (issuesOf_eq_nil_iff.mp h _ hfield)

theorem givesUp_eq_false (h : issuesOf shape record = []) : givesUp shape record = false := by
  rw [givesUp, List.any_eq_false]
  intro field hfield hnone
  have hissues := Field.report_eq_nil_iff.mp (issuesOf_eq_nil_iff.mp h field hfield)
  obtain ⟨value, hvalue⟩ := Parsed.exists_value hissues
  rw [Field.read, hvalue] at hnone
  exact absurd hnone (by simp)

section Update

variable {name : String} {value : Input}

theorem Field.read_update_of_ne (hname : field.name ≠ name) :
    field.read (Function.update record name value) = field.read record := by
  rw [Field.read, Field.read, Function.update_of_ne hname]

theorem Field.value_update_of_ne [Inhabited α] (field : Field Input Message α)
    (hname : field.name ≠ name) :
    field.value (Function.update record name value) = field.value record := by
  rw [Field.value, Field.value, Field.read_update_of_ne hname]

theorem Field.report_update_of_ne (hname : field.name ≠ name) :
    field.report (Function.update record name value) = field.report record := by
  rw [Field.report, Field.report, Function.update_of_ne hname]

/-- With one field changed, the other fields and the new input have to pass. -/
theorem issuesOf_update_eq_nil_iff {field : Field Input Message Unit}
    (hunique : ∀ other ∈ shape, other.name = field.name → other = field)
    (hfield : field ∈ shape) :
    issuesOf shape (Function.update record field.name value) = [] ↔
      (∀ other ∈ shape, other.name ≠ field.name → other.report record = []) ∧
        (field.parse value).issues = [] := by
  have hself : field.report (Function.update record field.name value) = [] ↔
      (field.parse value).issues = [] := by
    rw [Field.report_eq_nil_iff, Function.update_self]
  rw [issuesOf_eq_nil_iff]
  constructor
  · intro h
    refine ⟨fun other hother hname => ?_, hself.mp (h field hfield)⟩
    rw [← Field.report_update_of_ne hname]
    exact h other hother
  · rintro ⟨hothers, hvalue⟩ other hother
    by_cases hname : other.name = field.name
    · rw [hunique other hother hname]
      exact hself.mpr hvalue
    · rw [Field.report_update_of_ne hname]
      exact hothers other hother hname

end Update

end Orgistry.Validation
