import Mathlib.Data.List.Basic
import Mathlib.Data.List.Nodup
import Mathlib.Data.List.Pairwise
import Mathlib.Logic.Function.Basic
import Mathlib.Tactic.Common

/-!
# Stores and transactions that run alone

A store is a list of rows for each table of a catalog.  A transaction that
nobody disturbs reads and changes it statement by statement; when it throws, the
store stays what it was.
-/

namespace Orgistry.Noninterference

/-- What the statements have to know about the tables of one application.
`clash` says that two rows cannot both stand in a table because of a primary key
or some other unique index, and `refs` lists for each foreign key the table and
the rows that it may point to. -/
structure Catalog where
  Table : Type
  Row : Table → Type
  tableEq : DecidableEq Table
  rowEq : (t : Table) → DecidableEq (Row t)
  clash : {t : Table} → Row t → Row t → Bool
  refs : {t : Table} → Row t → List ((t : Table) × (Row t → Bool))
  clash_self : ∀ {t : Table} (row : Row t), clash row row = true
  clash_comm : ∀ {t : Table} (a b : Row t), clash a b = clash b a

variable {C : Catalog} {E α β : Type}

instance : DecidableEq C.Table := C.tableEq
instance (t : C.Table) : DecidableEq (C.Row t) := C.rowEq t

/-- The rows of each table. -/
abbrev Store (C : Catalog) := (t : C.Table) → List (C.Row t)

namespace Store

def set (s : Store C) (t : C.Table) (rows : List (C.Row t)) : Store C := Function.update s t rows

@[simp]
theorem set_self (s : Store C) (t : C.Table) (rows : List (C.Row t)) : s.set t rows t = rows := by
  simp [set]

@[simp]
theorem set_of_ne (s : Store C) {t t' : C.Table} (rows : List (C.Row t)) (h : t' ≠ t) :
    s.set t rows t' = s t' := by
  simp [set, h]

/-- Every foreign key of the row points somewhere. -/
def resolves (s : Store C) {t : C.Table} (row : C.Row t) : Bool :=
  (C.refs row).all fun ref => (s ref.1).any ref.2

/-- No two rows clash. -/
def Valid (s : Store C) : Prop := ∀ t, (s t).Pairwise fun a b => C.clash a b = false

/-- The rows of a table after an `UPDATE`. -/
def updated (s : Store C) (t : C.Table) (p : C.Row t → Bool) (f : C.Row t → C.Row t) : Store C :=
  s.set t ((s t).map fun row => if p row then f row else row)

/-- The rows of a table after an `INSERT`. -/
def added (s : Store C) (t : C.Table) (row : C.Row t) : Store C := s.set t (s t ++ [row])

theorem Valid.nodup {s : Store C} (h : s.Valid) (t : C.Table) : (s t).Nodup := by
  refine (h t).imp ?_
  rintro a _ hclash rfl
  simp [C.clash_self] at hclash

theorem Valid.nodup_map {K : Type} {s : Store C} (h : s.Valid) {t : C.Table} {id : C.Row t → K}
    (hid : ∀ a b, id a = id b → C.clash a b = true) : ((s t).map id).Nodup := by
  refine List.pairwise_map.mpr ((h t).imp fun {a b} hclash hab => ?_)
  simp [hid a b hab] at hclash

/-- Rows of one table that clash are one row. -/
theorem Valid.eq_of_clash {s : Store C} (h : s.Valid) {t : C.Table} {a b : C.Row t}
    (ha : a ∈ s t) (hb : b ∈ s t) (hclash : C.clash a b = true) : a = b := by
  by_contra hne
  have hsymm : Std.Symm fun a b : C.Row t => C.clash a b = false :=
    ⟨fun a b hab => by rw [C.clash_comm, hab]⟩
  have hfalse : C.clash a b = false := (h t).forall ha hb hne
  simp [hclash] at hfalse

/-- An update that makes no new clashes keeps the store valid. -/
theorem Valid.updated {s : Store C} (h : s.Valid) {t : C.Table} {p : C.Row t → Bool}
    {f : C.Row t → C.Row t} (hf : ∀ a b, C.clash (f a) b = true → C.clash a b = true) :
    (s.updated t p f).Valid := by
  intro t'
  by_cases ht : t' = t
  · subst ht
    rw [Store.updated, set_self, List.pairwise_map]
    refine (h t').imp fun {a b} hab => ?_
    -- the other side first: what clashes with a new version clashed with the old one
    have hright : ∀ c, C.clash c (f b) = true → C.clash c b = true := by
      intro c hc
      rw [C.clash_comm] at hc ⊢
      exact hf b c hc
    rw [Bool.eq_false_iff] at hab ⊢
    intro hclash
    refine hab ?_
    split at hclash <;> split at hclash
    · exact hf a b (hright _ hclash)
    · exact hf a b hclash
    · exact hright _ hclash
    · exact hclash
  · rw [Store.updated, set_of_ne _ _ ht]
    exact h t'

theorem Valid.added {s : Store C} (h : s.Valid) {t : C.Table} {row : C.Row t}
    (hrow : ∀ other ∈ s t, C.clash row other = false) : (s.added t row).Valid := by
  intro t'
  by_cases ht : t' = t
  · subst ht
    rw [Store.added, set_self, List.pairwise_append]
    refine ⟨h t', by simp, fun a ha b hb => ?_⟩
    obtain rfl := List.mem_singleton.mp hb
    rw [C.clash_comm]
    exact hrow a ha
  · rw [Store.added, set_of_ne _ _ ht]
    exact h t'

end Store

/-- A transaction that answers with an `α`, or throws and leaves nothing behind. -/
abbrev Transaction (C : Catalog) (E α : Type) := StateT (Store C) (Except E) α

section Statements

/-- A query: some reading of the store. -/
def query (f : Store C → α) : Transaction C E α := fun s => .ok (f s, s)

variable (t : C.Table)

/-- `SELECT … WHERE p LIMIT 1`. -/
def find (p : C.Row t → Bool) : Transaction C E (Option (C.Row t)) :=
  query fun s => ((s t).filter p).head?

/-- `SELECT count(*) … WHERE p`. -/
def countWhere (p : C.Row t → Bool) : Transaction C E ℕ :=
  query fun s => ((s t).filter p).length

/-- `UPDATE … SET f WHERE p`, which throws `violation` when two rows would clash,
and `dangling` when a foreign key points nowhere. -/
def updateWhere (violation dangling : E) (p : C.Row t → Bool) (f : C.Row t → C.Row t) :
    Transaction C E Unit := fun s =>
  if ((s.updated t p f) t).Pairwise fun a b => C.clash a b = false then
    if (s t).all fun row => !p row || s.resolves (f row) then .ok ((), s.updated t p f)
    else .error dangling
  else .error violation

/-- `INSERT`, which throws `violation rows` when the stored `rows` clash with the
new one, and `dangling` when a foreign key points nowhere. -/
def insertRow (violation : List (C.Row t) → E) (dangling : E) (row : C.Row t) :
    Transaction C E Unit := fun s =>
  if (s t).any (C.clash row) then .error (violation ((s t).filter (C.clash row)))
  else if s.resolves row then .ok ((), s.added t row)
  else .error dangling

variable {t} {violation : E} {dangling : E} {p : C.Row t → Bool} {f : C.Row t → C.Row t}
variable {row : C.Row t} {s s' : Store C}

/-- What an `UPDATE` that goes through has checked. -/
theorem updateWhere_eq_ok {a : Unit} (h : updateWhere t violation dangling p f s = .ok (a, s')) :
    s' = s.updated t p f ∧ (s.updated t p f t).Pairwise (fun a b => C.clash a b = false) ∧
      ∀ row ∈ s t, p row → s.resolves (f row) := by
  unfold updateWhere at h
  split at h
  · next hvalid =>
      split at h
      · next hresolved =>
          refine ⟨(congrArg Prod.snd (Except.ok.inj h)).symm, hvalid, fun row hrow hp => ?_⟩
          have hrow' := List.all_eq_true.mp hresolved row hrow
          rw [hp] at hrow'
          exact hrow'
      · cases h
  · cases h

/-- What an `INSERT` that goes through has checked. -/
theorem insertRow_eq_ok {violation : List (C.Row t) → E} {a : Unit}
    (h : insertRow t violation dangling row s = .ok (a, s')) :
    s' = s.added t row ∧ (∀ other ∈ s t, C.clash row other = false) ∧ s.resolves row := by
  unfold insertRow at h
  split at h
  · cases h
  · next hclash =>
      split at h
      · next hresolved =>
          refine ⟨(congrArg Prod.snd (Except.ok.inj h)).symm, fun other hother => ?_, hresolved⟩
          exact eq_false_of_ne_true fun htrue =>
            hclash (List.any_eq_true.mpr ⟨other, hother, htrue⟩)
      · cases h

end Statements

section Invariants

variable {P : Store C → Prop}

/-- A transaction that starts with the property and goes through ends with it. -/
def Keeps (P : Store C → Prop) (op : Transaction C E α) : Prop :=
  ∀ s a s', P s → op s = .ok (a, s') → P s'

theorem keeps_pure (a : α) : Keeps P (pure a : Transaction C E α) := by
  intro s b s' hs h
  obtain rfl : s = s' := congrArg Prod.snd (Except.ok.inj h)
  exact hs

theorem keeps_throw (e : E) : Keeps P (throw e : Transaction C E α) := by
  intro s a s' hs h
  cases h

theorem keeps_query (f : Store C → α) : Keeps P (query f : Transaction C E α) := by
  intro s a s' hs h
  obtain rfl : s = s' := congrArg Prod.snd (Except.ok.inj h)
  exact hs

theorem keeps_bind {op : Transaction C E α} {k : α → Transaction C E β} (hop : Keeps P op)
    (hk : ∀ a, Keeps P (k a)) : Keeps P (op >>= k) := by
  intro s b s'' hs h
  change (op s).bind (fun r => k r.1 r.2) = _ at h
  cases hfirst : op s with
  | error e =>
      rw [hfirst] at h
      cases h
  | ok r =>
      rw [hfirst] at h
      exact hk r.1 r.2 b s'' (hop s r.1 r.2 hs hfirst) h

end Invariants

end Orgistry.Noninterference
