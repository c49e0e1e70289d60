import Mathlib.Data.List.Basic
import Mathlib.Data.List.Nodup
import Mathlib.Data.List.Perm.Subperm
import Mathlib.Tactic.Common

/-!
# Keyed relations and databases

A relational database as PostgreSQL presents it to one statement: every table
is a finite list of rows with pairwise distinct primary keys.  Rows are typed
by their table, and a schema names the columns that decide locking and
uniqueness.  This file has no program and no concurrency in it.
-/

namespace Orgistry.ReadCommitted

/-- What the engine has to know about the tables of one application.  `key`
collects the columns of the non-partial unique indexes (an update that changes
them takes the strongest row lock), `conflict` says that two rows cannot both
stand in a table because of some unique index, and `refs` lists the rows that
foreign keys point to. -/
structure Schema where
  Table : Type
  Row : Table → Type
  Id : Type
  Key : Type
  Error : Type
  tableEq : DecidableEq Table
  idEq : DecidableEq Id
  keyEq : DecidableEq Key
  id : {t : Table} → Row t → Id
  key : {t : Table} → Row t → Key
  conflict : {t : Table} → Row t → Row t → Bool
  refs : {t : Table} → Row t → List (Table × Id)
  uniqueViolation : Error
  foreignKeyViolation : Error
  conflict_comm : ∀ {t : Table} (row row' : Row t), conflict row row' = conflict row' row

variable {S : Schema}

instance : DecidableEq S.Table := S.tableEq
instance : DecidableEq S.Id := S.idEq
instance : DecidableEq S.Key := S.keyEq

/-- The rows of one table, in insertion order, with distinct primary keys. -/
structure Relation (S : Schema) (t : S.Table) where
  rows : List (S.Row t)
  nodup : (rows.map S.id).Nodup

namespace Relation

variable {t : S.Table}

def empty : Relation S t := ⟨[], by simp⟩

/-- Primary-key lookup. -/
def get (r : Relation S t) (x : S.Id) : Option (S.Row t) :=
  r.rows.find? fun row => S.id row = x

theorem mem_rows_iff {r : Relation S t} {row : S.Row t} :
    row ∈ r.rows ↔ r.get (S.id row) = some row := by
  constructor
  · intro hrow
    rw [get, List.find?_eq_some_iff_append]
    obtain ⟨front, back, hsplit⟩ := List.append_of_mem hrow
    refine ⟨by simp, front, back, hsplit, ?_⟩
    intro other hother
    have hnodup := r.nodup
    rw [hsplit, List.map_append, List.nodup_append] at hnodup
    simpa using hnodup.2.2 _ (List.mem_map_of_mem hother) (S.id row) (by simp)
  · exact List.mem_of_find?_eq_some

theorem id_of_get {r : Relation S t} {x : S.Id} {row : S.Row t}
    (h : r.get x = some row) : S.id row = x := by
  simpa using List.find?_some h

theorem mem_of_get {r : Relation S t} {x : S.Id} {row : S.Row t}
    (h : r.get x = some row) : row ∈ r.rows :=
  List.mem_of_find?_eq_some h

@[simp]
theorem get_empty (x : S.Id) : (empty : Relation S t).get x = none := rfl

private theorem map_replace_ids (rows : List (S.Row t)) (row : S.Row t) :
    (rows.map fun old => if S.id old = S.id row then row else old).map S.id =
      rows.map S.id := by
  rw [List.map_map]
  apply List.map_congr_left
  intro old _
  by_cases h : S.id old = S.id row <;> simp [h]

/-- Store a row under its primary key: in place when the key exists, at the
end otherwise. -/
def put (r : Relation S t) (row : S.Row t) : Relation S t :=
  if h : S.id row ∈ r.rows.map S.id then
    ⟨r.rows.map fun old => if S.id old = S.id row then row else old, by
      rw [map_replace_ids]
      exact r.nodup⟩
  else
    ⟨r.rows ++ [row], by
      rw [List.map_append, List.nodup_append]
      refine ⟨r.nodup, by simp, ?_⟩
      rintro x hx y hy rfl
      simp only [List.map_cons, List.map_nil, List.mem_singleton] at hy
      exact h (hy ▸ hx)⟩

private theorem find?_map_replace (rows : List (S.Row t)) (row : S.Row t) (x : S.Id) :
    (rows.map fun old => if S.id old = S.id row then row else old).find?
        (fun old => S.id old = x) =
      if x = S.id row then
        (if S.id row ∈ rows.map S.id then some row else none)
      else rows.find? fun old => S.id old = x := by
  induction rows with
  | nil => simp
  | cons head tail ih =>
      simp only [List.map_cons, List.find?_cons, ih]
      by_cases hx : x = S.id row
      · subst hx
        by_cases hhead : S.id head = S.id row
        · simp [hhead]
        · simp [hhead, Ne.symm hhead]
      · by_cases hhead : S.id head = S.id row
        · simp [hhead, hx, Ne.symm hx]
        · simp [hhead, hx]

theorem get_put (r : Relation S t) (row : S.Row t) (x : S.Id) :
    (r.put row).get x = if x = S.id row then some row else r.get x := by
  unfold put
  split
  · next h =>
      rw [get, find?_map_replace, if_pos h]
      rfl
  · next h =>
      by_cases hx : x = S.id row
      · subst hx
        have hnone : r.rows.find? (fun old => S.id old = S.id row) = none := by
          simpa using h
        simp [get, hnone]
      · simp [get, hx, Ne.symm hx]

@[simp]
theorem get_put_self (r : Relation S t) (row : S.Row t) :
    (r.put row).get (S.id row) = some row := by
  rw [get_put, if_pos rfl]

theorem get_put_of_ne (r : Relation S t) (row : S.Row t) {x : S.Id} (h : x ≠ S.id row) :
    (r.put row).get x = r.get x := by
  rw [get_put, if_neg h]

/-- The table a reader sees when its own versions `new` stand over `base`. -/
def merge (base new : Relation S t) : Relation S t :=
  new.rows.foldl put base

private theorem get_foldl_put (rows : List (S.Row t)) (hrows : (rows.map S.id).Nodup)
    (base : Relation S t) (x : S.Id) :
    (rows.foldl put base).get x =
      (rows.find? fun row => S.id row = x).or (base.get x) := by
  induction rows generalizing base with
  | nil => simp
  | cons head tail ih =>
      rw [List.map_cons, List.nodup_cons] at hrows
      rw [List.foldl_cons, ih hrows.2, get_put, List.find?_cons]
      by_cases hx : x = S.id head
      · subst hx
        have hnone : tail.find? (fun row => S.id row = S.id head) = none := by
          simpa using hrows.1
        simp [hnone]
      · simp [hx, Ne.symm hx]

theorem get_merge (base new : Relation S t) (x : S.Id) :
    (base.merge new).get x = (new.get x).or (base.get x) :=
  get_foldl_put new.rows new.nodup base x

@[simp]
theorem merge_empty (base : Relation S t) : base.merge empty = base := rfl

/-- `SELECT count(*) … WHERE p`. -/
def count (r : Relation S t) (p : S.Row t → Bool) : ℕ := (r.rows.filter p).length

private theorem mem_keys {r : Relation S t} {p : S.Row t → Bool} {x : S.Id} :
    x ∈ (r.rows.filter p).map S.id ↔ ∃ row, r.get x = some row ∧ p row := by
  simp only [List.mem_map, List.mem_filter, mem_rows_iff]
  constructor
  · rintro ⟨row, ⟨hrow, hp⟩, rfl⟩
    exact ⟨row, hrow, hp⟩
  · rintro ⟨row, hrow, hp⟩
    have hid := id_of_get hrow
    exact ⟨row, ⟨by rw [hid]; exact hrow, hp⟩, hid⟩

private theorem nodup_keys (r : Relation S t) (p : S.Row t → Bool) :
    ((r.rows.filter p).map S.id).Nodup :=
  r.nodup.sublist (List.filter_sublist.map _)

/-- Counting goes by keys: each counted key is counted on the right as well, or
is one of `extra`; the keys of `spare` are counted on the right only. -/
theorem count_add_le {r r' : Relation S t} {p q : S.Row t → Bool} (extra spare : List S.Id)
    (h : ∀ x row, r.get x = some row → p row →
      x ∈ extra ∨ ∃ row', r'.get x = some row' ∧ q row')
    (hspare : ∀ x ∈ spare, (∃ row', r'.get x = some row' ∧ q row') ∧
      ∀ row, r.get x = some row → p row = false)
    (hnodup : spare.Nodup) :
    r.count p + spare.length ≤ r'.count q + extra.length := by
  have hsub : ((r.rows.filter p).map S.id ++ spare) ⊆
      (r'.rows.filter q).map S.id ++ extra := by
    intro x hx
    rw [List.mem_append] at hx ⊢
    rcases hx with hx | hx
    · obtain ⟨row, hrow, hp⟩ := mem_keys.mp hx
      exact (h x row hrow hp).symm.imp_left mem_keys.mpr
    · exact .inl (mem_keys.mpr (hspare x hx).1)
  have hleft : ((r.rows.filter p).map S.id ++ spare).Nodup := by
    rw [List.nodup_append]
    refine ⟨nodup_keys r p, hnodup, ?_⟩
    rintro x hx y hy rfl
    obtain ⟨row, hrow, hp⟩ := mem_keys.mp hx
    simp [(hspare x hy).2 row hrow] at hp
  have hlength := (hleft.subperm hsub).length_le
  simpa [count] using hlength

/-- Each counted key is counted on the right as well, or is one of `extra`. -/
theorem count_le_add {r r' : Relation S t} {p q : S.Row t → Bool} (extra : List S.Id)
    (h : ∀ x row, r.get x = some row → p row →
      x ∈ extra ∨ ∃ row', r'.get x = some row' ∧ q row') :
    r.count p ≤ r'.count q + extra.length :=
  count_add_le extra [] h (by simp) (by simp)

theorem count_le {r r' : Relation S t} {p q : S.Row t → Bool}
    (h : ∀ x row, r.get x = some row → p row → ∃ row', r'.get x = some row' ∧ q row') :
    r.count p ≤ r'.count q :=
  count_le_add [] fun x row hrow hp => .inr (h x row hrow hp)

end Relation

/-- The row versions that one transaction has written and not yet committed. -/
abbrev Writes (S : Schema) := (t : S.Table) → Relation S t

/-- A committed database: its tables, and the wall clock that the application
and the database share. -/
structure Database (S : Schema) where
  tables : (t : S.Table) → Relation S t
  clock : ℕ

namespace Database

/-- Committed row of table `t` with primary key `x`. -/
def get (db : Database S) (t : S.Table) (x : S.Id) : Option (S.Row t) :=
  (db.tables t).get x

/-- What a statement of the transaction that wrote `writes` sees. -/
def view (db : Database S) (writes : Writes S) (t : S.Table) : Relation S t :=
  (db.tables t).merge (writes t)

/-- Commit: the transaction's own versions become the committed ones. -/
def apply (db : Database S) (writes : Writes S) : Database S :=
  { db with tables := db.view writes }

@[simp]
theorem get_view (db : Database S) (writes : Writes S) (t : S.Table) (x : S.Id) :
    (db.view writes t).get x = ((writes t).get x).or (db.get t x) :=
  Relation.get_merge _ _ _

@[simp]
theorem get_apply (db : Database S) (writes : Writes S) (t : S.Table) (x : S.Id) :
    (db.apply writes).get t x = ((writes t).get x).or (db.get t x) :=
  Relation.get_merge _ _ _

/-- A commit makes the transaction's own view the common one. -/
theorem get_apply_eq_view (db : Database S) (writes : Writes S) (t : S.Table) (x : S.Id) :
    (db.apply writes).get t x = (db.view writes t).get x := rfl

@[simp]
theorem clock_apply (db : Database S) (writes : Writes S) :
    (db.apply writes).clock = db.clock := rfl

/-- What a commit adds to a table was written by it. -/
theorem get_writes_of_new {db : Database S} {writes : Writes S} {t : S.Table} {x : S.Id}
    {row : S.Row t} (hnone : db.get t x = none) (h : (db.apply writes).get t x = some row) :
    (writes t).get x = some row := by
  simpa [hnone] using h

theorem mem_view_of_get {db : Database S} {writes : Writes S} {t : S.Table} {x : S.Id}
    {row : S.Row t} (h : (db.apply writes).get t x = some row) :
    row ∈ (db.view writes t).rows :=
  Relation.mem_of_get h

theorem get_apply_ne_none {db : Database S} {t : S.Table} {x : S.Id}
    (h : db.get t x ≠ none) (writes : Writes S) :
    (db.apply writes).get t x ≠ none := by
  rw [get_apply]
  cases hw : (writes t).get x <;> simp [h]

theorem id_of_get {db : Database S} {t : S.Table} {x : S.Id} {row : S.Row t}
    (h : db.get t x = some row) : S.id row = x :=
  Relation.id_of_get h

end Database

/-- Nothing written. -/
def Writes.none : Writes S := fun _ => Relation.empty

@[simp]
theorem Writes.get_none (t : S.Table) (x : S.Id) :
    ((Writes.none : Writes S) t).get x = Option.none := rfl

/-- Write one row of table `t`. -/
def Writes.put (writes : Writes S) {t : S.Table} (row : S.Row t) : Writes S :=
  Function.update writes t ((writes t).put row)

theorem Writes.get_put (writes : Writes S) {t : S.Table} (row : S.Row t) (x : S.Id) :
    ((writes.put row) t).get x = if x = S.id row then some row else (writes t).get x := by
  simp [Writes.put, Relation.get_put]

/-- What holds of the old versions and of the new one holds of all versions. -/
theorem Writes.put_forall {writes : Writes S} {t : S.Table} {row : S.Row t}
    {P : (t : S.Table) → S.Id → S.Row t → Prop}
    (hold : ∀ {t x r}, (writes t).get x = some r → P t x r) (hnew : P t (S.id row) row)
    {t' : S.Table} {x : S.Id} {r : S.Row t'}
    (h : ((writes.put row) t').get x = some r) : P t' x r := by
  by_cases ht : t' = t
  · subst ht
    rw [Writes.get_put] at h
    split at h
    · next hx =>
        cases h
        exact hx ▸ hnew
    · exact hold h
  · rw [Writes.put, Function.update_of_ne ht] at h
    exact hold h

theorem Writes.put_of_ne (writes : Writes S) {t t' : S.Table} (row : S.Row t)
    (h : t' ≠ t) : (writes.put row) t' = writes t' := by
  simp [Writes.put, h]

@[simp]
theorem Writes.get_put_of_ne (writes : Writes S) {t t' : S.Table} (row : S.Row t)
    (h : t' ≠ t) (x : S.Id) : ((writes.put row) t').get x = (writes t').get x := by
  rw [Writes.put_of_ne _ _ h]

/-- Write the rows one after another. -/
def Writes.putAll (writes : Writes S) {t : S.Table} (rows : List (S.Row t)) : Writes S :=
  rows.foldl (fun written row => written.put row) writes

theorem Writes.putAll_of_ne (writes : Writes S) {t t' : S.Table} (rows : List (S.Row t))
    (h : t' ≠ t) : (writes.putAll rows) t' = writes t' := by
  induction rows generalizing writes with
  | nil => rfl
  | cons row rows ih =>
      change (writes.put row).putAll rows t' = _
      rw [ih, Writes.put_of_ne _ _ h]

@[simp]
theorem Writes.get_putAll_of_ne (writes : Writes S) {t t' : S.Table} (rows : List (S.Row t))
    (h : t' ≠ t) (x : S.Id) : ((writes.putAll rows) t').get x = (writes t').get x := by
  rw [Writes.putAll_of_ne _ _ h]

/-- A version that is there after a batch of writes is one of the batch, or is
an older one that the batch did not replace. -/
theorem Writes.get_putAll {writes : Writes S} {t : S.Table} {rows : List (S.Row t)}
    {x : S.Id} {new : S.Row t} (h : ((writes.putAll rows) t).get x = some new) :
    (new ∈ rows ∧ S.id new = x) ∨
      (x ∉ rows.map S.id ∧ (writes t).get x = some new) := by
  induction rows generalizing writes with
  | nil => exact .inr ⟨by simp, h⟩
  | cons row rows ih =>
      rcases ih (show (((writes.put row).putAll rows) t).get x = some new from h) with
        ⟨hmem, hid⟩ | ⟨hnot, hold⟩
      · exact .inl ⟨List.mem_cons_of_mem _ hmem, hid⟩
      · rw [Writes.get_put] at hold
        split at hold
        · next hx =>
            cases hold
            exact .inl ⟨by simp, hx.symm⟩
        · next hx => exact .inr ⟨by simpa [hx] using hnot, hold⟩

theorem Writes.putAll_ne_none {writes : Writes S} {t : S.Table} {rows : List (S.Row t)}
    {x : S.Id} (h : (writes t).get x ≠ Option.none) :
    ((writes.putAll rows) t).get x ≠ Option.none := by
  induction rows generalizing writes with
  | nil => exact h
  | cons row rows ih =>
      refine ih ?_
      rw [Writes.get_put]
      split
      · simp
      · exact h

/-- A batch leaves the other keys alone. -/
theorem Writes.get_putAll_of_notMem {writes : Writes S} {t : S.Table} {rows : List (S.Row t)}
    {x : S.Id} (h : x ∉ rows.map S.id) :
    ((writes.putAll rows) t).get x = (writes t).get x := by
  cases hget : ((writes.putAll rows) t).get x with
  | none =>
      cases hown : (writes t).get x with
      | none => rfl
      | some own => exact absurd hget (Writes.putAll_ne_none (by simp [hown]))
  | some new =>
      rcases Writes.get_putAll hget with ⟨hmem, rfl⟩ | ⟨-, hown⟩
      · exact absurd (List.mem_map_of_mem hmem) h
      · exact hown.symm

theorem Writes.get_putAll_of_mem {writes : Writes S} {t : S.Table} {rows : List (S.Row t)}
    (hnodup : (rows.map S.id).Nodup) {new : S.Row t} (h : new ∈ rows) :
    ((writes.putAll rows) t).get (S.id new) = some new := by
  induction rows generalizing writes with
  | nil => cases h
  | cons row rows ih =>
      rw [List.map_cons, List.nodup_cons] at hnodup
      change (((writes.put row).putAll rows) t).get (S.id new) = _
      rcases List.mem_cons.mp h with rfl | hmem
      · cases hget : (((writes.put new).putAll rows) t).get (S.id new) with
        | none => exact absurd hget (Writes.putAll_ne_none (by simp [Writes.get_put]))
        | some other =>
            rcases Writes.get_putAll hget with ⟨hmem, hid⟩ | ⟨-, hold⟩
            · exact absurd (hid ▸ List.mem_map_of_mem hmem) hnodup.1
            · rw [Writes.get_put, if_pos rfl] at hold
              exact hold.symm
      · exact ih hnodup.2 hmem

/-- What holds of the old versions and of every row of a batch holds of all
versions after the batch. -/
theorem Writes.putAll_forall {writes : Writes S} {t : S.Table} {rows : List (S.Row t)}
    {P : (t : S.Table) → S.Id → S.Row t → Prop}
    (hold : ∀ {t x r}, (writes t).get x = some r → P t x r)
    (hnew : ∀ row ∈ rows, P t (S.id row) row)
    {t' : S.Table} {x : S.Id} {r : S.Row t'}
    (h : ((writes.putAll rows) t').get x = some r) : P t' x r := by
  induction rows generalizing writes with
  | nil => exact hold h
  | cons row rows ih =>
      refine ih ?_ ?_ (show (((writes.put row).putAll rows) t').get x = some r from h)
      · exact fun hget => Writes.put_forall hold (hnew row (by simp)) hget
      · exact fun row' hrow' => hnew row' (List.mem_cons_of_mem _ hrow')

end Orgistry.ReadCommitted
