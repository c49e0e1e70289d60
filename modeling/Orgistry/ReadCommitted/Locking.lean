import Orgistry.ReadCommitted.System

/-!
# What row locks guarantee

Every uncommitted version is covered by a lock, and locks of different
transactions do not conflict.  Hence a locked row stays what it was when the
lock was granted, until the transaction that locked it ends, and no two
committed rows ever violate a unique index.
-/

namespace Orgistry.ReadCommitted

variable {S : Schema}

/-- Some lock of the list is on the key in that mode. -/
def Holds (locks : List (Lock S)) (t : S.Table) (x : S.Id) (mode : LockMode) : Prop :=
  ∃ since, (⟨t, x, mode, since⟩ : Lock S) ∈ locks

theorem Holds.mono {locks locks' : List (Lock S)} (hsub : locks ⊆ locks') {t : S.Table}
    {x : S.Id} {mode : LockMode} (h : Holds locks t x mode) : Holds locks' t x mode :=
  h.imp fun _ hmem => hsub hmem

/-- The locks protect every version in `writes`: it is locked against other
writers, against foreign keys when its key is new, and so are the rows it
newly refers to. -/
structure Covers (locks : List (Lock S)) (writes : Writes S) (db : Database S) : Prop where
  exclusive : ∀ {t x row}, (writes t).get x = some row →
    Holds locks t x .noKeyUpdate ∨ Holds locks t x .update
  key : ∀ {t x row}, (writes t).get x = some row →
    Holds locks t x .update ∨ ∃ old, db.get t x = some old ∧ S.key old = S.key row
  refs : ∀ {t x row}, (writes t).get x = some row →
    (∃ old, db.get t x = some old ∧ S.refs old = S.refs row) ∨
      ∀ ref ∈ S.refs row, Holds locks ref.1 ref.2 .keyShare

/-- What the database still owes to the holder of a lock. -/
structure Lock.Stands (lock : Lock S) (db : Database S) : Prop where
  row : lock.mode ≠ .keyShare →
    db.get lock.table lock.id = lock.since.get lock.table lock.id
  key : ∀ {old}, lock.since.get lock.table lock.id = some old →
    ∃ row, db.get lock.table lock.id = some row ∧ S.key row = S.key old
  refs : lock.mode = .update → ∀ {t : S.Table} {row : S.Row t},
    db.get t (S.id row) = some row → (lock.table, lock.id) ∈ S.refs row →
      lock.since.get t (S.id row) ≠ none
  kept : ∀ {t : S.Table} {x : S.Id}, lock.since.get t x ≠ none → db.get t x ≠ none

/-- No two rows violate a unique index, and every foreign key points to a row. -/
structure Consistent (tables : (t : S.Table) → Relation S t) : Prop where
  unique : ∀ {t : S.Table} {x x' : S.Id} {row row' : S.Row t}, (tables t).get x = some row →
    (tables t).get x' = some row' → x ≠ x' → S.conflict row row' = false
  referential : ∀ {t : S.Table} {x : S.Id} {row : S.Row t}, (tables t).get x = some row →
    ∀ ref ∈ S.refs row, (tables ref.1).get ref.2 ≠ none

theorem Covers.mono {locks locks' : List (Lock S)} {writes : Writes S} {db : Database S}
    (hsub : locks ⊆ locks') (h : Covers locks writes db) : Covers locks' writes db where
  exclusive hrow := (h.exclusive hrow).imp (Holds.mono hsub) (Holds.mono hsub)
  key hrow := (h.key hrow).imp_left (Holds.mono hsub)
  refs hrow := (h.refs hrow).imp_right fun hrefs ref href => (hrefs ref href).mono hsub

theorem Covers.none {locks : List (Lock S)} {db : Database S} :
    Covers locks Writes.none db where
  exclusive h := by simp at h
  key h := by simp at h
  refs h := by simp at h

/-- A lock says nothing yet at the instant it is granted. -/
theorem Lock.stands_self (t : S.Table) (x : S.Id) (mode : LockMode) (db : Database S) :
    Lock.Stands ⟨t, x, mode, db⟩ db where
  row _ := rfl
  key hold := ⟨_, hold, rfl⟩
  refs _ _ _ hrow _ := by simp [hrow]
  kept h := h

/-- Covering the version that an insert or an update adds. -/
theorem Covers.put {locks : List (Lock S)} {writes : Writes S} {db : Database S}
    (h : Covers locks writes db) {t : S.Table} {row : S.Row t}
    (hexclusive : Holds locks t (S.id row) .noKeyUpdate ∨ Holds locks t (S.id row) .update)
    (hkey : Holds locks t (S.id row) .update ∨
      ∃ old, db.get t (S.id row) = some old ∧ S.key old = S.key row)
    (hrefs : (∃ old, db.get t (S.id row) = some old ∧ S.refs old = S.refs row) ∨
      ∀ ref ∈ S.refs row, Holds locks ref.1 ref.2 .keyShare) :
    Covers locks (writes.put row) db where
  exclusive hr :=
    Writes.put_forall
      (P := fun t x _ => Holds locks t x .noKeyUpdate ∨ Holds locks t x .update)
      h.exclusive hexclusive hr
  key hr :=
    Writes.put_forall
      (P := fun t x row =>
        Holds locks t x .update ∨ ∃ old, db.get t x = some old ∧ S.key old = S.key row)
      h.key hkey hr
  refs hr :=
    Writes.put_forall
      (P := fun t x row => (∃ old, db.get t x = some old ∧ S.refs old = S.refs row) ∨
        ∀ ref ∈ S.refs row, Holds locks ref.1 ref.2 .keyShare)
      h.refs hrefs hr

/-- The locks of two transactions are compatible. -/
def Compatible (locks locks' : List (Lock S)) : Prop :=
  ∀ ⦃t x mode mode'⦄, Holds locks t x mode → Holds locks' t x mode' →
    mode.conflicts mode' = false

theorem Compatible.symm {locks locks' : List (Lock S)} (h : Compatible locks locks') :
    Compatible locks' locks := by
  intro t x mode mode' hmode hmode'
  rw [LockMode.conflicts_comm]
  exact h hmode' hmode

/-- Nobody writes a row that another transaction has locked in share mode or
stronger. -/
theorem Compatible.not_written {locks locks' : List (Lock S)} {writes : Writes S}
    {db : Database S} (hcompat : Compatible locks locks') (hcovers : Covers locks' writes db)
    {t : S.Table} {x : S.Id} {mode : LockMode} (hmode : mode ≠ .keyShare)
    (hheld : Holds locks t x mode) : (writes t).get x = none := by
  cases hrow : (writes t).get x with
  | none => rfl
  | some row =>
      rcases hcovers.exclusive hrow with hweak | hstrong
      · have hconflict := hcompat hheld hweak
        cases mode <;> simp_all [LockMode.conflicts]
      · have hconflict := hcompat hheld hstrong
        cases mode <;> simp [LockMode.conflicts] at hconflict

/-- A commit of a compatible transaction keeps every lock's promise. -/
theorem Lock.Stands.apply {lock : Lock S} {locks locks' : List (Lock S)} {writes : Writes S}
    {db : Database S} (hstands : lock.Stands db) (hmem : lock ∈ locks)
    (hcompat : Compatible locks locks') (hcovers : Covers locks' writes db) :
    lock.Stands (db.apply writes) where
  row hmode := by
    have hnone := hcompat.not_written hcovers hmode ⟨_, hmem⟩
    rw [Database.get_apply, hnone]
    exact hstands.row hmode
  key {old} hold := by
    obtain ⟨row, hrow, hkey⟩ := hstands.key hold
    rw [Database.get_apply]
    cases hnew : (writes lock.table).get lock.id with
    | none => exact ⟨row, hrow, hkey⟩
    | some new =>
        rcases hcovers.key hnew with hheld | ⟨old', hold', hkey'⟩
        · have hconflict := hcompat ⟨_, hmem⟩ hheld
          cases hm : lock.mode <;> simp [hm, LockMode.conflicts] at hconflict
        · rw [hrow] at hold'
          cases hold'
          exact ⟨new, rfl, hkey' ▸ hkey⟩
  refs hmode {t row} hrow href := by
    rw [Database.get_apply] at hrow
    cases hnew : (writes t).get (S.id row) with
    | none =>
        rw [hnew] at hrow
        exact hstands.refs hmode hrow href
    | some new =>
        rw [hnew] at hrow
        cases hrow
        rcases hcovers.refs hnew with ⟨old, hold, hrefs⟩ | hheld
        · have hid := Database.id_of_get hold
          have hstood := hstands.refs hmode (hid.symm ▸ hold) (hrefs ▸ href)
          rwa [hid] at hstood
        · have hconflict := hcompat ⟨_, hmem⟩ (hheld _ href)
          simp [hmode, LockMode.conflicts] at hconflict
  kept h := Database.get_apply_ne_none (hstands.kept h) writes

/-- A commit of a compatible transaction leaves other transactions covered. -/
theorem Covers.apply {locks locks' : List (Lock S)} {writes writes' : Writes S}
    {db : Database S} (h : Covers locks writes db) (hcompat : Compatible locks locks')
    (hcovers : Covers locks' writes' db) : Covers locks writes (db.apply writes') := by
  have hkept : ∀ {t x row}, (writes t).get x = some row →
      (db.apply writes').get t x = db.get t x := by
    intro t x row hrow
    have hnone : (writes' t).get x = Option.none := by
      rcases h.exclusive hrow with hheld | hheld
      · exact hcompat.not_written hcovers (by simp) hheld
      · exact hcompat.not_written hcovers (by simp) hheld
    rw [Database.get_apply, hnone]
    rfl
  refine ⟨h.exclusive, fun hrow => ?_, fun hrow => ?_⟩
  · rw [hkept hrow]
    exact h.key hrow
  · rw [hkept hrow]
    exact h.refs hrow

end Orgistry.ReadCommitted
