import Orgistry.ReadCommitted.Locking

/-!
# Isolation of reachable states

The invariant of the whole system: the transactions of a reachable state are
each sound against the committed database and pairwise apart.
-/

namespace Orgistry.ReadCommitted

variable {S : Schema}

namespace Tx

/-- Every lock of the transaction still stands. -/
def Current (tx : Tx S) (db : Database S) : Prop := ∀ lock ∈ tx.locks, lock.Stands db

/-- The current versions of the transaction, and those that it may restore, are
covered by locks and consistent with the committed rows. -/
structure Sound (tx : Tx S) (db : Database S) : Prop where
  current : tx.Current db
  covers : ∀ layer ∈ tx.layers, Covers layer.2 layer.1 db
  subset : ∀ layer ∈ tx.layers, layer.2 ⊆ tx.locks
  consistent : ∀ layer ∈ tx.layers, Consistent (db.view layer.1)

/-- Two transactions are out of each other's way. -/
structure Apart (tx tx' : Tx S) : Prop where
  locks : Compatible tx.locks tx'.locks
  rows : ∀ layer ∈ tx.layers, ∀ layer' ∈ tx'.layers, ∀ ⦃t : S.Table⦄ ⦃x x' : S.Id⦄
    ⦃row row' : S.Row t⦄, (layer.1 t).get x = some row → (layer'.1 t).get x' = some row' →
      x ≠ x' → S.conflict row row' = false

theorem Apart.symm {tx tx' : Tx S} (h : tx.Apart tx') : tx'.Apart tx where
  locks := Compatible.symm h.locks
  rows layer hlayer layer' hlayer' _ _ _ row row' hrow hrow' hne := by
    rw [S.conflict_comm]
    exact h.rows layer' hlayer' layer hlayer hrow' hrow hne.symm

/-- A lock can be granted when nobody else holds a conflicting one. -/
theorem free_iff {others : List (Tx S)} {t : S.Table} {x : S.Id} {mode : LockMode} :
    free others t x mode = true ↔
      ∀ other ∈ others, ∀ mode', Holds other.locks t x mode' →
        mode'.conflicts mode = false := by
  simp only [free, List.all_eq_true, Bool.not_eq_true', Bool.and_eq_false_iff,
    decide_eq_false_iff_not]
  constructor
  · rintro h other hother mode' ⟨since, hmem⟩
    simpa using h other hother _ hmem
  · intro h other hother lock hmem
    by_cases ht : lock.table = t
    · by_cases hx : lock.id = x
      · subst ht hx
        exact .inr (h other hother _ ⟨_, hmem⟩)
      · exact .inl (.inr hx)
    · exact .inl (.inl ht)

theorem contended_eq_false {others : List (Tx S)} {t : S.Table} {row : S.Row t}
    (h : contended others row = false) {other : Tx S} (hother : other ∈ others)
    {layer : Writes S × List (Lock S)} (hlayer : layer ∈ other.layers) {x : S.Id}
    {r : S.Row t} (hr : (layer.1 t).get x = some r) (hne : x ≠ S.id row) :
    S.conflict r row = false := by
  rw [contended, List.any_eq_false] at h
  have hall := h other hother
  simp only [Bool.not_eq_true, List.any_eq_false] at hall
  have hid := Relation.id_of_get hr
  simpa [hid, hne] using hall layer hlayer r (Relation.mem_of_get hr)

theorem rejected_eq_false {db : Database S} {tx : Tx S} {t : S.Table} {row : S.Row t}
    (h : rejected db tx row = false) {x : S.Id} {r : S.Row t}
    (hr : (db.view tx.writes t).get x = some r) (hne : x ≠ S.id row) :
    S.conflict r row = false := by
  rw [rejected, List.any_eq_false] at h
  have hid := Relation.id_of_get hr
  simpa [hid, hne] using h r (Relation.mem_of_get hr)

variable {db : Database S} {others : List (Tx S)} {tx : Tx S}

theorem mem_layers {layer : Writes S × List (Lock S)} :
    layer ∈ tx.layers ↔ layer = (tx.writes, tx.locks) ∨ layer = tx.saved := by
  simp [layers]

theorem current_mem_layers (tx : Tx S) : (tx.writes, tx.locks) ∈ tx.layers := by
  simp [layers]

theorem saved_mem_layers (tx : Tx S) : tx.saved ∈ tx.layers := by simp [layers]

theorem sound_begin (h : Consistent db.tables) : (begin : Tx S).Sound db where
  current := by simp [Current, begin]
  covers layer hlayer := by
    rcases mem_layers.mp hlayer with rfl | rfl <;> exact Covers.none
  subset layer hlayer := by
    rcases mem_layers.mp hlayer with rfl | rfl <;> exact List.Subset.refl _
  consistent layer hlayer := by
    rcases mem_layers.mp hlayer with rfl | rfl <;> exact h

theorem apart_begin (other : Tx S) : (begin : Tx S).Apart other where
  locks := by
    rintro t x mode mode' ⟨since, hmem⟩ _
    cases hmem
  rows layer hlayer _ _ _ _ _ row _ hrow := by
    rcases mem_layers.mp hlayer with rfl | rfl <;> simp [begin] at hrow

theorem holds_hold {t t' : S.Table} {x x' : S.Id} {mode mode' : LockMode} :
    Holds (tx.hold t x mode db).locks t' x' mode' ↔
      (t' = t ∧ x' = x ∧ mode' = mode) ∨ Holds tx.locks t' x' mode' := by
  simp only [Holds, hold, List.mem_cons, Lock.mk.injEq]
  constructor
  · rintro ⟨since, ⟨ht, hx, hm, -⟩ | hmem⟩
    · exact .inl ⟨ht, hx, hm⟩
    · exact .inr ⟨since, hmem⟩
  · rintro (⟨ht, hx, hm⟩ | ⟨since, hmem⟩)
    · exact ⟨db, .inl ⟨ht, hx, hm, rfl⟩⟩
    · exact ⟨since, .inr hmem⟩

/-- A lock that is granted is current. -/
theorem Sound.hold (h : tx.Sound db) (t : S.Table) (x : S.Id) (mode : LockMode) :
    (tx.hold t x mode db).Sound db where
  current := by
    intro lock hlock
    rcases List.mem_cons.mp hlock with rfl | hlock
    · exact Lock.stands_self t x mode db
    · exact h.current lock hlock
  covers layer hlayer := by
    rcases mem_layers.mp hlayer with rfl | rfl
    · exact (h.covers _ tx.current_mem_layers).mono (List.subset_cons_self _ _)
    · exact h.covers _ tx.saved_mem_layers
  subset layer hlayer := by
    rcases mem_layers.mp hlayer with rfl | rfl
    · exact List.Subset.refl _
    · exact List.Subset.trans (h.subset _ tx.saved_mem_layers) (List.subset_cons_self _ _)
  consistent layer hlayer := by
    rcases mem_layers.mp hlayer with rfl | rfl
    · exact h.consistent (tx.writes, tx.locks) tx.current_mem_layers
    · exact h.consistent _ tx.saved_mem_layers

theorem Apart.hold {other : Tx S} (h : tx.Apart other) {t : S.Table} {x : S.Id}
    {mode : LockMode}
    (hfree : ∀ mode', Holds other.locks t x mode' → mode'.conflicts mode = false) :
    (tx.hold t x mode db).Apart other where
  locks := by
    intro t' x' m m' hm hm'
    rcases holds_hold.mp hm with ⟨rfl, rfl, rfl⟩ | hm
    · rw [LockMode.conflicts_comm]
      exact hfree _ hm'
    · exact h.locks hm hm'
  rows layer hlayer layer' hlayer' := by
    rcases mem_layers.mp hlayer with rfl | rfl
    · exact h.rows _ tx.current_mem_layers layer' hlayer'
    · exact h.rows _ tx.saved_mem_layers layer' hlayer'

theorem Sound.holdAll (h : tx.Sound db) (refs : List (S.Table × S.Id)) (mode : LockMode) :
    (tx.holdAll refs mode db).Sound db := by
  induction refs with
  | nil => exact h
  | cons ref refs ih => exact ih.hold ref.1 ref.2 mode

theorem Apart.holdAll {other : Tx S} (h : tx.Apart other) {refs : List (S.Table × S.Id)}
    {mode : LockMode}
    (hfree : ∀ ref ∈ refs, ∀ mode', Holds other.locks ref.1 ref.2 mode' →
      mode'.conflicts mode = false) : (tx.holdAll refs mode db).Apart other := by
  induction refs with
  | nil => exact h
  | cons ref refs ih =>
      refine (ih fun ref' href' => hfree ref' (by simp [href'])).hold ?_
      exact hfree ref (by simp)

theorem holds_holdAll {refs : List (S.Table × S.Id)} {mode : LockMode}
    {ref : S.Table × S.Id} (href : ref ∈ refs) :
    Holds (tx.holdAll refs mode db).locks ref.1 ref.2 mode :=
  ⟨db, List.mem_append_left _ (List.mem_map_of_mem href)⟩

@[simp]
theorem writes_holdAll (refs : List (S.Table × S.Id)) (mode : LockMode) :
    (tx.holdAll refs mode db).writes = tx.writes := rfl

/-- What the transaction sees after it has written `row`. -/
theorem get_view_put {t : S.Table} {row : S.Row t} {t' : S.Table} {x : S.Id} {r : S.Row t'}
    (h : (db.view (tx.writes.put row) t').get x = some r) :
    (∃ ht : t' = t, x = S.id row ∧ ht ▸ r = row) ∨ (db.view tx.writes t').get x = some r := by
  rw [Database.get_view] at h
  by_cases ht : t' = t
  · subst ht
    rw [Writes.get_put] at h
    split at h
    · next hx => exact .inl ⟨rfl, hx, by simpa using h.symm⟩
    · exact .inr (by simpa using h)
  · rw [Writes.get_put_of_ne _ _ ht] at h
    exact .inr (by simpa using h)

theorem get_view_put_ne_none {t t' : S.Table} {row : S.Row t} {x : S.Id}
    (h : (db.view tx.writes t').get x ≠ none) :
    (db.view (tx.writes.put row) t').get x ≠ none := by
  rw [Database.get_view] at h ⊢
  by_cases ht : t' = t
  · subst ht
    rw [Writes.get_put]
    split
    · simp
    · exact h
  · rwa [Writes.get_put_of_ne _ _ ht]

/-- Writing a version that no visible row conflicts with, and whose foreign keys
point to visible rows. -/
theorem Sound.write (h : tx.Sound db) {t : S.Table} {row : S.Row t}
    (hcovers : Covers tx.locks (tx.writes.put row) db)
    (hrejected : rejected db tx row = false)
    (hrefs : ∀ ref ∈ S.refs row, (db.view tx.writes ref.1).get ref.2 ≠ none) :
    (tx.write row).Sound db where
  current := h.current
  covers layer hlayer := by
    rcases mem_layers.mp hlayer with rfl | rfl
    · exact hcovers
    · exact h.covers _ tx.saved_mem_layers
  subset layer hlayer := by
    rcases mem_layers.mp hlayer with rfl | rfl
    · exact List.Subset.refl _
    · exact h.subset _ tx.saved_mem_layers
  consistent layer hlayer := by
    rcases mem_layers.mp hlayer with rfl | rfl
    · have hbefore := h.consistent _ tx.current_mem_layers
      constructor
      · intro t' x x' r r' hr hr' hne
        rcases get_view_put hr with ⟨rfl, rfl, rfl⟩ | hseen
        · rcases get_view_put hr' with ⟨_, hx', _⟩ | hseen'
          · exact absurd hx'.symm hne
          · rw [S.conflict_comm]
            exact rejected_eq_false hrejected hseen' hne.symm
        · rcases get_view_put hr' with ⟨rfl, rfl, rfl⟩ | hseen'
          · exact rejected_eq_false hrejected hseen hne
          · exact hbefore.unique hseen hseen' hne
      · intro t' x r hr ref href
        refine get_view_put_ne_none ?_
        rcases get_view_put hr with ⟨rfl, rfl, rfl⟩ | hseen
        · exact hrefs ref href
        · exact hbefore.referential hseen ref href
    · exact h.consistent _ tx.saved_mem_layers

/-- A version that conflicts with none of the other transaction is written apart from it. -/
theorem Apart.write {other : Tx S} (h : tx.Apart other) {t : S.Table} {row : S.Row t}
    (hcontended : ∀ layer ∈ other.layers, ∀ ⦃x : S.Id⦄ ⦃r : S.Row t⦄,
      (layer.1 t).get x = some r → x ≠ S.id row → S.conflict r row = false) :
    (tx.write row).Apart other where
  locks := h.locks
  rows layer hlayer layer' hlayer' := by
    rcases mem_layers.mp hlayer with rfl | rfl
    · intro t' x x' r r' hr hr' hne
      refine Writes.put_forall
        (P := fun t' x r => ∀ ⦃x' : S.Id⦄ ⦃r' : S.Row t'⦄, (layer'.1 t').get x' = some r' →
          x ≠ x' → S.conflict r r' = false) ?_ ?_ hr hr' hne
      · intro t x r hr x' r' hr' hne
        exact h.rows _ tx.current_mem_layers layer' hlayer' hr hr' hne
      · intro x' r' hr' hne
        rw [S.conflict_comm]
        exact hcontended layer' hlayer' hr' hne.symm
    · exact h.rows _ tx.saved_mem_layers layer' hlayer'

/-- Taking back what was written since the savepoint. -/
theorem Sound.restore (h : tx.Sound db) : tx.restore.Sound db where
  current lock hlock := h.current lock (h.subset _ tx.saved_mem_layers hlock)
  covers layer hlayer := by
    rcases mem_layers.mp hlayer with rfl | rfl <;> exact h.covers _ tx.saved_mem_layers
  subset layer hlayer := by
    rcases mem_layers.mp hlayer with rfl | rfl <;> exact List.Subset.refl _
  consistent layer hlayer := by
    rcases mem_layers.mp hlayer with rfl | rfl <;> exact h.consistent _ tx.saved_mem_layers

theorem Sound.save (h : tx.Sound db) : tx.save.Sound db where
  current := h.current
  covers layer hlayer := by
    rcases mem_layers.mp hlayer with rfl | rfl <;> exact h.covers _ tx.current_mem_layers
  subset layer hlayer := by
    rcases mem_layers.mp hlayer with rfl | rfl <;> exact List.Subset.refl _
  consistent layer hlayer := by
    rcases mem_layers.mp hlayer with rfl | rfl <;> exact h.consistent _ tx.current_mem_layers

/-- A transaction that only has fewer layers and locks stays apart. -/
theorem Apart.mono {tx' other : Tx S} (h : tx.Apart other) (hlocks : tx'.locks ⊆ tx.locks)
    (hlayers : ∀ layer ∈ tx'.layers, ∃ old ∈ tx.layers, old.1 = layer.1) :
    tx'.Apart other where
  locks _ _ _ _ hheld hheld' := h.locks (hheld.mono hlocks) hheld'
  rows layer hlayer layer' hlayer' _ _ _ _ _ hrow := by
    obtain ⟨old, hold, heq⟩ := hlayers layer hlayer
    rw [← heq] at hrow
    exact h.rows old hold layer' hlayer' hrow

/-- Every step that does not commit keeps the transaction sound and apart from
the others. -/
theorem sound_apart_of_txStep {tx' : Tx S} (hstep : TxStep db others tx tx' none)
    (hcommitted : Consistent db.tables) (h : tx.Sound db)
    (hapart : ∀ other ∈ others, tx.Apart other) :
    tx'.Sound db ∧ ∀ other ∈ others, tx'.Apart other := by
  cases hstep with
  | same => exact ⟨h, hapart⟩
  | observe t =>
      exact ⟨⟨h.current, h.covers, h.subset, h.consistent⟩,
        fun other hother => ⟨(hapart other hother).locks, (hapart other hother).rows⟩⟩
  | hold t x mode hfree =>
      rw [free_iff] at hfree
      exact ⟨h.hold t x mode, fun other hother => (hapart other hother).hold (hfree other hother)⟩
  | @update t row f violation hrow hfree hcontended hrejected =>
      rw [free_iff] at hfree
      have hid : S.id (f.apply row) = S.id row := f.keeps_id row
      have hlocked := h.hold t (S.id row) (RowOp.mode (.set f violation) row)
      refine ⟨hlocked.write ?_ hrejected ?_, fun other hother => ?_⟩
      · have hcovers := hlocked.covers _ (current_mem_layers _)
        have hheld : Holds (tx.hold t (S.id row) (RowOp.mode (.set f violation) row) db).locks
            t (S.id row) (RowOp.mode (.set f violation) row) :=
          holds_hold.mpr (.inl ⟨rfl, rfl, rfl⟩)
        -- the version that the update replaces is the committed one or an own one
        have hbefore : ((tx.writes t).get (S.id row) = some row) ∨
            db.get t (S.id row) = some row := by
          rw [Database.get_view] at hrow
          cases hown : (tx.writes t).get (S.id row) with
          | none => exact .inr (by simpa [hown] using hrow)
          | some own => exact .inl (by simpa [hown] using hrow)
        refine hcovers.put ?_ ?_ ?_
        · rw [hid]
          by_cases hkey : S.key (f.apply row) = S.key row
          · exact .inl (by simpa [RowOp.mode, hkey] using hheld)
          · exact .inr (by simpa [RowOp.mode, hkey] using hheld)
        · rw [hid]
          by_cases hkey : S.key (f.apply row) = S.key row
          · rw [hkey]
            rcases hbefore with hown | hcommitted
            · exact hcovers.key hown
            · exact .inr ⟨row, hcommitted, rfl⟩
          · exact .inl (by simpa [RowOp.mode, hkey] using hheld)
        · rw [hid, f.keeps_refs]
          rcases hbefore with hown | hcommitted
          · exact hcovers.refs hown
          · exact .inl ⟨row, hcommitted, rfl⟩
      · rw [f.keeps_refs]
        exact (h.consistent _ tx.current_mem_layers).referential hrow
      · refine ((hapart other hother).hold (hfree other hother)).write ?_
        intro layer hlayer x r hr hne
        exact contended_eq_false hcontended hother hlayer hr hne
  | @insert t row hrow hfree hcontended hrejected hexist hrefs =>
      rw [free_iff] at hfree
      have hrefsFree : ∀ other ∈ others, ∀ ref ∈ S.refs row, ∀ mode',
          Holds other.locks ref.1 ref.2 mode' → mode'.conflicts .keyShare = false :=
        fun other hother ref href => free_iff.mp (hrefs ref href) other hother
      have hlocked := (h.holdAll (S.refs row) .keyShare).hold t (S.id row) .update
      refine ⟨hlocked.write ?_ hrejected hexist, fun other hother => ?_⟩
      · have hcovers := hlocked.covers _ (current_mem_layers _)
        refine hcovers.put (.inr ?_) (.inl ?_) (.inr fun ref href => ?_)
        · exact holds_hold.mpr (.inl ⟨rfl, rfl, rfl⟩)
        · exact holds_hold.mpr (.inl ⟨rfl, rfl, rfl⟩)
        · exact holds_hold.mpr (.inr (holds_holdAll href))
      · refine (((hapart other hother).holdAll (hrefsFree other hother)).hold
          (hfree other hother)).write ?_
        intro layer hlayer x r hr hne
        exact contended_eq_false hcontended hother hlayer hr hne
  | reset => exact ⟨sound_begin hcommitted, fun other _ => apart_begin other⟩
  | save =>
      refine ⟨h.save, fun other hother => (hapart other hother).mono (List.Subset.refl _) ?_⟩
      intro layer hlayer
      rcases mem_layers.mp hlayer with rfl | rfl
      · exact ⟨_, tx.current_mem_layers, rfl⟩
      · exact ⟨_, tx.current_mem_layers, rfl⟩
  | restore =>
      refine ⟨h.restore, fun other hother =>
        (hapart other hother).mono (h.subset _ tx.saved_mem_layers) ?_⟩
      intro layer hlayer
      rcases mem_layers.mp hlayer with rfl | rfl
      · exact ⟨_, tx.saved_mem_layers, rfl⟩
      · exact ⟨_, tx.saved_mem_layers, rfl⟩

/-- A commit of another transaction keeps this one sound. -/
theorem Sound.apply {other : Tx S} (h : tx.Sound db) (hother : other.Sound db)
    (hapart : tx.Apart other) : tx.Sound (db.apply other.writes) where
  current lock hlock :=
    (h.current lock hlock).apply hlock hapart.locks
      (hother.covers _ other.current_mem_layers)
  covers layer hlayer := by
    refine (h.covers layer hlayer).apply ?_ (hother.covers _ other.current_mem_layers)
    intro t x mode mode' hheld hheld'
    exact hapart.locks (hheld.mono (h.subset layer hlayer)) hheld'
  subset := h.subset
  consistent layer hlayer := by
    have hmine := h.consistent layer hlayer
    have hothers := hother.consistent _ other.current_mem_layers
    -- where a row of the new view comes from
    have hview : ∀ {t : S.Table} {x : S.Id} {row : S.Row t},
        ((db.apply other.writes).view layer.1 t).get x = some row →
          (layer.1 t).get x = some row ∨ (other.writes t).get x = some row ∨
            ((db.view layer.1 t).get x = some row ∧ (db.view other.writes t).get x = some row) := by
      intro t x row hrow
      rw [Database.get_view, Database.get_apply] at hrow
      simp only [Database.get_view]
      cases hlayer' : (layer.1 t).get x with
      | some own => simp_all
      | none =>
          cases hwritten : (other.writes t).get x with
          | some new => simp_all
          | none => simp_all
    have hown : ∀ {t : S.Table} {x : S.Id} {row : S.Row t} {writes : Writes S},
        (writes t).get x = some row → (db.view writes t).get x = some row := by
      intro t x row writes hrow
      rw [Database.get_view, hrow]
      rfl
    have hkept : ∀ {t : S.Table} {x : S.Id},
        (db.view layer.1 t).get x ≠ none ∨ (db.view other.writes t).get x ≠ none →
          ((db.apply other.writes).view layer.1 t).get x ≠ none := by
      intro t x hseen
      rw [Database.get_view, Database.get_view] at hseen
      rw [Database.get_view, Database.get_apply]
      cases hlayer' : (layer.1 t).get x <;> simp_all
      cases hwritten : (other.writes t).get x <;> simp_all
    constructor
    · intro t x x' row row' hrow hrow' hne
      rcases hview hrow with hmy | htheir | ⟨hmy, htheir⟩ <;>
        rcases hview hrow' with hmy' | htheir' | ⟨hmy', htheir'⟩
      · exact hmine.unique (hown hmy) (hown hmy') hne
      · exact hapart.rows layer hlayer _ other.current_mem_layers hmy htheir' hne
      · exact hmine.unique (hown hmy) hmy' hne
      · rw [S.conflict_comm]
        exact hapart.rows layer hlayer _ other.current_mem_layers hmy' htheir hne.symm
      · exact hothers.unique (hown htheir) (hown htheir') hne
      · exact hothers.unique (hown htheir) htheir' hne
      · exact hmine.unique hmy (hown hmy') hne
      · exact hothers.unique htheir (hown htheir') hne
      · exact hmine.unique hmy hmy' hne
    · intro t x row hrow ref href
      refine hkept ?_
      rcases hview hrow with hmy | htheir | ⟨hmy, -⟩
      · exact .inl (hmine.referential (hown hmy) ref href)
      · exact .inr (hothers.referential (hown htheir) ref href)
      · exact .inl (hmine.referential hmy ref href)

/-- The clock decides nothing about locks. -/
theorem Sound.advance (h : tx.Sound db) (n : ℕ) : tx.Sound (db.advance n) where
  current lock hlock :=
    have hstands := h.current lock hlock
    ⟨hstands.row, hstands.key, hstands.refs, hstands.kept⟩
  covers layer hlayer :=
    have hcovers := h.covers layer hlayer
    ⟨hcovers.exclusive, hcovers.key, hcovers.refs⟩
  subset := h.subset
  consistent := h.consistent

end Tx

/-! ## All transactions of a state -/

namespace State

variable {Request Answer : Type}

/-- The system invariant. -/
structure Isolated (s : State S Request Answer) : Prop where
  committed : Consistent s.history.now.tables
  sound : ∀ {i : ℕ} {th : Thread S Request Answer}, s.threads[i]? = some th →
    th.tx.Sound s.history.now
  apart : ∀ {i j : ℕ} {th th' : Thread S Request Answer}, i ≠ j →
    s.threads[i]? = some th → s.threads[j]? = some th' → th.tx.Apart th'.tx

theorem mem_others {s : State S Request Answer} {i : ℕ} {tx : Tx S} :
    tx ∈ s.others i ↔ ∃ j th, j ≠ i ∧ s.threads[j]? = some th ∧ th.tx = tx := by
  simp only [others, List.mem_map, List.mem_eraseIdx_iff_getElem?]
  constructor
  · rintro ⟨th, ⟨j, hj, hth⟩, rfl⟩
    exact ⟨j, th, hj, hth, rfl⟩
  · rintro ⟨j, th, hj, hth, rfl⟩
    exact ⟨th, ⟨j, hj, hth⟩, rfl⟩

theorem isolated_initial {db : Database S} (h : Consistent db.tables) :
    (initial db : State S Request Answer).Isolated where
  committed := h
  sound hth := by simp [initial] at hth
  apart _ hth := by simp [initial] at hth

variable {s s' : State S Request Answer}

/-- Replacing one thread by one that is sound and apart from the rest. -/
theorem Isolated.set (h : s.Isolated) {i : ℕ} {th : Thread S Request Answer}
    (hsound : th.tx.Sound s.history.now) (hapart : ∀ other ∈ s.others i, th.tx.Apart other) :
    (⟨s.history, s.threads.set i th⟩ : State S Request Answer).Isolated where
  committed := h.committed
  sound {j th'} hth' := by
    rw [List.getElem?_set] at hth'
    split at hth'
    · split at hth'
      · cases hth'
        exact hsound
      · cases hth'
    · exact h.sound hth'
  apart {j k a b} hjk ha hb := by
    rw [List.getElem?_set] at ha hb
    split at ha
    · next hij =>
        split at ha
        · cases ha
          rw [if_neg (hij ▸ hjk)] at hb
          exact hapart _ (mem_others.mpr ⟨k, b, hij ▸ hjk.symm, hb, rfl⟩)
        · cases ha
    · next hij =>
        split at hb
        · next hik =>
            split at hb
            · cases hb
              exact (hapart _ (mem_others.mpr ⟨j, a, Ne.symm hij, ha, rfl⟩)).symm
            · cases hb
        · exact h.apart hjk ha hb

/-- One step of the system keeps its transactions isolated. -/
theorem Isolated.step {code : ℕ → Request → Prog S Answer} {a : Action S Request}
    (h : s.Isolated) (hstep : State.step code s a = some s') : s'.Isolated := by
  cases a with
  | start r =>
      cases hstep
      refine ⟨h.committed, ?_, ?_⟩
      · intro i th hth
        rw [List.getElem?_append] at hth
        split at hth
        · exact h.sound hth
        · rw [List.getElem?_singleton] at hth
          split at hth <;> cases hth
          exact Tx.sound_begin h.committed
      · intro i j th th' hij hth hth'
        rw [List.getElem?_append] at hth hth'
        split at hth
        · split at hth'
          · exact h.apart hij hth hth'
          · rw [List.getElem?_singleton] at hth'
            split at hth' <;> cases hth'
            exact (Tx.apart_begin _).symm
        · rw [List.getElem?_singleton] at hth
          split at hth <;> cases hth
          exact Tx.apart_begin _
  | exec i picks =>
      obtain ⟨th, o, hth, ho, rfl⟩ := step_exec hstep
      have htx := exec_txStep ho
      have hapart : ∀ other ∈ s.others i, th.tx.Apart other := by
        intro other hother
        obtain ⟨j, th', hj, hth', rfl⟩ := mem_others.mp hother
        exact h.apart hj.symm hth hth'
      cases hdb : o.committed with
      | none =>
          rw [hdb] at htx
          obtain ⟨hsound, hapart'⟩ :=
            Tx.sound_apart_of_txStep htx h.committed (h.sound hth) hapart
          exact h.set hsound hapart'
      | some db =>
          obtain ⟨next, -, -, hbegin, rfl⟩ := exec_committed ho hdb
          have hmine := h.sound hth
          have hcommitted : Consistent (s.history.now.apply th.tx.writes).tables :=
            hmine.consistent _ th.tx.current_mem_layers
          refine ⟨hcommitted, ?_, ?_⟩
          · intro j th' hth'
            rw [List.getElem?_set] at hth'
            split at hth'
            · split at hth'
              · cases hth'
                change o.tx.Sound _
                rw [hbegin]
                exact Tx.sound_begin hcommitted
              · cases hth'
            · next hij => exact (h.sound hth').apply hmine (h.apart (Ne.symm hij) hth' hth)
          · have hset : (⟨s.history, s.threads.set i { th with prog := o.prog, tx := o.tx }⟩ :
                State S Request Answer).Isolated := by
              apply h.set
              · change o.tx.Sound _
                rw [hbegin]
                exact Tx.sound_begin h.committed
              · intro other _
                change o.tx.Apart other
                rw [hbegin]
                exact Tx.apart_begin other
            intro j k a b hjk ha hb
            exact hset.apart hjk ha hb
  | abort i e =>
      obtain ⟨th, hth, -, rfl⟩ := step_abort hstep
      exact h.set (Tx.sound_begin h.committed) fun other _ => Tx.apart_begin other
  | tick n =>
      cases hstep
      refine ⟨h.committed, fun hth => ?_, h.apart⟩
      exact (h.sound hth).advance n

/-- Reachable states are isolated. -/
theorem Reach.isolated {code : ℕ → Request → Prog S Answer} {Init : Database S → Prop}
    {ok : Tx S → Database S → Prop} (hinit : ∀ db, Init db → Consistent db.tables)
    (h : Reach code Init ok s) : s.Isolated := by
  induction h with
  | init hdb => exact isolated_initial (hinit _ hdb)
  | step _ hstep _ ih => exact ih.step hstep

end State

end Orgistry.ReadCommitted
