import Orgistry.ReadCommitted.Logic

/-!
# Proof rules

One rule for every kind of statement.  The rule for locking statements is the
interesting one: its rows come from a snapshot, but once they are locked they
are current until the transaction ends.
-/

namespace Orgistry.ReadCommitted

variable {S : Schema} {G : Tx S → Database S → Prop} {α β : Type}
  {tx : Tx S} {w w' : History S}

/-- What follows a locking statement can be weakened. -/
theorem ScanSafe.mono {t : S.Table} {p : S.Row t → Bool} {op : RowOp S t}
    {K K' : List (S.Row t) → Tx S → History S → Prop}
    (hK : ∀ got tx w, K got tx w → K' got tx w) {todo : List S.Id} {got : List (S.Row t)}
    (h : ScanSafe G p op K todo got tx w) : ScanSafe G p op K' todo got tx w := by
  induction todo generalizing got tx w with
  | nil => exact fun w' haround => hK _ _ _ (h w' haround)
  | cons x todo ih =>
      intro w' haround
      have hrow := h w' haround
      split
      · next hnone =>
          simp only [hnone] at hrow
          exact ih hrow
      · next row hsome =>
          simp only [hsome] at hrow
          dsimp only
          split
          · next hp =>
              rw [if_pos hp] at hrow
              exact ih hrow
          · next hp =>
              rw [if_neg hp] at hrow
              exact ih hrow

/-- Sequential composition. -/
theorem safe_bind {prog : Prog S α} {f : α → Prog S β} {Q : β → Tx S → History S → Prop}
    (h : Safe G prog (fun a tx w => Safe G (f a) Q tx w) tx w) :
    Safe G (prog >>= f) Q tx w := by
  change Safe G (prog.bind f) Q tx w
  induction prog generalizing tx w with
  | ret => exact h
  | raise => trivial
  | now next ih => exact fun w' haround => ih _ (h w' haround)
  | select t p next ih => exact fun w' haround => ih _ (h w' haround)
  | lock t p op next ih =>
      exact fun w' haround keys hkeys =>
        (h w' haround keys hkeys).mono fun got _ _ hgot => ih got hgot
  | scan t p op todo got next ih => exact ScanSafe.mono (fun got _ _ hgot => ih got hgot) h
  | acquire t x next ih => exact fun w' haround => ih (h w' haround)
  | insert t row duplicate next ihduplicate ih =>
      intro w' haround x hid hnone
      have hinsert := h w' haround x hid hnone
      split
      · next hrejected =>
          rw [if_pos hrejected] at hinsert
          exact ihduplicate hinsert
      · next hrejected =>
          rw [if_neg hrejected] at hinsert
          exact fun hrefs => ih _ (hinsert hrefs)
  | commit next ih => exact fun w' haround => ⟨(h w' haround).1, ih (h w' haround).2⟩
  | rollback next ih => exact fun w' haround => ih (h w' haround)
  | savepoint next ih => exact fun w' haround => ih (h w' haround)
  | rollbackTo next ih => exact fun w' haround => ih (h w' haround)

theorem safe_clock {Q : ℕ → Tx S → History S → Prop}
    (h : ∀ w', Around G tx w w' → Q w'.now.clock tx w') : Safe G clock Q tx w := h

theorem safe_abortWith {Q : α → Tx S → History S → Prop} {e : S.Error} :
    Safe G (abortWith e) Q tx w := fun _ _ => trivial

theorem safe_setSavepoint {Q : Unit → Tx S → History S → Prop}
    (h : ∀ w', Around G tx w w' → Q () tx.save w') : Safe G setSavepoint Q tx w := h

theorem safe_rollbackToSavepoint {Q : Unit → Tx S → History S → Prop}
    (h : ∀ w', Around G tx w w' → Q () tx.restore w') : Safe G rollbackToSavepoint Q tx w := h

theorem safe_rollBack {Q : Unit → Tx S → History S → Prop}
    (h : ∀ w', Around G tx w w' → Q () .begin w') : Safe G rollBack Q tx w := h

theorem safe_advisoryLock {t : S.Table} {x : S.Id} {Q : Unit → Tx S → History S → Prop}
    (h : ∀ w', Around G tx w w' → Q () (tx.hold t x .update w'.now) w') :
    Safe G (advisoryLock t x) Q tx w := h

theorem safe_select {t : S.Table} {p : S.Row t → Bool}
    {Q : List (S.Row t) → Tx S → History S → Prop}
    (h : ∀ w', Around G tx w w' → Q ((w'.now.view tx.writes t).rows.filter p) tx w') :
    Safe G (select t p) Q tx w := h

/-- A transaction is safe when its body ends in a state in which the commit is
allowed. -/
theorem safe_transaction {body : Prog S α} {Q : α → Tx S → History S → Prop}
    (h : Safe G body (fun a tx w => ∀ w', Around G tx w w' → G tx w'.now ∧
      Q a .begin (w'.push (w'.now.apply tx.writes))) tx w) :
    Safe G (transaction body) Q tx w :=
  safe_bind (f := fun a => Prog.commit (.ret a)) h

/-- The transaction after it has inserted `row`. -/
def Tx.add (tx : Tx S) {t : S.Table} (row : S.Row t) (db : Database S) : Tx S :=
  ((tx.holdAll (S.refs row) .keyShare db).hold t (S.id row) .update db).write row

@[simp]
theorem Tx.writes_add (tx : Tx S) {t : S.Table} (row : S.Row t) (db : Database S) :
    (tx.add row db).writes = tx.writes.put row := rfl

theorem Tx.writes_add_self (tx : Tx S) {t : S.Table} (row : S.Row t) (db : Database S) :
    (tx.add row db).writes t = (tx.writes t).put row :=
  Function.update_self _ _ _

theorem Tx.writes_add_of_ne (tx : Tx S) {t t' : S.Table} (row : S.Row t) (db : Database S)
    (h : t' ≠ t) : (tx.add row db).writes t' = tx.writes t' :=
  Writes.put_of_ne _ _ h

@[simp]
theorem Tx.snapshots_add (tx : Tx S) {t : S.Table} (row : S.Row t) (db : Database S) :
    (tx.add row db).snapshots = tx.snapshots := rfl

@[simp]
theorem Tx.saved_add (tx : Tx S) {t : S.Table} (row : S.Row t) (db : Database S) :
    (tx.add row db).saved = tx.saved := rfl

theorem Tx.get_view_add_self (tx : Tx S) {t : S.Table} (row : S.Row t) (since db : Database S) :
    (db.view (tx.add row since).writes t).get (S.id row) = some row := by
  rw [Database.get_view, Tx.writes_add, Writes.get_put, if_pos rfl]
  rfl

theorem Tx.get_view_add_of_ne {tx : Tx S} {t : S.Table} {row : S.Row t} {x : S.Id}
    (h : x ≠ S.id row) (since db : Database S) :
    (db.view (tx.add row since).writes t).get x = (db.view tx.writes t).get x := by
  rw [Database.get_view, Tx.writes_add, Writes.get_put, if_neg h, Database.get_view]

theorem Tx.locks_subset_add (tx : Tx S) {t : S.Table} (row : S.Row t) (db : Database S) :
    tx.locks ⊆ (tx.add row db).locks := fun _ hlock =>
  List.mem_cons_of_mem _ (List.mem_append_right _ hlock)

/-- What an insert finds out: the primary key is fresh, no visible row
conflicts, and the referenced rows exist. -/
structure Insertable (db : Database S) (tx : Tx S) {t : S.Table} (row : S.Row t) : Prop where
  fresh : (db.view tx.writes t).get (S.id row) = none
  accepted : Tx.rejected db tx row = false
  refs : ∀ ref ∈ S.refs row, (db.view tx.writes ref.1).get ref.2 ≠ none

private theorem safe_insertNode {t : S.Table} {row : S.Id → S.Row t}
    {duplicate : Prog S α} {next : S.Row t → Prog S α} {Q : α → Tx S → History S → Prop}
    (hduplicate : ∀ w', Around G tx w w' → Safe G duplicate Q tx w')
    (h : ∀ w' x, Around G tx w w' → S.id (row x) = x → Insertable w'.now tx (row x) →
      Safe G (next (row x)) Q (tx.add (row x) w'.now) w') :
    Safe G (.insert t row duplicate next) Q tx w := by
  intro w' haround x hid hnone
  split
  · exact hduplicate w' haround
  · next hrejected =>
      intro hrefs
      have hadd := h w' x haround hid ⟨by rw [hid]; exact hnone, by simpa using hrejected, hrefs⟩
      rw [Tx.add, hid] at hadd
      exact hadd

theorem safe_tryInsert {t : S.Table} {row : S.Id → S.Row t}
    {Q : Option (S.Row t) → Tx S → History S → Prop}
    (hduplicate : ∀ w', Around G tx w w' → Q none tx w')
    (h : ∀ w' x, Around G tx w w' → S.id (row x) = x → Insertable w'.now tx (row x) →
      Q (some (row x)) (tx.add (row x) w'.now) w') :
    Safe G (tryInsert t row) Q tx w :=
  safe_insertNode hduplicate h

theorem safe_insert {t : S.Table} {row : S.Id → S.Row t}
    {Q : S.Row t → Tx S → History S → Prop}
    (h : ∀ w' x, Around G tx w w' → S.id (row x) = x → Insertable w'.now tx (row x) →
      Q (row x) (tx.add (row x) w'.now) w') :
    Safe G (insert t row) Q tx w :=
  safe_insertNode (fun _ _ _ _ => trivial) h

section Scanning

variable {t : S.Table} {p : S.Row t → Bool} {op : RowOp S t}

/-- The writes of a locking statement that returned `got`. -/
def RowOp.written (op : RowOp S t) (writes : Writes S) (got : List (S.Row t)) : Writes S :=
  match op with
  | .hold _ => writes
  | .set _ _ => writes.putAll got

/-- A locking statement has visited `keys`, returned `got`, and taken the
transaction from `tx` to `tx'`.  Every key is locked and was looked at when its
lock was granted. -/
structure Scanned (p : S.Row t → Bool) (op : RowOp S t) (tx : Tx S) (keys : List S.Id)
    (got : List (S.Row t)) (tx' : Tx S) : Prop where
  visited : ∀ x ∈ keys, ∃ row since, (⟨t, x, op.mode row, since⟩ : Lock S) ∈ tx'.locks ∧
    (since.view tx.writes t).get x = some row ∧ (p row → op.result row ∈ got)
  found : ∀ new ∈ got, ∃ row since, S.id row ∈ keys ∧
    (⟨t, S.id row, op.mode row, since⟩ : Lock S) ∈ tx'.locks ∧
    (since.view tx.writes t).get (S.id row) = some row ∧ p row ∧ new = op.result row
  nodup : (got.map S.id).Nodup
  locks : tx.locks ⊆ tx'.locks
  writes : tx'.writes = op.written tx.writes got
  snapshots : tx'.snapshots = tx.snapshots
  saved : tx'.saved = tx.saved

theorem scanned_nil (p : S.Row t → Bool) (op : RowOp S t) (tx : Tx S) :
    Scanned p op tx [] [] tx where
  visited := by simp
  found := by simp
  nodup := by simp
  locks := List.Subset.refl _
  writes := by cases op <;> rfl
  snapshots := rfl
  saved := rfl

/-- The statement's own earlier writes are on other keys. -/
theorem Scanned.get_view {keys : List S.Id} {got : List (S.Row t)} {tx' : Tx S}
    (h : Scanned p op tx keys got tx') {x : S.Id} (hx : x ∉ keys) (db : Database S) :
    (db.view tx'.writes t).get x = (db.view tx.writes t).get x := by
  rw [h.writes]
  cases op with
  | hold mode => rfl
  | set f violation =>
      have hnot : x ∉ got.map S.id := by
        intro hmem
        obtain ⟨new, hnew, rfl⟩ := List.mem_map.mp hmem
        obtain ⟨row, since, hkey, -, -, -, rfl⟩ := h.found new hnew
        rw [RowOp.id_result] at hx
        exact hx hkey
      rw [Database.get_view, Database.get_view, RowOp.written, Writes.get_putAll_of_notMem hnot]

/-- The statement locks one more row that does not qualify any more. -/
theorem Scanned.skip {keys : List S.Id} {got : List (S.Row t)} {tx' : Tx S}
    (h : Scanned p op tx keys got tx') {x : S.Id} (hx : x ∉ keys) {row : S.Row t}
    {db : Database S} (hrow : (db.view tx'.writes t).get x = some row) (hp : ¬p row) :
    Scanned p op tx (keys ++ [x]) got (tx'.hold t x (op.mode row) db) where
  visited y hy := by
    rcases List.mem_append.mp hy with hy | hy
    · obtain ⟨row, since, hlock, hseen, hgot⟩ := h.visited y hy
      exact ⟨row, since, List.mem_cons_of_mem _ hlock, hseen, hgot⟩
    · obtain rfl := List.mem_singleton.mp hy
      rw [h.get_view hx] at hrow
      exact ⟨row, db, by simp [Tx.hold], hrow, fun hq => absurd hq hp⟩
  found new hnew := by
    obtain ⟨row, since, hkey, hlock, hrest⟩ := h.found new hnew
    exact ⟨row, since, List.mem_append_left _ hkey, List.mem_cons_of_mem _ hlock, hrest⟩
  nodup := h.nodup
  locks := List.Subset.trans h.locks (List.subset_cons_self _ _)
  writes := h.writes
  snapshots := h.snapshots
  saved := h.saved

theorem Tx.locks_perform (op : RowOp S t) (row : S.Row t) (tx : Tx S) :
    (tx.perform op row).locks = tx.locks := by
  cases op <;> rfl

/-- The statement locks and takes one more row. -/
theorem Scanned.take {keys : List S.Id} {got : List (S.Row t)} {tx' : Tx S}
    (h : Scanned p op tx keys got tx') {x : S.Id} (hx : x ∉ keys) {row : S.Row t}
    {db : Database S} (hrow : (db.view tx'.writes t).get x = some row) (hp : p row) :
    Scanned p op tx (keys ++ [x]) (got ++ [op.result row])
      ((tx'.hold t x (op.mode row) db).perform op row) where
  visited y hy := by
    rw [Tx.locks_perform]
    rcases List.mem_append.mp hy with hy | hy
    · obtain ⟨row, since, hlock, hseen, hgot⟩ := h.visited y hy
      exact ⟨row, since, List.mem_cons_of_mem _ hlock, hseen,
        fun hq => List.mem_append_left _ (hgot hq)⟩
    · obtain rfl := List.mem_singleton.mp hy
      rw [h.get_view hx] at hrow
      exact ⟨row, db, by simp [Tx.hold], hrow, fun _ => by simp⟩
  found new hnew := by
    rw [Tx.locks_perform]
    rcases List.mem_append.mp hnew with hnew | hnew
    · obtain ⟨row, since, hkey, hlock, hrest⟩ := h.found new hnew
      exact ⟨row, since, List.mem_append_left _ hkey, List.mem_cons_of_mem _ hlock, hrest⟩
    · obtain rfl := List.mem_singleton.mp hnew
      have hid := Relation.id_of_get hrow
      rw [h.get_view hx] at hrow
      subst hid
      exact ⟨row, db, by simp, by simp [Tx.hold], hrow, hp, rfl⟩
  nodup := by
    rw [List.map_append, List.nodup_append]
    refine ⟨h.nodup, by simp, ?_⟩
    rintro y hy z hz rfl
    obtain ⟨new, hnew, rfl⟩ := List.mem_map.mp hy
    obtain ⟨old, -, hkey, -, -, -, rfl⟩ := h.found new hnew
    rw [List.map_singleton, List.mem_singleton, RowOp.id_result, RowOp.id_result,
      Relation.id_of_get hrow] at hz
    exact hx (hz ▸ hkey)
  locks := by
    rw [Tx.locks_perform]
    exact List.Subset.trans h.locks (List.subset_cons_self _ _)
  writes := by
    cases op with
    | hold mode => exact h.writes
    | set f violation =>
        change tx'.writes.put (f.apply row) = tx.writes.putAll (got ++ [f.apply row])
        rw [h.writes, Writes.putAll, List.foldl_append]
        rfl
  snapshots := by cases op <;> exact h.snapshots
  saved := by cases op <;> exact h.saved

/-- By induction on the keys that are still to lock. -/
private theorem scanSafe {K : List (S.Row t) → Tx S → History S → Prop} {start tx : Tx S}
    {done todo : List S.Id} {got : List (S.Row t)}
    (hscanned : Scanned p op start done got tx) (hnodup : (done ++ todo).Nodup)
    (hvisible : ∀ x ∈ todo, (w.now.view start.writes t).get x ≠ none)
    (hK : ∀ got tx' w', Scanned p op start (done ++ todo) got tx' → Around G tx' w w' →
      K got tx' w') :
    ScanSafe G p op K todo got tx w := by
  induction todo generalizing done got tx w with
  | nil =>
      intro w' haround
      rw [List.append_nil] at hK
      exact hK got tx w' hscanned haround
  | cons x todo ih =>
      intro w' haround
      have hx : x ∉ done := by
        rw [List.nodup_append] at hnodup
        exact fun hmem => hnodup.2.2 x hmem x (by simp) rfl
      rw [List.append_cons] at hnodup
      have hvisible' : ∀ y ∈ x :: todo, (w'.now.view start.writes t).get y ≠ none := by
        intro y hy
        have hbefore := hvisible y hy
        rw [Database.get_view] at hbefore ⊢
        cases hown : (start.writes t).get y with
        | some own => simp
        | none =>
            rw [hown] at hbefore
            exact haround.moves.get_ne_none hbefore
      have hrest : ∀ got tx' w'', Scanned p op start (done ++ [x] ++ todo) got tx' →
          Around G tx' w' w'' → K got tx' w'' := by
        intro got tx' w'' hdone haround'
        rw [← List.append_cons] at hdone
        exact hK got tx' w'' hdone ⟨haround.moves.trans haround'.moves, haround'.sound⟩
      have htodo : ∀ y ∈ todo, (w'.now.view start.writes t).get y ≠ none :=
        fun y hy => hvisible' y (List.mem_cons_of_mem _ hy)
      split
      · next hnone =>
          rw [hscanned.get_view hx] at hnone
          exact absurd hnone (hvisible' x (by simp))
      · next row hrow =>
          dsimp only
          split
          · next hp => exact ih (hscanned.take hx hrow hp) hnodup htodo hrest
          · next hp => exact ih (hscanned.skip hx hrow hp) hnodup htodo hrest

/-- A locking statement that began on the database `start` has returned `got`
and taken the transaction from `tx` to `tx'`. -/
structure Selected (p : S.Row t → Bool) (op : RowOp S t) (tx : Tx S) (start : Database S)
    (got : List (S.Row t)) (tx' : Tx S) : Prop where
  complete : ∀ {x row}, (start.view tx.writes t).get x = some row → p row →
    ∃ row since, (⟨t, x, op.mode row, since⟩ : Lock S) ∈ tx'.locks ∧
      (since.view tx.writes t).get x = some row ∧ (p row → op.result row ∈ got)
  found : ∀ new ∈ got, ∃ row since,
    (⟨t, S.id row, op.mode row, since⟩ : Lock S) ∈ tx'.locks ∧
    (since.view tx.writes t).get (S.id row) = some row ∧ p row ∧ new = op.result row
  nodup : (got.map S.id).Nodup
  locks : tx.locks ⊆ tx'.locks
  writes : tx'.writes = op.written tx.writes got
  snapshots : tx'.snapshots = (t, start) :: tx.snapshots
  saved : tx'.saved = tx.saved

/-- The rule of locking statements: what they return was current when it was locked. -/
theorem safe_lock {Q : List (S.Row t) → Tx S → History S → Prop}
    (h : ∀ w' got tx' w'', Around G tx w w' → Selected p op tx w'.now got tx' →
      Around G tx' w' w'' → Q got tx' w'') :
    Safe G (.lock t p op .ret) Q tx w := by
  intro w' haround keys hkeys
  have hmem : ∀ x, x ∈ keys ↔ ∃ row, (w'.now.view tx.writes t).get x = some row ∧ p row := by
    intro x
    rw [hkeys.mem_iff]
    simp only [List.mem_map, List.mem_filter, Relation.mem_rows_iff]
    constructor
    · rintro ⟨row, ⟨hrow, hp⟩, rfl⟩
      exact ⟨row, hrow, hp⟩
    · rintro ⟨row, hrow, hp⟩
      have hid := Relation.id_of_get hrow
      exact ⟨row, ⟨by rw [hid]; exact hrow, hp⟩, hid⟩
  have hnodup : keys.Nodup := by
    refine hkeys.nodup_iff.mpr ?_
    exact ((w'.now.view tx.writes t).nodup).sublist (List.filter_sublist.map _)
  refine scanSafe (scanned_nil p op (tx.observe t w'.now)) (by simpa using hnodup) ?_ ?_
  · intro x hx
    obtain ⟨row, hrow, -⟩ := (hmem x).mp hx
    change (w'.now.view tx.writes t).get x ≠ none
    simp [hrow]
  · intro got tx' w'' hscanned haround'
    refine h w' got tx' w'' haround ⟨?_, ?_, hscanned.nodup, hscanned.locks, hscanned.writes,
      hscanned.snapshots, hscanned.saved⟩ haround'
    · intro x row hrow hp
      exact hscanned.visited x ((hmem x).mpr ⟨row, hrow, hp⟩)
    · intro new hnew
      obtain ⟨row, since, -, hrest⟩ := hscanned.found new hnew
      exact ⟨row, since, hrest⟩

theorem safe_selectForUpdate {Q : List (S.Row t) → Tx S → History S → Prop}
    (h : ∀ w' got tx' w'', Around G tx w w' → Selected p (.hold .update) tx w'.now got tx' →
      Around G tx' w' w'' → Q got tx' w'') :
    Safe G (selectForUpdate t p) Q tx w := safe_lock h

theorem safe_selectForShare {Q : List (S.Row t) → Tx S → History S → Prop}
    (h : ∀ w' got tx' w'', Around G tx w w' → Selected p (.hold .share) tx w'.now got tx' →
      Around G tx' w' w'' → Q got tx' w'') :
    Safe G (selectForShare t p) Q tx w := safe_lock h

theorem safe_updateOr {violation : S.Error} {f : Assignment S t}
    {Q : List (S.Row t) → Tx S → History S → Prop}
    (h : ∀ w' got tx' w'', Around G tx w w' →
      Selected p (.set f violation) tx w'.now got tx' → Around G tx' w' w'' → Q got tx' w'') :
    Safe G (updateOr t violation p f) Q tx w := safe_lock h

theorem safe_update {f : Assignment S t} {Q : List (S.Row t) → Tx S → History S → Prop}
    (h : ∀ w' got tx' w'', Around G tx w w' →
      Selected p (.set f S.uniqueViolation) tx w'.now got tx' → Around G tx' w' w'' →
      Q got tx' w'') :
    Safe G (update t p f) Q tx w := safe_lock h

/-! ## The rows of a locking statement at commit time -/

/-- The statement locks against other writers. -/
def RowOp.Exclusive (op : RowOp S t) : Prop := ∀ row, op.mode row ≠ .keyShare

theorem RowOp.exclusive_hold {mode : LockMode} (h : mode ≠ .keyShare) :
    (RowOp.hold mode : RowOp S t).Exclusive := fun _ => h

theorem RowOp.exclusive_set (f : Assignment S t) (violation : S.Error) :
    (RowOp.set f violation).Exclusive := by
  intro row
  simp only [RowOp.mode]
  split <;> simp

/-- A key that is locked exclusively still shows the row it showed then. -/
theorem Tx.Sound.get_view {tx' : Tx S} {db since : Database S} (hsound : tx'.Sound db)
    {x : S.Id} {mode : LockMode} (hmode : mode ≠ .keyShare)
    (hlock : (⟨t, x, mode, since⟩ : Lock S) ∈ tx'.locks) (writes : Writes S) :
    (db.view writes t).get x = (since.view writes t).get x := by
  have hrow := (hsound.current _ hlock).row hmode
  dsimp only at hrow
  rw [Database.get_view, Database.get_view, hrow]

variable {start db : Database S} {got : List (S.Row t)} {tx' tx'' : Tx S}

/-- A statement writes no other table than its own. -/
theorem Selected.writes_of_ne (h : Selected p op tx start got tx') {t' : S.Table}
    (hne : t' ≠ t) : tx'.writes t' = tx.writes t' := by
  rw [h.writes]
  cases op with
  | hold mode => rfl
  | set f violation => exact Writes.putAll_of_ne _ _ hne

theorem Selected.view_of_ne (h : Selected p op tx start got tx') {t' : S.Table}
    (hne : t' ≠ t) (db : Database S) : db.view tx'.writes t' = db.view tx.writes t' := by
  rw [Database.view, Database.view, h.writes_of_ne hne]

/-- A statement leaves the rows alone that it does not return. -/
theorem Selected.get_view_of_notMem (h : Selected p op tx start got tx') {x : S.Id}
    (hx : x ∉ got.map S.id) (db : Database S) :
    (db.view tx'.writes t).get x = (db.view tx.writes t).get x := by
  rw [h.writes]
  cases op with
  | hold mode => rfl
  | set f violation =>
      rw [Database.get_view, Database.get_view, RowOp.written, Writes.get_putAll_of_notMem hx]

/-- Every returned row is current as long as the transaction lasts. -/
theorem Selected.found_at (h : Selected p op tx start got tx') (hop : op.Exclusive)
    (hsound : tx''.Sound db) (hlocks : tx'.locks ⊆ tx''.locks) {new : S.Row t}
    (hnew : new ∈ got) :
    ∃ row, (db.view tx.writes t).get (S.id row) = some row ∧ p row ∧ new = op.result row := by
  obtain ⟨row, since, hlock, hseen, hp, hresult⟩ := h.found new hnew
  exact ⟨row, by rw [hsound.get_view (hop row) (hlocks hlock)]; exact hseen, hp, hresult⟩

/-- Every row that qualified when the statement began is current as long as the
transaction lasts, and is returned if it still qualifies. -/
theorem Selected.complete_at (h : Selected p op tx start got tx') (hop : op.Exclusive)
    (hsound : tx''.Sound db) (hlocks : tx'.locks ⊆ tx''.locks) {x : S.Id} {row : S.Row t}
    (hrow : (start.view tx.writes t).get x = some row) (hp : p row) :
    ∃ row', (db.view tx.writes t).get x = some row' ∧ (p row' → op.result row' ∈ got) := by
  obtain ⟨row', since, hlock, hseen, hgot⟩ := h.complete hrow hp
  exact ⟨row', by rw [hsound.get_view (hop row') (hlocks hlock)]; exact hseen, hgot⟩

/-- The rows that an `UPDATE` replaces, when the transaction has not written
them before. -/
theorem Selected.replaces {f : Assignment S t} {violation : S.Error}
    (h : Selected p (.set f violation) tx start got tx') (hsound : tx''.Sound db)
    (hlocks : tx'.locks ⊆ tx''.locks) {new : S.Row t} (hnew : new ∈ got)
    (hfirst : (tx.writes t).get (S.id new) = none) :
    ∃ old since, db.get t (S.id new) = some old ∧ p old ∧ new = f.apply old ∧
      (⟨t, S.id new, RowOp.mode (.set f violation) old, since⟩ : Lock S) ∈ tx'.locks := by
  obtain ⟨old, since, hlock, hseen, hp, rfl⟩ := h.found new hnew
  have hid : S.id (RowOp.result (.set f violation) old) = S.id old := RowOp.id_result _ _
  rw [hid] at hfirst ⊢
  have hold := hsound.get_view (RowOp.exclusive_set f violation old) (hlocks hlock) tx.writes
  rw [hseen] at hold
  exact ⟨old, since, by simpa [hfirst] using hold, hp, rfl, hlock⟩

/-- What an `UPDATE` does to a row that qualified when it began. -/
theorem Selected.effect {f : Assignment S t} {violation : S.Error}
    (h : Selected p (.set f violation) tx start got tx') (hsound : tx''.Sound db)
    (hlocks : tx'.locks ⊆ tx''.locks) {x : S.Id} {row : S.Row t}
    (hrow : (start.view tx.writes t).get x = some row) (hp : p row) :
    ∃ old, (db.view tx.writes t).get x = some old ∧
      (db.view tx'.writes t).get x = some (if p old then f.apply old else old) := by
  obtain ⟨old, hold, hgot⟩ :=
    h.complete_at (RowOp.exclusive_set f violation) hsound hlocks hrow hp
  refine ⟨old, hold, ?_⟩
  have hid := Relation.id_of_get hold
  have hwrites : tx'.writes = tx.writes.putAll got := h.writes
  rw [Database.get_view, hwrites]
  split
  · next hq =>
      have hmem : f.apply old ∈ got := hgot hq
      have hput : ((tx.writes.putAll got) t).get (S.id (f.apply old)) = some (f.apply old) :=
        Writes.get_putAll_of_mem h.nodup hmem
      rw [f.keeps_id, hid] at hput
      rw [hput]
      rfl
  · next hq =>
      cases hwritten : ((tx.writes.putAll got) t).get x with
      | none =>
          rw [Database.get_view] at hold
          cases hown : (tx.writes t).get x with
          | none => simpa [hown] using hold
          | some own => exact absurd hwritten (Writes.putAll_ne_none (by simp [hown]))
      | some new =>
          rcases Writes.get_putAll hwritten with ⟨hmem, hnew⟩ | ⟨-, hown⟩
          · obtain ⟨old', hold', hp', rfl⟩ :=
              h.found_at (RowOp.exclusive_set f violation) hsound hlocks hmem
            rw [RowOp.id_result] at hnew
            rw [hnew, hold] at hold'
            cases hold'
            exact absurd hp' hq
          · rw [Database.get_view, hown] at hold
            exact hold

/-- An `UPDATE` of a row that the transaction had already locked. -/
theorem Selected.effect_of_locked {f : Assignment S t} {violation : S.Error}
    (h : Selected p (.set f violation) tx start got tx') (hsound : tx''.Sound db)
    (hlocks : tx'.locks ⊆ tx''.locks) {x : S.Id} {row : S.Row t}
    (hstart : (start.view tx.writes t).get x = some row)
    (hdb : (db.view tx.writes t).get x = some row) (hp : p row) :
    (db.view tx'.writes t).get x = some (f.apply row) := by
  obtain ⟨old, hold, hafter⟩ := h.effect hsound hlocks hstart hp
  obtain rfl : row = old := by simpa only [hdb, Option.some_inj] using hold
  rwa [if_pos hp] at hafter

/-- An `UPDATE` of a locked row, and after it one that spares the row. -/
theorem Selected.effect_then {f f' : Assignment S t} {violation violation' : S.Error}
    {p' : S.Row t → Bool} {start' : Database S} {got' : List (S.Row t)} {tx₁ tx₂ : Tx S}
    (h : Selected p (.set f violation) tx start got tx₁)
    (h' : Selected p' (.set f' violation') tx₁ start' got' tx₂) (hsound : tx''.Sound db)
    (hlocks : tx₂.locks ⊆ tx''.locks) (hlast : tx''.writes t = tx₂.writes t) {x : S.Id}
    (hspares : ∀ row, p' row → S.id row ≠ x) {row : S.Row t}
    (hstart : (start.view tx.writes t).get x = some row)
    (hdb : (db.view tx.writes t).get x = some row) (hp : p row) :
    (db.apply tx''.writes).get t x = some (f.apply row) := by
  have hnot : x ∉ got'.map S.id := by
    intro hmem
    obtain ⟨new, hnew, rfl⟩ := List.mem_map.mp hmem
    obtain ⟨old, -, -, -, hold, rfl⟩ := h'.found new hnew
    rw [RowOp.id_result] at hspares
    exact hspares old hold rfl
  rw [Database.get_apply_eq_view, Database.view, hlast, ← Database.view,
    h'.get_view_of_notMem hnot]
  exact h.effect_of_locked hsound (List.Subset.trans h'.locks hlocks) hstart hdb hp

/-- While a key is locked `FOR UPDATE`, no row that refers to it comes into
being: `db'` is an earlier moment at which the lock was already held. -/
theorem Tx.Sound.referring {held : Tx S} {db' since : Database S} (hsound : tx''.Sound db)
    (hheld : held.Sound db') (hlocks : held.locks ⊆ tx''.locks) {x : S.Id}
    (hlock : (⟨t, x, .update, since⟩ : Lock S) ∈ held.locks) {t' : S.Table} {row : S.Row t'}
    (hrow : db.get t' (S.id row) = some row) (href : (t, x) ∈ S.refs row) :
    db'.get t' (S.id row) ≠ none :=
  (hheld.current _ hlock).kept ((hsound.current _ (hlocks hlock)).refs rfl hrow href)

/-- The writes of an `UPDATE` are on the keys that its predicate allows. -/
theorem Selected.id_of_where (h : Selected p op tx start got tx') {P : S.Id → Prop}
    (hp : ∀ row, p row → P (S.id row)) {new : S.Row t} (hnew : new ∈ got) : P (S.id new) := by
  obtain ⟨row, -, -, -, hrow, rfl⟩ := h.found new hnew
  rw [RowOp.id_result]
  exact hp row hrow

/-- An `UPDATE` writes only the keys that its predicate allows. -/
theorem Selected.get_writes_of_where (h : Selected p op tx start got tx') {P : S.Id → Prop}
    (hp : ∀ row, p row → P (S.id row)) {x : S.Id} (hx : ¬P x) :
    (tx'.writes t).get x = (tx.writes t).get x := by
  have hnot : x ∉ got.map S.id := by
    intro hmem
    obtain ⟨new, hnew, rfl⟩ := List.mem_map.mp hmem
    exact hx (h.id_of_where hp hnew)
  rw [h.writes]
  cases op with
  | hold mode => rfl
  | set f violation => exact Writes.get_putAll_of_notMem hnot

/-- An `UPDATE` that retires rows: a row of its kind `q` that stood in the table
when it began is retired after the commit.  `R` is how rows change meanwhile. -/
theorem Selected.retires {f : Assignment S t} {violation : S.Error}
    (h : Selected p (.set f violation) tx start got tx') (hsound : tx''.Sound db)
    (hlocks : tx'.locks ⊆ tx''.locks) (hfirst : tx.writes t = Relation.empty) {x : S.Id}
    (hlast : (tx''.writes t).get x = (tx'.writes t).get x) {q retired : S.Row t → Prop}
    {R : S.Row t → S.Row t → Prop}
    (hevolves : ∀ {x row}, start.get t x = some row →
      ∃ row', db.get t x = some row' ∧ R row row')
    (hq : ∀ {a b}, R a b → q b → q a) (hretired : ∀ {a b}, R a b → retired a → retired b)
    (hp : ∀ row, q row → retired row ∨ p row) (hf : ∀ row, retired (f.apply row))
    {new : S.Row t} (hthere : db.get t x = some new → start.get t x ≠ none)
    (hnew : (db.apply tx''.writes).get t x = some new) (hqnew : q new) : retired new := by
  rw [Database.get_apply, hlast] at hnew
  cases hwritten : (tx'.writes t).get x with
  | some written =>
      obtain rfl : written = new := by simpa [hwritten] using hnew
      rw [h.writes] at hwritten
      rcases Writes.get_putAll hwritten with ⟨hmem, -⟩ | ⟨-, hown⟩
      · obtain ⟨old, -, -, -, -, rfl⟩ := h.found _ hmem
        exact hf old
      · simp [hfirst] at hown
  | none =>
      have hdb : db.get t x = some new := by simpa [hwritten] using hnew
      obtain ⟨row, hrow⟩ := Option.ne_none_iff_exists'.mp (hthere hdb)
      obtain ⟨now, hnow, hR⟩ := hevolves hrow
      obtain rfl : now = new := by simpa [hdb, eq_comm] using hnow
      rcases hp row (hq hR hqnew) with hdone | hqualifies
      · exact hretired hR hdone
      · obtain ⟨old, hold, hafter⟩ :=
          h.effect hsound hlocks (by simpa [hfirst] using hrow) hqualifies
        obtain rfl : now = old := by simpa [hfirst, hnow] using hold
        rw [Database.get_view, hwritten] at hafter
        split at hafter
        · obtain heq : now = f.apply now := by simpa [hnow] using hafter
          exact heq ▸ hf now
        · next hnot => exact (hp now hqnew).resolve_right hnot

/-- The key of an inserted row stays free in the committed database. -/
theorem Insertable.stays_free {row : S.Row t} {since : Database S}
    (h : Insertable since tx row) (hsound : tx''.Sound db)
    (hlocks : (tx.add row since).locks ⊆ tx''.locks) : db.get t (S.id row) = none := by
  have hlock : (⟨t, S.id row, .update, since⟩ : Lock S) ∈ tx''.locks :=
    hlocks (List.mem_cons_self)
  have hrow := (hsound.current _ hlock).row (by simp)
  have hfresh := h.fresh
  rw [Database.get_view, Option.or_eq_none_iff] at hfresh
  exact hrow.trans hfresh.2

end Scanning

end Orgistry.ReadCommitted
