import Orgistry.Commits.Persistence

/-!
# Statements and their legal writes

Proof rules for the statements of the model, and how the versions that a
transaction has written so far turn out to be legal when it commits.
-/

namespace Orgistry.Model

open ReadCommitted

variable {cfg : Config} {tx tx' tx'' final : Tx orgistry} {db start : Database orgistry}
  {w w' : History orgistry} {t : Table} {p : Row t → Bool}

/-- The answer of a `LIMIT 1` query. -/
structure Found (rows : Relation orgistry t) (p : Row t → Bool) (answer : Option (Row t)) :
    Prop where
  get : ∀ {row : Row t}, answer = some row → rows.get (rowId row) = some row
  holds : ∀ {row : Row t}, answer = some row → p row

theorem safe_selectOne {Q : Option (Row t) → Tx orgistry → History orgistry → Prop}
    (h : ∀ w' answer, Around (Guarantee cfg) tx w w' → Found (w'.now.view tx.writes t) p answer →
      Q answer tx w') :
    Safe (Guarantee cfg) (selectOne t p) Q tx w := by
  refine safe_bind (safe_select fun w' haround => ?_)
  refine h w' _ haround ⟨fun {row} hrow => ?_, fun {row} hrow => ?_⟩
  · have hmem := List.mem_of_head? hrow
    exact Relation.mem_rows_iff.mp (List.mem_of_mem_filter hmem)
  · have hmem := List.mem_of_head? hrow
    exact (List.mem_filter.mp hmem).2

theorem safe_selectOneForUpdate
    {Q : Option (Row t) → Tx orgistry → History orgistry → Prop}
    (h : ∀ w' got tx' w'', Around (Guarantee cfg) tx w w' →
      Selected p (.hold .update) tx w'.now got tx' → Around (Guarantee cfg) tx' w' w'' →
      Q got.head? tx' w'') :
    Safe (Guarantee cfg) (selectOneForUpdate t p) Q tx w :=
  safe_bind (safe_selectForUpdate h)

/-- A row that the transaction has locked by `FOR UPDATE` is current, if it has
not written the row before. -/
theorem locked_current {start db : Database orgistry} {got : List (Row t)}
    {tx' tx'' : Tx orgistry} (hselected : Selected p (.hold .update) tx start got tx')
    (hsound : tx''.Sound db) (hlocks : tx'.locks ⊆ tx''.locks) {row : Row t}
    (hrow : got.head? = some row) (hfirst : (tx.writes t).get (rowId row) = none) :
    db.get t (rowId row) = some row ∧ p row := by
  obtain ⟨old, hold, hp, rfl⟩ := hselected.found_at (RowOp.exclusive_hold (by simp)) hsound
    hlocks (List.mem_of_head? hrow)
  rw [Database.get_view] at hold
  exact ⟨by simpa [hfirst] using hold, hp⟩

/-- Stored rows with one primary key are one row. -/
theorem stored_unique {a b : Row t} (ha : db.get t (rowId a) = some a)
    (hb : db.get t (rowId b) = some b) (hid : rowId a = rowId b) : a = b := by
  rw [hid, hb] at ha
  exact (Option.some_inj.mp ha).symm

theorem get_apply_of_none (h : tx.writes = Writes.none) (db : Database orgistry)
    (t : Table) (x : Id) : (db.apply tx.writes).get t x = db.get t x := by
  rw [h]
  rfl

theorem legalWrites_none : LegalWrites cfg final db Writes.none := by
  intro t x new hnew
  cases hnew

/-- A locking read writes nothing. -/
theorem LegalWrites.select (h : LegalWrites cfg final db tx.writes) {mode : LockMode}
    {got : List (Row t)} (hselected : Selected p (.hold mode) tx start got tx') :
    LegalWrites cfg final db tx'.writes := by
  rw [hselected.writes]
  exact h

/-- An `UPDATE` of rows that the transaction had not written before; it holds
the lock that the change of each row calls for. -/
theorem LegalWrites.update_locked (h : LegalWrites cfg final db tx.writes)
    {f : Assignment orgistry t} {violation : ErrorCode} {got : List (Row t)}
    (hselected : Selected p (.set f violation) tx start got tx') (hsound : final.Sound db)
    (hlocks : tx'.locks ⊆ final.locks) (hfirst : ∀ new ∈ got, (tx.writes t).get (rowId new) = none)
    (hlegal : ∀ (old : Row t) (since : Database orgistry), db.get t (rowId old) = some old →
      p old → (⟨t, rowId old, RowOp.mode (.set f violation) old, since⟩ : Lock orgistry) ∈
        tx'.locks → Legal cfg final db t (some old) (f.apply old)) :
    LegalWrites cfg final db tx'.writes := by
  rw [hselected.writes]
  intro t' x new hnew
  refine Writes.putAll_forall (P := fun t x new => Legal cfg final db t (db.get t x) new)
    (fun hold => h hold) ?_ hnew
  intro new hnew
  obtain ⟨old, since, hold, hp, rfl, hlock⟩ :=
    hselected.replaces hsound hlocks hnew (hfirst new hnew)
  rw [hold]
  have hid := Database.id_of_get hold
  rw [← hid] at hold hlock
  exact hlegal old since hold hp hlock

/-- An `UPDATE` of rows that the transaction had not written before. -/
theorem LegalWrites.update (h : LegalWrites cfg final db tx.writes) {f : Assignment orgistry t}
    {violation : ErrorCode} {got : List (Row t)}
    (hselected : Selected p (.set f violation) tx start got tx') (hsound : final.Sound db)
    (hlocks : tx'.locks ⊆ final.locks) (hfirst : ∀ new ∈ got, (tx.writes t).get (rowId new) = none)
    (hlegal : ∀ old : Row t, db.get t (rowId old) = some old → p old →
      Legal cfg final db t (some old) (f.apply old)) :
    LegalWrites cfg final db tx'.writes :=
  h.update_locked hselected hsound hlocks hfirst fun old _ hold hp _ => hlegal old hold hp

/-- Two `UPDATE`s of a table that the transaction has not written before: the first settles
one stored row, the second retires others and spares it. -/
theorem LegalWrites.settle (h : LegalWrites cfg final db tx.writes)
    (hfirst : tx.writes t = Relation.empty) {p' : Row t → Bool} {f f' : Assignment orgistry t}
    {violation violation' : ErrorCode} {got got' : List (Row t)} {start' : Database orgistry}
    (hsettled : Selected p (.set f violation) tx start got tx')
    (hretired : Selected p' (.set f' violation') tx' start' got' tx'') (hsound : final.Sound db)
    (hlocks : tx''.locks ⊆ final.locks) {row : Row t} (hstored : db.get t (rowId row) = some row)
    (hp : ∀ old, p old → rowId old = rowId row) (hspares : ∀ old, p' old → rowId old ≠ rowId row)
    (hsettle : Legal cfg final db t (some row) (f.apply row))
    (hretire : ∀ old, p' old → Legal cfg final db t (some old) (f'.apply old)) :
    LegalWrites cfg final db tx''.writes := by
  have hfirst' : ∀ x, (tx.writes t).get x = none := by
    intro x
    rw [hfirst]
    rfl
  refine LegalWrites.update (h.update hsettled hsound (List.Subset.trans hretired.locks hlocks)
    (fun new _ => hfirst' _) ?_) hretired hsound hlocks ?_ fun old _ => hretire old
  · intro old hold hsettles
    obtain rfl := stored_unique hold hstored (hp old hsettles)
    exact hsettle
  · intro new hnew
    have hspared := hretired.id_of_where (P := fun x => x ≠ rowId row) hspares hnew
    rw [hsettled.get_writes_of_where (P := fun x => x = rowId row) hp hspared]
    exact hfirst' _

/-- An `INSERT`. -/
theorem LegalWrites.insert (h : LegalWrites cfg final db tx.writes) {row : Row t}
    {since : Database orgistry} (hinsertable : Insertable since tx row)
    (hsound : final.Sound db) (hlocks : (tx.add row since).locks ⊆ final.locks)
    (hlegal : Legal cfg final db t none row) :
    LegalWrites cfg final db (tx.add row since).writes := by
  intro t' x new hnew
  refine Writes.put_forall (P := fun t x new => Legal cfg final db t (db.get t x) new)
    (fun hold => h hold) ?_ hnew
  rw [hinsertable.stays_free hsound hlocks]
  exact hlegal

/-- The row that was put last into a table stands after the commit. -/
theorem get_apply_of_put {row : Row t} {r : Relation orgistry t}
    (h : tx.writes t = r.put row) : (db.apply tx.writes).get t (rowId row) = some row := by
  rw [Database.get_apply, h]
  exact congrArg (fun found => Option.or found _) (Relation.get_put_self r row)

/-- The other rows stay what they were. -/
theorem get_apply_of_put_ne {row : Row t} {x : Id}
    (h : tx.writes t = (Relation.empty : Relation orgistry t).put row) (hx : x ≠ rowId row) :
    (db.apply tx.writes).get t x = db.get t x := by
  rw [Database.get_apply, h, Relation.get_put_of_ne _ _ hx]
  rfl

/-- The last change of the database was a commit that took it from `before` to
`after` with `P before after`. -/
def JustCommitted (P : Database orgistry → Database orgistry → Prop) (w : History orgistry) :
    Prop :=
  ∃ before past, w.past = before :: past ∧ P before w.now

theorem justCommitted_push {P : Database orgistry → Database orgistry → Prop}
    (h : P w.now db) : JustCommitted P (w.push db) :=
  ⟨w.now, w.past, rfl, h⟩

/-- The history after a commit of legal writes. -/
theorem commits (h : Around (Guarantee cfg) tx w w') (hG : Guarantee cfg tx w'.now) :
    Moves (Guarantee cfg) w (w'.push (w'.now.apply tx.writes)) :=
  .commit tx h.moves h.sound hG

theorem commits_legal {α : Type} {a : α} {Q : α → Tx orgistry → History orgistry → Prop}
    (hG : ∀ w', Around (Guarantee cfg) tx w w' → Guarantee cfg tx w'.now)
    (h : ∀ w', Moves (Guarantee cfg) w w' → Q a .begin w') :
    ∀ w', Around (Guarantee cfg) tx w w' →
      Guarantee cfg tx w'.now ∧ Q a .begin (w'.push (w'.now.apply tx.writes)) :=
  fun w' haround => ⟨hG w' haround, h _ (commits haround (hG w' haround))⟩

/-- A transaction that has written nothing may commit. -/
theorem commits_nothing {α : Type} {a : α} {Q : α → Tx orgistry → History orgistry → Prop}
    (hwrites : tx.writes = Writes.none) (h : ∀ w', Moves (Guarantee cfg) w w' → Q a .begin w') :
    ∀ w', Around (Guarantee cfg) tx w w' →
      Guarantee cfg tx w'.now ∧ Q a .begin (w'.push (w'.now.apply tx.writes)) := by
  refine commits_legal (fun w' haround => ?_) h
  rw [Guarantee, hwrites]
  exact legalWrites_none

/-- A part of a transaction that leads from `tx` to `tx'`, ends in the history `w`,
and writes only the tables `touched`.  What it writes is legal from then on,
provided that the rest of the transaction leaves the tables `settled` alone. -/
structure Continues (cfg : Config) (touched settled : List Table) (tx tx' : Tx orgistry)
    (w : History orgistry) : Prop where
  locks : tx.locks ⊆ tx'.locks
  writes : ∀ t ∉ touched, tx'.writes t = tx.writes t
  legal : ∀ {final : Tx orgistry} {w' : History orgistry}, Moves (Guarantee cfg) w w' →
    final.Sound w'.now → tx'.locks ⊆ final.locks →
      (∀ t ∈ settled, final.writes t = tx'.writes t) →
        LegalWrites cfg final w'.now tx.writes → LegalWrites cfg final w'.now tx'.writes

/-- A part that writes nothing. -/
theorem Continues.idle (hlocks : tx.locks ⊆ tx'.locks) (hwrites : tx'.writes = tx.writes)
    (touched settled : List Table) : Continues cfg touched settled tx tx' w where
  locks := hlocks
  writes _ _ := by rw [hwrites]
  legal _ _ _ _ hlegal := by
    rw [hwrites]
    exact hlegal

theorem Continues.insert {t : Table} {row : Row t} {since : Database orgistry}
    (hinsertable : Insertable since tx row) (settled : List Table)
    (hlegal : ∀ {final : Tx orgistry} {w' : History orgistry}, Moves (Guarantee cfg) w w' →
      final.Sound w'.now → (tx.add row since).locks ⊆ final.locks →
        (∀ t ∈ settled, final.writes t = (tx.add row since).writes t) →
          Legal cfg final w'.now t none row) :
    Continues cfg [t] settled tx (tx.add row since) w where
  locks := tx.locks_subset_add row since
  writes t' ht' := tx.writes_add_of_ne row since (by simpa using ht')
  legal hmoves hsound hlocks hsettled h :=
    LegalWrites.insert h hinsertable hsound hlocks (hlegal hmoves hsound hlocks hsettled)

theorem Continues.trans {touched touched' settled settled' : List Table}
    (h : Continues cfg touched settled tx tx' w) (hmoves : Moves (Guarantee cfg) w w')
    (h' : Continues cfg touched' settled' tx' tx'' w')
    (hsettled : ∀ t ∈ settled, t ∉ touched') :
    Continues cfg (touched ++ touched') (settled ++ settled') tx tx'' w' where
  locks := List.Subset.trans h.locks h'.locks
  writes t ht := by
    rw [List.mem_append, not_or] at ht
    rw [h'.writes t ht.2, h.writes t ht.1]
  legal hlater hsound hlocks hlast hlegal := by
    refine h'.legal hlater hsound hlocks (fun t ht => hlast t (List.mem_append_right _ ht)) ?_
    refine h.legal (hmoves.trans hlater) hsound (List.Subset.trans h'.locks hlocks)
      (fun t ht => ?_) hlegal
    rw [hlast t (List.mem_append_left _ ht), h'.writes t (hsettled t ht)]

/-- A whole transaction is legal. -/
theorem Continues.guarantee {touched settled : List Table}
    (h : Continues cfg touched settled .begin tx w) (haround : Around (Guarantee cfg) tx w w') :
    Guarantee cfg tx w'.now :=
  h.legal haround.moves haround.sound (List.Subset.refl _) (fun _ _ => rfl) legalWrites_none

/-- A transaction that consists of one `UPDATE`. -/
theorem safe_updateRows {f : Assignment orgistry t}
    {Q : List (Row t) → Tx orgistry → History orgistry → Prop}
    (hlegal : ∀ (tx : Tx orgistry) (db : Database orgistry) (old : Row t), p old →
      Legal cfg tx db t (some old) (f.apply old))
    (h : ∀ w₁ got w₂, Moves (Guarantee cfg) w w₁ → Moves (Guarantee cfg) w₁ w₂ →
      (∀ {x : Id} {row : Row t}, w₁.now.get t x = some row → p row → ∃ old : Row t,
        w₂.now.get t x = some (if p old then f.apply old else old)) →
      Q got .begin w₂) :
    Safe (Guarantee cfg) (transaction (updateRows t p f)) Q .begin w := by
  refine safe_transaction (safe_update fun w₁ got tx w₂ h₁ hselected h₂ w₃ h₃ => ?_)
  have hG : Guarantee cfg tx w₃.now :=
    legalWrites_none.update hselected h₃.sound (List.Subset.refl _) (fun _ _ => rfl)
      fun old _ hp => hlegal tx w₃.now old hp
  refine ⟨hG, h w₁ got _ h₁.moves
    (.commit tx (h₂.moves.trans h₃.moves) h₃.sound hG) fun {x row} hrow hp => ?_⟩
  obtain ⟨old, -, hafter⟩ := hselected.effect h₃.sound (List.Subset.refl _) hrow hp
  exact ⟨old, hafter⟩

/-- A transaction that consists of one `INSERT`. -/
theorem safe_insertRow {row : Id → Row t}
    {Q : Row t → Tx orgistry → History orgistry → Prop}
    (hlegal : ∀ (tx : Tx orgistry) (db : Database orgistry) (x : Id),
      (∀ ref ∈ rowRefs (row x), db.get ref.1 ref.2 ≠ none) → Legal cfg tx db t none (row x))
    (h : ∀ w' x, Moves (Guarantee cfg) w w' → w'.now.get t x = some (row x) →
      Q (row x) .begin w') :
    Safe (Guarantee cfg) (transaction (insertRow t row)) Q .begin w := by
  refine safe_transaction (safe_insert fun w₁ x h₁ hid hinsertable w₂ h₂ => ?_)
  have hG : Guarantee cfg (Tx.begin.add (row x) w₁.now) w₂.now :=
    legalWrites_none.insert hinsertable h₂.sound (List.Subset.refl _)
      (hlegal _ _ x fun ref href => h₂.moves.get_ne_none (hinsertable.refs ref href))
  refine ⟨hG, h _ x (.commit _ (h₁.moves.trans h₂.moves) h₂.sound hG) ?_⟩
  rw [History.now_push, Database.get_apply, Tx.writes_add, Writes.get_put, if_pos hid.symm]
  rfl

end Orgistry.Model
