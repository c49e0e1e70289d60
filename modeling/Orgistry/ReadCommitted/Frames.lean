import Orgistry.ReadCommitted.Logic

/-!
# What programs leave as it is

`prog.Keeps I` is read off the text of a program: every version that one of its statements
writes meets `I`, that of an `UPDATE` if the version it replaces does.  When the code of all
requests keeps `I`, every committed version meets it in every run.
-/

namespace Orgistry.ReadCommitted

variable {S : Schema} (I : ∀ t, S.Row t → Prop)

def RowOp.Keeps {t : S.Table} : RowOp S t → Prop
  | .hold _ => True
  | .set f _ => ∀ row, I t row → I t (f.apply row)

def Prog.Keeps {α : Type} : Prog S α → Prop
  | .ret _ => True
  | .raise _ => True
  | .now next => ∀ n, (next n).Keeps
  | .select _ _ next => ∀ rows, (next rows).Keeps
  | .lock _ _ op next => op.Keeps I ∧ ∀ rows, (next rows).Keeps
  | .scan _ _ op _ _ next => op.Keeps I ∧ ∀ rows, (next rows).Keeps
  | .acquire _ _ next => next.Keeps
  | .insert t row duplicate next =>
      (∀ x, I t (row x)) ∧ duplicate.Keeps ∧ ∀ inserted, (next inserted).Keeps
  | .commit next => next.Keeps
  | .rollback next => next.Keeps
  | .savepoint next => next.Keeps
  | .rollbackTo next => next.Keeps

variable {I} {α β : Type}

theorem keeps_bind {prog : Prog S α} {f : α → Prog S β} (hprog : prog.Keeps I)
    (hf : ∀ a, (f a).Keeps I) : (prog >>= f).Keeps I := by
  change (prog.bind f).Keeps I
  induction prog with
  | ret a => exact hf a
  | raise e => exact trivial
  | now next ih => exact fun n => ih n (hprog n)
  | select t p next ih => exact fun rows => ih rows (hprog rows)
  | lock t p op next ih => exact ⟨hprog.1, fun rows => ih rows (hprog.2 rows)⟩
  | scan t p op todo got next ih => exact ⟨hprog.1, fun rows => ih rows (hprog.2 rows)⟩
  | acquire t x next ih => exact ih hprog
  | insert t row duplicate next ihDuplicate ih =>
      exact ⟨hprog.1, ihDuplicate hprog.2.1, fun row => ih row (hprog.2.2 row)⟩
  | commit next ih => exact ih hprog
  | rollback next ih => exact ih hprog
  | savepoint next ih => exact ih hprog
  | rollbackTo next ih => exact ih hprog

theorem keeps_ite {c : Prop} [Decidable c] {prog other : Prog S α} (hprog : prog.Keeps I)
    (hother : other.Keeps I) : (if c then prog else other).Keeps I := by
  split
  · exact hprog
  · exact hother

theorem keeps_transaction {body : Prog S α} (h : body.Keeps I) : (transaction body).Keeps I :=
  keeps_bind h fun _ => trivial

theorem keeps_clock : (clock : Prog S ℕ).Keeps I := fun _ => trivial

theorem keeps_abortWith {e : S.Error} : (abortWith e : Prog S α).Keeps I := trivial

section

variable {t : S.Table} {p : S.Row t → Bool}

theorem keeps_select : (select t p).Keeps I := fun _ => trivial

theorem keeps_selectForUpdate : (selectForUpdate t p).Keeps I := ⟨trivial, fun _ => trivial⟩

theorem keeps_update {f : Assignment S t} (h : ∀ row, I t row → I t (f.apply row)) :
    (update t p f).Keeps I :=
  ⟨h, fun _ => trivial⟩

theorem keeps_insert {row : S.Id → S.Row t} (h : ∀ x, I t (row x)) : (insert t row).Keeps I :=
  ⟨h, trivial, fun _ => trivial⟩

theorem keeps_tryInsert {row : S.Id → S.Row t} (h : ∀ x, I t (row x)) :
    (tryInsert t row).Keeps I :=
  ⟨h, trivial, fun _ => trivial⟩

end

/-- Every version in the tables meets `I`. -/
def AllMeet (I : ∀ t, S.Row t → Prop) (tables : (t : S.Table) → Relation S t) : Prop :=
  ∀ ⦃t : S.Table⦄ ⦃x : S.Id⦄ ⦃row : S.Row t⦄, (tables t).get x = some row → I t row

theorem AllMeet.none : AllMeet I (Writes.none : Writes S) := by
  intro t x row h
  rw [Writes.get_none] at h
  cases h

theorem AllMeet.put {writes : Writes S} (h : AllMeet I writes) {t : S.Table} {row : S.Row t}
    (hrow : I t row) : AllMeet I (writes.put row) := fun _ _ _ hget =>
  Writes.put_forall (P := fun t _ row => I t row) (fun hold => h hold) hrow hget

/-- What a reader sees meets `I` when the database and the versions of the reader do. -/
theorem AllMeet.view {db : Database S} {writes : Writes S} (hdb : AllMeet I db.tables)
    (hwrites : AllMeet I writes) : AllMeet I (db.view writes) := by
  intro t x row h
  rw [Database.get_view, Option.or_eq_some_iff] at h
  rcases h with h | ⟨-, h⟩
  · exact hwrites h
  · exact hdb h

/-- The versions of a transaction, and those at its savepoint. -/
structure Tx.AllMeet (I : ∀ t, S.Row t → Prop) (tx : Tx S) : Prop where
  writes : ReadCommitted.AllMeet I tx.writes
  saved : ReadCommitted.AllMeet I tx.saved.1

theorem Tx.AllMeet.begin : (Tx.begin : Tx S).AllMeet I :=
  ⟨ReadCommitted.AllMeet.none, ReadCommitted.AllMeet.none⟩

/-- Only versions that meet `I` are committed. -/
def CommitsMeet (I : ∀ t, S.Row t → Prop) (tx : Tx S) (_ : Database S) : Prop :=
  AllMeet I tx.writes

variable {tx : Tx S} {v w : History S}

theorem Moves.allMeet (h : Moves (CommitsMeet I) v w) (hv : AllMeet I v.now.tables) :
    AllMeet I w.now.tables :=
  h.preserves (P := fun db => AllMeet I db.tables) (fun _ _ hdb => hdb)
    (fun _ _ _ hcommit hdb => hdb.view hcommit) hv

theorem Trace.allMeet {Init : Database S → Prop}
    (hmeet : ∀ db, Init db → AllMeet I db.tables) (h : Trace (CommitsMeet I) Init v) :
    AllMeet I v.now.tables := by
  obtain ⟨db, hdb, hmoves⟩ := h
  exact hmoves.allMeet (hmeet db hdb)

/-- A locking statement, by induction on the keys it has still to lock. -/
theorem scanSafe_of_keeps {t : S.Table} {p : S.Row t → Bool} {op : RowOp S t}
    {K : List (S.Row t) → Tx S → History S → Prop} (hop : op.Keeps I)
    (hK : ∀ got tx w, tx.AllMeet I → AllMeet I w.now.tables → K got tx w)
    (todo : List S.Id) (got : List (S.Row t)) (htx : tx.AllMeet I)
    (hw : AllMeet I w.now.tables) : ScanSafe (CommitsMeet I) p op K todo got tx w := by
  induction todo generalizing got tx w with
  | nil => exact fun w' hstep => hK got tx w' htx (hstep.moves.allMeet hw)
  | cons x todo ih =>
      intro w' hstep
      have hw' := hstep.moves.allMeet hw
      cases hrow : (w'.now.view tx.writes t).get x with
      | none => exact ih got htx hw'
      | some row =>
          dsimp only
          split
          · refine ih _ ?_ hw'
            cases op with
            | hold mode => exact ⟨htx.writes, htx.saved⟩
            | set f violation =>
                exact ⟨htx.writes.put (hop row (hw'.view htx.writes hrow)), htx.saved⟩
          · exact ih got ⟨htx.writes, htx.saved⟩ hw'

/-- By induction on the program: what it writes and commits meets the invariant. -/
theorem safe_of_keeps {prog : Prog S α} (h : prog.Keeps I) (htx : tx.AllMeet I)
    (hw : AllMeet I w.now.tables) :
    Safe (CommitsMeet I) prog (fun _ _ _ => True) tx w := by
  induction prog generalizing tx w with
  | ret a => exact trivial
  | raise e => exact trivial
  | now next ih => exact fun w' hstep => ih _ (h _) htx (hstep.moves.allMeet hw)
  | select t p next ih => exact fun w' hstep => ih _ (h _) htx (hstep.moves.allMeet hw)
  | lock t p op next ih =>
      intro w' hstep keys _
      exact scanSafe_of_keeps h.1 (fun got _ _ htx hw => ih got (h.2 got) htx hw) keys []
        ⟨htx.writes, htx.saved⟩ (hstep.moves.allMeet hw)
  | scan t p op todo got next ih =>
      exact scanSafe_of_keeps h.1 (fun got _ _ htx hw => ih got (h.2 got) htx hw) todo got htx hw
  | acquire t x next ih =>
      exact fun w' hstep => ih h ⟨htx.writes, htx.saved⟩ (hstep.moves.allMeet hw)
  | insert t row duplicate next ihDuplicate ih =>
      intro w' hstep x _ _
      have hw' := hstep.moves.allMeet hw
      split
      · exact ihDuplicate h.2.1 htx hw'
      · exact fun _ => ih _ (h.2.2 _) ⟨htx.writes.put (h.1 x), htx.saved⟩ hw'
  | commit next ih =>
      intro w' hstep
      exact ⟨htx.writes, ih h .begin ((hstep.moves.allMeet hw).view htx.writes)⟩
  | rollback next ih => exact fun w' hstep => ih h .begin (hstep.moves.allMeet hw)
  | savepoint next ih =>
      exact fun w' hstep => ih h ⟨htx.writes, htx.writes⟩ (hstep.moves.allMeet hw)
  | rollbackTo next ih =>
      exact fun w' hstep => ih h ⟨htx.saved, htx.saved⟩ (hstep.moves.allMeet hw)

namespace State

variable {Request Answer : Type} {code other : ℕ → Request → Prog S Answer}
  {Init : Database S → Prop} {ok : Tx S → Database S → Prop} {s : State S Request Answer}

/-- A step changes no request. -/
theorem requests_of_set {P : Request → Prop} {i : ℕ} {th : Thread S Request Answer}
    {prog : Prog S Answer} {tx : Tx S} (hth : s.threads[i]? = some th)
    (h : ∀ other ∈ s.threads.set i { th with prog, tx }, P other.request) :
    ∀ other ∈ s.threads, P other.request := by
  have hmap : (s.threads.set i { th with prog, tx }).map Thread.request =
      s.threads.map Thread.request := by
    refine List.ext_getElem? fun j => ?_
    rw [List.getElem?_map, List.getElem?_map, List.getElem?_set]
    split
    · next hij =>
        subst hij
        obtain ⟨hlt, -⟩ := List.getElem?_eq_some_iff.mp hth
        rw [if_pos hlt, hth]
        rfl
    · rfl
  intro other hother
  obtain ⟨found, hfound, hrequest⟩ :=
    List.mem_map.mp (hmap ▸ List.mem_map_of_mem (f := Thread.request) hother)
  exact hrequest ▸ h found hfound

/-- A run is one of any code that does the same for the requests of the run. -/
theorem Reach.of_requests {P : Request → Prop} (hcode : ∀ i r, P r → code i r = other i r)
    (h : Reach code Init ok s) (hrequests : ∀ th ∈ s.threads, P th.request) :
    Reach other Init ok s := by
  induction h with
  | init hdb => exact .init hdb
  | @step s s' a hreach hstep hpermits ih =>
      cases a with
      | start r =>
          cases hstep
          have hr : P r := hrequests _ (List.mem_append_right _ (List.mem_singleton_self _))
          refine (ih fun th hth => hrequests th (List.mem_append_left _ hth)).step
            (a := .start r) ?_ trivial
          rw [State.step, hcode _ r hr]
      | exec i picks =>
          obtain ⟨th, o, hth, -, rfl⟩ := step_exec hstep
          exact (ih (requests_of_set hth hrequests)).step (a := .exec i picks) hstep hpermits
      | abort i e =>
          obtain ⟨th, hth, -, rfl⟩ := step_abort hstep
          exact (ih (requests_of_set hth hrequests)).step (a := .abort i e) hstep hpermits
      | tick n =>
          cases hstep
          exact (ih hrequests).step (a := .tick n) rfl trivial

/-- A run all of whose requests keep `I` commits only versions that meet it. -/
theorem Reach.allMeet {P : Request → Prop} (hinit : ∀ db, Init db → Consistent db.tables)
    (hmeet : ∀ db, Init db → AllMeet I db.tables) (hkeeps : ∀ i r, P r → (code i r).Keeps I)
    (h : Reach code Init ok s) (hrequests : ∀ th ∈ s.threads, P th.request) :
    Trace (CommitsMeet I) Init s.history := by
  classical
  let kept : ℕ → Request → Prog S Answer := fun i r =>
    if P r then code i r else abortWith S.uniqueViolation
  have hreach : Reach kept Init ok s :=
    h.of_requests (P := P) (fun i r hr => (if_pos hr).symm) hrequests
  have hall : ∀ i r, (kept i r).Keeps I := by
    intro i r
    by_cases hr : P r
    · rw [show kept i r = code i r from if_pos hr]
      exact hkeeps i r hr
    · rw [show kept i r = abortWith S.uniqueViolation from if_neg hr]
      exact keeps_abortWith
  have hsafe : ∀ i r w, Trace (CommitsMeet I) Init w →
      Safe (CommitsMeet I) (kept i r) (fun _ _ _ => True) .begin w := by
    exact fun i r w htrace => safe_of_keeps (hall i r) .begin (htrace.allMeet hmeet)
  exact (Reach.adequate hinit hsafe hreach).1.imp fun _ hdb =>
    ⟨hdb.1, hdb.2.mono fun _ _ hcommit => hcommit.2⟩

end State

end Orgistry.ReadCommitted
