import Orgistry.ReadCommitted.Program

/-!
# Concurrent requests

A state is the history of the committed databases together with one thread for
every request ever started.  Any thread may take its next step at any time, may
be aborted between two statements (a crash, a lost connection, a deadlock
victim, an error outside the database), and the wall clock may advance.
-/

namespace Orgistry.ReadCommitted

variable {S : Schema}

/-- The committed databases of a run, the latest one apart. -/
structure History (S : Schema) where
  now : Database S
  past : List (Database S)

namespace History

def push (w : History S) (db : Database S) : History S := ⟨db, w.now :: w.past⟩

@[simp]
theorem now_push (w : History S) (db : Database S) : (w.push db).now = db := rfl

def timeline (w : History S) : List (Database S) := w.now :: w.past

@[simp]
theorem timeline_push (w : History S) (db : Database S) :
    (w.push db).timeline = db :: w.timeline := rfl

/-- `w.Extends v`: the run passed through `v` before it reached `w`. -/
def Extends (w v : History S) : Prop := v.timeline <:+ w.timeline

theorem Extends.refl (w : History S) : w.Extends w := List.suffix_refl _

theorem Extends.trans {u v w : History S} (hwv : w.Extends v) (hvu : v.Extends u) :
    w.Extends u :=
  List.IsSuffix.trans hvu hwv

theorem Extends.push {v w : History S} (h : w.Extends v) (db : Database S) :
    (w.push db).Extends v :=
  List.IsSuffix.trans h (List.suffix_cons _ _)

theorem timeline_injective {v w : History S} (h : v.timeline = w.timeline) : v = w := by
  cases v
  cases w
  simpa [timeline] using h

theorem extends_push_iff {v w : History S} {db : Database S} :
    (w.push db).Extends v ↔ v = w.push db ∨ w.Extends v := by
  rw [Extends, timeline_push, List.suffix_cons_iff, ← timeline_push]
  constructor
  · exact Or.imp_left timeline_injective
  · exact Or.imp_left (congrArg timeline)

end History

/-- The wall clock moves on. -/
def Database.advance (db : Database S) (n : ℕ) : Database S :=
  { db with clock := db.clock + n }

@[simp]
theorem Database.get_advance (db : Database S) (n : ℕ) (t : S.Table) (x : S.Id) :
    (db.advance n).get t x = db.get t x := rfl

/-- A request in progress or finished, and the history at its arrival. -/
structure Thread (S : Schema) (Request Answer : Type) where
  request : Request
  born : History S
  prog : Prog S Answer
  tx : Tx S

structure State (S : Schema) (Request Answer : Type) where
  history : History S
  threads : List (Thread S Request Answer)

/-- The scheduler's choices. -/
inductive Action (S : Schema) (Request : Type)
  | start (request : Request)
  | exec (i : ℕ) (picks : List S.Id)
  | abort (i : ℕ) (error : S.Error)
  | tick (n : ℕ)

/-- The program has an answer or an error. -/
def Prog.finished {α : Type} : Prog S α → Bool
  | .ret _ => true
  | .raise _ => true
  | _ => false

namespace State

variable {Request Answer : Type}

/-- The transactions that thread `i` may have to wait for. -/
def others (s : State S Request Answer) (i : ℕ) : List (Tx S) :=
  (s.threads.eraseIdx i).map Thread.tx

/-- One step of the system in which request `r`, started as number `i`, runs
`code i r`. -/
def step (code : ℕ → Request → Prog S Answer) (s : State S Request Answer) :
    Action S Request → Option (State S Request Answer)
  | .start r =>
      some ⟨s.history,
        s.threads ++ [⟨r, s.history, code s.threads.length r, .begin⟩]⟩
  | .exec i picks => do
      let th ← s.threads[i]?
      let o ← exec s.history.now (s.others i) picks th.prog th.tx
      some ⟨o.committed.elim s.history s.history.push,
        s.threads.set i { th with prog := o.prog, tx := o.tx }⟩
  | .abort i e => do
      let th ← s.threads[i]?
      if th.prog.finished then none
      else some ⟨s.history, s.threads.set i { th with prog := .raise e, tx := .begin }⟩
  | .tick n => some ⟨s.history.push (s.history.now.advance n), s.threads⟩

/-- If the action is a commit, `ok` holds of the committing transaction and the
database it commits to. -/
def Permits (ok : Tx S → Database S → Prop) (s : State S Request Answer) :
    Action S Request → Prop
  | .exec i _ => ∀ th, s.threads[i]? = some th → ∀ next, th.prog = .commit next →
      ok th.tx s.history.now
  | _ => True

/-- Before any request: one database and no threads. -/
def initial (db : Database S) : State S Request Answer := ⟨⟨db, []⟩, []⟩

/-- The states of the runs that start in an `Init` database and in which every
commit is `ok`. -/
inductive Reach (code : ℕ → Request → Prog S Answer) (Init : Database S → Prop)
    (ok : Tx S → Database S → Prop) : State S Request Answer → Prop
  | init {db : Database S} : Init db → Reach code Init ok (initial db)
  | step {s s' : State S Request Answer} {a : Action S Request} :
      Reach code Init ok s → step code s a = some s' → Permits ok s a →
      Reach code Init ok s'

/-- Runs that continue from a given state. -/
inductive Later (code : ℕ → Request → Prog S Answer) (ok : Tx S → Database S → Prop)
    (s : State S Request Answer) : State S Request Answer → Prop
  | refl : Later code ok s s
  | step {s' s'' : State S Request Answer} {a : Action S Request} :
      Later code ok s s' → step code s' a = some s'' → Permits ok s' a →
      Later code ok s s''

/-- No condition on commits. -/
def Always (_ : Tx S) (_ : Database S) : Prop := True

section

variable {code : ℕ → Request → Prog S Answer} {s s' : State S Request Answer} {i : ℕ}

theorem step_exec {picks : List S.Id} (h : step code s (.exec i picks) = some s') :
    ∃ th o, s.threads[i]? = some th ∧
      exec s.history.now (s.others i) picks th.prog th.tx = some o ∧
      s' = ⟨o.committed.elim s.history s.history.push,
        s.threads.set i { th with prog := o.prog, tx := o.tx }⟩ := by
  simp only [step, Option.bind_eq_bind, Option.bind_eq_some_iff] at h
  obtain ⟨th, hth, o, ho, hs'⟩ := h
  exact ⟨th, o, hth, ho, by simpa using hs'.symm⟩

theorem step_abort {e : S.Error} (h : step code s (.abort i e) = some s') :
    ∃ th, s.threads[i]? = some th ∧ th.prog.finished = false ∧
      s' = ⟨s.history, s.threads.set i { th with prog := .raise e, tx := .begin }⟩ := by
  simp only [step, Option.bind_eq_bind, Option.bind_eq_some_iff] at h
  obtain ⟨th, hth, hs'⟩ := h
  split at hs'
  · cases hs'
  · next hfinished => exact ⟨th, hth, by simpa using hfinished, by simpa using hs'.symm⟩

theorem Later.trans {ok : Tx S → Database S → Prop} {s'' : State S Request Answer}
    (h : Later code ok s s') (h' : Later code ok s' s'') : Later code ok s s'' := by
  induction h' with
  | refl => exact h
  | step _ hstep hok ih => exact ih.step hstep hok

theorem Reach.later {Init : Database S → Prop} {ok : Tx S → Database S → Prop}
    (h : Reach code Init ok s) (hlater : Later code ok s s') : Reach code Init ok s' := by
  induction hlater with
  | refl => exact h
  | step _ hstep hok ih => exact ih.step hstep hok

end

end State

/-- The effect of one step of a request on its transaction and, when it
commits, on the database. -/
inductive TxStep (db : Database S) (others : List (Tx S)) (tx : Tx S) :
    Tx S → Option (Database S) → Prop
  | same : TxStep db others tx tx none
  | observe (t : S.Table) : TxStep db others tx (tx.observe t db) none
  | hold (t : S.Table) (x : S.Id) (mode : LockMode)
      (hfree : Tx.free others t x mode) :
      TxStep db others tx (tx.hold t x mode db) none
  | update {t : S.Table} (row : S.Row t) (f : Assignment S t) (violation : S.Error)
      (hrow : (db.view tx.writes t).get (S.id row) = some row)
      (hfree : Tx.free others t (S.id row) (RowOp.mode (.set f violation) row))
      (hcontended : Tx.contended others (f.apply row) = false)
      (hrejected : Tx.rejected db tx (f.apply row) = false) :
      TxStep db others tx
        ((tx.hold t (S.id row) (RowOp.mode (.set f violation) row) db).write (f.apply row))
        none
  | insert {t : S.Table} (row : S.Row t)
      (hrow : (db.view tx.writes t).get (S.id row) = none)
      (hfree : Tx.free others t (S.id row) .update)
      (hcontended : Tx.contended others row = false)
      (hrejected : Tx.rejected db tx row = false)
      (hexist : ∀ ref ∈ S.refs row, (db.view tx.writes ref.1).get ref.2 ≠ Option.none)
      (hrefs : ∀ ref ∈ S.refs row, Tx.free others ref.1 ref.2 .keyShare) :
      TxStep db others tx
        (((tx.holdAll (S.refs row) .keyShare db).hold t (S.id row) .update db).write row)
        none
  | reset : TxStep db others tx .begin none
  | commit : TxStep db others tx .begin (some (db.apply tx.writes))
  | save : TxStep db others tx tx.save none
  | restore : TxStep db others tx tx.restore none

section

variable {db : Database S} {others : List (Tx S)} {tx : Tx S} {α : Type}
  {picks : List S.Id} {o : Outcome S α}

/-- One key of a locking statement is one step of its transaction. -/
theorem execRow_txStep {t : S.Table} {p : S.Row t → Bool} {op : RowOp S t} {x : S.Id}
    {next : List (S.Row t) → Prog S α}
    (h : execRow db others tx t p op x next = some o) :
    TxStep db others tx o.tx o.committed := by
  unfold execRow at h
  split at h
  · cases h
    exact .same
  · next row hrow =>
      have hid : S.id row = x := Relation.id_of_get hrow
      subst hid
      split at h
      · next hfree =>
          dsimp only at h
          split at h
          · cases op with
            | hold mode =>
                cases h
                exact .hold t _ _ hfree
            | set f violation =>
                dsimp only at h
                split at h
                · cases h
                · next hcontended =>
                    split at h
                    · cases h
                      exact .reset
                    · next hrejected =>
                        cases h
                        exact .update row f violation hrow hfree (by simpa using hcontended)
                          (by simpa using hrejected)
          · cases h
            exact .hold t _ _ hfree
      · cases h

/-- The inversion of `exec`: every step of a request is one of the cases of
`TxStep`. -/
theorem exec_txStep {prog : Prog S α} (h : exec db others picks prog tx = some o) :
    TxStep db others tx o.tx o.committed := by
  cases prog with
  | ret => cases h
  | raise => cases h
  | now next => cases h; exact .same
  | select t p next => cases h; exact .same
  | lock t p op next =>
      simp only [exec] at h
      split at h
      · cases h; exact .observe t
      · cases h
  | scan t p op todo got next =>
      cases todo with
      | nil => cases h; exact .same
      | cons x todo =>
          rw [exec] at h
          exact execRow_txStep h
  | acquire t x next =>
      simp only [exec] at h
      split at h
      · next hfree => cases h; exact .hold t x _ hfree
      · cases h
  | insert t row duplicate next =>
      simp only [exec] at h
      split at h
      · next x =>
          split at h
          · next hx =>
              obtain ⟨hid, hnone, hfree, hcontended⟩ := hx
              split at h
              · cases h; exact .same
              · next hrejected =>
                  split at h
                  · next hexist =>
                      split at h
                      · next hrefs =>
                          cases h
                          simpa only [hid] using
                            TxStep.insert (row x) (by rw [hid]; exact hnone)
                              (by rw [hid]; exact hfree) hcontended (by simpa using hrejected)
                              (by simpa only [List.all_eq_true, Option.isSome_iff_ne_none]
                                using hexist)
                              (by simpa using hrefs)
                      · cases h
                  · cases h; exact .reset
          · cases h
      · cases h
  | commit next => cases h; exact .commit
  | rollback next => cases h; exact .reset
  | savepoint next => cases h; exact .save
  | rollbackTo next => cases h; exact .restore

/-- Locking commits nothing. -/
theorem execRow_committed {t : S.Table} {p : S.Row t → Bool} {op : RowOp S t} {x : S.Id}
    {next : List (S.Row t) → Prog S α}
    (h : execRow db others tx t p op x next = some o) : o.committed = none := by
  unfold execRow at h
  split at h
  · cases h; rfl
  · split at h
    · dsimp only at h
      split at h
      · split at h
        · cases h; rfl
        · split at h
          · cases h
          · split at h <;> cases h <;> rfl
      · cases h; rfl
    · cases h

/-- Only a `commit` node commits, and it commits the transaction's writes. -/
theorem exec_committed {prog : Prog S α} (h : exec db others picks prog tx = some o)
    {db' : Database S} (hdb : o.committed = some db') :
    ∃ next, prog = .commit next ∧ o.prog = next ∧ o.tx = .begin ∧
      db' = db.apply tx.writes := by
  cases prog with
  | commit next =>
      cases h
      cases hdb
      exact ⟨next, rfl, rfl, rfl, rfl⟩
  | ret => cases h
  | raise => cases h
  | now next => cases h; cases hdb
  | select t p next => cases h; cases hdb
  | lock t p op next =>
      simp only [exec] at h
      split at h <;> cases h
      cases hdb
  | scan t p op todo got next =>
      cases todo with
      | nil => cases h; cases hdb
      | cons x todo =>
          rw [exec] at h
          simp [execRow_committed h] at hdb
  | acquire t x next =>
      simp only [exec] at h
      split at h <;> cases h
      cases hdb
  | insert t row duplicate next =>
      simp only [exec] at h
      repeat' split at h
      all_goals cases h
      all_goals cases hdb
  | rollback next => cases h; cases hdb
  | savepoint next => cases h; cases hdb
  | rollbackTo next => cases h; cases hdb

end

end Orgistry.ReadCommitted
