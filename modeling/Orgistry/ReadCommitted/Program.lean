import Orgistry.ReadCommitted.Database

/-!
# Request programs under READ COMMITTED

A request is a tree of SQL statements with commit points.  Plain reads take one
statement-level snapshot.  A locking statement (`SELECT … FOR UPDATE`, and the
row-locking half of `UPDATE`) first fixes the rows of its snapshot and then
locks them one after another, in any order, re-checking each predicate on the
version it finds when the lock is granted.  `exec` runs one such step; it is
`none` while the step has to wait for another transaction.
-/

namespace Orgistry.ReadCommitted

variable {S : Schema}

/-- PostgreSQL's four row-lock modes. -/
inductive LockMode
  | keyShare
  | share
  | noKeyUpdate
  | update
  deriving DecidableEq

/-- The row-level lock conflict table of PostgreSQL. -/
def LockMode.conflicts : LockMode → LockMode → Bool
  | .update, _ => true
  | _, .update => true
  | .noKeyUpdate, .noKeyUpdate => true
  | .noKeyUpdate, .share => true
  | .share, .noKeyUpdate => true
  | _, _ => false

theorem LockMode.conflicts_comm (m m' : LockMode) : m.conflicts m' = m'.conflicts m := by
  cases m <;> cases m' <;> rfl

/-- A held row lock, with the committed database at the instant the lock was
granted as a history variable.  Advisory locks are locks on keys of a table that
has no rows. -/
structure Lock (S : Schema) where
  table : S.Table
  id : S.Id
  mode : LockMode
  since : Database S

/-- An in-place assignment of an `UPDATE`; it moves a row neither to another
primary key nor to other foreign keys. -/
structure Assignment (S : Schema) (t : S.Table) where
  apply : S.Row t → S.Row t
  keeps_id : ∀ row, S.id (apply row) = S.id row
  keeps_refs : ∀ row, S.refs (apply row) = S.refs row

/-- What a locking statement does with a row that it has locked.  `violation` is
the error the request ends with when a unique index rejects the new version. -/
inductive RowOp (S : Schema) (t : S.Table)
  | hold (mode : LockMode)
  | set (assignment : Assignment S t) (violation : S.Error)

namespace RowOp

variable {t : S.Table}

/-- The version of the row that the statement returns. -/
def result : RowOp S t → S.Row t → S.Row t
  | .hold _, row => row
  | .set f _, row => f.apply row

/-- An `UPDATE` takes `FOR NO KEY UPDATE` unless it changes indexed key
columns. -/
def mode : RowOp S t → S.Row t → LockMode
  | .hold mode, _ => mode
  | .set f _, row => if S.key (f.apply row) = S.key row then .noKeyUpdate else .update

theorem id_result (op : RowOp S t) (row : S.Row t) : S.id (op.result row) = S.id row := by
  cases op with
  | hold => rfl
  | set f _ => exact f.keeps_id row

end RowOp

/-- Request programs with answers in `α`.  `scan` only occurs at run time: it is
a locking statement with the keys it has still to lock and the rows it has. -/
inductive Prog (S : Schema) (α : Type) : Type
  | ret (answer : α)
  | raise (error : S.Error)
  | now (next : ℕ → Prog S α)
  | select (t : S.Table) (where_ : S.Row t → Bool) (next : List (S.Row t) → Prog S α)
  | lock (t : S.Table) (where_ : S.Row t → Bool) (op : RowOp S t)
      (next : List (S.Row t) → Prog S α)
  | scan (t : S.Table) (where_ : S.Row t → Bool) (op : RowOp S t) (todo : List S.Id)
      (got : List (S.Row t)) (next : List (S.Row t) → Prog S α)
  | acquire (t : S.Table) (x : S.Id) (next : Prog S α)
  | insert (t : S.Table) (row : S.Id → S.Row t) (duplicate : Prog S α)
      (next : S.Row t → Prog S α)
  | commit (next : Prog S α)
  | rollback (next : Prog S α)
  | savepoint (next : Prog S α)
  | rollbackTo (next : Prog S α)

namespace Prog

variable {α β : Type}

def bind : Prog S α → (α → Prog S β) → Prog S β
  | ret a, f => f a
  | raise e, _ => raise e
  | now next, f => now fun n => (next n).bind f
  | select t p next, f => select t p fun rows => (next rows).bind f
  | lock t p op next, f => lock t p op fun rows => (next rows).bind f
  | scan t p op todo got next, f => scan t p op todo got fun rows => (next rows).bind f
  | acquire t x next, f => acquire t x (next.bind f)
  | insert t row duplicate next, f =>
      insert t row (duplicate.bind f) fun r => (next r).bind f
  | commit next, f => commit (next.bind f)
  | rollback next, f => rollback (next.bind f)
  | savepoint next, f => savepoint (next.bind f)
  | rollbackTo next, f => rollbackTo (next.bind f)

instance : Monad (Prog S) where
  pure := ret
  bind := bind

end Prog

section Statements

variable {α : Type} (t : S.Table)

/-- The application clock. -/
def clock : Prog S ℕ := .now .ret

/-- `SELECT … WHERE p`. -/
def select (p : S.Row t → Bool) : Prog S (List (S.Row t)) := .select t p .ret

/-- `SELECT … WHERE p FOR UPDATE`. -/
def selectForUpdate (p : S.Row t → Bool) : Prog S (List (S.Row t)) :=
  .lock t p (.hold .update) .ret

/-- `SELECT … WHERE p FOR SHARE`. -/
def selectForShare (p : S.Row t → Bool) : Prog S (List (S.Row t)) :=
  .lock t p (.hold .share) .ret

/-- `UPDATE … SET f WHERE p RETURNING *`, ending the request with `violation`
when a unique index rejects a new version. -/
def updateOr (violation : S.Error) (p : S.Row t → Bool) (f : Assignment S t) :
    Prog S (List (S.Row t)) :=
  .lock t p (.set f violation) .ret

/-- `UPDATE … SET f WHERE p RETURNING *`. -/
def update (p : S.Row t → Bool) (f : Assignment S t) : Prog S (List (S.Row t)) :=
  updateOr t S.uniqueViolation p f

/-- `INSERT … RETURNING *` of a row with a freshly drawn primary key, or nothing
when a unique index rejects the row. -/
def tryInsert (row : S.Id → S.Row t) : Prog S (Option (S.Row t)) :=
  .insert t row (.ret none) fun r => .ret (some r)

/-- `INSERT … RETURNING *` whose unique violation aborts the request. -/
def insert (row : S.Id → S.Row t) : Prog S (S.Row t) :=
  .insert t row (.rollback (.raise S.uniqueViolation)) .ret

/-- A transaction-scoped advisory lock. -/
def advisoryLock (x : S.Id) : Prog S Unit := .acquire t x (.ret ())

/-- `SAVEPOINT`. -/
def setSavepoint : Prog S Unit := .savepoint (.ret ())

/-- `ROLLBACK TO SAVEPOINT`. -/
def rollbackToSavepoint : Prog S Unit := .rollbackTo (.ret ())

/-- `ROLLBACK`, for an error that is caught right outside its transaction. -/
def rollBack : Prog S Unit := .rollback (.ret ())

/-- `throw` out of every open transaction. -/
def abortWith (e : S.Error) : Prog S α := .rollback (.raise e)

/-- `db.transaction(body)`: commit when the body returns.  A single statement
outside an explicit transaction is a transaction of its own. -/
def transaction (body : Prog S α) : Prog S α :=
  body.bind fun a => .commit (.ret a)

end Statements

/-- The transaction-local state of a request: uncommitted versions, held locks,
the versions and locks at the open savepoint, and, as a history variable, the
database that each locking statement of the transaction took its rows from. -/
structure Tx (S : Schema) where
  writes : Writes S
  locks : List (Lock S)
  saved : Writes S × List (Lock S)
  snapshots : List (S.Table × Database S)

namespace Tx

def begin : Tx S := ⟨Writes.none, [], (Writes.none, []), []⟩

def hold (tx : Tx S) (t : S.Table) (x : S.Id) (mode : LockMode) (db : Database S) : Tx S :=
  { tx with locks := ⟨t, x, mode, db⟩ :: tx.locks }

def holdAll (tx : Tx S) (refs : List (S.Table × S.Id)) (mode : LockMode)
    (db : Database S) : Tx S :=
  { tx with locks := refs.map (fun ref => ⟨ref.1, ref.2, mode, db⟩) ++ tx.locks }

def write (tx : Tx S) {t : S.Table} (row : S.Row t) : Tx S :=
  { tx with writes := tx.writes.put row }

def observe (tx : Tx S) (t : S.Table) (db : Database S) : Tx S :=
  { tx with snapshots := (t, db) :: tx.snapshots }

def save (tx : Tx S) : Tx S := { tx with saved := (tx.writes, tx.locks) }

def restore (tx : Tx S) : Tx S := { tx with writes := tx.saved.1, locks := tx.saved.2 }

/-- The versions and locks that may become the transaction's current ones. -/
def layers (tx : Tx S) : List (Writes S × List (Lock S)) := [(tx.writes, tx.locks), tx.saved]

/-- No other transaction holds a lock that conflicts with `mode` on the key. -/
def free (others : List (Tx S)) (t : S.Table) (x : S.Id) (mode : LockMode) : Bool :=
  others.all fun other => other.locks.all fun lock =>
    !(decide (lock.table = t) && decide (lock.id = x) && lock.mode.conflicts mode)

/-- Some other transaction has an uncommitted version, possibly one that it may
still restore, that a unique index would reject next to `row`. -/
def contended (others : List (Tx S)) {t : S.Table} (row : S.Row t) : Bool :=
  others.any fun other => other.layers.any fun layer => (layer.1 t).rows.any fun r =>
    decide (S.id r ≠ S.id row) && S.conflict r row

/-- A visible row makes a unique index reject `row`. -/
def rejected (db : Database S) (tx : Tx S) {t : S.Table} (row : S.Row t) : Bool :=
  (db.view tx.writes t).rows.any fun r =>
    decide (S.id r ≠ S.id row) && S.conflict r row

end Tx

/-- The outcome of a step: the rest of the program, the local state, and the
database it committed. -/
structure Outcome (S : Schema) (α : Type) where
  prog : Prog S α
  tx : Tx S
  committed : Option (Database S) := none

/-- One row of a locking statement: nothing happens to a vanished row, a row
that no longer qualifies stays locked, and a qualifying one is returned and,
by an `UPDATE`, written. -/
def execRow (db : Database S) (others : List (Tx S)) (tx : Tx S) {α : Type}
    (t : S.Table) (p : S.Row t → Bool) (op : RowOp S t) (x : S.Id)
    (next : List (S.Row t) → Prog S α) : Option (Outcome S α) :=
  match (db.view tx.writes t).get x with
  | none => some ⟨next [], tx, none⟩
  | some row =>
      if Tx.free others t x (op.mode row) then
        let locked := tx.hold t x (op.mode row) db
        if p row then
          match op with
          | .hold _ => some ⟨next [row], locked, none⟩
          | .set f violation =>
              if Tx.contended others (f.apply row) then none
              else if Tx.rejected db tx (f.apply row) then
                some ⟨.raise violation, .begin, none⟩
              else some ⟨next [f.apply row], locked.write (f.apply row), none⟩
        else some ⟨next [], locked, none⟩
      else none

/-- One step of a request against the committed database, among the other
transactions in progress.  `picks` resolves what the engine is free to choose:
the order in which a statement locks its rows, and the drawn primary key. -/
def exec (db : Database S) (others : List (Tx S)) (picks : List S.Id) {α : Type} :
    Prog S α → Tx S → Option (Outcome S α)
  | .ret _, _ => none
  | .raise _, _ => none
  | .now next, tx => some ⟨next db.clock, tx, none⟩
  | .select t p next, tx => some ⟨next ((db.view tx.writes t).rows.filter p), tx, none⟩
  | .lock t p op next, tx =>
      if picks.isPerm (((db.view tx.writes t).rows.filter p).map S.id) then
        some ⟨.scan t p op picks [] next, tx.observe t db, none⟩
      else none
  | .scan _ _ _ [] got next, tx => some ⟨next got, tx, none⟩
  | .scan t p op (x :: todo) got next, tx =>
      execRow db others tx t p op x fun rows => .scan t p op todo (got ++ rows) next
  | .acquire t x next, tx =>
      if Tx.free others t x .update then some ⟨next, tx.hold t x .update db, none⟩ else none
  | .insert t row duplicate next, tx =>
      match picks with
      | [x] =>
          if S.id (row x) = x ∧ (db.view tx.writes t).get x = none ∧
              Tx.free others t x .update ∧ Tx.contended others (row x) = false then
            if Tx.rejected db tx (row x) then some ⟨duplicate, tx, none⟩
            else if (S.refs (row x)).all fun ref =>
                ((db.view tx.writes ref.1).get ref.2).isSome then
              if (S.refs (row x)).all fun ref => Tx.free others ref.1 ref.2 .keyShare then
                some ⟨next (row x),
                  ((tx.holdAll (S.refs (row x)) .keyShare db).hold t x .update db).write
                    (row x), none⟩
              else none
            else some ⟨.raise S.foreignKeyViolation, .begin, none⟩
          else none
      | _ => none
  | .commit next, tx => some ⟨next, .begin, some (db.apply tx.writes)⟩
  | .rollback next, _ => some ⟨next, .begin, none⟩
  | .savepoint next, tx => some ⟨next, tx.save, none⟩
  | .rollbackTo next, tx => some ⟨next, tx.restore, none⟩

end Orgistry.ReadCommitted
