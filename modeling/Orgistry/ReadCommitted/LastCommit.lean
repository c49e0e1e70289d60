import Orgistry.ReadCommitted.Runs

/-!
# Requests of one transaction

A request whose program commits only as its very last step is atomic: each of
its steps leaves the database alone, or is the commit after which the request
has its answer.
-/

namespace Orgistry.ReadCommitted

variable {S : Schema} {α β : Type}

/-- Whatever the program goes on with after a commit meets `P`. -/
def Prog.AtCommits (P : Prog S α → Prop) : Prog S α → Prop
  | .ret _ => True
  | .raise _ => True
  | .now next => ∀ n, (next n).AtCommits P
  | .select _ _ next => ∀ rows, (next rows).AtCommits P
  | .lock _ _ _ next => ∀ rows, (next rows).AtCommits P
  | .scan _ _ _ _ _ next => ∀ rows, (next rows).AtCommits P
  | .acquire _ _ next => next.AtCommits P
  | .insert _ _ duplicate next => duplicate.AtCommits P ∧ ∀ row, (next row).AtCommits P
  | .commit next => P next
  | .rollback next => next.AtCommits P
  | .savepoint next => next.AtCommits P
  | .rollbackTo next => next.AtCommits P

/-- The program does not commit. -/
abbrev Prog.NeverCommits (prog : Prog S α) : Prop := prog.AtCommits fun _ => False

/-- The program commits only to answer `f b` with some `b`. -/
abbrev Prog.CommitsLast (f : β → α) (prog : Prog S α) : Prop :=
  prog.AtCommits fun next => ∃ b, next = .ret (f b)

section Statements

variable {P : Prog S β → Prop}

theorem atCommits_bind {prog : Prog S α} {f : α → Prog S β} (hprog : prog.NeverCommits)
    (hf : ∀ a, (f a).AtCommits P) : (prog >>= f).AtCommits P := by
  change (prog.bind f).AtCommits P
  induction prog with
  | ret a => exact hf a
  | raise => trivial
  | now next ih => exact fun n => ih n (hprog n)
  | select t p next ih => exact fun rows => ih rows (hprog rows)
  | lock t p op next ih => exact fun rows => ih rows (hprog rows)
  | scan t p op todo got next ih => exact fun rows => ih rows (hprog rows)
  | acquire t x next ih => exact ih hprog
  | insert t row duplicate next ihduplicate ih =>
      exact ⟨ihduplicate hprog.1, fun r => ih r (hprog.2 r)⟩
  | commit next => exact hprog.elim
  | rollback next ih => exact ih hprog
  | savepoint next ih => exact ih hprog
  | rollbackTo next ih => exact ih hprog

variable {t : S.Table} {p : S.Row t → Bool}

theorem neverCommits_pure (a : α) : (pure a : Prog S α).NeverCommits := trivial

theorem neverCommits_clock : (clock : Prog S ℕ).NeverCommits := fun _ => trivial

theorem neverCommits_select : (select t p).NeverCommits := fun _ => trivial

theorem neverCommits_selectForUpdate : (selectForUpdate t p).NeverCommits := fun _ => trivial

theorem neverCommits_selectForShare : (selectForShare t p).NeverCommits := fun _ => trivial

theorem neverCommits_update {f : Assignment S t} : (update t p f).NeverCommits :=
  fun _ => trivial

theorem neverCommits_tryInsert {row : S.Id → S.Row t} : (tryInsert t row).NeverCommits :=
  ⟨trivial, fun _ => trivial⟩

theorem neverCommits_insert {row : S.Id → S.Row t} : (insert t row).NeverCommits :=
  ⟨trivial, fun _ => trivial⟩

theorem neverCommits_advisoryLock {x : S.Id} : (advisoryLock t x).NeverCommits := trivial

theorem neverCommits_setSavepoint : (setSavepoint : Prog S Unit).NeverCommits := trivial

theorem neverCommits_rollbackToSavepoint : (rollbackToSavepoint : Prog S Unit).NeverCommits :=
  trivial

theorem neverCommits_rollBack : (rollBack : Prog S Unit).NeverCommits := trivial

theorem neverCommits_abortWith {e : S.Error} : (abortWith e : Prog S α).NeverCommits := trivial

/-- The commit of a transaction is the last that it does. -/
theorem commitsLast_transaction {body : Prog S α} (h : body.NeverCommits) :
    (transaction body).CommitsLast fun a => a := by
  change (body.bind fun a => .commit (.ret a)).CommitsLast fun a => a
  induction body with
  | ret a => exact ⟨a, rfl⟩
  | raise => trivial
  | now next ih => exact fun n => ih n (h n)
  | select t p next ih => exact fun rows => ih rows (h rows)
  | lock t p op next ih => exact fun rows => ih rows (h rows)
  | scan t p op todo got next ih => exact fun rows => ih rows (h rows)
  | acquire t x next ih => exact ih h
  | insert t row duplicate next ihduplicate ih =>
      exact ⟨ihduplicate h.1, fun r => ih r (h.2 r)⟩
  | commit next => exact h.elim
  | rollback next ih => exact ih h
  | savepoint next ih => exact ih h
  | rollbackTo next ih => exact ih h

/-- An answer that is passed on. -/
theorem commitsLast_map {γ : Type} {prog : Prog S α} {f : γ → α} (g : α → β)
    (h : prog.CommitsLast f) : (prog >>= fun a => pure (g a)).CommitsLast fun b => g (f b) := by
  change (prog.bind fun a => .ret (g a)).CommitsLast fun b => g (f b)
  induction prog with
  | ret a => trivial
  | raise => trivial
  | now next ih => exact fun n => ih n (h n)
  | select t p next ih => exact fun rows => ih rows (h rows)
  | lock t p op next ih => exact fun rows => ih rows (h rows)
  | scan t p op todo got next ih => exact fun rows => ih rows (h rows)
  | acquire t x next ih => exact ih h
  | insert t row duplicate next ihduplicate ih =>
      exact ⟨ihduplicate h.1, fun r => ih r (h.2 r)⟩
  | commit next =>
      obtain ⟨b, rfl⟩ := h
      exact ⟨b, rfl⟩
  | rollback next ih => exact ih h
  | savepoint next ih => exact ih h
  | rollbackTo next ih => exact ih h

end Statements

section Steps

variable {db : Database S} {others : List (Tx S)} {tx : Tx S} {picks : List S.Id}
  {o : Outcome S α} {P : Prog S α → Prop}

theorem atCommits_execRow {t : S.Table} {p : S.Row t → Bool} {op : RowOp S t} {x : S.Id}
    {next : List (S.Row t) → Prog S α} (hnext : ∀ rows, (next rows).AtCommits P)
    (h : execRow db others tx t p op x next = some o) : o.prog.AtCommits P := by
  unfold execRow at h
  split at h
  · cases h
    exact hnext _
  · split at h
    · dsimp only at h
      split at h
      · split at h
        · cases h
          exact hnext _
        · split at h
          · cases h
          · split at h
            · cases h
              trivial
            · cases h
              exact hnext _
      · cases h
        exact hnext _
    · cases h

/-- A step that does not commit. -/
theorem atCommits_exec {prog : Prog S α} (hprog : prog.AtCommits P)
    (h : exec db others picks prog tx = some o) (hcommitted : o.committed = none) :
    o.prog.AtCommits P := by
  cases prog with
  | ret => cases h
  | raise => cases h
  | now next => cases h; exact hprog _
  | select t p next => cases h; exact hprog _
  | lock t p op next =>
      simp only [exec] at h
      split at h
      · cases h; exact hprog
      · cases h
  | scan t p op todo got next =>
      cases todo with
      | nil => cases h; exact hprog _
      | cons x todo =>
          rw [exec] at h
          refine atCommits_execRow (fun rows => ?_) h
          exact hprog
  | acquire t x next =>
      simp only [exec] at h
      split at h
      · cases h; exact hprog
      · cases h
  | insert t row duplicate next =>
      simp only [exec] at h
      repeat' split at h
      all_goals cases h
      · exact hprog.1
      · exact hprog.2 _
      · trivial
  | commit next => cases h; cases hcommitted
  | rollback next => cases h; exact hprog
  | savepoint next => cases h; exact hprog
  | rollbackTo next => cases h; exact hprog

end Steps

namespace State

variable {Request Answer : Type} {code : ℕ → Request → Prog S Answer}
  {Init : Database S → Prop} {G ok : Tx S → Database S → Prop}
  {Post : ℕ → Request → History S → Answer → History S → Prop}
  {s s' : State S Request Answer} {r : Request} {f : β → Answer}

/-- What the code of a request commits last, its threads commit last. -/
theorem Reach.commitsLast (h : Reach code Init ok s) (hcode : ∀ i, (code i r).CommitsLast f)
    {i : ℕ} {th : Thread S Request Answer} (hth : s.threads[i]? = some th)
    (hr : th.request = r) : th.prog.CommitsLast f := by
  -- a step of thread `i` leaves the other threads as they are
  have hset : ∀ {s : State S Request Answer} {i j : ℕ} {th th' : Thread S Request Answer}
      {prog : Prog S Answer} {tx : Tx S}, s.threads[i]? = some th →
      (∀ {th' : Thread S Request Answer}, s.threads[j]? = some th' → th'.request = r →
        th'.prog.CommitsLast f) →
      (th.request = r → th.prog.CommitsLast f → prog.CommitsLast f) →
      (i = j → th.request = r → th.prog.CommitsLast f) →
      (s.threads.set i { th with prog, tx })[j]? = some th' → th'.request = r →
        th'.prog.CommitsLast f := by
    intro s i j th th' prog tx hth hothers hprog hlast hj hr
    rw [List.getElem?_set] at hj
    split at hj
    · next hij =>
        split at hj
        · cases hj
          exact hprog hr (hlast hij hr)
        · cases hj
    · exact hothers hj hr
  induction h generalizing i th with
  | init => simp [initial] at hth
  | @step s s' a hreach hstep hpermits ih =>
      cases a with
      | start r' =>
          cases hstep
          rw [List.getElem?_append] at hth
          split at hth
          · exact ih hth hr
          · rw [List.getElem?_singleton] at hth
            split at hth
            · cases hth
              cases hr
              exact hcode _
            · cases hth
      | exec j picks =>
          obtain ⟨th₀, o, hth₀, ho, rfl⟩ := step_exec hstep
          refine hset hth₀ ih (fun _ hlast => ?_) (fun _ => ih hth₀) hth hr
          cases hdb : o.committed with
          | none => exact atCommits_exec hlast ho hdb
          | some db =>
              obtain ⟨next, hprog, hnext, -⟩ := exec_committed ho hdb
              rw [hprog] at hlast
              obtain ⟨b, rfl⟩ := hlast
              rw [hnext]
              trivial
      | abort j e =>
          obtain ⟨th₀, hth₀, -, rfl⟩ := step_abort hstep
          have hraise : (Prog.raise e : Prog S Answer).CommitsLast f := trivial
          exact hset hth₀ ih (fun _ _ => hraise) (fun _ => ih hth₀) hth hr
      | tick n =>
          cases hstep
          exact ih hth hr

/-- Each step of a request that commits last leaves the database alone, or
commits what its answer promises. -/
theorem Reach.lastCommit (hinit : ∀ db, Init db → Consistent db.tables)
    (hsafe : ∀ i r w, Trace G Init w →
      Safe G (code i r) (fun a _ w' => Post i r w a w') .begin w)
    (h : Reach code Init ok s) (hcode : ∀ i, (code i r).CommitsLast f) {i : ℕ}
    {th : Thread S Request Answer} (hth : s.threads[i]? = some th) (hr : th.request = r)
    {picks : List S.Id} (hstep : State.step code s (.exec i picks) = some s') :
    s'.history = s.history ∨
      ∃ (tx : Tx S) (b : β), s'.history = s.history.push (s.history.now.apply tx.writes) ∧
        s'.Answered i r (f b) ∧ Post i r th.born (f b) s'.history := by
  obtain ⟨th', o, hth', ho, rfl⟩ := step_exec hstep
  obtain rfl := Option.some_inj.mp (hth.symm.trans hth')
  cases hdb : o.committed with
  | none => exact .inl rfl
  | some db =>
      obtain ⟨next, hprog, hnext, -, rfl⟩ := exec_committed ho hdb
      have hlast := h.commitsLast hcode hth hr
      rw [hprog] at hlast
      obtain ⟨b, rfl⟩ := hlast
      obtain ⟨w, hborn, hnow, hkept⟩ := (h.adequate hinit hsafe).2 i th hth
      rw [hprog] at hkept
      obtain ⟨-, hpost⟩ := hkept _ ⟨hnow, (h.isolated hinit).sound hth⟩
      refine .inr ⟨th.tx, b, rfl, ⟨_, List.getElem?_set_self ?_, hr, hnext⟩, hr ▸ hpost⟩
      exact (List.getElem?_eq_some_iff.mp hth).1

end State

end Orgistry.ReadCommitted
