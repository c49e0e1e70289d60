import Orgistry.ReadCommitted.Runs

/-!
# What a held lock guards

A fact that holds of a lock when it is granted, and that no commit of another
transaction can end as long as the lock is held, holds of every held lock.  So a
transaction that commits may rely on it for each of its own locks.
-/

namespace Orgistry.ReadCommitted

variable {S : Schema}

/-- While the lock is held, `P` stands between it and the database. -/
structure Guards (G : Tx S → Database S → Prop) (P : Lock S → Database S → Prop) : Prop where
  grant : ∀ lock : Lock S, P lock lock.since
  tick : ∀ (lock : Lock S) (db : Database S) (n : ℕ), P lock db → P lock (db.advance n)
  commit : ∀ {lock : Lock S} {holder tx : Tx S} {db : Database S}, lock ∈ holder.locks →
    holder.Sound db → tx.Sound db → Compatible holder.locks tx.locks → G tx db →
      P lock db → P lock (db.apply tx.writes)

/-- A step of a request that does not commit takes locks in the database as it
is, and forgets locks. -/
theorem TxStep.mem_locks {db : Database S} {others : List (Tx S)} {tx tx' : Tx S}
    (h : TxStep db others tx tx' none) (hsound : tx.Sound db) {lock : Lock S}
    (hlock : lock ∈ tx'.locks) : lock ∈ tx.locks ∨ lock.since = db := by
  cases h with
  | same => exact .inl hlock
  | observe t => exact .inl hlock
  | hold t x mode hfree =>
      rcases List.mem_cons.mp hlock with rfl | hlock
      · exact .inr rfl
      · exact .inl hlock
  | update row f violation hrow hfree hcontended hrejected =>
      rcases List.mem_cons.mp hlock with rfl | hlock
      · exact .inr rfl
      · exact .inl hlock
  | insert row hrow hfree hcontended hrejected hexist hrefs =>
      rcases List.mem_cons.mp hlock with rfl | hlock
      · exact .inr rfl
      · rcases List.mem_append.mp hlock with href | hlock
        · obtain ⟨ref, -, rfl⟩ := List.mem_map.mp href
          exact .inr rfl
        · exact .inl hlock
  | reset => cases hlock
  | save => exact .inl hlock
  | restore => exact .inl (hsound.subset _ tx.saved_mem_layers hlock)

namespace State

variable {Request Answer : Type} {code : ℕ → Request → Prog S Answer}
  {Init : Database S → Prop} {G ok : Tx S → Database S → Prop}
  {P : Lock S → Database S → Prop}
  {Post : ℕ → Request → History S → Answer → History S → Prop}
  {s : State S Request Answer}

/-- What is about to commit keeps to the guarantee. -/
theorem Reach.commit_allowed (hinit : ∀ db, Init db → Consistent db.tables)
    (hsafe : ∀ i r w, Trace G Init w →
      Safe G (code i r) (fun a _ w' => Post i r w a w') .begin w)
    (h : Reach code Init ok s) {i : ℕ} {th : Thread S Request Answer}
    (hth : s.threads[i]? = some th) {next : Prog S Answer} (hprog : th.prog = .commit next) :
    G th.tx s.history.now := by
  obtain ⟨w, -, hnow, hkept⟩ := (h.adequate hinit hsafe).2 i th hth
  rw [hprog] at hkept
  exact (hkept _ ⟨hnow, (h.isolated hinit).sound hth⟩).1

/-- Every held lock of a reachable state is guarded. -/
theorem Reach.guarded (hguards : Guards G P) (hinit : ∀ db, Init db → Consistent db.tables)
    (hsafe : ∀ i r w, Trace G Init w →
      Safe G (code i r) (fun a _ w' => Post i r w a w') .begin w)
    (h : Reach code Init ok s) {i : ℕ} {th : Thread S Request Answer}
    (hth : s.threads[i]? = some th) : ∀ lock ∈ th.tx.locks, P lock s.history.now := by
  induction h generalizing i th with
  | init => simp [initial] at hth
  | @step s s' a hreach hstep hpermits ih =>
      have hisolated := hreach.isolated hinit
      cases a with
      | start r =>
          cases hstep
          rw [List.getElem?_append] at hth
          split at hth
          · exact ih hth
          · rw [List.getElem?_singleton] at hth
            split at hth
            · cases hth
              exact fun lock hlock => by cases hlock
            · cases hth
      | exec j picks =>
          obtain ⟨th₀, o, hth₀, ho, rfl⟩ := step_exec hstep
          have htx := exec_txStep ho
          rw [List.getElem?_set] at hth
          cases hdb : o.committed with
          | none =>
              rw [hdb] at htx
              split at hth
              · split at hth
                · cases hth
                  intro lock hlock
                  rcases htx.mem_locks (hisolated.sound hth₀) hlock with hbefore | hsince
                  · exact ih hth₀ lock hbefore
                  · have hgranted := hguards.grant lock
                    rw [hsince] at hgranted
                    exact hgranted
                · cases hth
              · exact ih hth
          | some db =>
              obtain ⟨next, hprog, -, hbegin, rfl⟩ := exec_committed ho hdb
              split at hth
              · split at hth
                · cases hth
                  intro lock hlock
                  rw [show o.tx = .begin from hbegin] at hlock
                  cases hlock
                · cases hth
              · next hij =>
                  have hG := hreach.commit_allowed hinit hsafe hth₀ hprog
                  have hapart := hisolated.apart (Ne.symm hij) hth hth₀
                  intro lock hlock
                  exact hguards.commit hlock (hisolated.sound hth) (hisolated.sound hth₀)
                    hapart.locks hG (ih hth lock hlock)
      | abort j e =>
          obtain ⟨th₀, hth₀, -, rfl⟩ := step_abort hstep
          rw [List.getElem?_set] at hth
          split at hth
          · split at hth
            · cases hth
              exact fun lock hlock => by cases hlock
            · cases hth
          · exact ih hth
      | tick n =>
          cases hstep
          exact fun lock hlock => hguards.tick lock _ n (ih hth lock hlock)

/-- The commits of a run, with what their locks guard. -/
theorem Reach.guardedTrace (hguards : Guards G P)
    (hinit : ∀ db, Init db → Consistent db.tables)
    (hsafe : ∀ i r w, Trace G Init w →
      Safe G (code i r) (fun a _ w' => Post i r w a w') .begin w)
    (h : Reach code Init ok s) :
    Trace (fun tx db => ok tx db ∧ G tx db ∧ ∀ lock ∈ tx.locks, P lock db) Init s.history := by
  induction h with
  | @init db hdb => exact ⟨db, hdb, .refl⟩
  | @step s s' a hreach hstep hpermits ih =>
      cases a with
      | start r =>
          cases hstep
          exact ih
      | exec i picks =>
          obtain ⟨th, o, hth, ho, rfl⟩ := step_exec hstep
          cases hdb : o.committed with
          | none => exact ih
          | some db =>
              obtain ⟨next, hprog, -, -, rfl⟩ := exec_committed ho hdb
              refine ih.extend (.commit th.tx .refl ((hreach.isolated hinit).sound hth) ?_)
              exact ⟨hpermits th hth next hprog, hreach.commit_allowed hinit hsafe hth hprog,
                hreach.guarded hguards hinit hsafe hth⟩
      | abort i e =>
          obtain ⟨th, -, -, rfl⟩ := step_abort hstep
          exact ih
      | tick n =>
          cases hstep
          exact ih.extend (.tick n .refl)

end State

end Orgistry.ReadCommitted
