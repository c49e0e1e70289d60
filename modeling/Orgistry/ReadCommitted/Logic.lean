import Orgistry.ReadCommitted.Isolation

/-!
# Reasoning about one request at a time

`Safe G prog Q tx w` says that a request which is about to run `prog` commits
only what the guarantee `G` allows and ends in `Q`, while other requests commit
around it what `G` allows them.  `adequate` turns such statements about the
single requests into invariants of the concurrent system.
-/

namespace Orgistry.ReadCommitted

variable {S : Schema}

section Histories

variable (G : Tx S → Database S → Prop)

/-- The history grows by clock ticks and by commits that `G` allows. -/
inductive Moves (w : History S) : History S → Prop
  | refl : Moves w w
  | tick {w' : History S} (n : ℕ) (h : Moves w w') : Moves w (w'.push (w'.now.advance n))
  | commit {w' : History S} (tx : Tx S) (h : Moves w w') (hsound : tx.Sound w'.now)
      (hG : G tx w'.now) : Moves w (w'.push (w'.now.apply tx.writes))

/-- The histories of the runs from an `Init` database. -/
def Trace (Init : Database S → Prop) (w : History S) : Prop :=
  ∃ db, Init db ∧ Moves G ⟨db, []⟩ w

variable {G} {u v w : History S}

theorem Moves.trans (huv : Moves G u v) (hvw : Moves G v w) : Moves G u w := by
  induction hvw with
  | refl => exact huv
  | tick n _ ih => exact .tick n ih
  | commit tx _ hsound hG ih => exact .commit tx ih hsound hG

theorem Moves.extends (h : Moves G v w) : w.Extends v := by
  induction h with
  | refl => exact .refl _
  | tick n _ ih => exact ih.push _
  | commit tx _ _ _ ih => exact ih.push _

theorem Moves.mono {G' : Tx S → Database S → Prop} (hG : ∀ tx db, G tx db → G' tx db)
    (h : Moves G v w) : Moves G' v w := by
  induction h with
  | refl => exact .refl
  | tick n _ ih => exact .tick n ih
  | commit tx _ hsound hcommit ih => exact .commit tx ih hsound (hG _ _ hcommit)

/-- What every tick and every commit preserves, every run preserves. -/
theorem Moves.preserves {P : Database S → Prop} (h : Moves G v w)
    (htick : ∀ db n, P db → P (db.advance n))
    (hcommit : ∀ (tx : Tx S) (db : Database S), tx.Sound db → G tx db → P db →
      P (db.apply tx.writes))
    (hv : P v.now) : P w.now := by
  induction h with
  | refl => exact hv
  | tick n _ ih => exact htick _ n ih
  | commit tx _ hsound hG ih => exact hcommit tx _ hsound hG ih

/-- Rows never vanish. -/
theorem Moves.get_ne_none (h : Moves G v w) {t : S.Table} {x : S.Id}
    (hv : v.now.get t x ≠ none) : w.now.get t x ≠ none :=
  h.preserves (P := fun db => db.get t x ≠ none) (fun _ _ hdb => hdb)
    (fun tx _ _ _ hdb => Database.get_apply_ne_none hdb tx.writes) hv

/-- A row changes only along a preorder that every commit respects. -/
theorem Moves.evolves {t : S.Table} {R : S.Row t → S.Row t → Prop} (hrefl : ∀ row, R row row)
    (htrans : ∀ {a b c}, R a b → R b c → R a c)
    (hstep : ∀ {tx : Tx S} {db : Database S} {x : S.Id} {old new : S.Row t}, G tx db →
      db.get t x = some old → (tx.writes t).get x = some new → R old new)
    (h : Moves G v w) {x : S.Id} {old : S.Row t} (hold : v.now.get t x = some old) :
    ∃ new, w.now.get t x = some new ∧ R old new := by
  refine h.preserves (P := fun db => ∃ new, db.get t x = some new ∧ R old new)
    (fun _ _ hdb => hdb) ?_ ⟨old, hold, hrefl old⟩
  rintro tx db - hG ⟨mid, hmid, hR⟩
  rw [Database.get_apply]
  cases hwritten : (tx.writes t).get x with
  | none => exact ⟨mid, by simpa using hmid, hR⟩
  | some new => exact ⟨new, rfl, htrans hR (hstep hG hmid hwritten)⟩

theorem Moves.clock_le (h : Moves G v w) : v.now.clock ≤ w.now.clock :=
  h.preserves (P := fun db => v.now.clock ≤ db.clock)
    (fun _ n hdb => Nat.le_trans hdb (Nat.le_add_right _ n)) (fun _ _ _ _ hdb => hdb)
    (Nat.le_refl _)

theorem Trace.extend {Init : Database S → Prop} (hv : Trace G Init v) (h : Moves G v w) :
    Trace G Init w :=
  hv.imp fun _ hdb => ⟨hdb.1, hdb.2.trans h⟩

/-- Between `w` and `w'` there was a moment at which `P` held. -/
def Seen (G : Tx S → Database S → Prop) (w w' : History S) (P : Database S → Prop) : Prop :=
  ∃ v, Moves G w v ∧ Moves G v w' ∧ P v.now

theorem Seen.intro {P : Database S → Prop} (h : Moves G w v) (hP : P v.now) :
    Seen G w v P :=
  ⟨v, h, .refl, hP⟩

theorem Seen.later {u : History S} {P : Database S → Prop} (h : Seen G u v P)
    (hmoves : Moves G v w) : Seen G u w P := by
  obtain ⟨m, hm, hv, hP⟩ := h
  exact ⟨m, hm, hv.trans hmoves, hP⟩

theorem Seen.earlier {u : History S} {P : Database S → Prop} (hmoves : Moves G u v)
    (h : Seen G v w P) : Seen G u w P := by
  obtain ⟨m, hm, hw, hP⟩ := h
  exact ⟨m, hmoves.trans hm, hw, hP⟩

end Histories

section Safe

variable (G : Tx S → Database S → Prop)

/-- The request is about to take a step: others have moved on since `w`, and
its own locks still stand. -/
structure Around (tx : Tx S) (w w' : History S) : Prop where
  moves : Moves G w w'
  sound : tx.Sound w'.now

/-- The locked row is written when the statement is an `UPDATE`. -/
def Tx.perform {t : S.Table} (op : RowOp S t) (row : S.Row t) (tx : Tx S) : Tx S :=
  match op with
  | .hold _ => tx
  | .set f _ => tx.write (f.apply row)

/-- A locking statement with the keys `todo` ahead of it. -/
def ScanSafe {t : S.Table} (p : S.Row t → Bool) (op : RowOp S t)
    (K : List (S.Row t) → Tx S → History S → Prop) :
    List S.Id → List (S.Row t) → Tx S → History S → Prop
  | [], got, tx, w => ∀ w', Around G tx w w' → K got tx w'
  | x :: todo, got, tx, w => ∀ w', Around G tx w w' →
      match (w'.now.view tx.writes t).get x with
      | none => ScanSafe p op K todo got tx w'
      | some row =>
          let locked := tx.hold t x (op.mode row) w'.now
          if p row then
            ScanSafe p op K todo (got ++ [op.result row]) (locked.perform op row) w'
          else ScanSafe p op K todo got locked w'

/-- Every commit of the program meets `G`, and its answer meets `Q`. -/
def Safe {α : Type} : Prog S α → (α → Tx S → History S → Prop) → Tx S → History S → Prop
  | .ret a, Q, tx, w => Q a tx w
  | .raise _, _, _, _ => True
  | .now next, Q, tx, w => ∀ w', Around G tx w w' → Safe (next w'.now.clock) Q tx w'
  | .select t p next, Q, tx, w => ∀ w', Around G tx w w' →
      Safe (next ((w'.now.view tx.writes t).rows.filter p)) Q tx w'
  | .lock t p op next, Q, tx, w => ∀ w', Around G tx w w' → ∀ keys : List S.Id,
      keys.Perm (((w'.now.view tx.writes t).rows.filter p).map S.id) →
        ScanSafe G p op (fun got tx' w'' => Safe (next got) Q tx' w'') keys []
          (tx.observe t w'.now) w'
  | .scan _ p op todo got next, Q, tx, w =>
      ScanSafe G p op (fun got tx' w'' => Safe (next got) Q tx' w'') todo got tx w
  | .acquire t x next, Q, tx, w => ∀ w', Around G tx w w' →
      Safe next Q (tx.hold t x .update w'.now) w'
  | .insert t row duplicate next, Q, tx, w => ∀ w', Around G tx w w' → ∀ x, S.id (row x) = x →
      (w'.now.view tx.writes t).get x = none →
      if Tx.rejected w'.now tx (row x) then Safe duplicate Q tx w'
      else (∀ ref ∈ S.refs (row x), (w'.now.view tx.writes ref.1).get ref.2 ≠ none) →
        Safe (next (row x)) Q
          (((tx.holdAll (S.refs (row x)) .keyShare w'.now).hold t x .update w'.now).write
            (row x)) w'
  | .commit next, Q, tx, w => ∀ w', Around G tx w w' → G tx w'.now ∧
      Safe next Q .begin (w'.push (w'.now.apply tx.writes))
  | .rollback next, Q, tx, w => ∀ w', Around G tx w w' → Safe next Q .begin w'
  | .savepoint next, Q, tx, w => ∀ w', Around G tx w w' → Safe next Q tx.save w'
  | .rollbackTo next, Q, tx, w => ∀ w', Around G tx w w' → Safe next Q tx.restore w'

variable {G} {α : Type} {Q : α → Tx S → History S → Prop} {tx : Tx S} {w w' : History S}

/-- One key of a locking statement. -/
theorem execRow_safe {t : S.Table} {p : S.Row t → Bool} {op : RowOp S t} {x : S.Id}
    {todo : List S.Id} {got : List (S.Row t)} {next : List (S.Row t) → Prog S α}
    {others : List (Tx S)} {o : Outcome S α}
    (hsafe : Safe G (.scan t p op (x :: todo) got next) Q tx w) (haround : Around G tx w w')
    (h : execRow w'.now others tx t p op x
      (fun rows => .scan t p op todo (got ++ rows) next) = some o) :
    Safe G o.prog Q o.tx w' := by
  have hscan := hsafe w' haround
  unfold execRow at h
  split at h
  · next hrow =>
      cases h
      simp only [hrow] at hscan
      change Safe G (.scan t p op todo (got ++ []) next) Q tx w'
      rw [List.append_nil]
      exact hscan
  · next row hrow =>
      simp only [hrow] at hscan
      split at h
      · dsimp only at h
        split at h
        · next hp =>
            rw [if_pos hp] at hscan
            cases op with
            | hold mode =>
                cases h
                exact hscan
            | set f violation =>
                dsimp only at h
                split at h
                · cases h
                · split at h
                  · cases h
                    trivial
                  · cases h
                    exact hscan
        · next hp =>
            rw [if_neg hp] at hscan
            cases h
            change Safe G (.scan t p op todo (got ++ []) next) Q _ w'
            rw [List.append_nil]
            exact hscan
      · cases h

/-- One step of a safe program that does not commit. -/
theorem Safe.exec {prog : Prog S α} {others : List (Tx S)} {picks : List S.Id}
    {o : Outcome S α} (hsafe : Safe G prog Q tx w) (haround : Around G tx w w')
    (h : exec w'.now others picks prog tx = some o) (hcommitted : o.committed = none) :
    Safe G o.prog Q o.tx w' := by
  cases prog with
  | ret => cases h
  | raise => cases h
  | now next => cases h; exact hsafe w' haround
  | select t p next => cases h; exact hsafe w' haround
  | lock t p op next =>
      simp only [ReadCommitted.exec] at h
      split at h
      · next hperm =>
          cases h
          exact hsafe w' haround picks (List.isPerm_iff.mp hperm)
      · cases h
  | scan t p op todo got next =>
      cases todo with
      | nil => cases h; exact hsafe w' haround
      | cons x todo =>
          rw [ReadCommitted.exec] at h
          exact execRow_safe hsafe haround h
  | acquire t x next =>
      simp only [ReadCommitted.exec] at h
      split at h
      · cases h; exact hsafe w' haround
      · cases h
  | insert t row duplicate next =>
      simp only [ReadCommitted.exec] at h
      split at h
      · next x =>
          split at h
          · next hx =>
              have hinsert := hsafe w' haround x hx.1 hx.2.1
              split at h
              · next hrejected =>
                  rw [if_pos hrejected] at hinsert
                  cases h
                  exact hinsert
              · next hrejected =>
                  rw [if_neg hrejected] at hinsert
                  split at h
                  · next hrefs =>
                      split at h
                      · cases h
                        apply hinsert
                        simpa only [List.all_eq_true, Option.isSome_iff_ne_none] using hrefs
                      · cases h
                  · cases h
                    trivial
          · cases h
      · cases h
  | commit next => cases h; cases hcommitted
  | rollback next => cases h; exact hsafe w' haround
  | savepoint next => cases h; exact hsafe w' haround
  | rollbackTo next => cases h; exact hsafe w' haround

end Safe

/-! ## Adequacy -/

namespace State

variable {Request Answer : Type} {code : ℕ → Request → Prog S Answer}
  {Init : Database S → Prop} {G ok : Tx S → Database S → Prop}
  {Post : ℕ → Request → History S → Answer → History S → Prop}
  {s : State S Request Answer}

/-- The thread has so far kept to `G`, and its answer will meet `Post`. -/
def Kept (G : Tx S → Database S → Prop)
    (Post : ℕ → Request → History S → Answer → History S → Prop) (now : History S) (i : ℕ)
    (th : Thread S Request Answer) : Prop :=
  ∃ w, Moves G th.born w ∧ Moves G w now ∧
    Safe G th.prog (fun a _ w' => Post i th.request th.born a w') th.tx w

theorem Kept.later {now now' : History S} {i : ℕ} {th : Thread S Request Answer}
    (h : Kept G Post now i th) (hmoves : Moves G now now') : Kept G Post now' i th := by
  obtain ⟨w, hborn, hnow, hsafe⟩ := h
  exact ⟨w, hborn, hnow.trans hmoves, hsafe⟩

/-- Programs that are safe on their own keep to `G` when they run together: the
history of every reachable state is made of commits that are `ok` and allowed
by `G`, and every thread is still safe. -/
theorem Reach.adequate (hinit : ∀ db, Init db → Consistent db.tables)
    (hsafe : ∀ i r w, Trace G Init w →
      Safe G (code i r) (fun a _ w' => Post i r w a w') .begin w)
    (h : Reach code Init ok s) :
    Trace (fun tx db => ok tx db ∧ G tx db) Init s.history ∧
      ∀ i th, s.threads[i]? = some th → Kept G Post s.history i th := by
  induction h with
  | @init db hdb =>
      refine ⟨⟨db, hdb, .refl⟩, ?_⟩
      intro i th hth
      simp [initial] at hth
  | @step s s' a hreach hstep hpermits ih =>
      obtain ⟨htrace, hkept⟩ := ih
      have hisolated := hreach.isolated hinit
      have hguarantee : Trace G Init s.history :=
        htrace.imp fun _ hdb => ⟨hdb.1, hdb.2.mono fun _ _ hcommit => hcommit.2⟩
      cases a with
      | start r =>
          cases hstep
          refine ⟨htrace, ?_⟩
          intro i th hth
          rw [List.getElem?_append] at hth
          split at hth
          · exact hkept i th hth
          · next hlt =>
              rw [List.getElem?_singleton] at hth
              split at hth
              · next hi =>
                  cases hth
                  have heq : i = s.threads.length := by omega
                  subst heq
                  exact ⟨s.history, .refl, .refl, hsafe _ r _ hguarantee⟩
              · cases hth
      | exec i picks =>
          obtain ⟨th, o, hth, ho, rfl⟩ := step_exec hstep
          obtain ⟨w, hborn, hnow, hsafe'⟩ := hkept i th hth
          have haround : Around G th.tx w s.history := ⟨hnow, hisolated.sound hth⟩
          -- the threads after the step: thread `i` moved on, the others as before
          have hthreads : ∀ {now : History S}, Moves G s.history now →
              Safe G o.prog (fun a _ w' => Post i th.request th.born a w') o.tx now →
              ∀ j th', (s.threads.set i { th with prog := o.prog, tx := o.tx })[j]? = some th' →
                Kept G Post now j th' := by
            intro now hmoves hsafe'' j th' hth'
            rw [List.getElem?_set] at hth'
            split at hth'
            · next hij =>
                split at hth'
                · cases hth'
                  subst hij
                  exact ⟨now, hborn.trans (hnow.trans hmoves), .refl, hsafe''⟩
                · cases hth'
            · exact (hkept j th' hth').later hmoves
          cases hdb : o.committed with
          | none => exact ⟨htrace, hthreads .refl (hsafe'.exec haround ho hdb)⟩
          | some db =>
              obtain ⟨next, hprog, hnext, htx, rfl⟩ := exec_committed ho hdb
              rw [hprog] at hsafe'
              obtain ⟨hG, hrest⟩ := hsafe' _ haround
              have hok := hpermits th hth next hprog
              refine ⟨?_, hthreads (.commit th.tx .refl haround.sound hG) ?_⟩
              · exact htrace.extend (.commit th.tx .refl haround.sound ⟨hok, hG⟩)
              · rw [hnext, htx]
                exact hrest
      | abort i e =>
          obtain ⟨th, hth, -, rfl⟩ := step_abort hstep
          refine ⟨htrace, ?_⟩
          intro j th' hth'
          rw [List.getElem?_set] at hth'
          split at hth'
          · next hij =>
              split at hth'
              · cases hth'
                subst hij
                obtain ⟨w, hborn, hnow, -⟩ := hkept i th hth
                exact ⟨w, hborn, hnow, trivial⟩
              · cases hth'
          · exact hkept j th' hth'
      | tick n =>
          cases hstep
          exact ⟨htrace.extend (.tick n .refl),
            fun j th hth => (hkept j th hth).later (.tick n .refl)⟩

end State

end Orgistry.ReadCommitted
