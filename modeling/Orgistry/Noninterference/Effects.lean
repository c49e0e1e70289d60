import Orgistry.Noninterference.Store

/-!
# What transactions achieve

Rules for a transaction that runs alone: what holds before it, and what holds of its
answer and of the store when it goes through.
-/

namespace Orgistry.Noninterference

variable {C : Catalog} {E α β : Type}

/-- When the transaction goes through from a store with `Pre`, its answer and the store
that it leaves satisfy `Post`. -/
def Achieves (Pre : Store C → Prop) (op : Transaction C E α) (Post : α → Store C → Prop) : Prop :=
  ∀ s a s', Pre s → op s = .ok (a, s') → Post a s'

section Rules

variable {Pre : Store C → Prop} {Post : α → Store C → Prop} {Mid : β → Store C → Prop}

theorem achieves_throw (e : E) : Achieves Pre (throw e : Transaction C E α) Post := by
  intro s a s' hs h
  cases h

theorem achieves_pure {a : α} (h : ∀ s, Pre s → Post a s) :
    Achieves Pre (pure a : Transaction C E α) Post := by
  intro s b s' hs hok
  obtain ⟨rfl, rfl⟩ := Prod.mk.inj (Except.ok.inj hok)
  exact h s hs

theorem achieves_query {f : Store C → α} (h : ∀ s, Pre s → Post (f s) s) :
    Achieves Pre (query f : Transaction C E α) Post := by
  intro s b s' hs hok
  obtain ⟨rfl, rfl⟩ := Prod.mk.inj (Except.ok.inj hok)
  exact h s hs

theorem achieves_bind {op : Transaction C E β} {k : β → Transaction C E α}
    (hop : Achieves Pre op Mid) (hk : ∀ b, Achieves (Mid b) (k b) Post) :
    Achieves Pre (op >>= k) Post := by
  intro s a s'' hs h
  change (op s).bind (fun r => k r.1 r.2) = _ at h
  cases hfirst : op s with
  | error e =>
      rw [hfirst] at h
      cases h
  | ok r =>
      rw [hfirst] at h
      exact hk r.1 r.2 a s'' (hop s r.1 r.2 hs hfirst) h

theorem achieves_ite {p : Prop} [Decidable p] {op op' : Transaction C E α}
    (hop : p → Achieves Pre op Post) (hop' : ¬p → Achieves Pre op' Post) :
    Achieves Pre (if p then op else op') Post := by
  split
  · next hp => exact hop hp
  · next hp => exact hop' hp

theorem Achieves.weaken {op : Transaction C E α} {Pre' : Store C → Prop}
    {Post' : α → Store C → Prop} (h : Achieves Pre op Post) (hpre : ∀ s, Pre' s → Pre s)
    (hpost : ∀ a s, Post a s → Post' a s) : Achieves Pre' op Post' :=
  fun s a s' hs hok => hpost a s' (h s a s' (hpre s hs) hok)

/-- A row that was found stands in the table and satisfies the condition. -/
theorem achieves_find {t : C.Table} {p : C.Row t → Bool}
    {Post : Option (C.Row t) → Store C → Prop} (hnone : ∀ s, Pre s → Post none s)
    (hsome : ∀ s row, Pre s → row ∈ s t → p row → Post (some row) s) :
    Achieves Pre (find t p : Transaction C E _) Post := by
  refine achieves_query fun s hs => ?_
  cases hfound : ((s t).filter p).head? with
  | none => exact hnone s hs
  | some row =>
      have hrow := List.mem_filter.mp (List.mem_of_head? hfound)
      exact hsome s row hs hrow.1 hrow.2

theorem achieves_countWhere {t : C.Table} {p : C.Row t → Bool} {Post : ℕ → Store C → Prop}
    (h : ∀ s n, Pre s → Post n s) : Achieves Pre (countWhere t p : Transaction C E ℕ) Post :=
  achieves_query fun s hs => h s _ hs

theorem achieves_updateWhere {t : C.Table} {violation dangling : E} {p : C.Row t → Bool}
    {f : C.Row t → C.Row t} {Post : Unit → Store C → Prop}
    (h : ∀ s, Pre s → (∀ s', s' = s.updated t p f → (s.Valid → s'.Valid) → Post () s')) :
    Achieves Pre (updateWhere t violation dangling p f) Post := by
  intro s a s' hs hok
  obtain ⟨rfl, hpairwise, -⟩ := updateWhere_eq_ok hok
  refine h s hs _ rfl fun hvalid t' => ?_
  by_cases ht : t' = t
  · subst ht
    exact hpairwise
  · rw [Store.updated, Store.set_of_ne _ _ ht]
    exact hvalid t'

theorem achieves_insertRow {t : C.Table} {violation : List (C.Row t) → E} {dangling : E}
    {row : C.Row t} {Post : Unit → Store C → Prop}
    (h : ∀ s, Pre s → (∀ other ∈ s t, C.clash row other = false) → Post () (s.added t row)) :
    Achieves Pre (insertRow t violation dangling row) Post := by
  intro s a s' hs hok
  obtain ⟨rfl, hfresh, -⟩ := insertRow_eq_ok hok
  exact h s hs hfresh

end Rules

end Orgistry.Noninterference
