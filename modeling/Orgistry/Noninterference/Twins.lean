import Orgistry.Noninterference.Store

/-!
# Transactions that cannot tell two stores apart

A tenant owns some rows of a store, and some tables are common to all tenants.
Two stores are twins when they agree on what the tenant sees.  An isolated
transaction answers alike on twins, leaves twins behind, and changes no row that
the tenant does not own.
-/

namespace Orgistry.Noninterference

/-- A tenant, whose rows point to rows that it sees. -/
structure Tenant (C : Catalog) where
  owns : {t : C.Table} → C.Row t → Bool
  common : C.Table → Bool
  refs_seen : ∀ {t : C.Table} (row : C.Row t), owns row → ∀ ref ∈ C.refs row,
    ∀ target, ref.2 target → common ref.1 ∨ owns target

variable {C : Catalog} {E α β : Type}

/-- The tenant's own rows and those of the common tables. -/
def Tenant.sees (T : Tenant C) {t : C.Table} (row : C.Row t) : Bool := T.common t || T.owns row

theorem Tenant.sees_of_owns {T : Tenant C} {t : C.Table} {row : C.Row t} (h : T.owns row) :
    T.sees row := by
  simp [sees, h]

/-- Two valid stores with the same visible rows, whose other rows are `Spare`. -/
structure Twins (T : Tenant C) (Spare : {t : C.Table} → C.Row t → Prop) (s s' : Store C) :
    Prop where
  valid : s.Valid
  valid' : s'.Valid
  agree : ∀ {t : C.Table} (row : C.Row t), T.sees row → (row ∈ s t ↔ row ∈ s' t)
  spare : ∀ {t : C.Table}, ∀ row ∈ s t, ¬T.sees row → Spare row
  spare' : ∀ {t : C.Table}, ∀ row ∈ s' t, ¬T.sees row → Spare row

/-- The rows that the tenant does not own are the same. -/
def Kept (T : Tenant C) (s after : Store C) : Prop :=
  ∀ (t : C.Table) (row : C.Row t), ¬T.owns row → (row ∈ after t ↔ row ∈ s t)

variable {T : Tenant C} {Spare : {t : C.Table} → C.Row t → Prop} {s s' : Store C}

theorem Twins.symm (h : Twins T Spare s s') : Twins T Spare s' s :=
  ⟨h.valid', h.valid, fun row hsees => (h.agree row hsees).symm, h.spare', h.spare⟩

theorem Kept.refl (s : Store C) : Kept T s s := fun _ _ _ => .rfl

theorem Kept.trans {a b c : Store C} (hab : Kept T a b) (hbc : Kept T b c) : Kept T a c :=
  fun t row hrow => (hbc t row hrow).trans (hab t row hrow)

/-- What is left of twins are twins when they agree again. -/
theorem Twins.of_kept {after after' : Store C} (h : Twins T Spare s s') (hvalid : after.Valid)
    (hvalid' : after'.Valid) (hkept : Kept T s after) (hkept' : Kept T s' after')
    (hagree : ∀ {t : C.Table} (row : C.Row t), T.sees row → (row ∈ after t ↔ row ∈ after' t)) :
    Twins T Spare after after' where
  valid := hvalid
  valid' := hvalid'
  agree := hagree
  spare row hrow hsees :=
    h.spare row ((hkept _ row fun howns => hsees (T.sees_of_owns howns)).mp hrow) hsees
  spare' row hrow hsees :=
    h.spare' row ((hkept' _ row fun howns => hsees (T.sees_of_owns howns)).mp hrow) hsees

/-- The foreign keys of own rows resolve alike. -/
theorem Twins.resolves (h : Twins T Spare s s') {t : C.Table} {row : C.Row t}
    (howns : T.owns row) : s.resolves row = s'.resolves row := by
  have href_iff : ∀ ref ∈ C.refs row,
      (s ref.1).any ref.2 = true ↔ (s' ref.1).any ref.2 = true := by
    intro ref href
    have hsees : ∀ target, ref.2 target → T.sees target := fun target htarget => by
      simpa [Tenant.sees] using T.refs_seen row howns ref href target htarget
    simp only [List.any_eq_true]
    constructor
    · rintro ⟨target, hmem, htarget⟩
      exact ⟨target, (h.agree target (hsees target htarget)).mp hmem, htarget⟩
    · rintro ⟨target, hmem, htarget⟩
      exact ⟨target, (h.agree target (hsees target htarget)).mpr hmem, htarget⟩
  rw [Bool.eq_iff_iff, Store.resolves, Store.resolves, List.all_eq_true, List.all_eq_true]
  exact forall₂_congr href_iff

/-- How two runs of one transaction on twins compare: both throw the same, or
both answer the same and leave twins behind. -/
inductive Alike (T : Tenant C) (Spare : {t : C.Table} → C.Row t → Prop)
    (Post : α → Store C → Prop) (s s' : Store C) :
    Except E (α × Store C) → Except E (α × Store C) → Prop
  | error (e : E) : Alike T Spare Post s s' (.error e) (.error e)
  | ok {a : α} {after after' : Store C} (htwins : Twins T Spare after after')
      (hkept : Kept T s after) (hkept' : Kept T s' after') (hpost : Post a after)
      (hpost' : Post a after') : Alike T Spare Post s s' (.ok (a, after)) (.ok (a, after'))

/-- The transaction is isolated on stores that meet `Pre`. -/
def Isolated (T : Tenant C) (Spare : {t : C.Table} → C.Row t → Prop) (Pre : Store C → Prop)
    (op : Transaction C E α) (Post : α → Store C → Prop) : Prop :=
  ∀ ⦃s s' : Store C⦄, Twins T Spare s s' → Pre s → Pre s' →
    Alike T Spare Post s s' (op s) (op s')

variable {Pre Pre' : Store C → Prop} {Mid Post Post' : α → Store C → Prop}
  {op : Transaction C E α}

theorem isolated_pure (a : α) (h : ∀ s, Pre s → Post a s) :
    Isolated T Spare Pre (pure a : Transaction C E α) Post :=
  fun s s' htwins hs hs' => .ok htwins (.refl s) (.refl s') (h s hs) (h s' hs')

theorem isolated_throw (e : E) : Isolated T Spare Pre (throw e : Transaction C E α) Post :=
  fun _ _ _ _ _ => .error e

/-- Isolated operations compose. -/
theorem isolated_bind {f : α → Transaction C E β} {Post : β → Store C → Prop}
    (hop : Isolated T Spare Pre op Mid) (hf : ∀ a, Isolated T Spare (Mid a) (f a) Post) :
    Isolated T Spare Pre (op >>= f) Post := by
  intro s s' htwins hs hs'
  change Alike T Spare Post s s' ((op s).bind fun r => f r.1 r.2) ((op s').bind fun r => f r.1 r.2)
  have halike := hop htwins hs hs'
  generalize op s = first at halike
  generalize op s' = first' at halike
  cases halike with
  | error e => exact .error e
  | ok htwins hkept hkept' hpost hpost' =>
      change Alike T Spare Post s s' (f _ _) (f _ _)
      have hrest := hf _ htwins hpost hpost'
      revert hrest
      generalize f _ _ = second
      generalize f _ _ = second'
      intro hrest
      cases hrest with
      | error e => exact .error e
      | ok htwins hkept₂ hkept₂' hpost hpost' =>
          exact .ok htwins (hkept.trans hkept₂) (hkept'.trans hkept₂') hpost hpost'

/-- `isolated_bind` when what follows has nothing to know about the store. -/
theorem isolated_bind_forget {f : α → Transaction C E β} {Post : β → Store C → Prop}
    (hop : Isolated T Spare Pre op fun _ _ => True)
    (hf : ∀ a, Isolated T Spare (fun _ => True) (f a) Post) :
    Isolated T Spare Pre (op >>= f) Post :=
  isolated_bind hop hf

theorem Isolated.consequence (h : Isolated T Spare Pre op Post) (hpre : ∀ s, Pre' s → Pre s)
    (hpost : ∀ a s, Post a s → Post' a s) : Isolated T Spare Pre' op Post' := by
  intro s s' htwins hs hs'
  have halike := h htwins (hpre s hs) (hpre s' hs')
  generalize op s = first at halike ⊢
  generalize op s' = first' at halike ⊢
  cases halike with
  | error e => exact .error e
  | ok htwins hkept hkept' hp hp' => exact .ok htwins hkept hkept' (hpost _ _ hp) (hpost _ _ hp')

theorem isolated_ite {c : Prop} [Decidable c] {op' : Transaction C E α}
    (hthen : Isolated T Spare Pre op Post) (helse : Isolated T Spare Pre op' Post) :
    Isolated T Spare Pre (if c then op else op') Post := by
  split
  · exact hthen
  · exact helse

/-- A query that reads the same from twins. -/
theorem isolated_query {f : Store C → α} (h : ∀ s s', Twins T Spare s s' → f s = f s') :
    Isolated T Spare Pre (query f : Transaction C E α) fun _ => Pre := by
  intro s s' htwins hs hs'
  change Alike T Spare _ s s' (.ok (f s, s)) (.ok (f s', s'))
  rw [← h s s' htwins]
  exact .ok htwins (.refl s) (.refl s') hs hs'

section Scoped

variable {t : C.Table} {p : C.Row t → Bool}

/-- Visible rows are selected alike, up to their order. -/
theorem Twins.filter_perm (h : Twins T Spare s s') (hscope : ∀ row, p row → T.sees row) :
    ((s t).filter p).Perm ((s' t).filter p) := by
  refine (List.perm_ext_iff_of_nodup ((h.valid.nodup t).filter p)
    ((h.valid'.nodup t).filter p)).mpr fun row => ?_
  simp only [List.mem_filter, and_congr_left_iff]
  exact fun hp => h.agree row (hscope row hp)

theorem isolated_countWhere (hscope : ∀ row, p row → T.sees row) :
    Isolated T Spare Pre (countWhere t p : Transaction C E ℕ) fun _ => Pre :=
  isolated_query fun _ _ htwins => (htwins.filter_perm hscope).length_eq

/-- The only row that a predicate selects, when rows with it clash. -/
theorem find_eq_some (hvalid : s.Valid) (hunique : ∀ a b, p a → p b → C.clash a b = true)
    {row : C.Row t} : ((s t).filter p).head? = some row ↔ row ∈ s t ∧ p row := by
  constructor
  · intro hhead
    exact List.mem_filter.mp (List.mem_of_head? hhead)
  · intro hrow
    cases hfilter : (s t).filter p with
    | nil => exact absurd (List.mem_filter.mpr hrow) (by simp [hfilter])
    | cons first rest =>
        have hfirst : first ∈ s t ∧ p first := List.mem_filter.mp (by simp [hfilter])
        rw [hvalid.eq_of_clash hfirst.1 hrow.1 (hunique _ _ hfirst.2 hrow.2)]
        rfl

/-- A `LIMIT 1` query by a unique index that only selects visible rows finds the
same row. -/
theorem Twins.head_eq (h : Twins T Spare s s') (hunique : ∀ a b, p a → p b → C.clash a b = true)
    (hscope : ∀ row, p row → T.sees row) :
    ((s t).filter p).head? = ((s' t).filter p).head? := by
  refine Option.ext fun row => ?_
  rw [find_eq_some h.valid hunique, find_eq_some h.valid' hunique]
  exact and_congr_left fun hp => h.agree row (hscope row hp)

/-- A `LIMIT 1` query by a unique index, and what comes after it: a row of
somebody else is as good as none. -/
theorem isolated_bind_find {k : Option (C.Row t) → Transaction C E β}
    {Post : β → Store C → Prop} (hunique : ∀ a b, p a → p b → C.clash a b = true)
    (hforeign : ∀ row, p row → ¬T.sees row → k (some row) = k none)
    (hnone : Isolated T Spare (fun s => Pre s ∧ ∀ row ∈ s t, p row → ¬T.sees row) (k none) Post)
    (hsome : ∀ row, p row → T.sees row →
      Isolated T Spare (fun s => Pre s ∧ row ∈ s t) (k (some row)) Post) :
    Isolated T Spare Pre (find t p >>= k) Post := by
  intro s s' htwins hs hs'
  change Alike T Spare Post s s' (k ((s t).filter p).head? s) (k ((s' t).filter p).head? s')
  -- what the continuation does without a visible row
  have hblind : ∀ {u : Store C}, (∀ row ∈ u t, p row → ¬T.sees row) →
      k ((u t).filter p).head? = k none := by
    intro u hall
    cases hhead : ((u t).filter p).head? with
    | none => rfl
    | some row =>
        obtain ⟨hrow, hp⟩ := List.mem_filter.mp (List.mem_of_head? hhead)
        exact hforeign row hp (hall row hrow hp)
  by_cases hvisible : ∃ row ∈ s t, p row ∧ T.sees row
  · obtain ⟨row, hrow, hp, hsees⟩ := hvisible
    have hrow' := (htwins.agree row hsees).mp hrow
    rw [(find_eq_some htwins.valid hunique).mpr ⟨hrow, hp⟩,
      (find_eq_some htwins.valid' hunique).mpr ⟨hrow', hp⟩]
    exact hsome row hp hsees htwins ⟨hs, hrow⟩ ⟨hs', hrow'⟩
  · have hall : ∀ row ∈ s t, p row → ¬T.sees row :=
      fun row hrow hp hsees => hvisible ⟨row, hrow, hp, hsees⟩
    have hall' : ∀ row ∈ s' t, p row → ¬T.sees row :=
      fun row hrow hp hsees => hall row ((htwins.agree row hsees).mpr hrow) hp hsees
    rw [hblind hall, hblind hall']
    exact hnone htwins ⟨hs, hall⟩ ⟨hs', hall'⟩

/-- A `LIMIT 1` query by a unique index that only selects visible rows. -/
theorem isolated_bind_find_scoped {k : Option (C.Row t) → Transaction C E β}
    {Post : β → Store C → Prop} (hunique : ∀ a b, p a → p b → C.clash a b = true)
    (hscope : ∀ row, p row → T.sees row) (hnone : Isolated T Spare Pre (k none) Post)
    (hsome : ∀ row, p row → Isolated T Spare (fun s => Pre s ∧ row ∈ s t) (k (some row)) Post) :
    Isolated T Spare Pre (find t p >>= k) Post :=
  isolated_bind_find hunique (fun row hp hsees => absurd (hscope row hp) hsees)
    (hnone.consequence (fun _ hs => hs.1) fun _ _ hpost => hpost) fun row hp _ => hsome row hp

/-- The same query when it is known which row it finds. -/
theorem isolated_bind_find_known {k : Option (C.Row t) → Transaction C E β}
    {Post : β → Store C → Prop} (row : C.Row t)
    (hunique : ∀ a b, p a → p b → C.clash a b = true) (hp : p row)
    (hpre : ∀ s, Pre s → row ∈ s t) (hsome : Isolated T Spare Pre (k (some row)) Post) :
    Isolated T Spare Pre (find t p >>= k) Post := by
  intro s s' htwins hs hs'
  change Alike T Spare Post s s' (k ((s t).filter p).head? s) (k ((s' t).filter p).head? s')
  rw [(find_eq_some htwins.valid hunique).mpr ⟨hpre s hs, hp⟩,
    (find_eq_some htwins.valid' hunique).mpr ⟨hpre s' hs', hp⟩]
  exact hsome htwins hs hs'

end Scoped

/-! ## Changes -/

section Changes

variable {t : C.Table} {p : C.Row t → Bool} {f : C.Row t → C.Row t}

theorem mem_updated {row : C.Row t} : row ∈ s.updated t p f t ↔
    ∃ old ∈ s t, (if p old then f old else old) = row := by
  simp [Store.updated]

theorem mem_added {added row : C.Row t} : row ∈ s.added t added t ↔ row ∈ s t ∨ row = added := by
  simp [Store.added]

/-- An update of own rows that stay own keeps the rows of others. -/
theorem kept_updated (howns : ∀ row ∈ s t, p row → T.owns row)
    (hstays : ∀ row, T.owns row → T.owns (f row)) : Kept T s (s.updated t p f) := by
  intro t' row hforeign
  by_cases ht : t' = t
  · subst ht
    rw [mem_updated]
    constructor
    · rintro ⟨old, hold, rfl⟩
      split at hforeign
      · next hp => exact absurd (hstays old (howns old hold hp)) hforeign
      · next hp => simpa [hp] using hold
    · intro hrow
      exact ⟨row, hrow, if_neg fun hp => hforeign (howns row hrow hp)⟩
  · rw [Store.updated, Store.set_of_ne _ _ ht]

theorem kept_added {row : C.Row t} (howns : T.owns row) : Kept T s (s.added t row) := by
  intro t' other hforeign
  by_cases ht : t' = t
  · subst ht
    rw [mem_added]
    constructor
    · rintro (hmem | rfl)
      · exact hmem
      · exact absurd howns hforeign
    · exact .inl
  · rw [Store.added, Store.set_of_ne _ _ ht]

/-- An update carries the agreement of twins over. -/
theorem Twins.updated (h : Twins T Spare s s') (howns : ∀ row ∈ s t, p row → T.owns row)
    {t' : C.Table} {row : C.Row t'} (hsees : T.sees row) (hrow : row ∈ s.updated t p f t') :
    row ∈ s'.updated t p f t' := by
  by_cases ht : t' = t
  · subst ht
    rw [mem_updated] at hrow ⊢
    obtain ⟨old, hold, hnew⟩ := hrow
    refine ⟨old, (h.agree old ?_).mp hold, hnew⟩
    split at hnew
    · next hp => exact T.sees_of_owns (howns old hold hp)
    · exact hnew ▸ hsees
  · rw [Store.updated, Store.set_of_ne _ _ ht] at hrow ⊢
    exact (h.agree row hsees).mp hrow

/-- An `UPDATE` of own rows that stay own and make no new clashes. -/
theorem isolated_updateWhere {violation dangling : E} {Post : Store C → Prop}
    (howns : ∀ s, s.Valid → Pre s → ∀ row ∈ s t, p row → T.owns row)
    (hstays : ∀ row, T.owns row → T.owns (f row))
    (hclash : ∀ a b, C.clash (f a) b = true → C.clash a b = true)
    (hpost : ∀ s, Pre s → Post (s.updated t p f)) :
    Isolated T Spare Pre (updateWhere t violation dangling p f) fun _ => Post := by
  intro s s' htwins hs hs'
  have howned := howns s htwins.valid hs
  have howned' := howns s' htwins.valid' hs'
  have hvalid := htwins.valid.updated (p := p) hclash
  have hvalid' := htwins.valid'.updated (p := p) hclash
  -- the selected rows are visible, and so is where their new versions point to
  have hrefs : ∀ {u u' : Store C}, Twins T Spare u u' → (∀ row ∈ u' t, p row → T.owns row) →
      ((u t).all fun row => !p row || u.resolves (f row)) = true →
      ((u' t).all fun row => !p row || u'.resolves (f row)) = true := by
    intro u u' huu' howned hall
    rw [List.all_eq_true] at hall ⊢
    intro row hrow
    by_cases hp : p row = true
    · have hrowns := howned row hrow hp
      rw [← huu'.resolves (hstays row hrowns)]
      exact hall row ((huu'.agree row (T.sees_of_owns hrowns)).mpr hrow)
    · simp [hp]
  have hall : ((s t).all fun row => !p row || s.resolves (f row)) =
      (s' t).all fun row => !p row || s'.resolves (f row) :=
    Bool.eq_iff_iff.mpr ⟨hrefs htwins howned', hrefs htwins.symm howned⟩
  simp only [updateWhere]
  rw [if_pos (hvalid t), if_pos (hvalid' t), hall]
  split
  · have hkept := kept_updated howned hstays
    have hkept' := kept_updated howned' hstays
    exact .ok (htwins.of_kept hvalid hvalid' hkept hkept' fun row hsees =>
        ⟨htwins.updated howned hsees, htwins.symm.updated howned' hsees⟩)
      hkept hkept' (hpost s hs) (hpost s' hs')
  · exact .error _

/-- An `INSERT` of an own row that no row of others clashes with. -/
theorem isolated_insertRow {violation : List (C.Row t) → E} {dangling : E} {row : C.Row t}
    {Post : Store C → Prop} (howns : T.owns row)
    (hspare : ∀ other : C.Row t, Spare other → ¬T.sees other → C.clash row other = false)
    (hviolation : ∀ rows rows', rows.Perm rows' → violation rows = violation rows')
    (hpost : ∀ s, Pre s → Post (s.added t row)) :
    Isolated T Spare Pre (insertRow t violation dangling row) fun _ => Post := by
  intro s s' htwins hs hs'
  -- the rows that stand in the way are visible
  have hclashes : ((s t).filter (C.clash row)).Perm ((s' t).filter (C.clash row)) := by
    refine (List.perm_ext_iff_of_nodup ((htwins.valid.nodup t).filter _)
      ((htwins.valid'.nodup t).filter _)).mpr fun other => ?_
    simp only [List.mem_filter, and_congr_left_iff]
    intro hclash
    by_cases hsees : T.sees other
    · exact htwins.agree other hsees
    · constructor
      · intro hmem
        simp [hspare other (htwins.spare other hmem hsees) hsees] at hclash
      · intro hmem
        simp [hspare other (htwins.spare' other hmem hsees) hsees] at hclash
  have hsame : (s t).any (C.clash row) = (s' t).any (C.clash row) := by
    rw [Bool.eq_iff_iff, List.any_eq_true, List.any_eq_true]
    simpa only [List.mem_filter] using exists_congr fun other => hclashes.mem_iff
  simp only [insertRow]
  rw [← hsame, ← htwins.resolves howns, hviolation _ _ hclashes]
  split
  · exact .error _
  · next hfree =>
      have hnone : ∀ other ∈ s t, C.clash row other = false := by simpa using hfree
      have hnone' : ∀ other ∈ s' t, C.clash row other = false := by
        rw [hsame] at hfree
        simpa using hfree
      split
      · refine .ok (htwins.of_kept (htwins.valid.added hnone) (htwins.valid'.added hnone')
          (kept_added howns) (kept_added howns) ?_) (kept_added howns) (kept_added howns)
          (hpost s hs) (hpost s' hs')
        intro t' other hsees
        by_cases ht : t' = t
        · subst ht
          rw [mem_added, mem_added, htwins.agree other hsees]
        · rw [Store.added, Store.added, Store.set_of_ne _ _ ht, Store.set_of_ne _ _ ht]
          exact htwins.agree other hsees
      · exact .error _

end Changes

end Orgistry.Noninterference
