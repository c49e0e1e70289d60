import Orgistry.ReadCommitted.Rules

/-!
# What a program has learned

A program has learned a lasting fact when it never ends without it.  What a first part
has learned, everything that follows knows too, whatever it does.
-/

namespace Orgistry.ReadCommitted

variable {S : Schema} {G : Tx S → Database S → Prop} {α β : Type}
  {tx : Tx S} {w w' : History S} {P : History S → Prop}

/-- The fact does not depend on what others, or the program itself, commit later. -/
def Lasting (G : Tx S → Database S → Prop) (P : History S → Prop) : Prop :=
  ∀ w w', Moves G w w' → P w → P w'

/-- Two analyses of a locking statement, with a lasting fact. -/
theorem ScanSafe.combine (hP : Lasting G P) {t : S.Table} {p : S.Row t → Bool} {op : RowOp S t}
    {K₁ K₂ K : List (S.Row t) → Tx S → History S → Prop}
    (hK : ∀ got tx w, K₁ got tx w → K₂ got tx w → P w → K got tx w) {todo : List S.Id}
    {got : List (S.Row t)} (h₁ : ScanSafe G p op K₁ todo got tx w)
    (h₂ : ScanSafe G p op K₂ todo got tx w) (hknown : P w) :
    ScanSafe G p op K todo got tx w := by
  induction todo generalizing got tx w with
  | nil =>
      exact fun w' haround => hK _ _ _ (h₁ w' haround) (h₂ w' haround)
        (hP _ _ haround.moves hknown)
  | cons x todo ih =>
      intro w' haround
      have hrow₁ := h₁ w' haround
      have hrow₂ := h₂ w' haround
      have hknown' := hP _ _ haround.moves hknown
      split
      · next hnone =>
          simp only [hnone] at hrow₁ hrow₂
          exact ih hrow₁ hrow₂ hknown'
      · next row hsome =>
          simp only [hsome] at hrow₁ hrow₂
          dsimp only
          split
          · next hp =>
              rw [if_pos hp] at hrow₁ hrow₂
              exact ih hrow₁ hrow₂ hknown'
          · next hp =>
              rw [if_neg hp] at hrow₁ hrow₂
              exact ih hrow₁ hrow₂ hknown'

/-- Two analyses of a program, with a lasting fact. -/
theorem Safe.combine (hP : Lasting G P) {prog : Prog S α}
    {Q₁ Q₂ Q : α → Tx S → History S → Prop}
    (hQ : ∀ a tx w, Q₁ a tx w → Q₂ a tx w → P w → Q a tx w) (h₁ : Safe G prog Q₁ tx w)
    (h₂ : Safe G prog Q₂ tx w) (hknown : P w) : Safe G prog Q tx w := by
  induction prog generalizing tx w with
  | ret a => exact hQ _ _ _ h₁ h₂ hknown
  | raise => trivial
  | now next ih =>
      exact fun w' haround => ih _ (h₁ w' haround) (h₂ w' haround) (hP _ _ haround.moves hknown)
  | select t p next ih =>
      exact fun w' haround => ih _ (h₁ w' haround) (h₂ w' haround) (hP _ _ haround.moves hknown)
  | lock t p op next ih =>
      exact fun w' haround keys hkeys =>
        ScanSafe.combine hP (fun got _ _ hgot₁ hgot₂ hgot => ih got hgot₁ hgot₂ hgot)
          (h₁ w' haround keys hkeys) (h₂ w' haround keys hkeys) (hP _ _ haround.moves hknown)
  | scan t p op todo got next ih =>
      exact ScanSafe.combine hP (fun got _ _ hgot₁ hgot₂ hgot => ih got hgot₁ hgot₂ hgot) h₁ h₂
        hknown
  | acquire t x next ih =>
      exact fun w' haround => ih (h₁ w' haround) (h₂ w' haround) (hP _ _ haround.moves hknown)
  | insert t row duplicate next ihduplicate ih =>
      intro w' haround x hid hnone
      have hinsert₁ := h₁ w' haround x hid hnone
      have hinsert₂ := h₂ w' haround x hid hnone
      have hknown' := hP _ _ haround.moves hknown
      split
      · next hrejected =>
          rw [if_pos hrejected] at hinsert₁ hinsert₂
          exact ihduplicate hinsert₁ hinsert₂ hknown'
      · next hrejected =>
          rw [if_neg hrejected] at hinsert₁ hinsert₂
          exact fun hrefs => ih _ (hinsert₁ hrefs) (hinsert₂ hrefs) hknown'
  | commit next ih =>
      intro w' haround
      obtain ⟨hG, hnext₁⟩ := h₁ w' haround
      exact ⟨hG, ih hnext₁ (h₂ w' haround).2
        (hP _ _ (.commit tx haround.moves haround.sound hG) hknown)⟩
  | rollback next ih =>
      exact fun w' haround => ih (h₁ w' haround) (h₂ w' haround) (hP _ _ haround.moves hknown)
  | savepoint next ih =>
      exact fun w' haround => ih (h₁ w' haround) (h₂ w' haround) (hP _ _ haround.moves hknown)
  | rollbackTo next ih =>
      exact fun w' haround => ih (h₁ w' haround) (h₂ w' haround) (hP _ _ haround.moves hknown)

theorem Safe.mono {prog : Prog S α} {Q Q' : α → Tx S → History S → Prop}
    (hQ : ∀ a tx w, Q a tx w → Q' a tx w) (h : Safe G prog Q tx w) : Safe G prog Q' tx w :=
  Safe.combine (P := fun _ => True) (fun _ _ _ _ => trivial) (fun a tx w hq _ _ => hQ a tx w hq)
    h h trivial

/-- An analysis of a composition is one of its first part. -/
theorem Safe.of_bind {prog : Prog S α} {f : α → Prog S β} {Q : β → Tx S → History S → Prop}
    (h : Safe G (prog >>= f) Q tx w) : Safe G prog (fun a tx w => Safe G (f a) Q tx w) tx w := by
  change Safe G (prog.bind f) Q tx w at h
  induction prog generalizing tx w with
  | ret => exact h
  | raise => trivial
  | now next ih => exact fun w' haround => ih _ (h w' haround)
  | select t p next ih => exact fun w' haround => ih _ (h w' haround)
  | lock t p op next ih =>
      exact fun w' haround keys hkeys =>
        (h w' haround keys hkeys).mono fun got _ _ hgot => ih got hgot
  | scan t p op todo got next ih => exact ScanSafe.mono (fun got _ _ hgot => ih got hgot) h
  | acquire t x next ih => exact fun w' haround => ih (h w' haround)
  | insert t row duplicate next ihduplicate ih =>
      intro w' haround x hid hnone
      have hinsert := h w' haround x hid hnone
      split
      · next hrejected =>
          rw [if_pos hrejected] at hinsert
          exact ihduplicate hinsert
      · next hrejected =>
          rw [if_neg hrejected] at hinsert
          exact fun hrefs => ih _ (hinsert hrefs)
  | commit next ih => exact fun w' haround => ⟨(h w' haround).1, ih (h w' haround).2⟩
  | rollback next ih => exact fun w' haround => ih (h w' haround)
  | savepoint next ih => exact fun w' haround => ih (h w' haround)
  | rollbackTo next ih => exact fun w' haround => ih (h w' haround)

/-- Whatever else is known of its end, the program does not end without `P`. -/
def Learns (G : Tx S → Database S → Prop) (P : History S → Prop) (prog : Prog S α) (tx : Tx S)
    (w : History S) : Prop :=
  ∀ Q : α → Tx S → History S → Prop, Safe G prog Q tx w →
    Safe G prog (fun a tx' w' => Q a tx' w' ∧ P w') tx w

theorem Safe.learns {prog : Prog S α} (h : Safe G prog (fun _ _ w' => P w') tx w) :
    Learns G P prog tx w := fun _ hsafe =>
  Safe.combine (P := fun _ => True) (fun _ _ _ _ => trivial)
    (fun _ _ _ hQ hknown _ => ⟨hQ, hknown⟩) hsafe h trivial

/-- What is known at the beginning is known at the end. -/
theorem Safe.known (hP : Lasting G P) {prog : Prog S α} {Q : α → Tx S → History S → Prop}
    (h : Safe G prog Q tx w) (hknown : P w) :
    Safe G prog (fun a tx' w' => Q a tx' w' ∧ P w') tx w :=
  Safe.combine hP (fun _ _ _ hQ _ hknown => ⟨hQ, hknown⟩) h h hknown

/-- A first part that has learned the fact is enough. -/
theorem Learns.bind (hP : Lasting G P) {prog : Prog S α} (h : Learns G P prog tx w)
    (f : α → Prog S β) : Learns G P (prog >>= f) tx w := fun _ hsafe =>
  safe_bind ((h _ hsafe.of_bind).mono fun _ _ _ hnext => hnext.1.known hP hnext.2)

/-- What is known already need not be learned. -/
theorem Learns.known (hP : Lasting G P) (prog : Prog S α) (hknown : P w) : Learns G P prog tx w :=
  fun _ hsafe => hsafe.known hP hknown

/-- The second part may learn the fact from what the first part has found out. -/
theorem Learns.of_bind {prog : Prog S α} {f : α → Prog S β}
    (h : Safe G prog (fun a tx' w' => Learns G P (f a) tx' w') tx w) :
    Learns G P (prog >>= f) tx w := fun _ hsafe =>
  safe_bind (Safe.combine (P := fun _ => True) (fun _ _ _ _ => trivial)
    (fun _ _ _ hnext hlearns _ => hlearns _ hnext) hsafe.of_bind h trivial)

end Orgistry.ReadCommitted
