import Orgistry.Commits.Auth

/-!
# The commits of mailed account credentials
-/

namespace Orgistry.Model

open ReadCommitted

variable {cfg : Config} {tx : Tx orgistry} {w w' : History orgistry}

/-- The older tokens of a user, retired beside `token`, are not `token`. -/
theorem AccountToken.id_ne_of_sibling {row token : AccountToken}
    (h : row.userId = token.userId && row.id ≠ token.id && row.unsettled) : row.id ≠ token.id := by
  simp only [ne_eq, decide_not, Bool.and_eq_true, decide_eq_true_eq, Bool.not_eq_eq_eq_not,
    Bool.not_true, decide_eq_false_iff_not] at h
  exact h.1.2

namespace EmailVerificationRepository

/-- No lock keeps another issuance out between the `UPDATE` and the `INSERT`. -/
theorem safe_issueVerificationToken {params : IssueTokenParams}
    {Q : Unit → Tx orgistry → History orgistry → Prop}
    (h : ∀ w', Moves (Guarantee cfg) w w' → Q () .begin w') :
    Safe (Guarantee cfg) (issueVerificationToken params) Q .begin w := by
  refine safe_transaction (safe_bind (safe_update fun w₁ got tx₁ w₂ h₁ hretired h₂ => ?_))
  refine safe_bind (safe_insert fun w₃ x h₃ hid hinsertable => ?_)
  intro w₄ h₄
  have hrest := h₂.moves.trans (h₃.moves.trans h₄.moves)
  have hG : Guarantee cfg (tx₁.add (t := Table.emailVerificationTokens) (params.row x) w₃.now)
      w₄.now := by
    refine LegalWrites.insert (LegalWrites.update legalWrites_none hretired h₄.sound
      (Tx.locks_subset_add _ _ _) (fun _ _ => rfl) ?_) hinsertable h₄.sound
      (List.Subset.refl _) (AccountTokenStep.issue params (h₄.moves.get_ne_none ?_) ?_)
    · intro old hold hp
      simp at hp
      exact AccountTokenStep.invalidate hp.2
    · have hrefs := hinsertable.refs (.users, params.userId)
        (by simp [rowRefs, IssueTokenParams.row])
      rw [hretired.view_of_ne (by simp)] at hrefs
      exact hrefs
    · refine ⟨w₁.now, by simp [hretired.snapshots], ?_⟩
      intro y other hafter howner hne hshown
      refine hretired.retires h₄.sound (Tx.locks_subset_add _ _ _) rfl
        ((Writes.get_put _ _ _).trans (if_neg hne)) (R := AccountToken.Later)
        (q := fun token => token.userId = params.userId) (verificationToken_persists hrest) ?_
        AccountToken.Later.settled ?_ ?_ ?_ hafter howner
      · exact fun hlater hq => hlater.userId.symm.trans hq
      · intro token howner
        by_cases hunsettled : token.unsettled
        · exact .inr (by simp [howner, hunsettled])
        · exact .inl (by simpa using hunsettled)
      · exact fun _ => AccountToken.unsettled_invalidate _ _
      · exact fun hstored => hshown.resolve_right (by simp [hstored])
  exact ⟨hG, h _ (h₁.moves.trans (h₂.moves.trans (h₃.moves.trans (commits h₄ hG))))⟩

/-- The token and the user are locked until the verification commits. -/
theorem safe_completeVerification {tokenHash : TokenHash} {now : ℕ}
    {Q : CompleteVerificationResult → Tx orgistry → History orgistry → Prop}
    (hnow : now ≤ w.now.clock) (h : ∀ w' result, Moves (Guarantee cfg) w w' → Q result .begin w') :
    Safe (Guarantee cfg) (completeVerification tokenHash now) Q .begin w := by
  refine safe_transaction (safe_bind (safe_selectOneForUpdate
    fun w₁ got tx₁ w₂ h₁ hlocked h₂ => ?_))
  have hmoves₂ := h₁.moves.trans h₂.moves
  have hwrites : tx₁.writes = Writes.none := hlocked.writes
  cases hpresented : got.head? with
  | none => exact commits_nothing hwrites fun w' hmoves => h w' _ (hmoves₂.trans hmoves)
  | some token =>
      change Safe (Guarantee cfg) (if _ then _ else if _ then _ else _) _ tx₁ w₂
      split
      · exact commits_nothing hwrites fun w' hmoves => h w' _ (hmoves₂.trans hmoves)
      · next hunused =>
          split
          · exact commits_nothing hwrites fun w' hmoves => h w' _ (hmoves₂.trans hmoves)
          · next hunexpired =>
              refine safe_bind (safe_selectOneForUpdate fun w₃ got' tx₂ w₄ h₃ huser h₄ => ?_)
              have hmoves₄ := hmoves₂.trans (h₃.moves.trans h₄.moves)
              have hwrites₂ : tx₂.writes = Writes.none := huser.writes.trans hwrites
              cases hfound : got'.head? with
              | none =>
                  exact commits_nothing hwrites₂ fun w' hmoves => h w' _ (hmoves₄.trans hmoves)
              | some user =>
                  change Safe (Guarantee cfg) (if _ then _ else _) _ tx₂ w₄
                  split
                  · refine safe_bind (safe_update fun w₅ got₃ tx₃ w₆ h₅ hconsumed h₆ => ?_)
                    refine safe_bind (safe_update fun w₇ got₄ tx₄ w₈ h₇ hretired h₈ => ?_)
                    have hrest := h₅.moves.trans (h₆.moves.trans (h₇.moves.trans h₈.moves))
                    have hmoves₈ := hmoves₄.trans hrest
                    have hlocks₃ := List.Subset.trans huser.locks hconsumed.locks
                    have hcurrent : ∀ {final : Tx orgistry} {db : Database orgistry},
                        final.Sound db → tx₁.locks ⊆ final.locks →
                          db.get .emailVerificationTokens token.id = some token :=
                      fun hsound hlocks =>
                        (locked_current hlocked hsound hlocks hpresented rfl).1
                    -- the writes on the token table, whenever the transaction commits
                    have hlegal : ∀ {final : Tx orgistry} {db : Database orgistry},
                        final.Sound db → tx₄.locks ⊆ final.locks → w.now.clock ≤ db.clock →
                          LegalWrites cfg final db tx₄.writes := by
                      intro final db hsound hlocks hclock
                      refine LegalWrites.settle (hwrites₂ ▸ legalWrites_none)
                        (by rw [hwrites₂]; rfl)
                        hconsumed hretired hsound hlocks (hcurrent hsound (List.Subset.trans
                          hlocks₃ (List.Subset.trans hretired.locks hlocks)))
                        (fun _ => of_decide_eq_true) (fun _ => AccountToken.id_ne_of_sibling) ?_ ?_
                      · exact AccountTokenStep.consume (by simpa [AccountToken.unsettled]
                          using hunused) (by simpa using hunexpired) (Nat.le_trans hnow hclock)
                      · intro old hp
                        simp at hp
                        exact AccountTokenStep.invalidate hp.2
                    split
                    · intro w₉ h₉
                      have hG : Guarantee cfg tx₄ w₉.now := hlegal h₉.sound (List.Subset.refl _)
                        (hmoves₈.trans h₉.moves).clock_le
                      exact ⟨hG, h _ _ (hmoves₈.trans (commits h₉ hG))⟩
                    · refine safe_bind (safe_update fun w₉ got₅ tx₅ w₁₀ h₉ hverified h₁₀ => ?_)
                      intro w₁₁ h₁₁
                      have hmoves₁₁ := hmoves₈.trans (h₉.moves.trans (h₁₀.moves.trans h₁₁.moves))
                      have hG : Guarantee cfg tx₅ w₁₁.now := by
                        refine LegalWrites.update (hlegal h₁₁.sound hverified.locks
                          hmoves₁₁.clock_le) hverified h₁₁.sound (List.Subset.refl _) ?_ ?_
                        · intro new hnew
                          rw [hretired.writes_of_ne (by simp), hconsumed.writes_of_ne (by simp),
                            hwrites₂]
                          rfl
                        · intro old hold hp
                          have hstored := hcurrent h₁₁.sound
                            (List.Subset.trans hlocks₃
                              (List.Subset.trans hretired.locks hverified.locks))
                          refine UserStep.verify hstored ?_ ?_ ?_
                          · simpa [AccountToken.unsettled] using hunused
                          · simp at hp
                            have howner : User.id user = token.userId := by
                              simpa using (locked_current huser h₅.sound (List.Subset.refl _)
                                hfound (by rw [hwrites]; rfl)).2
                            exact howner.symm.trans hp.1.symm
                          · refine hconsumed.effect_then hretired h₁₁.sound hverified.locks
                              (hverified.writes_of_ne (by simp))
                              (fun _ => AccountToken.id_ne_of_sibling)
                              (by rw [hwrites₂]; exact hcurrent h₅.sound huser.locks)
                              (by rw [hwrites₂]; exact hstored) (by simp)
                      exact ⟨hG, h _ _ (hmoves₈.trans (h₉.moves.trans (h₁₀.moves.trans
                        (commits h₁₁ hG))))⟩
                  · exact commits_nothing hwrites₂ fun w' hmoves =>
                      h w' _ (hmoves₄.trans hmoves)

end EmailVerificationRepository

namespace AuthRepository

/-- The lock that a change of the address takes keeps new verification tokens
out until the change commits. -/
theorem safe_changeEmail {params : ChangeEmailParams}
    {Q : User → Tx orgistry → History orgistry → Prop}
    (hnormal : params.normalizedEmail = normalizeEmail params.email)
    (h : ∀ w' user, Moves (Guarantee cfg) w w' → Q user .begin w') :
    Safe (Guarantee cfg) (changeEmail params) Q .begin w := by
  refine safe_transaction (safe_bind (safe_updateOr fun w₁ got₁ tx₁ w₂ h₁ hset h₂ => ?_))
  refine safe_bind (safe_update fun w₃ got₂ tx₂ w₄ h₃ hretired h₄ => ?_)
  split
  · exact safe_abortWith
  · intro w₅ h₅
    have hrest := h₄.moves.trans h₅.moves
    have hG : Guarantee cfg tx₂ w₅.now := by
      refine LegalWrites.update (LegalWrites.update_locked legalWrites_none hset h₅.sound
        hretired.locks (fun _ _ => rfl) ?_) hretired h₅.sound (List.Subset.refl _) ?_ ?_
      · intro old since hold hp hlock
        refine UserStep.changeEmail hnormal fun hchanged x token hafter howner => ?_
        have hmode : RowOp.mode (S := orgistry) (.set (replaceEmail params)
            ErrorCode.emailAlreadyRegistered) old = .update := by
          simp [RowOp.mode, replaceEmail, assign, rowKey, hchanged]
        rw [hmode] at hlock
        refine hretired.retires h₅.sound (List.Subset.refl _) (hset.writes_of_ne (by simp)) rfl
          (R := AccountToken.Later) (q := fun token => token.userId = old.id)
          (verificationToken_persists hrest) ?_ AccountToken.Later.settled ?_ ?_ ?_ hafter howner
        · exact fun hlater hq => hlater.userId.symm.trans hq
        · intro token howner
          have hid : User.id old = params.userId := by simpa using hp
          by_cases hunsettled : token.unsettled
          · refine .inr ?_
            simp only [AccountToken.unsettled, Bool.and_eq_true] at hunsettled
            simp [howner, hid, hunsettled]
          · exact .inl (by simpa using hunsettled)
        · intro token
          simp [AccountToken.unsettled, assign]
        · intro hstored
          have hid : token.id = x := Database.id_of_get hstored
          rw [← hid] at hstored ⊢
          exact h₅.sound.referring h₃.sound hretired.locks hlock hstored
            (by simp [rowRefs, rowId, howner])
      · intro new hnew
        rw [hset.writes_of_ne (by simp)]
        rfl
      · intro old hold hp
        simp at hp
        exact AccountTokenStep.invalidate (by simp [AccountToken.unsettled, hp.1.2, hp.2])
    exact ⟨hG, h _ _ (h₁.moves.trans (h₂.moves.trans (h₃.moves.trans (h₄.moves.trans
      (commits h₅ hG)))))⟩

end AuthRepository

namespace EmailVerificationService

theorem safe_issueAndSendVerificationEmail {user : User}
    {tokenHash : TokenHash} {Q : Unit → Tx orgistry → History orgistry → Prop}
    (h : ∀ w', Moves (Guarantee cfg) w w' → Q () .begin w') :
    Safe (Guarantee cfg) (issueAndSendVerificationEmail cfg user tokenHash) Q .begin w := by
  refine safe_bind (safe_clock fun w₁ h₁ => safe_bind (safe_clock fun w₂ h₂ => ?_))
  refine EmailVerificationRepository.safe_issueVerificationToken fun w₃ h₃ => ?_
  exact h w₃ (h₁.moves.trans (h₂.moves.trans h₃))

theorem safe_requestVerificationEmail {accessToken : Option AccessClaims}
    {tokenHash : TokenHash}
    {Q : VerificationRequestResult → Tx orgistry → History orgistry → Prop}
    (h : ∀ w' result, Moves (Guarantee cfg) w w' → AuthService.Granted cfg accessToken w w' →
      Q result .begin w') :
    Safe (Guarantee cfg) (requestVerificationEmail cfg accessToken tokenHash) Q .begin w := by
  refine safe_bind (AuthService.safe_authenticate fun w₁ user session h₁ hauth => ?_)
  refine safe_bind (safe_selectOne fun w₂ found h₂ hfound => ?_)
  have hmoves₂ := h₁.trans h₂.moves
  have hgranted := hauth.granted.later h₂.moves
  split
  · exact h w₂ _ hmoves₂ hgranted
  · split
    · split
      · exact h w₂ _ hmoves₂ hgranted
      · refine safe_bind (safe_issueAndSendVerificationEmail fun w₃ h₃ => ?_)
        exact h w₃ _ (hmoves₂.trans h₃) (hgranted.later h₃)
    · exact h w₂ _ hmoves₂ hgranted

theorem safe_completeVerification {tokenHash : TokenHash}
    {Q : CompleteVerificationResult → Tx orgistry → History orgistry → Prop}
    (h : ∀ w' result, Moves (Guarantee cfg) w w' → Q result .begin w') :
    Safe (Guarantee cfg) (completeVerification tokenHash) Q .begin w := by
  refine safe_bind (safe_clock fun w₁ h₁ => ?_)
  exact EmailVerificationRepository.safe_completeVerification (Nat.le_refl _)
    fun w₂ result h₂ => h w₂ result (h₁.moves.trans h₂)

end EmailVerificationService

namespace AuthService

theorem safe_changeEmail {accessToken : Option AccessClaims}
    {input : ChangeEmailInput} {Q : User → Tx orgistry → History orgistry → Prop}
    (h : ∀ w' user, Moves (Guarantee cfg) w w' → Granted cfg accessToken w w' → Q user .begin w') :
    Safe (Guarantee cfg) (changeEmail cfg accessToken input) Q .begin w := by
  refine safe_bind (safe_requireAuthenticatedSession fun w₁ user session _ h₁ hauth _ => ?_)
  change Safe (Guarantee cfg) (if normalizeEmail input.newEmail = user.normalizedEmail
    then _ else _) Q .begin w₁
  have hnormal := (normalizeEmail_trim input.newEmail).symm
  generalize normalizeEmail input.newEmail = normalizedEmail at hnormal
  split
  · exact safe_abortWith
  · split
    · refine safe_bind (safe_clock fun w₂ h₂ => ?_)
      refine safe_bind (AuthRepository.safe_changeEmail hnormal fun w₃ updated h₃ => ?_)
      refine safe_bind (EmailVerificationService.safe_issueAndSendVerificationEmail
        fun w₄ h₄ => ?_)
      have hrest := h₂.moves.trans (h₃.trans h₄)
      exact h w₄ _ (h₁.trans hrest) (hauth.granted.later hrest)
    · exact safe_abortWith

end AuthService

/-! ## Password recovery -/

namespace PasswordRecoveryRepository

/-- The user row is locked against new tokens, so the `UPDATE` misses none. -/
theorem safe_issueResetToken {params : IssueTokenParams}
    {Q : Unit → Tx orgistry → History orgistry → Prop}
    (huser : w.now.get .users params.userId ≠ none)
    (h : ∀ w', Moves (Guarantee cfg) w w' → Q () .begin w') :
    Safe (Guarantee cfg) (issueResetToken params) Q .begin w := by
  refine safe_transaction (safe_bind (safe_selectOneForUpdate
    fun w₁ got₁ tx₁ w₂ h₁ hlocked h₂ => ?_))
  refine safe_bind (safe_update fun w₃ got₂ tx₂ w₄ h₃ hretired h₄ => ?_)
  refine safe_bind (safe_insert fun w₅ x h₅ hid hinsertable => ?_)
  intro w₆ h₆
  have hwrites : tx₁.writes = Writes.none := hlocked.writes
  have hrest := h₄.moves.trans (h₅.moves.trans h₆.moves)
  obtain ⟨user, hread⟩ := Option.ne_none_iff_exists'.mp (h₁.moves.get_ne_none huser)
  have hid : User.id user = params.userId := Database.id_of_get hread
  obtain ⟨_, since, hlock, -, -⟩ :=
    hlocked.complete (x := params.userId) hread (by simp [hid])
  have hG : Guarantee cfg (tx₂.add (t := Table.passwordResetTokens) (params.row x) w₅.now)
      w₆.now := by
    refine LegalWrites.insert (LegalWrites.update (hwrites ▸ legalWrites_none) hretired h₆.sound
      (Tx.locks_subset_add _ _ _) (fun _ _ => by rw [hwrites]; rfl) ?_) hinsertable h₆.sound
      (List.Subset.refl _) (AccountTokenStep.issue params (h₆.moves.get_ne_none ?_) ?_)
    · intro old hold hp
      simp at hp
      exact AccountTokenStep.invalidate hp.2
    · have hrefs := hinsertable.refs (.users, params.userId)
        (by simp [rowRefs, IssueTokenParams.row])
      rw [hretired.view_of_ne (by simp), hwrites] at hrefs
      exact hrefs
    · intro y other hafter howner hne _
      refine hretired.retires h₆.sound (Tx.locks_subset_add _ _ _) (by rw [hwrites]; rfl)
        ((Writes.get_put _ _ _).trans (if_neg hne)) (R := AccountToken.Later)
        (q := fun token => token.userId = params.userId) (resetToken_persists hrest) ?_
        AccountToken.Later.settled ?_ ?_ ?_ hafter howner
      · exact fun hlater hq => hlater.userId.symm.trans hq
      · intro token howner
        by_cases hunsettled : token.unsettled
        · exact .inr (by simp [howner, hunsettled])
        · exact .inl (by simpa using hunsettled)
      · exact fun _ => AccountToken.unsettled_invalidate _ _
      · intro hstored
        have hy : other.id = y := Database.id_of_get hstored
        have howner' : other.userId = params.userId := howner
        rw [← hy] at hstored ⊢
        exact h₆.sound.referring h₃.sound
          (List.Subset.trans hretired.locks (Tx.locks_subset_add _ _ _)) hlock hstored
          (by simp [rowRefs, howner'])
  exact ⟨hG, h _ (h₁.moves.trans (h₂.moves.trans (h₃.moves.trans (h₄.moves.trans
    (h₅.moves.trans (commits h₆ hG))))))⟩

/-- The sessions that a reset ends: the user row is locked against new ones, so the `UPDATE`
misses none. -/
theorem sessions_ended_by_reset {user : User} {now : ℕ} {v : History orgistry}
    {db : Database orgistry} {users : List User} {got : List Session} {p : User → Bool}
    {tx₀ tx₁ tx₂ tx₃ final : Tx orgistry}
    (huser : Selected (S := orgistry) (t := .users) p (.hold .update) tx₀ db users tx₁)
    (hfound : user ∈ users)
    (hended : Selected (S := orgistry) (t := .sessions)
      (fun (session : Session) => session.userId = user.id && session.revokedAt.isNone)
      (.set (AuthRepository.endSession now .passwordReset) orgistry.uniqueViolation) tx₂ v.now got
        tx₃) (hstart : tx₂.Sound v.now) (hheld : tx₁.locks ⊆ tx₂.locks)
    (hfirst : tx₂.writes .sessions = Relation.empty) (hmoves : Moves (Guarantee cfg) v w)
    (hsound : final.Sound w.now) (hlocks : tx₃.locks ⊆ final.locks)
    (hlast : final.writes .sessions = tx₃.writes .sessions) {x : Id} {session : Session}
    (hafter : (w.now.apply final.writes).get .sessions x = some session)
    (howner : session.userId = user.id) : session.revokedAt ≠ none := by
  obtain ⟨row, since, hlock, -, -, rfl⟩ := huser.found user hfound
  refine AuthRepository.sessions_ended hended hmoves hsound hlocks hfirst hlast ?_ ?_ hafter
    (by simpa using howner)
  · intro a b hlater
    simp [hlater.userId]
  · intro hstored
    have hx : session.id = x := Database.id_of_get hstored
    rw [← hx] at hstored ⊢
    refine hsound.referring hstart (List.Subset.trans hended.locks hlocks) (hheld hlock) hstored ?_
    exact List.mem_singleton.mpr (by rw [howner]; rfl)

/-- The user row is locked against new sessions until the reset commits. -/
theorem safe_completeReset {tokenHash : TokenHash} {newPasswordHash : String} {now : ℕ}
    {Q : CompleteResetResult → Tx orgistry → History orgistry → Prop}
    (hnow : now ≤ w.now.clock) (h : ∀ w' result, Moves (Guarantee cfg) w w' → Q result .begin w') :
    Safe (Guarantee cfg) (completeReset tokenHash newPasswordHash now) Q .begin w := by
  refine safe_transaction (safe_bind (safe_selectOneForUpdate
    fun w₁ got₁ tx₁ w₂ h₁ hlocked h₂ => ?_))
  have hmoves₂ := h₁.moves.trans h₂.moves
  have hwrites₁ : tx₁.writes = Writes.none := hlocked.writes
  cases hpresented : got₁.head? with
  | none => exact commits_nothing hwrites₁ fun w' hmoves => h w' _ (hmoves₂.trans hmoves)
  | some token =>
      have hcurrent : ∀ {final : Tx orgistry} {db : Database orgistry}, final.Sound db →
          tx₁.locks ⊆ final.locks → db.get .passwordResetTokens token.id = some token :=
        fun hsound hlocks => (locked_current hlocked hsound hlocks hpresented rfl).1
      change Safe (Guarantee cfg) (if _ then _ else if _ then _ else _) _ tx₁ w₂
      split
      · exact commits_nothing hwrites₁ fun w' hmoves => h w' _ (hmoves₂.trans hmoves)
      · next hunused =>
          split
          · exact commits_nothing hwrites₁ fun w' hmoves => h w' _ (hmoves₂.trans hmoves)
          · next hunexpired =>
              refine safe_bind (safe_selectOneForUpdate fun w₃ got₂ tx₂ w₄ h₃ huser h₄ => ?_)
              have hmoves₄ := hmoves₂.trans (h₃.moves.trans h₄.moves)
              have hwrites₂ : tx₂.writes = Writes.none := huser.writes.trans hwrites₁
              cases hfound : got₂.head? with
              | none =>
                  exact commits_nothing hwrites₂ fun w' hmoves => h w' _ (hmoves₄.trans hmoves)
              | some user =>
                  change Safe (Guarantee cfg) (if _ then _ else _) _ tx₂ w₄
                  split
                  · refine safe_bind (safe_update fun w₅ got₃ tx₃ w₆ h₅ hset h₆ => ?_)
                    refine safe_bind (safe_update fun w₇ got₄ tx₄ w₈ h₇ hconsumed h₈ => ?_)
                    refine safe_bind (safe_update fun w₉ got₅ tx₅ w₁₀ h₉ hretired h₁₀ => ?_)
                    refine safe_bind (safe_update fun w₁₁ got₆ tx₆ w₁₂ h₁₁ hended h₁₂ => ?_)
                    refine safe_bind (safe_select fun w₁₃ h₁₃ => ?_)
                    refine safe_bind (safe_update fun w₁₄ got₇ tx₇ w₁₅ h₁₄ hrevoked h₁₅ => ?_)
                    intro w₁₆ h₁₆
                    have hrest := h₁₂.moves.trans (h₁₃.moves.trans (h₁₄.moves.trans
                      (h₁₅.moves.trans h₁₆.moves)))
                    have hmoves := hmoves₄.trans (h₅.moves.trans (h₆.moves.trans (h₇.moves.trans
                      (h₈.moves.trans (h₉.moves.trans (h₁₀.moves.trans (h₁₁.moves.trans
                        hrest)))))))
                    have hlocks₅ := List.Subset.trans hended.locks hrevoked.locks
                    have hlocks₄ := List.Subset.trans hretired.locks hlocks₅
                    have hlocks₃ := List.Subset.trans hconsumed.locks hlocks₄
                    have hlocks₁ := List.Subset.trans huser.locks
                      (List.Subset.trans hset.locks hlocks₃)
                    have hunsettled : token.unsettled := by
                      simpa [AccountToken.unsettled] using hunused
                    have howns : User.id user = token.userId := by
                      simpa using (locked_current huser h₅.sound (List.Subset.refl _) hfound
                        (by rw [hwrites₁]; rfl)).2
                    have hfirst : tx₃.writes .passwordResetTokens = Relation.empty := by
                      rw [hset.writes_of_ne (by simp), hwrites₂]
                      rfl
                    have hstart := hcurrent h₇.sound (List.Subset.trans huser.locks hset.locks)
                    have hstored := hcurrent h₁₆.sound hlocks₁
                    have hconsumes := hconsumed.effect_then hretired h₁₆.sound hlocks₅
                      (by rw [hrevoked.writes_of_ne (by simp), hended.writes_of_ne (by simp)])
                      (fun _ => AccountToken.id_ne_of_sibling)
                      (by rw [Database.get_view, hfirst]; exact hstart)
                      (by rw [Database.get_view, hfirst]; exact hstored) (by simp)
                    have hunwritten : ∀ t ∉ [Table.users, .passwordResetTokens],
                        tx₅.writes t = Relation.empty := by
                      intro t ht
                      simp only [List.mem_cons, List.not_mem_nil, or_false, not_or] at ht
                      rw [hretired.writes_of_ne ht.2, hconsumed.writes_of_ne ht.2,
                        hset.writes_of_ne ht.1, hwrites₂]
                      rfl
                    have hends : ∀ {x : Id} {session : Session},
                        (w₁₆.now.apply tx₇.writes).get .sessions x = some session →
                          session.userId = User.id user → session.revokedAt ≠ none :=
                      sessions_ended_by_reset huser (List.mem_of_head? hfound) hended h₁₁.sound
                        (List.Subset.trans hset.locks (List.Subset.trans hconsumed.locks
                          hretired.locks)) (hunwritten _ (by simp)) hrest h₁₆.sound
                        hrevoked.locks (hrevoked.writes_of_ne (by simp))
                    have hG : Guarantee cfg tx₇ w₁₆.now := by
                      refine LegalWrites.update (LegalWrites.update (LegalWrites.settle
                        (LegalWrites.update (hwrites₂ ▸ legalWrites_none) hset h₁₆.sound hlocks₃
                          ?_ ?_) hfirst hconsumed hretired h₁₆.sound hlocks₅ hstored
                        (fun _ => of_decide_eq_true) (fun _ => AccountToken.id_ne_of_sibling)
                          ?_ ?_) hended h₁₆.sound hrevoked.locks ?_ ?_)
                        hrevoked h₁₆.sound (List.Subset.refl _) ?_ ?_
                      · intro new hnew
                        rw [hwrites₂]
                        rfl
                      · intro old hold hp
                        have hid : User.id old = User.id user := by simpa using hp
                        exact UserStep.resetPassword hstored hunsettled
                          (howns.symm.trans hid.symm) hconsumes
                          fun hafter howner => hends hafter (howner.trans hid)
                      · exact AccountTokenStep.consume hunsettled (by simpa using hunexpired)
                          (Nat.le_trans hnow hmoves.clock_le)
                      · intro old hp
                        simp at hp
                        exact AccountTokenStep.invalidate hp.2
                      · intro new hnew
                        rw [hunwritten _ (by simp)]
                        rfl
                      · exact fun _ _ _ => SessionStep.revoke
                      · intro new hnew
                        rw [hended.writes_of_ne (by simp), hunwritten _ (by simp)]
                        rfl
                      · exact fun _ _ _ => RefreshTokenStep.revoke
                    exact ⟨hG, h _ _ (hmoves.trans (.commit tx₇ .refl h₁₆.sound hG))⟩
                  · exact commits_nothing hwrites₂ fun w' hmoves =>
                      h w' _ (hmoves₄.trans hmoves)

end PasswordRecoveryRepository

namespace PasswordRecoveryService

theorem safe_requestReset {email : String} {tokenHash : TokenHash}
    {Q : Unit → Tx orgistry → History orgistry → Prop}
    (h : ∀ w', Moves (Guarantee cfg) w w' → Q () .begin w') :
    Safe (Guarantee cfg) (requestReset cfg email tokenHash) Q .begin w := by
  refine safe_bind (safe_selectOne fun w₁ found h₁ hfound => ?_)
  split
  · exact h w₁ h₁.moves
  · next user =>
      have hread : w₁.now.get .users (User.id user) = some user := hfound.get rfl
      split
      · refine safe_bind (safe_clock fun w₂ h₂ => safe_bind (safe_clock fun w₃ h₃ => ?_))
        have hthere := (h₂.moves.trans h₃.moves).get_ne_none (by rw [hread]; simp)
        refine PasswordRecoveryRepository.safe_issueResetToken hthere fun w₄ h₄ => ?_
        exact h w₄ (h₁.moves.trans (h₂.moves.trans (h₃.moves.trans h₄)))
      · exact h w₁ h₁.moves

theorem safe_completeReset {tokenHash : TokenHash} {newPassword : String}
    {salt : ℕ} {Q : CompleteResetResult → Tx orgistry → History orgistry → Prop}
    (h : ∀ w' result, Moves (Guarantee cfg) w w' → Q result .begin w') :
    Safe (Guarantee cfg) (completeReset cfg tokenHash newPassword salt) Q .begin w := by
  refine safe_bind (safe_clock fun w₁ h₁ => ?_)
  exact PasswordRecoveryRepository.safe_completeReset (Nat.le_refl _)
    fun w₂ result h₂ => h w₂ result (h₁.moves.trans h₂)

end PasswordRecoveryService

end Orgistry.Model
