import Orgistry.Commits.Statements

/-!
# The commits of account and session requests
-/

namespace Orgistry.Model

open ReadCommitted

variable {cfg : Config} {tx : Tx orgistry} {w w' w'' : History orgistry}

/-- The session exists and is not revoked. -/
def OpenSession (sessionId : Id) (db : Database orgistry) : Prop :=
  ∃ session : Session, db.get .sessions sessionId = some session ∧ session.revokedAt = none

theorem Rotation.ne {db : Database orgistry} {token successor : RefreshToken} {now : ℕ}
    (h : Rotation tx db token successor now) : token.id ≠ successor.id := by
  intro heq
  have hnew := h.isNew
  rw [← heq, h.stored] at hnew
  cases hnew

namespace AuthRepository

theorem safe_insertSession {userId : Id} {expiresAt verifiedAfter : ℕ}
    {Q : Session → Tx orgistry → History orgistry → Prop}
    (h : ∀ w' session, Moves (Guarantee cfg) w w' → Q session .begin w') :
    Safe (Guarantee cfg) (insertSession userId expiresAt verifiedAfter) Q .begin w :=
  safe_insertRow (fun _ _ _ _ => SessionStep.login rfl) fun w' _ hmoves _ => h w' _ hmoves

theorem safe_insertRefreshToken {request : ℕ} {sessionId : Id} {issued : IssuedToken}
    {expiresAt : ℕ} {Q : RefreshToken → Tx orgistry → History orgistry → Prop}
    (h : ∀ w' token, Moves (Guarantee cfg) w w' → Q token .begin w') :
    Safe (Guarantee cfg) (insertRefreshToken request sessionId issued expiresAt) Q .begin w :=
  safe_insertRow (fun _ _ _ _ => RefreshTokenStep.issue rfl ⟨rfl, rfl, rfl⟩)
    fun w' _ hmoves _ => h w' _ hmoves

theorem safe_revokeRefreshTokenFamily {familyId : Id} {reason : RevokeReason}
    {Q : Unit → Tx orgistry → History orgistry → Prop}
    (h : ∀ w', Moves (Guarantee cfg) w w' → Q () .begin w') :
    Safe (Guarantee cfg) (revokeRefreshTokenFamily familyId reason) Q .begin w := by
  refine safe_bind (safe_clock fun w₁ h₁ => safe_bind (safe_updateRows ?_ ?_))
  · exact fun _ _ _ _ => RefreshTokenStep.revoke
  · exact fun w₂ got w₃ h₂ h₃ _ => h w₃ (h₁.moves.trans (h₂.trans h₃))

theorem safe_revokeRefreshTokensForSession {sessionId : Id} {reason : RevokeReason}
    {Q : Unit → Tx orgistry → History orgistry → Prop}
    (h : ∀ w', Moves (Guarantee cfg) w w' → Q () .begin w') :
    Safe (Guarantee cfg) (revokeRefreshTokensForSession sessionId reason) Q .begin w := by
  refine safe_bind (safe_clock fun w₁ h₁ => safe_bind (safe_updateRows ?_ ?_))
  · exact fun _ _ _ _ => RefreshTokenStep.revoke
  · exact fun w₂ got w₃ h₂ h₃ _ => h w₃ (h₁.moves.trans (h₂.trans h₃))

/-- The session is revoked. -/
def Ended (sessionId : Id) (db : Database orgistry) : Prop :=
  ∃ session : Session, db.get .sessions sessionId = some session ∧ session.revokedAt ≠ none

theorem Ended.later {sessionId : Id} (h : Ended sessionId w.now)
    (hmoves : Moves (Guarantee cfg) w w') : Ended sessionId w'.now := by
  obtain ⟨session, hget, hrevoked⟩ := h
  obtain ⟨later, hlater, hpersists⟩ := session_persists hmoves hget
  exact ⟨later, hlater, hpersists.revoked hrevoked⟩

theorem safe_revokeSession {sessionId : Id} {reason : RevokeReason}
    {Q : Unit → Tx orgistry → History orgistry → Prop}
    (h : ∀ w', Moves (Guarantee cfg) w w' →
      (w.now.get .sessions sessionId ≠ none → Ended sessionId w'.now) → Q () .begin w') :
    Safe (Guarantee cfg) (revokeSession sessionId reason) Q .begin w := by
  refine safe_bind (safe_clock fun w₁ h₁ => safe_bind (safe_updateRows ?_ ?_))
  · exact fun _ _ _ _ => SessionStep.revoke
  · intro w₂ got w₃ h₂ h₃ hafter
    refine h w₃ (h₁.moves.trans (h₂.trans h₃)) fun hexists => ?_
    have hthere : w₂.now.get .sessions sessionId ≠ none :=
      (h₁.moves.trans h₂).get_ne_none hexists
    obtain ⟨session, hsession⟩ := Option.ne_none_iff_exists'.mp hthere
    have hid : session.id = sessionId := Database.id_of_get hsession
    by_cases hrevoked : session.revokedAt = none
    · obtain ⟨old, hold⟩ := hafter hsession (by simp [hid, hrevoked])
      refine ⟨_, hold, ?_⟩
      split
      · simp [endSession, assign]
      · next hp =>
          rw [if_neg hp] at hold
          have hold' : (old : Session).id = sessionId := Database.id_of_get hold
          simpa [hold'] using hp
    · exact Ended.later ⟨session, hsession, hrevoked⟩ h₃

/-- The stored token with the presented hash. -/
def Presents (tokenHash : TokenHash) (token : RefreshToken) (db : Database orgistry) : Prop :=
  db.get .refreshTokens token.id = some token ∧ token.tokenHash = tokenHash

/-- A rotation that the caller was told about. -/
structure Rotated (cfg : Config) (request : ℕ) (tokenHash : TokenHash) (successor : RefreshToken)
    (session : Session) (w w' : History orgistry) : Prop where
  spent : ∃ token, Presents tokenHash token w'.now ∧
    token.replacementTokenId = some successor.id ∧ token.sessionId = session.id
  minted : w'.now.get .refreshTokens successor.id = some successor
  mintedBy : successor.mintedBy = request
  isOpen : Seen (Guarantee cfg) w w' (OpenSession session.id)

/-- What the caller of `rotateRefreshToken` gets to know. -/
def RotationKnown (cfg : Config) (request : ℕ) (tokenHash : TokenHash) (w w' : History orgistry) :
    RotateRefreshTokenResult → Prop
  | .rotated successor session => Rotated cfg request tokenHash successor session w w'
  | .reuse familyId sessionId _ => ∃ token, Presents tokenHash token w'.now ∧
      token.familyId = familyId ∧ token.sessionId = sessionId ∧
        w'.now.get .sessions sessionId ≠ none
  | .expired => True
  | .notFound => True

/-- The insert and the `UPDATE` of a rotation, once the transaction commits. -/
private theorem rotation_of_writes {request : ℕ} {params : RotateRefreshTokenParams}
    {token successor : RefreshToken} {since start db : Database orgistry}
    {got : List RefreshToken} {tx₁ tx₂ tx₃ final : Tx orgistry}
    (hfollows : successor = successorOf request params token successor.id)
    (hunused : token.fresh) (hwrites : tx₁.writes = Writes.none)
    (hsince : since.get .refreshTokens token.id = some token)
    (hstart : start.get .refreshTokens token.id = some token)
    (hdb : db.get .refreshTokens token.id = some token)
    (hinsertable : Insertable (t := Table.refreshTokens) since tx₁ successor)
    (htx₂ : tx₂ = tx₁.add (t := Table.refreshTokens) successor since)
    (hspent : Selected (S := orgistry) (t := .refreshTokens)
      (fun (other : RefreshToken) => other.id = token.id)
      (.set (spendToken params.now successor.id) orgistry.uniqueViolation) tx₂ start got tx₃)
    (hsound : final.Sound db) (hlocks : tx₃.locks ⊆ final.locks)
    (hlast : final.writes .refreshTokens = tx₃.writes .refreshTokens) :
    Rotation final db token successor params.now := by
  subst htx₂
  have hfresh : since.get .refreshTokens successor.id = none := by
    have hfresh := hinsertable.fresh
    rwa [hwrites] at hfresh
  have hne : token.id ≠ successor.id := by
    intro heq
    rw [← heq, hsince] at hfresh
    cases hfresh
  have hview : ∀ {db : Database orgistry}, db.get .refreshTokens token.id = some token →
      (db.view (tx₁.add (t := Table.refreshTokens) successor since).writes
        .refreshTokens).get token.id = some token := by
    intro db hget
    rw [Tx.get_view_add_of_ne, hwrites]
    · exact hget
    · exact hne
  refine ⟨hdb, hunused, hinsertable.stays_free hsound (List.Subset.trans hspent.locks hlocks),
    ⟨request, params, hfollows⟩, ?_, ?_⟩
  · rw [Database.get_apply_eq_view, Database.view, hlast, ← Database.view,
      hspent.effect_of_locked hsound hlocks (hview hstart) (hview hdb) (by simp)]
    rfl
  · have hids : successor.id ∉ got.map RefreshToken.id := by
      intro hmem
      obtain ⟨new, hnew, hid⟩ := List.mem_map.mp hmem
      obtain ⟨old, -, -, -, hp, rfl⟩ := hspent.found new hnew
      have hold : old.id = token.id := by simpa using hp
      exact hne (hold.symm.trans hid)
    rw [Database.get_apply_eq_view, Database.view, hlast, ← Database.view,
      hspent.get_view_of_notMem hids]
    exact Tx.get_view_add_self _ _ _ _

/-- The presented token is locked first: of two rotations the second finds it spent. -/
theorem safe_rotateRefreshToken {request : ℕ} {params : RotateRefreshTokenParams}
    {Q : RotateRefreshTokenResult → Tx orgistry → History orgistry → Prop}
    (h : ∀ w' result, Moves (Guarantee cfg) w w' →
      RotationKnown cfg request params.presentedTokenHash w w' result → Q result .begin w') :
    Safe (Guarantee cfg) (rotateRefreshToken request params) Q .begin w := by
  refine safe_transaction (safe_bind (safe_selectOneForUpdate
    fun w₁ got tx₁ w₂ h₁ hlocked h₂ => ?_))
  have hmoves₂ := h₁.moves.trans h₂.moves
  have hnothing : ∀ {final : Tx orgistry} {db : Database orgistry},
      LegalWrites cfg final db tx₁.writes := fun {_ _} => legalWrites_none.select hlocked
  have hwrites : tx₁.writes = Writes.none := hlocked.writes
  cases hpresented : got.head? with
  | none =>
      exact fun w₃ h₃ => ⟨hnothing,
        h _ _ (.commit tx₁ (hmoves₂.trans h₃.moves) h₃.sound hnothing) trivial⟩
  | some token =>
      refine safe_bind (safe_selectOne fun w₃ found h₃ hfound => ?_)
      have hmoves₃ := hmoves₂.trans h₃.moves
      -- the presented token at any later moment of this transaction
      have hcurrent : ∀ {final : Tx orgistry} {db : Database orgistry}, final.Sound db →
          tx₁.locks ⊆ final.locks → db.get .refreshTokens token.id = some token ∧
            token.tokenHash = params.presentedTokenHash := by
        intro final db hsound hlocks
        obtain ⟨hget, hp⟩ := locked_current hlocked hsound hlocks hpresented rfl
        exact ⟨hget, by simpa using hp⟩
      have hreuse : ∀ userId : Option Id, Safe (Guarantee cfg)
          (pure (RotateRefreshTokenResult.reuse token.familyId token.sessionId userId))
          (fun a tx w => ∀ w', Around (Guarantee cfg) tx w w' → Guarantee cfg tx w'.now ∧
            Q a .begin (w'.push (w'.now.apply tx.writes))) tx₁ w₃ := by
        intro userId w₄ h₄
        refine ⟨hnothing, h _ _ (.commit tx₁ (hmoves₃.trans h₄.moves) h₄.sound hnothing) ?_⟩
        obtain ⟨hget, hhash⟩ := hcurrent h₄.sound (List.Subset.refl _)
        have hconsistent := h₄.sound.consistent _ tx₁.current_mem_layers
        rw [hwrites] at hconsistent
        have hsession : w₄.now.get .sessions token.sessionId ≠ none :=
          hconsistent.referential (t := .refreshTokens) hget (.sessions, token.sessionId)
            (by simp [rowRefs])
        refine ⟨token, ⟨?_, hhash⟩, rfl, rfl, ?_⟩
        · rw [History.now_push, get_apply_of_none hwrites]
          exact hget
        · rw [History.now_push, get_apply_of_none hwrites]
          exact hsession
      split
      · exact hreuse _
      · next hunused =>
          split
          · exact hreuse none
          · next session =>
              split
              · exact hreuse _
              · next hopen =>
                  split
                  · intro w₄ h₄
                    exact ⟨hnothing,
                      h _ _ (.commit tx₁ (hmoves₃.trans h₄.moves) h₄.sound hnothing) trivial⟩
                  · refine safe_bind (safe_insert fun w₄ x h₄ hid hinsertable => ?_)
                    refine safe_bind (safe_update fun w₅ got₃ tx₃ w₆ h₅ hspent h₆ => ?_)
                    refine safe_bind (safe_update fun w₇ got₄ tx₄ w₈ h₇ htouched h₈ => ?_)
                    have hlocks₂ := tx₁.locks_subset_add (t := Table.refreshTokens)
                      (successorOf request params token x) w₄.now
                    have hlocks₃ := List.Subset.trans hlocks₂ hspent.locks
                    intro w₉ h₉
                    have hlocks₄ := List.Subset.trans hlocks₃ htouched.locks
                    have hrotation : Rotation tx₄ w₉.now token
                        (successorOf request params token x) params.now := by
                      refine rotation_of_writes rfl ?_ hwrites
                        (hcurrent h₄.sound (List.Subset.refl _)).1
                        (hcurrent h₅.sound hlocks₂).1 (hcurrent h₉.sound hlocks₄).1 hinsertable
                        rfl hspent h₉.sound htouched.locks (htouched.writes_of_ne (by simp))
                      simpa [RefreshToken.fresh, and_assoc] using hunused
                    have hG : Guarantee cfg tx₄ w₉.now := by
                      refine LegalWrites.update (LegalWrites.update (LegalWrites.insert hnothing
                        hinsertable h₉.sound (List.Subset.trans hspent.locks htouched.locks)
                        (RefreshTokenStep.mint hrotation)) hspent h₉.sound htouched.locks ?_ ?_)
                        htouched h₉.sound (List.Subset.refl _) ?_ ?_
                      · intro new hnew
                        obtain ⟨old, -, -, -, hp, rfl⟩ := hspent.found new hnew
                        have hold : RefreshToken.id old = token.id := by simpa using hp
                        rw [Tx.writes_add, Writes.get_put, if_neg, hwrites]
                        · rfl
                        · exact fun heq => hrotation.ne (hold.symm.trans heq)
                      · intro old hold hp
                        have hid : RefreshToken.id old = token.id := by simpa using hp
                        obtain rfl := stored_unique hold hrotation.stored hid
                        exact RefreshTokenStep.spend hrotation
                      · intro new hnew
                        rw [hspent.writes_of_ne (by simp), Tx.writes_add,
                          Writes.put_of_ne _ _ (by simp), hwrites]
                        rfl
                      · exact fun _ _ _ => SessionStep.touch
                    have hrest : Moves (Guarantee cfg) w₃ w₉ := h₄.moves.trans (h₅.moves.trans
                      (h₆.moves.trans (h₇.moves.trans (h₈.moves.trans h₉.moves))))
                    have hcommit := Moves.commit tx₄ hrest h₉.sound hG
                    have hsession : session.id = token.sessionId := by
                      simpa using hfound.holds rfl
                    refine ⟨hG, h _ _ (hmoves₃.trans hcommit)
                      ⟨⟨RefreshToken.spend token _ _, ⟨hrotation.spent, ?_⟩, rfl, hsession.symm⟩,
                        hrotation.minted, rfl, ?_⟩⟩
                    · exact (hcurrent h₉.sound hlocks₄).2
                    · refine (Seen.intro hmoves₃ ⟨session, ?_, ?_⟩).later hcommit
                      · have hget := hfound.get rfl
                        rw [hwrites] at hget
                        exact hget
                      · simp at hopen
                        exact hopen.1

/-- The `UPDATE` that ends sessions: a session that stood when it began and is of
its kind `q` after the commit is revoked by then. -/
theorem sessions_ended {q : Session → Bool} {now : ℕ} {reason : RevokeReason}
    {v : History orgistry} {got : List Session} {tx₁ tx₂ final : Tx orgistry}
    (hselected : Selected (S := orgistry) (t := .sessions)
      (fun (session : Session) => q session && session.revokedAt.isNone)
      (.set (endSession now reason) orgistry.uniqueViolation) tx₁ v.now got tx₂)
    (hmoves : Moves (Guarantee cfg) v w) (hsound : final.Sound w.now)
    (hlocks : tx₂.locks ⊆ final.locks) (hfirst : tx₁.writes .sessions = Relation.empty)
    (hlast : final.writes .sessions = tx₂.writes .sessions)
    (hq : ∀ {a b : Session}, a.Later b → q b → q a) {x : Id} {session : Session}
    (hthen : w.now.get .sessions x = some session → v.now.get .sessions x ≠ none)
    (hafter : (w.now.apply final.writes).get .sessions x = some session) (hqsession : q session) :
    session.revokedAt ≠ none := by
  refine hselected.retires hsound hlocks hfirst (by rw [hlast]) (R := Session.Later)
    (q := fun session => q session) (session_persists hmoves) hq Session.Later.revoked ?_ ?_
    hthen hafter hqsession
  · intro session hq
    by_cases hrevoked : session.revokedAt = none
    · exact .inr (by simp [hrevoked, hq])
    · exact .inl hrevoked
  · intro session
    simp [endSession, assign]

/-- The user row is written first, so no later session of the user is missed. -/
theorem safe_changePasswordKeepingCurrentSession {params : ChangePasswordParams}
    {Q : Unit → Tx orgistry → History orgistry → Prop}
    (hseen : ∀ w', Moves (Guarantee cfg) w w' →
      OpenWhenSeen w'.now params.currentSessionId params.seen)
    (hverified : ∀ w', Moves (Guarantee cfg) w w' → ∀ user : User,
      w'.now.get .users params.userId = some user →
      user.passwordLog.length = params.verifiedAfter → user.passwordHash = params.verifiedHash)
    (h : ∀ w', Moves (Guarantee cfg) w w' → Q () .begin w') :
    Safe (Guarantee cfg) (changePasswordKeepingCurrentSession params) Q .begin w := by
  refine safe_transaction (safe_bind (safe_update fun w₁ got₁ tx₁ w₂ h₁ hset h₂ => ?_))
  refine safe_bind (safe_update fun w₃ got₂ tx₂ w₄ h₃ hended h₄ => ?_)
  refine safe_bind (safe_select fun w₅ h₅ => ?_)
  refine safe_bind (safe_update fun w₆ got₃ tx₃ w₇ h₆ hrevoked h₇ => ?_)
  intro w₈ h₈
  have hmoves₃ := h₄.moves.trans (h₅.moves.trans (h₆.moves.trans (h₇.moves.trans h₈.moves)))
  have hmoves := h₁.moves.trans (h₂.moves.trans (h₃.moves.trans hmoves₃))
  have hlocks₁ := List.Subset.trans hended.locks hrevoked.locks
  have hG : Guarantee cfg tx₃ w₈.now := by
    refine LegalWrites.update (LegalWrites.update (LegalWrites.update legalWrites_none
      hset h₈.sound hlocks₁ (fun _ _ => rfl) ?_) hended h₈.sound hrevoked.locks ?_ ?_)
      hrevoked h₈.sound (List.Subset.refl _) ?_ ?_
    · intro user huser hp
      have hid : User.id user = params.userId := by simpa using hp
      have hsnapshot : (Table.sessions, w₃.now) ∈ tx₃.snapshots := by
        rw [hrevoked.snapshots, hended.snapshots]
        simp
      refine UserStep.changePassword hsnapshot ?_ (hseen w₈ hmoves) ?_
      · intro x session hafter howner hkept hthen
        refine sessions_ended hended hmoves₃ h₈.sound hrevoked.locks
          (hset.writes_of_ne (by simp)) (hrevoked.writes_of_ne (by simp)) ?_ (fun _ => hthen)
          hafter ?_
        · intro a b hlater
          simp [hlater.userId, hlater.id]
        · have hsession : session.id = x := Database.id_of_get hafter
          simp [howner, hid, hsession, hkept]
      · exact hverified w₈ hmoves user (by rw [← hid]; exact huser)
    · intro new hnew
      rw [hset.writes_of_ne (by simp)]
      rfl
    · exact fun _ _ _ => SessionStep.revoke
    · intro new hnew
      rw [hended.writes_of_ne (by simp), hset.writes_of_ne (by simp)]
      rfl
    · exact fun _ _ _ => RefreshTokenStep.revoke
  exact ⟨hG, h _ (.commit tx₃ hmoves h₈.sound hG)⟩

end AuthRepository

/-! ## The authentication service -/

namespace AuthService

open AuthRepository

variable {accessToken : Option AccessClaims} {user : User} {session : Session}

/-- What a request knows about its caller after authentication. -/
structure Authenticated (cfg : Config) (accessToken : Option AccessClaims) (user : User)
    (session : Session) (w w' : History orgistry) : Prop where
  userRead : Seen (Guarantee cfg) w w' fun db => db.get .users user.id = some user
  sessionRead : Seen (Guarantee cfg) w w' fun db => db.get .sessions session.id = some session
  isOpen : session.revokedAt = none
  userId : session.userId = user.id
  claimed : ∀ claims, accessToken = some claims → claims.sessionId = session.id

/-- The user and the session are read by two statements, each at its own moment. -/
theorem safe_requireAuthenticatedSession
    {Q : User × Session × ℕ → Tx orgistry → History orgistry → Prop}
    (h : ∀ w' user session checkedAt, Moves (Guarantee cfg) w w' →
      Authenticated cfg accessToken user session w w' → checkedAt < session.expiresAt →
        Q (user, session, checkedAt) .begin w') :
    Safe (Guarantee cfg) (requireAuthenticatedSession accessToken) Q .begin w := by
  cases accessToken with
  | none => exact safe_abortWith
  | some claims =>
      refine safe_bind (safe_selectOne fun w₁ found h₁ hfound => ?_)
      split
      · exact safe_abortWith
      · next user =>
          split
          · refine safe_bind (safe_selectOne fun w₂ answer h₂ hanswer => ?_)
            refine safe_bind (safe_clock fun w₃ h₃ => ?_)
            split
            · exact safe_abortWith
            · next session =>
                split
                · exact safe_abortWith
                · next hok =>
                    simp at hok
                    have hrest := h₂.moves.trans h₃.moves
                    refine h w₃ user session _ (h₁.moves.trans hrest)
                      ⟨?_, ?_, hok.1.2, hok.1.1, ?_⟩ hok.2
                    · exact (Seen.intro h₁.moves (hfound.get rfl)).later hrest
                    · exact (Seen.intro (h₁.moves.trans h₂.moves) (hanswer.get rfl)).later h₃.moves
                    · rintro _ ⟨⟩
                      have hid : session.id = claims.sessionId := by simpa using hanswer.holds rfl
                      exact hid.symm
          · exact safe_abortWith

theorem safe_authenticate
    {Q : User → Tx orgistry → History orgistry → Prop}
    (h : ∀ w' user session, Moves (Guarantee cfg) w w' →
      Authenticated cfg accessToken user session w w' → Q user .begin w') :
    Safe (Guarantee cfg) (authenticate accessToken) Q .begin w :=
  safe_bind (safe_requireAuthenticatedSession fun w' user session _ hmoves hauth _ =>
    h w' user session hmoves hauth)

theorem safe_login {request : ℕ} {input : LoginInput}
    {Q : Session × RefreshToken → Tx orgistry → History orgistry → Prop}
    (h : ∀ w' answer, Moves (Guarantee cfg) w w' → Q answer .begin w') :
    Safe (Guarantee cfg) (login cfg request input) Q .begin w := by
  refine safe_bind (safe_selectOne fun w₁ found h₁ hfound => ?_)
  split
  · exact safe_abortWith
  · split
    · refine safe_bind (safe_clock fun w₂ h₂ => ?_)
      refine safe_bind (safe_insertSession fun w₃ session h₃ => ?_)
      refine safe_bind (safe_insertRefreshToken fun w₄ token h₄ => ?_)
      exact h w₄ _ (h₁.moves.trans (h₂.moves.trans (h₃.trans h₄)))
    · exact safe_abortWith

/-- What a refresh that was answered knows. -/
def RefreshKnown (cfg : Config) (request : ℕ) (presented : TokenHash) (w w' : History orgistry) :
    RefreshOutcome → Prop
  | .rotated successor session => Rotated cfg request presented successor session w w'
  | .reuseDetected familyId sessionId => Ended sessionId w'.now ∧
      ∃ token : RefreshToken, w'.now.get .refreshTokens token.id = some token ∧
        token.familyId = familyId ∧ token.sessionId = sessionId
  | .invalid => True

theorem safe_refresh {request : ℕ} {presented successor : TokenHash}
    {Q : RefreshOutcome → Tx orgistry → History orgistry → Prop}
    (h : ∀ w' outcome, Moves (Guarantee cfg) w w' →
      RefreshKnown cfg request presented w w' outcome → Q outcome .begin w') :
    Safe (Guarantee cfg) (refresh cfg request presented successor) Q .begin w := by
  refine safe_bind (safe_selectOne fun w₁ found h₁ hfound => ?_)
  refine safe_bind (safe_clock fun w₂ h₂ => ?_)
  have hmoves₂ := h₁.moves.trans h₂.moves
  refine safe_bind (safe_rotateRefreshToken fun w₃ result h₃ hknown => ?_)
  cases result with
  | rotated successor session =>
      exact h w₃ _ (hmoves₂.trans h₃)
        { hknown with isOpen := hknown.isOpen.earlier hmoves₂ }
  | reuse familyId sessionId userId =>
      obtain ⟨token, ⟨hget, -⟩, hfamily, hsession, hexists⟩ := hknown
      refine safe_bind (safe_revokeRefreshTokenFamily fun w₄ h₄ => ?_)
      refine safe_bind (safe_revokeSession fun w₅ h₅ hended => ?_)
      obtain ⟨later, hlater, hpersists⟩ := refreshToken_persists (h₄.trans h₅) hget
      have hid : later.id = token.id := Database.id_of_get hlater
      exact h w₅ _ (hmoves₂.trans (h₃.trans (h₄.trans h₅)))
        ⟨hended (h₄.get_ne_none hexists), later, hid ▸ hlater,
          hpersists.familyId.trans hfamily, hpersists.sessionId.trans hsession⟩
  | expired => exact h w₃ _ (hmoves₂.trans h₃) trivial
  | notFound => exact h w₃ _ (hmoves₂.trans h₃) trivial

theorem safe_logout {rawRefreshToken : Option TokenHash}
    {Q : Unit → Tx orgistry → History orgistry → Prop}
    (h : ∀ w', Moves (Guarantee cfg) w w' → Q () .begin w') :
    Safe (Guarantee cfg) (logout rawRefreshToken) Q .begin w := by
  cases rawRefreshToken with
  | none => exact h w .refl
  | some tokenHash =>
      refine safe_bind (safe_selectOne fun w₁ found h₁ hfound => ?_)
      split
      · exact h w₁ h₁.moves
      · refine safe_bind (safe_selectOne fun w₂ session h₂ hsession => ?_)
        refine safe_bind (safe_revokeSession fun w₃ h₃ hended => ?_)
        refine safe_revokeRefreshTokensForSession fun w₄ h₄ => ?_
        exact h w₄ (h₁.moves.trans (h₂.moves.trans (h₃.trans h₄)))

/-- The session that the access token names was open at some moment. -/
def Granted (cfg : Config) (accessToken : Option AccessClaims) (w w' : History orgistry) : Prop :=
  ∀ claims, accessToken = some claims → Seen (Guarantee cfg) w w' (OpenSession claims.sessionId)

theorem Granted.later (h : Granted cfg accessToken w w') (hmoves : Moves (Guarantee cfg) w' w'') :
    Granted cfg accessToken w w'' :=
  fun claims hclaims => (h claims hclaims).later hmoves

theorem Authenticated.granted (h : Authenticated cfg accessToken user session w w') :
    Granted cfg accessToken w w' := by
  intro claims hclaims
  obtain ⟨v, hv, hw', hget⟩ := h.sessionRead
  exact ⟨v, hv, hw', session, by rw [h.claimed claims hclaims]; exact hget, h.isOpen⟩

/-- As long as the password log has not grown, the hash is the one that the
request has read. -/
theorem Authenticated.passwordHash_eq (h : Authenticated cfg accessToken user session w w')
    (hmoves : Moves (Guarantee cfg) w' w'') {stored : User}
    (hget : w''.now.get .users user.id = some stored)
    (hlog : stored.passwordLog.length = user.passwordLog.length) :
    stored.passwordHash = user.passwordHash := by
  obtain ⟨v, -, hw', hread⟩ := h.userRead
  obtain ⟨new, hnew, hlater⟩ := user_persists (hw'.trans hmoves) hread
  obtain rfl : stored = new := by simpa [hget] using hnew
  exact hlater.hash hlog

/-- The session that authentication saw is still stored, with the same expiry. -/
theorem Authenticated.openWhenSeen (h : Authenticated cfg accessToken user session w w')
    {checkedAt : ℕ} (hunexpired : checkedAt < session.expiresAt)
    (hmoves : Moves (Guarantee cfg) w' w'') :
    OpenWhenSeen w''.now session.id { revokedAt := session.revokedAt, checkedAt } := by
  obtain ⟨v, -, hw', hread⟩ := h.sessionRead
  obtain ⟨later, hlater, hpersists⟩ := session_persists (hw'.trans hmoves) hread
  exact ⟨h.isOpen, later, hlater, by rwa [hpersists.expiresAt]⟩

theorem safe_revokeSession {targetSessionId : Id}
    {Q : Bool → Tx orgistry → History orgistry → Prop}
    (h : ∀ w' answer, Moves (Guarantee cfg) w w' → Granted cfg accessToken w w' →
      Q answer .begin w') :
    Safe (Guarantee cfg) (revokeSession accessToken targetSessionId) Q .begin w := by
  refine safe_bind (safe_requireAuthenticatedSession fun w₁ user session _ h₁ hauth _ => ?_)
  refine safe_bind (safe_selectOne fun w₂ found h₂ hfound => ?_)
  have hmoves₂ := h₁.trans h₂.moves
  split
  · exact safe_abortWith
  · split
    · exact safe_abortWith
    · split
      · refine safe_bind (AuthRepository.safe_revokeSession fun w₃ h₃ hended => ?_)
        refine safe_bind (safe_revokeRefreshTokensForSession fun w₄ h₄ => ?_)
        exact h w₄ _ (hmoves₂.trans (h₃.trans h₄))
          (hauth.granted.later (h₂.moves.trans (h₃.trans h₄)))
      · exact h w₂ _ hmoves₂ (hauth.granted.later h₂.moves)

theorem safe_changePassword {input : ChangePasswordInput}
    {Q : Unit → Tx orgistry → History orgistry → Prop}
    (h : ∀ w', Moves (Guarantee cfg) w w' → Granted cfg accessToken w w' → Q () .begin w') :
    Safe (Guarantee cfg) (changePassword cfg accessToken input) Q .begin w := by
  refine safe_bind (safe_requireAuthenticatedSession
    fun w₁ user session checkedAt h₁ hauth hunexpired => ?_)
  change Safe (Guarantee cfg) (if _ then _ else _) Q .begin w₁
  split
  · split
    · exact safe_abortWith
    · refine safe_bind (safe_clock fun w₂ h₂ => ?_)
      refine safe_changePasswordKeepingCurrentSession ?_ ?_ ?_
      · intro w₃ h₃
        exact hauth.openWhenSeen hunexpired (h₂.moves.trans h₃)
      · intro w₃ h₃ stored hget hlog
        exact hauth.passwordHash_eq (h₂.moves.trans h₃) hget hlog
      · intro w₃ h₃
        exact h w₃ (h₁.trans (h₂.moves.trans h₃)) (hauth.granted.later (h₂.moves.trans h₃))
  · exact safe_abortWith

end AuthService

end Orgistry.Model
