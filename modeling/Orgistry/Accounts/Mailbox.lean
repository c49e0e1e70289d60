import Orgistry.Commits.Server

/-!
# Mailed credentials and the address of the account

Verification and reset tokens are mailed to the address that a request has read
and are stored by a later transaction; neither kind of row names the address.
What a consumed token proves about the account therefore rests on the address
not having changed in between.
-/

namespace Orgistry.Model

open ReadCommitted

variable {cfg : Config} {tx : Tx orgistry} {db : Database orgistry} {w : History orgistry}

/-- Each live token was mailed under what is still current for its user. -/
def LiveTokensMatch {α : Type} (live : Database orgistry → AccountToken → Prop)
    (mailed : AccountToken → α) (current : User → α) (db : Database orgistry)
    (tokens : Id → Option AccountToken) : Prop :=
  ∀ ⦃x : Id⦄ ⦃token : AccountToken⦄, tokens x = some token → live db token →
    ∀ ⦃user : User⦄, db.get .users token.userId = some user → mailed token = current user

/-- A commit that sets `usedAt` of a token has consumed it while it was
unsettled. -/
theorem AccountTokenStep.consumed {issued : AccountToken → Prop} {old new : AccountToken}
    (h : AccountTokenStep db issued (some old) new) (hunused : old.usedAt = none)
    (hused : new.usedAt ≠ none) : old.unsettled := by
  cases h with
  | invalidate => exact absurd hunused hused
  | consume hunsettled => exact hunsettled

/-- What a commit may do to a table of mailed tokens: the rows that stay only
settle, and the others are new. -/
structure TokensEvolve (db : Database orgistry) (before after : Id → Option AccountToken) :
    Prop where
  origin : ∀ ⦃x : Id⦄ ⦃new : AccountToken⦄, after x = some new → before x = none ∨
    ∃ old, before x = some old ∧
      (new = old ∨ ∃ issued, AccountTokenStep db issued (some old) new)
  owned : ∀ ⦃x : Id⦄ ⦃old : AccountToken⦄, before x = some old →
    db.get .users old.userId ≠ none

theorem Guarantee.verificationTokens (hG : Guarantee cfg tx db) (hdb : Consistent db.tables) :
    TokensEvolve db (db.get .emailVerificationTokens)
      ((db.apply tx.writes).get .emailVerificationTokens) where
  origin x new hnew := (hG.origin hnew).elim
    (fun ⟨old, hold, hstep⟩ => .inr ⟨old, hold, hstep.imp_right fun h => ⟨_, h⟩⟩)
    fun h => .inl h.1
  owned x old hold := hdb.referential hold (.users, _) (by simp [orgistry, rowRefs])

theorem Guarantee.resetTokens (hG : Guarantee cfg tx db) (hdb : Consistent db.tables) :
    TokensEvolve db (db.get .passwordResetTokens)
      ((db.apply tx.writes).get .passwordResetTokens) where
  origin x new hnew := (hG.origin hnew).elim
    (fun ⟨old, hold, hstep⟩ => .inr ⟨old, hold, hstep.imp_right fun h => ⟨_, h⟩⟩)
    fun h => .inl h.1
  owned x old hold := hdb.referential hold (.users, _) (by simp [orgistry, rowRefs])

theorem TokensEvolve.later {before after : Id → Option AccountToken}
    (h : TokensEvolve db before after) {x : Id} {new : AccountToken} (hnew : after x = some new) :
    before x = none ∨ ∃ old, before x = some old ∧ old.Later new := by
  rcases h.origin hnew with hnone | ⟨old, hold, rfl | ⟨_, hstep⟩⟩
  · exact .inl hnone
  · exact .inr ⟨_, hold, .refl _⟩
  · exact .inr ⟨old, hold, hstep.later⟩

theorem TokensEvolve.consumed {before after : Id → Option AccountToken}
    (h : TokensEvolve db before after) {x : Id} {old new : AccountToken}
    (hold : before x = some old) (hnew : after x = some new) (hunused : old.usedAt = none)
    (hused : new.usedAt ≠ none) : old.unsettled := by
  rcases h.origin hnew with hnone | ⟨was, hwas, hstep⟩
  · simp [hold] at hnone
  · obtain rfl := Option.some_inj.mp (hold.symm.trans hwas)
    rcases hstep with rfl | ⟨_, hstep⟩
    · exact absurd hunused hused
    · exact hstep.consumed hunused hused

/-- One commit: new tokens match, and a user whose current value moves has no
live tokens left. -/
theorem LiveTokensMatch.commit {α : Type} {live : Database orgistry → AccountToken → Prop}
    {mailed : AccountToken → α} {current : User → α} {before after : Id → Option AccountToken}
    (h : LiveTokensMatch live mailed current db before) (hG : Guarantee cfg tx db)
    (hevolve : TokensEvolve db before after)
    (hlater : ∀ {old new : AccountToken}, old.Later new → live (db.apply tx.writes) new →
      live db old ∧ mailed new = mailed old)
    (hissued : ∀ {x : Id} {token : AccountToken}, before x = none → after x = some token →
      ∀ {user : User}, (db.apply tx.writes).get .users token.userId = some user →
        mailed token = current user)
    (hmoved : ∀ {x : Id} {old new : User}, db.get .users x = some old →
      (db.apply tx.writes).get .users x = some new → UserStep tx db (some old) new →
      current new = current old ∨
        ∀ {y : Id} {token : AccountToken}, after y = some token → token.userId = old.id →
          ¬live (db.apply tx.writes) token) :
    LiveTokensMatch live mailed current (db.apply tx.writes) after := by
  intro x token htoken hlive user huser
  rcases hevolve.later htoken with hnone | ⟨old, hold, holdLater⟩
  · exact hissued hnone htoken huser
  · obtain ⟨holdLive, hmailed⟩ := hlater holdLater hlive
    rw [holdLater.userId] at huser
    rcases hG.origin huser with ⟨oldUser, holdUser, hstep⟩ | ⟨hnone, -⟩
    · have hbefore := h hold holdLive holdUser
      rcases hstep with rfl | hlegal
      · exact hmailed.trans hbefore
      · rcases hmoved holdUser huser hlegal with hsame | hdead
        · exact hmailed.trans (hbefore.trans hsame.symm)
        · refine absurd hlive (hdead htoken ?_)
          rw [holdLater.userId]
          exact (Database.id_of_get holdUser).symm
    · exact absurd hnone (hevolve.owned hold)

/-- What verified an address had been mailed to that address. -/
def VerifiedByMail (db : Database orgistry) : Prop :=
  ∀ ⦃x : Id⦄ ⦃user : User⦄, db.get .users x = some user → user.emailVerifiedAt ≠ none →
    user.verifiedFor = some user.normalizedEmail

/-- A token that has neither been consumed nor retired, whatever the time. -/
def Unsettled (_ : Database orgistry) (token : AccountToken) : Prop := token.unsettled

/-- A database to start from: its constraints hold, and its verifications and
outstanding verification tokens are for the stored addresses. -/
structure MailedToUsers (db : Database orgistry) : Prop where
  consistent : Consistent db.tables
  verified : VerifiedByMail db
  tokens : LiveTokensMatch Unsettled AccountToken.mailedTo User.normalizedEmail db
    (db.get .emailVerificationTokens)

/-- When a verification token is stored, it has been mailed to the address that
its user still has. -/
def VerificationMailCurrent (tx : Tx orgistry) (db : Database orgistry) : Prop :=
  ∀ token ∈ (tx.writes .emailVerificationTokens).rows,
    db.get .emailVerificationTokens (AccountToken.id token) = none →
    ∀ user ∈ (db.view tx.writes .users).rows, User.id user = AccountToken.userId token →
      AccountToken.mailedTo token = User.normalizedEmail user

instance (tx : Tx orgistry) (db : Database orgistry) :
    Decidable (VerificationMailCurrent tx db) :=
  inferInstanceAs (Decidable (∀ token ∈ (tx.writes .emailVerificationTokens).rows, _))

theorem Unsettled.later {old new : AccountToken} (h : old.Later new) {db' : Database orgistry}
    (hnew : Unsettled db' new) : Unsettled db old := by
  unfold Unsettled at hnew ⊢
  by_contra hsettled
  simp [h.settled (by simpa using hsettled)] at hnew

/-- One step of a user: a verification comes from a token of that user. -/
theorem UserStep.verifiedByMail {old : Option User} {new : User} (h : UserStep tx db old new)
    (hold : ∀ was, old = some was → db.get .users was.id = some was)
    (hverified : VerifiedByMail db)
    (htokens : LiveTokensMatch Unsettled AccountToken.mailedTo User.normalizedEmail db
      (db.get .emailVerificationTokens)) (hnew : new.emailVerifiedAt ≠ none) :
    new.verifiedFor = some new.normalizedEmail := by
  cases h with
  | register pending now => rfl
  | changePassword =>
      have hbefore := hverified (hold _ rfl)
      exact hbefore hnew
  | resetPassword =>
      have hbefore := hverified (hold _ rfl)
      exact hbefore hnew
  | changeEmail => exact absurd rfl hnew
  | verify htoken hunsettled huser hconsumed =>
      have hbefore := htokens htoken hunsettled (huser ▸ hold _ rfl)
      exact congrArg some hbefore

/-- One commit that stores verification tokens for current addresses only. -/
theorem VerifiedByMail.commit (h : VerifiedByMail db) (hG : Guarantee cfg tx db)
    (htokens : LiveTokensMatch Unsettled AccountToken.mailedTo User.normalizedEmail db
      (db.get .emailVerificationTokens)) : VerifiedByMail (db.apply tx.writes) := by
  intro x user huser hset
  rcases hG.after huser with hsame | hlegal
  · exact h hsame hset
  · refine UserStep.verifiedByMail hlegal ?_ h htokens hset
    intro was hwas
    rwa [show was.id = x from Database.id_of_get hwas]

/-- One commit that writes no token for an address already left. -/
theorem verificationMail_commit (hok : VerificationMailCurrent tx db) (hG : Guarantee cfg tx db)
    (hdb : Consistent db.tables)
    (h : LiveTokensMatch Unsettled AccountToken.mailedTo User.normalizedEmail db
      (db.get .emailVerificationTokens)) :
    LiveTokensMatch Unsettled AccountToken.mailedTo User.normalizedEmail
      (db.apply tx.writes) ((db.apply tx.writes).get .emailVerificationTokens) := by
  refine h.commit hG (hG.verificationTokens hdb) ?_ ?_ ?_
  · exact fun hlater hlive => ⟨hlive.later hlater, hlater.mailedTo⟩
  · intro x token hnone htoken user huser
    have hid : AccountToken.id token = x := Database.id_of_get htoken
    exact hok token (Relation.mem_of_get (Database.get_writes_of_new hnone htoken))
      (by rw [hid]; exact hnone) user (Database.mem_view_of_get huser)
      (Database.id_of_get huser)
  · intro _ old new _ _ hstep
    cases hstep with
    | changePassword => exact .inl rfl
    | resetPassword => exact .inl rfl
    | verify => exact .inl rfl
    | @changeEmail _ email normalizedEmail now _ hsettled =>
        by_cases hsame : normalizedEmail = old.normalizedEmail
        · exact .inl hsame
        · refine .inr fun htoken huser hlive => ?_
          simp [Unsettled, hsettled hsame htoken huser] at hlive

variable {s : ServerState}

/-- In every run in which verification tokens are stored while the address that
they were mailed to is current, only mail to the current address verifies it. -/
theorem verified_by_mail (h : Reachable cfg MailedToUsers VerificationMailCurrent s) :
    VerifiedByMail s.history.now := by
  have htrace := Reachable.trace (fun db hdb => hdb.consistent) h
  suffices hboth : VerifiedByMail s.history.now ∧
      LiveTokensMatch Unsettled AccountToken.mailedTo User.normalizedEmail s.history.now
        (s.history.now.get .emailVerificationTokens) from hboth.1
  refine htrace.induction (P := fun w => VerifiedByMail w.now ∧
    LiveTokensMatch Unsettled AccountToken.mailedTo User.normalizedEmail w.now
      (w.now.get .emailVerificationTokens)) ?_ (fun _ _ hw => hw) ?_
  · exact fun db hdb => ⟨hdb.verified, hdb.tokens⟩
  · rintro w tx hw - ⟨hok, hG⟩ ⟨hverified, htokens⟩
    have hconsistent := hw.consistent fun db hdb => hdb.consistent
    exact ⟨hverified.commit hG htokens, verificationMail_commit hok hG hconsistent htokens⟩

def verificationTokens (db : Database orgistry) : Id → Option AccountToken :=
  db.get .emailVerificationTokens

def resetTokens (db : Database orgistry) : Id → Option AccountToken :=
  db.get .passwordResetTokens

/-- Whenever a token is consumed, the address has not changed since the request
that mailed the token read it. -/
def ConsumedWhileCurrent (tokens : Database orgistry → Id → Option AccountToken)
    (w : History orgistry) : Prop :=
  ∀ before after, w.Adjacent before after → ∀ ⦃x : Id⦄ ⦃old new : AccountToken⦄,
    tokens before x = some old → tokens after x = some new → old.usedAt = none →
    new.usedAt ≠ none → ∀ ⦃user : User⦄, before.get .users old.userId = some user →
      old.mailedAfter = user.emailChanges

/-- Neither kind of credential outlives a change of the address. -/
def OldMailIsDead (w : History orgistry) : Prop :=
  ConsumedWhileCurrent verificationTokens w ∧ ConsumedWhileCurrent resetTokens w

/-- A token that a completion starting now would consume. -/
def Consumable (db : Database orgistry) (token : AccountToken) : Prop :=
  token.unsettled ∧ db.clock < token.expiresAt

instance (db : Database orgistry) (token : AccountToken) : Decidable (Consumable db token) :=
  inferInstanceAs (Decidable (_ ∧ _))

/-- A database to start from: its constraints hold, and its outstanding tokens
were mailed to the stored addresses. -/
structure NoOldMail (db : Database orgistry) : Prop where
  consistent : Consistent db.tables
  verification : LiveTokensMatch Unsettled AccountToken.mailedAfter User.emailChanges db
    (verificationTokens db)
  reset : LiveTokensMatch Consumable AccountToken.mailedAfter User.emailChanges db
    (resetTokens db)

/-- The commit stores new tokens only if the address has not changed since it
was read for them. -/
def MailCurrent (tx : Tx orgistry) (db : Database orgistry) (written : List AccountToken)
    (stored : Id → Option AccountToken) : Prop :=
  ∀ token ∈ written, stored token.id = none →
    ∀ user ∈ (db.view tx.writes .users).rows, User.id user = token.userId →
      token.mailedAfter = User.emailChanges user

instance (tx : Tx orgistry) (db : Database orgistry) (written : List AccountToken)
    (stored : Id → Option AccountToken) : Decidable (MailCurrent tx db written stored) :=
  inferInstanceAs (Decidable (∀ token ∈ written, _))

/-- The commit changes the address only of users who have no consumable reset
token. -/
def ChangesMeetNoResetToken (tx : Tx orgistry) (db : Database orgistry) : Prop :=
  ∀ new ∈ (db.view tx.writes .users).rows, ∀ old ∈ (db.tables .users).rows,
    User.id old = User.id new → User.emailChanges new ≠ User.emailChanges old →
    ∀ token ∈ (db.view tx.writes .passwordResetTokens).rows,
      AccountToken.userId token = User.id old → ¬Consumable db token

instance (tx : Tx orgistry) (db : Database orgistry) :
    Decidable (ChangesMeetNoResetToken tx db) :=
  inferInstanceAs (Decidable (∀ new ∈ (db.view tx.writes .users).rows, _))

/-- A reset, which compares the expiry of its token with a clock that it has read
before, also commits before the token expires. -/
def ResetsInTime (tx : Tx orgistry) (db : Database orgistry) : Prop :=
  ∀ new ∈ (db.view tx.writes .passwordResetTokens).rows, AccountToken.usedAt new ≠ none →
    ∀ old ∈ (db.tables .passwordResetTokens).rows, AccountToken.id old = AccountToken.id new →
      AccountToken.usedAt old = none → db.clock < AccountToken.expiresAt old

instance (tx : Tx orgistry) (db : Database orgistry) : Decidable (ResetsInTime tx db) :=
  inferInstanceAs (Decidable (∀ new ∈ (db.view tx.writes .passwordResetTokens).rows, _))

/-- No change of an address overtakes the mail of a token, none happens while a
reset token is out, and no reset takes until after the expiry of its token. -/
structure MailSettled (tx : Tx orgistry) (db : Database orgistry) : Prop where
  verification : MailCurrent tx db (tx.writes .emailVerificationTokens).rows
    (verificationTokens db)
  reset : MailCurrent tx db (tx.writes .passwordResetTokens).rows (resetTokens db)
  changes : ChangesMeetNoResetToken tx db
  inTime : ResetsInTime tx db

instance (tx : Tx orgistry) (db : Database orgistry) : Decidable (MailSettled tx db) :=
  decidable_of_iff
    (MailCurrent tx db (tx.writes .emailVerificationTokens).rows (verificationTokens db) ∧
      MailCurrent tx db (tx.writes .passwordResetTokens).rows (resetTokens db) ∧
      ChangesMeetNoResetToken tx db ∧ ResetsInTime tx db)
    ⟨fun h => ⟨h.1, h.2.1, h.2.2.1, h.2.2.2⟩, fun h => ⟨h.1, h.2, h.3, h.4⟩⟩

theorem MailCurrent.issued {t : Id → Option AccountToken} {written : List AccountToken}
    {x : Id} {token : AccountToken} (hok : MailCurrent tx db written t) (hid : token.id = x)
    (hnone : t x = none) (htoken : token ∈ written) {user : User}
    (huser : (db.apply tx.writes).get .users token.userId = some user) :
    token.mailedAfter = user.emailChanges :=
  hok token htoken (hid ▸ hnone) user (Database.mem_view_of_get huser)
    (Database.id_of_get huser)

/-- One commit: verification tokens stay current, since a change of the address
retires those that are stored. -/
theorem verificationTokens_commit (hok : MailSettled tx db) (hG : Guarantee cfg tx db)
    (hdb : Consistent db.tables)
    (h : LiveTokensMatch Unsettled AccountToken.mailedAfter User.emailChanges db
      (verificationTokens db)) :
    LiveTokensMatch Unsettled AccountToken.mailedAfter User.emailChanges
      (db.apply tx.writes) (verificationTokens (db.apply tx.writes)) := by
  refine h.commit hG (hG.verificationTokens hdb) ?_ ?_ ?_
  · exact fun hlater hlive => ⟨hlive.later hlater, hlater.mailedAfter⟩
  · intro x token hnone htoken user huser
    exact hok.verification.issued (Database.id_of_get htoken) hnone
      (Relation.mem_of_get (Database.get_writes_of_new hnone htoken)) huser
  · intro _ old new _ _ hstep
    cases hstep with
    | changePassword => exact .inl rfl
    | resetPassword => exact .inl rfl
    | verify => exact .inl rfl
    | @changeEmail _ email normalizedEmail now _ hsettled =>
        by_cases hsame : normalizedEmail = old.normalizedEmail
        · exact .inl (if_pos hsame)
        · refine .inr fun htoken huser hlive => ?_
          simp [Unsettled, hsettled hsame htoken huser] at hlive

/-- One commit: consumable reset tokens stay current only because no address
changes over them. -/
theorem resetTokens_commit (hok : MailSettled tx db) (hG : Guarantee cfg tx db)
    (hdb : Consistent db.tables)
    (h : LiveTokensMatch Consumable AccountToken.mailedAfter User.emailChanges db
      (resetTokens db)) :
    LiveTokensMatch Consumable AccountToken.mailedAfter User.emailChanges
      (db.apply tx.writes) (resetTokens (db.apply tx.writes)) := by
  refine h.commit hG (hG.resetTokens hdb) ?_ ?_ ?_
  · intro old new hlater hlive
    have hunsettled : Unsettled (db.apply tx.writes) new := hlive.1
    have hbefore : Unsettled db old := Unsettled.later hlater hunsettled
    refine ⟨⟨hbefore, ?_⟩, hlater.mailedAfter⟩
    rw [← hlater.expiresAt]
    exact hlive.2
  · intro x token hnone htoken user huser
    exact hok.reset.issued (Database.id_of_get htoken) hnone
      (Relation.mem_of_get (Database.get_writes_of_new hnone htoken)) huser
  · intro x old new hold hnew _
    by_cases hsame : new.emailChanges = old.emailChanges
    · exact .inl hsame
    · refine .inr fun htoken huser hlive => ?_
      exact hok.changes new (Database.mem_view_of_get hnew) old (Relation.mem_of_get hold)
        ((Database.id_of_get hold).trans (Database.id_of_get hnew).symm) hsame _
        (Database.mem_view_of_get htoken) huser hlive

/-- One commit: what it consumes is current. -/
theorem MailSettled.resetTokens_consumed (hok : MailSettled tx db) (hG : Guarantee cfg tx db)
    (hdb : Consistent db.tables)
    (h : LiveTokensMatch Consumable AccountToken.mailedAfter User.emailChanges db
      (resetTokens db)) {x : Id} {old new : AccountToken} (hold : resetTokens db x = some old)
    (hnew : resetTokens (db.apply tx.writes) x = some new) (hunused : old.usedAt = none)
    (hused : new.usedAt ≠ none) {user : User}
    (huser : db.get .users old.userId = some user) : old.mailedAfter = user.emailChanges := by
  have hunexpired : db.clock < old.expiresAt :=
    hok.inTime new (Database.mem_view_of_get hnew) hused old (Relation.mem_of_get hold)
      ((Database.id_of_get hold).trans (Database.id_of_get hnew).symm) hunused
  have hunsettled := (hG.resetTokens hdb).consumed hold hnew hunused hused
  exact h hold ⟨hunsettled, hunexpired⟩ huser

theorem LiveTokensMatch.advance {tokens : Id → Option AccountToken} (n : ℕ)
    (h : LiveTokensMatch Consumable AccountToken.mailedAfter User.emailChanges db tokens) :
    LiveTokensMatch Consumable AccountToken.mailedAfter User.emailChanges (db.advance n)
      tokens := by
  intro x token htoken hlive user huser
  exact h htoken ⟨hlive.1, Nat.lt_of_le_of_lt (Nat.le_add_right _ n) hlive.2⟩ huser

theorem ConsumedWhileCurrent.push {tokens : Database orgistry → Id → Option AccountToken}
    (h : ConsumedWhileCurrent tokens w) {db : Database orgistry}
    (hnow : ∀ ⦃x : Id⦄ ⦃old new : AccountToken⦄, tokens w.now x = some old →
      tokens db x = some new → old.usedAt = none → new.usedAt ≠ none →
      ∀ ⦃user : User⦄, w.now.get .users old.userId = some user →
        old.mailedAfter = user.emailChanges) : ConsumedWhileCurrent tokens (w.push db) := by
  intro before after hadjacent
  rcases History.adjacent_push_iff.mp hadjacent with ⟨rfl, rfl⟩ | hadjacent
  · exact hnow
  · exact h before after hadjacent

theorem ConsumedWhileCurrent.initial (tokens : Database orgistry → Id → Option AccountToken) :
    ConsumedWhileCurrent tokens ⟨db, []⟩ :=
  fun _ _ hadjacent => absurd hadjacent History.not_adjacent_initial

/-- Nothing is consumed while the clock advances. -/
theorem ConsumedWhileCurrent.unchanged {tokens : Database orgistry → Id → Option AccountToken}
    (h : ConsumedWhileCurrent tokens w) (hsame : tokens db = tokens w.now) :
    ConsumedWhileCurrent tokens (w.push db) := by
  refine h.push fun x old new hold hnew hunused hused => ?_
  rw [hsame, hold] at hnew
  exact absurd hunused (Option.some_inj.mp hnew ▸ hused)

/-- In every run in which no change of an address overtakes a mail or a reset
token, and no reset outlasts its token, the mail of an abandoned address is worth
nothing. -/
theorem old_mail_is_dead (h : Reachable cfg NoOldMail MailSettled s) :
    OldMailIsDead s.history := by
  have htrace := Reachable.trace (fun db hdb => hdb.consistent) h
  suffices hall : OldMailIsDead s.history ∧
      LiveTokensMatch Unsettled AccountToken.mailedAfter User.emailChanges s.history.now
        (verificationTokens s.history.now) ∧
      LiveTokensMatch Consumable AccountToken.mailedAfter User.emailChanges s.history.now
        (resetTokens s.history.now) from hall.1
  refine htrace.induction (P := fun w => OldMailIsDead w ∧
      LiveTokensMatch Unsettled AccountToken.mailedAfter User.emailChanges w.now
        (verificationTokens w.now) ∧
      LiveTokensMatch Consumable AccountToken.mailedAfter User.emailChanges w.now
        (resetTokens w.now)) ?_ ?_ ?_
  · exact fun db hdb => ⟨⟨.initial _, .initial _⟩, hdb.verification, hdb.reset⟩
  · rintro w n ⟨⟨hverification, hreset⟩, hverificationTokens, hresetTokens⟩
    exact ⟨⟨hverification.unchanged rfl, hreset.unchanged rfl⟩, hverificationTokens,
      hresetTokens.advance n⟩
  · rintro w tx hw - ⟨hok, hG⟩ ⟨⟨hverification, hreset⟩, hverificationTokens, hresetTokens⟩
    have hconsistent := hw.consistent fun db hdb => hdb.consistent
    refine ⟨⟨hverification.push ?_, hreset.push ?_⟩,
      verificationTokens_commit hok hG hconsistent hverificationTokens,
      resetTokens_commit hok hG hconsistent hresetTokens⟩
    · intro x old new hold hnew hunused hused user huser
      exact hverificationTokens hold
        ((hG.verificationTokens hconsistent).consumed hold hnew hunused hused) huser
    · intro x old new hold hnew hunused hused user huser
      exact hok.resetTokens_consumed hG hconsistent hresetTokens hold hnew hunused hused huser

/-! ## Replayed -/

theorem sampleAccount_mailedToUsers : MailedToUsers sampleAccount where
  consistent := sampleAccount_consistent
  verified x user huser hset := by
    have hnever : ∀ user ∈ (sampleAccount.tables .users).rows,
        User.emailVerifiedAt user = none := by
      decide
    exact absurd (hnever user (Relation.mem_of_get huser)) hset
  tokens x token htoken := by cases htoken

theorem sampleAccount_noOldMail : NoOldMail sampleAccount where
  consistent := sampleAccount_consistent
  verification x token htoken := by cases htoken
  reset x token htoken _ user huser := by
    have hnever : ∀ token ∈ (sampleAccount.tables .passwordResetTokens).rows,
        ∀ user ∈ (sampleAccount.tables .users).rows,
          AccountToken.mailedAfter token = User.emailChanges user := by
      decide
    exact hnever token (Relation.mem_of_get htoken) user (Relation.mem_of_get huser)

def aliceAsksForMail : Request := .requestVerificationEmail (some ⟨1, 1⟩) 21

def aliceChangesEmail (sessionId : Id) (currentPassword : String) : Request :=
  .changeEmail (some ⟨1, sessionId⟩)
    { newEmail := "b@x", currentPassword, verificationTokenHash := 22 }

/-- Alice asks for a verification mail and uses its token. -/
def afterVerification : ServerState :=
  (State.replay (serve sampleConfig) VerificationMailCurrent
    [.start aliceAsksForMail, .steps 0 40 31, .start (.completeVerification 21), .steps 1 40 0]
    (State.initial sampleAccount)).get (by decide)

theorem verification_is_for_current_address :
    VerifiedByMail afterVerification.history.now ∧
      ∃ user ∈ (afterVerification.history.now.tables .users).rows,
        User.emailVerifiedAt user ≠ none :=
  ⟨verified_by_mail ((State.Reach.init sampleAccount_mailedToUsers).later
    (.of_replay (Option.some_get _).symm)), by decide⟩

/-- A request reads the old address for a verification mail, Alice changes the
address, the request stores its token, and the token is used. -/
def afterForeignVerification : ServerState :=
  (State.replay (serve sampleConfig) State.Always
    [.start aliceAsksForMail, .steps 0 4 31, .start (aliceChangesEmail 1 "old"),
      .steps 1 40 32, .steps 0 40 31, .start (.completeVerification 21), .steps 2 40 0]
    (State.initial sampleAccount)).get (by decide)

theorem abandoned_address_is_verified :
    ¬∀ (cfg : Config) (s : ServerState), Reachable cfg MailedToUsers State.Always s →
      VerifiedByMail s.history.now := by
  intro hclaim
  have hverified := hclaim sampleConfig afterForeignVerification
    ((State.Reach.init sampleAccount_mailedToUsers).later
      (.of_replay (Option.some_get _).symm))
  obtain ⟨user, huser, hset, hmailed⟩ :
      ∃ user ∈ (afterForeignVerification.history.now.tables .users).rows,
        User.emailVerifiedAt user ≠ none ∧
        User.verifiedFor user ≠ some (User.normalizedEmail user) := by
    decide
  exact hmailed (hverified (Relation.mem_rows_iff.mp huser) hset)

/-- Alice resets her password, logs in, changes her address and verifies the new
one. -/
def afterOrderlyChange : ServerState :=
  (State.replay (serve sampleConfig) MailSettled
    [.start (.completeReset 5 "new" 0), .steps 0 40 0,
      .start (aliceLogsIn "new"), .steps 1 40 9,
      .start (aliceChangesEmail 9 "new"), .steps 2 40 32,
      .start (.completeVerification 22), .steps 3 40 0]
    (State.initial sampleAccount)).get (by decide)

theorem orderly_change_leaves_no_mail :
    OldMailIsDead afterOrderlyChange.history ∧
      ∃ user ∈ (afterOrderlyChange.history.now.tables .users).rows,
        User.emailChanges user = 1 ∧ User.emailVerifiedAt user ≠ none :=
  ⟨old_mail_is_dead ((State.Reach.init sampleAccount_noOldMail).later
    (.of_replay (Option.some_get _).symm)), by decide⟩

/-- Alice changes her address, and the reset token in her old mailbox still
resets her password. -/
def afterAbandonedReset : ServerState :=
  (State.replay (serve sampleConfig) State.Always
    [.start (aliceChangesEmail 1 "old"), .steps 0 40 32, .start (.completeReset 5 "new" 0),
      .steps 1 40 0]
    (State.initial sampleAccount)).get (by decide)

/-- The address is changed while a reset token is out; the old mailbox then resets the password.
-/
theorem abandoned_mailbox_resets_password :
    ¬∀ (cfg : Config) (s : ServerState), Reachable cfg NoOldMail State.Always s →
      OldMailIsDead s.history := by
  intro hclaim
  have hdead := (hclaim sampleConfig afterAbandonedReset
    ((State.Reach.init sampleAccount_noOldMail).later (.of_replay (Option.some_get _).symm))).2
  obtain ⟨before, after, hadjacent, old, hold, new, hnew, hid, hunused, hused, user, huser,
      howner, hchanged⟩ :
      ∃ before after, afterAbandonedReset.history.Adjacent before after ∧
      ∃ old ∈ (before.tables .passwordResetTokens).rows,
      ∃ new ∈ (after.tables .passwordResetTokens).rows,
        AccountToken.id old = AccountToken.id new ∧ AccountToken.usedAt old = none ∧
        AccountToken.usedAt new ≠ none ∧
        ∃ user ∈ (before.tables .users).rows, User.id user = AccountToken.userId old ∧
          AccountToken.mailedAfter old ≠ User.emailChanges user :=
    ⟨_, _, ⟨[], _, rfl⟩, by decide⟩
  have hnew' : resetTokens after (AccountToken.id old) = some new :=
    Eq.trans (congrArg (resetTokens after) hid) (Relation.mem_rows_iff.mp hnew)
  have huser' : before.get .users (AccountToken.userId old) = some user :=
    Eq.trans (congrArg (before.get .users) howner.symm) (Relation.mem_rows_iff.mp huser)
  exact hchanged (hdead _ _ hadjacent (Relation.mem_rows_iff.mp hold) hnew' hunused hused huser')

end Orgistry.Model
