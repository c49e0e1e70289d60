import Orgistry.Accounts.Mailbox

/-!
# One live generation of credentials

Whoever issues a credential retires its predecessors and then inserts the new
row.  For reset tokens the lock on the user row makes this exclusive, and for
pending registrations a unique index does.  Verification tokens have neither,
so a token that was stored after the retiring statement began survives it.
-/

namespace Orgistry.Model

open ReadCommitted

variable {cfg : Config} {tx : Tx orgistry} {db : Database orgistry} {w : History orgistry}

/-- Each user has at most one token that can still be consumed. -/
def OneUsable (tokens : Database orgistry → Id → Option AccountToken)
    (db : Database orgistry) : Prop :=
  ∀ ⦃x y : Id⦄ ⦃token other : AccountToken⦄, tokens db x = some token →
    tokens db y = some other → token.userId = other.userId → Consumable db token →
      Consumable db other → x = y

theorem Consumable.before {old new : AccountToken} (h : old.Later new)
    (hnew : Consumable (db.apply tx.writes) new) : Consumable db old := by
  have hunsettled : Unsettled db new := hnew.1
  have hbefore : Unsettled db old := hunsettled.later h
  refine ⟨hbefore, ?_⟩
  rw [← h.expiresAt]
  exact hnew.2

/-- Time only takes tokens away. -/
theorem OneUsable.advance {tokens : Database orgistry → Id → Option AccountToken}
    (h : OneUsable tokens db) (n : ℕ) (hsame : tokens (db.advance n) = tokens db) :
    OneUsable tokens (db.advance n) := by
  have hbefore : ∀ {token : AccountToken}, Consumable (db.advance n) token →
      Consumable db token :=
    fun hlive => ⟨hlive.1, Nat.lt_of_le_of_lt (Nat.le_add_right _ n) hlive.2⟩
  intro x y token other htoken hother huser hlive hlive'
  rw [hsame] at htoken hother
  exact h htoken hother huser (hbefore hlive) (hbefore hlive')

/-- One commit, if a new token finds the other usable ones of its user settled. -/
theorem OneUsable.commit {tokens : Database orgistry → Id → Option AccountToken}
    (h : OneUsable tokens db)
    (hevolve : TokensEvolve db (tokens db) (tokens (db.apply tx.writes)))
    (hissued : ∀ {x y : Id} {token other : AccountToken}, tokens db x = none →
      tokens (db.apply tx.writes) x = some token →
        tokens (db.apply tx.writes) y = some other → other.userId = token.userId → y ≠ x →
          (∀ old, tokens db y = some old → Consumable db old) → other.unsettled = false) :
    OneUsable tokens (db.apply tx.writes) := by
  have hbefore : ∀ {y : Id} {other : AccountToken}, tokens (db.apply tx.writes) y = some other →
      Consumable (db.apply tx.writes) other → ∀ old, tokens db y = some old →
        Consumable db old := by
    intro y other hother hlive old hold
    rcases hevolve.later hother with hnone | ⟨was, hwas, hlater⟩
    · simp [hold] at hnone
    · obtain rfl := Option.some_inj.mp (hold.symm.trans hwas)
      exact hlive.before hlater
  intro x y token other htoken hother huser hlive hlive'
  by_contra hne
  rcases hevolve.later htoken with hnone | ⟨old, hold, holdLater⟩
  · have hsettled := hissued hnone htoken hother huser.symm (Ne.symm hne)
      (hbefore hother hlive')
    exact absurd (hsettled.symm.trans hlive'.1) (by simp)
  · rcases hevolve.later hother with hnone | ⟨old', hold', holdLater'⟩
    · have hsettled := hissued hnone hother htoken huser hne (hbefore htoken hlive)
      exact absurd (hsettled.symm.trans hlive.1) (by simp)
    · refine hne (h hold hold' ?_ (hlive.before holdLater) (hlive'.before holdLater'))
      rw [← holdLater.userId, ← holdLater'.userId]
      exact huser

/-- A database to start from: its constraints hold, and no user has two usable
verification tokens. -/
structure OneVerificationToken (db : Database orgistry) : Prop where
  consistent : Consistent db.tables
  usable : OneUsable verificationTokens db

/-- When a verification token is stored, the usable tokens of its user were
stored already when the statement began that retires them. -/
def IssuedAlone (tx : Tx orgistry) (db : Database orgistry) : Prop :=
  ∀ token ∈ (tx.writes .emailVerificationTokens).rows,
    db.get .emailVerificationTokens (AccountToken.id token) = none →
    ∀ other ∈ (db.tables .emailVerificationTokens).rows,
      AccountToken.userId other = AccountToken.userId token → Consumable db other →
      ∀ shown ∈ tx.snapshots, shown.1 = .emailVerificationTokens →
        shown.2.get .emailVerificationTokens (AccountToken.id other) ≠ none

instance (tx : Tx orgistry) (db : Database orgistry) : Decidable (IssuedAlone tx db) :=
  inferInstanceAs (Decidable (∀ token ∈ (tx.writes .emailVerificationTokens).rows, _))

/-- One commit, if what it retires is all that its snapshot has to show. -/
theorem verificationTokens_oneUsable (hok : IssuedAlone tx db) (hG : Guarantee cfg tx db)
    (hdb : Consistent db.tables) (h : OneUsable verificationTokens db) :
    OneUsable verificationTokens (db.apply tx.writes) := by
  refine h.commit (hG.verificationTokens hdb) ?_
  intro x y token other hnone htoken hother huser hne hbefore
  have hid : AccountToken.id token = x := Database.id_of_get htoken
  have hstep : AccountTokenStep db (VerificationIssued tx db) none token := by
    rcases hG.origin (t := .emailVerificationTokens) htoken with ⟨old, hold, -⟩ | ⟨-, hstep⟩
    · exact absurd (hnone.symm.trans hold) (by simp)
    · exact hstep
  cases hstep with
  | issue params _ hissued =>
      obtain ⟨snapshot, hsnapshot, hothers⟩ := hissued
      refine hothers hother huser (fun heq => hne (heq.trans hid)) ?_
      cases hold : db.get .emailVerificationTokens y with
      | none => exact .inr hold
      | some old =>
          have hyold : AccountToken.id old = y := Database.id_of_get hold
          have howner : old.userId = other.userId := by
            rcases (hG.verificationTokens hdb).later hother with hfresh | ⟨was, hwas, hlater⟩
            · exact absurd (hfresh.symm.trans hold) (by simp)
            · obtain rfl := Option.some_inj.mp (hold.symm.trans hwas)
              exact hlater.userId.symm
          have hshown := hok _ (Relation.mem_of_get (Database.get_writes_of_new hnone htoken))
            (by rw [hid]; exact hnone) old (Relation.mem_of_get hold) (howner.trans huser)
            (hbefore old hold) _ hsnapshot rfl
          rw [hyold] at hshown
          exact .inl hshown

variable {s : ServerState}

/-- In every run in which no usable verification token slips in between the
retiring statement and the commit of another one, no user ever has two. -/
theorem one_usable_verification_token (h : Reachable cfg OneVerificationToken IssuedAlone s) :
    OneUsable verificationTokens s.history.now := by
  have htrace := Reachable.trace (fun db hdb => hdb.consistent) h
  refine htrace.induction (P := fun w => OneUsable verificationTokens w.now) ?_ ?_ ?_
  · exact fun db hdb => hdb.usable
  · exact fun w n hw => hw.advance n rfl
  · rintro w tx hw - ⟨hok, hG⟩ htokens
    exact verificationTokens_oneUsable hok hG (hw.consistent fun db hdb => hdb.consistent)
      htokens

theorem resetTokens_oneUsable (hG : Guarantee cfg tx db) (hdb : Consistent db.tables)
    (h : OneUsable resetTokens db) : OneUsable resetTokens (db.apply tx.writes) := by
  refine h.commit (hG.resetTokens hdb) ?_
  intro x y token other hnone htoken hother huser hne _
  have hid : AccountToken.id token = x := Database.id_of_get htoken
  have hstep : AccountTokenStep db (ResetIssued tx db) none token := by
    rcases hG.origin (t := .passwordResetTokens) htoken with ⟨old, hold, -⟩ | ⟨-, hstep⟩
    · exact absurd (hnone.symm.trans hold) (by simp)
    · exact hstep
  cases hstep with
  | issue params _ hissued => exact hissued hother huser (fun heq => hne (heq.trans hid)) trivial

/-- The password of user `y` is reset. -/
def PasswordReset (y : Id) (before after : Database orgistry) : Prop :=
  ∃ old new : User, before.get .users y = some old ∧ after.get .users y = some new ∧
    new.passwordLog = old.passwordLog ++ [.reset]

/-- The step consumes the reset token `x` and resets the password of its user. -/
def ResetBy (x y : Id) (before after : Database orgistry) : Prop :=
  PasswordReset y before after ∧ ∃ (token : AccountToken) (now : ℕ),
    resetTokens before x = some token ∧ token.unsettled ∧ token.userId = y ∧
      resetTokens after x = some (token.consume now)

/-- Whatever resets a password, a token does it. -/
theorem Guarantee.resetBy (hG : Guarantee cfg tx db) {y : Id}
    (h : PasswordReset y db (db.apply tx.writes)) :
    ∃ x, ResetBy x y db (db.apply tx.writes) := by
  have hreset := h
  obtain ⟨old, new, hold, hnew, hlog⟩ := h
  have hy : old.id = y := Database.id_of_get hold
  obtain ⟨new', hnew', hstep⟩ := hG.step hold
  obtain rfl : new = new' := Option.some_inj.mp (hnew.symm.trans hnew')
  rcases hstep with rfl | hstep
  · simp at hlog
  · have huser : UserStep tx db (some old) new := hstep
    cases huser with
    | changePassword => simp at hlog
    | resetPassword htoken hunsettled howner hconsumed =>
        exact ⟨_, hreset, _, _, htoken, hunsettled, howner.trans hy, hconsumed⟩
    | changeEmail => simp at hlog
    | verify => simp at hlog

/-- The token `x` has been consumed or retired. -/
def ResetTokenSettled (x : Id) (db : Database orgistry) : Prop :=
  ∃ token, resetTokens db x = some token ∧ token.unsettled = false

theorem ResetTokenSettled.commit {x : Id} (h : ResetTokenSettled x db)
    (hG : Guarantee cfg tx db) (hdb : Consistent db.tables) :
    ResetTokenSettled x (db.apply tx.writes) := by
  obtain ⟨old, hold, hsettled⟩ := h
  obtain ⟨new, hnew, -⟩ := hG.step (t := .passwordResetTokens) hold
  rcases (hG.resetTokens hdb).later hnew with hnone | ⟨was, hwas, hlater⟩
  · exact absurd (hnone.symm.trans hold) (by simp)
  · obtain rfl := Option.some_inj.mp (hold.symm.trans hwas)
    exact ⟨new, hnew, hlater.settled hsettled⟩

/-- Each address has at most one pending registration that can still be
completed. -/
def OnePending (db : Database orgistry) : Prop :=
  ∀ ⦃x y : Id⦄ ⦃pending other : PendingRegistration⦄,
    db.get .pendingRegistrations x = some pending →
      db.get .pendingRegistrations y = some other →
        pending.normalizedEmail = other.normalizedEmail →
          pending.unsettled → other.unsettled → x = y

/-- The unique index. -/
theorem onePending_of_consistent (hdb : Consistent db.tables) : OnePending db := by
  intro x y pending other hpending hother hemail hlive hlive'
  by_contra hne
  have hconflict := hdb.unique hpending hother hne
  simp only [PendingRegistration.unsettled, Bool.and_eq_true] at hlive hlive'
  simp [rowConflict, hlive, hlive', hemail] at hconflict

/-- The step consumes the pending registration `x` and creates `user` from it. -/
def Yields (x : Id) (user : User) (before after : Database orgistry) : Prop :=
  ∃ (pending : PendingRegistration) (now : ℕ),
    before.get .pendingRegistrations x = some pending ∧ pending.unsettled ∧
      after.get .pendingRegistrations x = some { pending with usedAt := some now } ∧
      user = RegistrationRepository.registeredUser pending now user.id ∧
      before.get .users user.id = none ∧ after.get .users user.id = some user

/-- Whatever creates a user, a pending registration does it. -/
theorem Guarantee.yields (hG : Guarantee cfg tx db) {user : User}
    (hnone : db.get .users user.id = none)
    (hnew : (db.apply tx.writes).get .users user.id = some user) :
    ∃ x, Yields x user db (db.apply tx.writes) := by
  rcases hG.origin hnew with ⟨old, hold, -⟩ | ⟨-, hstep⟩
  · exact absurd (hnone.symm.trans hold) (by simp)
  · have huser : UserStep tx db none user := hstep
    cases huser with
    | register hstored hunsettled hconsumed =>
        exact ⟨_, _, _, hstored, hunsettled, hconsumed, rfl, hnone, hnew⟩

/-- Two users of one pending registration have its address, so they are one. -/
theorem Yields.unique {x : Id} {user user' : User} {before after : Database orgistry}
    (h : Yields x user before after) (h' : Yields x user' before after)
    (hafter : Consistent after.tables) : user = user' := by
  obtain ⟨pending, now, hstored, -, -, huser, -, hnew⟩ := h
  obtain ⟨pending', now', hstored', -, -, huser', -, hnew'⟩ := h'
  obtain rfl := Option.some_inj.mp (hstored.symm.trans hstored')
  have hsame : user.id = user'.id := by
    by_contra hne
    have hconflict := hafter.unique hnew hnew' hne
    rw [huser, huser'] at hconflict
    simp [rowConflict, RegistrationRepository.registeredUser] at hconflict
  rw [hsame, hnew'] at hnew
  exact (Option.some_inj.mp hnew).symm

/-- The pending registration `x` has been consumed or retired. -/
def PendingSettled (x : Id) (db : Database orgistry) : Prop :=
  ∃ pending : PendingRegistration, db.get .pendingRegistrations x = some pending ∧
    pending.unsettled = false

theorem PendingSettled.commit {x : Id} (h : PendingSettled x db) (hG : Guarantee cfg tx db) :
    PendingSettled x (db.apply tx.writes) := by
  obtain ⟨old, hold, hsettled⟩ := h
  obtain ⟨new, hnew, hstep⟩ := hG.step (t := .pendingRegistrations) hold
  rcases hstep with rfl | hstep
  · exact ⟨_, hnew, hsettled⟩
  · have hpending : PendingRegistrationStep (some old) new := hstep
    cases hpending with
    | invalidate hunsettled => exact absurd (hsettled.symm.trans hunsettled) (by simp)
    | consume hunsettled => exact absurd (hsettled.symm.trans hunsettled) (by simp)

/-! ## Exclusive generations -/

/-- A database to start from: its constraints hold, and no user has two usable
reset tokens. -/
structure OneResetToken (db : Database orgistry) : Prop where
  consistent : Consistent db.tables
  usable : OneUsable resetTokens db

/-- One live generation of reset tokens and of pending registrations: at most
one of each is usable, and each is used at most once. -/
structure OneGeneration (w : History orgistry) : Prop where
  resetTokens : OneUsable resetTokens w.now
  resetOnce : ∀ x, w.AtMostOnce fun before after => ∃ y, ResetBy x y before after
  resetByToken : ∀ step ∈ w.steps, ∀ y, PasswordReset y step.1 step.2 →
    ∃ x, ResetBy x y step.1 step.2
  pending : OnePending w.now
  oneUser : ∀ x, ∀ step ∈ w.steps, ∀ step' ∈ w.steps, ∀ user user',
    Yields x user step.1 step.2 → Yields x user' step'.1 step'.2 → user = user'
  usersRegistered : ∀ step ∈ w.steps, ∀ user : User, step.1.get .users user.id = none →
    step.2.get .users user.id = some user → ∃ x, Yields x user step.1 step.2

variable {ok : Tx orgistry → Database orgistry → Prop}

theorem one_live_generation (h : Reachable cfg OneResetToken ok s) :
    OneGeneration s.history := by
  have hinit : ∀ db : Database orgistry, OneResetToken db → Consistent db.tables :=
    fun db hdb => hdb.consistent
  have htrace := Reachable.trace hinit h
  have hconsistent := htrace.consistent_steps hinit
  refine ⟨?_, fun x => ?_, ?_, onePending_of_consistent (htrace.consistent hinit), ?_, ?_⟩
  · refine htrace.induction (P := fun w => OneUsable Model.resetTokens w.now) ?_ ?_ ?_
    · exact fun db hdb => hdb.usable
    · exact fun w n hw => hw.advance n rfl
    · exact fun w tx hw _ hG htokens =>
        resetTokens_oneUsable hG.2 (hw.consistent hinit) htokens
  · refine htrace.atMostOnce (M := ResetTokenSettled x) ?_ ?_ (fun _ _ hmark => hmark) ?_
    · rintro before after ⟨y, -, token, now, htoken, hunsettled, -⟩ ⟨token', htoken', hsettled⟩
      obtain rfl := Option.some_inj.mp (htoken.symm.trans htoken')
      exact absurd (hsettled.symm.trans hunsettled) (by simp)
    · rintro before after ⟨y, -, token, now, -, -, -, hafter⟩
      exact ⟨_, hafter, by simp⟩
    · exact fun w tx hw _ hG hmark => hmark.commit hG.2 (hw.consistent hinit)
  · refine htrace.forall_steps (P := fun before after => ∀ y, PasswordReset y before after →
      ∃ x, ResetBy x y before after) ?_ fun w tx _ _ hG y hreset => hG.2.resetBy hreset
    rintro w n - y ⟨old, new, hold, hnew, hlog⟩
    obtain rfl := Option.some_inj.mp (hold.symm.trans hnew)
    simp at hlog
  · intro x step hstep step' hstep' user user' hyields hyields'
    have honce : s.history.AtMostOnce fun before after => ∃ user, Yields x user before after := by
      refine htrace.atMostOnce (M := PendingSettled x) ?_ ?_ (fun _ _ hmark => hmark)
        fun w tx _ _ hG hmark => hmark.commit hG.2
      · rintro before after ⟨user, pending, now, hstored, hunsettled, -⟩ ⟨other, hother, hsettled⟩
        obtain rfl := Option.some_inj.mp (hstored.symm.trans hother)
        exact absurd (hsettled.symm.trans hunsettled) (by simp)
      · rintro before after ⟨user, pending, now, -, -, hafter, -⟩
        exact ⟨_, hafter, by simp [PendingRegistration.unsettled]⟩
    obtain rfl := honce.eq hstep hstep' ⟨user, hyields⟩ ⟨user', hyields'⟩
    exact hyields.unique hyields' (hconsistent step hstep)
  · refine htrace.forall_steps (P := fun (before after : Database orgistry) => ∀ user : User,
      before.get .users user.id = none → after.get .users user.id = some user →
        ∃ x, Yields x user before after) ?_ fun w tx _ _ hG user hnone hnew =>
          hG.2.yields hnone hnew
    intro w n _ user hnone hnew
    exact absurd (hnone.symm.trans hnew) (by simp)

theorem sampleAccount_oneVerificationToken : OneVerificationToken sampleAccount where
  consistent := sampleAccount_consistent
  usable x _ token _ htoken := by cases htoken

def aliceAsksAgain : Request := .requestVerificationEmail (some ⟨1, 2⟩) 23

/-- Alice asks for a verification mail twice, one after the other. -/
def afterTwoMails : ServerState :=
  (State.replay (serve sampleConfig) IssuedAlone
    [.start aliceAsksForMail, .steps 0 40 31, .start aliceAsksAgain, .steps 1 40 33]
    (State.initial sampleAccount)).get (by decide)

theorem second_mail_retires_the_first :
    OneUsable verificationTokens afterTwoMails.history.now ∧
      ∃ token ∈ (afterTwoMails.history.now.tables .emailVerificationTokens).rows,
        Consumable afterTwoMails.history.now token :=
  ⟨one_usable_verification_token ((State.Reach.init sampleAccount_oneVerificationToken).later
    (.of_replay (Option.some_get _).symm)), by decide⟩

/-- Two requests of Alice retire her tokens before either has stored its own. -/
def afterConcurrentMails : ServerState :=
  (State.replay (serve sampleConfig) State.Always
    [.start aliceAsksForMail, .steps 0 8 31, .start aliceAsksAgain, .steps 1 40 33,
      .steps 0 40 31] (State.initial sampleAccount)).get (by decide)

/-- Two issuances of one user race, and neither sees the token of the other. -/
theorem two_usable_verification_tokens :
    ¬∀ (cfg : Config) (s : ServerState), Reachable cfg OneVerificationToken State.Always s →
      OneUsable verificationTokens s.history.now := by
  intro hclaim
  have hone := hclaim sampleConfig afterConcurrentMails
    ((State.Reach.init sampleAccount_oneVerificationToken).later
      (.of_replay (Option.some_get _).symm))
  obtain ⟨token, htoken, other, hother, huser, hlive, hlive', hne⟩ :
      ∃ token ∈ (afterConcurrentMails.history.now.tables .emailVerificationTokens).rows,
      ∃ other ∈ (afterConcurrentMails.history.now.tables .emailVerificationTokens).rows,
        AccountToken.userId token = AccountToken.userId other ∧
        Consumable afterConcurrentMails.history.now token ∧
        Consumable afterConcurrentMails.history.now other ∧
        AccountToken.id token ≠ AccountToken.id other := by
    decide
  exact hne (hone (Relation.mem_rows_iff.mp htoken) (Relation.mem_rows_iff.mp hother) huser hlive
    hlive')

theorem sampleAccount_oneResetToken : OneResetToken sampleAccount where
  consistent := sampleAccount_consistent
  usable x y token other htoken hother _ _ _ := by
    have honly : ∀ token ∈ (sampleAccount.tables .passwordResetTokens).rows,
        AccountToken.id token = 5 := by
      decide
    have hx : AccountToken.id token = x := Database.id_of_get htoken
    have hy : AccountToken.id other = y := Database.id_of_get hother
    rw [← hx, ← hy, honly token (Relation.mem_of_get htoken),
      honly other (Relation.mem_of_get hother)]

def bobRegisters : Request :=
  .requestRegistration
    { email := "b@x", password := "bob", invitationToken := none, salt := 0, tokenHash := 41 }

def bobCompletes : Request :=
  .completeRegistration { tokenHash := 41, issued := { familyId := 8, tokenHash := 8 } }

/-- Alice asks for a reset and resets her password, and Bob registers. -/
def afterResetAndRegistration : ServerState :=
  (State.replay (serve sampleConfig) State.Always
    [.start (.requestReset "a@x" 6), .steps 0 40 31, .start (.completeReset 6 "new" 0),
      .steps 1 60 0, .start bobRegisters, .steps 2 40 41, .start bobCompletes, .steps 3 60 42]
    (State.initial sampleAccount)).get (by decide)

theorem reset_and_registration_are_exclusive :
    OneGeneration afterResetAndRegistration.history ∧
      (∃ user ∈ (afterResetAndRegistration.history.now.tables .users).rows,
        User.passwordLog user = [.reset]) ∧
      ∃ user ∈ (afterResetAndRegistration.history.now.tables .users).rows,
        User.normalizedEmail user = "b@x" :=
  ⟨one_live_generation ((State.Reach.init sampleAccount_oneResetToken).later
    (.of_replay (Option.some_get _).symm)), by decide, by decide⟩

end Orgistry.Model
