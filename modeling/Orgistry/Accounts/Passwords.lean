import Orgistry.Commits.Server
import Orgistry.ReadCommitted.Runs

/-!
# Password replacements

What a change or a reset of the password does to the sessions of the account,
and what a change relies on.  Login and change read the stored hash in one
statement and commit in a later transaction, so both laws need that nothing
comes between the two.
-/

namespace Orgistry.Model

open ReadCommitted

variable {tx : Tx orgistry} {db : Database orgistry} {w : History orgistry}

/-- The session that a replacement keeps. -/
def PasswordReplacement.kept : PasswordReplacement → Option Id
  | .changed keptSessionId _ _ _ => some keptSessionId
  | .reset => none

/-- Every replacement of the password since the hash that the login of the
session verified has kept this session. -/
def KeptOrNewer (user : User) (session : Session) : Prop :=
  ∀ replacement ∈ user.passwordLog.drop session.verifiedAfter,
    replacement.kept = some session.id

instance (user : User) (session : Session) : Decidable (KeptOrNewer user session) :=
  inferInstanceAs (Decidable (∀ replacement ∈ user.passwordLog.drop session.verifiedAfter, _))

/-- Active sessions come from passwords that were not replaced since, or were
kept by whoever replaced them. -/
def OldSessionsEnded (db : Database orgistry) : Prop :=
  ∀ ⦃x y : Id⦄ ⦃user : User⦄ ⦃session : Session⦄, db.get .users x = some user →
    db.get .sessions y = some session → session.userId = user.id → session.revokedAt = none →
      db.clock < session.expiresAt → KeptOrNewer user session

/-- `OldSessionsEnded`, also for sessions that have expired. -/
def UnrevokedAreCurrent (db : Database orgistry) : Prop :=
  ∀ ⦃x y : Id⦄ ⦃user : User⦄ ⦃session : Session⦄, db.get .users x = some user →
    db.get .sessions y = some session → session.userId = user.id → session.revokedAt = none →
      KeptOrNewer user session

/-- No replacement has come between the hash that a login verified and the
commit of its session. -/
def LoginsCurrent (tx : Tx orgistry) (db : Database orgistry) : Prop :=
  ∀ session ∈ (tx.writes .sessions).rows, db.get .sessions (Session.id session) = none →
    ∀ user ∈ (db.view tx.writes .users).rows, User.id user = Session.userId session →
      (User.passwordLog user).length ≤ Session.verifiedAfter session

instance (tx : Tx orgistry) (db : Database orgistry) : Decidable (LoginsCurrent tx db) :=
  inferInstanceAs (Decidable (∀ session ∈ (tx.writes .sessions).rows, _))

/-- Every statement of the transaction that locked sessions has found the row. -/
def SawSession (tx : Tx orgistry) (sessionId : Id) : Prop :=
  ∀ snapshot ∈ tx.snapshots, snapshot.1 = .sessions →
    snapshot.2.get .sessions sessionId ≠ none

instance (tx : Tx orgistry) (sessionId : Id) : Decidable (SawSession tx sessionId) :=
  inferInstanceAs (Decidable (∀ snapshot ∈ tx.snapshots, _))

/-- The replacement ends the session. -/
def PasswordReplacement.ends (replacement : PasswordReplacement) (session : Session) : Bool :=
  session.revokedAt.isNone && replacement.kept ≠ some session.id

/-- When a replacement commits, its statement that ends sessions has found all
stored sessions that it has to end. -/
def ReplacementsSeeSessions (tx : Tx orgistry) (db : Database orgistry) : Prop :=
  ∀ user ∈ (db.view tx.writes .users).rows, ∀ old ∈ (db.tables .users).rows,
    User.id old = User.id user →
    ∀ replacement ∈ (User.passwordLog user).drop (User.passwordLog old).length,
    ∀ session ∈ (db.tables .sessions).rows, Session.userId session = User.id user →
      replacement.ends session → SawSession tx (Session.id session)

instance (tx : Tx orgistry) (db : Database orgistry) :
    Decidable (ReplacementsSeeSessions tx db) :=
  inferInstanceAs (Decidable (∀ user ∈ (db.view tx.writes .users).rows, _))

/-- Neither a login nor a replacement was overtaken. -/
def NotOvertaken (tx : Tx orgistry) (db : Database orgistry) : Prop :=
  LoginsCurrent tx db ∧ ReplacementsSeeSessions tx db

instance (tx : Tx orgistry) (db : Database orgistry) : Decidable (NotOvertaken tx db) :=
  inferInstanceAs (Decidable (_ ∧ _))

theorem UnrevokedAreCurrent.oldSessionsEnded (h : UnrevokedAreCurrent db) :
    OldSessionsEnded db :=
  fun _ _ _ _ huser hsession hid hrevoked _ => h huser hsession hid hrevoked

theorem KeptOrNewer.of_log {old new : User} {session : Session}
    (hlog : new.passwordLog = old.passwordLog) (h : KeptOrNewer old session) :
    KeptOrNewer new session := by
  unfold KeptOrNewer
  rw [hlog]
  exact h

theorem KeptOrNewer.append {old new : User} {session : Session}
    {replacement : PasswordReplacement} (hlog : new.passwordLog = old.passwordLog ++ [replacement])
    (h : KeptOrNewer old session) (hkept : replacement.kept = some session.id) :
    KeptOrNewer new session := by
  intro other hother
  rw [hlog, List.drop_append, List.mem_append] at hother
  rcases hother with hother | hother
  · exact h other hother
  · obtain rfl := List.mem_singleton.mp (List.mem_of_mem_drop hother)
    exact hkept

/-- One step of a user keeps the law for a session that stays unrevoked, if the
replacement has seen the session. -/
theorem UserStep.keptOrNewer {old new : User} {session : Session} {y : Id}
    (h : UserStep tx db (some old) new) (hold : KeptOrNewer old session)
    (hafter : (db.apply tx.writes).get .sessions y = some session)
    (huser : session.userId = old.id) (hrevoked : session.revokedAt = none)
    (hseen : ∀ replacement ∈ new.passwordLog.drop old.passwordLog.length,
      replacement.kept ≠ some session.id → SawSession tx session.id) :
    KeptOrNewer new session := by
  have hid : session.id = y := Database.id_of_get hafter
  cases h with
  | changePassword hsnapshot hended =>
      refine hold.append rfl ?_
      by_contra hkept
      have hstored : _ ≠ none := hseen _ (by simp) hkept _ hsnapshot rfl
      rw [hid] at hstored
      refine hended hafter huser ?_ hstored hrevoked
      rintro rfl
      exact hkept (congrArg some hid.symm)
  | resetPassword htoken hunsettled hissued hconsumed hended =>
      exact absurd hrevoked (hended hafter huser)
  | changeEmail => exact hold.of_log rfl
  | verify => exact hold.of_log rfl

/-- One commit that was not overtaken. -/
theorem UnrevokedAreCurrent.commit (h : UnrevokedAreCurrent db) (hdb : Consistent db.tables)
    (hok : NotOvertaken tx db) (hG : Guarantee cfg tx db) :
    UnrevokedAreCurrent (db.apply tx.writes) := by
  intro x y user session huser hsession hid hrevoked
  have hx : user.id = x := Database.id_of_get huser
  have hy : session.id = y := Database.id_of_get hsession
  rcases hG.session_origin hsession with ⟨oldSession, holdSession, hlater⟩ | ⟨hnone, -⟩
  · have holdRevoked : oldSession.revokedAt = none := by
      by_contra hne
      exact hlater.revoked hne hrevoked
    rcases hG.origin huser with ⟨old, hold, hstep⟩ | ⟨hnone, -⟩
    · have hxold : User.id old = x := Database.id_of_get hold
      have holdId : oldSession.userId = old.id := by
        rw [← hlater.userId, hid, hx, hxold]
      have hkept : KeptOrNewer old session := by
        have hbefore := h hold holdSession holdId holdRevoked
        unfold KeptOrNewer at hbefore ⊢
        rwa [hlater.verifiedAfter, hlater.id]
      rcases hstep with rfl | hlegal
      · exact hkept
      · refine UserStep.keptOrNewer hlegal hkept hsession (by rw [hid, hx, hxold]) hrevoked ?_
        intro replacement hreplacement hne
        rw [hlater.id] at hne ⊢
        refine hok.2 user (Database.mem_view_of_get huser) old (Relation.mem_of_get hold)
          (hxold.trans hx.symm) replacement hreplacement oldSession
          (Relation.mem_of_get holdSession) (by rw [holdId, hxold, hx]) ?_
        simp [PasswordReplacement.ends, holdRevoked, hne]
    · have hrefs := hdb.referential holdSession (.users, oldSession.userId)
        (by simp [orgistry, rowRefs])
      rw [← hlater.userId, hid, hx] at hrefs
      exact absurd hnone hrefs
  · intro replacement hreplacement
    have hlength := hok.1 session
      (Relation.mem_of_get (Database.get_writes_of_new hnone hsession))
      (by rw [hy]; exact hnone) user (Database.mem_view_of_get huser) hid.symm
    rw [List.drop_eq_nil_of_le hlength] at hreplacement
    cases hreplacement

variable {cfg : Config} {s : ServerState}

/-- A database to start from: its constraints hold, and no session comes from a
password that was replaced since. -/
structure NoOldSessions (db : Database orgistry) : Prop where
  consistent : Consistent db.tables
  sessions : UnrevokedAreCurrent db

/-- In every run in which neither logins nor replacements are overtaken, the
sessions of a replaced password have ended. -/
theorem old_sessions_ended (h : Reachable cfg NoOldSessions NotOvertaken s) :
    OldSessionsEnded s.history.now := by
  have htrace := Reachable.trace (fun db hdb => hdb.consistent) h
  refine UnrevokedAreCurrent.oldSessionsEnded ?_
  refine htrace.induction (P := fun w => UnrevokedAreCurrent w.now)
    (fun db hdb => hdb.sessions) (fun _ _ hw => hw) ?_
  rintro w tx hw - ⟨hok, hG⟩ ih
  exact ih.commit (hw.consistent fun db hdb => hdb.consistent) hok hG

/-- The session is active. -/
def ActiveSession (db : Database orgistry) (sessionId : Id) : Prop :=
  ∃ session ∈ (db.tables .sessions).rows, Session.id session = sessionId ∧
    Session.revokedAt session = none ∧ db.clock < Session.expiresAt session

instance (db : Database orgistry) (sessionId : Id) : Decidable (ActiveSession db sessionId) :=
  inferInstanceAs (Decidable (∃ session ∈ (db.tables .sessions).rows, _))

/-- Every change commits over the hash that its current password was verified
against, while the calling session is active. -/
def ChangesVerified (w : History orgistry) : Prop :=
  ∀ before after, w.Adjacent before after → ∀ ⦃x : Id⦄ ⦃old new : User⦄,
    before.get .users x = some old → after.get .users x = some new →
    ∀ keptSessionId seen verifiedHash verifiedAfter,
      .changed keptSessionId seen verifiedHash verifiedAfter ∈
          new.passwordLog.drop old.passwordLog.length →
        old.passwordHash = verifiedHash ∧ ActiveSession before keptSessionId

/-- Nothing has happened to the session since authentication saw it: no revocation
has committed, and if it had not expired then, it has not expired since. -/
def SeenSession.Unchanged (seen : SeenSession) (db : Database orgistry) (sessionId : Id) : Prop :=
  ∀ session ∈ (db.tables .sessions).rows, Session.id session = sessionId →
    Session.revokedAt session = seen.revokedAt ∧
      (seen.checkedAt < Session.expiresAt session → db.clock < Session.expiresAt session)

instance (seen : SeenSession) (db : Database orgistry) (sessionId : Id) :
    Decidable (seen.Unchanged db sessionId) :=
  inferInstanceAs (Decidable (∀ session ∈ (db.tables .sessions).rows, _))

/-- Since a change has read the password, no replacement of it has committed, and
nothing has happened to the session that authentication had seen before. -/
def PasswordReplacement.Current (db : Database orgistry) (old : User) :
    PasswordReplacement → Prop
  | .changed keptSessionId seen _ verifiedAfter =>
      old.passwordLog.length = verifiedAfter ∧ seen.Unchanged db keptSessionId
  | .reset => True

instance (db : Database orgistry) (old : User) (replacement : PasswordReplacement) :
    Decidable (replacement.Current db old) := by
  cases replacement <;> unfold PasswordReplacement.Current <;> infer_instance

/-- Nothing has come between the statements that authenticate and verify a
change and its commit. -/
def ChangesCurrent (tx : Tx orgistry) (db : Database orgistry) : Prop :=
  ∀ new ∈ (db.view tx.writes .users).rows, ∀ old ∈ (db.tables .users).rows,
    User.id old = User.id new →
    ∀ replacement ∈ (User.passwordLog new).drop (User.passwordLog old).length,
      replacement.Current db old

instance (tx : Tx orgistry) (db : Database orgistry) : Decidable (ChangesCurrent tx db) :=
  inferInstanceAs (Decidable (∀ new ∈ (db.view tx.writes .users).rows, _))

/-- A session that was open when it was seen is active if nothing has happened to
it since. -/
theorem OpenWhenSeen.activeSession {sessionId : Id} {seen : SeenSession}
    (h : OpenWhenSeen db sessionId seen) (hunchanged : seen.Unchanged db sessionId) :
    ActiveSession db sessionId := by
  obtain ⟨hopen, session, hsession, hunexpired⟩ := h
  have hid : Session.id session = sessionId := Database.id_of_get hsession
  obtain ⟨hrevoked, hexpiry⟩ := hunchanged session (Relation.mem_of_get hsession) hid
  exact ⟨session, Relation.mem_of_get hsession, hid, hrevoked.trans hopen, hexpiry hunexpired⟩

/-- One step of a user: what a current change has checked. -/
theorem UserStep.verified {old new : User} (h : UserStep tx db (some old) new)
    {keptSessionId : Id} {seen : SeenSession} {verifiedHash : String} {verifiedAfter : ℕ}
    (hmem : .changed keptSessionId seen verifiedHash verifiedAfter ∈
      new.passwordLog.drop old.passwordLog.length)
    (hcurrent : (PasswordReplacement.changed keptSessionId seen verifiedHash verifiedAfter).Current
      db old) : old.passwordHash = verifiedHash ∧ ActiveSession db keptSessionId := by
  cases h with
  | changePassword hsnapshot hended hseen hverified =>
      simp only [List.drop_left, List.mem_singleton, PasswordReplacement.changed.injEq] at hmem
      obtain ⟨rfl, rfl, rfl, rfl⟩ := hmem
      exact ⟨hverified hcurrent.1, hseen.activeSession hcurrent.2⟩
  | resetPassword => simp at hmem
  | changeEmail => simp at hmem
  | verify => simp at hmem

/-- One commit whose changes are current. -/
theorem Guarantee.changesVerified (hok : ChangesCurrent tx db) (hG : Guarantee cfg tx db) {x : Id}
    {old new : User} (hold : db.get .users x = some old)
    (hnew : (db.apply tx.writes).get .users x = some new) {keptSessionId : Id}
    {seen : SeenSession} {verifiedHash : String} {verifiedAfter : ℕ}
    (hmem : .changed keptSessionId seen verifiedHash verifiedAfter ∈
      new.passwordLog.drop old.passwordLog.length) :
    old.passwordHash = verifiedHash ∧ ActiveSession db keptSessionId := by
  have hx : User.id old = x := Database.id_of_get hold
  have hx' : User.id new = x := Database.id_of_get hnew
  rcases hG.after hnew with hsame | hlegal
  · obtain rfl : old = new := Option.some_inj.mp (hold.symm.trans hsame)
    simp at hmem
  · rw [hold] at hlegal
    exact hlegal.verified hmem (hok new (Database.mem_view_of_get hnew) old
      (Relation.mem_of_get hold) (hx.trans hx'.symm) _ hmem)

/-- In every run in which nothing comes between a change and what it relies on,
every change commits over the hash that it verified, and for an active session. -/
theorem changes_verified
    (h : Reachable cfg (fun db => Consistent db.tables) ChangesCurrent s) :
    ChangesVerified s.history := by
  have htrace := Reachable.trace (fun _ hdb => hdb) h
  refine htrace.induction (P := ChangesVerified) ?_ ?_ ?_
  · exact fun _ _ _ _ hadjacent => absurd hadjacent History.not_adjacent_initial
  · intro w n ih before after hadjacent x old new hold hnew _ _ _ _ hmem
    rcases History.adjacent_push_iff.mp hadjacent with ⟨rfl, rfl⟩ | hadjacent
    · obtain rfl : old = new := Option.some_inj.mp (hold.symm.trans hnew)
      simp at hmem
    · exact ih before after hadjacent hold hnew _ _ _ _ hmem
  · rintro w tx - - ⟨hok, hG⟩ ih before after hadjacent x old new hold hnew _ _ _ _ hmem
    rcases History.adjacent_push_iff.mp hadjacent with ⟨rfl, rfl⟩ | hadjacent
    · exact hG.changesVerified hok hold hnew hmem
    · exact ih before after hadjacent hold hnew _ _ _ _ hmem

/-! ## Replayed -/

theorem sampleAccount_noOldSessions : NoOldSessions sampleAccount where
  consistent := sampleAccount_consistent
  sessions := by
    intro x y user session huser _ _ _ replacement hreplacement
    have hnever : ∀ user ∈ (sampleAccount.tables .users).rows, User.passwordLog user = [] := by
      decide
    rw [hnever user (Relation.mem_of_get huser), List.drop_nil] at hreplacement
    cases hreplacement

def aliceChangesPassword : Request :=
  .changePassword (some ⟨1, 1⟩) { currentPassword := "old", newPassword := "new", salt := 0 }

/-- Alice logs in with her new password after she has changed it. -/
def afterFreshLogin : ServerState :=
  (State.replay (serve sampleConfig) NotOvertaken
    [.start aliceChangesPassword, .steps 0 40 0, .start (aliceLogsIn "new"), .steps 1 40 9]
    (State.initial sampleAccount)).get (by decide)

theorem fresh_login_ends_nothing :
    OldSessionsEnded afterFreshLogin.history.now ∧
      (¬ActiveSession afterFreshLogin.history.now 2) ∧
      ActiveSession afterFreshLogin.history.now 9 :=
  ⟨old_sessions_ended ((State.Reach.init sampleAccount_noOldSessions).later
    (.of_replay (Option.some_get _).symm)), by decide, by decide⟩

/-- A login verifies the old password, Alice changes it, and the login stores
its session. -/
def afterStaleLogin : ServerState :=
  (State.replay (serve sampleConfig) State.Always
    [.start (aliceLogsIn "old"), .steps 0 1 9, .start aliceChangesPassword, .steps 1 40 0,
      .steps 0 40 9]
    (State.initial sampleAccount)).get (by decide)

/-- A login has compared the old password and commits its session behind a change. -/
theorem stale_login_survives :
    ¬∀ (cfg : Config) (s : ServerState), Reachable cfg NoOldSessions State.Always s →
      OldSessionsEnded s.history.now := by
  intro hclaim
  have hended := hclaim sampleConfig afterStaleLogin
    ((State.Reach.init sampleAccount_noOldSessions).later
      (.of_replay (Option.some_get _).symm))
  obtain ⟨user, huser, session, hsession, hid, hrevoked, hexpires, hkept⟩ :
      ∃ user ∈ (afterStaleLogin.history.now.tables .users).rows,
      ∃ session ∈ (afterStaleLogin.history.now.tables .sessions).rows,
        Session.userId session = User.id user ∧ Session.revokedAt session = none ∧
        afterStaleLogin.history.now.clock < Session.expiresAt session ∧
        ¬KeptOrNewer user session := by
    decide
  exact hkept (hended (Relation.mem_rows_iff.mp huser) (Relation.mem_rows_iff.mp hsession) hid
    hrevoked hexpires)

/-- Alice changes her password, which nobody disturbs. -/
def afterChange : ServerState :=
  (State.replay (serve sampleConfig) ChangesCurrent
    [.start aliceChangesPassword, .steps 0 40 0] (State.initial sampleAccount)).get (by decide)

theorem change_is_verified :
    ChangesVerified afterChange.history ∧
      ∃ user ∈ (afterChange.history.now.tables .users).rows,
        User.passwordLog user = [.changed 1 ⟨none, 1⟩ "old" 0] :=
  ⟨changes_verified ((State.Reach.init sampleAccount_consistent).later
    (.of_replay (Option.some_get _).symm)), by decide⟩

/-- A change verifies the old password, a reset by token commits, and the change
overwrites it. -/
def afterOverwrittenReset : ServerState :=
  (State.replay (serve sampleConfig) State.Always
    [.start aliceChangesPassword, .steps 0 4 0, .start (.completeReset 5 "reset" 0),
      .steps 1 40 0, .steps 0 40 0]
    (State.initial sampleAccount)).get (by decide)

/-- A reset commits between the check of a change and its commit, and is lost. -/
theorem reset_is_overwritten :
    ¬∀ (cfg : Config) (s : ServerState),
      Reachable cfg (fun db => Consistent db.tables) State.Always s →
        ChangesVerified s.history := by
  intro hclaim
  have hverified := hclaim sampleConfig afterOverwrittenReset
    ((State.Reach.init sampleAccount_consistent).later (.of_replay (Option.some_get _).symm))
  obtain ⟨before, after, hadjacent, old, hold, new, hnew, hid, hmem, hhash⟩ :
      ∃ before after, afterOverwrittenReset.history.Adjacent before after ∧
      ∃ old ∈ (before.tables .users).rows, ∃ new ∈ (after.tables .users).rows,
        User.id old = User.id new ∧
        .changed 1 ⟨none, 1⟩ "old" 0 ∈ (User.passwordLog new).drop (User.passwordLog old).length ∧
        User.passwordHash old ≠ "old" :=
    ⟨_, _, ⟨[], _, rfl⟩, by decide⟩
  have hnew' : after.get .users (User.id old) = some new :=
    Eq.trans (congrArg (after.get .users) hid) (Relation.mem_rows_iff.mp hnew)
  exact hhash (hverified _ _ hadjacent (Relation.mem_rows_iff.mp hold) hnew' _ _ _ _ hmem).1

end Orgistry.Model
