import Orgistry.Commits.Server
import Orgistry.ReadCommitted.Learning

/-!
# Proved passwords

A login, a change of the password and a change of the address are answered only when the
password was right at some moment in between, however many other requests have changed the
account before and after it.
-/

namespace Orgistry.Model

open ReadCommitted AuthService

variable {cfg : Config} {accessToken : Option AccessClaims} {w : History orgistry}

/-- The password was that of an available account with the property. -/
def ProvedPassword (cfg : Config) (password : String) (p : User → Prop) (w w' : History orgistry) :
    Prop :=
  ∃ user : User, p user ∧ available user ∧ cfg.verifyPassword user.passwordHash password ∧
    Seen (Guarantee cfg) w w' fun db => db.get .users user.id = some user

/-- The session of the token was open, and what is claimed of it held. -/
def Called (cfg : Config) (accessToken : Option AccessClaims)
    (p : Session → History orgistry → Prop) (w w' : History orgistry) : Prop :=
  ∃ (claims : AccessClaims) (session : Session), accessToken = some claims ∧
    session.id = claims.sessionId ∧ session.revokedAt = none ∧
    Seen (Guarantee cfg) w w' (fun db => db.get .sessions session.id = some session) ∧ p session w'

/-- What the answer of a request for an account rests on. -/
def Proved (cfg : Config) (w w' : History orgistry) : Request → Answer → Prop
  | .login input, .loggedIn session _ =>
      ProvedPassword cfg input.password (fun user => user.id = session.userId ∧
        user.normalizedEmail = normalizeEmail input.email) w w'
  | .changePassword accessToken input, _ =>
      Called cfg accessToken (fun session w' => ProvedPassword cfg input.currentPassword
        (fun user => user.id = session.userId) w w') w w'
  | .changeEmail accessToken input, _ =>
      Called cfg accessToken (fun session w' => ProvedPassword cfg input.currentPassword
        (fun user => user.id = session.userId) w w') w w'
  | .revokeSession accessToken targetSessionId, _ =>
      Called cfg accessToken (fun session w' => ∃ target : Session, target.id = targetSessionId ∧
        target.userId = session.userId ∧
        Seen (Guarantee cfg) w w' fun db => db.get .sessions target.id = some target) w w'
  | _, _ => True

theorem lasting_provedPassword {password : String} {p : User → Prop} :
    Lasting (Guarantee cfg) (ProvedPassword cfg password p w) := by
  intro v v' hmoves h
  obtain ⟨user, hp, havailable, hverified, hseen⟩ := h
  exact ⟨user, hp, havailable, hverified, hseen.later hmoves⟩

theorem lasting_called {p : Session → History orgistry → Prop}
    (hp : ∀ session, Lasting (Guarantee cfg) (p session)) :
    Lasting (Guarantee cfg) (Called cfg accessToken p w) := by
  intro v v' hmoves h
  obtain ⟨claims, session, hclaims, hid, hopen, hseen, hclaimed⟩ := h
  exact ⟨claims, session, hclaims, hid, hopen, hseen.later hmoves, hp session _ _ hmoves hclaimed⟩

theorem lasting_proved (r : Request) (answer : Answer) :
    Lasting (Guarantee cfg) fun w' => Proved cfg w w' r answer := by
  intro v v' hmoves h
  unfold Proved at h ⊢
  split at h
  · exact lasting_provedPassword _ _ hmoves h
  · exact lasting_called (fun _ => lasting_provedPassword) _ _ hmoves h
  · exact lasting_called (fun _ => lasting_provedPassword) _ _ hmoves h
  · exact lasting_called (fun _ _ _ hmoves ⟨target, hid, howner, hseen⟩ =>
      ⟨target, hid, howner, hseen.later hmoves⟩) _ _ hmoves h
  · trivial

/-- The account that a request is authenticated for is available. -/
theorem safe_requireAuthenticatedSession_available :
    Safe (Guarantee cfg) (requireAuthenticatedSession accessToken)
      (fun (user, _) _ _ => available user) .begin w := by
  cases accessToken with
  | none => exact safe_abortWith
  | some claims =>
      refine safe_bind (safe_selectOne fun w₁ found h₁ hfound => ?_)
      split
      · exact safe_abortWith
      · next user =>
          split
          · next havailable =>
              refine safe_bind (safe_selectOne fun w₂ answer h₂ hanswer => ?_)
              refine safe_bind (safe_clock fun w₃ h₃ => ?_)
              split
              · exact safe_abortWith
              · split
                · exact safe_abortWith
                · exact havailable
          · exact safe_abortWith

/-- The caller is known, and its account is available. -/
theorem safe_caller :
    Safe (Guarantee cfg) (requireAuthenticatedSession accessToken)
      (fun (user, session, _) tx w' => tx = .begin ∧ available user ∧
        Authenticated cfg accessToken user session w w') .begin w :=
  Safe.combine (P := fun _ => True) (fun _ _ _ _ => trivial)
    (fun _ _ _ hauth havailable _ => ⟨hauth.1, havailable, hauth.2⟩)
    (safe_requireAuthenticatedSession
      (Q := fun answer tx w' => tx = .begin ∧
        Authenticated cfg accessToken answer.1 answer.2.1 w w')
      fun _ _ _ _ _ hauth _ => ⟨rfl, hauth⟩)
    safe_requireAuthenticatedSession_available trivial

theorem AuthService.Authenticated.moves {user : User} {session : Session} {w' : History orgistry}
    (h : Authenticated cfg accessToken user session w w') : Moves (Guarantee cfg) w w' := by
  obtain ⟨v, hv, hw', -⟩ := h.userRead
  exact hv.trans hw'

/-- The caller of a request later on. -/
theorem AuthService.Authenticated.called {user : User} {session : Session} {w' : History orgistry}
    {claims : AccessClaims} (h : Authenticated cfg (some claims) user session w w')
    {w'' : History orgistry} (hmoves : Moves (Guarantee cfg) w' w'')
    {p : Session → History orgistry → Prop} (hp : p session w'') :
    Called cfg (some claims) p w w'' :=
  ⟨claims, session, rfl, (h.claimed claims rfl).symm, h.isOpen, h.sessionRead.later hmoves, hp⟩

/-- What a request of a caller learns once the caller is known. -/
theorem learns_caller {α : Type} {P : History orgistry → Prop} {f : User × Session × ℕ → Program α}
    (h : ∀ claims user session checkedAt w', accessToken = some claims → available user →
      Authenticated cfg (some claims) user session w w' →
      Learns (Guarantee cfg) P (f (user, session, checkedAt)) .begin w') :
    Learns (Guarantee cfg) P (requireAuthenticatedSession accessToken >>= f) .begin w := by
  cases accessToken with
  | none => exact Learns.of_bind safe_abortWith
  | some claims =>
      refine Learns.of_bind (safe_caller.mono fun answer tx w' hcaller => ?_)
      obtain ⟨rfl, havailable, hauth⟩ := hcaller
      exact h claims answer.1 answer.2.1 answer.2.2 w' rfl havailable hauth

theorem learns_changePassword {input : ChangePasswordInput} (answer : Answer) :
    Learns (Guarantee cfg) (fun w' => Proved cfg w w' (.changePassword accessToken input) answer)
      (changePassword cfg accessToken input) .begin w := by
  refine learns_caller fun claims user session _ w₁ hclaims havailable hauth => ?_
  subst hclaims
  change Learns _ _ (if _ then _ else _) _ _
  split
  · next hverified =>
      exact .known (lasting_proved _ answer) _ (hauth.called .refl
        ⟨user, hauth.userId.symm, havailable, hverified, hauth.userRead⟩)
  · exact safe_abortWith.learns

theorem learns_changeEmail {input : ChangeEmailInput} (answer : Answer) :
    Learns (Guarantee cfg) (fun w' => Proved cfg w w' (.changeEmail accessToken input) answer)
      (changeEmail cfg accessToken input) .begin w := by
  refine learns_caller fun claims user session _ w₁ hclaims havailable hauth => ?_
  subst hclaims
  change Learns _ _ (if normalizeEmail input.newEmail = user.normalizedEmail then _ else _) _ _
  split
  · exact safe_abortWith.learns
  · change Learns _ _ (if cfg.verifyPassword user.passwordHash input.currentPassword then _ else _)
      _ _
    split
    · next hverified =>
        exact .known (lasting_proved _ answer) _ (hauth.called .refl
          ⟨user, hauth.userId.symm, havailable, hverified, hauth.userRead⟩)
    · exact safe_abortWith.learns

theorem learns_revokeSession {targetSessionId : Id} (answer : Answer) :
    Learns (Guarantee cfg)
      (fun w' => Proved cfg w w' (.revokeSession accessToken targetSessionId) answer)
      (AuthService.revokeSession accessToken targetSessionId) .begin w := by
  refine learns_caller fun claims user session _ w₁ hclaims _ hauth => ?_
  subst hclaims
  refine Learns.of_bind (safe_selectOne fun w₂ found h₂ hfound => ?_)
  split
  · exact safe_abortWith.learns
  · next target =>
      change Learns _ _ (if _ then _ else _) _ _
      split
      · exact safe_abortWith.learns
      · next howner =>
          have htarget : Seen (Guarantee cfg) w w₂ fun db =>
              db.get .sessions target.id = some target :=
            Seen.intro (hauth.moves.trans h₂.moves) (hfound.get rfl)
          have hclaim : ∃ target : Session, target.id = targetSessionId ∧
              target.userId = session.userId ∧ Seen (Guarantee cfg) w w₂ fun db =>
                db.get .sessions target.id = some target :=
            ⟨target, of_decide_eq_true (hfound.holds rfl),
              (not_not.mp howner).trans hauth.userId.symm, htarget⟩
          have hproved : Proved cfg w w₂ (.revokeSession (some claims) targetSessionId) answer :=
            ⟨claims, session, rfl, (hauth.claimed claims rfl).symm, hauth.isOpen,
              hauth.sessionRead.later h₂.moves, hclaim⟩
          exact .known (lasting_proved _ answer) _ hproved

/-- A login answers with a session of the account whose password was right. -/
theorem safe_login_proved {request : ℕ} {input : LoginInput} :
    Safe (Guarantee cfg) (login cfg request input)
      (fun answer _ w' => Proved cfg w w' (.login input) (.loggedIn answer.1 answer.2))
      .begin w := by
  refine safe_bind (safe_selectOne fun w₁ found h₁ hfound => ?_)
  split
  · exact safe_abortWith
  · next user =>
      split
      · next hverified =>
          rw [Bool.and_eq_true] at hverified
          have hread : Seen (Guarantee cfg) w w₁ fun db => db.get .users user.id = some user :=
            Seen.intro h₁.moves (hfound.get rfl)
          refine safe_bind (safe_clock fun w₂ h₂ => safe_bind ?_)
          refine safe_insertRow (fun _ _ _ _ => SessionStep.login rfl) fun w₃ x h₃ _ => ?_
          refine safe_bind (AuthRepository.safe_insertRefreshToken fun w₄ token h₄ => ?_)
          exact ⟨user, ⟨rfl, of_decide_eq_true (hfound.holds rfl)⟩, hverified.1, hverified.2,
            hread.later (h₂.moves.trans (h₃.trans h₄))⟩
      · exact safe_abortWith

variable {Init : Database orgistry → Prop} {ok : Tx orgistry → Database orgistry → Prop}
  {s : ServerState}

/-- Whatever the request, its answer comes with what the requester has proved. -/
theorem safe_serve_proved (hconsistent : Consistent w.now.tables) (request : ℕ) (r : Request) :
    Safe (Guarantee cfg) (serve cfg request r) (fun answer _ w' => Proved cfg w w' r answer)
      .begin w := by
  have hserve := @safe_serve cfg _ hconsistent request r
  cases r with
  | login input => exact safe_bind (safe_login_proved.mono fun _ _ _ h => h)
  | changePassword accessToken input =>
      exact ((learns_changePassword .done).bind (lasting_proved _ _) _ _ hserve).mono
        fun _ _ _ h => h.2
  | changeEmail accessToken input =>
      exact ((learns_changeEmail .done).bind (lasting_proved _ _) _ _ hserve).mono
        fun _ _ _ h => h.2
  | revokeSession accessToken targetSessionId =>
      exact ((learns_revokeSession .done).bind (lasting_proved _ _) _ _ hserve).mono
        fun _ _ _ h => h.2
  | _ => exact hserve.mono fun _ _ _ _ => trivial

/-- Whatever runs at the same time, an answered request for an account has proved what it needs
between its arrival and its answer. -/
theorem answered_requests_had_proved (hinit : ∀ db, Init db → Consistent db.tables)
    (h : Reachable cfg Init ok s) {j : ℕ} {r : Request} {answer : Answer}
    (hanswered : s.Answered j r answer) :
    ∃ th, s.threads[j]? = some th ∧ Proved cfg th.born s.history r answer := by
  obtain ⟨th, v, hth, -, hv, hproved⟩ := hanswered.post hinit
    (fun i r w htrace => safe_serve_proved (htrace.consistent hinit) i r) h
  exact ⟨th, hth, lasting_proved r answer _ _ hv hproved⟩

/-- A login has read the account when the password changes, and ends after that. -/
def afterRacedLogin : ServerState :=
  (State.replay (serve sampleConfig) State.Always
    [.start (aliceLogsIn "old"), .steps 0 1 9,
      .start (.changePassword (some ⟨1, 1⟩) ⟨"old", "new", 0⟩), .steps 1 40 0, .steps 0 40 9]
    (State.initial sampleAccount)).get (by decide)

theorem raced_login_had_proved :
    (∃ session token, session.id = 9 ∧
      ∃ th, afterRacedLogin.threads[0]? = some th ∧
        Proved sampleConfig th.born afterRacedLogin.history (aliceLogsIn "old")
          (.loggedIn session token)) ∧
      (afterRacedLogin.history.now.get .users 1).map User.passwordHash = some "new" :=
  ⟨⟨_, _, rfl, answered_requests_had_proved (by rintro _ rfl; exact sampleAccount_consistent)
    ((State.Reach.init (Eq.refl sampleAccount)).later (.of_replay (Option.some_get _).symm))
    (show afterRacedLogin.Answered 0 (aliceLogsIn "old") (.loggedIn _ _) from ⟨_, rfl, rfl, rfl⟩)⟩,
    by decide⟩

end Orgistry.Model
