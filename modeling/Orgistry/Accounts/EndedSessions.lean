import Orgistry.Accounts.RefreshFamilies

/-!
# Ended sessions

A session ends by logout, by revocation, by a password change or reset, or by the
detection of a reuse.  Whatever the reason, its end is final for every request
that arrives later.
-/

namespace Orgistry.Model

open ReadCommitted

variable {cfg : Config} {Init : Database orgistry → Prop}
  {ok : Tx orgistry → Database orgistry → Prop} {s s' : ServerState} {w : History orgistry}

/-- Nothing is granted on the strength of the session: the request did not pass
with an access token of it, and it was not answered by the rotation of one of its
refresh tokens. -/
structure Withheld (db : Database orgistry) (sessionId : Id) (r : Request) (answer : Answer) :
    Prop where
  access : ∀ claims, r.accessToken = some claims → claims.sessionId ≠ sessionId
  refresh : ∀ ⦃presented successorHash : TokenHash⦄ ⦃successor : RefreshToken⦄
    ⦃session : Session⦄, r = .refresh presented successorHash →
    answer = .refreshed (.rotated successor session) → session.id ≠ sessionId ∧
      ∀ ⦃x : Id⦄ ⦃token : RefreshToken⦄, db.get .refreshTokens x = some token →
        token.tokenHash = presented → token.sessionId ≠ sessionId

/-- A request that arrives when the session has ended. -/
theorem Served.withheld {i : ℕ} {r : Request} {answer : Answer} {u v : History orgistry}
    {sessionId : Id} (hserved : Served cfg i r u answer v)
    (hended : AuthRepository.Ended sessionId u.now) (hmoves : Moves (Guarantee cfg) v w)
    (hdb : Consistent w.now.tables) : Withheld w.now sessionId r answer where
  access := by
    rintro claims hclaims rfl
    exact not_seen_open hended .refl (hserved.granted claims hclaims)
  refresh := by
    rintro presented successorHash successor session rfl rfl
    have hrotated := hserved.refreshed rfl rfl
    have hother : session.id ≠ sessionId := by
      rintro rfl
      exact not_seen_open hended .refl hrotated.isOpen
    refine ⟨hother, fun x token htoken hhash heq => hother ?_⟩
    obtain ⟨x', token', -, htoken', hhash', hsession, -⟩ := rotated_persists hrotated hmoves
    obtain rfl : x = x' := id_of_tokenHash hdb htoken htoken' (hhash.trans hhash'.symm)
    obtain rfl := Option.some_inj.mp (htoken.symm.trans htoken')
    exact hsession.symm.trans heq

/-- Once the end of a session has been committed, no request that arrives later
gets anything on the strength of it, and the session stays ended. -/
theorem ended_sessions_stay_ended (hinit : ∀ db, Init db → Consistent db.tables)
    (h : Reachable cfg Init ok s) (hlater : State.Later (serve cfg) ok s s') {sessionId : Id}
    (hended : AuthRepository.Ended sessionId s.history.now) :
    AuthRepository.Ended sessionId s'.history.now ∧
      ∀ j r answer, s.threads.length ≤ j → s'.Answered j r answer →
        Withheld s'.history.now sessionId r answer := by
  have h' : Reachable cfg Init ok s' := h.later hlater
  have htrace : Trace (Guarantee cfg) Init s'.history :=
    (Reachable.trace hinit h').imp fun _ hdb => ⟨hdb.1, hdb.2.mono fun _ _ hcommit => hcommit.2⟩
  have hsince : Moves (Guarantee cfg) s.history s'.history :=
    (htrace.of_extends hlater.extends).2
  refine ⟨hended.later hsince, fun j r answer harrived hanswered => ?_⟩
  obtain ⟨th, v, hth, hborn, hv, hserved⟩ := hanswered.post hinit
    (fun i r w hw => safe_serve (hw.consistent hinit) i r) h'
  have hbirth : Moves (Guarantee cfg) s.history th.born :=
    ((htrace.of_extends (hborn.trans hv).extends).1.of_extends (hlater.born hth harrived)).2
  exact hserved.withheld (hended.later hbirth) hv (htrace.consistent hinit)

/-- Alice logs in, and then logs out with the token of that session. -/
def afterLogout : ServerState :=
  (State.replay (serve sampleConfig) State.Always
    [.start (aliceLogsIn "old"), .steps 0 40 9, .start (.logout (some 7)), .steps 1 40 0]
    (State.initial sampleAccount)).get (by decide)

/-- She presents the refresh token of the ended session. -/
def afterStaleRefresh : ServerState :=
  (State.replay (serve sampleConfig) State.Always
    [.start (.refresh 7 12), .steps 2 40 10] afterLogout).get (by decide)

theorem logout_is_final :
    AuthRepository.Ended 9 afterStaleRefresh.history.now ∧
      Withheld afterStaleRefresh.history.now 9 (.refresh 7 12)
        (.refreshed (.reuseDetected 7 9)) := by
  have hlater : State.Later (serve sampleConfig) State.Always afterLogout afterStaleRefresh :=
    .of_replay (Option.some_get _).symm
  have hended : AuthRepository.Ended 9 afterLogout.history.now := ⟨_, rfl, by decide⟩
  have hrun := ended_sessions_stay_ended (by rintro _ rfl; exact sampleAccount_consistent)
    ((State.Reach.init (Eq.refl sampleAccount)).later (.of_replay (Option.some_get _).symm))
    hlater hended
  exact ⟨hrun.1, hrun.2 2 _ _ (by decide) ⟨_, rfl, rfl, rfl⟩⟩

end Orgistry.Model
