import Orgistry.Commits.Server
import Mathlib.Logic.Relation

/-!
# Refresh-token families

A family starts with the root that a login or a registration issues, and each
rotation appends one token to it.  The row lock on the presented token keeps a
family from forking; the ended session keeps it from growing after a reuse.
-/

namespace Orgistry.Model

open ReadCommitted

variable {tx : Tx orgistry} {db : Database orgistry} {w w' : History orgistry}

/-- Token `y` is stored, and `x` is its parent. -/
def Precedes (db : Database orgistry) (x y : Id) : Prop :=
  ∃ token : RefreshToken, db.get .refreshTokens y = some token ∧ token.parentTokenId = some x

/-- Each family is one chain from its root. -/
structure FamilyChains (db : Database orgistry) : Prop where
  comparable : ∀ ⦃x y : Id⦄ ⦃a b : RefreshToken⦄, db.get .refreshTokens x = some a →
    db.get .refreshTokens y = some b → a.familyId = b.familyId →
      Relation.ReflTransGen (Precedes db) x y ∨ Relation.ReflTransGen (Precedes db) y x
  oneOpen : ∀ ⦃x y : Id⦄ ⦃a b : RefreshToken⦄, db.get .refreshTokens x = some a →
    db.get .refreshTokens y = some b → a.familyId = b.familyId →
      a.usedAt = none → a.revokedAt = none → b.usedAt = none → b.revokedAt = none → x = y
  succession : ∀ ⦃x : Id⦄ ⦃a : RefreshToken⦄, db.get .refreshTokens x = some a →
    a.usedAt ≠ none → ∃! y, Precedes db x y
  family : ∀ ⦃x y : Id⦄ ⦃a b : RefreshToken⦄, db.get .refreshTokens x = some a →
    db.get .refreshTokens y = some b → Precedes db x y → a.familyId = b.familyId

/-- The links of both directions agree, and every token hangs on a root. -/
structure TokensLinked (db : Database orgistry) : Prop where
  parent : ∀ ⦃y x : Id⦄ ⦃b : RefreshToken⦄, db.get .refreshTokens y = some b →
    b.parentTokenId = some x → ∃ a : RefreshToken, db.get .refreshTokens x = some a ∧
      a.familyId = b.familyId ∧ a.sessionId = b.sessionId ∧ a.replacementTokenId = some y
  replacement : ∀ ⦃x y : Id⦄ ⦃a : RefreshToken⦄, db.get .refreshTokens x = some a →
    a.replacementTokenId = some y → a.usedAt ≠ none ∧ Precedes db x y
  used : ∀ ⦃x : Id⦄ ⦃a : RefreshToken⦄, db.get .refreshTokens x = some a →
    a.usedAt ≠ none → a.replacementTokenId ≠ none
  rooted : ∀ ⦃y : Id⦄ ⦃b : RefreshToken⦄, db.get .refreshTokens y = some b →
    ∃ (x : Id) (root : RefreshToken), db.get .refreshTokens x = some root ∧
      root.parentTokenId = none ∧ root.familyId = b.familyId ∧ root.sessionId = b.sessionId ∧
      Relation.ReflTransGen (Precedes db) x y

/-- A database to start from: its constraints hold, and its tokens are linked. -/
structure SoundFamilies (db : Database orgistry) : Prop where
  consistent : Consistent db.tables
  linked : TokensLinked db

/-- The links name one successor at most. -/
theorem TokensLinked.rightUnique (h : TokensLinked db) :
    Relator.RightUnique (Precedes db) := by
  rintro x y y' ⟨b, hb, hparent⟩ ⟨b', hb', hparent'⟩
  obtain ⟨a, ha, -, -, hnext⟩ := h.parent hb hparent
  obtain ⟨a', ha', -, -, hnext'⟩ := h.parent hb' hparent'
  obtain rfl := Option.some_inj.mp (ha.symm.trans ha')
  exact Option.some_inj.mp (hnext.symm.trans hnext')

/-- A family has one root. -/
theorem root_unique (hdb : Consistent db.tables) {x y : Id} {a b : RefreshToken}
    (ha : db.get .refreshTokens x = some a) (hb : db.get .refreshTokens y = some b)
    (hroot : a.parentTokenId = none) (hroot' : b.parentTokenId = none)
    (hfamily : a.familyId = b.familyId) : x = y := by
  by_contra hne
  have hconflict := hdb.unique ha hb hne
  simp [rowConflict, hroot, hroot', hfamily] at hconflict

/-- Two tokens of one family hang on the same root, in one chain, and belong to
one session. -/
theorem TokensLinked.sameRoot (h : TokensLinked db) (hdb : Consistent db.tables) {x y : Id}
    {a b : RefreshToken} (ha : db.get .refreshTokens x = some a)
    (hb : db.get .refreshTokens y = some b) (hfamily : a.familyId = b.familyId) :
    a.sessionId = b.sessionId ∧
      (Relation.ReflTransGen (Precedes db) x y ∨ Relation.ReflTransGen (Precedes db) y x) := by
  obtain ⟨r, root, hroot, hnone, hrootFamily, hsession, hx⟩ := h.rooted ha
  obtain ⟨r', root', hroot', hnone', hrootFamily', hsession', hy⟩ := h.rooted hb
  obtain rfl : r = r' := root_unique hdb hroot hroot' hnone hnone'
    (hrootFamily.trans (hfamily.trans hrootFamily'.symm))
  obtain rfl := Option.some_inj.mp (hroot.symm.trans hroot')
  exact ⟨hsession.symm.trans hsession', 
    Relation.ReflTransGen.total_of_right_unique h.rightUnique hx hy⟩

/-- Tokens that are linked to their predecessors and have one successor at most form chains. -/
theorem TokensLinked.chains (h : TokensLinked db) (hdb : Consistent db.tables) :
    FamilyChains db where
  comparable _ _ _ _ ha hb hfamily := (h.sameRoot hdb ha hb hfamily).2
  oneOpen x y a b ha hb hfamily hunused _ hunused' _ := by
    -- an earlier token of the chain has been spent
    have hearlier : ∀ {x y : Id} {a : RefreshToken}, db.get .refreshTokens x = some a →
        a.usedAt = none → Relation.ReflTransGen (Precedes db) x y → x = y := by
      intro x y a ha hunused hchain
      rcases hchain.cases_head with heq | ⟨z, ⟨c, hc, hparent⟩, -⟩
      · exact heq
      · obtain ⟨a', ha', -, -, hnext⟩ := h.parent hc hparent
        obtain rfl := Option.some_inj.mp (ha.symm.trans ha')
        exact absurd hunused (h.replacement ha hnext).1
    rcases (h.sameRoot hdb ha hb hfamily).2 with hchain | hchain
    · exact hearlier ha hunused hchain
    · exact (hearlier hb hunused' hchain).symm
  succession x a ha hused := by
    obtain ⟨y, hy⟩ := Option.ne_none_iff_exists'.mp (h.used ha hused)
    have hprecedes := (h.replacement ha hy).2
    exact ⟨y, hprecedes, fun z hz => h.rightUnique hz hprecedes⟩
  family x y a b ha hb hprecedes := by
    obtain ⟨b', hb', hparent⟩ := hprecedes
    obtain rfl := Option.some_inj.mp (hb.symm.trans hb')
    obtain ⟨a', ha', hfamily, -⟩ := h.parent hb hparent
    obtain rfl := Option.some_inj.mp (ha.symm.trans ha')
    exact hfamily

theorem Precedes.commit {x y : Id} (h : Precedes db x y) (hG : Guarantee cfg tx db) :
    Precedes (db.apply tx.writes) x y := by
  obtain ⟨b, hb, hparent⟩ := h
  obtain ⟨b', hb', hlater⟩ := hG.refreshToken_later hb
  exact ⟨b', hb', hlater.parentTokenId.trans hparent⟩

/-- The parent of a successor is the token that it replaces. -/
theorem Rotation.parent {token successor : RefreshToken} {now : ℕ}
    (h : Rotation tx db token successor now) : successor.parentTokenId = some token.id ∧
      successor.familyId = token.familyId ∧ successor.sessionId = token.sessionId ∧
      successor.usedAt = none ∧ successor.replacementTokenId = none := by
  obtain ⟨request, params, hsuccessor⟩ := h.follows
  rw [hsuccessor]
  exact ⟨rfl, rfl, rfl, rfl, rfl⟩

theorem Rotation.precedes {token successor : RefreshToken} {now : ℕ}
    (h : Rotation tx db token successor now) :
    Precedes (db.apply tx.writes) token.id successor.id :=
  ⟨successor, h.minted, h.parent.1⟩

theorem Precedes.chain_commit {x y : Id} (h : Relation.ReflTransGen (Precedes db) x y)
    (hG : Guarantee cfg tx db) : Relation.ReflTransGen (Precedes (db.apply tx.writes)) x y :=
  Relation.ReflTransGen.mono (fun _ _ (hprecedes : Precedes db _ _) => hprecedes.commit hG) _ _ h

/-- Rotations append to the ends of families, and nothing else changes links. -/
theorem TokensLinked.commit (h : TokensLinked db) (hG : Guarantee cfg tx db) :
    TokensLinked (db.apply tx.writes) where
  parent y x b hb hparent := by
    rcases hG.refreshToken_origin hb with ⟨old, hold, hlater⟩ | ⟨-, hstep⟩
    · obtain ⟨a, ha, hfamily, hsession, hnext⟩ :=
        h.parent hold (hlater.parentTokenId.symm.trans hparent)
      obtain ⟨a', ha', hlater'⟩ := hG.refreshToken_later ha
      exact ⟨a', ha', by rw [hlater'.familyId, hlater.familyId, hfamily],
        by rw [hlater'.sessionId, hlater.sessionId, hsession], hlater'.replacement hnext⟩
    · have hy : b.id = y := Database.id_of_get hb
      cases hstep with
      | issue hroot hfresh => simp [hroot] at hparent
      | mint hrotation =>
          obtain ⟨hlink, hfamily, hsession, -⟩ := hrotation.parent
          obtain rfl := Option.some_inj.mp (hlink.symm.trans hparent)
          exact ⟨_, hrotation.spent, hfamily.symm, hsession.symm, congrArg some hy⟩
  replacement x y a ha hnext := by
    rcases hG.origin ha with ⟨old, hold, rfl | hlegal⟩ | ⟨-, hlegal⟩
    · exact ⟨(h.replacement hold hnext).1, (h.replacement hold hnext).2.commit hG⟩
    · cases hlegal with
      | spend hrotation =>
          obtain rfl := Option.some_inj.mp hnext
          have hx : RefreshToken.id old = x := Database.id_of_get hold
          exact ⟨by simp [RefreshToken.spend], hx ▸ hrotation.precedes⟩
      | revoke =>
          have hbefore := h.replacement hold hnext
          exact ⟨hbefore.1, hbefore.2.commit hG⟩
    · cases hlegal with
      | issue hroot hfresh => simp [hfresh.2.2] at hnext
      | mint hrotation => simp [hrotation.parent.2.2.2.2] at hnext
  used x a ha hused := by
    rcases hG.origin ha with ⟨old, hold, rfl | hlegal⟩ | ⟨-, hlegal⟩
    · exact h.used hold hused
    · cases hlegal with
      | spend hrotation => simp [RefreshToken.spend]
      | revoke =>
          have hbefore := h.used hold
          exact hbefore hused
    · cases hlegal with
      | issue hroot hfresh => exact absurd hfresh.1 hused
      | mint hrotation => exact absurd hrotation.parent.2.2.2.1 hused
  rooted y b hb := by
    rcases hG.refreshToken_origin hb with ⟨old, hold, hlater⟩ | ⟨-, hstep⟩
    · obtain ⟨x, root, hroot, hnone, hfamily, hsession, hchain⟩ := h.rooted hold
      obtain ⟨root', hroot', hlater'⟩ := hG.refreshToken_later hroot
      exact ⟨x, root', hroot', hlater'.parentTokenId.trans hnone,
        by rw [hlater'.familyId, hlater.familyId, hfamily],
        by rw [hlater'.sessionId, hlater.sessionId, hsession], Precedes.chain_commit hchain hG⟩
    · cases hstep with
      | issue hroot hfresh => exact ⟨y, b, hb, hroot, rfl, rfl, .refl⟩
      | mint hrotation =>
          have hy : b.id = y := Database.id_of_get hb
          obtain ⟨-, hfamily', hsession', -⟩ := hrotation.parent
          obtain ⟨x, root, hroot, hnone, hfamily, hsession, hchain⟩ :=
            h.rooted hrotation.stored
          obtain ⟨root', hroot', hlater'⟩ := hG.refreshToken_later hroot
          exact ⟨x, root', hroot', hlater'.parentTokenId.trans hnone,
            by rw [hlater'.familyId, hfamily, hfamily'],
            by rw [hlater'.sessionId, hsession, hsession'],
            (Precedes.chain_commit hchain hG).tail (hy ▸ hrotation.precedes)⟩

variable {cfg : Config} {ok : Tx orgistry → Database orgistry → Prop} {s s' : ServerState}

theorem Reachable.tokensLinked (h : Reachable cfg SoundFamilies ok s) :
    TokensLinked s.history.now := by
  have htrace := Reachable.trace (fun db hdb => hdb.consistent) h
  refine htrace.induction (P := fun w => TokensLinked w.now) (fun db hdb => hdb.linked)
    (fun _ _ hw => ⟨hw.parent, hw.replacement, hw.used, hw.rooted⟩) ?_
  exact fun w tx _ _ hcommit hw => hw.commit hcommit.2

theorem Reachable.consistent (h : Reachable cfg SoundFamilies ok s) :
    Consistent s.history.now.tables :=
  (Reachable.trace (fun _ hdb => hdb.consistent) h).consistent fun _ hdb => hdb.consistent

/-- Of all rotations that were asked for one token, at most one has been
answered with a successor. -/
def OneRotation (s : ServerState) : Prop :=
  ∀ ⦃i j : ℕ⦄ ⦃presented successorHash successorHash' : TokenHash⦄
    ⦃successor successor' : RefreshToken⦄ ⦃session session' : Session⦄,
    s.Answered i (.refresh presented successorHash) (.refreshed (.rotated successor session)) →
    s.Answered j (.refresh presented successorHash') (.refreshed (.rotated successor' session')) →
    i = j

/-- Two stored tokens with the same hash are one. -/
theorem id_of_tokenHash (hdb : Consistent db.tables) {x y : Id} {a b : RefreshToken}
    (ha : db.get .refreshTokens x = some a) (hb : db.get .refreshTokens y = some b)
    (hhash : a.tokenHash = b.tokenHash) : x = y := by
  by_contra hne
  have hconflict := hdb.unique ha hb hne
  simp [rowConflict, hhash] at hconflict

/-- What a caller was told about a rotation stays true of the stored rows. -/
theorem rotated_persists {request : ℕ} {presented : TokenHash} {successor : RefreshToken}
    {session : Session} {u : History orgistry}
    (h : AuthRepository.Rotated cfg request presented successor session u w)
    (hmoves : Moves (Guarantee cfg) w w') :
    ∃ (x : Id) (token minted : RefreshToken), w'.now.get .refreshTokens x = some token ∧
      token.tokenHash = presented ∧ token.sessionId = session.id ∧
      token.replacementTokenId = some successor.id ∧
      w'.now.get .refreshTokens successor.id = some minted ∧ minted.mintedBy = request := by
  obtain ⟨token, ⟨hget, hhash⟩, hnext, hsession⟩ := h.spent
  obtain ⟨token', hget', hlater⟩ := refreshToken_persists hmoves hget
  obtain ⟨minted, hminted, hlater'⟩ := refreshToken_persists hmoves h.minted
  exact ⟨token.id, token', minted, hget', hlater.tokenHash.trans hhash,
    hlater.sessionId.trans hsession, hlater.replacement hnext, hminted,
    hlater'.mintedBy.trans h.mintedBy⟩

/-- What the answer to a request has promised, and the run around it. -/
theorem Reachable.answered (h : Reachable cfg SoundFamilies ok s) {i : ℕ} {r : Request}
    {answer : Answer} (ha : s.Answered i r answer) :
    ∃ th w, s.threads[i]? = some th ∧ Moves (Guarantee cfg) th.born w ∧
      Moves (Guarantee cfg) w s.history ∧ Served cfg i r th.born answer w := by
  have hsafe : ∀ i r w, Trace (Guarantee cfg) SoundFamilies w → Safe (Guarantee cfg) (serve cfg i r)
      (fun answer _ w' => Served cfg i r w answer w') .begin w :=
    fun i r _ htrace => safe_serve (htrace.consistent fun _ hdb => hdb.consistent) i r
  exact ha.post (fun _ hdb => hdb.consistent) hsafe h

theorem Reachable.oneRotation (h : Reachable cfg SoundFamilies ok s) : OneRotation s := by
  intro i j presented successorHash successorHash' successor successor' session session' hi hj
  obtain ⟨_, v, -, -, hv, hserved⟩ := h.answered hi
  obtain ⟨_, v', -, -, hv', hserved'⟩ := h.answered hj
  obtain ⟨x, token, minted, htoken, hhash, -, hnext, hminted, hby⟩ :=
    rotated_persists (hserved.refreshed rfl rfl) hv
  obtain ⟨x', token', minted', htoken', hhash', -, hnext', hminted', hby'⟩ :=
    rotated_persists (hserved'.refreshed rfl rfl) hv'
  obtain rfl : x = x' := id_of_tokenHash h.consistent htoken htoken' (hhash.trans hhash'.symm)
  obtain rfl := Option.some_inj.mp (htoken.symm.trans htoken')
  have hsame : successor.id = successor'.id := Option.some_inj.mp (hnext.symm.trans hnext')
  rw [← hsame, hminted] at hminted'
  obtain rfl := Option.some_inj.mp hminted'
  exact hby.symm.trans hby'

/-- In every committed database of every run the families are chains, and of all
rotations of one token at most one succeeds. -/
theorem refresh_families_are_chains (h : Reachable cfg SoundFamilies ok s) :
    FamilyChains s.history.now ∧ OneRotation s :=
  ⟨h.tokensLinked.chains h.consistent, h.oneRotation⟩

/-! ## After a reuse -/

theorem not_open_of_ended {sessionId : Id} (hended : AuthRepository.Ended sessionId db)
    (hopen : OpenSession sessionId db) : False := by
  obtain ⟨session, hget, hrevoked⟩ := hended
  obtain ⟨session', hget', hunrevoked⟩ := hopen
  obtain rfl := Option.some_inj.mp (hget.symm.trans hget')
  exact hrevoked hunrevoked

/-- Requests that arrive after a session has ended never find it open. -/
theorem not_seen_open {sessionId : Id} {v : History orgistry}
    (hended : AuthRepository.Ended sessionId v.now) (hmoves : Moves (Guarantee cfg) v w) :
    ¬Seen (Guarantee cfg) w w' (OpenSession sessionId) := by
  rintro ⟨m, hm, -, hopen⟩
  exact not_open_of_ended (hended.later (hmoves.trans hm)) hopen

/-- The answer is not a rotation in the family, and its request did not pass with
an access token of the session. -/
structure Refused (db : Database orgistry) (familyId sessionId : Id) (r : Request)
    (answer : Answer) : Prop where
  family : ∀ ⦃presented successorHash : TokenHash⦄ ⦃successor : RefreshToken⦄
    ⦃session : Session⦄, r = .refresh presented successorHash →
    answer = .refreshed (.rotated successor session) → ∀ ⦃x : Id⦄ ⦃token : RefreshToken⦄,
      db.get .refreshTokens x = some token → token.tokenHash = presented →
        token.familyId ≠ familyId
  session : ∀ claims, r.accessToken = some claims → claims.sessionId ≠ sessionId

/-- A request that arrives when the session of a family has ended. -/
theorem Served.refused {i : ℕ} {r : Request} {answer : Answer} {u v : History orgistry}
    {familyId sessionId : Id} (hserved : Served cfg i r u answer v)
    (hended : AuthRepository.Ended sessionId u.now) (hmoves : Moves (Guarantee cfg) v w)
    (hlinked : TokensLinked w.now) (hdb : Consistent w.now.tables)
    (hfamily : ∃ x, ∃ token : RefreshToken, w.now.get .refreshTokens x = some token ∧
      token.familyId = familyId ∧ token.sessionId = sessionId) :
    Refused w.now familyId sessionId r answer where
  family := by
    rintro presented successorHash successor session rfl rfl x token htoken hhash hmember
    have hrotated := hserved.refreshed rfl rfl
    obtain ⟨x', token', -, htoken', hhash', hsession, -⟩ := rotated_persists hrotated hmoves
    obtain rfl : x = x' := id_of_tokenHash hdb htoken htoken' (hhash.trans hhash'.symm)
    obtain rfl := Option.some_inj.mp (htoken.symm.trans htoken')
    obtain ⟨y, reused, hreused, hreusedFamily, hreusedSession⟩ := hfamily
    have hsame := (hlinked.sameRoot hdb htoken hreused (hmember.trans hreusedFamily.symm)).1
    rw [hsession, hreusedSession] at hsame
    exact not_seen_open hended .refl (hsame ▸ hrotated.isOpen)
  session := by
    rintro claims hclaims rfl
    exact not_seen_open hended .refl (hserved.granted claims hclaims)

/-- Once a reuse has been answered, no request that arrives later is answered by
a rotation in that family or passes with an access token of that session, and
`requireAuthenticatedSession` never returns for one. -/
theorem reuse_detection_is_final (h : Reachable cfg SoundFamilies ok s)
    (hlater : State.Later (serve cfg) ok s s') {i : ℕ} {presented successorHash : TokenHash}
    {familyId sessionId : Id}
    (hreuse : s.Answered i (.refresh presented successorHash)
      (.refreshed (.reuseDetected familyId sessionId))) :
    (∀ j r answer, s.threads.length ≤ j → s'.Answered j r answer →
      Refused s'.history.now familyId sessionId r answer) ∧
    ∀ claims, claims.sessionId = sessionId →
      Safe (Guarantee cfg) (AuthService.requireAuthenticatedSession (some claims))
        (fun _ _ _ => False) .begin s'.history := by
  have h' : Reachable cfg SoundFamilies ok s' := h.later hlater
  have htrace : Trace (Guarantee cfg) SoundFamilies s'.history :=
    (Reachable.trace (fun _ hdb => hdb.consistent) h').imp
      fun _ hdb => ⟨hdb.1, hdb.2.mono fun _ _ hcommit => hcommit.2⟩
  have hsince : Moves (Guarantee cfg) s.history s'.history := (htrace.of_extends hlater.extends).2
  obtain ⟨_, v, -, -, hv, hserved⟩ := h.answered hreuse
  obtain ⟨hended, reused, hreused, hfamily, hsession⟩ := hserved.refreshed rfl rfl
  constructor
  · intro j r answer harrived hanswered
    obtain ⟨th, w, hth, hborn, hw, hserved'⟩ := h'.answered hanswered
    have hbirth : Moves (Guarantee cfg) s.history th.born :=
      ((htrace.of_extends (hborn.trans hw).extends).1.of_extends (hlater.born hth harrived)).2
    obtain ⟨reused', hreused', hlater'⟩ := refreshToken_persists (hv.trans hsince) hreused
    exact hserved'.refused (hended.later (hv.trans hbirth)) hw h'.tokensLinked h'.consistent
      ⟨_, reused', hreused', hlater'.familyId.trans hfamily, hlater'.sessionId.trans hsession⟩
  · rintro claims rfl
    exact AuthService.safe_requireAuthenticatedSession fun w' user session _ _ hauth _ =>
      not_seen_open hended (hv.trans hsince) (hauth.granted claims rfl)

theorem sampleAccount_soundFamilies : SoundFamilies sampleAccount where
  consistent := sampleAccount_consistent
  linked :=
    { parent := fun _ _ _ h => by cases h
      replacement := fun _ _ _ h => by cases h
      used := fun _ _ h => by cases h
      rooted := fun _ _ h => by cases h }

/-- Alice's token is refreshed twice at the same time; the second refresh waits
for the first one and detects the reuse. -/
def afterReuse : ServerState :=
  (State.replay (serve sampleConfig) State.Always
    [.start (aliceLogsIn "old"), .steps 0 40 9, .start (.refresh 7 12), .start (.refresh 7 13),
      .steps 2 3 0, .steps 1 40 10, .steps 2 40 11]
    (State.initial sampleAccount)).get (by decide)

theorem afterReuse_reachable :
    Reachable sampleConfig SoundFamilies State.Always afterReuse :=
  (State.Reach.init sampleAccount_soundFamilies).later (.of_replay (Option.some_get _).symm)

theorem afterReuse_detected :
    afterReuse.Answered 2 (.refresh 7 13) (.refreshed (.reuseDetected 7 9)) :=
  ⟨_, rfl, rfl, rfl⟩

theorem second_rotation_detects_reuse :
    (FamilyChains afterReuse.history.now ∧ OneRotation afterReuse) ∧
      Precedes afterReuse.history.now 9 10 :=
  ⟨refresh_families_are_chains afterReuse_reachable, _, rfl, rfl⟩

/-- The client of the first refresh presents its successor token. -/
def afterFollowUp : ServerState :=
  (State.replay (serve sampleConfig) State.Always
    [.start (.refresh 12 14), .steps 3 40 15] afterReuse).get (by decide)

theorem successor_is_refused :
    Refused afterFollowUp.history.now 7 9 (.refresh 12 14) (.refreshed (.reuseDetected 7 9)) :=
  (reuse_detection_is_final afterReuse_reachable (.of_replay (Option.some_get _).symm)
    afterReuse_detected).1 3 _ _ (by decide) ⟨_, rfl, rfl, rfl⟩

end Orgistry.Model
