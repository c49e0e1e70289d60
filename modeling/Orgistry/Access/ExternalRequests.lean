import Orgistry.Model.ExternalRequests
import Orgistry.Organizations.Permissions

/-!
# API keys beside everything else

A request with an API key reads the key, its organization and its plan one after the other,
while others commit.  What it lists was authorised at that time, and a key that has been
revoked or has expired is refused for good.
-/

namespace Orgistry.Model

open Keyset ReadCommitted ApiKeyAuthenticator

variable {cfg : Config} {secretHash : TokenHash} {request : ExternalRequest} {key : ApiKeyRow}
  {page : ProjectPage} {db : Database orgistry} {v w w' : History orgistry}

/-- The key was stored and not revoked at a moment between `w` and `w'`, and had not expired at
one. -/
structure Usable (cfg : Config) (secretHash : TokenHash) (key : ApiKeyRow)
    (w w' : History orgistry) : Prop where
  secret : key.secretHash = secretHash
  unrevoked : key.revokedAt = none
  stored : Seen (Guarantee cfg) w w' fun db => db.get .apiKeys key.id = some key
  unexpired : Seen (Guarantee cfg) w w' fun db => ∀ expiry, key.expiresAt = some expiry →
    db.clock < expiry

/-- The plan of the organization comes with API keys. -/
def GrantsApiKeys (organizationId : Id) (db : Database orgistry) : Prop :=
  ∃ plan : OrganizationPlan, db.get .organizationPlans plan.id = some plan ∧
    plan.organizationId = organizationId ∧ apiKeysAccess plan.planKey = true

/-- A project of the organization that has not been deleted and lies behind the cursor. -/
structure Listed (organizationId : Id) (cursor : Option (ListCursor Id)) (db : Database orgistry)
    (project : ProjectRow) : Prop where
  stored : db.get .projects project.id = some project
  owned : project.organizationId = organizationId
  undeleted : project.deletedAt = none
  behind : ∀ start, cursor = some start → project.createdAt < ofMillis start.createdAtMs ∨
    project.createdAt = ofMillis start.createdAtMs ∧ project.id < start.id

/-- The page shows the first of the projects behind the cursor of the request, newest first and
as many as its limit allows. -/
def Lists (organizationId : Id) (request : ExternalRequest) (page : ProjectPage)
    (db : Database orgistry) : Prop :=
  ∃ cursor, decodeListCursor request.cursor = .ok cursor ∧
    page.Shows (Newer ProjectRow.createdAt ProjectRow.id) (Listed organizationId cursor db)
      request.limit.value ExternalProjects.cursorOf

/-- Between `w` and `w'` there were moments at which the key was usable, its organization
active and its plan sufficient, and then one at which this was the page of its projects. -/
structure Authorised (cfg : Config) (request : ExternalRequest) (key : ApiKeyRow)
    (page : ProjectPage) (w w' : History orgistry) : Prop where
  usable : Usable cfg request.secretHash key w w'
  organization : Seen (Guarantee cfg) w w' (OpenOrganization key.organizationId)
  plan : Seen (Guarantee cfg) w w' (GrantsApiKeys key.organizationId)
  listed : Seen (Guarantee cfg) w w' (Lists key.organizationId request page)

/-- What the answer to a request with a key rests on. -/
def Accounted (cfg : Config) (request : ExternalRequest) (w w' : History orgistry) :
    ExternalAnswer → Prop
  | .ok page => ∃ key, Authorised cfg request key page w w'
  | .error .entitlementRequired => ∃ key, Usable cfg request.secretHash key w w'
  | .error .unauthorized => True

theorem Usable.later (h : Usable cfg secretHash key w v) (hmoves : Moves (Guarantee cfg) v w') :
    Usable cfg secretHash key w w' :=
  ⟨h.secret, h.unrevoked, h.stored.later hmoves, h.unexpired.later hmoves⟩

theorem Authorised.later (h : Authorised cfg request key page w v)
    (hmoves : Moves (Guarantee cfg) v w') : Authorised cfg request key page w w' :=
  ⟨h.usable.later hmoves, h.organization.later hmoves, h.plan.later hmoves,
    h.listed.later hmoves⟩

/-- What is known of a key that has passed the authenticator. -/
structure Authenticates (cfg : Config) (secretHash : TokenHash) (key : ApiKeyRow)
    (w w' : History orgistry) : Prop where
  moves : Moves (Guarantee cfg) w w'
  usable : Usable cfg secretHash key w w'
  organization : Seen (Guarantee cfg) w w' (OpenOrganization key.organizationId)
  plan : Seen (Guarantee cfg) w w' (GrantsApiKeys key.organizationId)

/-- A request ends its authentication with a key that was good, or with an account of its refusal.
-/
theorem safe_authenticateKey :
    Safe (Guarantee cfg) (authenticateKey request.secretHash)
      (fun
        | .ok key, tx, w' => tx = .begin ∧ Authenticates cfg request.secretHash key w w'
        | .error refusal, _, w' => Accounted cfg request w w' (.error refusal)) .begin w := by
  refine safe_bind (safe_selectOne fun w₁ found h₁ hfound => ?_)
  split
  · exact trivial
  · next key =>
      have hstored : w₁.now.get .apiKeys key.id = some key := hfound.get rfl
      refine safe_bind (safe_clock fun w₂ h₂ => ?_)
      split
      · exact trivial
      · next hfresh =>
          simp only [Bool.or_eq_true, not_or, Option.isSome_iff_ne_none, not_not] at hfresh
          have hunexpired : ∀ expiry, key.expiresAt = some expiry → w₂.now.clock < expiry := by
            intro expiry hexpiry
            have hlater := hfresh.2
            rw [hexpiry, Option.any_some, decide_eq_true_iff] at hlater
            exact Nat.lt_of_not_le hlater
          have husable : Usable cfg request.secretHash key w w₂ :=
            ⟨of_decide_eq_true (hfound.holds rfl), hfresh.1,
              (Seen.intro h₁.moves hstored).later h₂.moves,
              Seen.intro (h₁.moves.trans h₂.moves) hunexpired⟩
          refine safe_bind (safe_selectOne fun w₃ found' h₃ hfound' => ?_)
          split
          · exact trivial
          · next organization =>
              have hid : organization.id = key.organizationId :=
                of_decide_eq_true (hfound'.holds rfl)
              split
              · next hactive =>
                  have hopen : OpenOrganization key.organizationId w₃.now :=
                    ⟨organization, hid ▸ hfound'.get rfl, hactive⟩
                  refine safe_bind (safe_selectOne fun w₄ found'' h₄ hplan => ?_)
                  split
                  · exact safe_abortWith
                  · next plan =>
                      have hmoves : Moves (Guarantee cfg) w w₃ :=
                        h₁.moves.trans (h₂.moves.trans h₃.moves)
                      have husable' := husable.later (h₃.moves.trans h₄.moves)
                      split
                      · next haccess =>
                          have hgrants : GrantsApiKeys key.organizationId w₄.now :=
                            ⟨plan, hplan.get rfl, of_decide_eq_true (hplan.holds rfl), haccess⟩
                          exact ⟨rfl, hmoves.trans h₄.moves, husable',
                            (Seen.intro hmoves hopen).later h₄.moves,
                            Seen.intro (hmoves.trans h₄.moves) hgrants⟩
                      · exact ⟨key, husable'⟩
              · exact trivial

theorem isListed_iff {organizationId : Id} {cursor : Option (ListCursor Id)}
    {project : ProjectRow} :
    project ∈ (db.tables .projects).rows.filter (ExternalProjects.isListed organizationId cursor) ↔
      Listed organizationId cursor db project := by
  rw [List.mem_filter, Relation.mem_rows_iff, ExternalProjects.isListed, Bool.and_eq_true,
    Bool.and_eq_true, decide_eq_true_iff, Option.isNone_iff_eq_none, Option.all_eq_true]
  simp only [Bool.or_eq_true, Bool.and_eq_true, decide_eq_true_iff]
  exact ⟨fun h => ⟨h.1, h.2.1.1, h.2.1.2, h.2.2⟩,
    fun h => ⟨h.stored, ⟨h.owned, h.undeleted⟩, h.behind⟩⟩

/-- The page that is answered is the one to be listed at that moment. -/
theorem safe_listProjects {organizationId : Id} :
    Safe (Guarantee cfg)
      (ExternalProjects.listProjects organizationId request.limit request.cursor)
      (fun page _ w' => Moves (Guarantee cfg) w w' ∧ Lists organizationId request page w'.now)
      .begin w := by
  rw [ExternalProjects.listProjects]
  split
  · exact safe_abortWith
  · next cursor hcursor =>
      refine safe_bind (safe_bind (safe_select fun w' h' => ⟨h'.moves, cursor, hcursor, ?_⟩))
      have hids : (((w'.now.tables .projects).rows.filter
          (ExternalProjects.isListed organizationId cursor)).map ProjectRow.id).Nodup :=
        (List.filter_sublist.map _).nodup (w'.now.tables .projects).nodup
      exact Page.shows_ofFetched request.limit.min (pairwise_newestFirst hids)
        (fun row h => h.asymm h)
        fun row => (List.mem_insertionSort _).trans isListed_iff

theorem safe_listExternalProjects :
    Safe (Guarantee cfg) (listExternalProjects request)
      (fun answer _ w' => Accounted cfg request w w' answer) .begin w := by
  refine safe_bind (safe_authenticateKey.mono fun result tx w₁ hresult => ?_)
  cases result with
  | error refusal => exact hresult
  | ok key =>
      obtain ⟨rfl, hauth⟩ := hresult
      refine safe_bind (safe_listProjects.mono fun page tx w₂ hpage => ?_)
      obtain ⟨hmoves, hlists⟩ := hpage
      exact ⟨key, hauth.usable.later hmoves, hauth.organization.later hmoves,
        hauth.plan.later hmoves, Seen.intro (hauth.moves.trans hmoves) hlists⟩

/-- States of the server with requests of both kinds. -/
abbrev ExternalState := State orgistry (Request ⊕ ExternalRequest) (Answer ⊕ ExternalAnswer)

/-- An answer to a request with a key is accounted for. -/
def Explained (cfg : Config) (w : History orgistry) :
    Request ⊕ ExternalRequest → Answer ⊕ ExternalAnswer → History orgistry → Prop
  | .inr external, .inr answer, w' => Accounted cfg external w w' answer
  | _, _, _ => True

theorem safe_serveAll (hconsistent : Consistent w.now.tables) (request : ℕ)
    (r : Request ⊕ ExternalRequest) :
    Safe (Guarantee cfg) (serveAll cfg request r) (fun answer _ w' => Explained cfg w r answer w')
      .begin w := by
  cases r with
  | inl r => exact safe_bind ((safe_serve hconsistent request r).mono fun _ _ _ _ => trivial)
  | inr external => exact safe_bind (safe_listExternalProjects.mono fun _ _ _ h => h)

variable {Init : Database orgistry → Prop} {ok : Tx orgistry → Database orgistry → Prop}
  {s s' : ExternalState}

/-- Whatever runs at the same time, a listing for an API key shows a page of the projects of the
organization of a key that was usable for it between the arrival of the request and its answer. -/
theorem external_listings_were_authorised (hinit : ∀ db, Init db → Consistent db.tables)
    (h : State.Reach (serveAll cfg) Init ok s) {j : ℕ}
    (hanswered : s.Answered j (.inr request) (.inr (.ok page))) :
    ∃ th key, s.threads[j]? = some th ∧
      Authorised cfg request key page th.born s.history := by
  obtain ⟨th, u, hth, -, hu, key, hauthorised⟩ := hanswered.post hinit
    (fun i r w htrace => safe_serveAll (htrace.consistent hinit) i r) h
  exact ⟨th, key, hth, hauthorised.later hu⟩

/-- One project behind the first of March 2024. -/
def marchListing : ExternalRequest :=
  ⟨16, ⟨1, Nat.le_of_ble_eq_true rfl, Nat.le_of_ble_eq_true rfl⟩, some (.encoded 1709251200000 7)⟩

/-- A listing has read Alice's key when she revokes it, and ends after that. -/
def afterRacedListing : ExternalState :=
  (State.replay (serveAll sampleConfig) State.Always
    [.start (.inl (.createApiKey (some ⟨1, 1⟩)
        { organizationId := 1, expiresAt := none, secretHash := 16 })), .steps 0 60 9,
      .start (.inl (.createProject (some ⟨1, 1⟩) 1 1706659200000000)), .steps 1 60 10,
      .start (.inl (.createProject (some ⟨1, 1⟩) 1 1706745600123456)), .steps 2 60 11,
      .start (.inr marchListing), .steps 3 3 0,
      .start (.inl (.revokeApiKey (some ⟨1, 1⟩) 1 9)), .steps 4 60 0, .steps 3 9 0]
    (State.initial sampleOrganization)).get (by decide)

theorem raced_listing_was_authorised :
    (∃ project : ProjectRow, project.id = 11 ∧ ∃ th key, afterRacedListing.threads[3]? = some th ∧
      Authorised sampleConfig marchListing key
        ⟨[project], some (.encoded 1706745600123 11), true⟩ th.born afterRacedListing.history) ∧
      (afterRacedListing.history.now.get .apiKeys 9).any
        (fun key : ApiKeyRow => key.revokedAt.isSome) = true :=
  ⟨⟨_, rfl, external_listings_were_authorised
    (by rintro _ rfl; exact sampleOrganization_consistent)
    ((State.Reach.init (Eq.refl sampleOrganization)).later (.of_replay (Option.some_get _).symm))
    (show afterRacedListing.Answered 3 (.inr marchListing) (.inr (.ok ⟨[_], _, _⟩)) from
      ⟨_, rfl, rfl, rfl⟩)⟩,
    by decide⟩

/-! ## Keys that have ended -/

/-- The key is stored, and has been revoked or has expired. -/
structure Spent (key : ApiKeyRow) (db : Database orgistry) : Prop where
  stored : db.get .apiKeys key.id = some key
  ended : key.revokedAt ≠ none ∨ ∃ expiry, key.expiresAt = some expiry ∧ expiry ≤ db.clock

/-- A key keeps its secret. -/
structure SameKey (old new : ApiKeyRow) : Prop where
  secretHash : new.secretHash = old.secretHash
  later : old.Later new

theorem sameKey_persists (h : Moves (Guarantee cfg) v w) {x : Id}
    (hold : v.now.get .apiKeys x = some key) :
    ∃ new : ApiKeyRow, w.now.get .apiKeys x = some new ∧ SameKey key new := by
  refine h.evolves (R := SameKey) (fun row => ⟨rfl, .refl row⟩)
    (fun hab hbc => ⟨hbc.secretHash.trans hab.secretHash, hab.later.trans hbc.later⟩) ?_ hold
  intro tx db x old new hG hget hnew
  have hstep : ApiKeyStep cfg tx db (some old) new := hget ▸ hG hnew
  refine ⟨?_, hstep.later⟩
  cases hstep with
  | revoke => rfl

theorem key_of_secretHash (hdb : Consistent db.tables) {x y : Id} {a b : ApiKeyRow}
    (ha : db.get .apiKeys x = some a) (hb : db.get .apiKeys y = some b)
    (hhash : a.secretHash = b.secretHash) : a = b := by
  have hid : x = y := by
    by_contra hne
    have hconflict := hdb.unique ha hb hne
    simp [rowConflict, hhash] at hconflict
  subst hid
  exact Option.some_inj.mp (ha.symm.trans hb)

/-- A key that has ended is not usable any more. -/
theorem Spent.not_usable {used : ApiKeyRow} (hspent : Spent key v.now)
    (hmoves : Moves (Guarantee cfg) v w) (hw : Consistent w.now.tables) :
    ¬ Usable cfg key.secretHash used w w' := by
  intro husable
  obtain ⟨u, hu, -, hstored⟩ := husable.stored
  obtain ⟨now, hnow, hsame⟩ := sameKey_persists (hmoves.trans hu) hspent.stored
  obtain rfl : now = used :=
    key_of_secretHash (consistent_later hu hw) hnow hstored
      (hsame.secretHash.trans husable.secret.symm)
  rcases hspent.ended with hrevoked | ⟨expiry, hexpiry, hpast⟩
  · exact hsame.later.revoked hrevoked husable.unrevoked
  · obtain ⟨m, hm, -, hunexpired⟩ := husable.unexpired
    have hclock : v.now.clock ≤ m.now.clock := (hmoves.trans hm).clock_le
    exact absurd (hunexpired expiry (hsame.later.expiresAt.trans hexpiry))
      (Nat.not_lt.mpr (hpast.trans hclock))

/-- Once a key has been revoked or has expired, every request with its secret that arrives
later is refused as unauthorized. -/
theorem spent_keys_stay_refused (hinit : ∀ db, Init db → Consistent db.tables)
    (h : State.Reach (serveAll cfg) Init ok s)
    (hlater : State.Later (serveAll cfg) ok s s') (hspent : Spent key s.history.now) {j : ℕ}
    {answer : Answer ⊕ ExternalAnswer} (harrived : s.threads.length ≤ j)
    (hsecret : request.secretHash = key.secretHash)
    (hanswered : s'.Answered j (.inr request) answer) :
    ∀ result, answer = .inr result → result = .error .unauthorized := by
  have h' : State.Reach (serveAll cfg) Init ok s' := h.later hlater
  have hsafe : ∀ i r w, Trace (Guarantee cfg) Init w → Safe (Guarantee cfg) (serveAll cfg i r)
      (fun answer _ w' => Explained cfg w r answer w') .begin w :=
    fun i r w htrace => safe_serveAll (htrace.consistent hinit) i r
  have htrace : Trace (Guarantee cfg) Init s'.history :=
    (h'.adequate hinit hsafe).1.imp fun _ hdb => ⟨hdb.1, hdb.2.mono fun _ _ hcommit => hcommit.2⟩
  obtain ⟨th, u, hth, hborn, hu, hexplained⟩ := hanswered.post hinit hsafe h'
  obtain ⟨hbirth, -⟩ := htrace.of_extends (hborn.trans hu).extends
  have hsince : Moves (Guarantee cfg) s.history th.born :=
    (hbirth.of_extends (hlater.born hth harrived)).2
  have hrefuted : ∀ used, ¬ Usable cfg request.secretHash used th.born u :=
    fun used => hsecret ▸ hspent.not_usable hsince (hbirth.consistent hinit)
  rintro result rfl
  cases result with
  | ok page =>
      obtain ⟨used, hauthorised⟩ := hexplained
      exact absurd hauthorised.usable (hrefuted used)
  | error refusal =>
      cases refusal with
      | unauthorized => rfl
      | entitlementRequired =>
          obtain ⟨used, husable⟩ := hexplained
          exact absurd husable (hrefuted used)

/-- The key is presented once more. -/
def afterSpentKey : ExternalState :=
  (State.replay (serveAll sampleConfig) State.Always [.start (.inr marchListing), .steps 5 9 0]
    afterRacedListing).get (by decide)

theorem spent_key_was_refused :
    ∃ key, Spent key afterRacedListing.history.now ∧ key.secretHash = 16 ∧
      ∃ result, afterSpentKey.Answered 5 (.inr marchListing) (.inr result) ∧
        result = .error .unauthorized := by
  have hlater : State.Later (serveAll sampleConfig) State.Always afterRacedListing afterSpentKey :=
    .of_replay (Option.some_get _).symm
  have hanswered : afterSpentKey.Answered 5 (.inr marchListing)
      (.inr (.error .unauthorized)) :=
    ⟨_, rfl, rfl, rfl⟩
  have hspent : Spent (⟨9, 1, 16, none, some 1, 1⟩ : ApiKeyRow) afterRacedListing.history.now :=
    ⟨rfl, .inl (by decide)⟩
  exact ⟨_, hspent, rfl, _, hanswered, spent_keys_stay_refused
    (by rintro _ rfl; exact sampleOrganization_consistent)
    ((State.Reach.init (Eq.refl sampleOrganization)).later (.of_replay (Option.some_get _).symm))
    hlater hspent (by decide) rfl hanswered _ rfl⟩

end Orgistry.Model
