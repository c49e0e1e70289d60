import Orgistry.Access.KeyText
import Orgistry.Limits.Limiters
import Orgistry.Model.ApiKeyAuthenticator

/-!
# API-key authentication

An actor comes out of all checks passed, and of the rows that passed them.  The writes on
the way are awaited, so that one of them decides the outcome exactly where it fails.
-/

namespace Orgistry.Model.ApiKeyAuthenticator

open ApiKeySecret
open Repositories (ApiKeyScope)

variable {σ : Type} {options : Options σ} {world : World σ} {row : KeyRow} {ctx : RequestContext}
  {requiredScope : ApiKeyScope} {traces : Traces} {rawKey : Option (List Char)}
  {actor : ApiKeyActor}

/-- `createRedisRateLimiter` on a store that may be out of reach. -/
def redisLimiter : CountingLimiter (Option Redis) where
  consume
    | none, _ => (.unavailable, none)
    | some redis, call =>
        ((createRedisRateLimiter.consume redis call).1,
          some (createRedisRateLimiter.consume redis call).2)
  hits state call := state.bind fun redis => ((redis.readAt call.now).incr call.key).map Prod.fst
  consume_fst state call := by
    cases state with
    | none => rfl
    | some redis =>
        dsimp only [createRedisRateLimiter, Option.bind_some]
        rw [consume, LimiterCall.run]
        cases (redis.readAt call.now).incr call.key with
        | none => rfl
        | some answer =>
            dsimp only [Option.map_some]
            split <;> rfl

/-- SHA-256 on the secret of the sample key. -/
def sampleSha256 (bytes : List Text.Byte) : List Text.Byte :=
  if bytes = Text.encodeUtf8 "a_b-c".toList then
    Text.decodeHex "9a83c37cf5c998bed5625650fc2d2fb3dc1fdc822d666a710dc14c5fe4aed819".toList
  else []

def sampleOptions : Options (Option Redis) where
  sha256 := sampleSha256
  rateLimiter := redisLimiter
  rateLimits := { windowSeconds := 60, perKeyMax := 60, perOrgMax := 300,
                  authFailEventsPerIpMax := 10 }
  rateLimitFailureMode := .closed
  lastUsedThrottleSeconds := 300

def sampleKey : KeyRow where
  id := "akey_1"
  organizationId := "org_1"
  name := "CI"
  displayPrefix := "orgistry_0123ABCD"
  secretHash := "9a83c37cf5c998bed5625650fc2d2fb3dc1fdc822d666a710dc14c5fe4aed819"
  scopes := [.projectsRead]
  expiresAt := some 2000000
  lastUsedAt := none
  revokedAt := none
  revokedByUserId := none
  createdByUserId := "user_1"
  createdAt := 0
  updatedAt := 0

def sampleOrganization : Repositories.OrganizationRow where
  id := "org_1"
  name := "Acme"
  slug := "acme"
  type := .team
  status := .active
  createdByUserId := "user_1"
  createdAt := 0
  updatedAt := 0
  archivedAt := none

/-- A request at 1000 ms, one second before the key expires. -/
def sampleWorld (touchLastUsedFails : Bool) : World (Option Redis) where
  apiKeys := some [sampleKey]
  organizations := some [sampleOrganization]
  plans := some [⟨"oplan_1", "org_1", .pro⟩]
  lookedUpAtMs := 999
  nowMs := 1000
  lookedUpAtMs_le := Int.le.intro 1 rfl
  suppressedAtMs := 1000
  authFailBucket := ⟨some (Redis.empty 0), 1000⟩
  keyBucket := ⟨some (Redis.empty 0), 1000⟩
  orgBucket := ⟨some (Redis.empty 0), 1000⟩
  recordAuthEventFails := false
  touchLastUsedFails

def sampleContext : RequestContext := ⟨some "req_1", some "192.0.2.1", none⟩

def sampleTraces : Traces := ⟨[], [], [], none⟩

def sampleHeader : List Char := "Bearer orgistry_0123ABCD_a_b-c".toList

def sampleActor : ApiKeyActor := ⟨"akey_1", "org_1", [.projectsRead], some "req_1"⟩

theorem sample_authenticates :
    (authenticate sampleOptions (sampleWorld false) (bearerCredential (some sampleHeader))
      sampleContext .projectsRead sampleTraces).1 = .ok sampleActor := by
  decide +kernel

theorem sample_touch_fails :
    (authenticate sampleOptions (sampleWorld true) (bearerCredential (some sampleHeader))
      sampleContext .projectsRead sampleTraces).1 = .error .other := by
  decide +kernel

/-- The hits counted are within the limit, or the store cannot count and need not. -/
def WithinLimit (options : Options σ) (bucket : Bucket σ) (call : ConsumeCall) : Prop :=
  match options.rateLimiter.hits bucket.state call with
  | none => options.rateLimitFailureMode = .opened
  | some count => count ≤ call.limit

theorem throwAfter_ne_ok {α : Type} {recorded : Except Thrown Unit × Traces} {thrown : Thrown}
    {a : α} : (throwAfter recorded thrown).1 ≠ .ok a := by
  unfold throwAfter
  split <;> exact nofun

theorem enforceStoreAvailability_eq_true {decision : RateLimitDecision}
    {failureMode : RateLimitFailureMode} :
    enforceStoreAvailability decision failureMode = .ok true ↔
      decision = .allowed ∨ decision = .unavailable ∧ failureMode = .opened := by
  cases decision <;> cases failureMode <;> decide

theorem withinLimit_of_enforce {bucket : Bucket σ} {call : ConsumeCall}
    (h : enforceStoreAvailability (options.rateLimiter.consume bucket.state call).1
      options.rateLimitFailureMode = .ok true) : WithinLimit options bucket call := by
  rw [enforceStoreAvailability_eq_true, options.rateLimiter.consume_fst] at h
  unfold WithinLimit
  cases hhits : options.rateLimiter.hits bucket.state call with
  | none =>
      rw [hhits] at h
      exact (h.resolve_left nofun).2
  | some count =>
      rw [hhits] at h
      dsimp only at h ⊢
      refine decideLimit_eq_allowed.mp (h.resolve_right fun hnone => ?_)
      unfold decideLimit at hnone
      split at hnone <;> cases hnone.1

/-! What the queries find. -/

theorem row_of_find {secretHash : List Char}
    (h : findBySecretHash world secretHash = .ok (some row)) :
    ∃ rows, world.apiKeys = some rows ∧ row ∈ rows ∧ row.secretHash.toList = secretHash := by
  unfold findBySecretHash at h
  split at h
  · cases h
  · next rows hrows =>
      have hfind := Except.ok.inj h
      exact ⟨rows, hrows, List.mem_of_find?_eq_some hfind, by simpa using List.find?_some hfind⟩

theorem organization_of_find {organizationId : String}
    {organization : Option Repositories.OrganizationRow}
    (h : findOrganizationById world organizationId = .ok organization)
    (hactive : isActive organization = true) :
    ∃ rows row, world.organizations = some rows ∧ row ∈ rows ∧ row.id = organizationId ∧
      row.status = .active := by
  unfold findOrganizationById at h
  split at h
  · cases h
  · next rows hrows =>
      have hfind := Except.ok.inj h
      obtain ⟨row, rfl, hstatus⟩ := (Option.any_eq_true _ _).mp hactive
      exact ⟨rows, row, hrows, List.mem_of_find?_eq_some hfind,
        by simpa using List.find?_some hfind, of_decide_eq_true hstatus⟩

theorem plan_of_resolve {organizationId : String}
    (h : resolveApiKeyEntitlements world organizationId = .ok true) :
    ∃ rows row, world.plans = some rows ∧ row ∈ rows ∧ row.organizationId = organizationId ∧
      apiKeysAccess row.planKey = true := by
  unfold resolveApiKeyEntitlements at h
  split at h
  · cases h
  · next rows hrows =>
      split at h
      · cases h
      · next row hfind =>
          exact ⟨rows, row, hrows, List.mem_of_find?_eq_some hfind,
            by simpa using List.find?_some hfind, Except.ok.inj h⟩

theorem unexpired_of_not_isExpired {expiresAt : Timestamp}
    (h : ¬isExpired row world.nowMs = true) (hexpires : row.expiresAt = some expiresAt) :
    world.lookedUpAtMs < getTime expiresAt := by
  rw [isExpired, hexpires, Option.any_some, decide_eq_true_eq, not_le] at h
  exact world.lookedUpAtMs_le.trans_lt h

/-- From the rate limits on. -/
theorem letIn_eq_ok (h : (letIn options world row ctx traces).1 = .ok actor) :
    WithinLimit options world.keyBucket (keyCall options world row) ∧
      WithinLimit options world.orgBucket (orgCall options world row) ∧
      actor = ⟨row.id, row.organizationId, row.scopes, ctx.requestId⟩ := by
  unfold letIn at h
  dsimp only at h
  split at h
  · cases h
  · exact absurd h throwAfter_ne_ok
  · next hkey =>
      split at h
      · cases h
      · exact absurd h throwAfter_ne_ok
      · next horg =>
          refine ⟨withinLimit_of_enforce hkey, withinLimit_of_enforce horg, ?_⟩
          split at h
          · split at h
            · cases h
            · exact (Except.ok.inj h).symm
          · exact (Except.ok.inj h).symm

/-- The checks on what the key belongs to. -/
theorem authorize_eq_ok (h : (authorize options world row ctx requiredScope traces).1 = .ok actor) :
    (∃ organizations organization, world.organizations = some organizations ∧
        organization ∈ organizations ∧ organization.id = row.organizationId ∧
        organization.status = .active) ∧
      (∃ plans plan, world.plans = some plans ∧ plan ∈ plans ∧
        plan.organizationId = row.organizationId ∧ apiKeysAccess plan.planKey = true) ∧
      requiredScope ∈ row.scopes ∧ (letIn options world row ctx traces).1 = .ok actor := by
  unfold authorize at h
  split at h
  · cases h
  · next organization hfind =>
      split at h
      · next hactive =>
          split at h
          · cases h
          · next access hplan =>
              split at h
              · next haccess =>
                  split at h
                  · next hscope =>
                      exact ⟨organization_of_find hfind hactive, plan_of_resolve (haccess ▸ hplan),
                        hscope, h⟩
                  · exact absurd h throwAfter_ne_ok
              · exact absurd h throwAfter_ne_ok
      · exact absurd h throwAfter_ne_ok

/-- An actor comes of a stored key whose secret was presented, unrevoked and, when it was
looked up, unexpired, of an active organization whose plan grants access, with the scope,
and within both limits; and the organization is that of the row. -/
theorem authenticate_sound (options : Options σ) (world : World σ) (header : Option (List Char))
    (ctx : RequestContext) (requiredScope : ApiKeyScope) (traces : Traces) (actor : ApiKeyActor)
    (h : (authenticate options world (bearerCredential header) ctx requiredScope traces).1 =
      .ok actor) :
    ∃ parsed rows row, parseApiKey (bearerCredential header) = some parsed ∧
      world.apiKeys = some rows ∧ row ∈ rows ∧
      row.secretHash.toList = hashApiKeySecret options.sha256 parsed.secretComponent ∧
      row.revokedAt = none ∧
      (∀ expiresAt, row.expiresAt = some expiresAt → world.lookedUpAtMs < getTime expiresAt) ∧
      (∃ organizations organization, world.organizations = some organizations ∧
        organization ∈ organizations ∧ organization.id = row.organizationId ∧
        organization.status = .active) ∧
      (∃ plans plan, world.plans = some plans ∧ plan ∈ plans ∧
        plan.organizationId = row.organizationId ∧ apiKeysAccess plan.planKey = true) ∧
      requiredScope ∈ row.scopes ∧
      WithinLimit options world.keyBucket (keyCall options world row) ∧
      WithinLimit options world.orgBucket (orgCall options world row) ∧
      actor = ⟨row.id, row.organizationId, row.scopes, ctx.requestId⟩ := by
  unfold authenticate at h
  dsimp only at h
  split at h
  · exact absurd h throwAfter_ne_ok
  · next parsed hparsed =>
      split at h
      · cases h
      · exact absurd h throwAfter_ne_ok
      · next row hfind =>
          split at h
          · exact absurd h throwAfter_ne_ok
          · next hrevoked =>
              split at h
              · exact absurd h throwAfter_ne_ok
              · next hexpired =>
                  obtain ⟨rows, hrows, hrow, hhash⟩ := row_of_find hfind
                  obtain ⟨horganization, hplan, hscope, h⟩ := authorize_eq_ok h
                  obtain ⟨hkey, horg, hactor⟩ := letIn_eq_ok h
                  exact ⟨parsed, rows, row, hparsed, hrows, hrow, hhash, by simpa using hrevoked,
                    fun expiresAt hexpires => unexpired_of_not_isExpired hexpired hexpires,
                    horganization, hplan, hscope, hkey, horg, hactor⟩

theorem authenticate_sound_at_sample :
    ∃ row, row ∈ [sampleKey] ∧ row.revokedAt = none ∧ sampleActor.organizationId =
      row.organizationId := by
  obtain ⟨parsed, rows, row, -, hrows, hrow, -, hrevoked, -, -, -, -, -, -, hactor⟩ :=
    authenticate_sound sampleOptions (sampleWorld false) (some sampleHeader) sampleContext
      .projectsRead sampleTraces sampleActor sample_authenticates
  cases hrows
  exact ⟨row, hrow, hrevoked, by rw [hactor]⟩

/-! ## Bookkeeping -/

/-- The same request, with both writes succeeding. -/
def World.writing (world : World σ) : World σ :=
  { world with recordAuthEventFails := false, touchLastUsedFails := false }

/-- A bucket refuses. -/
def RateLimited (options : Options σ) (world : World σ) (row : KeyRow) : Prop :=
  enforceStoreAvailability (keyDecision options world row) options.rateLimitFailureMode =
      .ok false ∨
    enforceStoreAvailability (keyDecision options world row) options.rateLimitFailureMode =
        .ok true ∧
      enforceStoreAvailability (orgDecision options world row) options.rateLimitFailureMode =
        .ok false

/-- Both buckets let the request through. -/
def Unlimited (options : Options σ) (world : World σ) (row : KeyRow) : Prop :=
  enforceStoreAvailability (keyDecision options world row) options.rateLimitFailureMode =
      .ok true ∧
    enforceStoreAvailability (orgDecision options world row) options.rateLimitFailureMode =
      .ok true

/-- Whether the organization of the row is active has been found out. -/
def OrganizationActive (world : World σ) (row : KeyRow) (active : Bool) : Prop :=
  ∃ organization, findOrganizationById world row.organizationId = .ok organization ∧
    isActive organization = active

/-- Whether the plan of the active organization grants access has been found out. -/
def Entitled (world : World σ) (row : KeyRow) (access : Bool) : Prop :=
  OrganizationActive world row true ∧
    resolveApiKeyEntitlements world row.organizationId = .ok access

/-- From the organization on, an event is due. -/
def RowEventDue (options : Options σ) (world : World σ) (ctx : RequestContext)
    (requiredScope : ApiKeyScope) (row : KeyRow) : Prop :=
  OrganizationActive world row false ∧ authFailDecision options world ctx = .allowed ∨
    Entitled world row false ∨
    Entitled world row true ∧
      (requiredScope ∉ row.scopes ∨ requiredScope ∈ row.scopes ∧ RateLimited options world row)

/-- From the organization on, the last use is due. -/
def RowTouchDue (options : Options σ) (world : World σ) (requiredScope : ApiKeyScope)
    (row : KeyRow) : Prop :=
  Entitled world row true ∧ requiredScope ∈ row.scopes ∧ Unlimited options world row ∧
    shouldTouch options world row = true

theorem throwAfter_recordAuthEvent {α : Type} (event : AuthEvent) (thrown : Thrown) :
    (throwAfter (recordAuthEvent world event traces) thrown : Except Thrown α × Traces).1 =
      .error (if world.recordAuthEventFails then .other else thrown) := by
  unfold recordAuthEvent
  split <;> rfl

theorem throwAfter_recordFailedAuthEventBounded {α : Type} (event : AuthEvent) (thrown : Thrown) :
    (throwAfter (recordFailedAuthEventBounded options world event traces) thrown :
        Except Thrown α × Traces).1 =
      .error (if world.recordAuthEventFails ∧ authFailDecision options world event.ctx = .allowed
        then .other else thrown) := by
  unfold recordFailedAuthEventBounded
  dsimp only
  by_cases hallowed : authFailDecision options world event.ctx = .allowed
  · rw [if_pos hallowed, throwAfter_recordAuthEvent]
    simp only [hallowed, and_true]
  · have hout : ¬(world.recordAuthEventFails ∧
        authFailDecision options world event.ctx = .allowed) := fun h => hallowed h.2
    rw [if_neg hallowed, if_neg hout]
    split <;> rfl

/-- The outcome from the rate limits on. -/
theorem letIn_fst : (letIn options world row ctx traces).1 =
    match enforceStoreAvailability (keyDecision options world row) options.rateLimitFailureMode with
    | .error error => .error error
    | .ok false => .error (if world.recordAuthEventFails then .other else apiKeyRateLimitedError)
    | .ok true =>
        match enforceStoreAvailability (orgDecision options world row)
            options.rateLimitFailureMode with
        | .error error => .error error
        | .ok false =>
            .error (if world.recordAuthEventFails then .other else apiKeyRateLimitedError)
        | .ok true =>
            if world.touchLastUsedFails ∧ shouldTouch options world row then .error .other
            else .ok ⟨row.id, row.organizationId, row.scopes, ctx.requestId⟩ := by
  unfold letIn
  dsimp only
  cases enforceStoreAvailability (keyDecision options world row) options.rateLimitFailureMode with
  | error error => rfl
  | ok keyOk =>
      cases keyOk with
      | false => exact throwAfter_recordAuthEvent _ _
      | true =>
          cases enforceStoreAvailability (orgDecision options world row)
            options.rateLimitFailureMode with
          | error error => rfl
          | ok orgOk =>
              cases orgOk with
              | false => exact throwAfter_recordAuthEvent _ _
              | true =>
                  unfold touchLastUsed
                  cases shouldTouch options world row <;> cases world.touchLastUsedFails <;> rfl

theorem letIn_eq_iff : (letIn options world row ctx traces).1 =
      (letIn options world.writing row ctx traces).1 ↔
    ¬(world.recordAuthEventFails ∧ RateLimited options world row) ∧
      ¬(world.touchLastUsedFails ∧ Unlimited options world row ∧
        shouldTouch options world row = true) := by
  have hkey : keyDecision options world.writing row = keyDecision options world row := rfl
  have horg : orgDecision options world.writing row = orgDecision options world row := rfl
  rw [letIn_fst, letIn_fst, hkey, horg, RateLimited, Unlimited]
  cases enforceStoreAvailability (keyDecision options world row) options.rateLimitFailureMode with
  | error error => simp
  | ok keyOk =>
      cases enforceStoreAvailability (orgDecision options world row)
        options.rateLimitFailureMode with
      | error error => cases keyOk <;> simp [World.writing, apiKeyRateLimitedError]
      | ok orgOk => cases keyOk <;> cases orgOk <;> simp [World.writing, apiKeyRateLimitedError]

theorem organizationActive_iff {organization : Option Repositories.OrganizationRow} {active : Bool}
    (h : findOrganizationById world row.organizationId = .ok organization) :
    OrganizationActive world row active ↔ isActive organization = active := by
  simp [OrganizationActive, h]

theorem not_organizationActive {error : Thrown} {active : Bool}
    (h : findOrganizationById world row.organizationId = .error error) :
    ¬OrganizationActive world row active := by
  rintro ⟨organization, hok, -⟩
  rw [h] at hok
  cases hok

theorem error_ite_eq_iff {α : Type} {p : Prop} [Decidable p] {thrown : Thrown}
    (hthrown : thrown ≠ .other) :
    (.error (if p then .other else thrown) : Except Thrown α) = .error thrown ↔ ¬p := by
  split
  · next hp => simpa [hp] using hthrown.symm
  · next hp => simp [hp]

theorem recordAuthEvent_eq_iff {α : Type} (event : AuthEvent) {thrown : Thrown}
    (hthrown : thrown ≠ .other) :
    (throwAfter (recordAuthEvent world event traces) thrown : Except Thrown α × Traces).1 =
        (throwAfter (recordAuthEvent world.writing event traces) thrown :
          Except Thrown α × Traces).1 ↔
      ¬world.recordAuthEventFails := by
  rw [throwAfter_recordAuthEvent, throwAfter_recordAuthEvent]
  exact error_ite_eq_iff hthrown

theorem recordFailedAuthEventBounded_eq_iff {α : Type} (event : AuthEvent) {thrown : Thrown}
    (hthrown : thrown ≠ .other) :
    (throwAfter (recordFailedAuthEventBounded options world event traces) thrown :
          Except Thrown α × Traces).1 =
        (throwAfter (recordFailedAuthEventBounded options world.writing event traces) thrown :
          Except Thrown α × Traces).1 ↔
      ¬(world.recordAuthEventFails ∧ authFailDecision options world event.ctx = .allowed) := by
  rw [throwAfter_recordFailedAuthEventBounded, throwAfter_recordFailedAuthEventBounded]
  exact error_ite_eq_iff hthrown

/-- Failed writes change the decision only where they are due. -/
theorem authorize_eq_iff : (authorize options world row ctx requiredScope traces).1 =
      (authorize options world.writing row ctx requiredScope traces).1 ↔
    ¬(world.recordAuthEventFails ∧ RowEventDue options world ctx requiredScope row) ∧
      ¬(world.touchLastUsedFails ∧ RowTouchDue options world requiredScope row) := by
  have hfindWriting : findOrganizationById world.writing row.organizationId =
    findOrganizationById world row.organizationId := rfl
  have hplanWriting : resolveApiKeyEntitlements world.writing row.organizationId =
    resolveApiKeyEntitlements world row.organizationId := rfl
  unfold authorize RowEventDue RowTouchDue Entitled
  rw [hfindWriting, hplanWriting]
  cases hfind : findOrganizationById world row.organizationId with
  | error error => simp [not_organizationActive hfind]
  | ok organization =>
      simp only [organizationActive_iff hfind]
      cases isActive organization with
      | false => simp [recordFailedAuthEventBounded_eq_iff, apiKeyUnauthorizedError]
      | true =>
          cases resolveApiKeyEntitlements world row.organizationId with
          | error error => simp
          | ok access =>
              cases access with
              | false => simp [recordAuthEvent_eq_iff, entitlementRequiredError]
              | true =>
                  by_cases hscope : requiredScope ∈ row.scopes
                  · simp [hscope, letIn_eq_iff]
                  · simp [hscope, recordAuthEvent_eq_iff, apiKeyScopeRequiredError]

/-- The lookup of a credential that parses. -/
def LooksUp (options : Options σ) (world : World σ) (rawKey : Option (List Char))
    (found : Option KeyRow) : Prop :=
  ∃ parsed, parseApiKey rawKey = some parsed ∧
    findBySecretHash world (hashApiKeySecret options.sha256 parsed.secretComponent) = .ok found

/-- Neither revoked nor expired. -/
def Usable (world : World σ) (row : KeyRow) : Prop :=
  row.revokedAt.isSome = false ∧ isExpired row world.nowMs = false

/-- The write of an event is part of the request: a uniform refusal whose bucket allows
one, or a refusal behind it. -/
def EventDue (options : Options σ) (world : World σ) (rawKey : Option (List Char))
    (ctx : RequestContext) (requiredScope : ApiKeyScope) : Prop :=
  parseApiKey rawKey = none ∧ authFailDecision options world ctx = .allowed ∨
    LooksUp options world rawKey none ∧ authFailDecision options world ctx = .allowed ∨
    ∃ row, LooksUp options world rawKey (some row) ∧
      (¬Usable world row ∧ authFailDecision options world ctx = .allowed ∨
        Usable world row ∧ RowEventDue options world ctx requiredScope row)

/-- The write of the last use is part of the request. -/
def TouchDue (options : Options σ) (world : World σ) (rawKey : Option (List Char))
    (requiredScope : ApiKeyScope) : Prop :=
  ∃ row, LooksUp options world rawKey (some row) ∧ Usable world row ∧
    RowTouchDue options world requiredScope row

theorem looksUp_iff {parsed : ParsedApiKey} {found : Option KeyRow}
    (hparsed : parseApiKey rawKey = some parsed) :
    LooksUp options world rawKey found ↔
      findBySecretHash world (hashApiKeySecret options.sha256 parsed.secretComponent) =
        .ok found := by
  simp [LooksUp, hparsed]

/-- The outcome is that of succeeding writes exactly if no write fails that the request
comes to. -/
theorem authenticate_eq_writing_iff (options : Options σ) (world : World σ)
    (rawKey : Option (List Char)) (ctx : RequestContext) (requiredScope : ApiKeyScope)
    (traces : Traces) :
    (authenticate options world rawKey ctx requiredScope traces).1 =
        (authenticate options world.writing rawKey ctx requiredScope traces).1 ↔
      ¬(world.recordAuthEventFails ∧ EventDue options world rawKey ctx requiredScope) ∧
        ¬(world.touchLastUsedFails ∧ TouchDue options world rawKey requiredScope) := by
  have hlookup (secretHash : List Char) :
    findBySecretHash world.writing secretHash = findBySecretHash world secretHash := rfl
  have hnow : world.writing.nowMs = world.nowMs := rfl
  unfold authenticate EventDue TouchDue
  dsimp only
  cases hparsed : parseApiKey rawKey with
  | none =>
      have hnone (found : Option KeyRow) : ¬LooksUp options world rawKey found := by
        simp [LooksUp, hparsed]
      simp [hnone, recordFailedAuthEventBounded_eq_iff, apiKeyUnauthorizedError]
  | some parsed =>
      simp only [looksUp_iff hparsed, hlookup, hnow]
      cases findBySecretHash world (hashApiKeySecret options.sha256 parsed.secretComponent) with
      | error error => simp
      | ok found =>
          cases found with
          | none => simp [recordFailedAuthEventBounded_eq_iff, apiKeyUnauthorizedError]
          | some row =>
              dsimp only
              cases hrevoked : row.revokedAt.isSome with
              | true =>
                  have husable : ¬Usable world row := fun h => by cases hrevoked.symm.trans h.1
                  simp [husable, recordFailedAuthEventBounded_eq_iff, apiKeyUnauthorizedError]
              | false =>
                  cases hexpired : isExpired row world.nowMs with
                  | true =>
                      have husable : ¬Usable world row := fun h => by cases hexpired.symm.trans h.2
                      simp [husable, recordFailedAuthEventBounded_eq_iff, apiKeyUnauthorizedError]
                  | false =>
                      have husable : Usable world row := ⟨hrevoked, hexpired⟩
                      simp [husable, authorize_eq_iff]

/-- A valid key is turned away when its last use cannot be written. -/
theorem authenticate_depends_on_writes : ¬∀ (σ : Type) (options : Options σ) (world : World σ)
    (rawKey : Option (List Char)) (ctx : RequestContext) (requiredScope : ApiKeyScope)
    (traces : Traces),
    (authenticate options world rawKey ctx requiredScope traces).1 =
      (authenticate options world.writing rawKey ctx requiredScope traces).1 := by
  intro h
  have hfailing := h _ sampleOptions (sampleWorld true) (bearerCredential (some sampleHeader))
    sampleContext .projectsRead sampleTraces
  have hwriting : (sampleWorld true).writing = sampleWorld false := rfl
  rw [hwriting, sample_touch_fails, sample_authenticates] at hfailing
  cases hfailing

end Orgistry.Model.ApiKeyAuthenticator
