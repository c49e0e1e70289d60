import Orgistry.Model.PublicRequests

/-!
# Public requests disclose nothing

What a public request answers is decided by the limiter and by the one event write
before it refuses; no account, pending registration, invitation or failure behind
the limiter changes the response.
-/

namespace Orgistry.Model.PublicRequests

variable {α β : Type} {call : Service α} {f : α → Service β}

/-- In every world, the call ends with `result`. -/
def Decides (call : Service α) (result : Except Thrown α) : Prop := ∀ w, (call w).1 = result

/-- In no world does the call throw. -/
def NoThrow (call : Service α) : Prop := ∀ w, ∃ a, (call w).1 = .ok a

theorem Decides.noThrow {a : α} (h : Decides call (.ok a)) : NoThrow call := fun w => ⟨a, h w⟩

theorem decides_pure (a : α) : Decides (pure a : Service α) (.ok a) := fun _ => rfl

theorem decides_throw (thrown : Thrown) : Decides (throw thrown : Service α) (.error thrown) :=
  fun _ => rfl

/-- How a sequence of two calls goes. -/
theorem bind_fst (w : World) : ((call >>= f) w).1 =
    match call w with
    | (.ok a, after) => (f a after).1
    | (.error thrown, _) => .error thrown := by
  change (ExceptT.bindCont f (call w).1 (call w).2).1 = _
  rcases call w with ⟨_ | a, after⟩ <;> rfl

theorem decides_bind {a : α} {result : Except Thrown β} (hcall : Decides call (.ok a))
    (hf : Decides (f a) result) : Decides (call >>= f) result := by
  intro w
  have hfirst := hcall w
  rw [bind_fst]
  split
  · next a' after heq =>
      obtain rfl : a' = a := by simpa [heq] using hfirst
      exact hf after
  · next thrown after heq => simp [heq] at hfirst

theorem decides_bind_error {thrown : Thrown} (hcall : Decides call (.error thrown)) :
    Decides (call >>= f) (.error thrown) := by
  intro w
  have hfirst := hcall w
  rw [bind_fst]
  split
  · next a after heq => simp [heq] at hfirst
  · next thrown' after heq => simpa [heq] using hfirst

/-- All branches behind a call that does not throw end alike. -/
theorem decides_bind_noThrow {result : Except Thrown β} (hcall : NoThrow call)
    (hf : ∀ a, Decides (f a) result) : Decides (call >>= f) result := by
  intro w
  obtain ⟨a, hfirst⟩ := hcall w
  rw [bind_fst]
  split
  · next a' after heq => exact hf a' after
  · next thrown after heq => simp [heq] at hfirst

theorem noThrow_attempt : NoThrow call.attempt := fun w => ⟨(call w).1, rfl⟩

theorem noThrow_bind (hcall : NoThrow call) (hf : ∀ a, NoThrow (f a)) :
    NoThrow (call >>= f) := by
  intro w
  obtain ⟨a, hfirst⟩ := hcall w
  rw [bind_fst]
  split
  · next a' after heq => exact hf a' after
  · next thrown after heq => simp [heq] at hfirst

theorem decides_ite {c : Prop} [Decidable c] {call' : Service α} {result : Except Thrown α}
    (hthen : Decides call result) (helse : Decides call' result) :
    Decides (if c then call else call') result := by
  split
  · exact hthen
  · exact helse

/-- What one bucket lets happen. -/
def verdict (options : Options) (failures : Failures) :
    RateLimitDecision → Except Thrown Unit
  | .allowed => .ok ()
  | .limited => .error (if failures.limiterEvent then .other else rateLimitedError)
  | .unavailable =>
      match options.rateLimitFailureMode with
      | .failOpen => .ok ()
      | .failClosed => .error rateLimitStoreUnavailableError

def ipVerdict (options : Options) (ctx : RequestContext) (c : Circumstances) :
    Except Thrown Unit :=
  if ctx.hasIpAddress then verdict options c.failures c.perIp else .ok ()

/-- What both buckets of a request let happen. -/
def requestVerdict (options : Options) (ctx : RequestContext) (c : Circumstances) :
    Except Thrown Unit :=
  (ipVerdict options ctx c).bind fun _ => verdict options c.failures c.perEmail

/-- The limiter gives its verdict in every world, whatever accounts are stored. -/
theorem decides_enforceRateLimit {options : Options} {failures : Failures}
    {decision : RateLimitDecision} {bucket : String} {ctx : RequestContext} :
    Decides (enforceRateLimit options failures decision bucket ctx)
      (verdict options failures decision) := by
  cases decision with
  | allowed => exact decides_bind (decides_pure true) (decides_pure ())
  | limited =>
      refine decides_bind (decides_pure false) ?_
      cases hfails : failures.limiterEvent with
      | true =>
          simp only [verdict, hfails, if_true]
          exact decides_bind_error fun _ => rfl
      | false =>
          simp only [verdict, hfails]
          exact decides_bind (a := ()) (fun _ => rfl) (decides_throw _)
  | unavailable =>
      cases hmode : options.rateLimitFailureMode with
      | failOpen =>
          simp only [verdict, hmode, enforceRateLimit]
          exact decides_bind (decides_pure true) (decides_pure ())
      | failClosed =>
          simp only [verdict, hmode, enforceRateLimit]
          exact decides_bind_error (decides_throw _)

/-- The first of two calls decides when it throws. -/
theorem Decides.andThen {first : Service Unit} {verdict : Except Thrown Unit}
    {result : Except Thrown α} (hfirst : Decides first verdict) (hcall : Decides call result) :
    Decides (first >>= fun _ => call) (verdict.bind fun _ => result) := by
  cases verdict with
  | error thrown => exact decides_bind_error hfirst
  | ok _ => exact decides_bind hfirst hcall

theorem decides_enforceIpRateLimit {options : Options} {c : Circumstances} {bucket : String}
    {ctx : RequestContext} :
    Decides (enforceIpRateLimit options c bucket ctx) (ipVerdict options ctx c) := by
  unfold enforceIpRateLimit ipVerdict
  split
  · exact decides_enforceRateLimit
  · exact decides_pure ()

theorem decides_enforceRequestLimits {options : Options} {c : Circumstances}
    {ipBucket emailBucket : String} {ctx : RequestContext} :
    Decides (enforceRequestLimits options c ipBucket emailBucket ctx)
      (requestVerdict options ctx c) :=
  decides_enforceIpRateLimit.andThen decides_enforceRateLimit

/-- The recorder swallows what the event store throws. -/
theorem decides_recordRequestOutcome {eventType : String} {failures : Failures}
    {outcome : RequestOutcome} {ctx : RequestContext} :
    Decides (recordRequestOutcome eventType failures outcome ctx) (.ok ()) :=
  decides_bind_noThrow noThrow_attempt fun _ => decides_pure ()

/-- A call that cannot throw, and then the generic acceptance. -/
theorem decides_accept {first : Service Unit} (hfirst : Decides first (.ok ())) :
    Decides (do first; return genericAcceptance) (.ok genericAcceptance) :=
  decides_bind hfirst (decides_pure genericAcceptance)

namespace RegistrationService

variable {options : Options} {c : Circumstances} {ctx : RequestContext}

theorem decides_recordOutcome {outcome : RequestOutcome} :
    Decides (recordOutcome c outcome ctx) (.ok ()) :=
  decides_recordRequestOutcome

theorem decides_sendExistingAccountGuidance {user : User} :
    Decides (sendExistingAccountGuidance c user ctx) (.ok ()) := by
  refine decides_ite decides_recordOutcome (decides_bind_noThrow noThrow_attempt fun sent => ?_)
  cases sent with
  | ok _ => exact decides_recordOutcome
  | error _ => exact decides_recordOutcome

theorem noThrow_resolveRequestInvitation {invitationToken : Option TokenHash}
    {normalizedEmail : String} :
    NoThrow (resolveRequestInvitation options c invitationToken normalizedEmail) := by
  unfold resolveRequestInvitation
  cases invitationToken with
  | none => exact (decides_pure _).noThrow
  | some tokenHash =>
      change NoThrow (if _ then _ else _)
      split
      · refine noThrow_bind noThrow_attempt fun prepared => ?_
        rcases prepared with (error | _) | invitationId
        · exact (decides_pure _).noThrow
        · exact (decides_pure _).noThrow
        · exact (decides_pure _).noThrow
      · exact (decides_pure _).noThrow

theorem decides_stageRegistration {input : RegisterRequest} {passwordHash : String}
    {invitationId : Option Id} :
    Decides (stageRegistration options c input passwordHash invitationId ctx) (.ok ()) := by
  refine decides_bind_noThrow noThrow_attempt fun stored => ?_
  cases stored with
  | error _ => exact decides_recordOutcome
  | ok _ =>
      refine decides_bind_noThrow noThrow_attempt fun sent => ?_
      cases sent with
      | error _ => exact decides_recordOutcome
      | ok _ => exact decides_recordOutcome

theorem decides_proceed {input : RegisterRequest} {passwordHash : String}
    {invitationId : Option Id} :
    Decides (proceed options c input passwordHash invitationId ctx) (.ok genericAcceptance) := by
  refine decides_bind_noThrow noThrow_attempt fun found => ?_
  rcases found with _ | _ | user
  · exact decides_accept decides_recordOutcome
  · exact decides_accept decides_stageRegistration
  · exact decides_ite (decides_accept decides_sendExistingAccountGuidance)
      (decides_accept decides_recordOutcome)

theorem decides_requestRegistration {input : RegisterRequest} :
    Decides (requestRegistration options c input ctx)
      ((requestVerdict options ctx c).bind fun _ => .ok genericAcceptance) := by
  refine decides_enforceRequestLimits.andThen ?_
  refine decides_bind_noThrow noThrow_resolveRequestInvitation fun invitation => ?_
  cases invitation with
  | none => exact decides_proceed
  | valid invitationId => exact decides_proceed
  | rejected outcome => exact decides_accept decides_recordOutcome

end RegistrationService

namespace PasswordRecoveryService

variable {options : Options} {c : Circumstances} {ctx : RequestContext}

theorem decides_recordOutcome {outcome : RequestOutcome} :
    Decides (recordOutcome c outcome ctx) (.ok ()) :=
  decides_recordRequestOutcome

theorem decides_sendReset {user : User} :
    Decides (sendReset options c user ctx) (.ok ()) := by
  refine decides_bind_noThrow noThrow_attempt fun stored => ?_
  cases stored with
  | error _ => exact decides_recordOutcome
  | ok _ =>
      refine decides_bind_noThrow noThrow_attempt fun sent => ?_
      cases sent with
      | error _ => exact decides_recordOutcome
      | ok _ => exact decides_recordOutcome

theorem decides_requestReset {email : String} :
    Decides (requestReset options c email ctx)
      ((requestVerdict options ctx c).bind fun _ => .ok genericAcceptance) := by
  refine decides_enforceRequestLimits.andThen ?_
  refine decides_bind_noThrow noThrow_attempt fun found => ?_
  rcases found with _ | _ | user
  · exact decides_accept decides_recordOutcome
  · exact decides_accept decides_recordOutcome
  · exact decides_ite (decides_accept decides_sendReset) (decides_accept decides_recordOutcome)

end PasswordRecoveryService

/-- The response to a request is decided without a look at the world. -/
theorem PublicRequest.decides_run {options : Options} {c : Circumstances} {ctx : RequestContext}
    (request : PublicRequest) :
    Decides (request.run options ctx c)
      ((requestVerdict options ctx c).bind fun _ => .ok genericAcceptance) := by
  cases request with
  | requestRegistration input => exact RegistrationService.decides_requestRegistration
  | requestReset email => exact PasswordRecoveryService.decides_requestReset

/-! ## Sequences -/

/-- The response that the limiter decides. -/
def Call.response (options : Options) (call : Call) : Response :=
  respond ((requestVerdict options call.ctx call.circumstances).bind fun _ =>
    .ok genericAcceptance)

theorem responses_eq_map (options : Options) (w : World) (calls : List Call) :
    responses options w calls = calls.map (Call.response options) := by
  induction calls generalizing w with
  | nil => rfl
  | cons call calls ih =>
      change respond (call.request.run options call.ctx call.circumstances w).1 :: _ = _
      rw [call.request.decides_run w, ih]
      rfl

/-- The bucket lets a request pass. -/
def Passes (options : Options) (decision : RateLimitDecision) : Prop :=
  decision = .allowed ∨ decision = .unavailable ∧ options.rateLimitFailureMode = .failOpen

/-- One of the public buckets refuses the request, which is recorded. -/
def Call.Refused (options : Options) (call : Call) : Prop :=
  (call.ctx.hasIpAddress ∧ call.circumstances.perIp = .limited) ∨
    ((call.ctx.hasIpAddress → Passes options call.circumstances.perIp) ∧
      call.circumstances.perEmail = .limited)

/-- The same request under other circumstances. -/
def Call.under (call : Call) (c : Circumstances) : Call := { call with circumstances := c }

/-- A refused request ends with what became of its record. -/
theorem requestVerdict_of_refused {options : Options} {call : Call} (h : call.Refused options) :
    requestVerdict options call.ctx call.circumstances =
      .error (if call.circumstances.failures.limiterEvent then .other else rateLimitedError) := by
  rcases h with ⟨haddress, hip⟩ | ⟨hpasses, hemail⟩
  · simp [requestVerdict, ipVerdict, verdict, haddress, hip, Except.bind]
  · have hfirst : ipVerdict options call.ctx call.circumstances = .ok () := by
      unfold ipVerdict
      split
      · next haddress =>
          rcases hpasses haddress with hallowed | ⟨hunavailable, hmode⟩
          · simp [verdict, hallowed]
          · simp [verdict, hunavailable, hmode]
      · rfl
    simp [requestVerdict, hfirst, verdict, hemail, Except.bind]

/-- What becomes of other requests does not depend on failures. -/
theorem requestVerdict_of_not_refused {options : Options} {call : Call} {c : Circumstances}
    (hip : c.perIp = call.circumstances.perIp) (hemail : c.perEmail = call.circumstances.perEmail)
    (h : ¬call.Refused options) :
    requestVerdict options call.ctx call.circumstances = requestVerdict options call.ctx c := by
  have hverdict : ∀ decision, decision ≠ .limited →
      verdict options call.circumstances.failures decision =
        verdict options c.failures decision := by
    intro decision hne
    cases decision with
    | limited => exact absurd rfl hne
    | _ => rfl
  have hfirst : ipVerdict options call.ctx call.circumstances = ipVerdict options call.ctx c := by
    unfold ipVerdict
    split
    · next haddress => exact hip ▸ hverdict _ fun hlimited => h (.inl ⟨haddress, hip ▸ hlimited⟩)
    · rfl
  unfold requestVerdict
  rw [← hfirst]
  cases hip' : ipVerdict options call.ctx call.circumstances with
  | error thrown => rfl
  | ok _ =>
      refine hemail ▸ hverdict _ fun hlimited =>
        h (.inr ⟨fun haddress => ?_, hemail ▸ hlimited⟩)
      rw [ipVerdict, if_pos haddress] at hip'
      cases hdecision : call.circumstances.perIp with
      | allowed => exact .inl rfl
      | limited => simp [hdecision, verdict] at hip'
      | unavailable =>
          cases hmode : options.rateLimitFailureMode with
          | failOpen => exact .inr ⟨rfl, hmode⟩
          | failClosed => simp [hdecision, verdict, hmode] at hip'

/-- Under the same decisions of the public buckets, a request has the same response
unless one run fails to record its refusal and the other does not. -/
theorem Call.response_eq_iff {options : Options} {call : Call} {c : Circumstances}
    (hip : c.perIp = call.circumstances.perIp) (hemail : c.perEmail = call.circumstances.perEmail) :
    call.response options = (call.under c).response options ↔
      (call.Refused options →
        call.circumstances.failures.limiterEvent = c.failures.limiterEvent) := by
  by_cases hrefused : call.Refused options
  · have hrefused' : (call.under c).Refused options := by
      simpa [Call.Refused, Call.under, hip, hemail] using hrefused
    rw [Call.response, Call.response, requestVerdict_of_refused hrefused,
      requestVerdict_of_refused hrefused']
    -- a refusal shows whether it was recorded
    have hshows : ∀ b b' : Bool, respond (.error (if b then .other else rateLimitedError)) =
        respond (.error (if b' then .other else rateLimitedError)) ↔ b = b' := by decide
    exact (hshows _ _).trans ⟨fun h _ => h, fun h => h hrefused⟩
  · rw [Call.response, requestVerdict_of_not_refused hip hemail hrefused]
    exact ⟨fun _ h => absurd h hrefused, fun _ => rfl⟩

/-- Two runs of one sequence of public requests, in any two worlds and under any
circumstances that share the decisions of the public buckets, have the same
responses exactly when every refusal is recorded in both runs or in neither. -/
theorem public_requests_disclose_nothing_iff (options : Options) (w w' : World)
    (calls : List (Call × Circumstances))
    (hsame : ∀ p ∈ calls, p.2.perIp = p.1.circumstances.perIp ∧
      p.2.perEmail = p.1.circumstances.perEmail) :
    responses options w (calls.map Prod.fst) =
        responses options w' (calls.map fun p => p.1.under p.2) ↔
      ∀ p ∈ calls, p.1.Refused options →
        p.1.circumstances.failures.limiterEvent = p.2.failures.limiterEvent := by
  rw [responses_eq_map, responses_eq_map, List.map_map, List.map_map, List.map_inj_left]
  refine forall₂_congr fun p hp => ?_
  exact Call.response_eq_iff (hsame p hp).1 (hsame p hp).2

section Samples

def sampleOptions : Options where
  rateLimitFailureMode := .failClosed
  invitations := true
  hashPassword password _ := password
  completionTtl := 86400000
  resetTtl := 3600000

def emptyWorld : World := ⟨[], [], [], [], [], [], [], [], []⟩

/-- A world with an account for `a@mail`. -/
def worldWithAccount : World :=
  { emptyWorld with
    users := [⟨1, "a@mail", "a@mail", "hash", .active, some 0, 0, none, [], 0, 0, none⟩] }

/-- Everything works, and the bucket per email decides as given. -/
def smooth (perEmail : RateLimitDecision) : Circumstances where
  perIp := .allowed
  perEmail := perEmail
  notice := .allowed
  failures := ⟨false, false, false, false, false, false⟩
  now := 0
  rowId := 7
  token := 70
  salt := 0

/-- The event store is down. -/
def eventless (perEmail : RateLimitDecision) : Circumstances :=
  { smooth perEmail with failures := ⟨true, false, false, false, false, true⟩ }

def resetCall (perEmail : RateLimitDecision) : Call :=
  ⟨.requestReset "a@mail", ⟨"request", some "192.0.2.1"⟩, smooth perEmail⟩

theorem accounts_are_not_disclosed :
    responses sampleOptions worldWithAccount [resetCall .allowed, resetCall .limited] =
      responses sampleOptions emptyWorld
        [(resetCall .allowed).under (eventless .allowed), resetCall .limited] := by
  refine (public_requests_disclose_nothing_iff sampleOptions worldWithAccount emptyWorld
    [(resetCall .allowed, eventless .allowed), (resetCall .limited, smooth .limited)]
    (by decide)).mpr ?_
  simp [resetCall, Call.Refused, smooth]

/-- A refused request shows that the event store is down. -/
theorem outage_of_the_event_store_is_disclosed :
    (eventless .limited).perIp = (resetCall .limited).circumstances.perIp ∧
      (eventless .limited).perEmail = (resetCall .limited).circumstances.perEmail ∧
      responses sampleOptions emptyWorld [resetCall .limited] ≠
        responses sampleOptions emptyWorld [(resetCall .limited).under (eventless .limited)] := by
  decide

end Samples

end Orgistry.Model.PublicRequests
