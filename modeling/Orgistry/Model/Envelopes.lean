import Orgistry.Text.JsonValue

/-!
# Responses of the API

`envelope.ts`, `error-codes.ts` and `error-handler.ts`, and what the client of the web
application makes of a response in `client.ts`.  Values of handlers are JSON, and `none` is
`undefined`.
-/

namespace Orgistry.Model.Envelopes

open Text Json

/-- `ERROR_CODES` -/
inductive ErrorCode
  | validationError
  | badRequest
  | unauthorized
  | forbidden
  | notFound
  | conflict
  | rateLimited
  | serviceUnavailable
  | internalError
  | invalidCredentials
  | emailAlreadyRegistered
  | invalidRefreshToken
  | tokenReuseDetected
  | csrfRequired
  | organizationNotFound
  | organizationSlugTaken
  | memberNotFound
  | lastOwnerRequired
  | projectNotFound
  | quotaExceeded
  | entitlementRequired
  | planStateMissing
  | apiKeyNotFound
  | apiKeyUnauthorized
  | apiKeyScopeRequired
  | invitationInvalid
  | invitationExpired
  | invitationRevoked
  | invitationAlreadyAccepted
  | invitationEmailMismatch
  | emailVerificationTokenInvalid
  | emailVerificationTokenExpired
  | emailVerificationTokenUsed
  | passwordResetTokenInvalid
  | passwordResetTokenExpired
  | passwordResetTokenUsed
  | registrationTokenInvalid
  | registrationTokenExpired
  | registrationTokenUsed
  deriving DecidableEq

def ErrorCode.text : ErrorCode → List Char
  | .validationError => "VALIDATION_ERROR".toList
  | .badRequest => "BAD_REQUEST".toList
  | .unauthorized => "UNAUTHORIZED".toList
  | .forbidden => "FORBIDDEN".toList
  | .notFound => "NOT_FOUND".toList
  | .conflict => "CONFLICT".toList
  | .rateLimited => "RATE_LIMITED".toList
  | .serviceUnavailable => "SERVICE_UNAVAILABLE".toList
  | .internalError => "INTERNAL_ERROR".toList
  | .invalidCredentials => "INVALID_CREDENTIALS".toList
  | .emailAlreadyRegistered => "EMAIL_ALREADY_REGISTERED".toList
  | .invalidRefreshToken => "INVALID_REFRESH_TOKEN".toList
  | .tokenReuseDetected => "TOKEN_REUSE_DETECTED".toList
  | .csrfRequired => "CSRF_REQUIRED".toList
  | .organizationNotFound => "ORGANIZATION_NOT_FOUND".toList
  | .organizationSlugTaken => "ORGANIZATION_SLUG_TAKEN".toList
  | .memberNotFound => "MEMBER_NOT_FOUND".toList
  | .lastOwnerRequired => "LAST_OWNER_REQUIRED".toList
  | .projectNotFound => "PROJECT_NOT_FOUND".toList
  | .quotaExceeded => "QUOTA_EXCEEDED".toList
  | .entitlementRequired => "ENTITLEMENT_REQUIRED".toList
  | .planStateMissing => "PLAN_STATE_MISSING".toList
  | .apiKeyNotFound => "API_KEY_NOT_FOUND".toList
  | .apiKeyUnauthorized => "API_KEY_UNAUTHORIZED".toList
  | .apiKeyScopeRequired => "API_KEY_SCOPE_REQUIRED".toList
  | .invitationInvalid => "INVITATION_INVALID".toList
  | .invitationExpired => "INVITATION_EXPIRED".toList
  | .invitationRevoked => "INVITATION_REVOKED".toList
  | .invitationAlreadyAccepted => "INVITATION_ALREADY_ACCEPTED".toList
  | .invitationEmailMismatch => "INVITATION_EMAIL_MISMATCH".toList
  | .emailVerificationTokenInvalid => "EMAIL_VERIFICATION_TOKEN_INVALID".toList
  | .emailVerificationTokenExpired => "EMAIL_VERIFICATION_TOKEN_EXPIRED".toList
  | .emailVerificationTokenUsed => "EMAIL_VERIFICATION_TOKEN_USED".toList
  | .passwordResetTokenInvalid => "PASSWORD_RESET_TOKEN_INVALID".toList
  | .passwordResetTokenExpired => "PASSWORD_RESET_TOKEN_EXPIRED".toList
  | .passwordResetTokenUsed => "PASSWORD_RESET_TOKEN_USED".toList
  | .registrationTokenInvalid => "REGISTRATION_TOKEN_INVALID".toList
  | .registrationTokenExpired => "REGISTRATION_TOKEN_EXPIRED".toList
  | .registrationTokenUsed => "REGISTRATION_TOKEN_USED".toList

structure AppError where
  code : ErrorCode
  statusCode : ℕ
  message : List Char
  details : Option Json

/-- What a handler throws; Fastify's own errors may carry `validation`. -/
inductive Thrown
  | app (error : AppError)
  | zod (issues : Json)
  | fastify (message : List Char) (validation : Option Json)
  | other (message : List Char)

/-- The error that `registerErrorHandler` answers with. -/
def errorHandler : Thrown → AppError
  | .app error => error
  | .zod issues =>
      { code := .validationError
        statusCode := 400
        message := "Request validation failed.".toList
        details := some issues }
  | .fastify _ (some validation) =>
      { code := .validationError
        statusCode := 400
        message := "Request validation failed.".toList
        details := some validation }
  | .fastify _ none | .other _ =>
      { code := .internalError
        statusCode := 500
        message := "An unexpected error occurred.".toList
        details := none }

def notFoundHandler (method url : List Char) : AppError :=
  { code := .notFound
    statusCode := 404
    message := "Route ".toList ++ method ++ " ".toList ++ url ++ " not found.".toList
    details := none }

/-- An object as `JSON.stringify` sees it: what is undefined is left out. -/
def objectOf (members : List (String × Option Json)) : Json :=
  .object (members.filterMap fun member => member.2.map fun value => (member.1.toList, value))

def makeSuccess (data : Option Json) : Json := objectOf [("ok", some (.bool true)), ("data", data)]

/-- The error inside its envelope. -/
def errorFields (error : AppError) (requestId : List Char) : Json :=
  objectOf [("code", some (.string error.code.text)), ("message", some (.string error.message)),
    ("requestId", some (.string requestId)), ("details", error.details)]

def makeError (error : AppError) (requestId : List Char) : Json :=
  objectOf [("ok", some (.bool false)), ("error", some (errorFields error requestId))]

/-- What came of a request on the server. -/
inductive Handled
  | success (data : Option Json) (statusCode : ℕ)
  | thrown (error : Thrown)
  | noRoute (method url : List Char)

/-- The data that are sent, or the error. -/
def Handled.outcome : Handled → Except AppError (Option Json)
  | .success data _ => .ok data
  | .thrown error => .error (errorHandler error)
  | .noRoute method url => .error (notFoundHandler method url)

/-- A response as the client sees it. -/
structure Response where
  status : ℕ
  /-- The header `x-request-id`, if the client can read it. -/
  requestId : Option (List Char)
  body : List Byte
  deriving DecidableEq

/-- Nothing is sent after the head of a response with one of these statuses. -/
def bodiless (status : ℕ) : Bool := status < 200 || status = 204 || status = 304

/-- CORS hides the header `x-request-id` from scripts of another origin. -/
def sendEnvelope (sameOrigin : Bool) (requestId : List Char) (status : ℕ) (envelope : Json) :
    Response :=
  { status
    requestId := if sameOrigin then some requestId else none
    body := if bodiless status then [] else encodeUtf8 (render envelope) }

def respond (sameOrigin : Bool) (requestId : List Char) (handled : Handled) : Response :=
  match handled with
  | .success data statusCode => sendEnvelope sameOrigin requestId statusCode (makeSuccess data)
  | .thrown error =>
      sendEnvelope sameOrigin requestId (errorHandler error).statusCode
        (makeError (errorHandler error) requestId)
  | .noRoute method url =>
      sendEnvelope sameOrigin requestId (notFoundHandler method url).statusCode
        (makeError (notFoundHandler method url) requestId)

structure ApiError where
  code : Option Json
  message : Option Json
  status : ℕ
  requestId : Option Json
  details : Option Json

/-- `ApiError.unexpected` -/
def ApiError.unexpected (message : List Char) (status : ℕ) (requestId : Option (List Char)) :
    ApiError :=
  { code := some (.string "UNEXPECTED_ERROR".toList)
    message := some (.string message)
    status
    requestId := some ((requestId.map Json.string).getD .null)
    details := none }

/-- `name in value`, for names that no prototype has. -/
def hasMember (name : String) (value : Json) : Bool := (member name value).isSome

def isEnvelope (value : Json) : Bool :=
  match member "ok" value with
  | some (.bool true) => hasMember "data" value
  | some (.bool false) => hasMember "error" value
  | _ => false

/-- `parseEnvelope` -/
def parseEnvelope (response : Response) : Except ApiError Json :=
  match parse (decodeUtf8 response.body) with
  | none => .error (.unexpected ("The API returned a non-JSON response (HTTP ".toList ++
      decimal response.status ++ ").".toList) response.status response.requestId)
  | some value =>
      if isEnvelope value then .ok value
      else .error (.unexpected ("The API returned an unrecognized response (HTTP ".toList ++
        decimal response.status ++ ").".toList) response.status response.requestId)

structure RequestOptions where
  authenticated : Bool
  cookieAuth : Bool
  retried : Bool

/-- How a request of the client goes on. -/
inductive Received
  | data (value : Option Json)
  | retry
  | rejected (error : ApiError) (sessionExpired : Bool)
  | typeError

/-- `request` after `fetch`; `refreshed` is the result of a silent refresh, if one is tried. -/
def receive (options : RequestOptions) (refreshed : Bool) (response : Response) : Received :=
  match parseEnvelope response with
  | .error error => .rejected error false
  | .ok envelope =>
      if strictEquals (member "ok" envelope) (some (.bool true)) then
        .data (member "data" envelope)
      else
        let unauthorized := response.status = 401 && options.authenticated && !options.cookieAuth
        if unauthorized && !options.retried && refreshed then .retry
        else
          match member "error" envelope with
          | none | some .null => .typeError
          | some error =>
              .rejected
                { code := member "code" error
                  message := member "message" error
                  status := response.status
                  requestId := member "requestId" error
                  details := member "details" error }
                unauthorized

end Orgistry.Model.Envelopes
