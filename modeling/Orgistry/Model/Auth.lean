import Orgistry.Model.Schema
import Mathlib.Data.List.DropRight

/-!
# Accounts, sessions and refresh tokens

`auth.repo.ts` and `auth.service.ts`.  Rate limits and security events only
decide whether a request goes on; a request may stop after any statement, so
they leave no trace here.
-/

namespace Orgistry.Model

open ReadCommitted

/-- What the requests get from outside the database: the password hasher, the
advisory lock hash of PostgreSQL, and the configured lifetimes. -/
structure Config where
  hashPassword : String → ℕ → String
  verifyPassword : String → String → Bool
  hashtextextended : String → Id
  sessionTtl : ℕ
  refreshTokenTtl : ℕ
  emailVerificationTtl : ℕ
  passwordResetTtl : ℕ
  registrationCompletionTtl : ℕ
  invitationTtl : ℕ

/-- `String.prototype.trim`, on the ASCII addresses that the contracts accept. -/
def trim (text : String) : String :=
  String.ofList
    ((text.toList.dropWhile Char.isWhitespace).reverse.dropWhile Char.isWhitespace).reverse

theorem trim_trim (text : String) : trim (trim text) = trim text := by
  have hback : ∀ l : List Char, (l.reverse.dropWhile Char.isWhitespace).reverse =
      l.rdropWhile Char.isWhitespace := fun _ => rfl
  simp only [trim, hback, String.toList_ofList]
  generalize text.toList = l
  -- what is left begins as the text does whose front was trimmed
  have hfront : ((l.dropWhile Char.isWhitespace).rdropWhile Char.isWhitespace).dropWhile
      Char.isWhitespace = (l.dropWhile Char.isWhitespace).rdropWhile Char.isWhitespace := by
    have hprefix := List.rdropWhile_prefix Char.isWhitespace (l.dropWhile Char.isWhitespace)
    have hidem := List.dropWhile_idempotent (p := Char.isWhitespace) l
    rw [List.dropWhile_eq_self_iff] at hidem ⊢
    intro hpos
    rw [List.IsPrefix.getElem hprefix]
    exact hidem (Nat.lt_of_lt_of_le hpos hprefix.length_le)
  rw [hfront, List.rdropWhile_idempotent]

def normalizeEmail (email : String) : String :=
  String.ofList ((trim email).toList.map Char.toLower)

theorem normalizeEmail_trim (email : String) :
    normalizeEmail (trim email) = normalizeEmail email := by
  rw [normalizeEmail, trim_trim, normalizeEmail]

/-- The claims of an access token that verified against a signing key. -/
structure AccessClaims where
  sub : Id
  sessionId : Id
  deriving DecidableEq

/-- The random values of a freshly issued refresh token. -/
structure IssuedToken where
  familyId : Id
  tokenHash : TokenHash
  deriving DecidableEq

structure RotateRefreshTokenParams where
  presentedTokenHash : TokenHash
  successorTokenHash : TokenHash
  successorExpiresAt : ℕ
  now : ℕ

inductive RotateRefreshTokenResult
  | rotated (successor : RefreshToken) (session : Session)
  | reuse (familyId sessionId : Id) (userId : Option Id)
  | expired
  | notFound

/-- `verifiedHash` and `verifiedAfter` only go into the history. -/
structure ChangePasswordParams where
  userId : Id
  newPasswordHash : String
  currentSessionId : Id
  now : ℕ
  seen : SeenSession
  verifiedHash : String
  verifiedAfter : ℕ

structure ChangeEmailParams where
  userId : Id
  email : String
  normalizedEmail : String
  now : ℕ

/-! ## `createDbAuthRepository` -/

namespace AuthRepository

def findUserByNormalizedEmail (normalizedEmail : String) : Program (Option User) :=
  selectOne .users fun (user : User) => user.normalizedEmail = normalizedEmail

def findUserById (id : Id) : Program (Option User) :=
  selectOne .users fun (user : User) => user.id = id

def insertSession (userId : Id) (expiresAt : ℕ) (verifiedAfter : ℕ) : Program Session :=
  transaction <| insertRow .sessions fun id =>
    { id, userId, expiresAt, revokedAt := none, revokedReason := none, updatedAt := 0,
      verifiedAfter }

def findSessionById (id : Id) : Program (Option Session) :=
  selectOne .sessions fun (session : Session) => session.id = id

def insertRefreshToken (request : ℕ) (sessionId : Id) (issued : IssuedToken)
    (expiresAt : ℕ) : Program RefreshToken :=
  transaction <| insertRow .refreshTokens fun id =>
    { id, sessionId, tokenHash := issued.tokenHash, familyId := issued.familyId,
      parentTokenId := none, replacementTokenId := none, usedAt := none, expiresAt,
      revokedAt := none, revokedReason := none, mintedBy := request }

def findRefreshTokenByHash (tokenHash : TokenHash) : Program (Option RefreshToken) :=
  selectOne .refreshTokens fun (token : RefreshToken) => token.tokenHash = tokenHash

/-- The token that replaces `token`. -/
def successorOf (request : ℕ) (params : RotateRefreshTokenParams) (token : RefreshToken)
    (id : Id) : RefreshToken :=
  { id, sessionId := token.sessionId, tokenHash := params.successorTokenHash,
    familyId := token.familyId, parentTokenId := some token.id, replacementTokenId := none,
    usedAt := none, expiresAt := params.successorExpiresAt, revokedAt := none,
    revokedReason := none, mintedBy := request }

/-- Mark a refresh token used, linking it to its successor. -/
def spendToken (now : ℕ) (successorId : Id) : Assignment orgistry .refreshTokens :=
  assign fun (token : RefreshToken) =>
    { token with usedAt := some now, replacementTokenId := some successorId }

/-- The presented token row is locked for the whole transaction; the session is
read without a lock. -/
def rotateRefreshToken (request : ℕ) (params : RotateRefreshTokenParams) :
    Program RotateRefreshTokenResult := transaction do
  match ← selectOneForUpdate .refreshTokens fun (token : RefreshToken) =>
      token.tokenHash = params.presentedTokenHash with
  | none => return .notFound
  | some (token : RefreshToken) =>
      let session ← selectOne .sessions fun (session : Session) =>
        session.id = token.sessionId
      if token.usedAt.isSome || token.revokedAt.isSome || token.replacementTokenId.isSome then
        return .reuse token.familyId token.sessionId (session.map Session.userId)
      else match session with
      | none => return .reuse token.familyId token.sessionId none
      | some (session : Session) =>
          if session.revokedAt.isSome || session.expiresAt ≤ params.now then
            return .reuse token.familyId token.sessionId (some session.userId)
          else if token.expiresAt ≤ params.now then
            return .expired
          else
            let successor ← insertRow .refreshTokens (successorOf request params token)
            let _ ← updateRows .refreshTokens
              (fun (other : RefreshToken) => other.id = token.id)
              (spendToken params.now (RefreshToken.id successor))
            let _ ← updateRows .sessions (fun (other : Session) => other.id = session.id)
              (assign fun (other : Session) => { other with updatedAt := params.now })
            return .rotated successor session

/-- Set `revokedAt` on refresh tokens. -/
def revokeToken (now : ℕ) (reason : RevokeReason) : Assignment orgistry .refreshTokens :=
  assign fun (token : RefreshToken) =>
    { token with revokedAt := some now, revokedReason := some reason }

/-- Set `revokedAt` on sessions. -/
def endSession (now : ℕ) (reason : RevokeReason) : Assignment orgistry .sessions :=
  assign fun (session : Session) =>
    { session with revokedAt := some now, revokedReason := some reason, updatedAt := now }

def revokeRefreshTokenFamily (familyId : Id) (reason : RevokeReason) : Program Unit := do
  let now ← clock
  let _ ← transaction <| updateRows .refreshTokens
    (fun (token : RefreshToken) => token.familyId = familyId && token.revokedAt.isNone)
    (revokeToken now reason)

def revokeRefreshTokensForSession (sessionId : Id) (reason : RevokeReason) :
    Program Unit := do
  let now ← clock
  let _ ← transaction <| updateRows .refreshTokens
    (fun (token : RefreshToken) => token.sessionId = sessionId && token.revokedAt.isNone)
    (revokeToken now reason)

def revokeSession (sessionId : Id) (reason : RevokeReason) : Program Unit := do
  let now ← clock
  let _ ← transaction <| updateRows .sessions
    (fun (session : Session) => session.id = sessionId && session.revokedAt.isNone)
    (endSession now reason)

/-- Set the password hash; the log only goes into the history. -/
def replacePassword (hash : String) (now : ℕ) (replacement : PasswordReplacement) :
    Assignment orgistry .users :=
  assign fun (user : User) =>
    { user with
      passwordHash := hash
      updatedAt := now
      passwordLog := user.passwordLog ++ [replacement] }

/-- The subselect of the last `UPDATE` is a statement of its own here. -/
def changePasswordKeepingCurrentSession (params : ChangePasswordParams) : Program Unit :=
  transaction do
    let _ ← updateRows .users (fun (user : User) => user.id = params.userId)
      (replacePassword params.newPasswordHash params.now
        (.changed params.currentSessionId params.seen params.verifiedHash params.verifiedAfter))
    let _ ← updateRows .sessions
      (fun (session : Session) => session.userId = params.userId &&
        session.id ≠ params.currentSessionId && session.revokedAt.isNone)
      (endSession params.now .passwordChanged)
    let others ← selectRows .sessions fun (session : Session) =>
      session.userId = params.userId && session.id ≠ params.currentSessionId
    let _ ← updateRows .refreshTokens
      (fun (token : RefreshToken) =>
        others.any (fun (session : Session) => session.id = token.sessionId) &&
          token.revokedAt.isNone)
      (revokeToken params.now .passwordChanged)

/-- Set the address and clear its verification; the last three fields only go
into the history. -/
def replaceEmail (params : ChangeEmailParams) : Assignment orgistry .users :=
  assign fun (user : User) =>
    { user with
      email := params.email
      normalizedEmail := params.normalizedEmail
      emailVerifiedAt := none
      updatedAt := params.now
      emailChanges :=
        if params.normalizedEmail = user.normalizedEmail then user.emailChanges
        else user.emailChanges + 1
      emailWrites := user.emailWrites + 1
      verifiedFor := none }

def changeEmail (params : ChangeEmailParams) : Program User := transaction do
  let updated ← updateOr (S := orgistry) .users .emailAlreadyRegistered
    (fun (user : User) => user.id = params.userId) (replaceEmail params)
  let _ ← updateRows .emailVerificationTokens
    (fun (token : AccountToken) => token.userId = params.userId && token.usedAt.isNone &&
      token.invalidatedAt.isNone)
    (assign fun (token : AccountToken) => { token with invalidatedAt := some params.now })
  match updated.head? with
  | none => abortWith .internalError
  | some user => return user

end AuthRepository

/-! ## `createAuthService` -/

namespace AuthService

open AuthRepository

/-- Only an active, undeleted account is recoverable, verifiable or usable. -/
def available (user : User) : Bool := user.status = .active && user.deletedAt.isNone

/-- The time of the check only goes into the history. -/
def requireAuthenticatedSession (accessToken : Option AccessClaims) :
    Program (User × Session × ℕ) := do
  match accessToken with
  | none => abortWith .unauthorized
  | some claims =>
      match ← findUserById claims.sub with
      | none => abortWith .unauthorized
      | some user =>
          if available user then
            let session ← findSessionById claims.sessionId
            let now ← clock
            match session with
            | none => abortWith .unauthorized
            | some session =>
                if session.userId ≠ user.id || session.revokedAt.isSome ||
                    session.expiresAt ≤ now then
                  abortWith .unauthorized
                else return (user, session, now)
          else abortWith .unauthorized

structure LoginInput where
  email : String
  password : String
  issued : IssuedToken
  deriving DecidableEq

/-- The answer carries the stored rows in place of the raw tokens. -/
def issueSession (cfg : Config) (request : ℕ) (user : User) (issued : IssuedToken) :
    Program (Session × RefreshToken) := do
  let now ← clock
  let session ← insertSession user.id (now + cfg.sessionTtl) user.passwordLog.length
  let token ← insertRefreshToken request session.id issued (now + cfg.refreshTokenTtl)
  return (session, token)

def login (cfg : Config) (request : ℕ) (input : LoginInput) :
    Program (Session × RefreshToken) := do
  match ← findUserByNormalizedEmail (normalizeEmail input.email) with
  | none => abortWith .invalidCredentials
  | some user =>
      if available user && cfg.verifyPassword user.passwordHash input.password then
        issueSession cfg request user input.issued
      else abortWith .invalidCredentials

def authenticate (accessToken : Option AccessClaims) : Program User := do
  let (user, _) ← requireAuthenticatedSession accessToken
  return user

inductive RefreshOutcome
  | rotated (successor : RefreshToken) (session : Session)
  | reuseDetected (familyId sessionId : Id)
  | invalid

/-- The pre-read only names a rate-limit bucket.  Reuse revokes the family and
then the session, in two transactions of their own. -/
def refresh (cfg : Config) (request : ℕ) (presentedTokenHash successorTokenHash : TokenHash) :
    Program RefreshOutcome := do
  let _ ← findRefreshTokenByHash presentedTokenHash
  let now ← clock
  match ← rotateRefreshToken request
      { presentedTokenHash, successorTokenHash,
        successorExpiresAt := now + cfg.refreshTokenTtl, now } with
  | .rotated successor session => return .rotated successor session
  | .reuse familyId sessionId _ =>
      revokeRefreshTokenFamily familyId .reuseDetected
      AuthRepository.revokeSession sessionId .reuseDetected
      return .reuseDetected familyId sessionId
  | .expired => return .invalid
  | .notFound => return .invalid

def logout (rawRefreshToken : Option TokenHash) : Program Unit := do
  match rawRefreshToken with
  | none => return
  | some tokenHash =>
      match ← findRefreshTokenByHash tokenHash with
      | none => return
      | some token =>
          let _ ← findSessionById token.sessionId
          AuthRepository.revokeSession token.sessionId .logout
          revokeRefreshTokensForSession token.sessionId .logout

/-- The answer says whether the caller's own session was the target. -/
def revokeSession (accessToken : Option AccessClaims) (targetSessionId : Id) :
    Program Bool := do
  let (user, currentSession, _) ← requireAuthenticatedSession accessToken
  match ← findSessionById targetSessionId with
  | none => abortWith .sessionNotFound
  | some target =>
      if target.userId ≠ user.id then abortWith .sessionNotFound
      else if target.revokedAt.isNone then
        AuthRepository.revokeSession target.id .sessionRevoked
        revokeRefreshTokensForSession target.id .sessionRevoked
        return target.id = currentSession.id
      else return target.id = currentSession.id

structure ChangePasswordInput where
  currentPassword : String
  newPassword : String
  salt : ℕ
  deriving DecidableEq

def changePassword (cfg : Config) (accessToken : Option AccessClaims)
    (input : ChangePasswordInput) : Program Unit := do
  let (user, session, checkedAt) ← requireAuthenticatedSession accessToken
  if cfg.verifyPassword user.passwordHash input.currentPassword then
    if cfg.verifyPassword user.passwordHash input.newPassword then
      abortWith .passwordUnchanged
    else
      let now ← clock
      changePasswordKeepingCurrentSession
        { userId := user.id
          newPasswordHash := cfg.hashPassword input.newPassword input.salt
          currentSessionId := session.id
          now
          seen := { revokedAt := session.revokedAt, checkedAt }
          verifiedHash := user.passwordHash
          verifiedAfter := user.passwordLog.length }
  else abortWith .currentPasswordIncorrect

end AuthService

end Orgistry.Model
