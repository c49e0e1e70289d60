import Orgistry.Model.Auth

/-!
# Mailed account credentials

`email-verification.*`, `password-recovery.*` and the email change of
`auth.service.ts`.  Mail delivery is not modelled: a token records which
address the request had read when it mailed it.
-/

namespace Orgistry.Model

open ReadCommitted

structure IssueTokenParams where
  userId : Id
  tokenHash : TokenHash
  expiresAt : ℕ
  now : ℕ
  mailedTo : String
  mailedAfter : ℕ

/-- The inserted row of either token table. -/
def IssueTokenParams.row (params : IssueTokenParams) (id : Id) : AccountToken :=
  { id, userId := params.userId, tokenHash := params.tokenHash,
    expiresAt := params.expiresAt, usedAt := none, invalidatedAt := none,
    mailedTo := params.mailedTo, mailedAfter := params.mailedAfter }

namespace AccountToken

/-- Neither consumed nor retired. -/
def unsettled (token : AccountToken) : Bool := token.usedAt.isNone && token.invalidatedAt.isNone

def invalidate (now : ℕ) (token : AccountToken) : AccountToken :=
  { token with invalidatedAt := some now }

def consume (now : ℕ) (token : AccountToken) : AccountToken :=
  { token with usedAt := some now }

@[simp]
theorem unsettled_invalidate (now : ℕ) (token : AccountToken) :
    (token.invalidate now).unsettled = false := by
  simp [unsettled, invalidate]

@[simp]
theorem unsettled_consume (now : ℕ) (token : AccountToken) :
    (token.consume now).unsettled = false := by
  simp [unsettled, consume]

end AccountToken

/-! ## `createDbEmailVerificationRepository` -/

inductive CompleteVerificationResult
  | verified (user : User) (alreadyVerified : Bool)
  | notFound
  | alreadyUsed
  | expired
  | userNotVerifiable

namespace EmailVerificationRepository

def issueVerificationToken (params : IssueTokenParams) : Program Unit := transaction do
  let _ ← updateRows .emailVerificationTokens
    (fun (token : AccountToken) => token.userId = params.userId && token.unsettled)
    (assign (AccountToken.invalidate params.now))
  let _ ← insertRow .emailVerificationTokens params.row

/-- `verifiedFor` only goes into the history. -/
def completeVerification (tokenHash : TokenHash) (now : ℕ) :
    Program CompleteVerificationResult := transaction do
  match ← selectOneForUpdate .emailVerificationTokens fun (token : AccountToken) =>
      token.tokenHash = tokenHash with
  | none => return .notFound
  | some (token : AccountToken) =>
      if token.usedAt.isSome || token.invalidatedAt.isSome then return .alreadyUsed
      else if token.expiresAt ≤ now then return .expired
      else match ← selectOneForUpdate .users fun (user : User) => user.id = token.userId with
      | none => return .userNotVerifiable
      | some (user : User) =>
          if AuthService.available user then
            let _ ← updateRows .emailVerificationTokens
              (fun (other : AccountToken) => other.id = token.id)
              (assign (AccountToken.consume now))
            let _ ← updateRows .emailVerificationTokens
              (fun (other : AccountToken) => other.userId = token.userId &&
                other.id ≠ token.id && other.unsettled)
              (assign (AccountToken.invalidate now))
            if user.emailVerifiedAt.isSome then return .verified user true
            else
              let _ ← updateRows .users
                (fun (other : User) => other.id = user.id && other.emailVerifiedAt.isNone)
                (assign fun (other : User) =>
                  { other with
                    emailVerifiedAt := some now
                    updatedAt := now
                    verifiedFor := some token.mailedTo })
              return .verified user false
          else return .userNotVerifiable

end EmailVerificationRepository

/-! ## `createEmailVerificationService` -/

namespace EmailVerificationService

open EmailVerificationRepository

/-- Mails the token to the address of `user` and then stores its hash. -/
def issueAndSendVerificationEmail (cfg : Config) (user : User) (tokenHash : TokenHash) :
    Program Unit := do
  let issuedAt ← clock
  let now ← clock
  issueVerificationToken
    { userId := user.id, tokenHash, expiresAt := issuedAt + cfg.emailVerificationTtl, now,
      mailedTo := user.normalizedEmail, mailedAfter := user.emailChanges }

structure VerificationRequestResult where
  sent : Bool
  alreadyVerified : Bool

/-- The route authenticates; the service re-reads the authoritative row. -/
def requestVerificationEmail (cfg : Config) (accessToken : Option AccessClaims)
    (tokenHash : TokenHash) : Program VerificationRequestResult := do
  let user ← AuthService.authenticate accessToken
  match ← AuthRepository.findUserById user.id with
  | none => return ⟨false, false⟩
  | some row =>
      if AuthService.available row then
        if row.emailVerifiedAt.isSome then return ⟨false, true⟩
        else
          issueAndSendVerificationEmail cfg row tokenHash
          return ⟨true, false⟩
      else return ⟨false, false⟩

def completeVerification (tokenHash : TokenHash) : Program CompleteVerificationResult := do
  let now ← clock
  EmailVerificationRepository.completeVerification tokenHash now

end EmailVerificationService

namespace AuthService

structure ChangeEmailInput where
  newEmail : String
  currentPassword : String
  verificationTokenHash : TokenHash
  deriving DecidableEq

/-- The change commits before its verification mail goes out. -/
def changeEmail (cfg : Config) (accessToken : Option AccessClaims)
    (input : ChangeEmailInput) : Program User := do
  let (user, _) ← requireAuthenticatedSession accessToken
  let normalizedEmail := normalizeEmail input.newEmail
  if normalizedEmail = user.normalizedEmail then abortWith .emailUnchanged
  else if cfg.verifyPassword user.passwordHash input.currentPassword then
    let now ← clock
    let updated ← AuthRepository.changeEmail
      { userId := user.id, email := trim input.newEmail, normalizedEmail, now }
    EmailVerificationService.issueAndSendVerificationEmail cfg updated
      input.verificationTokenHash
    return updated
  else abortWith .currentPasswordIncorrect

end AuthService

/-! ## `createDbPasswordRecoveryRepository` -/

inductive CompleteResetResult
  | reset (user : User)
  | notFound
  | alreadyUsed
  | expired
  | userNotRecoverable

namespace PasswordRecoveryRepository

/-- The user row is locked first, so that issuance is serial for each user. -/
def issueResetToken (params : IssueTokenParams) : Program Unit := transaction do
  let _ ← selectOneForUpdate .users fun (user : User) => user.id = params.userId
  let _ ← updateRows .passwordResetTokens
    (fun (token : AccountToken) => token.userId = params.userId && token.unsettled)
    (assign (AccountToken.invalidate params.now))
  let _ ← insertRow .passwordResetTokens params.row

/-- The subselect of the last `UPDATE` is a statement of its own here. -/
def completeReset (tokenHash : TokenHash) (newPasswordHash : String) (now : ℕ) :
    Program CompleteResetResult := transaction do
  match ← selectOneForUpdate .passwordResetTokens fun (token : AccountToken) =>
      token.tokenHash = tokenHash with
  | none => return .notFound
  | some (token : AccountToken) =>
      if token.usedAt.isSome || token.invalidatedAt.isSome then return .alreadyUsed
      else if token.expiresAt ≤ now then return .expired
      else match ← selectOneForUpdate .users fun (user : User) => user.id = token.userId with
      | none => return .userNotRecoverable
      | some (user : User) =>
          if AuthService.available user then
            let _ ← updateRows .users (fun (other : User) => other.id = user.id)
              (AuthRepository.replacePassword newPasswordHash now .reset)
            let _ ← updateRows .passwordResetTokens
              (fun (other : AccountToken) => other.id = token.id)
              (assign (AccountToken.consume now))
            let _ ← updateRows .passwordResetTokens
              (fun (other : AccountToken) => other.userId = token.userId &&
                other.id ≠ token.id && other.unsettled)
              (assign (AccountToken.invalidate now))
            let _ ← updateRows .sessions
              (fun (session : Session) => session.userId = user.id &&
                session.revokedAt.isNone)
              (AuthRepository.endSession now .passwordReset)
            let sessions ← selectRows .sessions fun (session : Session) =>
              session.userId = user.id
            let _ ← updateRows .refreshTokens
              (fun (other : RefreshToken) =>
                sessions.any (fun (session : Session) => session.id = other.sessionId) &&
                  other.revokedAt.isNone)
              (AuthRepository.revokeToken now .passwordReset)
            return .reset user
          else return .userNotRecoverable

end PasswordRecoveryRepository

/-! ## `createPasswordRecoveryService` -/

namespace PasswordRecoveryService

open PasswordRecoveryRepository

/-- The answer is the same whether or not a token was issued. -/
def requestReset (cfg : Config) (email : String) (tokenHash : TokenHash) : Program Unit := do
  match ← AuthRepository.findUserByNormalizedEmail (normalizeEmail email) with
  | none => return
  | some user =>
      if AuthService.available user then
        let issuedAt ← clock
        let now ← clock
        issueResetToken
          { userId := user.id, tokenHash, expiresAt := issuedAt + cfg.passwordResetTtl, now,
            mailedTo := user.normalizedEmail, mailedAfter := user.emailChanges }
      else return

def completeReset (cfg : Config) (tokenHash : TokenHash) (newPassword : String) (salt : ℕ) :
    Program CompleteResetResult := do
  let now ← clock
  PasswordRecoveryRepository.completeReset tokenHash (cfg.hashPassword newPassword salt) now

end PasswordRecoveryService

end Orgistry.Model
