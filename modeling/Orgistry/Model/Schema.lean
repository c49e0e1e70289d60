import Mathlib.Data.Int.Notation
import Orgistry.ReadCommitted.Program

/-!
# The database schema

The tables of `@orgistry/db` that account, session, membership and invitation
requests read or write, with the columns that those requests use.  Times are
epoch milliseconds.  Rows carry a few history variables, which no program
branches on; they are the last fields of their records.
-/

namespace Orgistry.Model

open ReadCommitted

abbrev Id := ℕ

/-- SHA-256 digests of opaque tokens.  Raw tokens are never stored. -/
abbrev TokenHash := ℕ

inductive UserStatus
  | active
  | disabled
  deriving DecidableEq

inductive RoleKey
  | owner
  | admin
  | member
  | viewer
  deriving DecidableEq

inductive OrganizationType
  | personal
  | team
  deriving DecidableEq

inductive OrganizationStatus
  | active
  | archived
  | suspended
  deriving DecidableEq

inductive MembershipStatus
  | active
  | removed
  deriving DecidableEq

inductive InvitationStatus
  | pending
  | accepted
  | revoked
  | expired
  deriving DecidableEq

inductive PlanKey
  | free
  | pro
  | business
  deriving DecidableEq

inductive RevokeReason
  | logout
  | sessionRevoked
  | reuseDetected
  | passwordChanged
  | passwordReset
  deriving DecidableEq

/-- What authentication has found of the calling session, and when it compared the
expiry with the clock. -/
structure SeenSession where
  revokedAt : Option ℕ
  checkedAt : ℕ
  deriving DecidableEq

/-- What replaced a password: a change by a session that had been seen by
authentication and had verified a hash behind which lay `verifiedAfter` earlier
replacements, or a reset by token. -/
inductive PasswordReplacement
  | changed (keptSessionId : Id) (seen : SeenSession) (verifiedHash : String)
      (verifiedAfter : ℕ)
  | reset
  deriving DecidableEq

/-- `passwordLog`, `emailChanges`, `emailWrites` and `verifiedFor` are history
variables: the replacements of the password, the latest last; how often the
normalized address has changed, and how often the address columns have been
written; and the address that the credential which set `emailVerifiedAt` was
mailed to. -/
structure User where
  id : Id
  email : String
  normalizedEmail : String
  passwordHash : String
  status : UserStatus
  emailVerifiedAt : Option ℕ
  updatedAt : ℕ
  deletedAt : Option ℕ
  passwordLog : List PasswordReplacement
  emailChanges : ℕ
  emailWrites : ℕ
  verifiedFor : Option String
  deriving DecidableEq

/-- `verifiedAfter` is a history variable: how many password replacements the
hash was behind it that the login of this session verified. -/
structure Session where
  id : Id
  userId : Id
  expiresAt : ℕ
  revokedAt : Option ℕ
  revokedReason : Option RevokeReason
  updatedAt : ℕ
  verifiedAfter : ℕ
  deriving DecidableEq

/-- `mintedBy` is a history variable: the request that inserted the token. -/
structure RefreshToken where
  id : Id
  sessionId : Id
  tokenHash : TokenHash
  familyId : Id
  parentTokenId : Option Id
  replacementTokenId : Option Id
  usedAt : Option ℕ
  expiresAt : ℕ
  revokedAt : Option ℕ
  revokedReason : Option RevokeReason
  mintedBy : ℕ
  deriving DecidableEq

/-- The rows of `email_verification_tokens` and of `password_reset_tokens`,
which have the same columns.  `mailedTo` and `mailedAfter` are history
variables: the normalized address that the request read and mailed the token
to, and how many address changes lay behind that address. -/
structure AccountToken where
  id : Id
  userId : Id
  tokenHash : TokenHash
  expiresAt : ℕ
  usedAt : Option ℕ
  invalidatedAt : Option ℕ
  mailedTo : String
  mailedAfter : ℕ
  deriving DecidableEq

structure PendingRegistration where
  id : Id
  email : String
  normalizedEmail : String
  passwordHash : String
  tokenHash : TokenHash
  invitationId : Option Id
  expiresAt : ℕ
  usedAt : Option ℕ
  invalidatedAt : Option ℕ
  deriving DecidableEq

structure Organization where
  id : Id
  type : OrganizationType
  status : OrganizationStatus
  createdByUserId : Id
  deriving DecidableEq

/-- On what ground a membership last received its role. -/
inductive Grant
  | founder
  | invitation (invitationId : Id)
  | roleChange (actorMembershipId : Id)
  deriving DecidableEq

/-- `grantedBy` is a history variable. -/
structure Membership where
  id : Id
  userId : Id
  organizationId : Id
  role : RoleKey
  status : MembershipStatus
  invitedByUserId : Option Id
  joinedAt : ℕ
  removedAt : Option ℕ
  updatedAt : ℕ
  grantedBy : Grant
  deriving DecidableEq

structure Invitation where
  id : Id
  organizationId : Id
  invitedEmailNormalized : String
  role : RoleKey
  tokenHash : TokenHash
  status : InvitationStatus
  invitedByUserId : Id
  acceptedByUserId : Option Id
  expiresAt : ℕ
  acceptedAt : Option ℕ
  revokedAt : Option ℕ
  updatedAt : ℕ
  deriving DecidableEq

structure OrganizationPlan where
  id : Id
  organizationId : Id
  planKey : PlanKey
  deriving DecidableEq

/-- `createdAt` is in microseconds. -/
structure ProjectRow where
  id : Id
  organizationId : Id
  createdByUserId : Id
  deletedAt : Option ℕ
  createdAt : ℤ
  deriving DecidableEq

structure ApiKeyRow where
  id : Id
  organizationId : Id
  secretHash : TokenHash
  expiresAt : Option ℕ
  revokedAt : Option ℕ
  createdByUserId : Id
  deriving DecidableEq

/-- `advisoryLocks` stands for the key space of `pg_advisory_xact_lock`; it
never has rows. -/
inductive Table
  | users
  | sessions
  | refreshTokens
  | emailVerificationTokens
  | passwordResetTokens
  | pendingRegistrations
  | organizations
  | memberships
  | invitations
  | organizationPlans
  | projects
  | apiKeys
  | advisoryLocks
  deriving DecidableEq

abbrev Row : Table → Type
  | .users => User
  | .sessions => Session
  | .refreshTokens => RefreshToken
  | .emailVerificationTokens => AccountToken
  | .passwordResetTokens => AccountToken
  | .pendingRegistrations => PendingRegistration
  | .organizations => Organization
  | .memberships => Membership
  | .invitations => Invitation
  | .organizationPlans => OrganizationPlan
  | .projects => ProjectRow
  | .apiKeys => ApiKeyRow
  | .advisoryLocks => Empty

def rowId : {t : Table} → Row t → Id
  | .users, row => row.id
  | .sessions, row => row.id
  | .refreshTokens, row => row.id
  | .emailVerificationTokens, row => row.id
  | .passwordResetTokens, row => row.id
  | .pendingRegistrations, row => row.id
  | .organizations, row => row.id
  | .memberships, row => row.id
  | .invitations, row => row.id
  | .organizationPlans, row => row.id
  | .projects, row => row.id
  | .apiKeys, row => row.id
  | .advisoryLocks, row => row.elim

/-- The columns of the non-partial unique indexes. -/
inductive KeyColumns
  | normalizedEmail (email : String)
  | tokenHash (hash : TokenHash)
  | organizationId (id : Id)
  | primary
  deriving DecidableEq

def rowKey : {t : Table} → Row t → KeyColumns
  | .users, row => .normalizedEmail row.normalizedEmail
  | .sessions, _ => .primary
  | .refreshTokens, row => .tokenHash row.tokenHash
  | .emailVerificationTokens, row => .tokenHash row.tokenHash
  | .passwordResetTokens, row => .tokenHash row.tokenHash
  | .pendingRegistrations, row => .tokenHash row.tokenHash
  | .organizations, _ => .primary
  | .memberships, _ => .primary
  | .invitations, row => .tokenHash row.tokenHash
  | .organizationPlans, row => .organizationId row.organizationId
  | .projects, _ => .primary
  | .apiKeys, row => .tokenHash row.secretHash
  | .advisoryLocks, _ => .primary

/-- Two rows that some unique index keeps from standing together.  Family ids
have no index; the generator that draws them never repeats one, which amounts
to one root token for every family. -/
def rowConflict : {t : Table} → Row t → Row t → Bool
  | .users, a, b => a.normalizedEmail == b.normalizedEmail
  | .sessions, _, _ => false
  | .refreshTokens, a, b => a.tokenHash == b.tokenHash ||
      (a.parentTokenId.isNone && b.parentTokenId.isNone && a.familyId == b.familyId)
  | .emailVerificationTokens, a, b => a.tokenHash == b.tokenHash
  | .passwordResetTokens, a, b => a.tokenHash == b.tokenHash
  | .pendingRegistrations, a, b => a.tokenHash == b.tokenHash ||
      (a.usedAt.isNone && a.invalidatedAt.isNone && b.usedAt.isNone &&
        b.invalidatedAt.isNone && a.normalizedEmail == b.normalizedEmail)
  | .organizations, a, b => a.type == .personal && a.status == .active &&
      b.type == .personal && b.status == .active && a.createdByUserId == b.createdByUserId
  | .memberships, a, b => a.status == .active && b.status == .active &&
      a.userId == b.userId && a.organizationId == b.organizationId
  | .invitations, a, b => a.tokenHash == b.tokenHash ||
      (a.status == .pending && b.status == .pending &&
        a.organizationId == b.organizationId &&
        a.invitedEmailNormalized == b.invitedEmailNormalized)
  | .organizationPlans, a, b => a.organizationId == b.organizationId
  | .projects, _, _ => false
  | .apiKeys, a, b => a.secretHash == b.secretHash
  | .advisoryLocks, _, _ => false

/-- Foreign keys that are set when a row is inserted. -/
def rowRefs : {t : Table} → Row t → List (Table × Id)
  | .users, _ => []
  | .sessions, row => [(.users, row.userId)]
  | .refreshTokens, row => [(.sessions, row.sessionId)]
  | .emailVerificationTokens, row => [(.users, row.userId)]
  | .passwordResetTokens, row => [(.users, row.userId)]
  | .pendingRegistrations, _ => []
  | .organizations, row => [(.users, row.createdByUserId)]
  | .memberships, row => [(.users, row.userId), (.organizations, row.organizationId)] ++
      row.invitedByUserId.toList.map fun user => (.users, user)
  | .invitations, row => [(.organizations, row.organizationId), (.users, row.invitedByUserId)]
  | .organizationPlans, row => [(.organizations, row.organizationId)]
  | .projects, row => [(.organizations, row.organizationId), (.users, row.createdByUserId)]
  | .apiKeys, row => [(.organizations, row.organizationId), (.users, row.createdByUserId)]
  | .advisoryLocks, _ => []

theorem rowConflict_comm {t : Table} (a b : Row t) : rowConflict a b = rowConflict b a := by
  cases t <;> simp only [rowConflict] <;> grind

/-! ## Errors -/

/-- The `ERROR_CODES` that the modelled requests can answer with. -/
inductive ErrorCode
  | badRequest
  | unauthorized
  | invalidCredentials
  | currentPasswordIncorrect
  | passwordUnchanged
  | emailUnchanged
  | emailAlreadyRegistered
  | sessionNotFound
  | verificationTokenInvalid
  | verificationTokenUsed
  | verificationTokenExpired
  | passwordResetTokenInvalid
  | passwordResetTokenUsed
  | passwordResetTokenExpired
  | registrationTokenInvalid
  | registrationTokenUsed
  | registrationTokenExpired
  | organizationNotFound
  | permissionDenied
  | memberNotFound
  | lastOwnerRequired
  | invitationInvalid
  | invitationExpired
  | invitationRevoked
  | invitationAlreadyAccepted
  | invitationEmailMismatch
  | conflict
  | quotaExceeded
  | planStateMissing
  | entitlementRequired
  | projectNotFound
  | apiKeyNotFound
  | internalError
  deriving DecidableEq

/-- The database of the application. -/
abbrev orgistry : Schema where
  Table := Table
  Row := Row
  Id := Id
  Key := KeyColumns
  Error := ErrorCode
  tableEq := inferInstance
  idEq := inferInstance
  keyEq := inferInstance
  id := rowId
  key := rowKey
  conflict := rowConflict
  refs := rowRefs
  uniqueViolation := .internalError
  foreignKeyViolation := .internalError
  conflict_comm := rowConflict_comm

abbrev Program := Prog orgistry

/-- `SELECT … WHERE p`. -/
abbrev selectRows (t : Table) (p : Row t → Bool) : Program (List (Row t)) :=
  select (S := orgistry) t p

/-- `SELECT … WHERE p LIMIT 1`. -/
def selectOne (t : Table) (p : Row t → Bool) : Program (Option (Row t)) := do
  let rows ← selectRows t p
  return rows.head?

/-- `SELECT … WHERE p FOR UPDATE`. -/
abbrev selectRowsForUpdate (t : Table) (p : Row t → Bool) : Program (List (Row t)) :=
  selectForUpdate (S := orgistry) t p

/-- `SELECT … WHERE p LIMIT 1 FOR UPDATE`, where `p` determines the row. -/
def selectOneForUpdate (t : Table) (p : Row t → Bool) : Program (Option (Row t)) := do
  let rows ← selectRowsForUpdate t p
  return rows.head?

/-- `SELECT … WHERE p LIMIT 1 FOR SHARE`, where `p` determines the row. -/
def selectOneForShare (t : Table) (p : Row t → Bool) : Program (Option (Row t)) := do
  let rows ← selectForShare (S := orgistry) t p
  return rows.head?

/-- The assignment of an `UPDATE`. -/
def assign {t : Table} (f : Row t → Row t)
    (keeps_id : ∀ row, rowId (f row) = rowId row := by intro _; rfl)
    (keeps_refs : ∀ row, rowRefs (f row) = rowRefs row := by intro _; rfl) :
    Assignment orgistry t :=
  ⟨f, keeps_id, keeps_refs⟩

/-- `UPDATE … SET f WHERE p RETURNING *`. -/
abbrev updateRows (t : Table) (p : Row t → Bool) (f : Assignment orgistry t) :
    Program (List (Row t)) :=
  update (S := orgistry) t p f

abbrev insertRow (t : Table) (row : Id → Row t) : Program (Row t) :=
  insert (S := orgistry) t row

abbrev tryInsertRow (t : Table) (row : Id → Row t) : Program (Option (Row t)) :=
  tryInsert (S := orgistry) t row

end Orgistry.Model
