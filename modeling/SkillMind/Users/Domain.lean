import SkillMind.Library.Table
import SkillMind.Library.Transaction
import SkillMind.Runs.Domain

/-!
# Users, sessions and API keys

The rows of the user administration and the checks of a presented credential.  An API key is a
session of its own credential version with a row of metadata beside it.

What hashes, derives and normalizes a credential is a parameter; a proof that a token does not
have is none.
-/

namespace SkillMind.Users

open Library
open Runs (Uuid Timestamp)

/-- The exception classes the transactions raise. -/
inductive ErrorClass where
  | valueError
  | integrityError
  | multipleResultsFound
  | unauthorizedSessionError
  | csrfRejectedError
  | invalidCredentialsError
  | userAdministrationDeniedError
  | userNotFoundError
  | userVersionConflictError
  | userEmailConflictError
  | lastActiveAdminError
  | currentPasswordRejectedError
  | apiKeyNotFoundError
  | loginError

structure Fault where
  error : ErrorClass
  message : String

def unauthorized : Fault := ⟨.unauthorizedSessionError, "Authentication is required"⟩

inductive UserRole where
  | admin
  | user
  deriving DecidableEq

inductive UserStatus where
  | active
  | disabled
  deriving DecidableEq

structure User where
  id : Uuid
  organizationId : Uuid
  email : String
  displayName : String
  passwordHash : String
  systemRole : UserRole
  status : UserStatus
  rowVersion : Nat
  lastLoginAt : Option Timestamp
  createdAt : Timestamp
  updatedAt : Timestamp

structure AuthSession where
  id : Uuid
  userId : Uuid
  tokenHash : String
  csrfTokenHash : String
  credentialVersion : Nat
  systemRoleAtLogin : Option UserRole
  createdAt : Timestamp
  lastSeenAt : Timestamp
  idleExpiresAt : Timestamp
  absoluteExpiresAt : Timestamp
  revokedAt : Option Timestamp
  deriving DecidableEq

/-- The metadata of a key; its identifier is the one of its session. -/
structure ApiKey where
  id : Uuid
  organizationId : Uuid
  name : String

inductive UserSecurityAction where
  | created
  | updated
  | passwordChanged
  | sessionsRevoked

structure UserSecurityEvent where
  organizationId : Uuid
  userId : Uuid
  actorId : Uuid
  action : UserSecurityAction
  rowVersion : Nat
  previousRole : Option UserRole
  previousStatus : Option UserStatus
  systemRole : UserRole
  status : UserStatus
  revokedSessions : Nat
  requestId : Uuid
  createdAt : Timestamp

structure UserTables where
  organizations : List Uuid
  users : List User
  sessions : List AuthSession
  apiKeys : List ApiKey
  events : List UserSecurityEvent

def UserTables.opened (organizations : List Uuid) : UserTables := ⟨organizations, [], [], [], []⟩

def User.activeAdmin (user : User) : Bool :=
  decide (user.systemRole = .admin) && decide (user.status = .active)

/-! ## Credentials -/

def sessionCredentialVersion : Nat := 2

def apiKeyCredentialVersion : Nat := 3

/-- The functions and the policy that credentials are made with. -/
structure CredentialSettings where
  hashSessionSecret : String → String
  /-- The prefix test of a key. -/
  isApiKey : String → Bool
  deriveSessionCsrf : String → Option String
  deriveApiKeyProof : String → Option String
  /-- Whether the password matches, and whether it has to be hashed again. -/
  verifyPassword : String → String → Bool × Bool
  hashPassword : String → String
  normalizeEmail : String → Option String
  stripped : String → String
  idleSeconds : Nat
  absoluteSeconds : Nat
  adminAbsoluteSeconds : Nat

def CredentialSettings.deriveRequestProof (settings : CredentialSettings) (token : String) :
    Option String :=
  if settings.isApiKey token = true then settings.deriveApiKeyProof token
  else settings.deriveSessionCsrf token

/-- The caller as a request presents it. -/
structure UserAccess where
  userId : Uuid
  organizationId : Uuid
  requestId : Uuid
  sessionToken : String
  csrfToken : String

/-- `validate_session_state`. -/
def sessionStateValid (session : AuthSession) (user : User) (now : Timestamp) : Bool :=
  decide (session.userId = user.id) && session.revokedAt.isNone &&
    decide (now < session.idleExpiresAt) && decide (now < session.absoluteExpiresAt) &&
    decide (user.status = .active) &&
    (session.credentialVersion == sessionCredentialVersion ||
      session.credentialVersion == apiKeyCredentialVersion) &&
    !(session.credentialVersion == apiKeyCredentialVersion && user.systemRole != .admin) &&
    decide (session.systemRoleAtLogin = some user.systemRole)

def validateSessionCredentials (settings : CredentialSettings) (session : AuthSession)
    (user : User) (token : String) (now : Timestamp) : Except Fault Unit := do
  require (sessionStateValid session user now = true) unauthorized
  let proof ← orFault unauthorized (settings.deriveRequestProof token)
  require (session.credentialVersion =
        (if settings.isApiKey token = true then apiKeyCredentialVersion
          else sessionCredentialVersion) ∧
      session.tokenHash = settings.hashSessionSecret token ∧
      session.csrfTokenHash = settings.hashSessionSecret proof)
    unauthorized

def validateSessionCsrf (settings : CredentialSettings) (session : AuthSession)
    (csrfToken : String) : Except Fault Unit :=
  require (csrfToken ≠ "" ∧ session.csrfTokenHash = settings.hashSessionSecret csrfToken)
    ⟨.csrfRejectedError, "CSRF token was rejected"⟩

def validatePassword (password : String) : Except Fault Unit := do
  require (8 ≤ password.length) ⟨.valueError, "Password must contain at least 8 characters"⟩
  require (password.utf8ByteSize ≤ 1024)
    ⟨.valueError, "Password must not exceed 1024 UTF-8 bytes"⟩

def validateDisplayName (settings : CredentialSettings) (value : String) :
    Except Fault String := do
  let stripped := settings.stripped value
  require (stripped ≠ "" ∧ stripped.length ≤ 200)
    ⟨.valueError, "Display name must contain 1 to 200 characters"⟩
  return stripped

def validateVersion (version : Nat) : Except Fault Unit :=
  require (1 ≤ version) ⟨.valueError, "Expected row version must be a positive integer"⟩

end SkillMind.Users
