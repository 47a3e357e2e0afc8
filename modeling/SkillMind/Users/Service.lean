import SkillMind.Users.Access

/-!
# The transactions of users, sessions and API keys

`UserService`, `AuthService` and `ApiKeyService`: every operation is one transaction under the
lock of the organization or of the user, and the caller is checked again after every wait, each
time at a time of its own.  New identifiers, tokens and readings of the clock are given with each
transaction; what a login passes before its transaction is given as its `admission`.
-/

namespace SkillMind.Users

open Library
open Runs (Uuid Timestamp)

structure CreateUserCommand where
  email : String
  displayName : String
  systemRole : UserRole
  password : String

structure UpdateUserCommand where
  displayName : String
  systemRole : UserRole
  status : UserStatus
  expectedRowVersion : Nat

structure UserMutationResult where
  user : User
  revokedSessions : Nat
  sessionRevoked : Bool

section Service

variable (settings : CredentialSettings)

/-! ## Users -/

/-- A new row of the users, under the keys of the table. -/
def insertUser (t : UserTables) (user : User) : Except Fault UserTables := do
  require (∀ other ∈ t.users, other.id ≠ user.id) ⟨.integrityError, "users key"⟩
  require (∀ other ∈ t.users, other.organizationId = user.organizationId →
      other.email ≠ user.email)
    ⟨.userEmailConflictError, "User email already exists"⟩
  return { t with users := t.users ++ [user] }

/-- `append_event`, with the key of the table. -/
def appendEvent (t : UserTables) (event : UserSecurityEvent) : Except Fault UserTables := do
  require (∀ other ∈ t.events, ¬ (other.userId = event.userId ∧
      other.rowVersion = event.rowVersion))
    ⟨.integrityError, "user_security_events key"⟩
  return { t with events := t.events ++ [event] }

def CreateUserCommand.validated (command : CreateUserCommand) : Except Fault CreateUserCommand := do
  let email ← orFault ⟨.valueError, "A valid email address is required"⟩
    (settings.normalizeEmail command.email)
  require (email.length ≤ 320) ⟨.valueError, "Email must not exceed 320 characters"⟩
  validatePassword command.password
  let name ← validateDisplayName settings command.displayName
  return { command with
    email := email
    displayName := name }

def createUser (t : UserTables) (access : UserAccess) (command : CreateUserCommand)
    (userId : Uuid) (before now : Timestamp) : Except Fault (UserMutationResult × UserTables) := do
  let command ← command.validated settings
  let locked ← transaction settings t access none true true before
  require (∀ other ∈ t.users, other.organizationId = locked.actor.organizationId →
      other.email ≠ command.email)
    ⟨.userEmailConflictError, "User email already exists"⟩
  authorizeUserAccess settings access locked now true true
  let user : User :=
    { id := userId
      organizationId := locked.actor.organizationId
      email := command.email
      displayName := command.displayName
      passwordHash := settings.hashPassword command.password
      systemRole := command.systemRole
      status := .active
      rowVersion := 1
      lastLoginAt := none
      createdAt := now
      updatedAt := now }
  let inserted ← insertUser t user
  let event : UserSecurityEvent :=
    ⟨user.organizationId, user.id, locked.actor.id, .created, 1, none, none, user.systemRole,
      user.status, 0, access.requestId, now⟩
  let written ← appendEvent inserted event
  return (⟨user, 0, false⟩, written)

/-- `_target`. -/
def targetOf (locked : LockedUsers) (expectedRowVersion : Nat) : Except Fault User := do
  let target ← orFault ⟨.userNotFoundError, "User not found"⟩ locked.target
  require (target.rowVersion = expectedRowVersion)
    ⟨.userVersionConflictError, "User changed; refresh before trying again"⟩
  return target

/-- The sessions of the target that a transaction revokes. -/
def revokes (target : User) (session : AuthSession) : Bool :=
  decide (session.userId = target.id) && session.revokedAt.isNone

/-- The sessions after those of the target that are locked were revoked. -/
def revokeLocked (locked : LockedUsers) (target : User) (now : Timestamp)
    (sessions : List AuthSession) : List AuthSession :=
  sessions.map fun session =>
    if session ∈ locked.sessions ∧ revokes target session = true then
      { session with revokedAt := some now }
    else session

/-- `_finish`: the version, the revocation and the event of one change. -/
def finish (t : UserTables) (locked : LockedUsers) (access : UserAccess) (target : User)
    (action : UserSecurityAction) (previousRole : UserRole) (previousStatus : UserStatus)
    (now : Timestamp) (revoke : Bool) : Except Fault (UserMutationResult × UserTables) := do
  let revoked := if revoke = true then locked.sessions.countP (revokes target) else 0
  let sessions := if revoke = true then revokeLocked locked target now t.sessions else t.sessions
  let user := { target with
    rowVersion := target.rowVersion + 1
    updatedAt := now }
  let event : UserSecurityEvent :=
    ⟨user.organizationId, user.id, locked.actor.id, action, user.rowVersion, some previousRole,
      some previousStatus, user.systemRole, user.status, revoked, access.requestId, now⟩
  let written ← appendEvent
    { t with
      users := replaceRow User.id user t.users
      sessions := sessions } event
  return (⟨user, revoked, locked.currentSession.revokedAt.isSome ||
    (revoke && revokes target locked.currentSession)⟩, written)

def hasOtherActiveAdmin (t : UserTables) (user : User) : Bool :=
  t.users.any fun other =>
    decide (other.organizationId = user.organizationId) && decide (other.id ≠ user.id) &&
      other.activeAdmin

def updateUser (t : UserTables) (access : UserAccess) (userId : Uuid)
    (command : UpdateUserCommand) (before now : Timestamp) :
    Except Fault (UserMutationResult × UserTables) := do
  validateVersion command.expectedRowVersion
  let name ← validateDisplayName settings command.displayName
  let locked ← transaction settings t access (some userId) true true before
  let target ← targetOf locked command.expectedRowVersion
  if (target.displayName, target.systemRole, target.status) =
      (name, command.systemRole, command.status) then
    return (⟨target, 0, false⟩, t)
  else
    let losingAdmin := target.activeAdmin &&
      !(decide (command.systemRole = .admin) && decide (command.status = .active))
    require (losingAdmin = true → hasOtherActiveAdmin t target = true)
      ⟨.lastActiveAdminError, "The last active administrator must be retained"⟩
    authorizeUserAccess settings access locked now true true
    let changed := { target with
      displayName := name
      systemRole := command.systemRole
      status := command.status }
    finish t locked access changed .updated target.systemRole target.status now
      (decide ((target.systemRole, target.status) ≠ (command.systemRole, command.status)))

def revokeSessions (t : UserTables) (access : UserAccess) (userId : Uuid)
    (expectedRowVersion : Nat) (before now : Timestamp) :
    Except Fault (UserMutationResult × UserTables) := do
  validateVersion expectedRowVersion
  let admin := decide (userId ≠ access.userId)
  let locked ← transaction settings t access (some userId) admin true before
  let target ← targetOf locked expectedRowVersion
  authorizeUserAccess settings access locked now admin true
  finish t locked access target .sessionsRevoked target.systemRole target.status now true

def changePassword (t : UserTables) (access : UserAccess) (currentPassword newPassword : String)
    (expectedRowVersion : Nat) (before now : Timestamp) :
    Except Fault (UserMutationResult × UserTables) := do
  validateVersion expectedRowVersion
  validatePassword newPassword
  require (currentPassword ≠ "" ∧ currentPassword.utf8ByteSize ≤ 1024)
    ⟨.currentPasswordRejectedError, "Current password was rejected"⟩
  let locked ← transaction settings t access (some access.userId) false true before
  let target ← targetOf locked expectedRowVersion
  require ((settings.verifyPassword target.passwordHash currentPassword).1 = true)
    ⟨.currentPasswordRejectedError, "Current password was rejected"⟩
  authorizeUserAccess settings access locked now false true
  let changed := { target with passwordHash := settings.hashPassword newPassword }
  finish t locked access changed .passwordChanged target.systemRole target.status now true

/-- `BootstrapAdminService.bootstrap`: the first administrator of an organization. -/
def bootstrap (t : UserTables) (organizationId : Uuid) (command : CreateUserCommand)
    (userId requestId : Uuid) (now : Timestamp) : Except Fault (Uuid × UserTables) := do
  let command ← CreateUserCommand.validated settings { command with systemRole := .admin }
  lockOrganization t organizationId
  require (∀ other ∈ t.users, ¬ (other.organizationId = organizationId ∧
      other.systemRole = .admin))
    ⟨.valueError, "An administrator already exists"⟩
  let user : User :=
    { id := userId
      organizationId := organizationId
      email := command.email
      displayName := command.displayName
      passwordHash := settings.hashPassword command.password
      systemRole := .admin
      status := .active
      rowVersion := 1
      lastLoginAt := none
      createdAt := now
      updatedAt := now }
  let inserted ← insertUser t user
  let event : UserSecurityEvent :=
    ⟨organizationId, userId, userId, .created, 1, none, none, .admin, .active, 0, requestId, now⟩
  let written ← appendEvent inserted event
  return (userId, written)

/-! ## Sessions -/

/-- A new session, under the keys of the table. -/
def insertSession (t : UserTables) (session : AuthSession) : Except Fault UserTables := do
  require (∀ other ∈ t.sessions, other.id ≠ session.id ∧ other.tokenHash ≠ session.tokenHash)
    ⟨.integrityError, "auth_sessions key"⟩
  return { t with sessions := t.sessions ++ [session] }

def invalidCredentials : Fault := ⟨.invalidCredentialsError, "Invalid email or password"⟩

/-- The transaction of `login`. -/
def login (t : UserTables) (email password : String) (admission : Except Fault Unit)
    (sessionId : Uuid) (token proof : String) (now : Timestamp) :
    Except Fault (Uuid × UserTables) := do
  let normalized ← orFault invalidCredentials (settings.normalizeEmail email)
  admission
  let matching := t.users.filter fun user => decide (user.email = normalized)
  require (matching.length ≤ 1) ⟨.multipleResultsFound, "users"⟩
  let user ← orFault invalidCredentials matching.head?
  let (verified, needsRehash) := settings.verifyPassword user.passwordHash password
  require (user.status = .active ∧ verified = true) invalidCredentials
  let absolute := now + if user.systemRole = .admin then settings.adminAbsoluteSeconds
    else settings.absoluteSeconds
  let opened ← insertSession t
    { id := sessionId
      userId := user.id
      tokenHash := settings.hashSessionSecret token
      csrfTokenHash := settings.hashSessionSecret proof
      credentialVersion := sessionCredentialVersion
      systemRoleAtLogin := some user.systemRole
      createdAt := now
      lastSeenAt := now
      idleExpiresAt := min (now + settings.idleSeconds) absolute
      absoluteExpiresAt := absolute
      revokedAt := none }
  let entered := { user with
    lastLoginAt := some now
    passwordHash := if needsRehash = true then settings.hashPassword password
      else user.passwordHash }
  return (user.id, { opened with users := replaceRow User.id entered opened.users })

def authenticateSession (t : UserTables) (token : String) (now : Timestamp) :
    Except Fault (Uuid × UserTables) := do
  let (_, user, seen) ← loadActiveSession settings t token now
  return (user.id, seen)

def authenticateUnsafeSession (t : UserTables) (token csrfToken : String) (now : Timestamp) :
    Except Fault (Uuid × UserTables) := do
  let (session, user, seen) ← loadActiveSession settings t token now
  validateSessionCsrf settings session csrfToken
  return (user.id, seen)

def logout (t : UserTables) (token csrfToken : String) (now later : Timestamp) :
    Except Fault (Uuid × UserTables) := do
  let (session, user, seen) ← loadActiveSession settings t token now
  validateSessionCsrf settings session csrfToken
  let closed := { session with revokedAt := some later }
  return (user.id, { seen with sessions := replaceRow AuthSession.id closed seen.sessions })

/-- `ApiKeyService.authenticate`. -/
def authenticateKey (t : UserTables) (token : String) (now : Timestamp) :
    Except Fault (Uuid × UserTables) := do
  let _ ← orFault unauthorized (settings.deriveApiKeyProof token)
  let session ← orFault unauthorized
    (t.sessions.find? fun row => decide (row.tokenHash = settings.hashSessionSecret token))
  let user ← orFault unauthorized (t.users.find? fun row => decide (row.id = session.userId))
  require (∃ key ∈ t.apiKeys, key.id = session.id ∧ key.organizationId = user.organizationId)
    unauthorized
  validateSessionCredentials settings session user token now
  let seen :=
    if session.lastSeenAt = session.createdAt ∨ session.lastSeenAt + 300 ≤ now then
      { session with lastSeenAt := now }
    else session
  return (user.id, { t with sessions := replaceRow AuthSession.id seen t.sessions })

/-- The end of a key that has none. -/
def neverExpires : Timestamp := 253370764800

/-- `ApiKeyService.create`. -/
def createKey (t : UserTables) (access : UserAccess) (name : String) (keyId : Uuid)
    (token proof : String) (now later : Timestamp) : Except Fault (Uuid × UserTables) := do
  let stripped := settings.stripped name
  require (stripped ≠ "" ∧ stripped.length ≤ 200)
    ⟨.valueError, "API key name must contain 1 to 200 characters"⟩
  let locked ← transaction settings t access none true true now
  let opened ← insertSession t
    { id := keyId
      userId := locked.actor.id
      tokenHash := settings.hashSessionSecret token
      csrfTokenHash := settings.hashSessionSecret proof
      credentialVersion := apiKeyCredentialVersion
      systemRoleAtLogin := some .admin
      createdAt := now
      lastSeenAt := now
      idleExpiresAt := neverExpires
      absoluteExpiresAt := neverExpires
      revokedAt := none }
  authorizeUserAccess settings access locked later true true
  return (keyId, { opened with
    apiKeys := opened.apiKeys ++ [⟨keyId, locked.actor.organizationId, stripped⟩] })

/-- `ApiKeyService.revoke`. -/
def revokeKey (t : UserTables) (access : UserAccess) (keyId : Uuid) (now later : Timestamp) :
    Except Fault (Uuid × UserTables) := do
  validateUserAccess settings access
  let locked ← lockUsers settings t access none false
  let unavailable : Fault := ⟨.apiKeyNotFoundError, "API key is not available"⟩
  let _ ← orFault unavailable (t.apiKeys.find? fun key =>
    decide (key.organizationId = locked.actor.organizationId) && decide (key.id = keyId))
  let credential ← orFault unavailable
    (t.sessions.find? fun session => decide (session.id = keyId))
  authorizeUserAccess settings access locked now true true
  let closed := if credential.revokedAt.isNone then { credential with revokedAt := some now }
    else credential
  if credential.id ≠ locked.currentSession.id then
    authorizeUserAccess settings access locked later true true
  return (keyId, { t with sessions := replaceRow AuthSession.id closed t.sessions })

inductive UserAction where
  | createUser (access : UserAccess) (command : CreateUserCommand) (userId : Uuid)
      (before now : Timestamp)
  | updateUser (access : UserAccess) (userId : Uuid) (command : UpdateUserCommand)
      (before now : Timestamp)
  | revokeSessions (access : UserAccess) (userId : Uuid) (expectedRowVersion : Nat)
      (before now : Timestamp)
  | changePassword (access : UserAccess) (currentPassword newPassword : String)
      (expectedRowVersion : Nat) (before now : Timestamp)
  | bootstrap (organizationId : Uuid) (command : CreateUserCommand) (userId requestId : Uuid)
      (now : Timestamp)
  | login (email password : String) (admission : Except Fault Unit) (sessionId : Uuid)
      (token proof : String) (now : Timestamp)
  | authenticateSession (token : String) (now : Timestamp)
  | authenticateUnsafeSession (token csrfToken : String) (now : Timestamp)
  | logout (token csrfToken : String) (now later : Timestamp)
  | authenticateKey (token : String) (now : Timestamp)
  | createKey (access : UserAccess) (name : String) (keyId : Uuid) (token proof : String)
      (now later : Timestamp)
  | revokeKey (access : UserAccess) (keyId : Uuid) (now later : Timestamp)

inductive UserAnswer where
  | mutated (result : UserMutationResult)
  | done (id : Uuid)

def execUser (action : UserAction) (t : UserTables) : Except Fault (UserAnswer × UserTables) :=
  match action with
  | .createUser access command userId before now =>
    answering .mutated (createUser settings t access command userId before now)
  | .updateUser access userId command before now =>
    answering .mutated (updateUser settings t access userId command before now)
  | .revokeSessions access userId expectedRowVersion before now =>
    answering .mutated (revokeSessions settings t access userId expectedRowVersion before now)
  | .changePassword access currentPassword newPassword expectedRowVersion before now =>
    answering .mutated (changePassword settings t access currentPassword newPassword
      expectedRowVersion before now)
  | .bootstrap organizationId command userId requestId now =>
    answering .done (bootstrap settings t organizationId command userId requestId now)
  | .login email password admission sessionId token proof now =>
    answering .done (login settings t email password admission sessionId token proof now)
  | .authenticateSession token now => answering .done (authenticateSession settings t token now)
  | .authenticateUnsafeSession token csrfToken now =>
    answering .done (authenticateUnsafeSession settings t token csrfToken now)
  | .logout token csrfToken now later =>
    answering .done (logout settings t token csrfToken now later)
  | .authenticateKey token now => answering .done (authenticateKey settings t token now)
  | .createKey access name keyId token proof now later =>
    answering .done (createKey settings t access name keyId token proof now later)
  | .revokeKey access keyId now later =>
    answering .done (revokeKey settings t access keyId now later)

/-- The users, sessions and keys as all callers see them. -/
def userStore : TransactionSystem UserTables UserAction UserAnswer Fault :=
  ⟨execUser settings⟩

end Service

end SkillMind.Users
