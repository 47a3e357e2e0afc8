import SkillMind.Users.Domain

/-!
# Access to the user tables

What a transaction reads under its locks, and the check of the caller that every transaction
repeats after it waited.
-/

namespace SkillMind.Users

open Library
open Runs (Uuid Timestamp)

structure LockedUsers where
  actor : User
  target : Option User
  currentSession : AuthSession
  sessions : List AuthSession

def findUser (t : UserTables) (organizationId userId : Uuid) : Option User :=
  t.users.find? fun user =>
    decide (user.organizationId = organizationId) && decide (user.id = userId)

def lockOrganization (t : UserTables) (organizationId : Uuid) : Except Fault Unit :=
  require (organizationId ∈ t.organizations) unauthorized

def lockSessionReference (t : UserTables) (organizationId userId sessionId : Uuid) :
    Except Fault (User × AuthSession) := do
  lockOrganization t organizationId
  let actor ← orFault unauthorized (findUser t organizationId userId)
  let current ← orFault unauthorized (t.sessions.find? fun session =>
    decide (session.id = sessionId) && decide (session.userId = userId))
  return (actor, current)

section Access

variable (settings : CredentialSettings)

def validateUserAccess (access : UserAccess) : Except Fault Unit := do
  let _ ← orFault unauthorized (settings.deriveRequestProof access.sessionToken)
  return

/-- The session that the token of the caller names. -/
def provesSession (access : UserAccess) (actor : User) (session : AuthSession) : Bool :=
  decide (session.userId = actor.id) &&
    decide (session.tokenHash = settings.hashSessionSecret access.sessionToken)

def lockUsers (t : UserTables) (access : UserAccess) (targetId : Option Uuid)
    (includeTargetSessions : Bool) : Except Fault LockedUsers := do
  lockOrganization t access.organizationId
  let actor ← orFault unauthorized (findUser t access.organizationId access.userId)
  let target := targetId.bind (findUser t access.organizationId)
  let current ← orFault unauthorized (t.sessions.find? (provesSession settings access actor))
  let sessions := t.sessions.filter fun session =>
    provesSession settings access actor session ||
      (includeTargetSessions && target.any (fun user => decide (session.userId = user.id)) &&
        session.revokedAt.isNone)
  return ⟨actor, target, current, sessions⟩

def authorizeUserAccess (access : UserAccess) (locked : LockedUsers) (now : Timestamp)
    (admin write : Bool) : Except Fault Unit := do
  require (locked.actor.id = access.userId ∧ locked.actor.organizationId = access.organizationId)
    unauthorized
  validateSessionCredentials settings locked.currentSession locked.actor access.sessionToken now
  if write = true then
    validateSessionCsrf settings locked.currentSession access.csrfToken
  require (admin = true → locked.actor.systemRole = .admin)
    ⟨.userAdministrationDeniedError, "Administrator access is required"⟩

/-- The start of `_transaction`: the rows of the caller and the target, checked at `now`. -/
def transaction (t : UserTables) (access : UserAccess) (targetId : Option Uuid)
    (admin write : Bool) (now : Timestamp) : Except Fault LockedUsers := do
  validateUserAccess settings access
  let locked ← lockUsers settings t access targetId write
  authorizeUserAccess settings access locked now admin write
  return locked

/-- The refresh of a session that was last seen more than five minutes ago. -/
def AuthSession.seen (session : AuthSession) (now : Timestamp) : AuthSession :=
  if session.lastSeenAt + 300 ≤ now then
    { session with
      lastSeenAt := now
      idleExpiresAt := min (now + settings.idleSeconds) session.absoluteExpiresAt }
  else session

/-- `_load_active_session`: the session with its refresh, and its user. -/
def loadActiveSession (t : UserTables) (token : String) (now : Timestamp) :
    Except Fault (AuthSession × User × UserTables) := do
  let _ ← orFault unauthorized (settings.deriveSessionCsrf token)
  let session ← orFault unauthorized
    (t.sessions.find? fun row => decide (row.tokenHash = settings.hashSessionSecret token))
  let user ← orFault unauthorized (t.users.find? fun row => decide (row.id = session.userId))
  validateSessionCredentials settings session user token now
  let seen := session.seen settings now
  return (seen, user, { t with sessions := replaceRow AuthSession.id seen t.sessions })

end Access

end SkillMind.Users
