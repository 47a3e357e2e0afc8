import SkillMind.Users.Service

/-!
# Administrators, revocations and versions

A session that was revoked stays revoked, and every request is refused whose token names one. The
moves of the users keep an active administrator in every organization that has one, because the
transaction that takes the last one away is refused.
-/

namespace SkillMind.Users

open Library
open Runs (Uuid Timestamp)

variable {settings : CredentialSettings} {t t' : UserTables} {access : UserAccess}

variable {user : User}

theorem findUser_eq_some {organizationId userId : Uuid}
    (found : findUser t organizationId userId = some user) :
    user ∈ t.users ∧ user.organizationId = organizationId ∧ user.id = userId := by
  have holds := List.find?_some found
  simp only [Bool.and_eq_true, decide_eq_true_eq] at holds
  exact ⟨List.mem_of_find?_eq_some found, holds⟩

/-- The presented token names a session that is not revoked. -/
def Presented (settings : CredentialSettings) (t : UserTables) (token : String) : Prop :=
  ∃ session ∈ t.sessions, session.tokenHash = settings.hashSessionSecret token ∧
    session.revokedAt = none

variable {now : Timestamp}

theorem validateSessionCredentials_eq_ok {session : AuthSession} {token : String}
    (valid : validateSessionCredentials settings session user token now = .ok ()) :
    session.revokedAt = none ∧ session.tokenHash = settings.hashSessionSecret token ∧
      session.userId = user.id := by
  simp only [validateSessionCredentials, bind_eq_ok, require_eq_ok, exists_unit, orFault_eq_ok]
    at valid
  obtain ⟨state, _, -, -, hash, -⟩ := valid
  simp only [sessionStateValid, Bool.and_eq_true, decide_eq_true_eq, Option.isNone_iff_eq_none]
    at state
  exact ⟨state.1.1.1.1.1.1.2, hash, state.1.1.1.1.1.1.1⟩

/-- What `lock_users` reads, with the check of the caller. -/
structure Locks (settings : CredentialSettings) (t : UserTables) (access : UserAccess)
    (targetId : Option Uuid) (write : Bool) (locked : LockedUsers) : Prop where
  presented : Presented settings t access.sessionToken
  actor : locked.actor ∈ t.users
  current : locked.currentSession ∈ t.sessions
  target : ∀ target, locked.target = some target →
    target ∈ t.users ∧ some target.id = targetId
  covered : ∀ target, locked.target = some target → write = true →
    ∀ session ∈ t.sessions, session.userId = target.id → session.revokedAt = none →
      session ∈ locked.sessions

variable {locked : LockedUsers}

theorem lockUsers_eq_ok {targetId : Option Uuid} {write : Bool}
    (locks : lockUsers settings t access targetId write = .ok locked)
    {admin csrf : Bool}
    (authorized : authorizeUserAccess settings access locked now admin csrf = .ok ()) :
    Locks settings t access targetId write locked := by
  simp only [lockUsers, bind_eq_ok, orFault_eq_ok, exists_unit, pure_eq_ok] at locks
  obtain ⟨-, actor, found, current, proved, rfl⟩ := locks
  simp only [authorizeUserAccess, bind_eq_ok, exists_unit] at authorized
  obtain ⟨-, credentials, -⟩ := authorized
  obtain ⟨unrevoked, hash, -⟩ := validateSessionCredentials_eq_ok credentials
  constructor
  · exact ⟨current, List.mem_of_find?_eq_some proved, hash, unrevoked⟩
  · exact (findUser_eq_some found).1
  · exact List.mem_of_find?_eq_some proved
  · intro target known
    obtain ⟨id, rfl, looked⟩ := Option.bind_eq_some_iff.mp known
    have located := findUser_eq_some looked
    exact ⟨located.1, congrArg some located.2.2⟩
  · intro target known included session member owned open_
    refine List.mem_filter.mpr ⟨member, ?_⟩
    dsimp only at known
    simp [known, included, owned, open_]

theorem transaction_eq_ok {targetId : Option Uuid} {admin write : Bool}
    (enters : transaction settings t access targetId admin write now = .ok locked) :
    Locks settings t access targetId write locked := by
  simp only [transaction, bind_eq_ok, exists_unit, pure_eq_ok] at enters
  obtain ⟨-, _, locks, authorized, rfl⟩ := enters
  exact lockUsers_eq_ok locks authorized

theorem loadActiveSession_eq_ok {token : String} {session : AuthSession}
    (loads : loadActiveSession settings t token now = .ok (session, user, t')) :
    ∃ old ∈ t.sessions, old.tokenHash = settings.hashSessionSecret token ∧ old.revokedAt = none ∧
      session = old.seen settings now ∧
      t' = { t with sessions := replaceRow AuthSession.id session t.sessions } := by
  simp only [loadActiveSession, bind_eq_ok, orFault_eq_ok, exists_unit, pure_eq_ok,
    Prod.mk.injEq] at loads
  obtain ⟨_, -, old, search, _, -, credentials, rfl, -, rfl⟩ := loads
  obtain ⟨unrevoked, hash, -⟩ := validateSessionCredentials_eq_ok credentials
  exact ⟨old, List.mem_of_find?_eq_some search, hash, unrevoked, rfl, rfl⟩

/-! ## Sessions -/

/-- A session that is still the same credential, and revoked if it was. -/
structure SessionKept (old new : AuthSession) : Prop where
  id : new.id = old.id
  userId : new.userId = old.userId
  tokenHash : new.tokenHash = old.tokenHash
  revoked : old.revokedAt.isSome = true → new.revokedAt = old.revokedAt

theorem SessionKept.refl (session : AuthSession) : SessionKept session session :=
  ⟨rfl, rfl, rfl, fun _ => rfl⟩

theorem AuthSession.seen_kept (session : AuthSession) (now : Timestamp) :
    SessionKept session (session.seen settings now) := by
  unfold AuthSession.seen
  split <;> exact ⟨rfl, rfl, rfl, fun _ => rfl⟩

inductive SessionsMove : List AuthSession → List AuthSession → Prop
  | changed {sessions : List AuthSession} (f : AuthSession → AuthSession)
      (kept : ∀ session ∈ sessions, SessionKept session (f session)) :
      SessionsMove sessions (sessions.map f)
  | opened {sessions : List AuthSession} (session : AuthSession)
      (fresh : ∀ other ∈ sessions, other.id ≠ session.id ∧ other.tokenHash ≠ session.tokenHash) :
      SessionsMove sessions (sessions ++ [session])

/-- No two sessions share an identifier or a token. -/
def SeparateSessions (sessions : List AuthSession) : Prop :=
  Keyed AuthSession.id sessions ∧ Keyed AuthSession.tokenHash sessions

variable {sessions sessions' : List AuthSession}

theorem SessionsMove.refl (sessions : List AuthSession) : SessionsMove sessions sessions := by
  have stays := SessionsMove.changed id fun session (_ : session ∈ sessions) =>
    SessionKept.refl session
  rwa [List.map_id] at stays

theorem SessionsMove.replaced (separate : SeparateSessions sessions) {old new : AuthSession}
    (known : old ∈ sessions) (kept : SessionKept old new) :
    SessionsMove sessions (replaceRow AuthSession.id new sessions) := by
  refine .changed _ fun session member => ?_
  split
  · rename_i same
    rw [separate.1.eq_of_key member known (same.trans kept.id)]
    exact kept
  · exact SessionKept.refl session

theorem SessionsMove.separate (move : SessionsMove sessions sessions')
    (separate : SeparateSessions sessions) : SeparateSessions sessions' := by
  cases move with
  | changed f kept =>
    have ids : (sessions.map f).map AuthSession.id = sessions.map AuthSession.id := by
      rw [List.map_map]
      exact List.map_congr_left fun session member => (kept session member).id
    have hashes : (sessions.map f).map AuthSession.tokenHash =
        sessions.map AuthSession.tokenHash := by
      rw [List.map_map]
      exact List.map_congr_left fun session member => (kept session member).tokenHash
    unfold SeparateSessions Keyed
    rw [ids, hashes]
    exact separate
  | opened session fresh =>
    exact ⟨separate.1.add fun other member => (fresh other member).1.symm,
      separate.2.add fun other member => (fresh other member).2.symm⟩

theorem SessionsMove.kept (move : SessionsMove sessions sessions') {session : AuthSession}
    (known : session ∈ sessions) : ∃ later ∈ sessions', SessionKept session later := by
  cases move with
  | changed f kept => exact ⟨f session, List.mem_map_of_mem known, kept session known⟩
  | opened added fresh =>
    exact ⟨session, List.mem_append_left _ known, SessionKept.refl session⟩

/-- The organization has an active administrator. -/
def HasAdmin (organizationId : Uuid) (users : List User) : Prop :=
  ∃ user ∈ users, user.organizationId = organizationId ∧ user.activeAdmin = true

/-- What one transaction does to the users: it adds one, or writes one that stays an active
administrator, or was none, or is not the last one. -/
inductive UsersMove (users : List User) : List User → Prop
  | same : UsersMove users users
  | added (user : User) (fresh : ∀ other ∈ users, other.id ≠ user.id) :
      UsersMove users (users ++ [user])
  | wrote (old new : User) (known : old ∈ users) (id : new.id = old.id)
      (organization : new.organizationId = old.organizationId)
      (admin : old.activeAdmin = true → new.activeAdmin = true ∨
        ∃ other ∈ users, other.organizationId = old.organizationId ∧ other.id ≠ old.id ∧
          other.activeAdmin = true) :
      UsersMove users (replaceRow User.id new users)

variable {users users' : List User}

theorem UsersMove.keyed (move : UsersMove users users') (keyed : Keyed User.id users) :
    Keyed User.id users' := by
  cases move with
  | same => exact keyed
  | added user fresh => exact keyed.add fun other member => (fresh other member).symm
  | wrote old new known id organization admin => exact keyed.replaceRow new

theorem UsersMove.hasAdmin (move : UsersMove users users') (keyed : Keyed User.id users)
    {organizationId : Uuid} (has : HasAdmin organizationId users) :
    HasAdmin organizationId users' := by
  obtain ⟨user, member, organization, active⟩ := has
  cases move with
  | same => exact ⟨user, member, organization, active⟩
  | added added fresh => exact ⟨user, List.mem_append_left _ member, organization, active⟩
  | wrote old new known id organization' admin =>
    by_cases hit : user.id = new.id
    · have same := keyed.eq_of_key member known (hit.trans id)
      subst same
      rcases admin active with still | ⟨other, otherMem, otherOrganization, distinct, otherActive⟩
      · exact ⟨new, mem_replaceRow_self member hit, organization'.trans organization, still⟩
      · exact ⟨other, mem_replaceRow_of_ne otherMem fun same => distinct (same.trans id),
          otherOrganization.trans organization, otherActive⟩
    · exact ⟨user, mem_replaceRow_of_ne member hit, organization, active⟩

def versionOf (t : UserTables) (userId : Uuid) : Option Nat :=
  (t.users.find? fun user => decide (user.id = userId)).map User.rowVersion

/-- One accepted change of a user: its version is raised by one, from none to the first, and one
event is written with it. -/
structure ChangeRecorded (t t' : UserTables) (userId : Uuid) : Prop where
  event : ∃ event, t'.events = t.events ++ [event] ∧ event.userId = userId ∧
    versionOf t' userId = some event.rowVersion
  version : versionOf t' userId = some ((versionOf t userId).getD 0 + 1)
  others : ∀ other, other ≠ userId → versionOf t' other = versionOf t other

/-- Nothing of the administration is written. -/
structure Unrecorded (t t' : UserTables) : Prop where
  events : t'.events = t.events
  versions : ∀ userId, versionOf t' userId = versionOf t userId

theorem find?_replaceRow {userId : Uuid} (users : List User) :
    (replaceRow User.id user users).find? (fun row => decide (row.id = userId)) =
      if user.id = userId then (users.find? fun row => decide (row.id = userId)).map fun _ => user
      else users.find? fun row => decide (row.id = userId) := by
  induction users with
  | nil => split <;> rfl
  | cons first rest ih =>
    simp only [replaceRow, List.map_cons, List.find?_cons] at ih ⊢
    by_cases hit : first.id = user.id
    · rw [if_pos hit]
      by_cases asked : user.id = userId
      · simp [asked, hit]
      · simp only [asked, decide_false, if_false] at ih ⊢
        rw [ih, hit]
        simp [asked]
    · rw [if_neg hit]
      by_cases asked : user.id = userId
      · have other : ¬ first.id = userId := fun same => hit (same.trans asked.symm)
        simp only [asked, other, decide_false, if_true] at ih ⊢
        exact ih
      · simp only [asked, if_false] at ih ⊢
        split
        · rfl
        · exact ih

theorem find?_of_mem (keyed : Keyed User.id users) (member : user ∈ users) :
    users.find? (fun row => decide (row.id = user.id)) = some user := by
  cases search : users.find? fun row => decide (row.id = user.id) with
  | none =>
    have absent := List.find?_eq_none.mp search user member
    simp at absent
  | some other =>
    have holds := List.find?_some search
    have same : other.id = user.id := of_decide_eq_true holds
    rw [keyed.eq_of_key (List.mem_of_find?_eq_some search) member same]

theorem ChangeRecorded.of_wrote (keyed : Keyed User.id t.users) {old : User} (new : User)
    (known : old ∈ t.users) (id : new.id = old.id) (version : new.rowVersion = old.rowVersion + 1)
    (written : t'.users = replaceRow User.id new t.users) {event : UserSecurityEvent}
    (events : t'.events = t.events ++ [event]) (about : event.userId = old.id)
    (raised : event.rowVersion = new.rowVersion) : ChangeRecorded t t' old.id := by
  have before : versionOf t old.id = some old.rowVersion := by
    rw [versionOf, find?_of_mem keyed known]
    rfl
  have after : versionOf t' old.id = some new.rowVersion := by
    rw [versionOf, written, find?_replaceRow, if_pos id, find?_of_mem keyed known]
    rfl
  refine ⟨⟨event, events, about, raised ▸ after⟩, ?_, fun other distinct => ?_⟩
  · rw [after, before, version]
    rfl
  · rw [versionOf, written, find?_replaceRow, if_neg fun same => distinct (same.symm.trans id)]
    rfl

theorem ChangeRecorded.of_added (fresh : ∀ other ∈ t.users, other.id ≠ user.id)
    (version : user.rowVersion = 1) {event : UserSecurityEvent}
    (events : t'.events = t.events ++ [event]) (about : event.userId = user.id)
    (first : event.rowVersion = 1) (written : t'.users = t.users ++ [user]) :
    ChangeRecorded t t' user.id := by
  have unknown : t.users.find? (fun row => decide (row.id = user.id)) = none :=
    List.find?_eq_none.mpr fun other member => by simp [fresh other member]
  have before : versionOf t user.id = none := by
    rw [versionOf, unknown]
    rfl
  have after : versionOf t' user.id = some 1 := by
    rw [versionOf, written, List.find?_append, unknown]
    simp [version]
  refine ⟨⟨event, events, about, first ▸ after⟩, ?_, fun other distinct => ?_⟩
  · rw [after, before]
    rfl
  · rw [versionOf, versionOf, written, List.find?_append]
    have absent : [user].find? (fun row => decide (row.id = other)) = none := by
      simp [distinct.symm]
    rw [absent, Option.or_none]

theorem Unrecorded.of_wrote (keyed : Keyed User.id t.users) {old new : User} (known : old ∈ t.users)
    (written : t'.users = replaceRow User.id new t.users) (id : new.id = old.id)
    (version : new.rowVersion = old.rowVersion) (events : t'.events = t.events) :
    Unrecorded t t' := by
  refine ⟨events, fun userId => ?_⟩
  rw [versionOf, written, find?_replaceRow]
  split
  · rename_i asked
    subst asked
    rw [versionOf, id, find?_of_mem keyed known, Option.map_some, Option.map_some, Option.map_some,
      version]
  · rfl

theorem Unrecorded.of_same (events : t'.events = t.events) (users : t'.users = t.users) :
    Unrecorded t t' :=
  ⟨events, fun userId => by rw [versionOf, versionOf, users]⟩

/-- What one committed transaction does to the users and the sessions. -/
structure TablesMove (t t' : UserTables) : Prop where
  users : UsersMove t.users t'.users
  sessions : SessionsMove t.sessions t'.sessions

/-- The tables of a run. -/
structure Separate (t : UserTables) : Prop where
  users : Keyed User.id t.users
  sessions : SeparateSessions t.sessions

def AllRevoked (t t' : UserTables) (userId : Uuid) : Prop :=
  ∀ session ∈ t.sessions, session.userId = userId →
    ∃ later ∈ t'.sessions, SessionKept session later ∧ later.revokedAt.isSome = true

theorem insertUser_eq_ok (inserts : insertUser t user = .ok t') :
    (∀ other ∈ t.users, other.id ≠ user.id) ∧ t' = { t with users := t.users ++ [user] } := by
  simp only [insertUser, bind_eq_ok, require_eq_ok, exists_unit, pure_eq_ok] at inserts
  exact ⟨inserts.1, inserts.2.2.symm⟩

theorem appendEvent_eq_ok {event : UserSecurityEvent} (appends : appendEvent t event = .ok t') :
    t' = { t with events := t.events ++ [event] } := by
  simp only [appendEvent, bind_eq_ok, require_eq_ok, exists_unit, pure_eq_ok] at appends
  exact appends.2.symm

theorem insertSession_eq_ok {session : AuthSession} (inserts : insertSession t session = .ok t') :
    (∀ other ∈ t.sessions, other.id ≠ session.id ∧ other.tokenHash ≠ session.tokenHash) ∧
      t' = { t with sessions := t.sessions ++ [session] } := by
  simp only [insertSession, bind_eq_ok, require_eq_ok, exists_unit, pure_eq_ok] at inserts
  exact ⟨inserts.1, inserts.2.symm⟩

theorem targetOf_eq_ok {expectedRowVersion : Nat} {target : User}
    (found : targetOf locked expectedRowVersion = .ok target) : locked.target = some target := by
  simp only [targetOf, bind_eq_ok, orFault_eq_ok, require_eq_ok, exists_unit, pure_eq_ok] at found
  obtain ⟨_, known, -, rfl⟩ := found
  exact known

/-- The change of a user: the version, the event and, when it revokes, all of its sessions. -/
structure Finished (t t' : UserTables) (old : User) (revoke : Bool) : Prop where
  move : TablesMove t t'
  recorded : ChangeRecorded t t' old.id
  revoked : revoke = true → AllRevoked t t' old.id

theorem finish_moves (separate : Separate t) {targetId : Option Uuid}
    {old changed : User} {action : UserSecurityAction} {role : UserRole} {status : UserStatus}
    {revoke : Bool} {result : UserMutationResult}
    (locks : Locks settings t access targetId true locked) (target : locked.target = some old)
    (finishes : finish t locked access changed action role status now revoke = .ok (result, t'))
    (id : changed.id = old.id) (organization : changed.organizationId = old.organizationId)
    (version : changed.rowVersion = old.rowVersion)
    (admin : old.activeAdmin = true → changed.activeAdmin = true ∨
      hasOtherActiveAdmin t old = true) : Finished t t' old revoke := by
  have known := (locks.target old target).1
  simp only [finish, bind_eq_ok, pure_eq_ok, Prod.mk.injEq] at finishes
  obtain ⟨_, appends, -, rfl⟩ := finishes
  obtain rfl := appendEvent_eq_ok appends
  have users : UsersMove t.users (replaceRow User.id
      { changed with
        rowVersion := changed.rowVersion + 1
        updatedAt := now } t.users) := by
    refine .wrote old _ known id organization fun active => ?_
    rcases admin active with still | other
    · exact Or.inl still
    · obtain ⟨user, member, holds⟩ := List.any_eq_true.mp other
      simp only [Bool.and_eq_true, decide_eq_true_eq] at holds
      exact Or.inr ⟨user, member, holds.1.1, holds.1.2, holds.2⟩
  have kept : ∀ session ∈ t.sessions, SessionKept session
      (if session ∈ locked.sessions ∧ revokes changed session = true then
        { session with revokedAt := some now } else session) := by
    intro session _
    split
    · rename_i hit
      have unrevoked := (Bool.and_eq_true_iff.mp hit.2).2
      refine ⟨rfl, rfl, rfl, fun was => ?_⟩
      rw [Option.isNone_iff_eq_none.mp unrevoked] at was
      cases was
    · exact SessionKept.refl session
  refine ⟨⟨users, ?_⟩, ?_, ?_⟩
  · cases revoke with
    | true => exact .changed _ kept
    | false => exact SessionsMove.refl _
  · refine ChangeRecorded.of_wrote separate.users { changed with
      rowVersion := changed.rowVersion + 1
      updatedAt := now } known id ?_ rfl rfl id rfl
    exact congrArg (· + 1) version
  · rintro rfl session member owned
    refine ⟨_, List.mem_map_of_mem member, kept session member, ?_⟩
    split
    · rfl
    · rename_i missed
      by_contra open_
      have unrevoked : session.revokedAt = none := by simpa using open_
      refine missed ⟨locks.covered old target rfl session member owned unrevoked, ?_⟩
      simp [revokes, owned, id, unrevoked]

end SkillMind.Users
