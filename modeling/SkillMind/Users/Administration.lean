import SkillMind.Users.Security

/-!
# The administration over whole runs

Each transaction that commits leaves an administrator behind, accepted a token that names a
session that is not revoked, and records its change of a user in one version and one event. A run
repeats this, so that no later request presents a session again that a change or a revocation
covered.
-/

namespace SkillMind.Users

open Library
open Runs (Uuid Timestamp)

variable {settings : CredentialSettings} {t t' : UserTables} {access : UserAccess}

/-! ## What each transaction does -/

def UserAction.presents : UserAction → Option String
  | .createUser access .. | .updateUser access .. | .revokeSessions access ..
  | .changePassword access .. | .createKey access .. | .revokeKey access .. =>
    some access.sessionToken
  | .authenticateSession token _ | .authenticateUnsafeSession token .. | .logout token ..
  | .authenticateKey token _ => some token
  | .bootstrap .. | .login .. => none

def UserAction.changes : UserAction → Option Uuid
  | .createUser _ _ userId .. | .updateUser _ userId .. | .revokeSessions _ userId ..
  | .bootstrap _ _ userId .. => some userId
  | .changePassword access .. => some access.userId
  | .login .. | .authenticateSession .. | .authenticateUnsafeSession .. | .logout ..
  | .authenticateKey .. | .createKey .. | .revokeKey .. => none

/-- An update that asks for the name, the role and the status the user already has. -/
def UserAction.NoOp (settings : CredentialSettings) (t : UserTables) : UserAction → Prop
  | .updateUser _ userId command .. => ∃ user ∈ t.users, user.id = userId ∧
      (user.displayName, user.systemRole, user.status) =
        (settings.stripped command.displayName, command.systemRole, command.status)
  | _ => False

/-- The change of the role or the status, of the password, or the revocation covers the session. -/
def UserAction.Covers (settings : CredentialSettings) (t : UserTables) (session : AuthSession) :
    UserAction → Prop
  | .updateUser _ userId command .. => session.userId = userId ∧
      ∃ user ∈ t.users, user.id = userId ∧
        (user.systemRole, user.status) ≠ (command.systemRole, command.status)
  | .revokeSessions _ userId .. => session.userId = userId
  | .changePassword access .. => session.userId = access.userId
  | .logout token .. => session.tokenHash = settings.hashSessionSecret token
  | .revokeKey _ keyId .. => session.id = keyId
  | _ => False

/-- What a committed transaction leaves behind. -/
structure Committed (settings : CredentialSettings) (action : UserAction) (t t' : UserTables) :
    Prop where
  move : TablesMove t t'
  presented : ∀ token, action.presents = some token → Presented settings t token
  recorded : ∀ userId, action.changes = some userId → ¬ action.NoOp settings t →
    ChangeRecorded t t' userId
  unrecorded : action.changes = none → Unrecorded t t'
  noOp : action.NoOp settings t → t' = t
  revoked : ∀ session ∈ t.sessions, action.Covers settings t session →
    ∃ later ∈ t'.sessions, SessionKept session later ∧ later.revokedAt.isSome = true

theorem validateDisplayName_eq_ok {value name : String}
    (valid : validateDisplayName settings value = .ok name) : name = settings.stripped value := by
  simp only [validateDisplayName, bind_eq_ok, require_eq_ok, exists_unit, pure_eq_ok] at valid
  exact valid.2.symm

variable {now : Timestamp} {result : UserMutationResult}

theorem createUser_commits {command : CreateUserCommand} {userId : Uuid} {before : Timestamp}
    (creates : createUser settings t access command userId before now = .ok (result, t')) :
    Committed settings (.createUser access command userId before now) t t' := by
  simp only [createUser, bind_eq_ok, require_eq_ok, exists_unit, pure_eq_ok, Prod.mk.injEq]
    at creates
  obtain ⟨_, -, locked, enters, -, -, inserted, inserts, _, appends, -, rfl⟩ := creates
  obtain ⟨fresh, rfl⟩ := insertUser_eq_ok inserts
  obtain rfl := appendEvent_eq_ok appends
  refine ⟨⟨.added _ fresh, SessionsMove.refl _⟩, ?_, ?_, ?_, False.elim, fun _ _ => False.elim⟩
  · rintro token ⟨⟩
    exact (transaction_eq_ok enters).presented
  · rintro _ ⟨⟩ -
    exact ChangeRecorded.of_added fresh rfl rfl rfl rfl rfl
  · rintro ⟨⟩

theorem bootstrap_commits {organizationId userId requestId id : Uuid} {command : CreateUserCommand}
    (creates : bootstrap settings t organizationId command userId requestId now = .ok (id, t')) :
    Committed settings (.bootstrap organizationId command userId requestId now) t t' := by
  simp only [bootstrap, bind_eq_ok, require_eq_ok, exists_unit, pure_eq_ok, Prod.mk.injEq]
    at creates
  obtain ⟨_, -, -, -, inserted, inserts, _, appends, -, rfl⟩ := creates
  obtain ⟨fresh, rfl⟩ := insertUser_eq_ok inserts
  obtain rfl := appendEvent_eq_ok appends
  refine ⟨⟨.added _ fresh, SessionsMove.refl _⟩, ?_, ?_, ?_, False.elim, fun _ _ => False.elim⟩
  · rintro token ⟨⟩
  · rintro _ ⟨⟩ -
    exact ChangeRecorded.of_added fresh rfl rfl rfl rfl rfl
  · rintro ⟨⟩

theorem updateUser_commits (separate : Separate t) {userId : Uuid} {command : UpdateUserCommand}
    {before : Timestamp}
    (updates : updateUser settings t access userId command before now = .ok (result, t')) :
    Committed settings (.updateUser access userId command before now) t t' := by
  simp only [updateUser, bind_eq_ok, exists_unit] at updates
  obtain ⟨-, name, valid, locked, enters, old, found, updates⟩ := updates
  obtain rfl := validateDisplayName_eq_ok valid
  have locks := transaction_eq_ok enters
  have target := targetOf_eq_ok found
  obtain ⟨known, asked⟩ := locks.target old target
  obtain rfl : old.id = userId := Option.some.inj asked
  have presented : ∀ token,
      (UserAction.updateUser access old.id command before now).presents = some token →
      Presented settings t token := by
    rintro token ⟨⟩
    exact locks.presented
  split at updates
  · rename_i same
    simp only [pure_eq_ok, Prod.mk.injEq] at updates
    obtain ⟨-, rfl⟩ := updates
    refine ⟨⟨.same, SessionsMove.refl _⟩, presented, ?_, ?_, fun _ => rfl, ?_⟩
    · rintro _ ⟨⟩ differs
      exact absurd ⟨old, known, rfl, same⟩ differs
    · rintro ⟨⟩
    · rintro session member ⟨-, user, userMem, id, differs⟩
      rw [separate.users.eq_of_key userMem known id] at differs
      exact absurd (congrArg Prod.snd same) differs
  · rename_i differs
    simp only [bind_eq_ok, require_eq_ok, exists_unit] at updates
    obtain ⟨retained, -, finishes⟩ := updates
    have finished := finish_moves separate locks target finishes rfl rfl rfl fun active => by
      by_cases stays : command.systemRole = .admin ∧ command.status = .active
      · exact Or.inl (by simp [User.activeAdmin, stays.1, stays.2])
      · exact Or.inr (retained (by simpa [active, imp_iff_not_or] using stays))
    refine ⟨finished.move, presented, ?_, ?_, ?_, ?_⟩
    · rintro _ ⟨⟩ -
      exact finished.recorded
    · rintro ⟨⟩
    · rintro ⟨user, userMem, id, same⟩
      rw [separate.users.eq_of_key userMem known id] at same
      exact absurd same differs
    · rintro session member ⟨owned, user, userMem, id, changes⟩
      rw [separate.users.eq_of_key userMem known id] at changes
      exact finished.revoked (decide_eq_true changes) session member owned

theorem revokeSessions_commits (separate : Separate t) {userId : Uuid} {expectedRowVersion : Nat}
    {before : Timestamp}
    (revokes : revokeSessions settings t access userId expectedRowVersion before now =
      .ok (result, t')) :
    Committed settings (.revokeSessions access userId expectedRowVersion before now) t t' := by
  simp only [revokeSessions, bind_eq_ok, exists_unit] at revokes
  obtain ⟨-, locked, enters, old, found, -, finishes⟩ := revokes
  have locks := transaction_eq_ok enters
  have target := targetOf_eq_ok found
  obtain rfl : old.id = userId := Option.some.inj (locks.target old target).2
  have finished := finish_moves separate locks target finishes rfl rfl rfl Or.inl
  refine ⟨finished.move, ?_, ?_, ?_, False.elim, finished.revoked rfl⟩
  · rintro token ⟨⟩
    exact locks.presented
  · rintro _ ⟨⟩ -
    exact finished.recorded
  · rintro ⟨⟩

theorem changePassword_commits (separate : Separate t) {currentPassword newPassword : String}
    {expectedRowVersion : Nat} {before : Timestamp}
    (changes : changePassword settings t access currentPassword newPassword expectedRowVersion
      before now = .ok (result, t')) :
    Committed settings (.changePassword access currentPassword newPassword expectedRowVersion
      before now) t t' := by
  simp only [changePassword, bind_eq_ok, require_eq_ok, exists_unit] at changes
  obtain ⟨-, -, -, locked, enters, old, found, -, -, finishes⟩ := changes
  have locks := transaction_eq_ok enters
  have target := targetOf_eq_ok found
  have asked : old.id = access.userId := Option.some.inj (locks.target old target).2
  have finished := finish_moves separate locks target finishes rfl rfl rfl Or.inl
  refine ⟨finished.move, ?_, ?_, ?_, False.elim, ?_⟩
  · rintro token ⟨⟩
    exact locks.presented
  · rintro _ ⟨⟩ -
    exact asked ▸ finished.recorded
  · rintro ⟨⟩
  · rintro session member owned
    exact finished.revoked rfl session member (owned.trans asked.symm)

theorem login_commits (separate : Separate t) {email password token proof : String}
    {admission : Except Fault Unit} {sessionId id : Uuid}
    (logins : login settings t email password admission sessionId token proof now =
      .ok (id, t')) :
    Committed settings (.login email password admission sessionId token proof now) t t' := by
  simp only [login, bind_eq_ok, orFault_eq_ok, require_eq_ok, exists_unit, pure_eq_ok,
    Prod.mk.injEq] at logins
  obtain ⟨_, -, -, -, user, first, -, opened, inserts, -, rfl⟩ := logins
  have known : user ∈ t.users := List.mem_of_mem_filter (List.mem_of_mem_head? first)
  obtain ⟨fresh, rfl⟩ := insertSession_eq_ok inserts
  refine ⟨⟨.wrote user _ known rfl rfl Or.inl, .opened _ fresh⟩, ?_, ?_, ?_, False.elim,
    fun _ _ => False.elim⟩
  · rintro token ⟨⟩
  · rintro _ ⟨⟩
  · rintro -
    exact Unrecorded.of_wrote separate.users known rfl rfl rfl rfl

theorem committed_of_replaced (separate : Separate t) {action : UserAction} {old : AuthSession}
    (new : AuthSession) (known : old ∈ t.sessions) (kept : SessionKept old new)
    (written : t' = { t with sessions := replaceRow AuthSession.id new t.sessions })
    (presented : ∀ token, action.presents = some token → Presented settings t token)
    (changes : action.changes = none) (noOp : ¬ action.NoOp settings t)
    (covered : ∀ session ∈ t.sessions, action.Covers settings t session →
      session = old ∧ new.revokedAt.isSome = true) : Committed settings action t t' := by
  subst written
  refine ⟨⟨.same, .replaced separate.sessions known kept⟩, presented, ?_,
    fun _ => Unrecorded.of_same rfl rfl, fun holds => absurd holds noOp, ?_⟩
  · intro userId some
    rw [changes] at some
    cases some
  · intro session member covers
    obtain ⟨rfl, revoked⟩ := covered session member covers
    exact ⟨new, mem_replaceRow_self known kept.id.symm, kept, revoked⟩

theorem authenticateSession_commits (separate : Separate t) {token : String}
    {id : Uuid} (authenticates : authenticateSession settings t token now = .ok (id, t')) :
    Committed settings (.authenticateSession token now) t t' := by
  simp only [authenticateSession, bind_eq_ok, Prod.exists, pure_eq_ok, Prod.mk.injEq]
    at authenticates
  obtain ⟨_, _, _, loads, -, rfl⟩ := authenticates
  obtain ⟨old, known, hash, unrevoked, rfl, written⟩ := loadActiveSession_eq_ok loads
  refine committed_of_replaced separate _ known (old.seen_kept now) written ?_ rfl not_false
    fun _ _ => False.elim
  rintro _ ⟨⟩
  exact ⟨old, known, hash, unrevoked⟩

theorem authenticateUnsafeSession_commits (separate : Separate t) {token csrfToken : String}
    {id : Uuid}
    (authenticates : authenticateUnsafeSession settings t token csrfToken now = .ok (id, t')) :
    Committed settings (.authenticateUnsafeSession token csrfToken now) t t' := by
  simp only [authenticateUnsafeSession, bind_eq_ok, Prod.exists, exists_unit, pure_eq_ok,
    Prod.mk.injEq] at authenticates
  obtain ⟨_, _, _, loads, -, -, rfl⟩ := authenticates
  obtain ⟨old, known, hash, unrevoked, rfl, written⟩ := loadActiveSession_eq_ok loads
  refine committed_of_replaced separate _ known (old.seen_kept now) written ?_ rfl not_false
    fun _ _ => False.elim
  rintro _ ⟨⟩
  exact ⟨old, known, hash, unrevoked⟩

theorem logout_commits (separate : Separate t) {token csrfToken : String} {later : Timestamp}
    {id : Uuid} (leaves : logout settings t token csrfToken now later = .ok (id, t')) :
    Committed settings (.logout token csrfToken now later) t t' := by
  simp only [logout, bind_eq_ok, Prod.exists, exists_unit, pure_eq_ok, Prod.mk.injEq] at leaves
  obtain ⟨session, _, _, loads, -, -, rfl⟩ := leaves
  obtain ⟨old, known, hash, unrevoked, rfl, rfl⟩ := loadActiveSession_eq_ok loads
  have seen : SessionKept old (old.seen settings now) := old.seen_kept now
  refine committed_of_replaced separate { old.seen settings now with revokedAt := some later } known
    ⟨seen.id, seen.userId, seen.tokenHash, fun was => ?_⟩ ?_ ?_ rfl not_false ?_
  · rw [unrevoked] at was
    cases was
  · dsimp only
    rw [replaceRow_replaceRow]
    rfl
  · rintro _ ⟨⟩
    exact ⟨old, known, hash, unrevoked⟩
  · rintro session member covers
    exact ⟨separate.sessions.2.eq_of_key member known (covers.trans hash.symm), rfl⟩

theorem authenticateKey_commits (separate : Separate t) {token : String}
    {id : Uuid} (authenticates : authenticateKey settings t token now = .ok (id, t')) :
    Committed settings (.authenticateKey token now) t t' := by
  simp only [authenticateKey, bind_eq_ok, orFault_eq_ok, require_eq_ok, exists_unit, pure_eq_ok,
    Prod.mk.injEq] at authenticates
  obtain ⟨_, -, old, search, _, -, -, credentials, -, rfl⟩ := authenticates
  have known := List.mem_of_find?_eq_some search
  obtain ⟨unrevoked, hash, -⟩ := validateSessionCredentials_eq_ok credentials
  refine committed_of_replaced separate _ known ?_ rfl ?_ rfl not_false fun _ _ => False.elim
  · split <;> exact ⟨rfl, rfl, rfl, fun _ => rfl⟩
  · rintro _ ⟨⟩
    exact ⟨old, known, hash, unrevoked⟩

theorem createKey_commits {name token proof : String} {keyId id : Uuid} {later : Timestamp}
    (creates : createKey settings t access name keyId token proof now later = .ok (id, t')) :
    Committed settings (.createKey access name keyId token proof now later) t t' := by
  simp only [createKey, bind_eq_ok, require_eq_ok, exists_unit, pure_eq_ok, Prod.mk.injEq]
    at creates
  obtain ⟨-, locked, enters, opened, inserts, -, -, rfl⟩ := creates
  obtain ⟨fresh, rfl⟩ := insertSession_eq_ok inserts
  refine ⟨⟨.same, .opened _ fresh⟩, ?_, ?_, fun _ => Unrecorded.of_same rfl rfl, False.elim,
    fun _ _ => False.elim⟩
  · rintro _ ⟨⟩
    exact (transaction_eq_ok enters).presented
  · rintro _ ⟨⟩

theorem revokeKey_commits (separate : Separate t) {keyId id : Uuid} {later : Timestamp}
    (revokes : revokeKey settings t access keyId now later = .ok (id, t')) :
    Committed settings (.revokeKey access keyId now later) t t' := by
  simp only [revokeKey, bind_eq_ok, orFault_eq_ok, exists_unit] at revokes
  obtain ⟨-, locked, locks, _, -, credential, search, authorized, finishes⟩ := revokes
  have known := List.mem_of_find?_eq_some search
  have asked := List.find?_some search
  rw [decide_eq_true_eq] at asked
  have written : t' = { t with
      sessions := replaceRow AuthSession.id
        (if credential.revokedAt.isNone then { credential with revokedAt := some now }
          else credential) t.sessions } := by
    split at finishes
    all_goals
      simp only [bind_eq_ok, exists_unit, pure_eq_ok, Prod.mk.injEq] at finishes
      simp only [finishes]
  refine committed_of_replaced separate _ known ?_ written ?_ rfl not_false
    fun session member covers => ?_
  · split
    · rename_i open_
      refine ⟨rfl, rfl, rfl, fun was => ?_⟩
      rw [Option.isNone_iff_eq_none.mp open_] at was
      cases was
    · exact SessionKept.refl _
  · rintro _ ⟨⟩
    exact (lockUsers_eq_ok locks authorized).presented
  · refine ⟨separate.sessions.1.eq_of_key member known (covers.trans asked.symm), ?_⟩
    split
    · rfl
    · rename_i closed
      simpa [Option.isSome_iff_ne_none] using closed

theorem execUser_commits (separate : Separate t) {action : UserAction} {answer : UserAnswer}
    (commit : execUser settings action t = .ok (answer, t')) : Committed settings action t t' := by
  cases action with
  | createUser access command userId before now =>
    obtain ⟨_, creates, -⟩ := answering_eq_ok.mp commit
    exact createUser_commits creates
  | updateUser access userId command before now =>
    obtain ⟨_, updates, -⟩ := answering_eq_ok.mp commit
    exact updateUser_commits separate updates
  | revokeSessions access userId expectedRowVersion before now =>
    obtain ⟨_, revokes, -⟩ := answering_eq_ok.mp commit
    exact revokeSessions_commits separate revokes
  | changePassword access currentPassword newPassword expectedRowVersion before now =>
    obtain ⟨_, changes, -⟩ := answering_eq_ok.mp commit
    exact changePassword_commits separate changes
  | bootstrap organizationId command userId requestId now =>
    obtain ⟨_, creates, -⟩ := answering_eq_ok.mp commit
    exact bootstrap_commits creates
  | login email password admission sessionId token proof now =>
    obtain ⟨_, logins, -⟩ := answering_eq_ok.mp commit
    exact login_commits separate logins
  | authenticateSession token now =>
    obtain ⟨_, authenticates, -⟩ := answering_eq_ok.mp commit
    exact authenticateSession_commits separate authenticates
  | authenticateUnsafeSession token csrfToken now =>
    obtain ⟨_, authenticates, -⟩ := answering_eq_ok.mp commit
    exact authenticateUnsafeSession_commits separate authenticates
  | logout token csrfToken now later =>
    obtain ⟨_, leaves, -⟩ := answering_eq_ok.mp commit
    exact logout_commits separate leaves
  | authenticateKey token now =>
    obtain ⟨_, authenticates, -⟩ := answering_eq_ok.mp commit
    exact authenticateKey_commits separate authenticates
  | createKey access name keyId token proof now later =>
    obtain ⟨_, creates, -⟩ := answering_eq_ok.mp commit
    exact createKey_commits creates
  | revokeKey access keyId now later =>
    obtain ⟨_, revokes, -⟩ := answering_eq_ok.mp commit
    exact revokeKey_commits separate revokes

/-! ## Runs -/

theorem TablesMove.separate (move : TablesMove t t') (separate : Separate t) : Separate t' :=
  ⟨move.users.keyed separate.users, move.sessions.separate separate.sessions⟩

theorem separate_opened (organizations : List Uuid) : Separate (UserTables.opened organizations) :=
  ⟨List.nodup_nil, List.nodup_nil, List.nodup_nil⟩

theorem separate_invariant : (userStore settings).Invariant Separate :=
  fun _ _ _ _ separate commit => (execUser_commits separate commit).move.separate separate

def RevokedToken (tokenHash : String) (t : UserTables) : Prop :=
  Separate t ∧ ∃ session ∈ t.sessions, session.tokenHash = tokenHash ∧
    session.revokedAt.isSome = true

theorem revokedToken_invariant (tokenHash : String) :
    (userStore settings).Invariant (RevokedToken tokenHash) := by
  rintro t action answer t' ⟨separate, session, member, hash, revoked⟩ commit
  have move := (execUser_commits separate commit).move
  obtain ⟨later, known, kept⟩ := move.sessions.kept member
  refine ⟨move.separate separate, later, known, kept.tokenHash.trans hash, ?_⟩
  rw [kept.revoked revoked]
  exact revoked

theorem RevokedToken.refused {token : String}
    (revoked : RevokedToken (settings.hashSessionSecret token) t) {action : UserAction}
    (presents : action.presents = some token) :
    ∃ fault, (userStore settings).exec action t = .error fault := by
  obtain ⟨separate, session, member, hash, closed⟩ := revoked
  cases outcome : (userStore settings).exec action t with
  | error fault => exact ⟨fault, rfl⟩
  | ok result =>
    obtain ⟨other, otherMem, otherHash, unrevoked⟩ :=
      (execUser_commits separate outcome).presented token presents
    rw [separate.sessions.2.eq_of_key member otherMem (hash.trans otherHash.symm), unrevoked]
      at closed
    cases closed

theorem hasAdmin_invariant (organizationId : Uuid) :
    (userStore settings).Invariant fun t => Separate t ∧ HasAdmin organizationId t.users := by
  rintro t action answer t' ⟨separate, has⟩ commit
  have move := (execUser_commits separate commit).move
  exact ⟨move.separate separate, move.users.hasAdmin separate.users has⟩

/-- **The last administrator stays, a revocation is final, and every change is counted once.** -/
theorem administration_final (settings : CredentialSettings) (organizations : List Uuid)
    {t : UserTables}
    (reached : (userStore settings).Reachable (UserTables.opened organizations) t) :
    (∀ organizationId actions, HasAdmin organizationId t.users →
      HasAdmin organizationId ((userStore settings).run t actions).users) ∧
    (∀ action answer t', (userStore settings).exec action t = .ok (answer, t') →
      (∀ session ∈ t.sessions, action.Covers settings t session →
        ∀ actions later token, UserAction.presents later = some token →
          session.tokenHash = settings.hashSessionSecret token →
          ∃ fault, (userStore settings).exec later ((userStore settings).run t' actions) =
            .error fault) ∧
      (∀ userId, action.changes = some userId → ¬ action.NoOp settings t →
        ChangeRecorded t t' userId) ∧
      (action.NoOp settings t → t' = t) ∧
      (action.changes = none → Unrecorded t t')) ∧
    (∀ action fault, (userStore settings).exec action t = .error fault →
      (userStore settings).step t action = t) := by
  have separate := separate_invariant.reachable (separate_opened organizations) reached
  refine ⟨fun organizationId actions has => ?_, fun action answer t' commit => ?_,
    fun action fault refused => (userStore settings).step_of_fault refused⟩
  · exact ((hasAdmin_invariant organizationId).run ⟨separate, has⟩ actions).2
  · have committed := execUser_commits separate commit
    refine ⟨?_, committed.recorded, committed.noOp, committed.unrecorded⟩
    intro session member covers actions later token presents hash
    obtain ⟨closed, known, kept, revoked⟩ := committed.revoked session member covers
    have start : RevokedToken (settings.hashSessionSecret token) t' :=
      ⟨committed.move.separate separate, closed, known, kept.tokenHash.trans hash, revoked⟩
    exact ((revokedToken_invariant _).run start actions).refused presents

/-- Credentials that show what they are made of. -/
def sampleSettings : CredentialSettings where
  hashSessionSecret secret := secret
  isApiKey _ := false
  deriveSessionCsrf token := some token
  deriveApiKeyProof _ := none
  verifyPassword hash password := (hash == password, false)
  hashPassword password := password
  normalizeEmail value := some value
  stripped value := value
  idleSeconds := 1800
  absoluteSeconds := 43200
  adminAbsoluteSeconds := 28800

/-- The first administrator is made and logs in. -/
def sampleRun : List UserAction :=
  [.bootstrap 1 ⟨"a@b.example", "Admin", .admin, "password-1"⟩ 2 3 100,
    .login "a@b.example" "password-1" (.ok ()) 4 "token" "token" 110]

def sampleRevocation : UserAction := .revokeSessions ⟨2, 1, 5, "token", "token"⟩ 2 1 120 121

/-- After the sessions of the sample are revoked, its token is refused in every later run. -/
theorem administration_final_sample :
    let t := (userStore sampleSettings).run (UserTables.opened [1]) sampleRun
    (∀ actions, HasAdmin 1 ((userStore sampleSettings).run t actions).users) ∧
      ∃ answer t', (userStore sampleSettings).exec sampleRevocation t = .ok (answer, t') ∧
        ∀ actions now, ∃ fault, (userStore sampleSettings).exec (.authenticateSession "token" now)
          ((userStore sampleSettings).run t' actions) = .error fault := by
  intro t
  obtain ⟨administrator, committed, -⟩ :=
    administration_final sampleSettings [1] (t := t) ⟨sampleRun, rfl⟩
  refine ⟨fun actions => administrator 1 actions ?_, ?_⟩
  · unfold HasAdmin
    decide
  · have accepted : ((userStore sampleSettings).exec sampleRevocation t).isOk = true := by
      decide
    cases outcome : (userStore sampleSettings).exec sampleRevocation t with
    | error fault =>
      rw [outcome] at accepted
      cases accepted
    | ok result =>
      obtain ⟨answer, t'⟩ := result
      refine ⟨answer, t', rfl, fun actions now => ?_⟩
      have known : ∃ session ∈ t.sessions, session.userId = 2 ∧ session.tokenHash = "token" := by
        decide
      obtain ⟨session, member, owned, hash⟩ := known
      exact (committed _ answer t' outcome).1 session member owned actions
        (.authenticateSession "token" now) "token" rfl hash

end SkillMind.Users
