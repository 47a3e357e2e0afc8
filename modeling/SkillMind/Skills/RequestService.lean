import SkillMind.Skills.InterpretationRequests

/-!
# The transactions of the interpretation requests

`InterpretationRequestService` reads the session that asked again in every transaction and checks
it again after every wait inside one; a request whose session is no longer valid is revoked there
and then, and stays so although the worker gets no answer.  `finish` alone rolls back, and records
the revocation in a transaction of its own, `expire`.

Readings of the clock, tokens and new identifiers are given with each transaction.  The users and
the Skills change between the transactions as their own services change them.
-/

namespace SkillMind.Skills

open Library Users
open Runs (Uuid Timestamp)

/-- The answer of a transaction on the credentials, with its faults. -/
def credentialed {α : Type} (outcome : Except Users.Fault α) : Except Fault α :=
  outcome.mapError .credentials

theorem credentialed_eq_ok {α : Type} {outcome : Except Users.Fault α} {value : α} :
    credentialed outcome = .ok value ↔ outcome = .ok value := by
  cases outcome <;> simp [credentialed, Except.mapError]

/-- The characters of a hexadecimal hash. -/
def hexDigit (c : Char) : Bool :=
  (decide ('0' ≤ c) && decide (c ≤ '9')) || (decide ('a' ≤ c) && decide (c ≤ 'f'))

/-- The pattern `sha256:[0-9a-f]{64}`. -/
def isExecutionKey (key : String) : Bool :=
  key.toList.take 7 == "sha256:".toList && (key.toList.drop 7).length == 64 &&
    (key.toList.drop 7).all hexDigit

/-- The times at which `accept` checks the credentials: before the source is read, after the
request was looked up, after the execution was looked up, before the row is made, and after each
of the two writes. -/
structure AcceptTimes where
  first : Timestamp
  looked : Timestamp
  searched : Timestamp
  created : Timestamp
  flushed : Timestamp
  dispatched : Timestamp

section Service

variable {J : Type} (settings : InterpretationSettings J)

def sameRequest (existing : SkillInterpretationRequest J) (locked : LockedUsers)
    (skillSourceId : Uuid) (executionKey : String) (checksum : String) : Bool :=
  decide (existing.actorId = locked.actor.id) &&
    decide (existing.authSessionId = locked.currentSession.id) &&
    decide (existing.skillSourceId = skillSourceId) &&
    decide (existing.executionKey = executionKey) &&
    decide (existing.inputChecksum = checksum) &&
    decide (settings.checksum existing.inputJson = checksum)

def accept (t : InterpretationTables J) (access : UserAccess) (requestId skillSourceId : Uuid)
    (executionKey : String) (frozen : J) (times : AcceptTimes) :
    Except Fault (InterpretationRequestSnapshot J × InterpretationTables J) := do
  credentialed (validateUserAccess settings.credentials access)
  require (requestId ≠ 0) (raise .valueError "Interpretation request ID must be a nonzero UUID")
  require (isExecutionKey executionKey = true)
    (raise .valueError "Invalid interpretation execution key")
  let checksum := settings.checksum frozen
  let locked ← credentialed (lockUsers settings.credentials t.users access none false)
  let authorize (now : Timestamp) : Except Fault Unit :=
    credentialed (authorizeUserAccess settings.credentials access locked now true true)
  authorize times.first
  let _ ← getSource t locked.actor.organizationId skillSourceId
  match find t requestId with
  | some existing =>
    authorize times.looked
    require (existing.organizationId = locked.actor.organizationId)
      (raise .interpretationRequestNotFoundError "Interpretation request was not found")
    require (sameRequest settings existing locked skillSourceId executionKey checksum = true)
      (raise .interpretationRequestConflictError "Interpretation request identity conflicts")
    return (existing.snapshot, t)
  | none =>
    authorize times.looked
    match findExecution t locked.actor.organizationId executionKey with
    | some prior =>
      authorize times.searched
      .error (.raised .interpretationRequestConflictError
        "Interpretation execution already has an original request" (some prior.id))
    | none =>
      authorize times.searched
      authorize times.created
      let row : SkillInterpretationRequest J :=
        { id := requestId
          organizationId := locked.actor.organizationId
          actorId := locked.actor.id
          authSessionId := locked.currentSession.id
          acceptedHttpRequestId := access.requestId
          skillSourceId := skillSourceId
          executionKey := executionKey
          inputJson := frozen
          inputChecksum := checksum
          status := .queued
          ownerHash := none
          claimedAt := none
          createdAt := times.created
          finishedAt := none
          interpretationId := none
          errorCode := none }
      let inserted ← insertRequest t row
      authorize times.flushed
      authorize times.dispatched
      return (row.snapshot, { inserted with outbox := inserted.outbox ++ [requestId] })

/-- The session of the request is still there, valid, and one of an administrator. -/
def authorized (locked : Option (User × AuthSession)) (now : Timestamp) : Bool :=
  match locked with
  | none => false
  | some (actor, current) =>
    decide (actor.systemRole = .admin) && sessionStateValid current actor now

/-- `authorize` of `_locked`: whether the session is valid, and the request, revoked if it is not
and the request is active or was when it was locked. -/
def authorize (initialStatus : RequestStatus) (locked : Option (User × AuthSession))
    (row : SkillInterpretationRequest J) (now : Timestamp) :
    SkillInterpretationRequest J × Bool :=
  if authorized locked now = true then (row, true)
  else if row.status.active = true ∨ initialStatus.active = true then
    ({ row with
        status := .revoked
        errorCode := some "authorization_revoked"
        finishedAt := some now }, false)
  else (row, false)

/-- `_locked`: the request with the session that asked, if it is there.  The columns that the
source compares after the lock never change. -/
def lockedRequest (t : InterpretationTables J) (requestId : Uuid) :
    Except Fault (SkillInterpretationRequest J × Option (User × AuthSession)) := do
  let row ← requireRequest t requestId
  return (row,
    (lockSessionReference t.users row.organizationId row.actorId row.authSessionId).toOption)

def owns (row : SkillInterpretationRequest J) (owner : InterpretationRequestOwner J) : Bool :=
  let snapshot := owner.request
  decide (row.id = snapshot.requestId) && decide (row.organizationId = snapshot.organizationId) &&
    decide (row.actorId = snapshot.actorId) &&
    decide (row.authSessionId = snapshot.authSessionId) &&
    decide (row.skillSourceId = snapshot.skillSourceId) &&
    decide (row.executionKey = snapshot.executionKey) &&
    decide (row.inputChecksum = snapshot.inputChecksum) &&
    decide (row.inputChecksum = settings.checksum row.inputJson) &&
    decide (settings.checksum row.inputJson = settings.checksum snapshot.input) &&
    decide (row.ownerHash = some (settings.ownerHash owner.token))

/-! ## The worker -/

def claim (t : InterpretationTables J) (requestId : Uuid) (token : String)
    (first claimedAt last : Timestamp) :
    Except Fault (Option (InterpretationRequestOwner J) × InterpretationTables J) := do
  let (row, locked) ← lockedRequest t requestId
  let (checked, goesOn) := authorize row.status locked row first
  if goesOn = true ∧ checked.status = .queued then
    if checked.inputChecksum ≠ settings.checksum checked.inputJson then
      let failed := { checked with
        status := .failed
        errorCode := some "input_integrity"
        finishedAt := some claimedAt }
      return (none, put t failed)
    else
      let running := { checked with
        ownerHash := some (settings.ownerHash token)
        claimedAt := some claimedAt
        status := .running }
      let (after, still) := authorize row.status locked running last
      return (if still = true then some ⟨after.snapshot, token⟩ else none, put t after)
  else
    return (none, put t checked)

def startCall (t : InterpretationTables J) (owner : InterpretationRequestOwner J) (ordinal : Nat)
    (feedback : Option String) (callId : Uuid) (first second grantedAt last : Timestamp) :
    Except Fault (Option (InterpretationCallPermit J) × InterpretationTables J) := do
  require ((ordinal = 0 ∧ feedback = none) ∨ (ordinal = 1 ∧ feedback.any (· ≠ "") = true))
    (raise .valueError "Invalid interpretation call ordinal or feedback")
  let (row, locked) ← lockedRequest t owner.request.requestId
  let (checked, goesOn) := authorize row.status locked row first
  if goesOn = true ∧ checked.status = .running ∧ owns settings checked owner = true then
    let granted := calls t checked.id
    let (rechecked, continues) := authorize row.status locked checked second
    if continues = true ∧ granted.length = ordinal ∧
        (ordinal = 0 ∨ granted.head?.any (fun call => call.returnedAt.isSome) = true) then
      let inserted ← insertCall t ⟨callId, rechecked.id, ordinal, feedback, grantedAt, none⟩
      let (after, still) := authorize row.status locked rechecked last
      return (if still = true then some ⟨owner, callId, ordinal⟩ else none, put inserted after)
    else
      return (none, put t rechecked)
  else
    return (none, put t checked)

def recordReturn (t : InterpretationTables J) (permit : InterpretationCallPermit J)
    (returnedAt first last : Timestamp) : Except Fault (InterpretationTables J) := do
  let (row, locked) ← lockedRequest t permit.owner.request.requestId
  require (owns settings row permit.owner = true)
    (raise .interpretationRequestDeniedError "Interpretation call owner was rejected")
  let call ← orFault
    (raise .interpretationRequestDeniedError "Interpretation call was not granted")
    ((calls t row.id).find? fun call =>
      decide (call.id = permit.callId) && decide (call.ordinal = permit.ordinal))
  let returned := if call.returnedAt = none then
      { call with returnedAt := some (max returnedAt call.grantedAt) }
    else call
  let checked := (authorize row.status locked row first).1
  let after := (authorize row.status locked checked last).1
  return put { t with
    calls := replaceRow SkillInterpretationCall.id returned t.calls } after

/-- Where a result comes from: a new execution, or one that is there. -/
inductive ResultSource where
  | command (command : SaveModelInterpretationCommand) (interpretationId : Uuid)
  | existing (interpretationId : Uuid)

def bindsCommand (row : SkillInterpretationRequest J)
    (command : SaveModelInterpretationCommand) : Bool :=
  decide (command.organizationId = row.organizationId) &&
    decide (command.skillSourceId = row.skillSourceId) &&
    decide (command.executionKey = row.executionKey) &&
    decide (some command.model = settings.inputModel row.inputJson)

def denied (message : String) : Fault := raise .interpretationRequestDeniedError message

def checkResult (t : InterpretationTables J) (row : SkillInterpretationRequest J)
    (source : ResultSource) : Except Fault Unit :=
  match source with
  | .command command _ => do
    if calls t row.id = [] ∧ command.errorCode ≠ some "unsafe_source" then
      let existing ← findModelInterpretation t row.organizationId row.skillSourceId
        command.interpreterVersion row.executionKey
      require (existing.isSome = true) (denied "Interpretation result has no observed call")
  | .existing _ => return

def storeResult (t : InterpretationTables J) (row : SkillInterpretationRequest J)
    (source : ResultSource) :
    Except Fault (StoredInterpretationExecution × InterpretationTables J) :=
  match source with
  | .command command interpretationId => saveModelInterpretation t command interpretationId
  | .existing interpretationId => do
    let stored ← getModelInterpretation t row.organizationId interpretationId
    require (stored.skillSourceId = row.skillSourceId ∧
        stored.executionKey = row.executionKey ∧
        stored.model = settings.inputModel row.inputJson)
      (denied "Existing interpretation binding was rejected")
    return (stored, t)

def SkillInterpretationRequest.adopted (row : SkillInterpretationRequest J)
    (stored : StoredInterpretationExecution) (now : Timestamp) : SkillInterpretationRequest J :=
  { row with
    interpretationId := some stored.interpretationId
    status := if stored.status = .previewReady then .succeeded else .failed
    errorCode := if stored.status = .previewReady then none
      else some (stored.errorCode.getD "interpretation_failed")
    finishedAt := some now }

/-- The times at which `finish` checks the session, and the end of the request. -/
structure FinishTimes where
  first : Timestamp
  read : Timestamp
  checked : Timestamp
  finishedAt : Timestamp
  last : Timestamp

/-- `finish`.  Without a stored result the worker is denied after the commit. -/
def finish (t : InterpretationTables J) (owner : InterpretationRequestOwner J)
    (source : ResultSource) (times : FinishTimes) :
    Except Fault (Option StoredInterpretationExecution × InterpretationTables J) := do
  let expired := raise .resultAuthorizationExpired "Interpretation request cannot accept a result"
  let (row, locked) ← lockedRequest t owner.request.requestId
  let (checked, goesOn) := authorize row.status locked row times.first
  if goesOn = true ∧ (checked.status = .running ∨ checked.status = .unknown) ∧
      owns settings checked owner = true then
    if let .command command _ := source then
      require (bindsCommand settings checked command = true)
        (denied "Interpretation result binding was rejected")
    require (authorized locked times.read = true) expired
    require (∀ call ∈ calls t checked.id, call.returnedAt ≠ none)
      (denied "Interpretation call return is unknown")
    checkResult t checked source
    require (authorized locked times.checked = true) expired
    let (stored, written) ← storeResult settings t checked source
    require (authorized locked times.last = true) expired
    return (some stored, put written (checked.adopted stored times.finishedAt))
  else
    return (none, put t checked)

/-- The transaction after a `finish` whose session was no longer valid. -/
def expire (t : InterpretationTables J) (requestId : Uuid) (now : Timestamp) :
    Except Fault (InterpretationTables J) := do
  let (row, locked) ← lockedRequest t requestId
  return put t (authorize row.status locked row now).1

def markUnknown (t : InterpretationTables J) (owner : InterpretationRequestOwner J)
    (now : Timestamp) : Except Fault (InterpretationTables J) := do
  let (row, locked) ← lockedRequest t owner.request.requestId
  let (checked, goesOn) := authorize row.status locked row now
  if goesOn = true ∧ checked.status = .running ∧ owns settings checked owner = true then
    return put t { checked with status := .unknown }
  else
    return put t checked

def failBeforeCall (t : InterpretationTables J) (owner : InterpretationRequestOwner J)
    (errorCode : String) (first second finishedAt last : Timestamp) :
    Except Fault (Bool × InterpretationTables J) := do
  require (errorCode ∈ ["input_integrity", "interpreter_unavailable", "source_unavailable"])
    (raise .valueError "Unsupported interpretation preparation failure")
  let (row, locked) ← lockedRequest t owner.request.requestId
  let (checked, goesOn) := authorize row.status locked row first
  if goesOn = true ∧ checked.status = .running ∧ owns settings checked owner = true then
    let (rechecked, continues) := authorize row.status locked checked second
    if continues = true ∧ calls t checked.id = [] then
      let failed := { rechecked with
        status := .failed
        errorCode := some errorCode
        finishedAt := some finishedAt }
      let (after, still) := authorize row.status locked failed last
      return (still, put t after)
    else
      return (false, put t rechecked)
  else
    return (false, put t checked)

/-- `recover_unknown` for one of its candidates. -/
def recoverUnknown (t : InterpretationTables J) (requestId : Uuid) (before now : Timestamp) :
    Except Fault (Bool × InterpretationTables J) := do
  let (row, locked) ← lockedRequest t requestId
  if row.status = .running ∧ row.claimedAt.any (fun claimedAt => claimedAt ≤ before) = true then
    let (checked, goesOn) := authorize row.status locked row now
    return (true, put t (if goesOn = true then { checked with status := .unknown } else checked))
  else
    return (false, t)

inductive InterpretationAction (J : Type) where
  | administer (action : UserAction)
  | changeSkills (sources : List SkillSource) (interpretations : List SkillInterpretation)
  | accept (access : UserAccess) (requestId skillSourceId : Uuid) (executionKey : String)
      (frozen : J) (times : AcceptTimes)
  | claim (requestId : Uuid) (token : String) (first claimedAt last : Timestamp)
  | startCall (owner : InterpretationRequestOwner J) (ordinal : Nat) (feedback : Option String)
      (callId : Uuid) (first second grantedAt last : Timestamp)
  | recordReturn (permit : InterpretationCallPermit J) (returnedAt first last : Timestamp)
  | finish (owner : InterpretationRequestOwner J) (source : ResultSource) (times : FinishTimes)
  | expire (requestId : Uuid) (now : Timestamp)
  | markUnknown (owner : InterpretationRequestOwner J) (now : Timestamp)
  | failBeforeCall (owner : InterpretationRequestOwner J) (errorCode : String)
      (first second finishedAt last : Timestamp)
  | recoverUnknown (requestId : Uuid) (before now : Timestamp)

inductive InterpretationAnswer (J : Type) where
  | administered (answer : UserAnswer)
  | accepted (request : InterpretationRequestSnapshot J)
  | claimed (owner : Option (InterpretationRequestOwner J))
  | started (permit : Option (InterpretationCallPermit J))
  | finished (stored : Option StoredInterpretationExecution)
  | failed (failed : Bool)
  | recovered (changed : Bool)
  | done

/-- The transactions of the ledger, of the users, and whatever else happens to the Skills. -/
def execInterpretation (action : InterpretationAction J) (t : InterpretationTables J) :
    Except Fault (InterpretationAnswer J × InterpretationTables J) :=
  match action with
  | .administer action => do
    let (answer, users) ← credentialed ((userStore settings.credentials).exec action t.users)
    return (.administered answer, { t with users := users })
  | .changeSkills sources interpretations =>
    return (.done, { t with
      sources := sources
      interpretations := interpretations })
  | .accept access requestId skillSourceId executionKey frozen times =>
    answering .accepted
      (accept settings t access requestId skillSourceId executionKey frozen times)
  | .claim requestId token first claimedAt last =>
    answering .claimed (claim settings t requestId token first claimedAt last)
  | .startCall owner ordinal feedback callId first second grantedAt last =>
    answering .started
      (startCall settings t owner ordinal feedback callId first second grantedAt last)
  | .recordReturn permit returnedAt first last => do
    let written ← recordReturn settings t permit returnedAt first last
    return (.done, written)
  | .finish owner source times =>
    answering .finished (finish settings t owner source times)
  | .expire requestId now => do
    let written ← expire t requestId now
    return (.done, written)
  | .markUnknown owner now => do
    let written ← markUnknown settings t owner now
    return (.done, written)
  | .failBeforeCall owner errorCode first second finishedAt last =>
    answering .failed (failBeforeCall settings t owner errorCode first second finishedAt last)
  | .recoverUnknown requestId before now =>
    answering .recovered (recoverUnknown t requestId before now)

/-- The interpretation requests as callers and workers see them. -/
def interpretationStore : TransactionSystem (InterpretationTables J) (InterpretationAction J)
    (InterpretationAnswer J) Fault :=
  ⟨execInterpretation settings⟩

end Service

end SkillMind.Skills
