import SkillMind.Reconciliation.Repository

/-!
# The transactions of the reconciliation requests

`ReconciliationRequestService` reads the session of the user again in every transaction, and
again after every wait inside one; a request whose user has lost the access, whose target has
changed or whose time is over is closed there and then.  What the transactions learn from the
session, the project and the Run is given with each of them, and so is every reading of the
clock.

A worker that is denied after the commit gets an empty answer.  The retry of `finish` that
records the loss of the access is a transaction of its own, `fail`.
-/

namespace SkillMind.Reconciliation

open Library
open Runs (Uuid Timestamp)

/-- What a transaction learns before it locks the request: whether the session and the project
of the user are there, and the target the Run has now. -/
structure Visit where
  access : Except Fault Unit
  target : Except Fault EffectReconciliationTarget

/-- One reading of the clock, with the state of the session. -/
structure Look where
  valid : Bool
  now : Timestamp

/-- The user who asks, with the waits of `accept` at which the access is checked again. -/
structure Asking where
  organizationId : Uuid
  actorId : Uuid
  sessionId : Uuid
  httpRequestId : Uuid
  beforeProject : Except Fault Timestamp
  project : Except Fault Unit
  beforeReturn : Except Fault Timestamp
  beforeCreate : Except Fault Timestamp
  afterCreate : Except Fault Timestamp

/-- The target of the effect; an effect that is not there is reported as such. -/
def originalTarget (target : Except Fault EffectReconciliationTarget) :
    Except Fault EffectReconciliationTarget :=
  match target with
  | .ok known => .ok known
  | .error fault =>
    if fault.error = .lookupError then
      .error ⟨.requestNotFoundError, "Original effect was not found"⟩
    else .error fault

section Service

variable {R : Type} (settings : ReconciliationSettings R)

/-- The user asks for a lookup, or asks again under the same identifier. -/
def accept (tables : ReconciliationTables) (asking : Except Fault Asking)
    (requestId projectId runId effectExecutionId : Uuid)
    (target : Except Fault EffectReconciliationTarget) :
    Except Fault (ReconciliationRequestSnapshot × ReconciliationTables) := do
  require (∀ value ∈ [requestId, projectId, runId, effectExecutionId], value ≠ 0)
    ⟨.valueError, "Reconciliation identity is invalid"⟩
  let user ← asking
  let _ ← user.beforeProject
  user.project
  let reference : EffectReconciliationReference :=
    ⟨user.organizationId, user.actorId, user.sessionId, projectId, runId, effectExecutionId⟩
  match find tables requestId with
  | some existing =>
    let _ ← user.beforeReturn
    require (existing.organizationId = reference.organizationId)
      ⟨.requestNotFoundError, "Reconciliation request was not found"⟩
    require (existing.reference = reference)
      ⟨.requestConflictError, "Reconciliation request identity conflicts"⟩
    return (existing.snapshot, tables)
  | none =>
    let known ← originalTarget target
    let now ← user.beforeCreate
    let (row, created) ← create settings tables requestId reference user.httpRequestId known now
    let _ ← user.afterCreate
    return (row.snapshot, created)

/-- A request under its lock, with the target and why it has to be closed. -/
structure Locked where
  row : EffectReconciliationRequest
  target : Option EffectReconciliationTarget
  failure : Option FailureCode

/-- `_locked`.  The columns that the source compares after the lock never change, and a session
that was not found leaves the same failure as one that is not valid. -/
def locked (tables : ReconciliationTables) (requestId : Uuid) (visit : Visit)
    (loadTarget : Bool) : Except Fault Locked := do
  let row ← requireRequest tables requestId
  match visit.access with
  | .error fault =>
    require (fault.error = .unauthorizedSessionError ∨ fault.error = .projectNotFoundError)
      fault
    return ⟨row, none, some .authorizationRevoked⟩
  | .ok () =>
    if loadTarget = false then
      return ⟨row, none, none⟩
    match visit.target with
    | .error fault =>
      require (fault.error = .valueError ∨ fault.error = .lookupError) fault
      return ⟨row, none, some .targetChanged⟩
    | .ok target =>
      return ⟨row, some target,
        if settings.targetChecksum target = row.targetChecksum then none
        else some .targetChanged⟩

/-- A request waits in the queue for this long. -/
def queueTimeoutSeconds : Nat := 1800

/-- Why a request has to be closed now. -/
def closeReason (row : EffectReconciliationRequest) (failure : Option FailureCode)
    (look : Look) : Option FailureCode :=
  let reason := if look.valid then failure else some .authorizationRevoked
  match reason with
  | some code => some code
  | none =>
    if row.status = .running ∧ row.leased look.now = false then some .lookupInterrupted
    else if row.status = .queued ∧ row.createdAt + queueTimeoutSeconds ≤ look.now then
      some .lookupInterrupted
    else none

/-- The check after each wait: the request, closed if it has to be, and whether to go on. -/
def authorize (row : EffectReconciliationRequest) (failure : Option FailureCode) (look : Look) :
    EffectReconciliationRequest × Bool :=
  match closeReason row failure look with
  | some code => (fail row code look.now, false)
  | none => (row, true)

/-- The end of a transaction that wrote one request. -/
def put (tables : ReconciliationTables) (row : EffectReconciliationRequest) :
    Except Fault ReconciliationTables := do
  flush row
  return { tables with
    requests := replaceRow EffectReconciliationRequest.id row tables.requests }

/-- The first worker becomes the owner of the request. -/
def claimRequest (tables : ReconciliationTables) (requestId : Uuid) (visit : Visit)
    (first : Look) (token : String) (now : Timestamp) (last : Look) :
    Except Fault (Option ReconciliationRequestOwner × ReconciliationTables) := do
  let ⟨row, _, failure⟩ ← locked settings tables requestId visit true
  let (checked, goesOn) := authorize row failure first
  if goesOn then
    let (claimed, owner) ← claim settings checked token now
    flush claimed
    let (after, still) := authorize claimed failure last
    let written ← put tables after
    return (if still then owner else none, written)
  let written ← put tables checked
  return (none, written)

/-- The owner asks whether it may still read; without an answer it may not. -/
def authorizeOwner (tables : ReconciliationTables) (owner : ReconciliationRequestOwner)
    (visit : Visit) (first : Look) (now : Timestamp) :
    Except Fault (Option EffectReconciliationTarget × ReconciliationTables) := do
  let ⟨row, target, failure⟩ ← locked settings tables owner.request.requestId visit true
  let (checked, goesOn) := authorize row failure first
  if goesOn then
    requireOwner settings checked owner now false
    let written ← put tables checked
    return (target, written)
  let written ← put tables checked
  return (none, written)

/-- The desktop that waits for a confirmed operation is released. -/
def releaseDesktop (leases : List McpDesktopLease) (target : EffectReconciliationTarget)
    (status : ObservationStatus) : Except Fault (List McpDesktopLease) := do
  let waits (lease : McpDesktopLease) : Bool :=
    lease.runId = target.command.runId ∧ lease.pendingEffectId = some target.command.effectId
  if target.command.commandClass = .mcpOperation ∧ status = .confirmed then
    require (leases.countP waits ≤ 1) ⟨.multipleResultsFound, "mcp_desktop_leases"⟩
    return leases.map fun lease =>
      if waits lease then { lease with pendingEffectId := none } else lease
  return leases

/-- The owner records what it observed. -/
def finishRequest (tables : ReconciliationTables) (owner : ReconciliationRequestOwner)
    (observation : EffectReconciliationObservation R) (visit : Visit) (first : Look)
    (now : Timestamp) (last : Look) (commit : Timestamp) :
    Except Fault (Option ReconciliationRequestSnapshot × ReconciliationTables) := do
  let ⟨row, target, failure⟩ ← locked settings tables owner.request.requestId visit true
  let (checked, goesOn) := authorize row failure first
  match goesOn, target with
  | true, some known =>
    let finished ← finish settings checked owner observation known now
    let leases ← releaseDesktop tables.desktopLeases known observation.status
    flush finished
    let (after, still) := authorize finished failure last
    require (still = true ∧ (checked.status ≠ .succeeded → after.leased commit))
      ⟨.resultAuthorizationLost, ""⟩
    let written ← put { tables with desktopLeases := leases } after
    return (some after.snapshot, written)
  | _, _ =>
    let written ← put tables checked
    return (none, written)

/-- The owner stops reading. -/
def failRequest (tables : ReconciliationTables) (owner : ReconciliationRequestOwner)
    (code : FailureCode) (visit : Visit) (now : Timestamp) (first : Look) (later : Timestamp) :
    Except Fault ReconciliationTables := do
  let ⟨row, _, failure⟩ ← locked settings tables owner.request.requestId visit false
  requireOwner settings row owner now true
  let (checked, goesOn) := authorize row failure first
  put tables (if goesOn then fail checked code later else checked)

/-- `recover_expired` for one of its candidates. -/
def recoverExpired (tables : ReconciliationTables) (requestId : Uuid) (visit : Visit)
    (first : Look) : Except Fault (Bool × ReconciliationTables) := do
  let ⟨row, _, failure⟩ ← locked settings tables requestId visit false
  let (checked, _) := authorize row failure first
  let written ← put tables checked
  return (row.status.active && row.status ≠ checked.status, written)

inductive ReconciliationAction (R : Type) where
  | accept (asking : Except Fault Asking) (requestId projectId runId effectExecutionId : Uuid)
      (target : Except Fault EffectReconciliationTarget)
  | claim (requestId : Uuid) (visit : Visit) (first : Look) (token : String) (now : Timestamp)
      (last : Look)
  | authorize (owner : ReconciliationRequestOwner) (visit : Visit) (first : Look)
      (now : Timestamp)
  | finish (owner : ReconciliationRequestOwner) (observation : EffectReconciliationObservation R)
      (visit : Visit) (first : Look) (now : Timestamp) (last : Look) (commit : Timestamp)
  | fail (owner : ReconciliationRequestOwner) (code : FailureCode) (visit : Visit)
      (now : Timestamp) (first : Look) (later : Timestamp)
  | recoverExpired (requestId : Uuid) (visit : Visit) (first : Look)

inductive ReconciliationAnswer where
  | accepted (request : ReconciliationRequestSnapshot)
  | claimed (owner : Option ReconciliationRequestOwner)
  | authorized (target : Option EffectReconciliationTarget)
  | finished (request : Option ReconciliationRequestSnapshot)
  | failed
  | recovered (changed : Bool)

def execReconciliation (action : ReconciliationAction R) (tables : ReconciliationTables) :
    Except Fault (ReconciliationAnswer × ReconciliationTables) :=
  match action with
  | .accept asking requestId projectId runId effectExecutionId target =>
    answering .accepted
      (accept settings tables asking requestId projectId runId effectExecutionId target)
  | .claim requestId visit first token now last =>
    answering .claimed (claimRequest settings tables requestId visit first token now last)
  | .authorize owner visit first now =>
    answering .authorized (authorizeOwner settings tables owner visit first now)
  | .finish owner observation visit first now last commit =>
    answering .finished
      (finishRequest settings tables owner observation visit first now last commit)
  | .fail owner code visit now first later => do
    let written ← failRequest settings tables owner code visit now first later
    return (.failed, written)
  | .recoverExpired requestId visit first =>
    answering .recovered (recoverExpired settings tables requestId visit first)

/-- The reconciliation requests as users and workers see them. -/
def reconciliationStore : TransactionSystem ReconciliationTables (ReconciliationAction R)
    ReconciliationAnswer Fault :=
  ⟨execReconciliation settings⟩

end Service

end SkillMind.Reconciliation
