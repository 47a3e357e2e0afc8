import SkillMind.Library.Table
import SkillMind.Library.Transaction
import SkillMind.Runs.Domain

/-!
# Reconciliation requests

A user asks for a lookup of an effect whose outcome is unknown; one worker claims the request,
looks at the target and records what it observed.  This module has the rows and the operations
of `ReconciliationRequestRepository`; they run inside the transactions of the request service.

A receipt of the target is kept by its canonical text, as the repository compares it.
-/

namespace SkillMind.Reconciliation

open Library
open Runs (Uuid Timestamp)

/-- The exception classes the transactions raise. -/
inductive ErrorClass where
  | valueError
  | lookupError
  | integrityError
  | multipleResultsFound
  | unauthorizedSessionError
  | projectNotFoundError
  | requestNotFoundError
  | requestConflictError
  | effectReconciliationDeniedError
  | resultAuthorizationLost
  | otherError
  deriving DecidableEq

structure Fault where
  error : ErrorClass
  message : String

structure EffectReconciliationReference where
  organizationId : Uuid
  actorId : Uuid
  authSessionId : Uuid
  projectId : Uuid
  runId : Uuid
  effectExecutionId : Uuid
  deriving DecidableEq

/-- The classes of commands an effect can have sent. -/
inductive CommandClass where
  | databaseWrite
  | objectWrite
  | gitCommit
  | mcpOperation
  | documentManagement
  deriving DecidableEq

/-- What the commands have in common; the checksum is `checksum` of a database write and
`request_checksum` of the others. -/
structure EffectCommand where
  commandClass : CommandClass
  projectId : Uuid
  runId : Uuid
  effectId : Uuid
  checksum : String

structure EffectReconciliationTarget where
  proposalId : Uuid
  bindingId : Uuid
  proposalChecksum : String
  provider : String
  providerVersion : String
  command : EffectCommand
  configJson : String
  secretReferenceId : Option Uuid

inductive ReconciliationKind where
  | databaseTransaction
  | documentObject
  | gitCommit
  | mcpOperation
  deriving DecidableEq

def reconciliationKind (target : EffectReconciliationTarget) : ReconciliationKind :=
  match target.command.commandClass with
  | .mcpOperation => .mcpOperation
  | .gitCommit => .gitCommit
  | .documentManagement => .databaseTransaction
  | .databaseWrite => .databaseTransaction
  | .objectWrite => .documentObject

inductive ObservationStatus where
  | confirmed
  | notObserved
  | conflict
  deriving DecidableEq

/-- One observation; `R` is the type of the receipts. -/
structure EffectReconciliationObservation (R : Type) where
  effectExecutionId : Uuid
  kind : ReconciliationKind
  status : ObservationStatus
  observedAt : Timestamp
  requestChecksum : String
  receipt : Option R

/-- The functions the requests are compared with: the hash of an owner token, the checksum of a
target, and the canonical text of a receipt that its command admits. -/
structure ReconciliationSettings (R : Type) where
  leaseTokenHash : String → String
  targetChecksum : EffectReconciliationTarget → String
  receiptDocument : EffectCommand → R → Except Fault String

def reconciliationReceiptJson {R : Type} (settings : ReconciliationSettings R)
    (observation : EffectReconciliationObservation R) (target : EffectReconciliationTarget) :
    Except Fault (Option String) := do
  require (observation.effectExecutionId = target.command.effectId ∧
      observation.requestChecksum = target.command.checksum ∧
      observation.kind = reconciliationKind target)
    ⟨.valueError, "Reconciliation observation target does not match"⟩
  if observation.status ∈ [.notObserved, .conflict] then
    require observation.receipt.isNone
      ⟨.valueError, "Unconfirmed observation cannot contain a receipt"⟩
    return none
  let receipt ← orFault ⟨.valueError, "Original receipt is invalid"⟩ observation.receipt
  let document ← settings.receiptDocument target.command receipt
  require (document.utf8ByteSize ≤ 2097152)
    ⟨.valueError, "Original receipt exceeds its size limit"⟩
  return some document

/-! ## Requests -/

inductive RequestStatus where
  | queued
  | running
  | succeeded
  | failed
  | revoked
  deriving DecidableEq

def RequestStatus.active (status : RequestStatus) : Bool := status ∈ [.queued, .running]

inductive FailureCode where
  | lookupUnavailable
  | lookupInterrupted
  | authorizationRevoked
  | targetChanged
  deriving DecidableEq

structure EffectReconciliationRequest where
  id : Uuid
  organizationId : Uuid
  actorId : Uuid
  authSessionId : Uuid
  acceptedHttpRequestId : Uuid
  projectId : Uuid
  runId : Uuid
  effectExecutionId : Uuid
  targetChecksum : String
  commandChecksum : String
  kind : ReconciliationKind
  status : RequestStatus
  ownerHash : Option String
  claimedAt : Option Timestamp
  leaseExpiresAt : Option Timestamp
  createdAt : Timestamp
  finishedAt : Option Timestamp
  observationStatus : Option ObservationStatus
  observedAt : Option Timestamp
  receiptJson : Option String
  errorCode : Option FailureCode

def EffectReconciliationRequest.ownerCheck (row : EffectReconciliationRequest) : Bool :=
  match row.ownerHash, row.claimedAt, row.leaseExpiresAt with
  | none, none, none => true
  | some _, some claimedAt, some leaseExpiresAt =>
    decide (row.createdAt ≤ claimedAt ∧ claimedAt < leaseExpiresAt)
  | _, _, _ => false

def EffectReconciliationRequest.stateCheck (row : EffectReconciliationRequest) : Bool :=
  match row.status with
  | .queued => row.ownerHash.isNone && row.finishedAt.isNone && row.observationStatus.isNone &&
      row.observedAt.isNone && row.receiptJson.isNone && row.errorCode.isNone
  | .running => row.ownerHash.isSome && row.finishedAt.isNone && row.observationStatus.isNone &&
      row.observedAt.isNone && row.receiptJson.isNone && row.errorCode.isNone
  | .succeeded =>
    match row.claimedAt, row.leaseExpiresAt, row.finishedAt, row.observedAt,
      row.observationStatus with
    | some claimedAt, some leaseExpiresAt, some finishedAt, some observedAt, some status =>
      row.ownerHash.isSome && row.errorCode.isNone &&
        decide (claimedAt ≤ observedAt ∧ observedAt ≤ finishedAt ∧
          finishedAt < leaseExpiresAt) &&
        (row.receiptJson.isSome == decide (status = .confirmed))
    | _, _, _, _, _ => false
  | .failed | .revoked =>
    match row.finishedAt with
    | some finishedAt => decide (row.createdAt ≤ finishedAt) && row.observationStatus.isNone &&
        row.observedAt.isNone && row.receiptJson.isNone && row.errorCode.isSome
    | none => false

def EffectReconciliationRequest.wellFormed (row : EffectReconciliationRequest) : Bool :=
  row.ownerCheck && row.stateCheck

/-- A flush; the checks of the table hold afterwards. -/
def flush (row : EffectReconciliationRequest) : Except Fault Unit :=
  require row.wellFormed ⟨.integrityError, "effect_reconciliation_requests check"⟩

structure McpDesktopLease where
  endpointHash : String
  runId : Uuid
  pendingEffectId : Option Uuid

structure ReconciliationTables where
  requests : List EffectReconciliationRequest
  desktopLeases : List McpDesktopLease
  /-- The requests whose dispatch is in the outbox. -/
  outbox : List Uuid

def ReconciliationTables.empty : ReconciliationTables := ⟨[], [], []⟩

def EffectReconciliationRequest.reference (row : EffectReconciliationRequest) :
    EffectReconciliationReference :=
  ⟨row.organizationId, row.actorId, row.authSessionId, row.projectId, row.runId,
    row.effectExecutionId⟩

structure ReconciliationRequestSnapshot where
  requestId : Uuid
  reference : EffectReconciliationReference
  targetChecksum : String
  commandChecksum : String
  kind : ReconciliationKind
  status : RequestStatus
  createdAt : Timestamp
  finishedAt : Option Timestamp
  observationStatus : Option ObservationStatus
  observedAt : Option Timestamp
  errorCode : Option FailureCode

def EffectReconciliationRequest.snapshot (row : EffectReconciliationRequest) :
    ReconciliationRequestSnapshot :=
  ⟨row.id, row.reference, row.targetChecksum, row.commandChecksum, row.kind, row.status,
    row.createdAt, row.finishedAt, row.observationStatus, row.observedAt, row.errorCode⟩

/-- The one worker that saw the claim commit holds the token. -/
structure ReconciliationRequestOwner where
  request : ReconciliationRequestSnapshot
  token : String

section Operations

variable {R : Type} (settings : ReconciliationSettings R)

def find (tables : ReconciliationTables) (requestId : Uuid) :
    Option EffectReconciliationRequest :=
  tables.requests.find? fun row => row.id = requestId

/-- `require`. -/
def requireRequest (tables : ReconciliationTables) (requestId : Uuid) :
    Except Fault EffectReconciliationRequest :=
  orFault ⟨.requestNotFoundError, "Reconciliation request was not found"⟩ (find tables requestId)

def create (tables : ReconciliationTables) (requestId : Uuid)
    (reference : EffectReconciliationReference) (acceptedHttpRequestId : Uuid)
    (target : EffectReconciliationTarget) (now : Timestamp) :
    Except Fault (EffectReconciliationRequest × ReconciliationTables) := do
  require (∀ value ∈ [requestId, acceptedHttpRequestId, reference.organizationId,
      reference.actorId, reference.authSessionId, reference.projectId, reference.runId,
      reference.effectExecutionId], value ≠ 0)
    ⟨.valueError, "Reconciliation request identity is invalid"⟩
  require (reference.projectId = target.command.projectId ∧
      reference.runId = target.command.runId ∧
      reference.effectExecutionId = target.command.effectId)
    ⟨.valueError, "Reconciliation reference does not match its target"⟩
  require (∀ row ∈ tables.requests, row.effectExecutionId = reference.effectExecutionId →
      row.status.active = false)
    ⟨.requestConflictError, "Original effect has an active lookup"⟩
  let row : EffectReconciliationRequest :=
    { id := requestId
      organizationId := reference.organizationId
      actorId := reference.actorId
      authSessionId := reference.authSessionId
      acceptedHttpRequestId := acceptedHttpRequestId
      projectId := reference.projectId
      runId := reference.runId
      effectExecutionId := reference.effectExecutionId
      targetChecksum := settings.targetChecksum target
      commandChecksum := target.command.checksum
      kind := reconciliationKind target
      status := .queued
      ownerHash := none
      claimedAt := none
      leaseExpiresAt := none
      createdAt := now
      finishedAt := none
      observationStatus := none
      observedAt := none
      receiptJson := none
      errorCode := none }
  require (∀ other ∈ tables.requests, other.id ≠ requestId)
    ⟨.integrityError, "effect_reconciliation_requests key"⟩
  return (row,
    { tables with
      requests := tables.requests ++ [row]
      outbox := tables.outbox ++ [requestId] })

/-- `claim`: a queued request gets its owner. -/
def claim (row : EffectReconciliationRequest) (token : String) (now : Timestamp) :
    Except Fault (EffectReconciliationRequest × Option ReconciliationRequestOwner) := do
  if row.status ≠ .queued then
    return (row, none)
  require (32 ≤ token.length) ⟨.valueError, "Reconciliation owner token is invalid"⟩
  let claimed :=
    { row with
      status := .running
      ownerHash := some (settings.leaseTokenHash token)
      claimedAt := some now
      leaseExpiresAt := some (now + 60) }
  return (claimed, some ⟨claimed.snapshot, token⟩)

/-- The lease of the request has not run out. -/
def EffectReconciliationRequest.leased (row : EffectReconciliationRequest) (now : Timestamp) :
    Bool :=
  match row.leaseExpiresAt with
  | some expiry => decide (now < expiry)
  | none => false

def requireOwner (row : EffectReconciliationRequest) (owner : ReconciliationRequestOwner)
    (now : Timestamp) (completed : Bool) : Except Fault Unit :=
  let expected := owner.request
  require (row.id = expected.requestId ∧ row.reference = expected.reference ∧
      row.targetChecksum = expected.targetChecksum ∧
      row.commandChecksum = expected.commandChecksum ∧ row.kind = expected.kind ∧
      row.createdAt = expected.createdAt ∧
      row.ownerHash = some (settings.leaseTokenHash owner.token) ∧
      (completed = false → row.status = .running ∧ row.leased now))
    ⟨.effectReconciliationDeniedError, "Reconciliation owner is no longer valid"⟩

/-- `finish`: the observation is stored once; the same one may be sent again. -/
def finish (row : EffectReconciliationRequest) (owner : ReconciliationRequestOwner)
    (observation : EffectReconciliationObservation R) (target : EffectReconciliationTarget)
    (now : Timestamp) : Except Fault EffectReconciliationRequest := do
  let replay := decide (row.status = .succeeded)
  requireOwner settings row owner now replay
  require (settings.targetChecksum target = row.targetChecksum)
    ⟨.requestConflictError, "Accepted reconciliation target changed"⟩
  let receipt ← reconciliationReceiptJson settings observation target
  if replay then
    require (row.observationStatus = some observation.status ∧
        row.observedAt = some observation.observedAt ∧ row.receiptJson = receipt)
      ⟨.requestConflictError, "Original reconciliation result changed"⟩
    return row
  let claimedAt ← orFault ⟨.valueError, "Reconciliation observation time is invalid"⟩
    row.claimedAt
  require (claimedAt ≤ observation.observedAt ∧ observation.observedAt ≤ now)
    ⟨.valueError, "Reconciliation observation time is invalid"⟩
  return { row with
    status := .succeeded
    finishedAt := some now
    observationStatus := some observation.status
    observedAt := some observation.observedAt
    receiptJson := receipt
    errorCode := none }

/-- `fail`: an active request is closed. -/
def fail (row : EffectReconciliationRequest) (code : FailureCode) (now : Timestamp) :
    EffectReconciliationRequest :=
  if row.status.active then
    { row with
      status := if code = .authorizationRevoked then .revoked else .failed
      finishedAt := some now
      errorCode := some code }
  else row

end Operations

end SkillMind.Reconciliation
