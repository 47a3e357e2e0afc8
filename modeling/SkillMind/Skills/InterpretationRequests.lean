import Mathlib.Data.List.Sort
import SkillMind.Users.Administration

/-!
# Interpretation requests

An administrator asks for the interpretation of a Skill source; one worker claims the request and
gets a permit for each paid call of the model.  This module has the rows of the ledger with the
reads of `InterpretationRequestRepository`, and the part of `SkillRepository` that a request
finishes with.

`J` is the type of the frozen inputs.  The owner token of a worker is kept by its hash.
-/

namespace SkillMind.Skills

open Library Users
open Runs (Uuid Timestamp)

inductive ErrorClass where
  | valueError
  | integrityError
  | multipleResultsFound
  | skillSourceNotFoundError
  | skillInterpretationNotFoundError
  | interpretationRequestConflictError
  | interpretationRequestDeniedError
  | interpretationRequestNotFoundError
  | resultAuthorizationExpired

/-- What a transaction raises; the faults of the credentials are passed on. -/
inductive Fault where
  | raised (error : ErrorClass) (message : String) (existingRequestId : Option Uuid)
  | credentials (fault : Users.Fault)

def raise (error : ErrorClass) (message : String) : Fault := .raised error message none

/-! ## Rows -/

inductive RequestStatus where
  | queued
  | running
  | unknown
  | succeeded
  | failed
  | revoked
  deriving DecidableEq

def RequestStatus.active : RequestStatus → Bool
  | .queued | .running | .unknown => true
  | .succeeded | .failed | .revoked => false

structure SkillInterpretationRequest (J : Type) where
  id : Uuid
  organizationId : Uuid
  actorId : Uuid
  authSessionId : Uuid
  acceptedHttpRequestId : Uuid
  skillSourceId : Uuid
  executionKey : String
  inputJson : J
  inputChecksum : String
  status : RequestStatus
  ownerHash : Option String
  claimedAt : Option Timestamp
  createdAt : Timestamp
  finishedAt : Option Timestamp
  interpretationId : Option Uuid
  errorCode : Option String

structure SkillInterpretationCall where
  id : Uuid
  requestId : Uuid
  ordinal : Nat
  feedback : Option String
  grantedAt : Timestamp
  returnedAt : Option Timestamp

structure SkillSource where
  id : Uuid
  organizationId : Uuid

inductive SkillInterpretationStatus where
  | analyzing
  | previewReady
  | superseded
  | failed
  deriving DecidableEq

/-- An interpretation; its checksum column is the execution key. -/
structure SkillInterpretation where
  id : Uuid
  skillSourceId : Uuid
  interpreterVersion : String
  model : Option String
  status : SkillInterpretationStatus
  errorCode : Option String
  checksum : String

/-- The users, the Skills and the ledger; `outbox` has the dispatched requests. -/
structure InterpretationTables (J : Type) where
  users : UserTables
  sources : List SkillSource
  interpretations : List SkillInterpretation
  requests : List (SkillInterpretationRequest J)
  calls : List SkillInterpretationCall
  outbox : List Uuid

/-- The tables before the first user. -/
def InterpretationTables.opened (J : Type) (organizations : List Uuid) : InterpretationTables J :=
  ⟨UserTables.opened organizations, [], [], [], [], []⟩

structure InterpretationRequestSnapshot (J : Type) where
  requestId : Uuid
  organizationId : Uuid
  actorId : Uuid
  authSessionId : Uuid
  skillSourceId : Uuid
  executionKey : String
  inputChecksum : String
  input : J
  status : RequestStatus
  createdAt : Timestamp
  interpretationId : Option Uuid
  errorCode : Option String

/-- The secret of the worker that saw its claim commit. -/
structure InterpretationRequestOwner (J : Type) where
  request : InterpretationRequestSnapshot J
  token : String

structure InterpretationCallPermit (J : Type) where
  owner : InterpretationRequestOwner J
  callId : Uuid
  ordinal : Nat

structure SaveModelInterpretationCommand where
  organizationId : Uuid
  skillSourceId : Uuid
  executionKey : String
  interpreterVersion : String
  model : String
  status : SkillInterpretationStatus
  errorCode : Option String

structure StoredInterpretationExecution where
  interpretationId : Uuid
  skillSourceId : Uuid
  status : SkillInterpretationStatus
  model : Option String
  executionKey : String
  errorCode : Option String
  reused : Bool

/-- The hashes and the model entry of an input, with the functions of the credentials. -/
structure InterpretationSettings (J : Type) where
  credentials : CredentialSettings
  checksum : J → String
  ownerHash : String → String
  inputModel : J → Option String

section Repository

variable {J : Type}

def SkillInterpretationRequest.snapshot (row : SkillInterpretationRequest J) :
    InterpretationRequestSnapshot J :=
  { requestId := row.id
    organizationId := row.organizationId
    actorId := row.actorId
    authSessionId := row.authSessionId
    skillSourceId := row.skillSourceId
    executionKey := row.executionKey
    inputChecksum := row.inputChecksum
    input := row.inputJson
    status := row.status
    createdAt := row.createdAt
    interpretationId := row.interpretationId
    errorCode := row.errorCode }

/-! ## The ledger -/

def find (t : InterpretationTables J) (requestId : Uuid) :
    Option (SkillInterpretationRequest J) :=
  t.requests.find? fun row => decide (row.id = requestId)

/-- `require`. -/
def requireRequest (t : InterpretationTables J) (requestId : Uuid) :
    Except Fault (SkillInterpretationRequest J) :=
  orFault (raise .interpretationRequestNotFoundError "Interpretation request was not found")
    (find t requestId)

def findExecution (t : InterpretationTables J) (organizationId : Uuid) (executionKey : String) :
    Option (SkillInterpretationRequest J) :=
  t.requests.find? fun row =>
    decide (row.organizationId = organizationId) && decide (row.executionKey = executionKey)

/-- `calls`, in the order of their ordinals. -/
def calls (t : InterpretationTables J) (requestId : Uuid) : List SkillInterpretationCall :=
  (t.calls.filter fun call => decide (call.requestId = requestId)).insertionSort
    fun call other => call.ordinal ≤ other.ordinal

/-- A new request, under the keys of the table. -/
def insertRequest (t : InterpretationTables J) (row : SkillInterpretationRequest J) :
    Except Fault (InterpretationTables J) := do
  require (∀ other ∈ t.requests, other.id ≠ row.id ∧
      (other.organizationId, other.executionKey) ≠ (row.organizationId, row.executionKey))
    (raise .integrityError "uq_interpret_request_execution")
  return { t with requests := t.requests ++ [row] }

/-- A new call, under the keys of the table. -/
def insertCall (t : InterpretationTables J) (call : SkillInterpretationCall) :
    Except Fault (InterpretationTables J) := do
  require (∀ other ∈ t.calls, other.id ≠ call.id ∧
      (other.requestId, other.ordinal) ≠ (call.requestId, call.ordinal))
    (raise .integrityError "uq_interpret_call_request_ordinal")
  return { t with calls := t.calls ++ [call] }

/-- The end of a transaction that wrote one request. -/
def put (t : InterpretationTables J) (row : SkillInterpretationRequest J) :
    InterpretationTables J :=
  { t with requests := replaceRow SkillInterpretationRequest.id row t.requests }

def getSource (t : InterpretationTables J) (organizationId skillSourceId : Uuid) :
    Except Fault SkillSource :=
  orFault (raise .skillSourceNotFoundError "SkillSource not found")
    (t.sources.find? fun source =>
      decide (source.id = skillSourceId) && decide (source.organizationId = organizationId))

def toStoredExecution (row : SkillInterpretation) (reused : Bool) :
    StoredInterpretationExecution :=
  ⟨row.id, row.skillSourceId, row.status, row.model, row.checksum, row.errorCode, reused⟩

def findModelInterpretation (t : InterpretationTables J) (organizationId skillSourceId : Uuid)
    (interpreterVersion executionKey : String) :
    Except Fault (Option StoredInterpretationExecution) := do
  let source ← getSource t organizationId skillSourceId
  let rows := t.interpretations.filter fun row =>
    decide (row.skillSourceId = source.id) &&
      decide (row.interpreterVersion = interpreterVersion) &&
      decide (row.checksum = executionKey)
  require (rows.length ≤ 1) (raise .multipleResultsFound "skill_interpretations")
  return rows.head?.map fun row => toStoredExecution row true

/-- `save_model_interpretation`: an execution that is there is used again. -/
def saveModelInterpretation (t : InterpretationTables J)
    (command : SaveModelInterpretationCommand) (interpretationId : Uuid) :
    Except Fault (StoredInterpretationExecution × InterpretationTables J) := do
  let existing ← findModelInterpretation t command.organizationId command.skillSourceId
    command.interpreterVersion command.executionKey
  match existing with
  | some stored => return (stored, t)
  | none =>
    require (∀ other ∈ t.interpretations, other.id ≠ interpretationId)
      (raise .integrityError "skill_interpretations key")
    let row : SkillInterpretation :=
      { id := interpretationId
        skillSourceId := command.skillSourceId
        interpreterVersion := command.interpreterVersion
        model := some command.model
        status := command.status
        errorCode := command.errorCode
        checksum := command.executionKey }
    return (toStoredExecution row false, { t with
      interpretations := t.interpretations ++ [row] })

def getModelInterpretation (t : InterpretationTables J) (organizationId interpretationId : Uuid) :
    Except Fault StoredInterpretationExecution := do
  let missing := raise .skillInterpretationNotFoundError "SkillInterpretation not found"
  let row ← orFault missing
    (t.interpretations.find? fun row => decide (row.id = interpretationId))
  let _ ← orFault missing (t.sources.find? fun source =>
    decide (source.id = row.skillSourceId) && decide (source.organizationId = organizationId))
  return toStoredExecution row false

end Repository

end SkillMind.Skills
