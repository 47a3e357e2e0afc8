import SkillMind.Effects.StoredProposal
import SkillMind.Library.Commit
import SkillMind.Library.Evolution

/-!
# The audit of tool calls

Every use of a tool by the model is one row of `tool_calls`, known by its Run and the identifier
the SDK gave it.  `PostgresToolAuditWriter` starts a row when the use is authorized, and ends it
with the result or a failure; whoever asks for a row that is there already gets a lease that does
not authorize an execution.

Each transaction holds the lock of the Run and validates the lease of its worker, the cancellation
and the readiness of documents. The outcome of these checks is an argument, as is the outcome of
the checks of a publication.
-/

namespace SkillMind.Agent

open Library SkillMind.Core
open Runs (Uuid)
open Effects (sha256Hex sameValue)

/-- `ValueError` or `LookupError` of the writer. -/
structure AuditError where
  message : String

/-- A tool of the Run.  The schema is kept by its canonical text. -/
structure RegisteredTool where
  capability : String
  sdkName : String
  provider : String
  integrationId : Option Uuid
  inputSchema : String
  readOnly : Bool
  bindingId : Option Uuid
  resourceKey : Option String
  deriving DecidableEq

structure ResourceIdentity where
  resourceKey : String
  bindingId : Option Uuid
  integrationId : Option Uuid
  provider : String
  deriving DecidableEq

def resourceIdentity (tool : RegisteredTool) : Option ResourceIdentity :=
  tool.resourceKey.map fun key => ⟨key, tool.bindingId, tool.integrationId, tool.provider⟩

def invocationFingerprint (library : StandardLibrary) (toolName : String)
    (arguments : List (String × Json)) : String :=
  sha256Hex library
    (canonicalJson (.object [("tool_name", .string toolName), ("arguments", .object arguments)]))

structure ToolInvocation where
  runId : Uuid
  runAttemptId : Uuid
  agentSessionId : Uuid
  sdkToolUseId : String
  tool : RegisteredTool
  arguments : List (String × Json)
  requestFingerprint : String

/-! ## Rows -/

inductive ToolCallStatus where
  | running
  | succeeded
  | failed
  | denied
  deriving DecidableEq

structure ToolFailure where
  code : String
  retryable : Bool

/-- `[a-z][a-z0-9_]\x7b0,63\x7d` as a whole. -/
def isFailureCode (code : String) : Bool :=
  match code.toList with
  | [] => false
  | first :: rest =>
    ('a' ≤ first && first ≤ 'z') && rest.length ≤ 63 &&
      rest.all fun c => ('a' ≤ c && c ≤ 'z') || c.isDigit || c == '_'

/-- A row of `tool_calls`. -/
structure ToolCallRow where
  id : Uuid
  runId : Uuid
  runAttemptId : Uuid
  agentSessionId : Uuid
  sdkToolUseId : String
  requestFingerprint : String
  toolName : String
  capability : String
  provider : String
  integrationId : Option Uuid
  resource : Option ResourceIdentity
  status : ToolCallStatus
  durationMs : Option Nat
  result : Option Json
  error : Option ToolFailure

inductive PermissionOutcome where
  | autoAllow
  | deny

/-- A row of `permission_decisions`. -/
structure PermissionDecision where
  toolCallId : Uuid
  decision : PermissionOutcome
  reason : String
  requestFingerprint : String

structure AuditTables where
  calls : List ToolCallRow
  decisions : List PermissionDecision

/-- What a gateway gets for a use of a tool. -/
structure ToolAuditLease where
  toolCallId : Uuid
  status : ToolCallStatus
  result : Option Json
  invocation : ToolInvocation
  isNew : Bool

structure WorkerClaim where
  runId : Uuid
  runAttemptId : Uuid
  /-- The session goes on from the one of an earlier attempt. -/
  resumes : Bool
  parentSdkSessionId : Option Uuid
  parentRunAttemptId : Option Uuid

/-- What a transaction reads elsewhere: whether its worker may still act, and the attempts of the
Run. -/
structure AuditReading where
  gate : Except AuditError Unit
  attempts : List Uuid

section Writer

variable (library : StandardLibrary) (claim : WorkerClaim)

def snapshotInvocation (invocation : ToolInvocation) : Except AuditError Unit :=
  require (invocation.runId = claim.runId ∧ invocation.runAttemptId = claim.runAttemptId ∧
      invocation.agentSessionId ≠ 0 ∧ invocation.sdkToolUseId ≠ "" ∧
      invocation.sdkToolUseId.length ≤ 128 ∧
      invocation.requestFingerprint =
        invocationFingerprint library invocation.tool.sdkName invocation.arguments)
    ⟨"Tool invocation does not match original Worker authority"⟩

/-- The row is the one of the invocation. -/
structure SameCall (call : ToolCallRow) (invocation : ToolInvocation) : Prop where
  run : call.runId = invocation.runId
  session : call.agentSessionId = invocation.agentSessionId
  toolUse : call.sdkToolUseId = invocation.sdkToolUseId
  tool : call.toolName = invocation.tool.sdkName
  capability : call.capability = invocation.tool.capability
  provider : call.provider = invocation.tool.provider
  integration : call.integrationId = invocation.tool.integrationId
  fingerprint : call.requestFingerprint = invocation.requestFingerprint
  resource : invocation.tool.resourceKey ≠ none →
    call.resource = resourceIdentity invocation.tool

instance (call : ToolCallRow) (invocation : ToolInvocation) :
    Decidable (SameCall call invocation) :=
  decidable_of_iff
    (call.runId = invocation.runId ∧ call.agentSessionId = invocation.agentSessionId ∧
      call.sdkToolUseId = invocation.sdkToolUseId ∧ call.toolName = invocation.tool.sdkName ∧
      call.capability = invocation.tool.capability ∧
      call.provider = invocation.tool.provider ∧
      call.integrationId = invocation.tool.integrationId ∧
      call.requestFingerprint = invocation.requestFingerprint ∧
      (invocation.tool.resourceKey ≠ none → call.resource = resourceIdentity invocation.tool))
    ⟨fun ⟨run, session, toolUse, tool, capability, provider, integration, fingerprint, resource⟩ =>
        ⟨run, session, toolUse, tool, capability, provider, integration, fingerprint, resource⟩,
      fun same => ⟨same.run, same.session, same.toolUse, same.tool, same.capability,
        same.provider, same.integration, same.fingerprint, same.resource⟩⟩

/-- `_verify_tool_identity`: a row of another attempt is only read by the session that goes on
from it, and only when it succeeded. -/
def verifyToolIdentity (reading : AuditReading) (call : ToolCallRow)
    (invocation : ToolInvocation) : Except AuditError Unit := do
  require (SameCall call invocation) ⟨"ToolCall does not match its original invocation"⟩
  require (call.runAttemptId = invocation.runAttemptId ∨
      (call.status = .succeeded ∧ claim.resumes = true ∧
        claim.parentSdkSessionId = some invocation.agentSessionId ∧
        claim.parentRunAttemptId ≠ none ∧ call.runAttemptId ∈ reading.attempts))
    ⟨"ToolCall belongs to another RunAttempt"⟩

/-- `_find`. -/
def findCall (tables : AuditTables) (invocation : ToolInvocation) : Option ToolCallRow :=
  tables.calls.find? fun call =>
    call.runId = invocation.runId ∧ call.sdkToolUseId = invocation.sdkToolUseId

def newToolCall (invocation : ToolInvocation) (id : Uuid) (status : ToolCallStatus) :
    ToolCallRow where
  id := id
  runId := invocation.runId
  runAttemptId := invocation.runAttemptId
  agentSessionId := invocation.agentSessionId
  sdkToolUseId := invocation.sdkToolUseId
  requestFingerprint := invocation.requestFingerprint
  toolName := invocation.tool.sdkName
  capability := invocation.tool.capability
  provider := invocation.tool.provider
  integrationId := invocation.tool.integrationId
  resource := resourceIdentity invocation.tool
  status := status
  durationMs := none
  result := none
  error := none

/-- The row is added with its decision, unless its key is used. -/
def addCall (tables : AuditTables) (call : ToolCallRow) (decision : PermissionOutcome)
    (reason : String) : Except AuditError AuditTables := do
  require (∀ other ∈ tables.calls, other.id ≠ call.id ∧
      ¬ (other.runId = call.runId ∧ other.sdkToolUseId = call.sdkToolUseId))
    ⟨"duplicate key value violates unique constraint"⟩
  return ⟨tables.calls ++ [call],
    tables.decisions ++ [⟨call.id, decision, reason, call.requestFingerprint⟩]⟩

def startAuthorized (tables : AuditTables) (invocation : ToolInvocation) (id : Uuid)
    (reading : AuditReading) : Except AuditError (ToolAuditLease × AuditTables) := do
  snapshotInvocation library claim invocation
  reading.gate
  match findCall tables invocation with
  | some existing => do
    verifyToolIdentity claim reading existing invocation
    return (⟨existing.id, existing.status, existing.result, invocation, false⟩, tables)
  | none => do
    let tables ← addCall tables (newToolCall invocation id .running) .autoAllow
      "Registered Skillmind scoped tool"
    return (⟨id, .running, none, invocation, true⟩, tables)

def recordDenied (tables : AuditTables) (invocation : ToolInvocation) (reason : String)
    (id : Uuid) (reading : AuditReading) : Except AuditError AuditTables := do
  snapshotInvocation library claim invocation
  reading.gate
  match findCall tables invocation with
  | some existing => do
    verifyToolIdentity claim reading existing invocation
    return tables
  | none =>
    addCall tables (newToolCall invocation id .denied) .deny
      (String.ofList (reason.toList.take 500))

def lockTool (tables : AuditTables) (lease : ToolAuditLease) (reading : AuditReading) :
    Except AuditError ToolCallRow := do
  let call ← orFault ⟨"ToolCall is unavailable"⟩
    (tables.calls.find? fun call => call.id = lease.toolCallId)
  verifyToolIdentity claim reading call lease.invocation
  return call

/-- `verify_dispatch`: one new execution, or the saved success; `artifacts` is the outcome of the
check of the artifacts a success has published. -/
def verifyDispatch (tables : AuditTables) (lease : ToolAuditLease) (reading : AuditReading)
    (artifacts : Except AuditError Unit) : Except AuditError Unit := do
  snapshotInvocation library claim lease.invocation
  reading.gate
  let call ← lockTool claim tables lease reading
  if call.status = .succeeded then
    require (lease.status = .succeeded ∧ sameValue call.result lease.result = true ∧
        call.result.isSome = true)
      ⟨"Tool replay does not match its saved result"⟩
    artifacts
  else
    require (call.status = .running ∧ lease.status = .running ∧ lease.isNew = true)
      ⟨"Tool invocation does not authorize another dispatch"⟩

/-- `complete`: the saved result.  `publication` is the outcome of the checks of the evidence and
the artifacts. -/
def completeCall (tables : AuditTables) (lease : ToolAuditLease) (result : Json)
    (durationMs : Nat) (reading : AuditReading) (publication : Except AuditError Unit) :
    Except AuditError (Json × AuditTables) := do
  snapshotInvocation library claim lease.invocation
  reading.gate
  let call ← lockTool claim tables lease reading
  match call.status, call.result with
  | .succeeded, some saved => return (saved, tables)
  | _, _ => do
    require (call.status = .running ∧ lease.isNew = true ∧ lease.status = .running)
      ⟨"ToolCall does not authorize completion"⟩
    publication
    let call := { call with
      status := .succeeded, durationMs := some durationMs, result := some result, error := none }
    return (result, { tables with calls := replaceRow ToolCallRow.id call tables.calls })

/-- `fail`: an outcome that is there already is kept. -/
def failCall (tables : AuditTables) (lease : ToolAuditLease) (failure : ToolFailure)
    (durationMs : Nat) (reading : AuditReading) : Except AuditError AuditTables := do
  snapshotInvocation library claim lease.invocation
  require (isFailureCode failure.code = true) ⟨"Tool failure classification is invalid"⟩
  reading.gate
  let call ← lockTool claim tables lease reading
  if call.status ∈ [ToolCallStatus.succeeded, .failed, .denied] then return tables
  else
    require (call.status = .running ∧ lease.isNew = true ∧ lease.status = .running)
      ⟨"ToolCall does not authorize failure completion"⟩
    let call := { call with
      status := .failed, durationMs := some durationMs, error := some failure }
    return { tables with calls := replaceRow ToolCallRow.id call tables.calls }

end Writer

end SkillMind.Agent
