import SkillMind.Agent.ModelResult
import SkillMind.Agent.ToolAudit
import SkillMind.Agent.WorkspaceReading
import SkillMind.Library.Queue

/-!
# The tool gateway

Before the model may use a tool, a hook registers the use with the audit, and puts the lease it
gets at the end of a queue for the tool and the fingerprint of its arguments.  The handler of the
tool, `invoke_mcp`, or a step of a sequence calls `_invoke`: it takes the first lease of that queue,
marks it as dispatched, verifies the dispatch in a transaction, calls the provider and records the
result.  `invoke_mcp` then makes a text for the model of what it is given.

Several gateways, one for each worker, act on the same audit; each has its own queues and its own
set of dispatched calls, which are lost with it.  Between two steps of a call any other step of any
gateway may come, so that a registration is two actions and an invocation up to four.
-/

namespace SkillMind.Agent

open Library SkillMind.Core
open Runs (Uuid)
open Documents (member)

structure ToolGatewayError where
  code : String
  message : String
  retryable : Bool

structure GatewayContext where
  claim : WorkerClaim
  tools : List RegisteredTool
  /-- The checks of the policy: the schema of the tool and the boundary of the Run. -/
  admits : RegisteredTool → List (String × Json) → Bool
  /-- What the tests of a response for sensitive keys and for the contract of its tool raise. -/
  rejects : RegisteredTool → Json → Option ToolGatewayError
  /-- The error contract of the tool. -/
  meetsErrors : RegisteredTool → Json → Bool
  /-- The Run has a form for its result: `model_output_schema_json` is in its task snapshot. -/
  labelled : Bool
  maxOutputBytes : Nat

/-- `ToolRouting.resolve`. -/
def resolveTool (tools : List RegisteredTool) (name : String)
    (arguments : List (String × Json)) : Except ToolGatewayError RegisteredTool :=
  let group := tools.filter fun tool => tool.sdkName = name
  match group, member arguments "resource_key" with
  | [], _ =>
    .error ⟨"scope_denied",
      "Tool is not registered for this Run. Use the Run's registered tool catalog.", false⟩
  | first :: rest, selector =>
    if first.resourceKey = none then
      if first.integrationId ≠ none ∧ selector.isSome = true then
        .error ⟨"invalid_request", "This tool has no named resource selector", false⟩
      else .ok first
    else
      match selector with
      | none =>
        if rest = [] then .ok first
        else
          .error ⟨"invalid_request", "resource_key is required; choose one of: " ++
            ", ".intercalate (group.map fun tool => tool.resourceKey.getD "None"), false⟩
      | some (.string key) =>
        match group.find? fun tool => tool.resourceKey = some key with
        | some tool => .ok tool
        | none =>
          .error ⟨"invalid_request", "resource_key is not registered for this tool in this Run",
            false⟩
      | some _ =>
        .error ⟨"invalid_request", "resource_key is not registered for this tool in this Run",
          false⟩

/-- The tool a denial is recorded for: the only one of its name, or a placeholder. -/
def deniedTool (tools : List RegisteredTool) (name : String) : RegisteredTool :=
  match tools.filter fun tool => tool.sdkName = name with
  | [tool] => tool
  | _ =>
    { capability := "platform.denied/v1"
      sdkName := if name = "" then "unknown" else String.ofList (name.toList.take 128)
      provider := "platform"
      integrationId := none
      inputSchema := "\x7b\"type\":\"object\"\x7d"
      readOnly := true
      bindingId := none
      resourceKey := none }

def providerArguments (tool : RegisteredTool) (arguments : List (String × Json)) :
    List (String × Json) :=
  if tool.resourceKey = none then arguments
  else arguments.filter fun field => field.1 ≠ "resource_key"

/-- How far an invocation is. -/
inductive FlightStage where
  /-- It has its lease; with the saved result when it only replays. -/
  | claimed (replay : Option Json)
  | verified
  | answered (result : Json)
  | failed (error : ToolGatewayError)

/-- Who has called `_invoke`: `invoke_mcp` for the model, or `invoke_sequence_step`. -/
inductive Caller where
  | model
  | sequence

/-- An invocation that is under way. -/
structure Flight where
  worker : Nat
  caller : Caller
  lease : ToolAuditLease
  tool : RegisteredTool
  arguments : List (String × Json)
  stage : FlightStage

/-- One call of a provider. -/
structure Execution where
  toolCallId : Uuid
  runId : Uuid
  sdkToolUseId : String
  tool : RegisteredTool
  arguments : List (String × Json)
  /-- What the provider gets of the arguments. -/
  given : List (String × Json)

structure GatewayState where
  audit : AuditTables
  /-- The leases that are not in their queue yet, with their gateway. -/
  granted : List (Nat × ToolAuditLease)
  /-- `_pending`, for all gateways and keys. -/
  pending : List (Nat × ToolAuditLease)
  dispatched : List (Nat × Uuid)
  flights : List Flight
  executions : List Execution

def GatewayState.empty : GatewayState := ⟨⟨[], []⟩, [], [], [], [], []⟩

/-- A response, with the references that `_invoke` gives it, or what `_invoke` makes of a fault. -/
inductive ProviderAnswer where
  | responded (response : Json)
  | raised (error : ToolGatewayError)

/-- `_checked_response`. -/
def checkedResponse (context : GatewayContext) (tool : RegisteredTool) (response : Json) :
    Except ToolGatewayError Json :=
  match context.rejects tool response with
  | some error => .error error
  | none =>
    if context.maxOutputBytes < canonicalBytes response then
      .error ⟨"too_large", "Tool response is too large", false⟩
    else .ok response

/-- A response that is not accepted is a failure. -/
def ProviderAnswer.stage (context : GatewayContext) (tool : RegisteredTool) :
    ProviderAnswer → FlightStage
  | .responded response =>
    match checkedResponse context tool response with
    | .ok result => .answered result
    | .error error => .failed error
  | .raised error => .failed error

structure GatewaySettings where
  library : StandardLibrary
  context : Nat → GatewayContext

/-! ## What the model gets -/

/-- An answer to the SDK. -/
structure McpAnswer where
  content : List Json
  isError : Bool

def textBlock (text : String) : Json := .object [("type", .string "text"), ("text", .string text)]

def errorPayload (error : ToolGatewayError) : Json :=
  .object [("status", .string "error"), ("code", .string error.code),
    ("message", .string error.message), ("retryable", .bool error.retryable)]

/-- What stands for an error that is not one of the contract. -/
def contractFault : ToolGatewayError :=
  ⟨"unavailable", "Tool error did not match its registered contract. " ++
    "Ask the platform administrator to check the tool configuration; " ++
    "do not repeat an external operation whose result is unconfirmed.", false⟩

def mcpError (meets : Json → Bool) (error : ToolGatewayError) : McpAnswer :=
  let payload := if meets (errorPayload error) = true then errorPayload error
    else errorPayload contractFault
  ⟨[textBlock (canonicalJson payload)], true⟩

/-- The result as the model is shown it: with labels for its references, if the Run has a form for
its own result. A result is an object. -/
def deliveredResult (library : StandardLibrary) (context : GatewayContext) : Json → Json
  | .object fields =>
    .object (if context.labelled = true then projectResultReferences library fields else fields)
  | other => other

/-- `invoke_mcp` behind `_invoke`; `image` is what the reading of an image gives. -/
def mcpResult (library : StandardLibrary) (context : GatewayContext) (tool : RegisteredTool)
    (image : Except ToolProviderError Json) (response : Json) :
    Except ToolGatewayError McpAnswer :=
  let delivered := deliveredResult library context response
  let text := textBlock (canonicalJson delivered)
  if context.maxOutputBytes < canonicalBytes delivered then
    .error ⟨"too_large", "Tool output including reference labels exceeds the Run limit", false⟩
  else if tool.capability ≠ "workspace.image/v1" then .ok ⟨[text], false⟩
  else
    match image with
    | .error error => .error ⟨error.code, error.message, false⟩
    | .ok block =>
      if context.maxOutputBytes < canonicalBytes (.object [("content", .array [text, block])]) then
        .error ⟨"too_large", "Image output exceeds the Run limit", false⟩
      else .ok ⟨[text, block], false⟩

def mcpAnswer (library : StandardLibrary) (context : GatewayContext) (tool : RegisteredTool)
    (image : Except ToolProviderError Json) (outcome : Except ToolGatewayError Json) : McpAnswer :=
  match outcome.bind (mcpResult library context tool image) with
  | .ok answer => answer
  | .error error => mcpError (context.meetsErrors tool) error

inductive GatewayAction where
  | registerAuthorized (worker : Nat) (name : String) (arguments : List (String × Json))
      (toolUseId : String) (sessionId id : Uuid) (reading : AuditReading) (fate : CommitFate)
  | enqueue (worker : Nat) (toolCallId : Uuid)
  | registerDenied (worker : Nat) (name : String) (arguments : List (String × Json))
      (toolUseId : String) (sessionId : Uuid) (reason : String) (id : Uuid)
      (reading : AuditReading) (fate : CommitFate)
  | claim (worker : Nat) (caller : Caller) (name : String) (arguments : List (String × Json))
  | verifyDispatch (flight : Nat) (reading : AuditReading) (artifacts : Except AuditError Unit)
      (image : Except ToolProviderError Json)
  | execute (flight : Nat) (answer : ProviderAnswer)
  | complete (flight durationMs : Nat) (reading : AuditReading)
      (publication : Except AuditError Unit) (image : Except ToolProviderError Json)
      (fate : CommitFate)
  | fail (flight durationMs : Nat) (reading : AuditReading) (fate : CommitFate)

inductive GatewayAnswer where
  | done
  /-- The model gets an answer of a worker; with the call whose result it was made of. -/
  | answered (worker : Nat) (toolCallId : Option Uuid) (answer : McpAnswer)
  /-- A step of a sequence gets the outcome of `_invoke`. -/
  | returned (outcome : Except ToolGatewayError (Uuid × Json))
  /-- The answer of the audit was lost. -/
  | unknown

/-! ## Steps -/

section Steps

variable (settings : GatewaySettings)

/-- `_invocation`. -/
def invocationOf (claim : WorkerClaim) (tool : RegisteredTool)
    (arguments : List (String × Json)) (toolUseId : String) (sessionId : Uuid) :
    ToolInvocation where
  runId := claim.runId
  runAttemptId := claim.runAttemptId
  agentSessionId := sessionId
  sdkToolUseId := toolUseId
  tool := tool
  arguments := arguments
  requestFingerprint := invocationFingerprint settings.library tool.sdkName arguments

/-- The outcome of `_invoke` goes to its caller. -/
def handOver (worker : Nat) (caller : Caller) (tool : RegisteredTool)
    (image : Except ToolProviderError Json) (outcome : Except ToolGatewayError (Uuid × Json)) :
    GatewayAnswer :=
  match caller with
  | .model =>
    .answered worker (outcome.toOption.map Prod.fst)
      (mcpAnswer settings.library (settings.context worker) tool image (outcome.map Prod.snd))
  | .sequence => .returned outcome

/-- Without a result there is no image to read. -/
def noImage : Except ToolProviderError Json := .ok .null

/-- The first half of `register_authorized`. -/
def registerAuthorized (s : GatewayState) (worker : Nat) (name : String)
    (arguments : List (String × Json)) (toolUseId : String) (sessionId id : Uuid)
    (reading : AuditReading) (fate : CommitFate) :
    Except AuditError (GatewayAnswer × GatewayState) := do
  let context := settings.context worker
  let tool ← (resolveTool context.tools name arguments).mapError fun error => ⟨error.message⟩
  require (context.admits tool arguments = true) ⟨"Tool input does not match registered schema"⟩
  let invocation := invocationOf settings context.claim tool arguments toolUseId sessionId
  let (lease, audit) ← fate.settle s.audit
    (startAuthorized settings.library context.claim s.audit invocation id reading)
  match lease with
  | some lease => return (.done, { s with audit, granted := s.granted ++ [(worker, lease)] })
  | none => return (.unknown, { s with audit })

/-- The second half: the lease goes to the end of its queue. -/
def enqueue (s : GatewayState) (worker : Nat) (toolCallId : Uuid) :
    Except AuditError (GatewayAnswer × GatewayState) := do
  let (entry, granted) ← orFault ⟨"No lease is granted"⟩
    (takeFirst (fun entry : Nat × ToolAuditLease =>
      entry.1 == worker && entry.2.toolCallId == toolCallId) s.granted)
  return (.done, { s with granted, pending := s.pending ++ [entry] })

def registerDenied (s : GatewayState) (worker : Nat) (name : String)
    (arguments : List (String × Json)) (toolUseId : String) (sessionId : Uuid) (reason : String)
    (id : Uuid) (reading : AuditReading) (fate : CommitFate) :
    Except AuditError (GatewayAnswer × GatewayState) := do
  let context := settings.context worker
  let invocation := invocationOf settings context.claim (deniedTool context.tools name) arguments
    toolUseId sessionId
  let (answer, audit) ← fate.settle s.audit do
    return ((), ← recordDenied settings.library context.claim s.audit invocation reason id reading)
  return (if answer.isSome then .done else .unknown, { s with audit })

def ToolAuditLease.replay (lease : ToolAuditLease) : Option Json :=
  if lease.status = .succeeded then lease.result else none

/-- The beginning of `_invoke`, up to its first transaction.  A lease that is taken is spent,
whatever comes of it. -/
def claimLease (s : GatewayState) (worker : Nat) (caller : Caller) (name : String)
    (arguments : List (String × Json)) : Except AuditError (GatewayAnswer × GatewayState) := do
  match resolveTool (settings.context worker).tools name arguments with
  | .error error =>
    match caller with
    | .model => return (.answered worker none (mcpError (fun _ => true) error), s)
    | .sequence => return (.returned (.error error), s)
  | .ok tool =>
    let fingerprint := invocationFingerprint settings.library tool.sdkName arguments
    let refused := fun code message =>
      handOver settings worker caller tool noImage (.error ⟨code, message, false⟩)
    match takeFirst (fun entry : Nat × ToolAuditLease =>
      entry.1 == worker && entry.2.invocation.tool.sdkName == tool.sdkName &&
        entry.2.invocation.requestFingerprint == fingerprint) s.pending with
    | none =>
      return (refused "invalid_request" "Tool invocation was not registered by Skillmind", s)
    | some (entry, pending) =>
      let s := { s with pending }
      let lease := entry.2
      if lease.invocation.tool ≠ tool ∨ lease.invocation.requestFingerprint ≠ fingerprint then
        return (refused "invalid_request" "Tool resource differs from the authorized request", s)
      else if lease.replay.isSome then
        return (.done, { s with
          flights := s.flights ++
            [⟨worker, caller, lease, tool, arguments, .claimed lease.replay⟩] })
      else if lease.status ≠ .running ∨ lease.isNew = false ∨
          (worker, lease.toolCallId) ∈ s.dispatched then
        return (refused "unavailable" "Tool invocation cannot be executed again", s)
      else
        return (.done, { s with
          dispatched := s.dispatched ++ [(worker, lease.toolCallId)]
          flights := s.flights ++ [⟨worker, caller, lease, tool, arguments, .claimed none⟩] })

/-- An invocation and the others. -/
def takeFlight (s : GatewayState) (index : Nat) : Except AuditError (Flight × List Flight) :=
  orFault ⟨"No invocation is under way"⟩
    (s.flights[index]?.map fun flight => (flight, s.flights.eraseIdx index))

/-- The verification of the dispatch; a replay is answered with the saved result. -/
def verifyFlight (s : GatewayState) (index : Nat) (reading : AuditReading)
    (artifacts : Except AuditError Unit) (image : Except ToolProviderError Json) :
    Except AuditError (GatewayAnswer × GatewayState) := do
  let (flight, flights) ← takeFlight s index
  let context := settings.context flight.worker
  let ends := handOver settings flight.worker flight.caller flight.tool image
  match flight.stage with
  | .claimed replay =>
    match verifyDispatch settings.library context.claim s.audit flight.lease reading artifacts,
      replay with
    | .error _, _ =>
      return (ends (.error ⟨"unavailable", "Tool execution authority could not be verified",
        false⟩), { s with flights })
    | .ok _, some saved =>
      return (ends ((checkedResponse context flight.tool saved).map
        fun result => (flight.lease.toolCallId, result)), { s with flights })
    | .ok _, none =>
      return (.done, { s with flights := flights ++ [{ flight with stage := .verified }] })
  | _ => throw ⟨"No dispatch to verify"⟩

/-- The call of the provider. -/
def executeFlight (s : GatewayState) (index : Nat) (answer : ProviderAnswer) :
    Except AuditError (GatewayAnswer × GatewayState) := do
  let (flight, flights) ← takeFlight s index
  match flight.stage with
  | .verified =>
    let stage := answer.stage (settings.context flight.worker) flight.tool
    let invocation := flight.lease.invocation
    let execution : Execution := ⟨flight.lease.toolCallId, invocation.runId,
      invocation.sdkToolUseId, flight.tool, flight.arguments,
      providerArguments flight.tool flight.arguments⟩
    return (.done, { s with
      flights := flights ++ [{ flight with stage }]
      executions := s.executions ++ [execution] })
  | _ => throw ⟨"No dispatch was verified"⟩

/-- The record of the result.  Without an answer of the audit, nothing is executed again. -/
def completeFlight (s : GatewayState) (index durationMs : Nat) (reading : AuditReading)
    (publication : Except AuditError Unit) (image : Except ToolProviderError Json)
    (fate : CommitFate) : Except AuditError (GatewayAnswer × GatewayState) := do
  let (flight, flights) ← takeFlight s index
  let ends := handOver settings flight.worker flight.caller flight.tool image
  let unconfirmed :=
    ends (.error ⟨"unavailable", "Tool result audit could not be confirmed", false⟩)
  match flight.stage with
  | .answered result =>
    match fate.settle s.audit (completeCall settings.library
      (settings.context flight.worker).claim s.audit flight.lease result durationMs reading
      publication) with
    | .ok (some saved, audit) =>
      return (ends (.ok (flight.lease.toolCallId, saved)), { s with audit, flights })
    | .ok (none, audit) => return (unconfirmed, { s with audit, flights })
    | .error _ => return (unconfirmed, { s with flights })
  | _ => throw ⟨"No result to record"⟩

/-- The record of a failure. -/
def failFlight (s : GatewayState) (index durationMs : Nat) (reading : AuditReading)
    (fate : CommitFate) : Except AuditError (GatewayAnswer × GatewayState) := do
  let (flight, flights) ← takeFlight s index
  let ends := fun error =>
    handOver settings flight.worker flight.caller flight.tool noImage (.error error)
  let unconfirmed :=
    ends ⟨"unavailable", "Tool failure audit could not be confirmed", false⟩
  match flight.stage with
  | .failed error =>
    let recorded := fate.settle s.audit do
      return ((), ← failCall settings.library (settings.context flight.worker).claim s.audit
        flight.lease ⟨error.code, error.retryable⟩ durationMs reading)
    match recorded with
    | .ok (some _, audit) => return (ends error, { s with audit, flights })
    | .ok (none, audit) => return (unconfirmed, { s with audit, flights })
    | .error _ => return (unconfirmed, { s with flights })
  | _ => throw ⟨"No failure to record"⟩

def execGateway (action : GatewayAction) (s : GatewayState) :
    Except AuditError (GatewayAnswer × GatewayState) :=
  match action with
  | .registerAuthorized worker name arguments toolUseId sessionId id reading fate =>
    registerAuthorized settings s worker name arguments toolUseId sessionId id reading fate
  | .enqueue worker toolCallId => enqueue s worker toolCallId
  | .registerDenied worker name arguments toolUseId sessionId reason id reading fate =>
    registerDenied settings s worker name arguments toolUseId sessionId reason id reading fate
  | .claim worker caller name arguments => claimLease settings s worker caller name arguments
  | .verifyDispatch flight reading artifacts image =>
    verifyFlight settings s flight reading artifacts image
  | .execute flight answer => executeFlight settings s flight answer
  | .complete flight durationMs reading publication image fate =>
    completeFlight settings s flight durationMs reading publication image fate
  | .fail flight durationMs reading fate => failFlight settings s flight durationMs reading fate

def gatewaySystem :
    TransactionSystem GatewayState GatewayAction GatewayAnswer AuditError :=
  ⟨execGateway settings⟩

end Steps

end SkillMind.Agent
