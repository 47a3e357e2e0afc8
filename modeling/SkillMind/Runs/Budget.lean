import SkillMind.Library.Escrow
import SkillMind.Runs.Tables

/-!
# The shared budget of a Run: keys, units and reports

The values that cross the boundary of the budget store.  A policy, a reservation request and
a usage report check themselves when they are built, so the checks are fields here: a report
with a negative count, or a cumulative one without a watermark, cannot be written down.

Checksums are taken over canonical JSON. The model hashes the typed content through a parameter,
because the JSON form of each content names all its fields and nothing else.
-/

namespace SkillMind.Runs

open Library

def maxUnits : Int := 2 ^ 63 - 1

/-- `budget_units` accepts the value. -/
def IsBudgetUnits (value : Int) (positive : Bool := false) : Prop :=
  (if positive then 1 else 0) ≤ value ∧ value ≤ maxUnits

instance (value : Int) (positive : Bool) : Decidable (IsBudgetUnits value positive) :=
  inferInstanceAs (Decidable (_ ∧ _))

/-- A key is a letter or digit and up to 127 more of these or of `_ . : / -`. -/
def isBudgetKey (value : String) : Bool :=
  match value.toList with
  | [] => false
  | first :: rest =>
    first.isAlphanum && decide (rest.length ≤ 127) &&
      rest.all fun c => c.isAlphanum || c ∈ ['_', '.', ':', '/', '-']

def budgetKey (value : String) : Except Fault Unit :=
  require (isBudgetKey value) ⟨.budgetError, "Invalid budget identity"⟩

/-- The 64 lowercase hexadecimal digits of a SHA-256 checksum. -/
def isHexDigest (digits : List Char) : Bool :=
  decide (digits.length = 64) &&
    digits.all fun c => c.isDigit || c ∈ ['a', 'b', 'c', 'd', 'e', 'f']

def isChecksum (value : String) : Bool := isHexDigest value.toList

/-- A checksum tagged with `sha256:`. -/
def isTaggedChecksum (value : String) : Bool :=
  decide (value.toList.take 7 = "sha256:".toList) && isHexDigest (value.toList.drop 7)

inductive MeteringMode where
  | incremental
  | cumulative
  deriving DecidableEq

inductive BudgetExecutionStatus where
  | reserved
  | startIntent
  | settled
  | released
  deriving DecidableEq

/-- The limits fixed when the Run is created and the identity of the verified metering. -/
structure BudgetPolicy where
  maxTurns : Int
  maxCostNanos : Option Int
  source : String
  meteringVersion : String
  mode : MeteringMode
  maxTurns_units : IsBudgetUnits maxTurns true
  maxCostNanos_units : ∀ nanos ∈ maxCostNanos, IsBudgetUnits nanos true
  source_key : isBudgetKey source = true
  meteringVersion_key : isBudgetKey meteringVersion = true
  deriving DecidableEq

/-- One bounded execution that is reserved before its SDK session exists. -/
structure BudgetReservationRequest where
  executionKey : String
  turns : Int
  costNanos : Option Int
  parentExecutionKey : Option String
  executionKey_key : isBudgetKey executionKey = true
  turns_units : IsBudgetUnits turns true
  costNanos_units : ∀ nanos ∈ costNanos, IsBudgetUnits nanos true
  parent_key : ∀ parent ∈ parentExecutionKey, isBudgetKey parent = true
  parent_ne : parentExecutionKey ≠ some executionKey

/-- `to_json` of a usage report: all of it except the key it is stored under. -/
structure UsagePayload where
  source : String
  meteringVersion : String
  mode : MeteringMode
  turns : Option Int
  costNanos : Option Int
  watermark : Option Int
  final : Bool
  deriving DecidableEq

/-- A report normalized to one execution by a trusted adapter. -/
structure BudgetUsageReport extends UsagePayload where
  reportKey : String
  reportKey_key : isBudgetKey reportKey = true
  source_key : isBudgetKey source = true
  meteringVersion_key : isBudgetKey meteringVersion = true
  turns_units : ∀ value ∈ turns, IsBudgetUnits value
  costNanos_units : ∀ value ∈ costNanos, IsBudgetUnits value
  present : turns ≠ none ∨ costNanos ≠ none
  watermark_mode : (mode = .cumulative ↔ watermark ≠ none)
  watermark_units : ∀ value ∈ watermark, IsBudgetUnits value
  deriving DecidableEq

/-! ## Invocations and observations -/

inductive UsageValue where
  | missing
  | integer (value : Int)
  | binary64 (hex : String)
  | invalid
  deriving DecidableEq

inductive AgentInvocationMode where
  | initial
  | resume
  | fork
  deriving DecidableEq

structure InvocationOptions where
  model : Option String
  maxTurns : Option Int
  maxBudgetUsd : UsageValue
  sessionId : Option String
  resume : Option String
  forkSession : Bool
  continueConversation : Bool
  outputFormatChecksum : String
  cliChecksum : Option String
  deriving DecidableEq

/-- The descriptor of one adapter call. -/
structure AgentInvocation where
  invocationId : Uuid
  projectId : Uuid
  runId : Uuid
  runAttemptId : Uuid
  userId : Uuid
  sessionId : String
  mode : AgentInvocationMode
  parentSessionId : Option String
  promptChecksum : String
  options : InvocationOptions
  sdkVersion : String
  cliVersion : String
  deriving DecidableEq

structure ResultTermination where
  subtype : String
  isError : Bool
  stopReason : Option String
  hasStructuredOutput : Bool
  deriving DecidableEq

structure ResultUsageObservation where
  invocation : AgentInvocation
  turns : UsageValue
  costUsd : UsageValue
  termination : Option ResultTermination
  deriving DecidableEq

def ResultUsageObservation.observationKey (observation : ResultUsageObservation) : String :=
  s!"claude-result/{observation.invocation.invocationId}"

inductive ReceiptKind where
  | usage
  | stop
  | unstarted
  | unverifiable
  deriving DecidableEq

inductive ReceiptPayload where
  | usage (report : UsagePayload)
  | stop (verifiedEvidence : String)
  | unstarted
  | unverifiable (evidenceChecksum : String)
  | conflict (originalKey conflictingChecksum : String)
  deriving DecidableEq

/-- What `budget_checksum` is taken of. -/
inductive BudgetContent where
  | policy (policy : BudgetPolicy)
  | limits (limits : LimitsSnapshot)
  | group (runId : Uuid) (segmentId : Option Uuid) (attemptId : Uuid) (groupKey : String)
      (requests : List BudgetReservationRequest)
  | request (request : BudgetReservationRequest)
  | receipt (kind : ReceiptKind) (payload : ReceiptPayload)
  | conflict (key checksum : String)
  | invocation (invocation : AgentInvocation)
  | observation (observation : ResultUsageObservation)
  | startOwner (token : String)

structure Digests where
  leaseTokenHash : String → String
  budgetChecksum : BudgetContent → String

/-- `budget_start_owner_hash`: only a 43 character token has an owner hash. -/
def budgetStartOwnerHash (digests : Digests) (token : String) : Except Fault String := do
  require (token.toList.length = 43 ∧
      token.toList.all (fun c => c.isAlphanum || c ∈ ['_', '-']) = true)
    ⟨.budgetError, "Invalid budget start owner"⟩
  return "sha256:" ++ digests.budgetChecksum (.startOwner token)

/-! ## Rows -/

/-- Why an account stopped accepting new consumption. -/
inductive BlockCode where
  | receiptConflict
  | observationConflict
  | meteringIdentityMismatch
  | usageWithoutStartIntent
  | staleFinalUsage
  | cumulativeUsageConflict
  | usageAfterFinalReport
  | budgetOverspent
  | usageUnverifiable
  deriving DecidableEq

inductive Dimension where
  | turns
  | costNanos
  deriving DecidableEq

/-- A policy always limits turns and limits the cost when it sets one. -/
def BudgetPolicy.enabled (policy : BudgetPolicy) : Dimension → Bool
  | .turns => true
  | .costNanos => policy.maxCostNanos.isSome

def BudgetPolicy.limit (policy : BudgetPolicy) : Dimension → Option Int
  | .turns => some policy.maxTurns
  | .costNanos => policy.maxCostNanos

structure RunBudgetAccount where
  runId : Uuid
  policy : BudgetPolicy
  policyChecksum : String
  limitsChecksum : String
  turns : Pool Int
  cost : Option (Pool Int)
  blockCode : Option BlockCode
  rowVersion : Nat
  deriving DecidableEq

structure RunBudgetReservation where
  id : Uuid
  runId : Uuid
  runSegmentId : Option Uuid
  runAttemptId : Uuid
  executionKey : String
  groupKey : String
  groupChecksum : String
  requestChecksum : String
  parentReservationId : Option Uuid
  executionLeaseHash : String
  invocationId : Option Uuid
  invocationJson : Option AgentInvocation
  invocationChecksum : Option String
  invocationStartOwnerHash : Option String
  status : BudgetExecutionStatus
  turns : Hold Int
  cost : Option (Hold Int)
  turnsWatermark : Int
  costWatermark : Int
  startIntentAt : Option Timestamp
  stopConfirmedAt : Option Timestamp
  finalUsageAt : Option Timestamp
  reconcileWorkerId : Option String
  reconcileTokenHash : Option String
  reconcileExpiresAt : Option Timestamp
  deriving DecidableEq

inductive Disposition where
  | replay
  | applied
  | overspent
  | invalid
  | conflict
  | observed
  deriving DecidableEq

structure RunBudgetReceipt where
  reservationId : Uuid
  receiptKey : String
  kind : ReceiptKind
  payload : ReceiptPayload
  payloadChecksum : String
  reconcileWorkerId : String
  disposition : Disposition
  deriving DecidableEq

structure RunBudgetObservation where
  reservationId : Uuid
  invocationId : Uuid
  observationKey : String
  payload : ResultUsageObservation
  payloadChecksum : String
  reconcileWorkerId : String

namespace RunBudgetAccount

def pool (account : RunBudgetAccount) : Dimension → Option (Pool Int)
  | .turns => some account.turns
  | .costNanos => account.cost

def setPool (account : RunBudgetAccount) (dimension : Dimension) (pool : Pool Int) :
    RunBudgetAccount :=
  match dimension with
  | .turns => { account with turns := pool }
  | .costNanos => { account with cost := some pool }

end RunBudgetAccount

namespace RunBudgetReservation

def hold (row : RunBudgetReservation) : Dimension → Option (Hold Int)
  | .turns => some row.turns
  | .costNanos => row.cost

def setHold (row : RunBudgetReservation) (dimension : Dimension) (hold : Hold Int) :
    RunBudgetReservation :=
  match dimension with
  | .turns => { row with turns := hold }
  | .costNanos => { row with cost := some hold }

def watermark (row : RunBudgetReservation) : Dimension → Int
  | .turns => row.turnsWatermark
  | .costNanos => row.costWatermark

def setWatermark (row : RunBudgetReservation) (dimension : Dimension) (watermark : Int) :
    RunBudgetReservation :=
  match dimension with
  | .turns => { row with turnsWatermark := watermark }
  | .costNanos => { row with costWatermark := watermark }

end RunBudgetReservation

def UsagePayload.value (report : UsagePayload) : Dimension → Option Int
  | .turns => report.turns
  | .costNanos => report.costNanos

theorem BudgetUsageReport.value_nonneg (report : BudgetUsageReport) {dimension : Dimension}
    {value : Int} (has : report.value dimension = some value) : 0 ≤ value := by
  cases dimension with
  | turns => exact (report.turns_units value has).1
  | costNanos => exact (report.costNanos_units value has).1

structure BudgetReconciliationClaim where
  projectId : Uuid
  runId : Uuid
  reservationId : Uuid
  workerId : String
  token : String
  expiresAt : Timestamp

structure BudgetInvocationBinding where
  reservationId : Uuid
  invocationId : Uuid
  invocationChecksum : String
  deriving DecidableEq

def BudgetInvocationBinding.make (reservationId invocationId : Uuid) (checksum : String) :
    Except Fault BudgetInvocationBinding := do
  require (isChecksum checksum) ⟨.budgetError, "Invalid budget invocation binding"⟩
  return ⟨reservationId, invocationId, checksum⟩

structure BudgetExecutionRecord where
  reservationId : Uuid
  executionKey : String
  status : BudgetExecutionStatus
  turns : Hold Int
  cost : Option (Hold Int)
  stopConfirmed : Bool
  finalUsageConfirmed : Bool

structure BudgetAccountRecord where
  runId : Uuid
  policy : BudgetPolicy
  turns : Pool Int
  cost : Option (Pool Int)
  blockCode : Option BlockCode
  rowVersion : Nat

def BudgetAccountRecord.remainingTurns (account : BudgetAccountRecord) : Int :=
  account.policy.maxTurns - account.turns.consumed - account.turns.reserved

/-- No remainder where no cost limit is set. -/
def BudgetAccountRecord.remainingCostNanos (account : BudgetAccountRecord) : Option Int := do
  let limit ← account.policy.maxCostNanos
  let cost ← account.cost
  return limit - cost.consumed - cost.reserved

structure BudgetReceiptResult where
  account : BudgetAccountRecord
  execution : BudgetExecutionRecord
  disposition : Disposition

end SkillMind.Runs
