import Mathlib.Data.List.Sort
import SkillMind.Library.Transaction
import SkillMind.Runs.Budget
import SkillMind.Runs.RepositoryBase

/-!
# Reserving and starting under the shared budget

The operations of the budget ledger of one Run, each a whole transaction: it reads the
ledger under the Run lock, checks every guard, and either writes all of its rows or raises a
fault and writes none.  What the tables of the Run say at that moment, the clock and the
identifiers drawn are part of the call.

Every read goes through `readLedger`, which recomputes the totals of the account from the
reservations.  This module holds the transactions of the executing worker: reserving a group,
binding an invocation to a reservation and recording the intent to start it.
-/

namespace SkillMind.Runs

open Library

/-- The account of a Run with its reservations, receipts and raw observations. -/
structure Ledger where
  account : Option RunBudgetAccount
  reservations : List RunBudgetReservation
  receipts : List RunBudgetReceipt
  observations : List RunBudgetObservation

def unavailable (message : String) : Fault := ⟨.budgetUnavailableError, message⟩

def budgetConflict (message : String) : Fault := ⟨.budgetConflictError, message⟩

def leaseInvalid (message : String) : Fault := ⟨.leaseValidationError, message⟩

/-- `_stored_units`: a stored amount is a nonnegative integer. -/
def storedUnits : Option Int → Except Fault Int
  | none => .error (unavailable "Stored budget amount is not finite")
  | some value => do
    require (0 ≤ value) (unavailable "Stored budget amount is not a nonnegative integer")
    return value

def reconcileColumn (enabled : Bool) (value : Option Int) (values : List (Option Int)) :
    Except Fault Unit :=
  if enabled then
    match value with
    | none => .error (unavailable "Budget account and reservations disagree")
    | some _ => do
      let stored ← storedUnits value
      let parts ← values.mapM storedUnits
      require (stored = parts.sum) (unavailable "Budget account and reservations disagree")
  else
    require (value = none ∧ ∀ item ∈ values, item = none)
      (unavailable "Disabled budget dimension has a balance")

def reconcileDimension (account : RunBudgetAccount) (rows : List RunBudgetReservation)
    (dimension : Dimension) : Except Fault Unit := do
  reconcileColumn (account.policy.enabled dimension)
    ((account.pool dimension).map Pool.consumed)
    (rows.map fun row => (row.hold dimension).map Hold.consumed)
  reconcileColumn (account.policy.enabled dimension)
    ((account.pool dimension).map Pool.reserved)
    (rows.map fun row => (row.hold dimension).map Hold.reserved)

/-- `_execution`. -/
def executionRecord (row : RunBudgetReservation) : BudgetExecutionRecord :=
  ⟨row.id, row.executionKey, row.status, row.turns, row.cost, row.stopConfirmedAt.isSome,
    row.finalUsageAt.isSome⟩

/-- `_account`. -/
def accountRecord (account : RunBudgetAccount) : BudgetAccountRecord :=
  ⟨account.runId, account.policy, account.turns, account.cost, account.blockCode,
    account.rowVersion⟩

def RunBudgetAccount.touch (account : RunBudgetAccount) : RunBudgetAccount :=
  { account with rowVersion := account.rowVersion + 1 }

def RunBudgetAccount.block (account : RunBudgetAccount) (code : BlockCode) : RunBudgetAccount :=
  { account with blockCode := some code }

/-- The ledger with the account and one reservation written back. -/
def Ledger.save (ledger : Ledger) (account : RunBudgetAccount) (row : RunBudgetReservation) :
    Ledger :=
  { ledger with
    account := some account
    reservations := replaceRow RunBudgetReservation.id row ledger.reservations }

section Store

variable (digests : Digests)

/-- `new_budget_account` for a Run that is created in the same transaction. -/
def newBudgetAccount (run : Run) (policy : BudgetPolicy) : Except Fault RunBudgetAccount := do
  require (run.status = .queued ∧ run.startedAt = none ∧ policy.maxTurns = run.limits.maxTurns)
    ⟨.budgetError, "Budget account requires a new Run with matching frozen limits"⟩
  require (run.limits.maxBudgetNanos = none ↔ policy.maxCostNanos = none)
    ⟨.budgetError, "Budget cost policy does not match the frozen Run"⟩
  require (run.limits.maxBudgetNanos = policy.maxCostNanos)
    ⟨.budgetError, "Budget cost limit does not match the frozen Run"⟩
  return {
    runId := run.id
    policy := policy
    policyChecksum := digests.budgetChecksum (.policy policy)
    limitsChecksum := digests.budgetChecksum (.limits run.limits)
    turns := Pool.empty
    cost := policy.maxCostNanos.map fun _ => Pool.empty
    blockCode := none
    rowVersion := 1 }

def Ledger.opened (account : RunBudgetAccount) : Ledger := ⟨some account, [], [], []⟩

/-- `_ledger`: the account and the reservations of the Run, with their totals compared. -/
def readLedger (ledger : Ledger) (run : Run) :
    Except Fault (RunBudgetAccount × List RunBudgetReservation) := do
  let account ← orFault (unavailable "Run has no verified budget account")
    (ledger.account.filter fun account => account.runId = run.id)
  require (account.policyChecksum = digests.budgetChecksum (.policy account.policy) ∧
      account.limitsChecksum = digests.budgetChecksum (.limits run.limits))
    (unavailable "Frozen budget policy is inconsistent")
  let rows := ledger.reservations.filter fun row => row.runId = run.id
  reconcileDimension account rows .turns
  reconcileDimension account rows .costNanos
  return (account, rows)

/-- `_authorize`: the worker still holds its lease on a running, uncancelled Run. -/
def authorize (tables : RunTables) (run : Run) (segment : Option RunSegment)
    (attempt : RunAttempt) (claimed : ClaimedRun) (now : Timestamp) : Except Fault Unit := do
  validateClaimedLease digests.leaseTokenHash attempt claimed now
  require (run.projectId = claimed.projectId ∧ run.status = .running ∧
      claimed.runSegmentId ≠ none ∧ segment.map RunSegment.status = some .running)
    (leaseInvalid "Run is not available for budgeted execution")
  rejectCancelledExecution tables

/-! ## Reserving -/

/-- The reservation a request turns into, under an identifier drawn for it. -/
def newReservation (run : Run) (claimed : ClaimedRun) (groupKey checksum : String)
    (parent : Option Uuid) (request : BudgetReservationRequest) (id : Uuid) :
    RunBudgetReservation where
  id := id
  runId := run.id
  runSegmentId := claimed.runSegmentId
  runAttemptId := claimed.runAttemptId
  executionKey := request.executionKey
  groupKey := groupKey
  groupChecksum := checksum
  requestChecksum := digests.budgetChecksum (.request request)
  parentReservationId := parent
  executionLeaseHash := digests.leaseTokenHash claimed.leaseToken
  invocationId := none
  invocationJson := none
  invocationChecksum := none
  invocationStartOwnerHash := none
  status := .reserved
  turns := Hold.opened request.turns
  cost := request.costNanos.map Hold.opened
  turnsWatermark := -1
  costWatermark := -1
  startIntentAt := none
  stopConfirmedAt := none
  finalUsageAt := none
  reconcileWorkerId := none
  reconcileTokenHash := none
  reconcileExpiresAt := none

/-- `by_key[...]` of the parent named by a request. -/
def parentOf (rows : List RunBudgetReservation) (request : BudgetReservationRequest) :
    Option RunBudgetReservation := do
  let key ← request.parentExecutionKey
  rows.find? fun row => row.executionKey = key

def RunBudgetReservation.permitsChildren (row : RunBudgetReservation) : Prop :=
  row.status = .startIntent ∧ row.stopConfirmedAt = none ∧ row.finalUsageAt = none

instance (row : RunBudgetReservation) : Decidable row.permitsChildren :=
  inferInstanceAs (Decidable (_ ∧ _))

def RunBudgetReservation.livePrimary (row : RunBudgetReservation) : Prop :=
  row.parentReservationId = none ∧ (row.status = .reserved ∨ row.status = .startIntent) ∧
    row.stopConfirmedAt = none

instance (row : RunBudgetReservation) : Decidable row.livePrimary :=
  inferInstanceAs (Decidable (_ ∧ _))

def checkRequest (policy : BudgetPolicy) (claimed : ClaimedRun)
    (rows : List RunBudgetReservation) (request : BudgetReservationRequest) :
    Except Fault Unit := do
  require (∀ row ∈ rows, row.executionKey ≠ request.executionKey)
    (budgetConflict "Execution key belongs to another reservation group")
  require (request.costNanos = none ↔ policy.maxCostNanos = none)
    ⟨.budgetError, "Reservation does not cover the enabled budget dimensions"⟩
  require (request.parentExecutionKey ≠ none →
      ∃ parent ∈ parentOf rows request,
        parent.runAttemptId = claimed.runAttemptId ∧ parent.permitsChildren)
    (budgetConflict "Child reservation requires its running parent execution")

def BudgetReservationRequest.amount (request : BudgetReservationRequest) : Dimension → Int
  | .turns => request.turns
  | .costNanos => request.costNanos.getD 0

/-- The account after the amounts of a group were added to its reservations. -/
def RunBudgetAccount.hold (account : RunBudgetAccount) (turns cost : Int) : RunBudgetAccount :=
  { account with
    turns := ⟨account.turns.consumed, account.turns.reserved + turns⟩
    cost := account.cost.map fun pool => ⟨pool.consumed, pool.reserved + cost⟩ }

def withinLimit (account : RunBudgetAccount) (dimension : Dimension) (amount : Int) : Prop :=
  ∀ limit ∈ account.policy.limit dimension, ∀ pool ∈ account.pool dimension,
    pool.consumed + pool.reserved + amount ≤ limit

instance (account : RunBudgetAccount) (dimension : Dimension) (amount : Int) :
    Decidable (withinLimit account dimension amount) :=
  inferInstanceAs (Decidable (∀ limit ∈ _, ∀ pool ∈ _, _))

def reserveGroup (tables : RunTables) (now : Timestamp) (freshIds : List Uuid)
    (claimed : ClaimedRun) (groupKey : String) (requests : List BudgetReservationRequest)
    (confirmOnly : Bool) (ledger : Ledger) :
    Except Fault (List BudgetExecutionRecord × Ledger) := do
  budgetKey groupKey
  require (requests ≠ [] ∧ (requests.map BudgetReservationRequest.executionKey).Nodup)
    ⟨.budgetError, "Reservation group requires unique executions"⟩
  require ((∀ a ∈ requests, ∀ b ∈ requests, a.parentExecutionKey = b.parentExecutionKey) ∧
      ((∃ a ∈ requests, a.parentExecutionKey = none) → requests.length = 1))
    ⟨.budgetError, "A group must be one primary or children of the same execution"⟩
  let ordered := requests.insertionSort fun a b => a.executionKey ≤ b.executionKey
  let checksum := digests.budgetChecksum
    (.group claimed.runId claimed.runSegmentId claimed.runAttemptId groupKey ordered)
  let (run, segment, attempt) ← lockClaimedExecution tables claimed
  let (account, rows) ← readLedger digests ledger run
  authorize digests tables run segment attempt claimed now
  let existing := rows.filter fun row => row.groupKey = groupKey
  if existing ≠ [] then do
    require (existing.length = ordered.length ∧
        ∀ row ∈ existing, row.groupChecksum = checksum)
      (budgetConflict "Reservation group identity has different parameters")
    return (existing.map executionRecord, ledger)
  else do
    require (confirmOnly = false)
      (unavailable "Original reservation group was not committed")
    require (account.blockCode = none)
      (unavailable "Budget account requires reconciliation")
    require ((∃ a ∈ requests, a.parentExecutionKey = none) → ∀ row ∈ rows, ¬ row.livePrimary)
      (unavailable "A primary execution is still reserved or running")
    ordered.forM (checkRequest account.policy claimed rows)
    let turns := (ordered.map fun request => request.amount .turns).sum
    let cost := (ordered.map fun request => request.amount .costNanos).sum
    require (withinLimit account .turns turns ∧ withinLimit account .costNanos cost)
      ⟨.budgetExhaustedError, "Insufficient uncommitted Run budget for the whole group"⟩
    -- The primary key rejects an identifier that is already in use.
    require (freshIds.length = ordered.length ∧
        (ledger.reservations.map RunBudgetReservation.id ++ freshIds).Nodup)
      ⟨.integrityError, "run_budget_reservations primary key"⟩
    let added := List.zipWith
      (fun request id => newReservation digests run claimed groupKey checksum
        ((parentOf rows request).map RunBudgetReservation.id) request id) ordered freshIds
    return (added.map executionRecord,
      { ledger with
        account := some (account.hold turns cost).touch
        reservations := ledger.reservations ++ added })

def primaryRequest (groupKey : String) (turns : Int) (cost : Option Int) :
    Except Fault BudgetReservationRequest :=
  if valid : isBudgetKey groupKey = true ∧ IsBudgetUnits turns true ∧
      ∀ nanos ∈ cost, IsBudgetUnits nanos true then
    .ok ⟨groupKey, turns, cost, none, valid.1, valid.2.1, valid.2.2, by simp, by simp⟩
  else .error ⟨.budgetError, "Budget units must be bounded nonnegative integers"⟩

def reservePrimary (tables : RunTables) (now : Timestamp) (freshIds : List Uuid)
    (claimed : ClaimedRun) (expectedPolicy : BudgetPolicy) (confirmOnly : Bool)
    (ledger : Ledger) : Except Fault (List BudgetExecutionRecord × Ledger) := do
  let groupKey := s!"primary:{claimed.runAttemptId}"
  let (run, _, _) ← lockClaimedExecution tables claimed
  let (account, rows) ← readLedger digests ledger run
  require (account.policy = expectedPolicy)
    (unavailable "Run budget policy does not match the primary adapter")
  let request ← match rows.filter fun row => row.groupKey = groupKey with
    | [] => do
      require (confirmOnly = false)
        (unavailable "Primary reservation commit was not confirmed")
      let balance := accountRecord account
      require (0 < balance.remainingTurns ∧ ∀ cost ∈ balance.remainingCostNanos, 0 < cost)
        ⟨.budgetExhaustedError, "Run has no uncommitted primary execution budget"⟩
      primaryRequest groupKey balance.remainingTurns balance.remainingCostNanos
    | row :: others => do
      require (others = [] ∧ row.executionKey = groupKey)
        (budgetConflict "Primary reservation has an invalid original group")
      primaryRequest groupKey row.turns.granted (row.cost.map Hold.granted)
  reserveGroup digests tables now freshIds claimed groupKey [request] confirmOnly ledger

/-- `_claimed_reservation`: the reservation with the key, held under this very lease. -/
def claimedReservation (rows : List RunBudgetReservation) (claimed : ClaimedRun)
    (executionKey : String) : Except Fault RunBudgetReservation := do
  let row ← orFault (leaseInvalid "Reservation does not belong to this execution lease")
    (rows.find? fun row => row.executionKey = executionKey)
  require (row.runAttemptId = claimed.runAttemptId ∧ row.runSegmentId = claimed.runSegmentId ∧
      row.executionLeaseHash = digests.leaseTokenHash claimed.leaseToken)
    (leaseInvalid "Reservation does not belong to this execution lease")
  return row

/-- `_stored_invocation`: the bound descriptor, checked against its own columns. -/
def storedInvocation (row : RunBudgetReservation) : Except Fault AgentInvocation := do
  let missing := unavailable "Reservation has no complete invocation binding"
  let invocationId ← orFault missing row.invocationId
  let invocation ← orFault missing row.invocationJson
  let checksum ← orFault missing row.invocationChecksum
  let granted ← storedUnits (some row.turns.granted)
  require (invocation.invocationId = invocationId ∧
      digests.budgetChecksum (.invocation invocation) = checksum ∧
      invocation.runId = row.runId ∧ invocation.runAttemptId = row.runAttemptId ∧
      ∃ limit ∈ invocation.options.maxTurns, limit ≤ granted)
    (unavailable "Stored invocation binding is inconsistent")
  return invocation

def invocationScope (invocation : AgentInvocation) (run : Run) (claimed : ClaimedRun) :
    Except Fault Unit :=
  require (invocation.projectId = run.projectId ∧ invocation.projectId = claimed.projectId ∧
      invocation.runId = run.id ∧ invocation.runId = claimed.runId ∧
      invocation.runAttemptId = claimed.runAttemptId ∧ invocation.userId = claimed.actorId ∧
      run.actorId = some invocation.userId)
    (budgetConflict "Invocation does not match the original execution scope")

/-- `_binding`. -/
def bindingOf (row : RunBudgetReservation) : Except Fault BudgetInvocationBinding := do
  let incomplete : Fault := ⟨.typeError, "invocation binding is not set"⟩
  let invocationId ← orFault incomplete row.invocationId
  let checksum ← orFault incomplete row.invocationChecksum
  BudgetInvocationBinding.make row.id invocationId checksum

def verifyStartOwner (row : RunBudgetReservation) (ownerHash : String) : Except Fault Unit :=
  require (row.invocationStartOwnerHash = some ownerHash ∧ isTaggedChecksum ownerHash = true)
    (unavailable "Invocation start owner is not available")

def bindInvocation (tables : RunTables) (now : Timestamp) (claimed : ClaimedRun)
    (executionKey : String) (invocation : AgentInvocation) (startOwnerToken : String)
    (confirmOnly : Bool) (ledger : Ledger) :
    Except Fault (BudgetInvocationBinding × Ledger) := do
  budgetKey executionKey
  let ownerHash ← budgetStartOwnerHash digests startOwnerToken
  let checksum := digests.budgetChecksum (.invocation invocation)
  let (run, segment, attempt) ← lockClaimedExecution tables claimed
  let (account, rows) ← readLedger digests ledger run
  authorize digests tables run segment attempt claimed now
  let row ← claimedReservation digests rows claimed executionKey
  invocationScope invocation run claimed
  if row.invocationId ≠ none ∨ row.invocationJson ≠ none ∨ row.invocationChecksum ≠ none ∨
      row.invocationStartOwnerHash ≠ none then do
    let original ← storedInvocation digests row
    require (original = invocation ∧ row.invocationChecksum = some checksum)
      (budgetConflict "Reservation already has a different invocation")
    verifyStartOwner row ownerHash
    let binding ← bindingOf row
    return (binding, ledger)
  else do
    require (confirmOnly = false)
      (unavailable "Original invocation binding was not committed")
    require (row.status = .reserved ∧ account.blockCode = none)
      (unavailable "Reservation cannot bind an invocation")
    require (∃ limit ∈ invocation.options.maxTurns, limit ≤ row.turns.granted)
      (budgetConflict "Invocation turn limit exceeds the reservation grant")
    require (∀ other ∈ rows, other.invocationId ≠ some invocation.invocationId)
      (budgetConflict "Invocation is already bound to another reservation")
    let bound := { row with
      invocationId := some invocation.invocationId
      invocationJson := some invocation
      invocationChecksum := some checksum
      invocationStartOwnerHash := some ownerHash }
    let binding ← bindingOf bound
    return (binding, ledger.save account bound)

/-- `true` is the permission to call the provider: only the transaction that records the
start intent returns it. -/
def startExecution (tables : RunTables) (now : Timestamp) (claimed : ClaimedRun)
    (executionKey : String) (expectedInvocationId : Uuid) (expectedInvocationChecksum : String)
    (startOwnerToken : String) (ledger : Ledger) : Except Fault (Bool × Ledger) := do
  budgetKey executionKey
  let ownerHash ← budgetStartOwnerHash digests startOwnerToken
  let (run, segment, attempt) ← lockClaimedExecution tables claimed
  let (account, rows) ← readLedger digests ledger run
  authorize digests tables run segment attempt claimed now
  let row ← claimedReservation digests rows claimed executionKey
  let expected ← BudgetInvocationBinding.make row.id expectedInvocationId
    expectedInvocationChecksum
  let invocation ← storedInvocation digests row
  invocationScope invocation run claimed
  let binding ← bindingOf row
  require (expected = binding)
    (budgetConflict "Start intent does not match the bound invocation")
  verifyStartOwner row ownerHash
  if row.status = .startIntent then
    return (false, ledger)
  else do
    require (row.status = .reserved ∧ account.blockCode = none)
      (unavailable "Reservation cannot start")
    require (∀ parentId ∈ row.parentReservationId,
        ∃ parent ∈ rows.find? (fun other : RunBudgetReservation => other.id = parentId),
          parent.permitsChildren)
      (unavailable "Parent execution no longer permits child startup")
    return (true, ledger.save account.touch
      { row with status := .startIntent, startIntentAt := some now })

end Store

end SkillMind.Runs
