import SkillMind.Runs.RepositoryBudgets

/-!
# Settling what an execution consumed

The transactions of the reconciling worker. It works under a lease of its own on one reservation,
long after the execution lost its lease or its Run ended. Every report has a receipt: the same
content under the same key is a replay, other content under that key blocks the account, and an
invalid report is kept and blocks it too. The unconsumed part of a reservation is returned by
`release` only: when the execution was stopped and finally reported, or when it never started.
-/

namespace SkillMind.Runs

open Library

section Store

variable (digests : Digests)

/-- `_reconciliation_rows`: ended Runs are settled too, inside the Project boundary. -/
def reconciliationRows (tables : RunTables) (projectId runId : Uuid) (ledger : Ledger) :
    Except Fault (RunBudgetAccount × List RunBudgetReservation) := do
  let run ← orFault (unavailable "Budget Run is not available")
    (lockRunRow tables runId (some projectId))
  readLedger digests ledger run

def claimReconciliation (tables : RunTables) (now : Timestamp) (projectId runId : Uuid)
    (executionKey workerId token : String) (leaseSeconds : Int) (ledger : Ledger) :
    Except Fault (BudgetReconciliationClaim × Ledger) := do
  budgetKey executionKey
  budgetKey workerId
  budgetKey token
  require (1 ≤ leaseSeconds ∧ leaseSeconds ≤ 300)
    ⟨.budgetError, "Invalid reconciliation lease duration"⟩
  let (account, rows) ← reconciliationRows digests tables projectId runId ledger
  let row ← orFault (unavailable "Original reservation does not exist")
    (rows.find? fun row => row.executionKey = executionKey)
  match row.reconcileExpiresAt.filter fun expiry => now < expiry with
  | some expiry => do
    require (row.reconcileWorkerId = some workerId ∧
        row.reconcileTokenHash.getD "" = digests.leaseTokenHash token)
      (leaseInvalid "Reservation is already being reconciled")
    return (⟨projectId, runId, row.id, workerId, token, expiry⟩, ledger)
  | none =>
    let expiry := now + leaseSeconds.toNat
    return (⟨projectId, runId, row.id, workerId, token, expiry⟩,
      ledger.save account { row with
        reconcileWorkerId := some workerId
        reconcileTokenHash := some (digests.leaseTokenHash token)
        reconcileExpiresAt := some expiry })

def validateReconciliationClaim (row : RunBudgetReservation) (claim : BudgetReconciliationClaim)
    (now : Timestamp) : Except Fault Unit :=
  require (row.reconcileWorkerId = some claim.workerId ∧
      row.reconcileTokenHash.getD "" = digests.leaseTokenHash claim.token ∧
      row.reconcileExpiresAt = some claim.expiresAt ∧ now < claim.expiresAt)
    (leaseInvalid "Budget reconciliation lease is invalid")

def authorizeReconciliation (tables : RunTables) (now : Timestamp)
    (claim : BudgetReconciliationClaim) (ledger : Ledger) :
    Except Fault (RunBudgetAccount × List RunBudgetReservation × RunBudgetReservation) := do
  let (account, rows) ← reconciliationRows digests tables claim.projectId claim.runId ledger
  let row ← orFault (leaseInvalid "Budget reconciliation lease is invalid")
    (rows.find? fun row => row.id = claim.reservationId)
  validateReconciliationClaim digests row claim now
  return (account, rows, row)

/-- `_receipt`: the receipt of a reservation under a key. -/
def receiptOf (ledger : Ledger) (row : RunBudgetReservation) (key : String) :
    Option RunBudgetReceipt :=
  ledger.receipts.find? fun receipt => receipt.reservationId = row.id ∧ receipt.receiptKey = key

/-- What a receipt operation returns to its caller. -/
def receiptResult (account : RunBudgetAccount) (row : RunBudgetReservation)
    (disposition : Disposition) : BudgetReceiptResult :=
  ⟨accountRecord account, executionRecord row, disposition⟩

/-- `_record_receipt`: the receipt and the changed rows are written together.  The lease was
checked when the transaction read the row, at the same clock. -/
def recordReceipt (account : RunBudgetAccount) (row : RunBudgetReservation)
    (claim : BudgetReconciliationClaim) (key : String) (kind : ReceiptKind)
    (payload : ReceiptPayload) (disposition : Disposition) (ledger : Ledger) :
    BudgetReceiptResult × Ledger :=
  (receiptResult account.touch row disposition,
    { ledger.save account.touch row with
      receipts := ledger.receipts ++
        [⟨row.id, key, kind, payload, digests.budgetChecksum (.receipt kind payload),
          claim.workerId, disposition⟩] })

/-- `_replay`: the answer for a key that is already known, and nothing for a new one. -/
def replay (account : RunBudgetAccount) (row : RunBudgetReservation)
    (claim : BudgetReconciliationClaim) (key : String) (kind : ReceiptKind)
    (payload : ReceiptPayload) (ledger : Ledger) : Option (BudgetReceiptResult × Ledger) := do
  let existing ← receiptOf ledger row key
  let checksum := digests.budgetChecksum (.receipt kind payload)
  if existing.payloadChecksum = checksum then
    return (receiptResult account row .replay, ledger)
  else
    let blocked := account.block .receiptConflict
    let conflictKey := "conflict/" ++ digests.budgetChecksum (.conflict key checksum)
    match receiptOf ledger row conflictKey with
    | none =>
      return recordReceipt digests blocked row claim conflictKey .unverifiable
        (.conflict key checksum) .conflict ledger
    | some _ => return (receiptResult blocked row .conflict, ledger.save blocked row)

/-- One dimension of `_release`: the account gives back what the row still reserves. -/
def releaseDimension (account : RunBudgetAccount) (row : RunBudgetReservation)
    (dimension : Dimension) : Except Fault (RunBudgetAccount × RunBudgetReservation) :=
  match row.hold dimension with
  | none => return (account, row)
  | some hold => do
    let pool ← orFault ⟨.typeError, "account column is not set"⟩ (account.pool dimension)
    let pooled ← storedUnits (some pool.reserved)
    let held ← storedUnits (some hold.reserved)
    return (account.setPool dimension ⟨pool.consumed, pooled - held⟩,
      row.setHold dimension hold.release)

/-- `_release`: only the unused part is returned, nothing consumed is taken back. -/
def release (account : RunBudgetAccount) (row : RunBudgetReservation) :
    Except Fault (RunBudgetAccount × RunBudgetReservation) := do
  let (account, row) ← releaseDimension account row .turns
  releaseDimension account row .costNanos

/-- `_settle_if_confirmed`: a stop and a final report are both needed. -/
def settleIfConfirmed (account : RunBudgetAccount) (row : RunBudgetReservation) :
    Except Fault (RunBudgetAccount × RunBudgetReservation) :=
  if row.stopConfirmedAt ≠ none ∧ row.finalUsageAt ≠ none then do
    let (account, row) ← release account row
    return (account, { row with status := .settled })
  else return (account, row)

/-! ## Usage reports -/

def BudgetPolicy.dimensions (policy : BudgetPolicy) : List Dimension :=
  if policy.maxCostNanos = none then [.turns] else [.turns, .costNanos]

/-- What a report says against one dimension of the row: why it is invalid, if it is, and by
how much the consumption grows. -/
def usageDelta (report : UsagePayload) (row : RunBudgetReservation) (dimension : Dimension)
    (value : Int) : Except Fault (Option BlockCode × Int) := do
  let hold ← orFault ⟨.typeError, "reservation column is not set"⟩ (row.hold dimension)
  match report.mode with
  | .incremental => return (none, value)
  | .cumulative => do
    let watermark ← orFault ⟨.typeError, "cumulative report without watermark"⟩
      report.watermark
    let previous := row.watermark dimension
    let stale := if report.final ∧ watermark < previous then some .staleFinalUsage else none
    let invalid :=
      if (previous ≤ watermark ∧ value < hold.consumed) ∨
          (watermark ≤ previous ∧ hold.consumed < value) then
        some .cumulativeUsageConflict
      else stale
    return (invalid, max 0 (value - hold.consumed))

/-- The verdict and the deltas over all metered dimensions; a later verdict replaces an
earlier one, and a dimension without a value is skipped. -/
def usageDeltas (report : UsagePayload) (row : RunBudgetReservation) :
    Option BlockCode → List Dimension →
      Except Fault (Option BlockCode × List (Dimension × Int))
  | invalid, [] => return (invalid, [])
  | invalid, dimension :: rest =>
    match report.value dimension with
    | none => usageDeltas report row invalid rest
    | some value => do
      let (found, delta) ← usageDelta report row dimension value
      let (verdict, deltas) ← usageDeltas report row (found.or invalid) rest
      return (verdict, (dimension, delta) :: deltas)

/-- The rows of an account entry in progress. -/
structure Entry where
  account : RunBudgetAccount
  row : RunBudgetReservation
  overspent : Bool

/-- One dimension of the report is entered: the delta is drawn from the hold of the row and
mirrored in the pool of the account. -/
def enterDelta (report : UsagePayload) (entry : Entry) (dimension : Dimension) (delta : Int) :
    Except Fault Entry := do
  let row := entry.row
  let hold ← orFault ⟨.typeError, "reservation column is not set"⟩ (row.hold dimension)
  let pool ← orFault (unavailable "Stored budget amount is not finite")
    (entry.account.pool dimension)
  let _ ← storedUnits (some hold.consumed)
  let consumed ← storedUnits (some pool.consumed)
  let reserved ← storedUnits (some pool.reserved)
  let drawn := hold.draw delta
  let account := entry.account.setPool dimension
    ⟨consumed + delta, reserved - hold.transfer delta⟩
  let held := row.setHold dimension drawn
  return {
    account :=
      if row.finalUsageAt ≠ none ∧ delta ≠ 0 then account.block .usageAfterFinalReport
      else account
    row :=
      match report.watermark with
      | none => held
      | some watermark => held.setWatermark dimension (max (row.watermark dimension) watermark)
    overspent := entry.overspent || decide (drawn.granted < drawn.consumed) }

def enterDeltas (report : UsagePayload) (entry : Entry) :
    List (Dimension × Int) → Except Fault Entry
  | [] => return entry
  | (dimension, delta) :: rest => do
    let entry ← enterDelta report entry dimension delta
    enterDeltas report entry rest

/-- Why the report is not accepted at all, before its values are looked at. -/
def reportMismatch (policy : BudgetPolicy) (row : RunBudgetReservation) (report : UsagePayload) :
    Option BlockCode :=
  if row.status = .reserved ∨ row.status = .released then some .usageWithoutStartIntent
  else if report.source ≠ policy.source ∨ report.meteringVersion ≠ policy.meteringVersion ∨
      report.mode ≠ policy.mode then some .meteringIdentityMismatch
  else none

def enterReport (now : Timestamp) (account : RunBudgetAccount) (row : RunBudgetReservation)
    (report : UsagePayload) (deltas : List (Dimension × Int)) :
    Except Fault (RunBudgetAccount × RunBudgetReservation × Disposition) := do
  let entry ← enterDeltas report ⟨account, row, false⟩ deltas
  let account := if entry.overspent then entry.account.block .budgetOverspent else entry.account
  let complete := report.final ∧ ∀ dimension ∈ account.policy.dimensions,
    report.value dimension ≠ none
  let row :=
    if complete then { entry.row with finalUsageAt := entry.row.finalUsageAt.or (some now) }
    else entry.row
  let (account, row) ← settleIfConfirmed account row
  return (account, row, if entry.overspent then .overspent else .applied)

def recordUsage (tables : RunTables) (now : Timestamp) (claim : BudgetReconciliationClaim)
    (report : BudgetUsageReport) (ledger : Ledger) :
    Except Fault (BudgetReceiptResult × Ledger) := do
  let (account, _, row) ← authorizeReconciliation digests tables now claim ledger
  let payload := report.toUsagePayload
  match replay digests account row claim report.reportKey .usage (.usage payload) ledger with
  | some answer => return answer
  | none => do
    let (invalid, deltas) ← usageDeltas payload row (reportMismatch account.policy row payload)
      account.policy.dimensions
    match invalid with
    | some code =>
      return recordReceipt digests (account.block code) row claim report.reportKey .usage
        (.usage payload) .invalid ledger
    | none => do
      let (account, row, disposition) ← enterReport now account row payload deltas
      return recordReceipt digests account row claim report.reportKey .usage
        (.usage payload) disposition ledger

def confirmStopped (tables : RunTables) (now : Timestamp) (claim : BudgetReconciliationClaim)
    (receiptKey verifiedEvidence : String) (ledger : Ledger) :
    Except Fault (BudgetReceiptResult × Ledger) := do
  budgetKey receiptKey
  budgetKey verifiedEvidence
  let (account, _, row) ← authorizeReconciliation digests tables now claim ledger
  let payload := ReceiptPayload.stop verifiedEvidence
  match replay digests account row claim receiptKey .stop payload ledger with
  | some answer => return answer
  | none => do
    require (row.startIntentAt ≠ none)
      ⟨.budgetError, "An unstarted reservation requires the no-start release path"⟩
    let stopped := { row with stopConfirmedAt := row.stopConfirmedAt.or (some now) }
    let (account, row) ← settleIfConfirmed account stopped
    return recordReceipt digests account row claim receiptKey .stop payload .applied ledger

def releaseUnstarted (tables : RunTables) (now : Timestamp) (claim : BudgetReconciliationClaim)
    (receiptKey : String) (ledger : Ledger) : Except Fault (BudgetReceiptResult × Ledger) := do
  budgetKey receiptKey
  let (account, _, row) ← authorizeReconciliation digests tables now claim ledger
  match replay digests account row claim receiptKey .unstarted .unstarted ledger with
  | some answer => return answer
  | none => do
    require (account.blockCode = none ∧ row.startIntentAt = none ∧
        (row.status = .reserved ∨ row.status = .released))
      ⟨.budgetError, "Start intent may already have caused billable execution"⟩
    let (account, row) ← release account row
    return recordReceipt digests account { row with status := .released } claim receiptKey
      .unstarted .unstarted .applied ledger

def markUnverifiable (tables : RunTables) (now : Timestamp) (claim : BudgetReconciliationClaim)
    (receiptKey evidenceChecksum : String) (ledger : Ledger) :
    Except Fault (BudgetReceiptResult × Ledger) := do
  budgetKey receiptKey
  budgetKey evidenceChecksum
  let (account, _, row) ← authorizeReconciliation digests tables now claim ledger
  let payload := ReceiptPayload.unverifiable evidenceChecksum
  match replay digests account row claim receiptKey .unverifiable payload ledger with
  | some answer => return answer
  | none =>
    return recordReceipt digests (account.block .usageUnverifiable) row claim receiptKey
      .unverifiable payload .invalid ledger

/-- An observation is stored beside the receipts; it never counts as usage or as a stop. -/
def recordObservation (tables : RunTables) (now : Timestamp) (claim : BudgetReconciliationClaim)
    (observation : ResultUsageObservation) (ledger : Ledger) :
    Except Fault (BudgetReceiptResult × Ledger) := do
  let (account, _, row) ← authorizeReconciliation digests tables now claim ledger
  let invocation ← storedInvocation digests row
  require (invocation.projectId = claim.projectId ∧ invocation = observation.invocation)
    (budgetConflict "Observation does not match the bound invocation")
  require (row.status = .startIntent ∨ row.status = .settled)
    (unavailable "Raw observation requires an original start intent")
  let key := observation.observationKey
  budgetKey key
  let checksum := digests.budgetChecksum (.observation observation)
  match ledger.observations.find? fun other =>
      other.reservationId = row.id ∧ other.observationKey = key with
  | none =>
    return (receiptResult account row .observed,
      { ledger with
        observations := ledger.observations ++
          [⟨row.id, invocation.invocationId, key, observation, checksum, claim.workerId⟩] })
  | some existing =>
    if existing.invocationId = invocation.invocationId ∧ existing.payloadChecksum = checksum ∧
        digests.budgetChecksum (.observation existing.payload) = existing.payloadChecksum ∧
        existing.payload = observation then
      return (receiptResult account row .replay, ledger)
    else
      let blocked := account.block .observationConflict
      let conflictKey :=
        "observation-conflict/" ++ digests.budgetChecksum (.conflict key checksum)
      match receiptOf ledger row conflictKey with
      | none =>
        return recordReceipt digests blocked row claim conflictKey .unverifiable
          (.conflict key checksum) .conflict ledger
      | some _ =>
        let touched :=
          if account.blockCode = some .observationConflict then blocked else blocked.touch
        return (receiptResult touched row .conflict, ledger.save touched row)

inductive BudgetOperation where
  | reservePrimary (claimed : ClaimedRun) (expectedPolicy : BudgetPolicy) (confirmOnly : Bool)
  | reserveGroup (claimed : ClaimedRun) (groupKey : String)
      (requests : List BudgetReservationRequest) (confirmOnly : Bool)
  | bindInvocation (claimed : ClaimedRun) (executionKey : String) (invocation : AgentInvocation)
      (startOwnerToken : String) (confirmOnly : Bool)
  | startExecution (claimed : ClaimedRun) (executionKey : String) (expectedInvocationId : Uuid)
      (expectedInvocationChecksum startOwnerToken : String)
  | claimReconciliation (projectId runId : Uuid) (executionKey workerId token : String)
      (leaseSeconds : Int)
  | recordUsage (claim : BudgetReconciliationClaim) (report : BudgetUsageReport)
  | confirmStopped (claim : BudgetReconciliationClaim) (receiptKey verifiedEvidence : String)
  | releaseUnstarted (claim : BudgetReconciliationClaim) (receiptKey : String)
  | markUnverifiable (claim : BudgetReconciliationClaim) (receiptKey evidenceChecksum : String)
  | recordObservation (claim : BudgetReconciliationClaim) (observation : ResultUsageObservation)

/-- A call: the operation, what the tables of the Run say while it holds the Run lock, the
clock and the identifiers it draws. -/
structure BudgetCall where
  tables : RunTables
  now : Timestamp
  freshIds : List Uuid
  operation : BudgetOperation

inductive BudgetAnswer where
  | executions (records : List BudgetExecutionRecord)
  | binding (binding : BudgetInvocationBinding)
  | started (permitted : Bool)
  | claim (claim : BudgetReconciliationClaim)
  | receipt (result : BudgetReceiptResult)

def execBudget (call : BudgetCall) (ledger : Ledger) : Except Fault (BudgetAnswer × Ledger) :=
  match call.operation with
  | .reservePrimary claimed policy confirmOnly =>
    answering .executions
      (reservePrimary digests call.tables call.now call.freshIds claimed policy confirmOnly
        ledger)
  | .reserveGroup claimed groupKey requests confirmOnly =>
    answering .executions
      (reserveGroup digests call.tables call.now call.freshIds claimed groupKey requests
        confirmOnly ledger)
  | .bindInvocation claimed key invocation token confirmOnly =>
    answering .binding
      (bindInvocation digests call.tables call.now claimed key invocation token confirmOnly
        ledger)
  | .startExecution claimed key invocationId checksum token =>
    answering .started
      (startExecution digests call.tables call.now claimed key invocationId checksum token
        ledger)
  | .claimReconciliation projectId runId key workerId token leaseSeconds =>
    answering .claim
      (claimReconciliation digests call.tables call.now projectId runId key workerId token
        leaseSeconds ledger)
  | .recordUsage claim report =>
    answering .receipt (recordUsage digests call.tables call.now claim report ledger)
  | .confirmStopped claim key evidence =>
    answering .receipt (confirmStopped digests call.tables call.now claim key evidence ledger)
  | .releaseUnstarted claim key =>
    answering .receipt (releaseUnstarted digests call.tables call.now claim key ledger)
  | .markUnverifiable claim key evidence =>
    answering .receipt
      (markUnverifiable digests call.tables call.now claim key evidence ledger)
  | .recordObservation claim observation =>
    answering .receipt
      (recordObservation digests call.tables call.now claim observation ledger)

def budgetStore : TransactionSystem Ledger BudgetCall BudgetAnswer Fault := ⟨execBudget digests⟩

end Store

end SkillMind.Runs
