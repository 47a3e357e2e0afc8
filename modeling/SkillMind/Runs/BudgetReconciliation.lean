import SkillMind.Runs.BudgetExecution

/-!
# The reconciling worker on a sound ledger

One inversion lemma for each transaction of the reconciling worker. Each of them works on the
reservation its lease names and either repeats a known receipt, notes the report as invalid, or
changes that one row. Together with the executing worker this covers the store, so the ledger is
sound in every reachable state.
-/

namespace SkillMind.Runs

open Library

section Store

variable {digests : Digests}

inductive UsageOutcome (digests : Digests) (now : Timestamp) (claim : BudgetReconciliationClaim)
    (report : BudgetUsageReport) (account : RunBudgetAccount) (row : RunBudgetReservation)
    (ledger ledger' : Ledger) : Prop where
  | replayed {result : BudgetReceiptResult}
      (known : replay digests account row claim report.reportKey .usage
        (.usage report.toUsagePayload) ledger = some (result, ledger')) :
      UsageOutcome digests now claim report account row ledger ledger'
  | invalid {code : BlockCode} {deltas : List (Dimension × Int)}
      (fresh : receiptOf ledger row report.reportKey = none)
      (verdict : usageDeltas report.toUsagePayload row
        (reportMismatch account.policy row report.toUsagePayload) account.policy.dimensions =
          .ok (some code, deltas))
      (written : ledger' = (recordReceipt digests (account.block code) row claim
        report.reportKey .usage (.usage report.toUsagePayload) .invalid ledger).2) :
      UsageOutcome digests now claim report account row ledger ledger'
  | accepted {deltas : List (Dimension × Int)} {account' : RunBudgetAccount}
      {row' : RunBudgetReservation} {disposition : Disposition}
      (fresh : receiptOf ledger row report.reportKey = none)
      (verdict : usageDeltas report.toUsagePayload row
        (reportMismatch account.policy row report.toUsagePayload) account.policy.dimensions =
          .ok (none, deltas))
      (entered : enterReport now account row report.toUsagePayload deltas =
        .ok (account', row', disposition))
      (written : ledger' = (recordReceipt digests account' row' claim report.reportKey .usage
        (.usage report.toUsagePayload) disposition ledger).2) :
      UsageOutcome digests now claim report account row ledger ledger'

variable {account : RunBudgetAccount} {row : RunBudgetReservation}
  {claim : BudgetReconciliationClaim} {key : String} {kind : ReceiptKind} {payload : ReceiptPayload}
  {ledger : Ledger}

theorem replay_eq_none :
    replay digests account row claim key kind payload ledger = none ↔
      receiptOf ledger row key = none := by
  unfold replay
  cases receiptOf ledger row key with
  | none => simp
  | some existing =>
    simp only [Option.bind_eq_bind, Option.bind_some, reduceCtorEq, iff_false]
    split
    · simp
    · split <;> simp

variable {tables : RunTables} {now : Timestamp} {ledger' : Ledger} {result : BudgetReceiptResult}

theorem recordUsage_spec
    {report : BudgetUsageReport}
        (sound : LedgerSound ledger account)
    (committed : recordUsage digests tables now claim report ledger = .ok (result, ledger')) :
    ∃ row ∈ ledger.reservations, row.id = claim.reservationId ∧
      UsageOutcome digests now claim report account row ledger ledger' := by
  simp only [recordUsage, bind_eq_ok, Prod.exists] at committed
  obtain ⟨account₁, _, row, authorized, committed⟩ := committed
  obtain ⟨rfl, mem, id⟩ := authorizeReconciliation_sound sound authorized
  refine ⟨row, mem, id, ?_⟩
  split at committed
  · rename_i answer known
    simp only [pure_eq_ok] at committed
    exact .replayed (committed ▸ known)
  · rename_i fresh
    have fresh := replay_eq_none.mp fresh
    simp only [bind_eq_ok, Prod.exists] at committed
    obtain ⟨verdict, deltas, computed, committed⟩ := committed
    cases verdict with
    | some code =>
      simp only [pure_eq_ok] at committed
      exact .invalid fresh computed (congrArg Prod.snd committed).symm
    | none =>
      simp only [bind_eq_ok, Prod.exists, pure_eq_ok] at committed
      obtain ⟨account', row', disposition, entered, committed⟩ := committed
      exact .accepted fresh computed entered (congrArg Prod.snd committed).symm

theorem started_of_verdict {report : UsagePayload}
    (sound : RowSound row) {dimensions : List Dimension}
    {deltas : List (Dimension × Int)}
    (verdict : usageDeltas report row (reportMismatch account.policy row report) dimensions =
      .ok (none, deltas)) : row.startIntentAt ≠ none := by
  -- A verdict is replaced by a later one and never withdrawn.
  have stays : ∀ (dimensions : List Dimension) (before : Option BlockCode)
      (deltas : List (Dimension × Int)),
      usageDeltas report row before dimensions = .ok (none, deltas) → before = none := by
    intro dimensions
    induction dimensions with
    | nil =>
      intro before deltas computed
      simp only [usageDeltas, pure_eq_ok, Prod.mk.injEq] at computed
      exact computed.1
    | cons d rest ih =>
      intro before deltas computed
      simp only [usageDeltas] at computed
      split at computed
      · exact ih before deltas computed
      · simp only [bind_eq_ok, Prod.exists, pure_eq_ok, Prod.mk.injEq] at computed
        obtain ⟨found, delta, -, verdict, later, tail, rfl, -⟩ := computed
        have combined := ih _ later tail
        exact (Option.or_eq_none_iff.mp combined).2
  have matched := stays dimensions _ deltas verdict
  intro unstarted
  simp [reportMismatch, sound.started.mp unstarted] at matched

theorem UsageOutcome.move
    {report : BudgetUsageReport}
    (sound : LedgerSound ledger account)
    (mem : row ∈ ledger.reservations)
    (outcome : UsageOutcome digests now claim report account row ledger ledger') :
    Move ledger account ledger' := by
  have rowSound := sound.rows row mem
  cases outcome with
  | replayed known => exact replay_move sound mem known
  | invalid _ _ written =>
    rw [written]
    exact recordReceipt_move mem (.blocked rowSound _) _ _ _ _ _
  | accepted _ verdict entered written =>
    rw [written]
    obtain ⟨distinct, nonneg, -⟩ := usageDeltas_spec (dimensions_nodup _) verdict
    have change := enterReport_change rowSound (started_of_verdict rowSound verdict) distinct
      nonneg entered
    exact recordReceipt_move mem change _ _ _ _ _

/-! ## Leases, stops and releases -/

theorem claimReconciliation_spec {projectId runId : Uuid}
    {executionKey workerId token : String} {leaseSeconds : Int}
        (sound : LedgerSound ledger account)
    (committed : claimReconciliation digests tables now projectId runId executionKey workerId
      token leaseSeconds ledger = .ok (claim, ledger')) :
    ledger' = ledger ∨
      ∃ row ∈ ledger.reservations, ∃ worker hash expiry, ledger' = ledger.save account
        { row with
          reconcileWorkerId := worker
          reconcileTokenHash := hash
          reconcileExpiresAt := expiry } := by
  simp only [claimReconciliation, reconciliationRows, bind_eq_ok, orFault_eq_ok, require_eq_ok,
    exists_unit, Prod.exists] at committed
  obtain ⟨-, -, -, -, account₁, rows, ⟨run, -, read⟩, row, search, committed⟩ := committed
  obtain ⟨rfl, -, rfl⟩ := readLedger_sound sound read
  obtain ⟨mem, -⟩ := find_key search
  split at committed
  · simp only [bind_eq_ok, require_eq_ok, exists_unit, pure_eq_ok, Prod.mk.injEq] at committed
    exact Or.inl committed.2.2.symm
  · simp only [pure_eq_ok, Prod.mk.injEq] at committed
    exact Or.inr ⟨row, mem, _, _, _, committed.2.symm⟩

theorem lease_change
    (sound : RowSound row) (worker hash : Option String) (expiry : Option Timestamp) :
    Change account row account
      { row with
        reconcileWorkerId := worker
        reconcileTokenHash := hash
        reconcileExpiresAt := expiry } := by
  refine .of_same_balances rfl (fun _ => rfl) (fun d => by cases d <;> rfl) rfl rfl rfl rfl
    (fun h => h) ?_ (fun h => h) (fun h => h) (fun h => h)
  exact ⟨sound.sound, sound.tight, sound.closed, sound.started, sound.unstarted, sound.settled⟩

/-- What a receipt that is not a usage report leads to: a known receipt is repeated, a new one
is written with a changed row. -/
inductive ReceiptOutcome (digests : Digests) (claim : BudgetReconciliationClaim) (key : String)
    (kind : ReceiptKind) (payload : ReceiptPayload) (account : RunBudgetAccount)
    (row : RunBudgetReservation) (ledger ledger' : Ledger) : Prop where
  | replayed {result : BudgetReceiptResult}
      (known : replay digests account row claim key kind payload ledger = some (result, ledger')) :
      ReceiptOutcome digests claim key kind payload account row ledger ledger'
  | written {account' : RunBudgetAccount} {row' : RunBudgetReservation}
      {disposition : Disposition} (fresh : receiptOf ledger row key = none)
      (change : Change account row account' row')
      (written : ledger' = (recordReceipt digests account' row' claim key kind payload disposition
        ledger).2) :
      ReceiptOutcome digests claim key kind payload account row ledger ledger'

theorem ReceiptOutcome.move
        (sound : LedgerSound ledger account)
    (mem : row ∈ ledger.reservations)
    (outcome : ReceiptOutcome digests claim key kind payload account row ledger ledger') :
    Move ledger account ledger' := by
  cases outcome with
  | replayed known => exact replay_move sound mem known
  | written _ change written =>
    rw [written]
    exact recordReceipt_move mem change _ _ _ _ _

theorem confirmStopped_spec
    {evidence : String}
        (sound : LedgerSound ledger account)
    (committed : confirmStopped digests tables now claim key evidence ledger =
      .ok (result, ledger')) :
    ∃ row ∈ ledger.reservations, row.id = claim.reservationId ∧
      ReceiptOutcome digests claim key .stop (.stop evidence) account row ledger ledger' := by
  simp only [confirmStopped, bind_eq_ok, exists_unit, Prod.exists] at committed
  obtain ⟨-, -, account₁, _, row, authorized, committed⟩ := committed
  obtain ⟨rfl, mem, id⟩ := authorizeReconciliation_sound sound authorized
  refine ⟨row, mem, id, ?_⟩
  split at committed
  · rename_i answer known
    simp only [pure_eq_ok] at committed
    exact .replayed (committed ▸ known)
  · rename_i fresh
    simp only [bind_eq_ok, require_eq_ok, exists_unit, Prod.exists, pure_eq_ok] at committed
    obtain ⟨started, account', row', settled, committed⟩ := committed
    exact .written (replay_eq_none.mp fresh) (stop_change (sound.rows row mem) started settled)
      (congrArg Prod.snd committed).symm

theorem releaseUnstarted_spec
            (sound : LedgerSound ledger account)
    (committed : releaseUnstarted digests tables now claim key ledger = .ok (result, ledger')) :
    ∃ row ∈ ledger.reservations, row.id = claim.reservationId ∧
      ReceiptOutcome digests claim key .unstarted .unstarted account row ledger ledger' ∧
      (receiptOf ledger row key = none → account.blockCode = none) := by
  simp only [releaseUnstarted, bind_eq_ok, exists_unit, Prod.exists] at committed
  obtain ⟨-, account₁, _, row, authorized, committed⟩ := committed
  obtain ⟨rfl, mem, id⟩ := authorizeReconciliation_sound sound authorized
  refine ⟨row, mem, id, ?_⟩
  split at committed
  · rename_i answer known
    simp only [pure_eq_ok] at committed
    refine ⟨.replayed (committed ▸ known), fun fresh => ?_⟩
    rw [replay_eq_none.mpr fresh] at known
    cases known
  · rename_i fresh
    simp only [bind_eq_ok, require_eq_ok, exists_unit, Prod.exists, pure_eq_ok] at committed
    obtain ⟨⟨unblocked, unstarted, -⟩, account', row', released, committed⟩ := committed
    exact ⟨.written (replay_eq_none.mp fresh)
      (releaseUnstarted_change (sound.rows row mem) unstarted released)
      (congrArg Prod.snd committed).symm, fun _ => unblocked⟩

theorem markUnverifiable_spec
    {evidence : String}
        (sound : LedgerSound ledger account)
    (committed : markUnverifiable digests tables now claim key evidence ledger =
      .ok (result, ledger')) :
    ∃ row ∈ ledger.reservations, row.id = claim.reservationId ∧
      ReceiptOutcome digests claim key .unverifiable (.unverifiable evidence) account row ledger
        ledger' := by
  simp only [markUnverifiable, bind_eq_ok, exists_unit, Prod.exists] at committed
  obtain ⟨-, -, account₁, _, row, authorized, committed⟩ := committed
  obtain ⟨rfl, mem, id⟩ := authorizeReconciliation_sound sound authorized
  refine ⟨row, mem, id, ?_⟩
  split at committed
  · rename_i answer known
    simp only [pure_eq_ok] at committed
    exact .replayed (committed ▸ known)
  · rename_i fresh
    simp only [pure_eq_ok] at committed
    exact .written (replay_eq_none.mp fresh)
      (.blocked (sound.rows row mem) _) (congrArg Prod.snd committed).symm

/-- The receipts grow by at most one, under a key its reservation did not have. -/
inductive Receipted (digests : Digests) (ledger ledger' : Ledger) : Prop where
  | kept (same : ledger'.receipts = ledger.receipts) : Receipted digests ledger ledger'
  | added (receipt : RunBudgetReceipt)
      (fresh : ∀ old ∈ ledger.receipts, ¬ (old.reservationId = receipt.reservationId ∧
        old.receiptKey = receipt.receiptKey))
      (checksum : receipt.payloadChecksum =
        digests.budgetChecksum (.receipt receipt.kind receipt.payload))
      (appended : ledger'.receipts = ledger.receipts ++ [receipt]) :
      Receipted digests ledger ledger'

theorem recordReceipt_receipted {row' : RunBudgetReservation}
    {disposition : Disposition}
    (fresh : receiptOf ledger row key = none) (id : row'.id = row.id) :
    Receipted digests ledger
      (recordReceipt digests account row' claim key kind payload disposition ledger).2 := by
  refine .added _ (fun old mem same => ?_) rfl rfl
  have miss := List.find?_eq_none.mp fresh old mem
  simp [same.1, same.2, id] at miss

theorem replay_receipted
            (replayed : replay digests account row claim key kind payload ledger =
      some (result, ledger')) : Receipted digests ledger ledger' := by
  simp only [replay, Option.bind_eq_bind, Option.bind_eq_some_iff] at replayed
  obtain ⟨existing, -, replayed⟩ := replayed
  split at replayed
  · simp only [Option.pure_def, Option.some.injEq, Prod.mk.injEq] at replayed
    exact .kept (replayed.2 ▸ rfl)
  · split at replayed
    · rename_i fresh
      simp only [Option.pure_def, Option.some.injEq] at replayed
      rw [← show _ = ledger' from congrArg Prod.snd replayed]
      exact recordReceipt_receipted fresh rfl
    · simp only [Option.pure_def, Option.some.injEq, Prod.mk.injEq] at replayed
      exact .kept (replayed.2 ▸ rfl)

theorem UsageOutcome.receipted
    {report : BudgetUsageReport}
    (sound : RowSound row)
    (outcome : UsageOutcome digests now claim report account row ledger ledger') :
    Receipted digests ledger ledger' := by
  cases outcome with
  | replayed known => exact replay_receipted known
  | invalid fresh _ written =>
    rw [written]
    exact recordReceipt_receipted fresh rfl
  | accepted fresh verdict entered written =>
    rw [written]
    obtain ⟨distinct, nonneg, -⟩ := usageDeltas_spec (dimensions_nodup _) verdict
    exact recordReceipt_receipted fresh
      (enterReport_change sound (started_of_verdict sound verdict) distinct nonneg entered).id

theorem ReceiptOutcome.receipted
            (outcome : ReceiptOutcome digests claim key kind payload account row ledger ledger') :
    Receipted digests ledger ledger' := by
  cases outcome with
  | replayed known => exact replay_receipted known
  | written fresh change written =>
    rw [written]
    exact recordReceipt_receipted fresh change.id

theorem recordObservation_spec
    {observation : ResultUsageObservation}
        (sound : LedgerSound ledger account)
    (committed : recordObservation digests tables now claim observation ledger =
      .ok (result, ledger')) :
    Move ledger account ledger' ∧ Receipted digests ledger ledger' := by
  simp only [recordObservation, bind_eq_ok, require_eq_ok, exists_unit, Prod.exists] at committed
  obtain ⟨account₁, _, row, authorized, _, -, -, -, -, committed⟩ := committed
  obtain ⟨rfl, mem, -⟩ := authorizeReconciliation_sound sound authorized
  have rowSound := sound.rows row mem
  have blocked : Change account₁ row (account₁.block .observationConflict) row :=
    .blocked rowSound _
  split at committed
  · simp only [pure_eq_ok, Prod.mk.injEq] at committed
    obtain ⟨-, rfl⟩ := committed
    exact ⟨.kept rfl rfl, .kept rfl⟩
  · split at committed
    · simp only [pure_eq_ok, Prod.mk.injEq] at committed
      obtain ⟨-, rfl⟩ := committed
      exact ⟨.kept rfl rfl, .kept rfl⟩
    · split at committed
      · rename_i fresh
        simp only [pure_eq_ok] at committed
        rw [← show _ = ledger' from congrArg Prod.snd committed]
        exact ⟨recordReceipt_move mem blocked _ _ _ _ _, recordReceipt_receipted fresh rfl⟩
      · simp only [pure_eq_ok, Prod.mk.injEq] at committed
        obtain ⟨-, rfl⟩ := committed
        refine ⟨.changed row _ row mem ?_ rfl rfl, .kept rfl⟩
        split
        · exact blocked
        · exact blocked.touch

theorem reserveGroup_move {freshIds : List Uuid}
    {claimed : ClaimedRun} {groupKey : String} {requests : List BudgetReservationRequest}
    {confirmOnly : Bool}
    {records : List BudgetExecutionRecord} (sound : LedgerSound ledger account)
    (committed : reserveGroup digests tables now freshIds claimed groupKey requests confirmOnly
      ledger = .ok (records, ledger')) :
    Move ledger account ledger' ∧ Receipted digests ledger ledger' := by
  rcases reserveGroup_spec sound committed with ⟨rfl, -⟩ | ⟨group, account', add, -, rfl⟩
  · exact ⟨.kept rfl rfl, .kept rfl⟩
  · exact ⟨.added group account' add rfl rfl, .kept rfl⟩

theorem execBudget_spec {call : BudgetCall}
    {answer : BudgetAnswer} (sound : LedgerSound ledger account)
    (committed : (budgetStore digests).exec call ledger = .ok (answer, ledger')) :
    Move ledger account ledger' ∧ Receipted digests ledger ledger' := by
  obtain ⟨tables, now, freshIds, operation⟩ := call
  cases operation with
  | reservePrimary claimed policy confirmOnly =>
    obtain ⟨_, committed, -⟩ := answering_eq_ok.mp committed
    obtain ⟨_, _, reserved⟩ := reservePrimary_reserveGroup committed
    exact reserveGroup_move sound reserved
  | reserveGroup claimed groupKey requests confirmOnly =>
    obtain ⟨_, committed, -⟩ := answering_eq_ok.mp committed
    exact reserveGroup_move sound committed
  | bindInvocation claimed key invocation token confirmOnly =>
    obtain ⟨_, committed, -⟩ := answering_eq_ok.mp committed
    rcases bindInvocation_spec sound committed with rfl | ⟨row, mem, row', -, -, change, rfl⟩
    · exact ⟨.kept rfl rfl, .kept rfl⟩
    · exact ⟨.changed row account row' mem change rfl rfl, .kept rfl⟩
  | startExecution claimed key invocationId checksum token =>
    obtain ⟨_, committed, -⟩ := answering_eq_ok.mp committed
    obtain ⟨row, mem, -, ⟨-, -, rfl⟩ | ⟨-, reserved, -, -, rfl⟩⟩ :=
      startExecution_spec sound committed
    · exact ⟨.kept rfl rfl, .kept rfl⟩
    · exact ⟨.changed row _ _ mem (start_change (sound.rows row mem) reserved) rfl rfl,
        .kept rfl⟩
  | claimReconciliation projectId runId key workerId token leaseSeconds =>
    obtain ⟨_, committed, -⟩ := answering_eq_ok.mp committed
    rcases claimReconciliation_spec sound committed with
      rfl | ⟨row, mem, worker, hash, expiry, rfl⟩
    · exact ⟨.kept rfl rfl, .kept rfl⟩
    · exact ⟨.changed row account _ mem (lease_change (sound.rows row mem) _ _ _) rfl rfl,
        .kept rfl⟩
  | recordUsage claim report =>
    obtain ⟨_, committed, -⟩ := answering_eq_ok.mp committed
    obtain ⟨row, mem, -, outcome⟩ := recordUsage_spec sound committed
    exact ⟨outcome.move sound mem, outcome.receipted (sound.rows row mem)⟩
  | confirmStopped claim key evidence =>
    obtain ⟨_, committed, -⟩ := answering_eq_ok.mp committed
    obtain ⟨row, mem, -, outcome⟩ := confirmStopped_spec sound committed
    exact ⟨outcome.move sound mem, outcome.receipted⟩
  | releaseUnstarted claim key =>
    obtain ⟨_, committed, -⟩ := answering_eq_ok.mp committed
    obtain ⟨row, mem, -, outcome, -⟩ := releaseUnstarted_spec sound committed
    exact ⟨outcome.move sound mem, outcome.receipted⟩
  | markUnverifiable claim key evidence =>
    obtain ⟨_, committed, -⟩ := answering_eq_ok.mp committed
    obtain ⟨row, mem, -, outcome⟩ := markUnverifiable_spec sound committed
    exact ⟨outcome.move sound mem, outcome.receipted⟩
  | recordObservation claim observation =>
    obtain ⟨_, committed, -⟩ := answering_eq_ok.mp committed
    exact recordObservation_spec sound committed

theorem execBudget_move {call : BudgetCall}
    {answer : BudgetAnswer} (sound : LedgerSound ledger account)
    (committed : (budgetStore digests).exec call ledger = .ok (answer, ledger')) :
    Move ledger account ledger' :=
  (execBudget_spec sound committed).1

end Store

end SkillMind.Runs
