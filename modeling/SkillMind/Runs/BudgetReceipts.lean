import SkillMind.Runs.BudgetStarts

/-!
# Receipts, blocks and the return of a reservation

A receipt key is spent on its first content. The same content again leaves the ledger as it is,
other content leaves every balance and blocks the account. A block is never lifted, and on a
blocked account the worker's calls repeat stored results and change nothing. Consumption only
grows, and what a started execution still holds is returned by the transaction after which its
stop and its final usage are both known.
-/

namespace SkillMind.Runs

open Library

section Store

variable {digests : Digests}

/-! ## Sound receipts -/

/-- One receipt per reservation and key, each with the checksum of its content. -/
structure ReceiptsSound (digests : Digests) (ledger : Ledger) : Prop where
  keys : Keyed (fun receipt : RunBudgetReceipt => (receipt.reservationId, receipt.receiptKey))
    ledger.receipts
  checksums : ∀ receipt ∈ ledger.receipts,
    receipt.payloadChecksum = digests.budgetChecksum (.receipt receipt.kind receipt.payload)

theorem Receipted.sound {ledger ledger' : Ledger} (sound : ReceiptsSound digests ledger)
    (receipted : Receipted digests ledger ledger') : ReceiptsSound digests ledger' := by
  cases receipted with
  | kept same => exact ⟨same ▸ sound.keys, same ▸ sound.checksums⟩
  | added receipt fresh checksum appended =>
    refine ⟨?_, ?_⟩
    · rw [appended]
      refine keyed_append.mpr ⟨sound.keys, List.nodup_singleton _, ?_⟩
      intro old mem added isAdded
      obtain rfl := List.mem_singleton.mp isAdded
      exact fun same => fresh old mem (Prod.mk.injEq .. ▸ same)
    · intro stored mem
      rw [appended] at mem
      rcases List.mem_append.mp mem with old | new
      · exact sound.checksums stored old
      · obtain rfl := List.mem_singleton.mp new
        exact checksum

def ReceiptInvariant (digests : Digests) (run : Run) (ledger : Ledger) : Prop :=
  BudgetInvariant digests run ledger ∧ ReceiptsSound digests ledger

theorem receiptInvariant_invariant (run : Run) :
    (budgetStore digests).Invariant (ReceiptInvariant digests run) := by
  rintro ledger call answer ledger' ⟨budget, receipts⟩ committed
  refine ⟨budgetInvariant_invariant run ledger call answer ledger' budget committed, ?_⟩
  obtain ⟨account, sound, -⟩ := budget
  exact (execBudget_spec sound committed).2.sound receipts

variable {account : RunBudgetAccount}

theorem receipts_reachable_sound {run : Run} {policy : BudgetPolicy}
    {ledger : Ledger}
    (opened : newBudgetAccount digests run policy = .ok account)
    (reached : (budgetStore digests).Reachable (Ledger.opened account) ledger) :
    ReceiptInvariant digests run ledger := by
  have receipts : ReceiptsSound digests (Ledger.opened account) :=
    ⟨List.nodup_nil, by simp [Ledger.opened]⟩
  have start := budget_reachable_sound opened (TransactionSystem.Reachable.refl _ _)
  exact (receiptInvariant_invariant run).reachable ⟨start, receipts⟩ reached

theorem ReceiptsSound.receiptOf {ledger : Ledger} (sound : ReceiptsSound digests ledger)
    {row : RunBudgetReservation} {receipt : RunBudgetReceipt} (mem : receipt ∈ ledger.receipts)
    (reservation : receipt.reservationId = row.id) :
    receiptOf ledger row receipt.receiptKey = some receipt := by
  have found := sound.keys.find_eq mem (k := (row.id, receipt.receiptKey)) (by rw [reservation])
  rw [← found, SkillMind.Runs.receiptOf]
  congr 1
  funext other
  simp [Prod.mk.injEq]

def reportedContent : BudgetOperation →
    Option (BudgetReconciliationClaim × String × ReceiptKind × ReceiptPayload)
  | .recordUsage claim report =>
    some (claim, report.reportKey, .usage, .usage report.toUsagePayload)
  | .confirmStopped claim key evidence => some (claim, key, .stop, .stop evidence)
  | .releaseUnstarted claim key => some (claim, key, .unstarted, .unstarted)
  | _ => none

theorem known_replayed {call : BudgetCall} {ledger ledger' : Ledger}
    {answer : BudgetAnswer} {claim : BudgetReconciliationClaim}
    {key : String} {kind : ReceiptKind} {payload : ReceiptPayload}
    (sound : LedgerSound ledger account) (receipts : ReceiptsSound digests ledger)
    (committed : (budgetStore digests).exec call ledger = .ok (answer, ledger'))
    (reports : reportedContent call.operation = some (claim, key, kind, payload))
    {receipt : RunBudgetReceipt} (mem : receipt ∈ ledger.receipts)
    (reservation : receipt.reservationId = claim.reservationId)
    (sameKey : receipt.receiptKey = key) :
    ∃ row ∈ ledger.reservations, receiptOf ledger row key = some receipt ∧
      ∃ result, replay digests account row claim key kind payload ledger =
        some (result, ledger') := by
  have stored : ∀ row : RunBudgetReservation, row.id = claim.reservationId →
      receiptOf ledger row key = some receipt := fun row id =>
    sameKey ▸ receipts.receiptOf mem (reservation.trans id.symm)
  obtain ⟨tables, now, freshIds, operation⟩ := call
  cases operation with
  | recordUsage claim' report =>
    simp only [reportedContent, Option.some.injEq, Prod.mk.injEq] at reports
    obtain ⟨rfl, rfl, rfl, rfl⟩ := reports
    obtain ⟨_, committed, -⟩ := answering_eq_ok.mp committed
    obtain ⟨row, isRow, id, outcome⟩ := recordUsage_spec sound committed
    refine ⟨row, isRow, stored row id, ?_⟩
    cases outcome with
    | replayed known => exact ⟨_, known⟩
    | invalid fresh => exact absurd (fresh.symm.trans (stored row id)) (by simp)
    | accepted fresh => exact absurd (fresh.symm.trans (stored row id)) (by simp)
  | confirmStopped claim' key' evidence =>
    simp only [reportedContent, Option.some.injEq, Prod.mk.injEq] at reports
    obtain ⟨rfl, rfl, rfl, rfl⟩ := reports
    obtain ⟨_, committed, -⟩ := answering_eq_ok.mp committed
    obtain ⟨row, isRow, id, outcome⟩ := confirmStopped_spec sound committed
    refine ⟨row, isRow, stored row id, ?_⟩
    cases outcome with
    | replayed known => exact ⟨_, known⟩
    | written fresh => exact absurd (fresh.symm.trans (stored row id)) (by simp)
  | releaseUnstarted claim' key' =>
    simp only [reportedContent, Option.some.injEq, Prod.mk.injEq] at reports
    obtain ⟨rfl, rfl, rfl, rfl⟩ := reports
    obtain ⟨_, committed, -⟩ := answering_eq_ok.mp committed
    obtain ⟨row, isRow, id, outcome, -⟩ := releaseUnstarted_spec sound committed
    refine ⟨row, isRow, stored row id, ?_⟩
    cases outcome with
    | replayed known => exact ⟨_, known⟩
    | written fresh => exact absurd (fresh.symm.trans (stored row id)) (by simp)
  | reservePrimary | reserveGroup | bindInvocation | startExecution | claimReconciliation
  | markUnverifiable | recordObservation => cases reports

theorem replay_stored {row : RunBudgetReservation}
    {claim : BudgetReconciliationClaim} {key : String} {kind : ReceiptKind}
    {payload : ReceiptPayload} {ledger ledger' : Ledger} {result : BudgetReceiptResult}
    {receipt : RunBudgetReceipt} (ids : Keyed RunBudgetReservation.id ledger.reservations)
    (mem : row ∈ ledger.reservations) (stored : receiptOf ledger row key = some receipt)
    (replayed : replay digests account row claim key kind payload ledger =
      some (result, ledger')) :
    (receipt.payloadChecksum = digests.budgetChecksum (.receipt kind payload) →
      ledger' = ledger ∧ result.disposition = .replay) ∧
    (receipt.payloadChecksum ≠ digests.budgetChecksum (.receipt kind payload) →
      result.disposition = .conflict ∧ ledger'.reservations = ledger.reservations ∧
        ∃ account', ledger'.account = some account' ∧ account'.blockCode ≠ none ∧
          ∀ d, account'.pool d = account.pool d) := by
  have written : replaceRow RunBudgetReservation.id row ledger.reservations =
      ledger.reservations := replaceRow_self ids mem
  simp only [replay, stored, Option.bind_eq_bind, Option.bind_some] at replayed
  split at replayed
  · rename_i same
    simp only [Option.pure_def, Option.some.injEq, Prod.mk.injEq] at replayed
    obtain ⟨rfl, rfl⟩ := replayed
    exact ⟨fun _ => ⟨rfl, rfl⟩, fun differs => absurd same differs⟩
  · rename_i differs
    refine ⟨fun same => absurd same differs, fun _ => ?_⟩
    split at replayed
    · simp only [Option.pure_def, Option.some.injEq, recordReceipt, Prod.mk.injEq] at replayed
      obtain ⟨rfl, rfl⟩ := replayed
      exact ⟨rfl, written, _, rfl, by simp, by simp⟩
    · simp only [Option.pure_def, Option.some.injEq, Prod.mk.injEq] at replayed
      obtain ⟨rfl, rfl⟩ := replayed
      exact ⟨rfl, written, _, rfl, by simp, by simp⟩

theorem Move.sticky {ledger ledger' : Ledger}
    (sound : LedgerSound ledger account) (move : Move ledger account ledger') :
    ∃ account', ledger'.account = some account' ∧
      (account.blockCode ≠ none → account'.blockCode ≠ none) := by
  cases move with
  | kept kept _ => exact ⟨account, kept.trans sound.stored, fun blocked => blocked⟩
  | changed row account' row' _ change stored _ =>
    exact ⟨account', stored, fun blocked unblocked => blocked (change.sticky unblocked)⟩
  | added group account' add stored _ =>
    exact ⟨account', stored, fun blocked => absurd add.unblocked blocked⟩

theorem Move.monotone {ledger ledger' : Ledger} {account' : RunBudgetAccount}
    (sound : LedgerSound ledger account) (move : Move ledger account ledger')
    (stored' : ledger'.account = some account') :
    (∀ d, (account.pooled d).consumed ≤ (account'.pooled d).consumed) ∧
      ∀ row ∈ ledger.reservations, ∃ row' ∈ ledger'.reservations, row'.id = row.id ∧
        ∀ d, (row.held d).consumed ≤ (row'.held d).consumed := by
  cases move with
  | kept kept rows =>
    obtain rfl : account' = account :=
      Option.some.inj (stored'.symm.trans (kept.trans sound.stored))
    exact ⟨fun _ => le_refl _, fun row mem => ⟨row, rows ▸ mem, rfl, fun _ => le_refl _⟩⟩
  | changed old account₁ row' oldMem change stored rows =>
    obtain rfl : account' = account₁ := Option.some.inj (stored'.symm.trans stored)
    refine ⟨fun d => ?_, fun row mem => ?_⟩
    · have mirrored := change.consumed_mirrored d
      have grows := change.consumed_mono d
      omega
    · rw [rows]
      by_cases same : row.id = row'.id
      · obtain rfl := sound.ids.eq_of_key mem oldMem (same.trans change.id)
        exact ⟨row', mem_replaceRow_self mem same, change.id, change.consumed_mono⟩
      · exact ⟨row, mem_replaceRow_of_ne mem same, rfl, fun _ => le_refl _⟩
  | added group account₁ add stored rows =>
    obtain rfl : account' = account₁ := Option.some.inj (stored'.symm.trans stored)
    refine ⟨fun d => (add.consumed d).ge, fun row mem => ?_⟩
    exact ⟨row, rows ▸ List.mem_append_left group mem, rfl, fun _ => le_refl _⟩

theorem Move.returned {ledger ledger' : Ledger} {account : RunBudgetAccount}
    (sound : LedgerSound ledger account) (move : Move ledger account ledger')
    {row row' : RunBudgetReservation} (mem : row ∈ ledger.reservations)
    (mem' : row' ∈ ledger'.reservations) (id : row'.id = row.id)
    (started : row.startIntentAt ≠ none) {d : Dimension}
    (returned : (row'.held d).reserved <
      (row.held d).reserved - ((row'.held d).consumed - (row.held d).consumed)) :
    row'.stopConfirmedAt ≠ none ∧ row'.finalUsageAt ≠ none := by
  have unchanged : row' ≠ row := by
    rintro rfl
    omega
  cases move with
  | kept _ rows => exact absurd (sound.ids.eq_of_key (rows ▸ mem') mem id) unchanged
  | added group account' add _ rows =>
    rw [rows] at mem'
    exact absurd (add.ids.eq_of_key mem' (List.mem_append_left group mem) id) unchanged
  | changed old account' new oldMem change _ rows =>
    rw [rows] at mem'
    rcases mem_replaceRow mem' with ⟨rfl, -⟩ | ⟨isOld, -⟩
    · obtain rfl := sound.ids.eq_of_key mem oldMem (id.symm.trans change.id)
      exact change.returned started d returned
    · exact absurd (sound.ids.eq_of_key isOld mem id) unchanged

/-- The calls that would reserve, bind, start or release. -/
def BudgetOperation.consumes : BudgetOperation → Bool
  | .reservePrimary .. => true
  | .reserveGroup .. => true
  | .bindInvocation .. => true
  | .startExecution .. => true
  | .releaseUnstarted .. => true
  | _ => false

theorem blocked_calls {call : BudgetCall} {ledger ledger' : Ledger}
    {answer : BudgetAnswer} (sound : LedgerSound ledger account)
    (blocked : account.blockCode ≠ none) (consumes : call.operation.consumes = true)
    (committed : (budgetStore digests).exec call ledger = .ok (answer, ledger')) :
    ledger'.reservations = ledger.reservations ∧ answer ≠ .started true ∧
      ∃ account', ledger'.account = some account' ∧ ∀ d, account'.pool d = account.pool d := by
  have kept : ledger' = ledger → answer ≠ .started true →
      ledger'.reservations = ledger.reservations ∧ answer ≠ .started true ∧
        ∃ account', ledger'.account = some account' ∧ ∀ d, account'.pool d = account.pool d := by
    rintro rfl refused
    exact ⟨rfl, refused, account, sound.stored, fun _ => rfl⟩
  have group : ∀ {tables now freshIds claimed groupKey requests confirmOnly records},
      reserveGroup digests tables now freshIds claimed groupKey requests confirmOnly ledger =
        .ok (records, ledger') → ledger' = ledger := by
    intro _ _ _ _ _ _ _ _ reserved
    rcases reserveGroup_spec sound reserved with ⟨same, -⟩ | ⟨_, _, add, -⟩
    · exact same
    · exact absurd add.unblocked blocked
  obtain ⟨tables, now, freshIds, operation⟩ := call
  cases operation with
  | reservePrimary claimed policy confirmOnly =>
    obtain ⟨_, operated, rfl⟩ := answering_eq_ok.mp committed
    obtain ⟨_, _, reserved⟩ := reservePrimary_reserveGroup operated
    exact kept (group reserved) (by simp)
  | reserveGroup claimed groupKey requests confirmOnly =>
    obtain ⟨_, operated, rfl⟩ := answering_eq_ok.mp committed
    exact kept (group operated) (by simp)
  | bindInvocation claimed key invocation token confirmOnly =>
    obtain ⟨_, operated, rfl⟩ := answering_eq_ok.mp committed
    rcases bindInvocation_spec sound operated with same | ⟨_, _, _, unblocked, -⟩
    · exact kept same (by simp)
    · exact absurd unblocked blocked
  | startExecution claimed key invocationId checksum token =>
    obtain ⟨permitted, operated, rfl⟩ := answering_eq_ok.mp committed
    obtain ⟨_, _, -, ⟨rfl, -, same⟩ | ⟨-, -, unblocked, -⟩⟩ := startExecution_spec sound operated
    · exact kept same (by simp)
    · exact absurd unblocked blocked
  | releaseUnstarted claim key =>
    obtain ⟨_, operated, rfl⟩ := answering_eq_ok.mp committed
    obtain ⟨row, mem, -, outcome, fresh⟩ := releaseUnstarted_spec sound operated
    cases outcome with
    | written isFresh => exact absurd (fresh isFresh) blocked
    | replayed known =>
      cases stored : receiptOf ledger row key with
      | none => exact absurd (fresh stored) blocked
      | some receipt =>
        obtain ⟨same, differs⟩ := replay_stored sound.ids mem stored known
        by_cases content : receipt.payloadChecksum =
            digests.budgetChecksum (.receipt .unstarted .unstarted)
        · exact kept (same content).1 (by simp)
        · obtain ⟨-, rows, account', stored', -, pools⟩ := differs content
          exact ⟨rows, by simp, account', stored', pools⟩
  | claimReconciliation | recordUsage | confirmStopped | markUnverifiable
  | recordObservation => cases consumes

/-- **Receipt replay and sticky block.**  In every reachable state: the content stored under a
key, sent again, changes nothing; other content under a known key leaves every balance and
leaves the account blocked; a block is never lifted, and on a blocked account reserving,
binding, starting and releasing only repeat stored results; consumption never decreases; and
what a started execution holds is returned only when its stop and final usage are known. -/
theorem receipts_replayed {run : Run} {policy : BudgetPolicy} {account : RunBudgetAccount}
    {ledger ledger' : Ledger} {call : BudgetCall} {answer : BudgetAnswer}
    (opened : newBudgetAccount digests run policy = .ok account)
    (reached : (budgetStore digests).Reachable (Ledger.opened account) ledger)
    (committed : (budgetStore digests).exec call ledger = .ok (answer, ledger')) :
    ∃ current current', ledger.account = some current ∧ ledger'.account = some current' ∧
      (∀ claim key kind payload,
        reportedContent call.operation = some (claim, key, kind, payload) →
        ∀ receipt ∈ ledger.receipts, receipt.reservationId = claim.reservationId →
          receipt.receiptKey = key →
          (receipt.kind = kind → receipt.payload = payload → ledger' = ledger) ∧
          (digests.budgetChecksum (.receipt receipt.kind receipt.payload) ≠
              digests.budgetChecksum (.receipt kind payload) →
            ledger'.reservations = ledger.reservations ∧
              (∀ d, current'.pool d = current.pool d) ∧ current'.blockCode ≠ none)) ∧
      (current.blockCode ≠ none → current'.blockCode ≠ none ∧
        (call.operation.consumes = true → ledger'.reservations = ledger.reservations ∧
          (∀ d, current'.pool d = current.pool d) ∧ answer ≠ .started true)) ∧
      (∀ d, (current.pooled d).consumed ≤ (current'.pooled d).consumed) ∧
      (∀ row ∈ ledger.reservations, ∃ row' ∈ ledger'.reservations, row'.id = row.id ∧
        ∀ d, (row.held d).consumed ≤ (row'.held d).consumed) ∧
      (∀ row ∈ ledger.reservations, ∀ row' ∈ ledger'.reservations, row'.id = row.id →
        row.startIntentAt ≠ none → ∀ d,
        (row'.held d).reserved <
            (row.held d).reserved - ((row'.held d).consumed - (row.held d).consumed) →
          row'.stopConfirmedAt ≠ none ∧ row'.finalUsageAt ≠ none) := by
  obtain ⟨⟨current, sound, -⟩, receipts⟩ := receipts_reachable_sound opened reached
  have move := execBudget_move sound committed
  obtain ⟨current', stored', sticky⟩ := move.sticky sound
  have monotone := move.monotone sound stored'
  refine ⟨current, current', sound.stored, stored', ?_, fun blocked => ⟨sticky blocked, ?_⟩,
    monotone.1, monotone.2, fun row mem row' mem' id started d returned =>
      move.returned sound mem mem' id started returned⟩
  · intro claim key kind payload reports receipt mem reservation sameKey
    obtain ⟨row, isRow, stored, result, known⟩ :=
      known_replayed sound receipts committed reports mem reservation sameKey
    obtain ⟨same, differs⟩ := replay_stored sound.ids isRow stored known
    rw [receipts.checksums receipt mem] at same differs
    refine ⟨fun sameKind samePayload => (same (by rw [sameKind, samePayload])).1, fun other => ?_⟩
    obtain ⟨-, rows, account', written, blocked, pools⟩ := differs other
    obtain rfl : account' = current' := Option.some.inj (written.symm.trans stored')
    exact ⟨rows, pools, blocked⟩
  · intro consumes
    obtain ⟨rows, refused, account', written, pools⟩ :=
      blocked_calls sound blocked consumes committed
    obtain rfl : account' = current' := Option.some.inj (written.symm.trans stored')
    exact ⟨rows, pools, refused⟩

def sampleClaim : BudgetReconciliationClaim := ⟨2, 1, 7, "reconciler", "lease", 120⟩

def sampleReport (final : Bool) : BudgetUsageReport where
  source := "claude"
  meteringVersion := "v1"
  mode := .cumulative
  turns := some 4
  costNanos := some 300
  watermark := some 1
  final := final
  reportKey := "report/1"
  reportKey_key := by decide
  source_key := sampleSource_key
  meteringVersion_key := sampleVersion_key
  turns_units := by decide
  costNanos_units := by decide
  present := by decide
  watermark_mode := by decide
  watermark_units := by decide

def sampleReported : List BudgetCall :=
  sampleCalls ++ [sampleCall [] (.recordUsage sampleClaim (sampleReport false))]

def sampleConflict : BudgetCall := sampleCall [] (.recordUsage sampleClaim (sampleReport true))

/-- The key of a report sent again with another content blocks the sample account. -/
theorem receipts_replayed_sample :
    ∃ current, ((budgetStore sampleDigests).run (Ledger.opened sampleAccount)
        (sampleReported ++ [sampleConflict])).account = some current ∧
      current.blockCode ≠ none := by
  have opened : newBudgetAccount sampleDigests sampleRun samplePolicy = .ok sampleAccount := rfl
  have reached : (budgetStore sampleDigests).Reachable (Ledger.opened sampleAccount)
      ((budgetStore sampleDigests).run (Ledger.opened sampleAccount) sampleReported) :=
    ⟨sampleReported, rfl⟩
  obtain ⟨⟨answer, ledger'⟩, committed⟩ : ∃ result, (budgetStore sampleDigests).exec
      sampleConflict ((budgetStore sampleDigests).run (Ledger.opened sampleAccount)
        sampleReported) = .ok result := exists_ok (by decide +kernel)
  obtain ⟨_, current', -, stored, known, -⟩ := receipts_replayed opened reached committed
  have differs := (known sampleClaim "report/1" .usage (.usage (sampleReport true).toUsagePayload)
    rfl ⟨7, "report/1", .usage, .usage (sampleReport false).toUsagePayload,
      sampleDigests.budgetChecksum (.receipt .usage (.usage (sampleReport false).toUsagePayload)),
      "reconciler", .applied⟩ (by decide) rfl rfl).2 (by decide)
  refine ⟨current', ?_, differs.2.2⟩
  rw [TransactionSystem.run_append, TransactionSystem.run_cons, TransactionSystem.run_nil,
    TransactionSystem.step_of_commit _ committed]
  exact stored

/-- A blocked account still answers a repeated reservation with its records. -/
theorem blocked_reservation_repeated :
    newBudgetAccount sampleDigests sampleRun samplePolicy = .ok sampleAccount ∧
      ∃ ledger, (budgetStore sampleDigests).Reachable (Ledger.opened sampleAccount) ledger ∧
        (ledger.account.bind RunBudgetAccount.blockCode).isSome = true ∧
        ∃ result, (budgetStore sampleDigests).exec
          (sampleCall [] (.reservePrimary sampleClaimed samplePolicy false)) ledger =
            .ok result :=
  ⟨rfl, (budgetStore sampleDigests).run (Ledger.opened sampleAccount)
    (sampleReported ++ [sampleConflict]), ⟨_, rfl⟩, by decide +kernel,
    exists_ok (by decide +kernel)⟩

end Store

end SkillMind.Runs
