import SkillMind.Runs.BudgetLedger

/-!
# The executing worker on a sound ledger

One inversion lemma for each transaction of the executing worker. Reserving either repeats the
records of the original group or adds a group of fresh reservations, binding writes the descriptor
into one row, and starting either repeats an earlier intent or records the first one.
-/

namespace SkillMind.Runs

open Library

section Store

variable {digests : Digests}

theorem newReservation_fresh (digests : Digests) (run : Run) (claimed : ClaimedRun)
    (groupKey checksum : String) (parent : Option Uuid) (request : BudgetReservationRequest)
    (id : Uuid) :
    let row := newReservation digests run claimed groupKey checksum parent request id
    RowSound row ∧ row.status = .reserved ∧
      ∀ d, (row.held d).consumed = 0 ∧ 0 ≤ (row.held d).granted ∧
        (row.held d).reserved = request.amount d := by
  intro row
  have held : ∀ d, row.held d = Hold.opened (request.amount d) := by
    intro d
    cases d with
    | turns => rfl
    | costNanos =>
      show (request.costNanos.map Hold.opened).getD ⟨0, 0, 0⟩ = _
      simp only [BudgetReservationRequest.amount]
      cases request.costNanos <;> rfl
  have nonneg : ∀ d, 0 ≤ request.amount d := by
    intro d
    cases d with
    | turns =>
      have := request.turns_units.1
      simp only [if_true] at this
      simp only [BudgetReservationRequest.amount]
      omega
    | costNanos =>
      simp only [BudgetReservationRequest.amount]
      cases has : request.costNanos with
      | none => simp
      | some nanos =>
        have := (request.costNanos_units nanos has).1
        simp only [if_true] at this
        simp only [Option.getD_some]
        omega
  refine ⟨⟨?_, ?_, ?_, ?_, ?_, ?_⟩, rfl, ?_⟩
  · intro d
    rw [held]
    exact Hold.opened_sound (nonneg d)
  · intro _ d
    rw [held]
    exact Hold.opened_tight (nonneg d)
  · rintro (settled | released)
    · cases settled
    · cases released
  · exact iff_of_true rfl (Or.inl rfl)
  · intro _
    refine ⟨rfl, rfl, fun d => ⟨?_, ?_⟩⟩
    · rw [held]
      rfl
    · cases d <;> rfl
  · exact fun started => absurd rfl started
  · intro d
    rw [held]
    exact ⟨rfl, nonneg d, rfl⟩

theorem pool_hold (account : RunBudgetAccount) (amount : Dimension → Int) (d : Dimension) :
    (account.hold (amount .turns) (amount .costNanos)).pool d =
      (account.pool d).map fun pool => ⟨pool.consumed, pool.reserved + amount d⟩ := by
  cases d <;> rfl

variable {account : RunBudgetAccount}

theorem pooled_hold (amount : Dimension → Int) {d : Dimension}
    (disabled : (account.pool d).isSome = false → amount d = 0) :
    (account.hold (amount .turns) (amount .costNanos)).pooled d =
      ⟨(account.pooled d).consumed, (account.pooled d).reserved + amount d⟩ := by
  unfold RunBudgetAccount.pooled
  rw [pool_hold]
  cases has : account.pool d with
  | none =>
    rw [disabled (by rw [has]; rfl)]
    rfl
  | some pool => rfl

def groupRow (digests : Digests) (run : Run) (claimed : ClaimedRun) (groupKey checksum : String)
    (rows : List RunBudgetReservation) (request : BudgetReservationRequest) (id : Uuid) :
    RunBudgetReservation :=
  newReservation digests run claimed groupKey checksum
    ((parentOf rows request).map RunBudgetReservation.id) request id

variable {claimed : ClaimedRun}

theorem groupRows_added {ledger : Ledger}
    (sound : LedgerSound ledger account) {run : Run} (scope : account.runId = run.id)
    {groupKey checksum : String}
    {requests : List BudgetReservationRequest} {ids : List Uuid}
    (unblocked : account.blockCode = none)
    (distinct : (requests.map BudgetReservationRequest.executionKey).Nodup)
    (primary : (∃ a ∈ requests, a.parentExecutionKey = none) →
      requests.length = 1 ∧ ∀ row ∈ ledger.reservations, ¬ row.livePrimary)
    (checked : ∀ request ∈ requests,
      checkRequest account.policy claimed ledger.reservations request = .ok ())
    (room : ∀ d, withinLimit account d (requests.map fun request => request.amount d).sum)
    (fresh : ids.length = requests.length ∧
      (ledger.reservations.map RunBudgetReservation.id ++ ids).Nodup) :
    GroupAdded account ledger.reservations
      (List.zipWith (groupRow digests run claimed groupKey checksum ledger.reservations) requests
        ids)
      (account.hold (requests.map fun request => request.amount .turns).sum
        (requests.map fun request => request.amount .costNanos).sum).touch := by
  simp only [checkRequest, bind_eq_ok, require_eq_ok, exists_const] at checked
  -- Each row stands for a request.
  have built : ∀ row ∈ List.zipWith (groupRow digests run claimed groupKey checksum
      ledger.reservations) requests ids, ∃ request ∈ requests, ∃ id,
        row = groupRow digests run claimed groupKey checksum ledger.reservations request id := by
    intro row mem
    obtain ⟨request, isRequest, id, -, rfl⟩ := mem_zipWith mem
    exact ⟨request, isRequest, id, rfl⟩
  have disabled : ∀ d, (account.pool d).isSome = false →
      (requests.map fun request => request.amount d).sum = 0 := by
    intro d off
    cases d with
    | turns => cases off
    | costNanos =>
      rw [sound.account_columns] at off
      have zero : requests.map (fun request => request.amount .costNanos) =
          requests.map fun _ => (0 : Int) := by
        apply List.map_congr_left
        intro request mem
        have none : request.costNanos = none :=
          (checked request mem).2.1.mpr (by simpa [BudgetPolicy.enabled] using off)
        simp [BudgetReservationRequest.amount, none]
      simp [zero]
  have pooled : ∀ d, (account.hold (requests.map fun request => request.amount .turns).sum
      (requests.map fun request => request.amount .costNanos).sum).touch.pooled d =
      ⟨(account.pooled d).consumed, (account.pooled d).reserved +
        (requests.map fun request => request.amount d).sum⟩ := fun d =>
    (pooled_touch _ d).trans (pooled_hold
      (fun d => (requests.map fun request => request.amount d).sum) (disabled d))
  refine ⟨unblocked, rfl, ?_, ?_, ?_, ?_, ?_, ?_, ?_, ?_, ?_, ?_⟩
  · intro d
    have columns := pool_hold account
      (fun d => (requests.map fun request => request.amount d).sum) d
    rw [pool_touch, columns, Option.isSome_map]
  · rw [Keyed, List.map_append, map_zipWith_key (fun _ _ => rfl) fresh.1]
    exact fresh.2
  · refine keyed_append.mpr ⟨sound.keys, ?_, ?_⟩
    · have keys : (List.zipWith (groupRow digests run claimed groupKey checksum
          ledger.reservations) requests ids).map RunBudgetReservation.executionKey =
          requests.map BudgetReservationRequest.executionKey := by
        refine map_zipWith_content ?_ fresh.1
        exact fun _ _ => rfl
      rw [Keyed, keys]
      exact distinct
    · intro row mem added isAdded
      obtain ⟨request, isRequest, id, rfl⟩ := built added isAdded
      exact (checked request isRequest).1 row mem
  · intro row mem
    obtain ⟨request, -, id, rfl⟩ := built row mem
    exact scope.symm
  · intro row mem d
    obtain ⟨request, isRequest, id, rfl⟩ := built row mem
    cases d with
    | turns => rfl
    | costNanos =>
      have covers := (checked request isRequest).2.1
      show (request.costNanos.map Hold.opened).isSome = account.policy.maxCostNanos.isSome
      cases asked : request.costNanos <;> cases limit : account.policy.maxCostNanos <;>
        simp [asked, limit] at covers ⊢
  · intro row mem
    obtain ⟨request, -, id, rfl⟩ := built row mem
    obtain ⟨rowSound, status, amounts⟩ := newReservation_fresh digests run claimed groupKey
      checksum ((parentOf ledger.reservations request).map RunBudgetReservation.id) request id
    exact ⟨rowSound, status, fun d => ⟨(amounts d).1, (amounts d).2.1⟩⟩
  · intro d
    rw [pooled]
  · intro d
    have columns : (List.zipWith (groupRow digests run claimed groupKey checksum
        ledger.reservations) requests ids).map (fun row => (row.held d).reserved) =
        requests.map fun request => request.amount d := by
      refine map_zipWith_content ?_ fresh.1
      intro request id
      obtain ⟨-, -, amounts⟩ := newReservation_fresh digests run claimed groupKey checksum
        ((parentOf ledger.reservations request).map RunBudgetReservation.id) request id
      exact (amounts d).2.2
    rw [pooled, total, columns]
  · intro d limit has
    rw [pooled]
    cases pool : account.pool d with
    | none =>
      have off : (account.pool d).isSome = false := by rw [pool]; rfl
      have none : account.policy.limit d = none := by
        rw [sound.account_columns] at off
        cases d with
        | turns => cases off
        | costNanos => simpa [BudgetPolicy.enabled, BudgetPolicy.limit] using off
      rw [none] at has
      cases has
    | some p =>
      have enough := room d limit has p pool
      rw [pooled_of_pool pool]
      simp only
      omega
  · rintro ⟨row, mem, orphan⟩
    obtain ⟨request, isRequest, id, rfl⟩ := built row mem
    have noParent : request.parentExecutionKey = none := by
      by_contra named
      obtain ⟨parent, found, -⟩ := (checked request isRequest).2.2 named
      have orphan : (parentOf ledger.reservations request).map RunBudgetReservation.id = none :=
        orphan
      rw [found] at orphan
      cases orphan
    obtain ⟨single, idle⟩ := primary ⟨request, isRequest, noParent⟩
    refine ⟨?_, idle⟩
    rw [List.length_zipWith, fresh.1, single]
    rfl

variable {tables : RunTables}

theorem reserveGroup_spec {now : Timestamp} {freshIds : List Uuid}
    {groupKey : String} {requests : List BudgetReservationRequest}
    {confirmOnly : Bool} {ledger ledger' : Ledger}
    {records : List BudgetExecutionRecord} (sound : LedgerSound ledger account)
    (committed : reserveGroup digests tables now freshIds claimed groupKey requests confirmOnly
      ledger = .ok (records, ledger')) :
    (ledger' = ledger ∧
        records = (ledger.reservations.filter fun row => row.groupKey = groupKey).map
          executionRecord) ∨
      ∃ group account', GroupAdded account ledger.reservations group account' ∧
        records = group.map executionRecord ∧
        ledger' = { ledger with
          account := some account', reservations := ledger.reservations ++ group } := by
  simp only [reserveGroup, bind_eq_ok, require_eq_ok, exists_unit, Prod.exists] at committed
  obtain ⟨-, ⟨-, distinct⟩, ⟨-, single⟩, run, segment, attempt, -, account₁, rows, read, -,
    committed⟩ := committed
  obtain ⟨rfl, scope, rfl⟩ := readLedger_sound sound read
  have perm := List.perm_insertionSort
    (fun a b : BudgetReservationRequest => a.executionKey ≤ b.executionKey) requests
  split at committed
  · simp only [bind_eq_ok, require_eq_ok, exists_unit, pure_eq_ok, Prod.mk.injEq] at committed
    obtain ⟨-, rfl, rfl⟩ := committed
    exact Or.inl ⟨rfl, rfl⟩
  · simp only [bind_eq_ok, require_eq_ok, exists_unit, pure_eq_ok, Prod.mk.injEq] at committed
    obtain ⟨-, unblocked, idle, checked, ⟨turns, cost⟩, fresh, rfl, rfl⟩ := committed
    refine Or.inr ⟨_, _, groupRows_added sound scope unblocked ?_ ?_ (forM_eq_ok.mp checked) ?_
      fresh, rfl, rfl⟩
    · exact (perm.map _).nodup_iff.mpr distinct
    · rintro ⟨request, mem, orphan⟩
      have original := perm.mem_iff.mp mem
      exact ⟨perm.length_eq.trans (single ⟨request, original, orphan⟩),
        idle ⟨request, original, orphan⟩⟩
    · intro d
      cases d with
      | turns => exact turns
      | costNanos => exact cost

theorem reservePrimary_reserveGroup {now : Timestamp}
    {freshIds : List Uuid} {policy : BudgetPolicy} {confirmOnly : Bool}
    {ledger ledger' : Ledger} {records : List BudgetExecutionRecord}
    (committed : reservePrimary digests tables now freshIds claimed policy confirmOnly ledger =
      .ok (records, ledger')) :
    ∃ groupKey request, reserveGroup digests tables now freshIds claimed groupKey [request]
      confirmOnly ledger = .ok (records, ledger') := by
  simp only [reservePrimary, bind_eq_ok, require_eq_ok, exists_unit, Prod.exists] at committed
  obtain ⟨_, _, _, -, _, _, -, -, committed⟩ := committed
  split at committed
  · simp only [bind_eq_ok, require_eq_ok, exists_unit] at committed
    obtain ⟨-, -, request, -, reserved⟩ := committed
    exact ⟨_, request, reserved⟩
  · simp only [bind_eq_ok, require_eq_ok, exists_unit] at committed
    obtain ⟨-, request, -, reserved⟩ := committed
    exact ⟨_, request, reserved⟩

theorem claimedReservation_spec {rows : List RunBudgetReservation}
    {executionKey : String} {row : RunBudgetReservation}
    (found : claimedReservation digests rows claimed executionKey = .ok row) :
    row ∈ rows ∧ row.executionKey = executionKey := by
  simp only [claimedReservation, bind_eq_ok, orFault_eq_ok, require_eq_ok, exists_unit,
    pure_eq_ok] at found
  obtain ⟨_, search, -, rfl⟩ := found
  exact find_key search

theorem bindInvocation_spec {now : Timestamp}
    {executionKey : String} {invocation : AgentInvocation} {token : String} {confirmOnly : Bool}
    {ledger ledger' : Ledger} {binding : BudgetInvocationBinding}
    (sound : LedgerSound ledger account)
    (committed : bindInvocation digests tables now claimed executionKey invocation token
      confirmOnly ledger = .ok (binding, ledger')) :
    ledger' = ledger ∨
      ∃ row ∈ ledger.reservations, ∃ row', account.blockCode = none ∧
        row.status = .reserved ∧ Change account row account row' ∧
        ledger' = ledger.save account row' := by
  simp only [bindInvocation, bind_eq_ok, exists_unit, Prod.exists] at committed
  obtain ⟨-, ownerHash, -, run, segment, attempt, -, account₁, rows, read, -, row, found, -,
    committed⟩ := committed
  obtain ⟨rfl, -, rfl⟩ := readLedger_sound sound read
  obtain ⟨mem, -⟩ := claimedReservation_spec found
  split at committed
  · simp only [bind_eq_ok, pure_eq_ok, Prod.mk.injEq] at committed
    obtain ⟨-, -, -, -, -, -, -, -, -, rfl⟩ := committed
    exact Or.inl rfl
  · simp only [bind_eq_ok, require_eq_ok, exists_unit, pure_eq_ok, Prod.mk.injEq] at committed
    obtain ⟨-, ⟨reserved, unblocked⟩, -, -, _, -, -, rfl⟩ := committed
    have rowSound := sound.rows row mem
    refine Or.inr ⟨row, mem, _, unblocked, reserved, ?_, rfl⟩
    refine .of_same_balances rfl (fun _ => rfl) (fun d => by cases d <;> rfl) rfl rfl rfl rfl
      (fun h => h) ?_ (fun h => h) (fun h => h) (fun h => h)
    exact ⟨rowSound.sound, rowSound.tight, rowSound.closed, rowSound.started, rowSound.unstarted,
      rowSound.settled⟩

theorem startExecution_spec {now : Timestamp}
    {executionKey : String} {invocationId : Uuid} {checksum token : String}
    {ledger ledger' : Ledger} {permitted : Bool}
    (sound : LedgerSound ledger account)
    (committed : startExecution digests tables now claimed executionKey invocationId checksum
      token ledger = .ok (permitted, ledger')) :
    ∃ row ∈ ledger.reservations, row.executionKey = executionKey ∧
      ((permitted = false ∧ row.status = .startIntent ∧ ledger' = ledger) ∨
        (permitted = true ∧ row.status = .reserved ∧ account.blockCode = none ∧
          (∀ parentId ∈ row.parentReservationId,
            ∃ parent ∈ ledger.reservations, parent.id = parentId ∧ parent.permitsChildren) ∧
          ledger' = ledger.save account.touch
            { row with status := .startIntent, startIntentAt := some now })) := by
  simp only [startExecution, bind_eq_ok, require_eq_ok, exists_unit, Prod.exists] at committed
  obtain ⟨-, ownerHash, -, run, segment, attempt, -, account₁, rows, read, -, row, found, _, -,
    _, -, -, _, -, -, -, committed⟩ := committed
  obtain ⟨rfl, -, rfl⟩ := readLedger_sound sound read
  obtain ⟨mem, key⟩ := claimedReservation_spec found
  refine ⟨row, mem, key, ?_⟩
  split at committed
  · rename_i intent
    simp only [pure_eq_ok, Prod.mk.injEq] at committed
    obtain ⟨rfl, rfl⟩ := committed
    exact Or.inl ⟨rfl, intent, rfl⟩
  · simp only [bind_eq_ok, require_eq_ok, exists_unit, pure_eq_ok, Prod.mk.injEq] at committed
    obtain ⟨⟨reserved, unblocked⟩, parents, rfl, rfl⟩ := committed
    refine Or.inr ⟨rfl, reserved, unblocked, ?_, rfl⟩
    intro parentId has
    obtain ⟨parent, search, permits⟩ := parents parentId has
    obtain ⟨parentMem, id⟩ := find_key search
    exact ⟨parent, parentMem, id, permits⟩

end Store

end SkillMind.Runs
