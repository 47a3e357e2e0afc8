import SkillMind.Runs.BudgetInvariant

/-!
# The ledger over whole runs

The ledger is sound when its keys are unique, its rows are sound, the account is the sum of the
rows, an unblocked account stays within its limits, and at most one primary reservation is live.
Every transaction moves a sound ledger in one of three ways, each of which leads to a sound
ledger, so the ledger is sound in every reachable state.
-/

namespace SkillMind.Runs

open Library

/-- The joint invariant of the account and its reservations. -/
structure LedgerSound (ledger : Ledger) (account : RunBudgetAccount) : Prop where
  stored : ledger.account = some account
  ids : Keyed RunBudgetReservation.id ledger.reservations
  keys : Keyed RunBudgetReservation.executionKey ledger.reservations
  ofRun : ∀ row ∈ ledger.reservations, row.runId = account.runId
  account_columns : ∀ d, (account.pool d).isSome = account.policy.enabled d
  row_columns : ∀ row ∈ ledger.reservations, ∀ d, (row.hold d).isSome = account.policy.enabled d
  rows : ∀ row ∈ ledger.reservations, RowSound row
  consumed : ∀ d, (account.pooled d).consumed =
    total (fun row => (row.held d).consumed) ledger.reservations
  reserved : ∀ d, (account.pooled d).reserved =
    total (fun row => (row.held d).reserved) ledger.reservations
  limits : account.blockCode = none → ∀ d, ∀ limit ∈ account.policy.limit d,
    (account.pooled d).consumed + (account.pooled d).reserved ≤ limit
  grants : account.blockCode = none → ∀ row ∈ ledger.reservations, row.withinGrant
  primary : ∀ row ∈ ledger.reservations, ∀ other ∈ ledger.reservations,
    row.livePrimary → other.livePrimary → row = other

structure GroupAdded (account : RunBudgetAccount) (rows group : List RunBudgetReservation)
    (account' : RunBudgetAccount) : Prop where
  unblocked : account.blockCode = none
  account_core : account'.core = account.core
  account_columns : ∀ d, (account'.pool d).isSome = (account.pool d).isSome
  ids : Keyed RunBudgetReservation.id (rows ++ group)
  keys : Keyed RunBudgetReservation.executionKey (rows ++ group)
  ofRun : ∀ row ∈ group, row.runId = account.runId
  row_columns : ∀ row ∈ group, ∀ d, (row.hold d).isSome = account.policy.enabled d
  fresh : ∀ row ∈ group, RowSound row ∧ row.status = .reserved ∧
    ∀ d, (row.held d).consumed = 0 ∧ 0 ≤ (row.held d).granted
  consumed : ∀ d, (account'.pooled d).consumed = (account.pooled d).consumed
  reserved : ∀ d, (account'.pooled d).reserved =
    (account.pooled d).reserved + total (fun row => (row.held d).reserved) group
  limits : ∀ d, ∀ limit ∈ account.policy.limit d,
    (account'.pooled d).consumed + (account'.pooled d).reserved ≤ limit
  primary : (∃ row ∈ group, row.parentReservationId = none) →
    group.length = 1 ∧ ∀ row ∈ rows, ¬ row.livePrimary

/-- What a committed transaction does to the account and the reservations. -/
inductive Move (ledger : Ledger) (account : RunBudgetAccount) (ledger' : Ledger) : Prop where
  | kept (account_kept : ledger'.account = ledger.account)
      (rows_kept : ledger'.reservations = ledger.reservations) : Move ledger account ledger'
  | changed (row : RunBudgetReservation) (account' : RunBudgetAccount)
      (row' : RunBudgetReservation) (mem : row ∈ ledger.reservations)
      (change : Change account row account' row') (stored : ledger'.account = some account')
      (rows : ledger'.reservations =
        replaceRow RunBudgetReservation.id row' ledger.reservations) :
      Move ledger account ledger'
  | added (group : List RunBudgetReservation) (account' : RunBudgetAccount)
      (add : GroupAdded account ledger.reservations group account')
      (stored : ledger'.account = some account')
      (rows : ledger'.reservations = ledger.reservations ++ group) : Move ledger account ledger'

theorem GroupAdded.sound {ledger : Ledger} {account account' : RunBudgetAccount}
    {group : List RunBudgetReservation} (sound : LedgerSound ledger account)
    (add : GroupAdded account ledger.reservations group account') {ledger' : Ledger}
    (stored : ledger'.account = some account')
    (rows : ledger'.reservations = ledger.reservations ++ group) :
    LedgerSound ledger' account' := by
  have policy := policy_of_core add.account_core
  have runId : account'.runId = account.runId :=
    (congrArg RunBudgetAccount.runId add.account_core :)
  have no_consumption : ∀ d, total (fun row => (row.held d).consumed) group = 0 := by
    intro d
    have zero : ∀ row ∈ group, (row.held d).consumed = 0 := fun row mem =>
      ((add.fresh row mem).2.2 d).1
    have eq : group.map (fun row => (row.held d).consumed) = group.map fun _ => (0 : Int) :=
      List.map_congr_left zero
    simp [total, eq]
  refine ⟨stored, rows ▸ add.ids, rows ▸ add.keys, ?_, ?_, ?_, ?_, ?_, ?_, ?_, ?_, ?_⟩
  · intro row mem
    rw [rows] at mem
    rw [runId]
    rcases List.mem_append.mp mem with old | new
    · exact sound.ofRun row old
    · exact add.ofRun row new
  · intro d
    rw [add.account_columns, policy, sound.account_columns]
  · intro row mem d
    rw [rows] at mem
    rw [policy]
    rcases List.mem_append.mp mem with old | new
    · exact sound.row_columns row old d
    · exact add.row_columns row new d
  · intro row mem
    rw [rows] at mem
    rcases List.mem_append.mp mem with old | new
    · exact sound.rows row old
    · exact (add.fresh row new).1
  · intro d
    rw [rows, total_append, no_consumption, add.consumed, sound.consumed, add_zero]
  · intro d
    rw [rows, total_append, add.reserved, sound.reserved]
  · intro _ d limit has
    rw [policy] at has
    exact add.limits d limit has
  · intro _ row mem
    rw [rows] at mem
    rcases List.mem_append.mp mem with old | new
    · exact sound.grants add.unblocked row old
    · intro d
      obtain ⟨zero, nonneg⟩ := (add.fresh row new).2.2 d
      rw [zero]
      exact nonneg
  · intro row mem other mem' live live'
    rw [rows] at mem mem'
    rcases List.mem_append.mp mem with old | new <;> rcases List.mem_append.mp mem' with old' | new'
    · exact sound.primary row old other old' live live'
    · exact absurd live ((add.primary ⟨other, new', live'.1⟩).2 row old)
    · exact absurd live' ((add.primary ⟨row, new, live.1⟩).2 other old')
    · obtain ⟨only, eq⟩ := List.length_eq_one_iff.mp (add.primary ⟨row, new, live.1⟩).1
      rw [eq, List.mem_singleton] at new new'
      rw [new, new']

theorem Change.sound_ledger {ledger : Ledger} {account account' : RunBudgetAccount}
    {row row' : RunBudgetReservation} (sound : LedgerSound ledger account)
    (mem : row ∈ ledger.reservations) (change : Change account row account' row')
    {ledger' : Ledger} (stored : ledger'.account = some account')
    (rows : ledger'.reservations = replaceRow RunBudgetReservation.id row' ledger.reservations) :
    LedgerSound ledger' account' := by
  have policy := policy_of_core change.account_core
  have runId : account'.runId = account.runId :=
    (congrArg RunBudgetAccount.runId change.account_core :)
  -- Every row is the changed one or an old one.
  have split : ∀ r ∈ ledger'.reservations, r = row' ∨ (r ∈ ledger.reservations ∧ r ≠ row) := by
    intro r rMem
    rw [rows] at rMem
    rcases mem_replaceRow rMem with ⟨eq, -⟩ | ⟨old, ne⟩
    · exact Or.inl eq
    · exact Or.inr ⟨old, fun eq => ne (eq ▸ change.id.symm)⟩
  have keys : ledger'.reservations.map RunBudgetReservation.executionKey =
      ledger.reservations.map RunBudgetReservation.executionKey := by
    rw [rows, replaceRow, List.map_map]
    apply List.map_congr_left
    intro other otherMem
    by_cases same : other.id = row'.id
    · obtain rfl := sound.ids.eq_of_key otherMem mem (same.trans change.id)
      simp [same, change.executionKey]
    · simp [same]
  refine ⟨stored, ?_, ?_, ?_, ?_, ?_, ?_, ?_, ?_, ?_, ?_, ?_⟩
  · rw [rows]
    exact sound.ids.replaceRow row'
  · rw [Keyed, keys]
    exact sound.keys
  · intro r rMem
    rw [runId]
    rcases split r rMem with rfl | ⟨old, -⟩
    · rw [change.runId]
      exact sound.ofRun row mem
    · exact sound.ofRun r old
  · intro d
    rw [change.account_columns, policy, sound.account_columns]
  · intro r rMem d
    rw [policy]
    rcases split r rMem with rfl | ⟨old, -⟩
    · rw [change.row_columns]
      exact sound.row_columns row mem d
    · exact sound.row_columns r old d
  · intro r rMem
    rcases split r rMem with rfl | ⟨old, -⟩
    · exact change.sound
    · exact sound.rows r old
  · intro d
    have mirrored := change.consumed_mirrored d
    rw [rows, sum_replaceRow _ sound.ids mem change.id.symm, ← sound.consumed]
    omega
  · intro d
    have mirrored := change.reserved_mirrored d
    rw [rows, sum_replaceRow _ sound.ids mem change.id.symm, ← sound.reserved]
    omega
  · intro unblocked d limit has
    rw [policy] at has
    have before := change.sticky unblocked
    have room := sound.limits before d limit has
    have less := (change.within unblocked (sound.grants before row mem)).2 d
    have consumed := change.consumed_mirrored d
    have reserved := change.reserved_mirrored d
    simp only [RunBudgetReservation.committed] at less
    omega
  · intro unblocked r rMem
    have before := change.sticky unblocked
    rcases split r rMem with rfl | ⟨old, -⟩
    · exact (change.within unblocked (sound.grants before row mem)).1
    · exact sound.grants before r old
  · intro r rMem other otherMem live live'
    rcases split r rMem with rfl | ⟨old, ne⟩ <;> rcases split other otherMem with rfl | ⟨old', ne'⟩
    · rfl
    · exact absurd (sound.primary other old' row mem live' (change.livePrimary live)) ne'
    · exact absurd (sound.primary r old row mem live (change.livePrimary live')) ne
    · exact sound.primary r old other old' live live'

theorem Move.sound {ledger ledger' : Ledger} {account : RunBudgetAccount}
    (sound : LedgerSound ledger account) (move : Move ledger account ledger') :
    ∃ account', LedgerSound ledger' account' ∧ account'.core = account.core := by
  cases move with
  | kept account_kept rows_kept =>
    exact ⟨account, ⟨account_kept.trans sound.stored, rows_kept ▸ sound.ids,
      rows_kept ▸ sound.keys, rows_kept ▸ sound.ofRun, sound.account_columns,
      rows_kept ▸ sound.row_columns, rows_kept ▸ sound.rows, rows_kept ▸ sound.consumed,
      rows_kept ▸ sound.reserved, sound.limits, rows_kept ▸ sound.grants,
      rows_kept ▸ sound.primary⟩, rfl⟩
  | changed row account' row' mem change stored rows =>
    exact ⟨account', change.sound_ledger sound mem stored rows, change.account_core⟩
  | added group account' add stored rows =>
    exact ⟨account', add.sound sound stored rows, add.account_core⟩

section Store

variable {digests : Digests}

theorem readLedger_spec {ledger : Ledger} {run : Run} {account : RunBudgetAccount}
    {rows : List RunBudgetReservation}
    (read : readLedger digests ledger run = .ok (account, rows)) :
    ledger.account = some account ∧ account.runId = run.id ∧
      rows = ledger.reservations.filter fun row => row.runId = run.id := by
  simp only [readLedger, bind_eq_ok, orFault_eq_ok, require_eq_ok, pure_eq_ok,
    Prod.mk.injEq] at read
  obtain ⟨stored, found, -, -, -, -, -, -, rfl, rfl⟩ := read
  obtain ⟨has, scope⟩ := Option.filter_eq_some_iff.mp found
  exact ⟨has, by simpa using scope, rfl⟩

theorem readLedger_sound {ledger : Ledger} {run : Run} {account account' : RunBudgetAccount}
    {rows : List RunBudgetReservation} (sound : LedgerSound ledger account)
    (read : readLedger digests ledger run = .ok (account', rows)) :
    account' = account ∧ account.runId = run.id ∧ rows = ledger.reservations := by
  obtain ⟨has, scope, rfl⟩ := readLedger_spec read
  have same : account' = account := Option.some.inj (has.symm.trans sound.stored)
  subst same
  refine ⟨rfl, scope, List.filter_eq_self.mpr ?_⟩
  intro row mem
  simpa using (sound.ofRun row mem).trans scope

theorem authorizeReconciliation_sound {tables : RunTables} {now : Timestamp}
    {claim : BudgetReconciliationClaim} {ledger : Ledger} {account account' : RunBudgetAccount}
    {rows : List RunBudgetReservation} {row : RunBudgetReservation}
    (sound : LedgerSound ledger account)
    (authorized : authorizeReconciliation digests tables now claim ledger =
      .ok (account', rows, row)) :
    account' = account ∧ row ∈ ledger.reservations ∧ row.id = claim.reservationId := by
  simp only [authorizeReconciliation, reconciliationRows, bind_eq_ok, orFault_eq_ok, Prod.exists,
    pure_eq_ok, Prod.mk.injEq] at authorized
  obtain ⟨_, _, ⟨run, -, read⟩, found, search, -, -, rfl, rfl, rfl⟩ := authorized
  obtain ⟨same, -, rfl⟩ := readLedger_sound sound read
  exact ⟨same, find_key search⟩

theorem Change.touch {account account' : RunBudgetAccount} {row row' : RunBudgetReservation}
    (change : Change account row account' row') : Change account row account'.touch row' := by
  refine { change with
    account_core := change.account_core
    account_columns := ?_
    consumed_mirrored := ?_
    reserved_mirrored := ?_ }
  · intro d
    rw [pool_touch]
    exact change.account_columns d
  · intro d
    rw [pooled_touch]
    exact change.consumed_mirrored d
  · intro d
    rw [pooled_touch]
    exact change.reserved_mirrored d

theorem recordReceipt_move {ledger : Ledger} {account account' : RunBudgetAccount}
    {row row' : RunBudgetReservation} (mem : row ∈ ledger.reservations)
    (change : Change account row account' row') (claim : BudgetReconciliationClaim)
    (key : String) (kind : ReceiptKind) (payload : ReceiptPayload) (disposition : Disposition) :
    Move ledger account
      (recordReceipt digests account' row' claim key kind payload disposition ledger).2 :=
  .changed row account'.touch row' mem change.touch rfl rfl

theorem replay_move {ledger ledger' : Ledger} {account : RunBudgetAccount}
    {row : RunBudgetReservation} (sound : LedgerSound ledger account)
    (mem : row ∈ ledger.reservations) {claim : BudgetReconciliationClaim} {key : String}
    {kind : ReceiptKind} {payload : ReceiptPayload} {result : BudgetReceiptResult}
    (replayed : replay digests account row claim key kind payload ledger =
      some (result, ledger')) : Move ledger account ledger' := by
  have blocked : Change account row (account.block .receiptConflict) row :=
    .blocked (sound.rows row mem) _
  simp only [replay, Option.bind_eq_bind, Option.bind_eq_some_iff] at replayed
  obtain ⟨existing, -, replayed⟩ := replayed
  split at replayed
  · simp only [Option.pure_def, Option.some.injEq, Prod.mk.injEq] at replayed
    obtain ⟨-, rfl⟩ := replayed
    exact .kept rfl rfl
  · split at replayed
    · simp only [Option.pure_def, Option.some.injEq] at replayed
      have written := congrArg Prod.snd replayed
      subst written
      exact recordReceipt_move mem blocked _ _ _ _ _
    · simp only [Option.pure_def, Option.some.injEq, Prod.mk.injEq] at replayed
      obtain ⟨-, rfl⟩ := replayed
      exact .changed row _ row mem blocked rfl rfl

end Store

end SkillMind.Runs
