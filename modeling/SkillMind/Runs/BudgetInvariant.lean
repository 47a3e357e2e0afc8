import Mathlib.Algebra.Order.Group.Int
import SkillMind.Runs.BudgetEntries

/-!
# What a committed budget transaction may change

A row is sound when its balances, its status and its timestamps agree. Every transaction that
writes a row back makes a `Change`: the account mirrors the row, consumption only grows, an
unblocked account commits no more than before, and nothing leaves a closed status. A whole
transaction keeps the rows, changes one of them, or adds a group; from these three cases the
ledger invariant follows once for all operations.
-/

namespace SkillMind.Runs

open Library

/-- A reservation that is no longer held open. -/
def BudgetExecutionStatus.closed (status : BudgetExecutionStatus) : Prop :=
  status = .settled ∨ status = .released

/-- The balances, the status and the timestamps of a reservation agree. -/
structure RowSound (row : RunBudgetReservation) : Prop where
  sound : ∀ d, (row.held d).Sound
  tight : ¬ row.status.closed → ∀ d, (row.held d).Tight
  closed : row.status.closed → ∀ d, (row.held d).reserved = 0
  started : row.startIntentAt = none ↔ row.status = .reserved ∨ row.status = .released
  unstarted : row.startIntentAt = none →
    row.stopConfirmedAt = none ∧ row.finalUsageAt = none ∧
      ∀ d, (row.held d).consumed = 0 ∧ row.watermark d = -1
  settled : row.startIntentAt ≠ none →
    (row.status = .settled ↔ row.stopConfirmedAt ≠ none ∧ row.finalUsageAt ≠ none)

/-- No dimension of the row is overdrawn. -/
def RunBudgetReservation.withinGrant (row : RunBudgetReservation) : Prop :=
  ∀ d, (row.held d).consumed ≤ (row.held d).granted

/-- What the row keeps away from other executions: its reservation and its consumption. -/
def RunBudgetReservation.committed (row : RunBudgetReservation) (d : Dimension) : Int :=
  (row.held d).consumed + (row.held d).reserved

/-- What a transaction may do to the account and to one row. -/
structure Change (account : RunBudgetAccount) (row : RunBudgetReservation)
    (account' : RunBudgetAccount) (row' : RunBudgetReservation) : Prop where
  account_core : account'.core = account.core
  account_columns : ∀ d, (account'.pool d).isSome = (account.pool d).isSome
  row_columns : ∀ d, (row'.hold d).isSome = (row.hold d).isSome
  id : row'.id = row.id
  executionKey : row'.executionKey = row.executionKey
  runId : row'.runId = row.runId
  parent : row'.parentReservationId = row.parentReservationId
  consumed_mirrored : ∀ d, (account'.pooled d).consumed - (account.pooled d).consumed =
    (row'.held d).consumed - (row.held d).consumed
  reserved_mirrored : ∀ d, (account'.pooled d).reserved - (account.pooled d).reserved =
    (row'.held d).reserved - (row.held d).reserved
  granted : ∀ d, (row'.held d).granted = (row.held d).granted
  consumed_mono : ∀ d, (row.held d).consumed ≤ (row'.held d).consumed
  sticky : account'.blockCode = none → account.blockCode = none
  sound : RowSound row'
  within : account'.blockCode = none → row.withinGrant →
    row'.withinGrant ∧ ∀ d, row'.committed d ≤ row.committed d
  started_stays : row.startIntentAt ≠ none → row'.startIntentAt ≠ none
  closed_stays : row.status.closed → row'.status.closed
  livePrimary : row'.livePrimary → row.livePrimary
  returned : row.startIntentAt ≠ none → ∀ d,
    (row'.held d).reserved <
      (row.held d).reserved - ((row'.held d).consumed - (row.held d).consumed) →
    row'.stopConfirmedAt ≠ none ∧ row'.finalUsageAt ≠ none

variable {account : RunBudgetAccount} {row : RunBudgetReservation}

theorem Change.of_same_balances {account' : RunBudgetAccount}
    {row' : RunBudgetReservation} (account_core : account'.core = account.core)
    (pool : ∀ d, account'.pool d = account.pool d) (hold : ∀ d, row'.hold d = row.hold d)
    (id : row'.id = row.id) (executionKey : row'.executionKey = row.executionKey)
    (runId : row'.runId = row.runId)
    (parent : row'.parentReservationId = row.parentReservationId)
    (sticky : account'.blockCode = none → account.blockCode = none) (sound : RowSound row')
    (started_stays : row.startIntentAt ≠ none → row'.startIntentAt ≠ none)
    (closed_stays : row.status.closed → row'.status.closed)
    (livePrimary : row'.livePrimary → row.livePrimary) :
    Change account row account' row' := by
  have held : ∀ d, row'.held d = row.held d := fun d => by
    simp only [RunBudgetReservation.held, hold]
  have pooled : ∀ d, account'.pooled d = account.pooled d := fun d => by
    simp only [RunBudgetAccount.pooled, pool]
  refine ⟨account_core, fun d => by rw [pool], fun d => by rw [hold], id, executionKey, runId,
    parent, fun d => by rw [pooled, held, sub_self, sub_self],
    fun d => by rw [pooled, held, sub_self, sub_self], fun d => by rw [held],
    fun d => by rw [held], sticky, sound, fun _ within => ⟨?_, ?_⟩, started_stays, closed_stays,
    livePrimary, ?_⟩
  · intro d
    rw [held]
    exact within d
  · intro d
    simp only [RunBudgetReservation.committed, held, le_refl]
  · intro _ d less
    rw [held, sub_self, sub_zero] at less
    exact absurd less (lt_irrefl _)

theorem Change.blocked
    (sound : RowSound row) (code : BlockCode) : Change account row (account.block code) row :=
  .of_same_balances rfl (fun d => by cases d <;> rfl) (fun _ => rfl) rfl rfl rfl rfl
    (fun unblocked => absurd unblocked (by simp)) sound (fun h => h) (fun h => h) (fun h => h)

theorem core_fields {row' : RunBudgetReservation} (same : row'.core = row.core) :
    row'.id = row.id ∧ row'.executionKey = row.executionKey ∧ row'.runId = row.runId ∧
      row'.parentReservationId = row.parentReservationId ∧ row'.status = row.status ∧
      row'.startIntentAt = row.startIntentAt ∧ row'.stopConfirmedAt = row.stopConfirmedAt ∧
      row'.finalUsageAt = row.finalUsageAt := by
  refine ⟨?_, ?_, ?_, ?_, ?_, ?_, ?_, ?_⟩
  · exact (congrArg RunBudgetReservation.id same :)
  · exact (congrArg RunBudgetReservation.executionKey same :)
  · exact (congrArg RunBudgetReservation.runId same :)
  · exact (congrArg RunBudgetReservation.parentReservationId same :)
  · exact (congrArg RunBudgetReservation.status same :)
  · exact (congrArg RunBudgetReservation.startIntentAt same :)
  · exact (congrArg RunBudgetReservation.stopConfirmedAt same :)
  · exact (congrArg RunBudgetReservation.finalUsageAt same :)

theorem drawnBy_sound {hold : Hold Int} (sound : hold.Sound) {delta : Option Int}
    (nonneg : ∀ amount ∈ delta, 0 ≤ amount) :
    (drawnBy hold delta).Sound ∧ hold.consumed ≤ (drawnBy hold delta).consumed ∧
      (drawnBy hold delta).granted = hold.granted ∧
      hold.reserved - ((drawnBy hold delta).consumed - hold.consumed) ≤
        (drawnBy hold delta).reserved := by
  cases delta with
  | none => exact ⟨sound, le_refl _, rfl, by simp [drawnBy]⟩
  | some amount =>
    have amount_nonneg := nonneg amount rfl
    have covered := hold.transfer_le amount
    refine ⟨Hold.draw_sound sound amount_nonneg, ?_, rfl, ?_⟩
    · simp only [drawnBy, Hold.draw_consumed]
      omega
    · simp only [drawnBy, Hold.draw_consumed, Hold.draw_reserved]
      omega

theorem drawnBy_tight {hold : Hold Int} (tight : hold.Tight) {delta : Option Int}
    (nonneg : ∀ amount ∈ delta, 0 ≤ amount) : (drawnBy hold delta).Tight := by
  cases delta with
  | none => exact tight
  | some amount => exact Hold.draw_tight tight (nonneg amount rfl)

theorem mirroredBy_mirrors (pool : Pool Int) (hold : Hold Int) (delta : Option Int) :
    (mirroredBy pool hold delta).consumed - pool.consumed =
        (drawnBy hold delta).consumed - hold.consumed ∧
      (mirroredBy pool hold delta).reserved - pool.reserved =
        (drawnBy hold delta).reserved - hold.reserved := by
  cases delta with
  | none => simp [mirroredBy, drawnBy]
  | some amount =>
    simp only [mirroredBy, drawnBy, Hold.draw_consumed, Hold.draw_reserved]
    omega

theorem tight_committed {hold : Hold Int} (tight : hold.Tight)
    (within : hold.consumed ≤ hold.granted) : hold.consumed + hold.reserved = hold.granted :=
  tight.balanced_iff.mpr within

/-! ## Usage reports -/

variable {deltas : List (Dimension × Int)}

theorem usageDeltas_spec {report : BudgetUsageReport}
    {dimensions : List Dimension} (distinct : dimensions.Nodup) {before : Option BlockCode}
    {verdict : Option BlockCode}
    (computed : usageDeltas report.toUsagePayload row before dimensions =
      .ok (verdict, deltas)) :
    (deltas.map Prod.fst).Nodup ∧ (∀ delta ∈ deltas, 0 ≤ delta.2) ∧
      (∀ d ∈ deltas.map Prod.fst, d ∈ dimensions) := by
  induction dimensions generalizing before verdict deltas with
  | nil =>
    simp only [usageDeltas, pure_eq_ok, Prod.mk.injEq] at computed
    obtain ⟨-, rfl⟩ := computed
    simp
  | cons d rest ih =>
    obtain ⟨fresh, distinctRest⟩ := List.nodup_cons.mp distinct
    cases has : report.value d with
    | none =>
      simp only [usageDeltas, has] at computed
      obtain ⟨nodup, nonneg, sub⟩ := ih distinctRest computed
      exact ⟨nodup, nonneg, fun e mem => List.mem_cons_of_mem d (sub e mem)⟩
    | some value =>
      simp only [usageDeltas, has, bind_eq_ok, Prod.exists, pure_eq_ok,
        Prod.mk.injEq] at computed
      obtain ⟨found, delta, head, later, more, tail, -, rfl⟩ := computed
      obtain ⟨nodup, nonneg, sub⟩ := ih distinctRest tail
      have delta_nonneg : 0 ≤ delta := by
        have value_nonneg := report.value_nonneg has
        simp only [usageDelta, bind_eq_ok] at head
        obtain ⟨hold, -, head⟩ := head
        split at head
        · simp only [pure_eq_ok, Prod.mk.injEq] at head
          exact head.2 ▸ value_nonneg
        · simp only [bind_eq_ok, pure_eq_ok, Prod.mk.injEq] at head
          obtain ⟨-, -, -, rfl⟩ := head
          exact le_max_left _ _
      refine ⟨List.nodup_cons.mpr ⟨fun mem => fresh (sub d mem), nodup⟩, ?_, ?_⟩
      · intro entered mem
        rcases List.mem_cons.mp mem with rfl | later
        · exact delta_nonneg
        · exact nonneg entered later
      · intro e mem
        rcases List.mem_cons.mp mem with rfl | later
        · exact List.mem_cons_self
        · exact List.mem_cons_of_mem d (sub e later)

theorem deltaIn_mem {d : Dimension} {delta : Int}
    (entered : deltaIn deltas d = some delta) : (d, delta) ∈ deltas := by
  induction deltas with
  | nil => simp at entered
  | cons first rest ih =>
    obtain ⟨e, amount⟩ := first
    by_cases same : d = e
    · subst same
      simp only [deltaIn_cons, if_true, Option.some.injEq] at entered
      simp [entered]
    · rw [deltaIn_cons, if_neg same] at entered
      exact List.mem_cons_of_mem _ (ih entered)

theorem dimensions_nodup (policy : BudgetPolicy) : policy.dimensions.Nodup := by
  unfold BudgetPolicy.dimensions
  split <;> decide

structure Reported (row row' : RunBudgetReservation) : Prop where
  hold : ∀ d, row'.hold d = row.hold d
  watermark : ∀ d, row'.watermark d = row.watermark d
  id : row'.id = row.id
  executionKey : row'.executionKey = row.executionKey
  runId : row'.runId = row.runId
  parent : row'.parentReservationId = row.parentReservationId
  status : row'.status = row.status
  startIntentAt : row'.startIntentAt = row.startIntentAt
  stopConfirmedAt : row'.stopConfirmedAt = row.stopConfirmedAt
  final_stays : row.finalUsageAt ≠ none → row'.finalUsageAt ≠ none

theorem reported_final (row : RunBudgetReservation) (complete : Prop) [Decidable complete]
    (now : Timestamp) :
    Reported row
      (if complete then { row with finalUsageAt := row.finalUsageAt.or (some now) } else row) := by
  split
  · refine ⟨fun d => by cases d <;> rfl, fun d => by cases d <;> rfl, rfl, rfl, rfl, rfl, rfl, rfl,
      rfl, fun _ => ?_⟩
    cases row.finalUsageAt <;> simp
  · exact ⟨fun _ => rfl, fun _ => rfl, rfl, rfl, rfl, rfl, rfl, rfl, rfl, fun h => h⟩

theorem enterReport_parts {now : Timestamp} {account' : RunBudgetAccount}
    {row' : RunBudgetReservation} {report : UsagePayload}
    {disposition : Disposition} (distinct : (deltas.map Prod.fst).Nodup)
    (entered : enterReport now account row report deltas = .ok (account', row', disposition)) :
    ∃ entry reported, EntrySpec report deltas ⟨account, row, false⟩ entry ∧
      Reported entry.row reported ∧
      (reported.finalUsageAt ≠ none ↔ row.finalUsageAt ≠ none ∨
        (report.final = true ∧ ∀ d ∈ account.policy.dimensions, report.value d ≠ none)) ∧
      settleIfConfirmed
        (if entry.overspent then entry.account.block .budgetOverspent else entry.account)
        reported = .ok (account', row') ∧
      disposition = if entry.overspent then .overspent else .applied := by
  simp only [enterReport, bind_eq_ok, Prod.exists, pure_eq_ok, Prod.mk.injEq] at entered
  obtain ⟨entry, entries, account₁, row₁, settled, rfl, rfl, rfl⟩ := entered
  have spec := enterDeltas_spec distinct entries
  have policy : (if entry.overspent then entry.account.block .budgetOverspent
      else entry.account).policy = account.policy := by
    have same := policy_of_core spec.account_core
    split
    · exact same
    · exact same
  have final : entry.row.finalUsageAt = row.finalUsageAt :=
    (core_fields spec.row_core).2.2.2.2.2.2.2
  refine ⟨entry, _, spec, reported_final entry.row _ now, ?_, settled, rfl⟩
  rw [policy]
  split
  · rename_i complete
    refine iff_of_true ?_ (Or.inr complete)
    cases entry.row.finalUsageAt <;> simp
  · rename_i incomplete
    rw [final]
    exact (or_iff_left incomplete).symm

/-- An entry that is not settled yet: balances have moved, the status has not. -/
structure Pending (account : RunBudgetAccount) (row : RunBudgetReservation)
    (account₁ : RunBudgetAccount) (row₁ : RunBudgetReservation) : Prop where
  account_core : account₁.core = account.core
  account_columns : ∀ d, (account₁.pool d).isSome = (account.pool d).isSome
  row_columns : ∀ d, (row₁.hold d).isSome = (row.hold d).isSome
  id : row₁.id = row.id
  executionKey : row₁.executionKey = row.executionKey
  runId : row₁.runId = row.runId
  parent : row₁.parentReservationId = row.parentReservationId
  status : row₁.status = row.status
  startIntentAt : row₁.startIntentAt = row.startIntentAt
  stop_stays : row.stopConfirmedAt ≠ none → row₁.stopConfirmedAt ≠ none
  final_stays : row.finalUsageAt ≠ none → row₁.finalUsageAt ≠ none
  consumed_mirrored : ∀ d, (account₁.pooled d).consumed - (account.pooled d).consumed =
    (row₁.held d).consumed - (row.held d).consumed
  reserved_mirrored : ∀ d, (account₁.pooled d).reserved - (account.pooled d).reserved =
    (row₁.held d).reserved - (row.held d).reserved
  granted : ∀ d, (row₁.held d).granted = (row.held d).granted
  consumed_mono : ∀ d, (row.held d).consumed ≤ (row₁.held d).consumed
  covered : ∀ d, (row.held d).reserved - ((row₁.held d).consumed - (row.held d).consumed) ≤
    (row₁.held d).reserved
  sound : ∀ d, (row₁.held d).Sound
  tight : ¬ row.status.closed → ∀ d, (row₁.held d).Tight
  sticky : account₁.blockCode = none → account.blockCode = none
  within : account₁.blockCode = none → row.withinGrant → row₁.withinGrant
  reported : account₁.blockCode = none → row.finalUsageAt ≠ none →
    ∀ d, (row₁.held d).consumed = (row.held d).consumed

theorem Pending.settle {account₁ account' : RunBudgetAccount}
    {row₁ row' : RunBudgetReservation} (pending : Pending account row account₁ row₁)
    (sound : RowSound row) (started : row.startIntentAt ≠ none)
    (settled : settleIfConfirmed account₁ row₁ = .ok (account', row')) :
    Change account row account' row' := by
  have started₁ : row₁.startIntentAt ≠ none := pending.startIntentAt ▸ started
  have notFresh := mt sound.started.mpr started
  have settledRow : row.status.closed → row.status = .settled := by
    rintro (settled | released)
    · exact settled
    · exact absurd (Or.inr released) notFresh
  rcases settleIfConfirmed_spec settled with
    ⟨stopped, reported, released, spec, rfl⟩ | ⟨unsettled, rfl, rfl⟩
  · obtain ⟨id, key, runId, parent, -, start, stop, final⟩ := core_fields spec.row_core
    have held : ∀ d, ({ released with status := .settled } : RunBudgetReservation).held d =
        (row₁.held d).release := spec.held
    have columns : ∀ d,
        (({ released with status := .settled } : RunBudgetReservation).hold d).isSome =
          (row.hold d).isSome := fun d => (spec.row_columns d).trans (pending.row_columns d)
    have stopped' : released.stopConfirmedAt ≠ none := fun h => stopped (stop.symm.trans h)
    have reported' : released.finalUsageAt ≠ none := fun h => reported (final.symm.trans h)
    have started' : released.startIntentAt ≠ none := fun h => started₁ (start.symm.trans h)
    refine ⟨spec.account_core.trans pending.account_core,
      fun d => (spec.account_columns d).trans (pending.account_columns d), columns,
      id.trans pending.id, key.trans pending.executionKey, runId.trans pending.runId,
      parent.trans pending.parent, ?_, ?_, ?_, ?_, ?_, ?_, ?_, fun _ => started',
      fun _ => Or.inl rfl, ?_, fun _ _ _ => ⟨stopped', reported'⟩⟩
    · intro d
      rw [held, spec.pooled]
      exact pending.consumed_mirrored d
    · intro d
      rw [held, spec.pooled]
      have mirror := pending.reserved_mirrored d
      simp only [Hold.release]
      omega
    · intro d
      rw [held]
      exact pending.granted d
    · intro d
      rw [held]
      exact pending.consumed_mono d
    · intro unblocked
      exact pending.sticky (spec.blockCode ▸ unblocked)
    · refine ⟨fun d => ?_, fun alive => absurd (Or.inl rfl) alive, fun _ d => ?_, ?_,
        fun h => absurd h started', fun _ => iff_of_true rfl ⟨stopped', reported'⟩⟩
      · rw [held]
        exact Hold.release_sound (pending.sound d)
      · rw [held]
        rfl
      · exact iff_of_false started' (by simp)
    · intro unblocked before
      rw [spec.blockCode] at unblocked
      have after := pending.within unblocked before
      refine ⟨fun d => by rw [held]; exact after d, fun d => ?_⟩
      have bound := after d
      have grant := pending.granted d
      simp only [RunBudgetReservation.committed, held, Hold.release]
      by_cases closed : row.status.closed
      · have reportedBefore := ((sound.settled started).mp (settledRow closed)).2
        have quiet := pending.reported unblocked reportedBefore d
        have empty := sound.closed closed d
        omega
      · have exactly := tight_committed (sound.tight closed d) (before d)
        omega
    · rintro ⟨-, alive | alive, -⟩ <;> exact absurd alive (by simp)
  · have alive : ¬ row.status.closed := by
      intro closed
      obtain ⟨wasStopped, wasReported⟩ := (sound.settled started).mp (settledRow closed)
      exact unsettled ⟨pending.stop_stays wasStopped, pending.final_stays wasReported⟩
    have alive' : ¬ row'.status.closed := pending.status ▸ alive
    refine ⟨pending.account_core, pending.account_columns, pending.row_columns, pending.id,
      pending.executionKey, pending.runId, pending.parent, pending.consumed_mirrored,
      pending.reserved_mirrored, pending.granted, pending.consumed_mono, pending.sticky, ?_, ?_,
      fun _ => started₁, fun closed => absurd closed alive, ?_, ?_⟩
    · refine ⟨pending.sound, fun _ => pending.tight alive, fun closed => absurd closed alive', ?_,
        fun h => absurd h started₁, fun _ => iff_of_false ?_ unsettled⟩
      · rw [pending.startIntentAt, pending.status]
        exact sound.started
      · exact fun h => alive' (Or.inl h)
    · intro unblocked before
      have after := pending.within unblocked before
      refine ⟨after, fun d => ?_⟩
      have committed₁ := tight_committed (pending.tight alive d) (after d)
      have committed := tight_committed (sound.tight alive d) (before d)
      have grant := pending.granted d
      simp only [RunBudgetReservation.committed]
      omega
    · rintro ⟨primary, state, notStopped⟩
      refine ⟨pending.parent ▸ primary, pending.status ▸ state, ?_⟩
      by_contra stopped
      exact pending.stop_stays stopped notStopped
    · intro _ d less
      have covered := pending.covered d
      omega

theorem enterReport_change {now : Timestamp} {account' : RunBudgetAccount}
    {row' : RunBudgetReservation} {report : UsagePayload}
    {disposition : Disposition} (sound : RowSound row) (started : row.startIntentAt ≠ none)
    (distinct : (deltas.map Prod.fst).Nodup) (nonneg : ∀ delta ∈ deltas, 0 ≤ delta.2)
    (entered : enterReport now account row report deltas = .ok (account', row', disposition)) :
    Change account row account' row' := by
  obtain ⟨entry, reported, spec, mark, -, settled, -⟩ := enterReport_parts distinct entered
  obtain ⟨id, key, runId, parent, status, start, stop, final⟩ := core_fields spec.row_core
  have amounts : ∀ d, ∀ amount ∈ deltaIn deltas d, 0 ≤ amount := fun d amount has =>
    nonneg (d, amount) (deltaIn_mem has)
  have held : ∀ d, reported.held d = drawnBy (row.held d) (deltaIn deltas d) := fun d => by
    rw [← spec.held d]
    simp only [RunBudgetReservation.held, mark.hold]
  have drawn := fun d => drawnBy_sound (sound.sound d) (amounts d)
  have mirror := fun d => mirroredBy_mirrors (account.pooled d) (row.held d) (deltaIn deltas d)
  refine Pending.settle ?_ sound started settled
  -- The account that is settled is blocked when a grant is exceeded.
  generalize overspent : (if entry.overspent then entry.account.block .budgetOverspent
    else entry.account) = charged
  have charged_core : charged.core = account.core := by
    rw [← overspent, ← spec.account_core]
    split <;> simp
  have charged_pool : ∀ d, charged.pool d = entry.account.pool d := fun d => by
    rw [← overspent]
    split <;> simp
  have charged_pooled : ∀ d, charged.pooled d =
      mirroredBy (account.pooled d) (row.held d) (deltaIn deltas d) := fun d => by
    rw [← spec.pooled d]
    simp only [RunBudgetAccount.pooled, charged_pool]
  have charged_open : charged.blockCode = none →
      account.blockCode = none ∧ entry.overspent = false ∧
        (row.finalUsageAt ≠ none → ∀ delta ∈ deltas, delta.2 = 0) := by
    rw [← overspent]
    intro unblocked
    cases ended : entry.overspent with
    | true => simp [ended] at unblocked
    | false =>
      simp only [ended, Bool.false_eq_true, if_false, spec.blockCode] at unblocked
      split at unblocked
      · exact absurd unblocked (by simp)
      · rename_i quiet
        refine ⟨unblocked, rfl, fun reportedBefore delta mem => ?_⟩
        by_contra moved
        exact quiet ⟨reportedBefore, delta, mem, moved⟩
  refine ⟨charged_core, ?_, ?_, mark.id.trans id, mark.executionKey.trans key,
    mark.runId.trans runId, mark.parent.trans parent, mark.status.trans status,
    mark.startIntentAt.trans start, ?_, ?_, ?_, ?_, ?_, ?_, ?_, ?_, ?_,
    fun unblocked => (charged_open unblocked).1, ?_, ?_⟩
  · intro d
    rw [charged_pool, spec.account_columns]
  · intro d
    rw [mark.hold, spec.row_columns]
  · exact fun h => mark.stopConfirmedAt ▸ stop ▸ h
  · exact fun h => mark.final_stays (by rwa [final])
  · intro d
    rw [held, charged_pooled]
    exact (mirror d).1
  · intro d
    rw [held, charged_pooled]
    exact (mirror d).2
  · intro d
    rw [held]
    exact (drawn d).2.2.1
  · intro d
    rw [held]
    exact (drawn d).2.1
  · intro d
    rw [held]
    exact (drawn d).2.2.2
  · intro d
    rw [held]
    exact (drawn d).1
  · intro alive d
    rw [held]
    exact drawnBy_tight (sound.tight alive d) (amounts d)
  · intro unblocked before d
    have calm := (charged_open unblocked).2.1
    by_cases counted : d ∈ deltas.map Prod.fst
    · by_contra ended
      have noted := spec.overspent.mpr (Or.inr ⟨d, counted, by
        simpa only [RunBudgetReservation.held, mark.hold] using not_le.mp ended⟩)
      rw [calm] at noted
      exact absurd noted (by simp)
    · rw [held, deltaIn_eq_none.mpr counted]
      exact before d
  · intro unblocked reportedBefore d
    have quiet := (charged_open unblocked).2.2 reportedBefore
    rw [held]
    cases counted : deltaIn deltas d with
    | none => rfl
    | some amount =>
      have zero : amount = 0 := quiet (d, amount) (deltaIn_mem counted)
      simp [drawnBy, zero]

theorem stop_change {now : Timestamp} {account' : RunBudgetAccount}
    {row' : RunBudgetReservation} (sound : RowSound row)
    (started : row.startIntentAt ≠ none)
    (settled : settleIfConfirmed account
      { row with stopConfirmedAt := row.stopConfirmedAt.or (some now) } = .ok (account', row')) :
    Change account row account' row' := by
  refine Pending.settle ?_ sound started settled
  have hold : ∀ d, ({ row with stopConfirmedAt := row.stopConfirmedAt.or (some now) } :
      RunBudgetReservation).hold d = row.hold d := fun d => by cases d <;> rfl
  have held : ∀ d, ({ row with stopConfirmedAt := row.stopConfirmedAt.or (some now) } :
      RunBudgetReservation).held d = row.held d := fun d => by
    simp only [RunBudgetReservation.held, hold]
  refine ⟨rfl, fun _ => rfl, fun d => by rw [hold], rfl, rfl, rfl, rfl, rfl, rfl, ?_,
    fun h => h, ?_, ?_, fun d => by rw [held], fun d => by rw [held], ?_,
    fun d => by rw [held]; exact sound.sound d,
    fun alive d => by rw [held]; exact sound.tight alive d,
    fun h => h, fun _ before d => by rw [held]; exact before d, fun _ _ d => by rw [held]⟩
  · intro _
    cases row.stopConfirmedAt <;> simp
  · intro d
    rw [held, sub_self, sub_self]
  · intro d
    rw [held, sub_self, sub_self]
  · intro d
    rw [held, sub_self, sub_zero]

theorem start_change {now : Timestamp}
    (sound : RowSound row) (reserved : row.status = .reserved) :
    Change account row account.touch
      { row with status := .startIntent, startIntentAt := some now } := by
  have unstarted := sound.started.mpr (Or.inl reserved)
  have alive : ¬ row.status.closed := by
    rw [reserved]
    rintro (h | h) <;> cases h
  obtain ⟨notStopped, -, -⟩ := sound.unstarted unstarted
  refine .of_same_balances rfl (by simp) (fun d => by cases d <;> rfl) rfl rfl rfl rfl (fun h => h)
    ?_ (fun _ => by simp) (fun closed => absurd closed alive) ?_
  · refine ⟨sound.sound, fun _ => sound.tight alive, ?_, by simp, by simp, fun _ => ?_⟩
    · rintro (h | h) <;> cases h
    · exact iff_of_false (by simp) (fun ⟨stopped, _⟩ => stopped notStopped)
  · rintro ⟨primary, -, notStopped'⟩
    exact ⟨primary, Or.inl reserved, notStopped'⟩

theorem releaseUnstarted_change {account' : RunBudgetAccount}
    {row' : RunBudgetReservation} (sound : RowSound row)
    (unstarted : row.startIntentAt = none)
    (released : release account row = .ok (account', row')) :
    Change account row account' { row' with status := .released } := by
  have spec := release_spec released
  obtain ⟨id, key, runId, parent, -, start, stop, final⟩ := core_fields spec.row_core
  obtain ⟨notStopped, notReported, clean⟩ := sound.unstarted unstarted
  have held : ∀ d, ({ row' with status := .released } : RunBudgetReservation).held d =
      (row.held d).release := spec.held
  refine ⟨spec.account_core, spec.account_columns, spec.row_columns, id, key, runId, parent,
    ?_, ?_, fun d => by rw [held]; rfl, fun d => by rw [held]; exact le_refl _,
    fun unblocked => spec.blockCode ▸ unblocked, ?_, ?_, fun h => absurd unstarted h,
    fun _ => Or.inr rfl, ?_, fun h => absurd unstarted h⟩
  · intro d
    rw [held, spec.pooled, Hold.release, sub_self, sub_self]
  · intro d
    rw [held, spec.pooled]
    simp only [Hold.release]
    omega
  · refine ⟨fun d => ?_, fun alive => absurd (Or.inr rfl) alive, fun _ d => ?_, ?_, fun _ => ?_,
      fun h => absurd (start.trans unstarted) h⟩
    · rw [held]
      exact Hold.release_sound (sound.sound d)
    · rw [held]
      rfl
    · exact iff_of_true (start.trans unstarted) (Or.inr rfl)
    · refine ⟨stop.trans notStopped, final.trans notReported, fun d => ⟨?_, ?_⟩⟩
      · rw [held]
        exact (clean d).1
      · exact (spec.watermark d).trans (clean d).2
  · intro _ before
    refine ⟨fun d => by rw [held]; exact before d, fun d => ?_⟩
    have nonneg := (sound.sound d).reserved_nonneg
    simp only [RunBudgetReservation.committed, held, Hold.release]
    omega
  · rintro ⟨-, alive | alive, -⟩ <;> exact absurd alive (by simp)

end SkillMind.Runs
