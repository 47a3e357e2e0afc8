import Mathlib.Algebra.Order.BigOperators.Group.List
import SkillMind.Runs.BudgetReconciliation

/-!
# Conservation of the shared budget

From an account that was just opened, every run of the store keeps the account equal to the sum of
its reservations. So the comparison in `readLedger` never fails, no counter is negative, and while
the account is not blocked the committed amount stays within every limit and each open reservation
is balanced.
-/

namespace SkillMind.Runs

open Library

section Store

variable {digests : Digests}

/-! ## Reachable ledgers are sound -/

/-- The checksums frozen with the account belong to the Run. -/
def Frozen (digests : Digests) (run : Run) (account : RunBudgetAccount) : Prop :=
  account.runId = run.id ∧
    account.policyChecksum = digests.budgetChecksum (.policy account.policy) ∧
    account.limitsChecksum = digests.budgetChecksum (.limits run.limits)

/-- The sound ledgers of one Run. -/
def BudgetInvariant (digests : Digests) (run : Run) (ledger : Ledger) : Prop :=
  ∃ account, LedgerSound ledger account ∧ Frozen digests run account

variable {account : RunBudgetAccount}

theorem Frozen.of_core {run : Run} {account' : RunBudgetAccount}
    (frozen : Frozen digests run account) (core : account'.core = account.core) :
    Frozen digests run account' := by
  obtain ⟨runId, policy, limits⟩ := frozen
  have sameRun : account'.runId = account.runId := (congrArg RunBudgetAccount.runId core :)
  have samePolicy : account'.policy = account.policy := policy_of_core core
  have sameChecksum : account'.policyChecksum = account.policyChecksum :=
    (congrArg RunBudgetAccount.policyChecksum core :)
  have sameLimits : account'.limitsChecksum = account.limitsChecksum :=
    (congrArg RunBudgetAccount.limitsChecksum core :)
  refine ⟨sameRun.trans runId, ?_, sameLimits.trans limits⟩
  rw [sameChecksum, samePolicy]
  exact policy

theorem newBudgetAccount_spec {run : Run} {policy : BudgetPolicy}
    (opened : newBudgetAccount digests run policy = .ok account) :
    account = {
      runId := run.id
      policy := policy
      policyChecksum := digests.budgetChecksum (.policy policy)
      limitsChecksum := digests.budgetChecksum (.limits run.limits)
      turns := Pool.empty
      cost := policy.maxCostNanos.map fun _ => Pool.empty
      blockCode := none
      rowVersion := 1 } := by
  simp only [newBudgetAccount, bind_eq_ok, require_eq_ok, exists_unit, pure_eq_ok] at opened
  exact opened.2.2.2.symm

theorem opened_sound {run : Run} {policy : BudgetPolicy}
    (opened : newBudgetAccount digests run policy = .ok account) :
    LedgerSound (Ledger.opened account) account := by
  obtain rfl := newBudgetAccount_spec opened
  have zero : ∀ d, (RunBudgetAccount.pooled {
      runId := run.id
      policy := policy
      policyChecksum := digests.budgetChecksum (.policy policy)
      limitsChecksum := digests.budgetChecksum (.limits run.limits)
      turns := Pool.empty
      cost := policy.maxCostNanos.map fun _ => Pool.empty
      blockCode := none
      rowVersion := 1 } d) = Pool.empty := by
    intro d
    cases d with
    | turns => rfl
    | costNanos =>
      simp only [RunBudgetAccount.pooled, RunBudgetAccount.pool]
      cases policy.maxCostNanos <;> rfl
  refine ⟨rfl, List.nodup_nil, List.nodup_nil, by simp [Ledger.opened], ?_, by simp [Ledger.opened],
    by simp [Ledger.opened], ?_, ?_, ?_, by simp [Ledger.opened], by simp [Ledger.opened]⟩
  · intro d
    cases d with
    | turns => rfl
    | costNanos => simp [RunBudgetAccount.pool, BudgetPolicy.enabled]
  · intro d
    rw [zero]
    rfl
  · intro d
    rw [zero]
    rfl
  · intro _ d limit has
    rw [zero]
    cases d with
    | turns =>
      simp only [BudgetPolicy.limit, Option.mem_def, Option.some.injEq] at has
      have := policy.maxTurns_units.1
      simp only [if_true] at this
      simp only [Pool.empty]
      omega
    | costNanos =>
      have := (policy.maxCostNanos_units limit has).1
      simp only [if_true] at this
      simp only [Pool.empty]
      omega

theorem budgetInvariant_invariant (run : Run) :
    (budgetStore digests).Invariant (BudgetInvariant digests run) := by
  rintro ledger call answer ledger' ⟨account, sound, frozen⟩ committed
  obtain ⟨account', sound', core⟩ := (execBudget_move sound committed).sound sound
  exact ⟨account', sound', frozen.of_core core⟩

theorem budget_reachable_sound {run : Run} {policy : BudgetPolicy}
    {ledger : Ledger} (opened : newBudgetAccount digests run policy = .ok account)
    (reached : (budgetStore digests).Reachable (Ledger.opened account) ledger) :
    BudgetInvariant digests run ledger := by
  refine (budgetInvariant_invariant run).reachable ⟨account, opened_sound opened, ?_⟩ reached
  obtain rfl := newBudgetAccount_spec opened
  exact ⟨rfl, rfl, rfl⟩

theorem storedUnits_of_nonneg {value : Int} (nonneg : 0 ≤ value) :
    storedUnits (some value) = .ok value :=
  storedUnits_eq_ok.mpr ⟨rfl, nonneg⟩

theorem reconcileColumn_enabled {stored : Int} {parts : List Int} (nonneg : 0 ≤ stored)
    (parts_nonneg : ∀ part ∈ parts, 0 ≤ part) (sum : stored = parts.sum) :
    reconcileColumn true (some stored) (parts.map some) = .ok () := by
  have values : (parts.map some).mapM storedUnits =
      .ok ((parts.map some).map fun value => value.getD 0) := by
    refine mapM_of_forall fun value mem => ?_
    obtain ⟨part, isPart, rfl⟩ := List.mem_map.mp mem
    exact storedUnits_of_nonneg (parts_nonneg part isPart)
  have total : ((parts.map some).map fun value => value.getD 0).sum = parts.sum := by
    simp
  simp only [reconcileColumn, if_true, storedUnits_of_nonneg nonneg, ok_bind, values, total]
  exact require_of sum

theorem reconcileDimension_of_sound {ledger : Ledger}
    (sound : LedgerSound ledger account) (d : Dimension) :
    reconcileDimension account ledger.reservations d = .ok () := by
  cases enabled : account.policy.enabled d with
  | false =>
    have noPool : account.pool d = none := by
      simpa [enabled] using sound.account_columns d
    have noHold : ∀ row ∈ ledger.reservations, row.hold d = none := fun row mem => by
      simpa [enabled] using sound.row_columns row mem d
    have empty : ∀ part : Hold Int → Int,
        reconcileColumn false none (ledger.reservations.map fun row => (row.hold d).map part) =
          .ok () := by
      intro part
      refine require_of ⟨rfl, fun value mem => ?_⟩
      obtain ⟨row, isRow, rfl⟩ := List.mem_map.mp mem
      rw [noHold row isRow, Option.map_none]
    simp only [reconcileDimension, enabled, noPool, Option.map_none, empty, ok_bind]
  | true =>
    obtain ⟨pool, hasPool⟩ := Option.isSome_iff_exists.mp
      ((sound.account_columns d).trans enabled)
    have columns : ∀ part : Hold Int → Int,
        (ledger.reservations.map fun row => (row.hold d).map part) =
          (ledger.reservations.map fun row => part (row.held d)).map some := by
      intro part
      rw [List.map_map]
      refine List.map_congr_left fun row mem => ?_
      obtain ⟨hold, hasHold⟩ := Option.isSome_iff_exists.mp
        ((sound.row_columns row mem d).trans enabled)
      simp [hasHold, held_of_hold hasHold]
    have consumed := sound.consumed d
    have reserved := sound.reserved d
    rw [pooled_of_pool hasPool] at consumed reserved
    have consumed_nonneg : ∀ part ∈ ledger.reservations.map fun row => (row.held d).consumed,
        0 ≤ part := by
      intro part mem
      obtain ⟨row, isRow, rfl⟩ := List.mem_map.mp mem
      exact ((sound.rows row isRow).sound d).consumed_nonneg
    have reserved_nonneg : ∀ part ∈ ledger.reservations.map fun row => (row.held d).reserved,
        0 ≤ part := by
      intro part mem
      obtain ⟨row, isRow, rfl⟩ := List.mem_map.mp mem
      exact ((sound.rows row isRow).sound d).reserved_nonneg
    simp only [reconcileDimension, enabled, hasPool, Option.map_some, columns]
    rw [reconcileColumn_enabled (consumed ▸ List.sum_nonneg consumed_nonneg) consumed_nonneg
      consumed, ok_bind]
    exact reconcileColumn_enabled (reserved ▸ List.sum_nonneg reserved_nonneg) reserved_nonneg
      reserved

theorem readLedger_of_sound {run : Run} {ledger : Ledger}
    (sound : LedgerSound ledger account) (frozen : Frozen digests run account) :
    readLedger digests ledger run = .ok (account, ledger.reservations) := by
  obtain ⟨runId, policy, limits⟩ := frozen
  have rows : ledger.reservations.filter (fun row => row.runId = run.id) =
      ledger.reservations := by
    refine List.filter_eq_self.mpr fun row mem => ?_
    simpa using (sound.ofRun row mem).trans runId
  have found : ledger.account.filter (fun account => account.runId = run.id) = some account := by
    simp [sound.stored, runId]
  simp only [readLedger, found, orFault, ok_bind, require_of (And.intro policy limits), rows,
    reconcileDimension_of_sound sound]
  rfl

/-! ## Conservation -/

/-- **Conservation of the budget.**  In every reachable state the account is the sum of its
reservations, so the locked read succeeds for the Run in any later state of its row; no
counter is negative; and while the account is not blocked every limit is kept and every open
reservation is balanced. -/
theorem budget_conserved {run : Run} {policy : BudgetPolicy} {account : RunBudgetAccount}
    {ledger : Ledger} (opened : newBudgetAccount digests run policy = .ok account)
    (reached : (budgetStore digests).Reachable (Ledger.opened account) ledger) :
    ∃ current, ledger.account = some current ∧
      (∀ later : Run, later.id = run.id → later.limits = run.limits →
        readLedger digests ledger later = .ok (current, ledger.reservations)) ∧
      (∀ d, (current.pooled d).consumed =
          (ledger.reservations.map fun row => (row.held d).consumed).sum ∧
        (current.pooled d).reserved =
          (ledger.reservations.map fun row => (row.held d).reserved).sum) ∧
      (∀ d, 0 ≤ (current.pooled d).consumed ∧ 0 ≤ (current.pooled d).reserved) ∧
      (∀ row ∈ ledger.reservations, ∀ d, 0 ≤ (row.held d).granted ∧
        0 ≤ (row.held d).reserved ∧ 0 ≤ (row.held d).consumed) ∧
      (current.blockCode = none →
        (∀ d, ∀ limit ∈ current.policy.limit d,
          (current.pooled d).consumed + (current.pooled d).reserved ≤ limit) ∧
        ∀ row ∈ ledger.reservations, row.status = .reserved ∨ row.status = .startIntent →
          ∀ d, (row.held d).consumed + (row.held d).reserved = (row.held d).granted) := by
  obtain ⟨current, sound, frozen⟩ := budget_reachable_sound opened reached
  refine ⟨current, sound.stored, ?_, fun d => ⟨sound.consumed d, sound.reserved d⟩, ?_, ?_, ?_⟩
  · intro later sameId sameLimits
    obtain ⟨runId, checksum, limits⟩ := frozen
    exact readLedger_of_sound sound ⟨sameId ▸ runId, checksum, sameLimits ▸ limits⟩
  · intro d
    rw [sound.consumed, sound.reserved]
    constructor
    · refine List.sum_nonneg fun part mem => ?_
      obtain ⟨row, isRow, rfl⟩ := List.mem_map.mp mem
      exact ((sound.rows row isRow).sound d).consumed_nonneg
    · refine List.sum_nonneg fun part mem => ?_
      obtain ⟨row, isRow, rfl⟩ := List.mem_map.mp mem
      exact ((sound.rows row isRow).sound d).reserved_nonneg
  · intro row mem d
    obtain ⟨reserved, within, consumed⟩ := (sound.rows row mem).sound d
    exact ⟨reserved.trans within, reserved, consumed⟩
  · intro unblocked
    refine ⟨sound.limits unblocked, fun row mem status d => ?_⟩
    have open' : ¬ row.status.closed := by
      rcases status with reserved | started
      · rw [reserved]
        rintro (h | h) <;> cases h
      · rw [started]
        rintro (h | h) <;> cases h
    exact tight_committed ((sound.rows row mem).tight open' d) (sound.grants unblocked row mem d)

end Store

/-! ## A started execution

A Run with one primary execution, reserved, bound and started, whose reconciliation lease is
held; the concrete instances of the results below and in later modules are about it. -/

def sampleDigests : Digests where
  leaseTokenHash token := "sha256:" ++ token
  budgetChecksum
    | .receipt _ (.usage report) =>
      if report.final then
        "1111111111111111111111111111111111111111111111111111111111111111"
      else "2222222222222222222222222222222222222222222222222222222222222222"
    | _ => "0000000000000000000000000000000000000000000000000000000000000000"

theorem sampleSource_key : isBudgetKey "claude" = true := by decide

theorem sampleVersion_key : isBudgetKey "v1" = true := by decide

def samplePolicy : BudgetPolicy where
  maxTurns := 10
  maxCostNanos := some 1000
  source := "claude"
  meteringVersion := "v1"
  mode := .cumulative
  maxTurns_units := by decide
  maxCostNanos_units := by decide
  source_key := sampleSource_key
  meteringVersion_key := sampleVersion_key

def sampleRun : Run where
  id := 1
  projectId := 2
  status := .queued
  rowVersion := 1
  startedAt := none
  finishedAt := none
  error := none
  actorId := some 5
  limits := ⟨10, some 1000⟩
  creationIntent := none

def sampleAccount : RunBudgetAccount where
  runId := 1
  policy := samplePolicy
  policyChecksum := sampleDigests.budgetChecksum (.policy samplePolicy)
  limitsChecksum := sampleDigests.budgetChecksum (.limits sampleRun.limits)
  turns := Pool.empty
  cost := some Pool.empty
  blockCode := none
  rowVersion := 1

/-- The rows of the Run while its first attempt is executing. -/
def sampleTables : RunTables :=
  { RunTables.empty with
    run := some { sampleRun with status := .running, rowVersion := 3, startedAt := some 10 }
    segments := [⟨3, 1, 1, .initial, none, .running, .initial, none, some 10, none⟩]
    attempts := [⟨4, none, 1, some 3, 1, .running, some "worker", some "sha256:token", some 1000,
      none, none⟩] }

def sampleClaimed : ClaimedRun :=
  ⟨1, 4, 2, 5, 1, "token", 1000, 3, some 3, 1, .initial, none, none, none⟩

def sampleInvocation : AgentInvocation where
  invocationId := 20
  projectId := 2
  runId := 1
  runAttemptId := 4
  userId := 5
  sessionId := "session"
  mode := .initial
  parentSessionId := none
  promptChecksum := "prompt"
  options := ⟨none, some 10, .missing, none, none, false, false, "format", none⟩
  sdkVersion := "1"
  cliVersion := "1"

def sampleOwner : String := "ownerownerownerownerownerownerownerownerown"

def sampleCall (freshIds : List Uuid) (operation : BudgetOperation) : BudgetCall :=
  ⟨sampleTables, 20, freshIds, operation⟩

def sampleStart : BudgetCall :=
  sampleCall [] (.startExecution sampleClaimed "primary:4" 20
    (sampleDigests.budgetChecksum (.invocation sampleInvocation)) sampleOwner)

/-- Reserve, bind, start, and lease the reservation for reconciliation. -/
def sampleCalls : List BudgetCall :=
  [sampleCall [7] (.reservePrimary sampleClaimed samplePolicy false),
    sampleCall [] (.bindInvocation sampleClaimed "primary:4" sampleInvocation sampleOwner false),
    sampleStart,
    sampleCall [] (.claimReconciliation 2 1 "primary:4" "reconciler" "lease" 100)]

def sampleLedger : Ledger :=
  (budgetStore sampleDigests).run (Ledger.opened sampleAccount) sampleCalls

/-- The started execution holds the whole budget, and the account holds it too. -/
theorem budget_conserved_sample :
    ∃ current, sampleLedger.account = some current ∧
      (current.pooled .turns).reserved =
        (sampleLedger.reservations.map fun row => (row.held .turns).reserved).sum := by
  have opened : newBudgetAccount sampleDigests sampleRun samplePolicy = .ok sampleAccount := rfl
  have reached : (budgetStore sampleDigests).Reachable (Ledger.opened sampleAccount)
      sampleLedger := ⟨sampleCalls, rfl⟩
  obtain ⟨current, stored, -, sums, -⟩ := budget_conserved opened reached
  exact ⟨current, stored, (sums .turns).2⟩

example : sampleLedger.reservations.map (fun row => (row.status, row.turns.reserved)) =
    [(.startIntent, 10)] := by decide

end SkillMind.Runs
