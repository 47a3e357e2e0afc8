import SkillMind.Runs.BudgetConservation

/-!
# Starting an execution once

The permission to call a provider is the answer `true` of `start_execution`. A reservation is
spent when its start intent is recorded or it is closed. Giving the permission needs an unspent
reservation and leaves it spent for good, so it is given at most once for each execution, and
never for a reservation that was released or settled.
-/

namespace SkillMind.Runs

open Library

section Store

variable {digests : Digests}

def permitsStart (executionKey : String) (answered : BudgetCall × BudgetAnswer) : Bool :=
  match answered.1.operation, answered.2 with
  | .startExecution _ key _ _ _, .started true => key = executionKey
  | _, _ => false

/-- The reservation with the key was started or closed. -/
def Spent (executionKey : String) (ledger : Ledger) : Prop :=
  ∃ row ∈ ledger.reservations, row.executionKey = executionKey ∧
    (row.startIntentAt ≠ none ∨ row.status.closed)

theorem Move.spent {ledger ledger' : Ledger} {account : RunBudgetAccount}
    (sound : LedgerSound ledger account) (move : Move ledger account ledger')
    {executionKey : String} (spent : Spent executionKey ledger) : Spent executionKey ledger' := by
  obtain ⟨row, mem, key, used⟩ := spent
  cases move with
  | kept _ rows => exact ⟨row, rows ▸ mem, key, used⟩
  | added group account' _ _ rows =>
    exact ⟨row, rows ▸ List.mem_append_left group mem, key, used⟩
  | changed old account' row' oldMem change _ rows =>
    rw [Spent, rows]
    by_cases same : row.id = row'.id
    · obtain rfl := sound.ids.eq_of_key mem oldMem (same.trans change.id)
      refine ⟨row', mem_replaceRow_self mem same, change.executionKey.trans key, ?_⟩
      exact used.imp change.started_stays change.closed_stays
    · exact ⟨row, mem_replaceRow_of_ne mem same, key, used⟩

theorem permitsStart_eq_true {executionKey : String} {call : BudgetCall} {answer : BudgetAnswer}
    (permits : permitsStart executionKey (call, answer) = true) :
    ∃ claimed invocationId checksum token,
      call.operation = .startExecution claimed executionKey invocationId checksum token ∧
        answer = .started true := by
  unfold permitsStart at permits
  split at permits
  · rename_i claimed key invocationId checksum token operation given
    obtain rfl : key = executionKey := by simpa using permits
    exact ⟨claimed, invocationId, checksum, token, operation, given⟩
  · cases permits

theorem permission_spec {executionKey : String} {call : BudgetCall} {answer : BudgetAnswer}
    {ledger ledger' : Ledger} {account : RunBudgetAccount} (sound : LedgerSound ledger account)
    (committed : (budgetStore digests).exec call ledger = .ok (answer, ledger'))
    (permits : permitsStart executionKey (call, answer) = true) :
    ∃ row ∈ ledger.reservations, row.executionKey = executionKey ∧ row.status = .reserved ∧
      (∀ parentId ∈ row.parentReservationId,
        ∃ parent ∈ ledger.reservations, parent.id = parentId ∧ parent.status = .startIntent ∧
          parent.stopConfirmedAt = none ∧ parent.finalUsageAt = none) ∧
      Spent executionKey ledger' := by
  obtain ⟨claimed, invocationId, checksum, token, operation, rfl⟩ := permitsStart_eq_true permits
  simp only [budgetStore, execBudget, operation] at committed
  obtain ⟨permitted, committed, given⟩ := answering_eq_ok.mp committed
  obtain rfl : true = permitted := BudgetAnswer.started.inj given
  obtain ⟨row, mem, key, ⟨refused, -, -⟩ | ⟨-, reserved, -, parents, rfl⟩⟩ :=
    startExecution_spec sound committed
  · cases refused
  · refine ⟨row, mem, key, reserved, ?_, ?_⟩
    · intro parentId has
      obtain ⟨parent, isRow, id, running, notStopped, notReported⟩ := parents parentId has
      exact ⟨parent, isRow, id, running, notStopped, notReported⟩
    · exact ⟨_, mem_replaceRow_self mem rfl, key, Or.inl (by simp)⟩

theorem not_spent_of_reserved {ledger : Ledger} {account : RunBudgetAccount}
    (sound : LedgerSound ledger account) {row : RunBudgetReservation}
    (mem : row ∈ ledger.reservations) (reserved : row.status = .reserved) :
    ¬ Spent row.executionKey ledger := by
  rintro ⟨other, otherMem, key, used⟩
  obtain rfl := sound.keys.eq_of_key otherMem mem key
  rcases used with started | settled | released
  · exact started ((sound.rows other mem).started.mpr (Or.inl reserved))
  · rw [reserved] at settled
    cases settled
  · rw [reserved] at released
    cases released

theorem permitted_at_most_once {run : Run} {ledger : Ledger}
    (invariant : BudgetInvariant digests run ledger) (executionKey : String)
    (calls : List BudgetCall) :
    ((budgetStore digests).answers ledger calls).countP (permitsStart executionKey) ≤ 1 ∧
      (Spent executionKey ledger →
        ((budgetStore digests).answers ledger calls).countP (permitsStart executionKey) = 0) := by
  refine TransactionSystem.answered_at_most_once (budgetInvariant_invariant run) ?_ ?_ invariant
    calls
  · rintro s call answer s' ⟨account, sound, -⟩ committed spent
    exact (execBudget_move sound committed).spent sound spent
  · rintro s call answer s' ⟨account, sound, -⟩ committed permits
    obtain ⟨row, mem, rfl, reserved, -, spent⟩ := permission_spec sound committed permits
    exact ⟨not_spent_of_reserved sound mem reserved, spent⟩

/-- **Exactly-once start and single primary.**  From a freshly opened account, every run of the
store permits the start of an execution at most once; and in every reachable state there is at
most one live primary, a released or settled reservation is never started by anything that
follows, and a child is started only while its parent is running, not stopped and not finally
reported. -/
theorem starts_permitted_once {run : Run} {policy : BudgetPolicy} {account : RunBudgetAccount}
    (opened : newBudgetAccount digests run policy = .ok account) :
    (∀ calls executionKey, ((budgetStore digests).answers (Ledger.opened account) calls).countP
      (permitsStart executionKey) ≤ 1) ∧
    ∀ ledger, (budgetStore digests).Reachable (Ledger.opened account) ledger →
      (∀ row ∈ ledger.reservations, ∀ other ∈ ledger.reservations,
        row.livePrimary → other.livePrimary → row = other) ∧
      (∀ row ∈ ledger.reservations, row.status = .released ∨ row.status = .settled →
        ∀ calls, ((budgetStore digests).answers ledger calls).countP
          (permitsStart row.executionKey) = 0) ∧
      ∀ call answer ledger' executionKey,
        (budgetStore digests).exec call ledger = .ok (answer, ledger') →
        permitsStart executionKey (call, answer) = true →
        ∃ row ∈ ledger.reservations, row.executionKey = executionKey ∧ row.status = .reserved ∧
          ∀ parentId ∈ row.parentReservationId,
            ∃ parent ∈ ledger.reservations, parent.id = parentId ∧
              parent.status = .startIntent ∧ parent.stopConfirmedAt = none ∧
              parent.finalUsageAt = none := by
  refine ⟨fun calls executionKey => ?_, fun ledger reached => ?_⟩
  · have start := budget_reachable_sound opened (TransactionSystem.Reachable.refl _ _)
    exact (permitted_at_most_once start executionKey calls).1
  · obtain ⟨current, sound, frozen⟩ := budget_reachable_sound opened reached
    refine ⟨sound.primary, fun row mem closed calls => ?_, ?_⟩
    · exact (permitted_at_most_once ⟨current, sound, frozen⟩ row.executionKey calls).2
        ⟨row, mem, rfl, Or.inr closed.symm⟩
    · intro call answer ledger' executionKey committed permits
      obtain ⟨row, mem, key, reserved, parents, -⟩ := permission_spec sound committed permits
      exact ⟨row, mem, key, reserved, parents⟩

/-- In the sample run, with the start asked for twice, the permission is given once. -/
theorem starts_permitted_once_sample :
    ((budgetStore sampleDigests).answers (Ledger.opened sampleAccount)
      (sampleCalls ++ [sampleStart])).countP (permitsStart "primary:4") ≤ 1 := by
  have opened : newBudgetAccount sampleDigests sampleRun samplePolicy = .ok sampleAccount := rfl
  exact (starts_permitted_once opened).1 (sampleCalls ++ [sampleStart]) "primary:4"

end Store

end SkillMind.Runs
