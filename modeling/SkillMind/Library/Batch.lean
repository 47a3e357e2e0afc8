import SkillMind.Library.Transaction

/-!
# Transactions made of several calls

A transaction often makes several calls to a repository; they are committed together or not at
all. A run of such transactions is a run of the calls of its committed ones, one call after the
other, so what holds along every run of single calls holds along every run of transactions.
-/

namespace SkillMind.Library

namespace TransactionSystem

universe u v w x

variable {σ : Type u} {α : Type v} {ρ : Type w} {ε : Type x} (M : TransactionSystem σ α ρ ε)

/-- The calls of one transaction; the first fault ends it. -/
def batchExec : List α → σ → Except ε (List ρ × σ)
  | [], s => .ok ([], s)
  | a :: rest, s =>
    match M.exec a s with
    | .error e => .error e
    | .ok (r, next) =>
      match batchExec rest next with
      | .error e => .error e
      | .ok (rs, last) => .ok (r :: rs, last)

/-- The store whose transactions are lists of calls. -/
def batch : TransactionSystem σ (List α) (List ρ) ε :=
  ⟨M.batchExec⟩

/-- The calls of committed transactions, each with its answer. -/
def calls (log : List (List α × List ρ)) : List (α × ρ) :=
  log.flatMap fun entry => entry.1.zip entry.2

theorem answers_append (s : σ) (first second : List α) :
    M.answers s (first ++ second) = M.answers s first ++ M.answers (M.run s first) second := by
  induction first generalizing s with
  | nil => rfl
  | cons a rest ih =>
    cases outcome : M.exec a s with
    | error e =>
      rw [List.cons_append, M.answers_cons_fault _ outcome, M.answers_cons_fault _ outcome,
        run_cons, M.step_of_fault outcome]
      exact ih s
    | ok result =>
      obtain ⟨r, next⟩ := result
      rw [List.cons_append, M.answers_cons_commit _ outcome, M.answers_cons_commit _ outcome,
        run_cons, M.step_of_commit outcome, List.cons_append, ih next]

theorem batchExec_serial {s s' : σ} {transaction : List α} {rs : List ρ}
    (committed : M.batchExec transaction s = .ok (rs, s')) :
    M.run s transaction = s' ∧ M.answers s transaction = transaction.zip rs := by
  induction transaction generalizing s rs with
  | nil =>
    obtain ⟨rfl, rfl⟩ := Prod.mk.inj (Except.ok.inj committed)
    exact ⟨rfl, rfl⟩
  | cons a rest ih =>
    rw [batchExec] at committed
    split at committed
    · cases committed
    · rename_i r next first
      split at committed
      · cases committed
      · rename_i more last others
        obtain ⟨rfl, rfl⟩ := Prod.mk.inj (Except.ok.inj committed)
        obtain ⟨ran, answered⟩ := ih others
        rw [run_cons, M.step_of_commit first, M.answers_cons_commit _ first, answered]
        exact ⟨ran, rfl⟩

theorem batch_serial (s : σ) (transactions : List (List α)) :
    ∃ made, M.run s made = M.batch.run s transactions ∧
      M.answers s made = calls (M.batch.answers s transactions) := by
  induction transactions generalizing s with
  | nil => exact ⟨[], rfl, rfl⟩
  | cons transaction rest ih =>
    cases outcome : M.batch.exec transaction s with
    | error e =>
      rw [run_cons, step_of_fault _ outcome, answers_cons_fault _ _ outcome]
      exact ih s
    | ok result =>
      obtain ⟨rs, next⟩ := result
      obtain ⟨made, ran, answered⟩ := ih next
      obtain ⟨first, second⟩ := M.batchExec_serial outcome
      refine ⟨transaction ++ made, ?_, ?_⟩
      · rw [run_append, first, run_cons, step_of_commit _ outcome, ran]
      · rw [answers_append, first, second, answers_cons_commit _ _ outcome, answered]
        rfl

theorem batch_step_serial (s : σ) (transaction : List α) :
    ∃ made, M.run s made = M.batch.step s transaction := by
  obtain ⟨made, ran, -⟩ := M.batch_serial s [transaction]
  exact ⟨made, ran⟩

end TransactionSystem

end SkillMind.Library
