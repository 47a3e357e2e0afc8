import Mathlib.Data.List.Basic
import SkillMind.Library.Fallible

/-!
# Stores served by whole transactions

A transaction either commits, with an answer and a new state, or raises a fault and leaves the
state as it was. A run is a list of transactions, by any number of callers in any order. What one
commit preserves holds along every run; a property that only survives the commits meeting a
condition holds along the runs whose steps all meet it.

One fact about the answers of a run is packaged as well: an answer that needs an unspent state and
leaves it spent for good is given at most once.
-/

namespace SkillMind.Library

universe u v w x

section Answering

variable {α ρ σ ε : Type}

/-- The answer of an operation under its constructor. -/
def answering (answer : α → ρ) (outcome : Except ε (α × σ)) : Except ε (ρ × σ) := do
  let (result, state) ← outcome
  return (answer result, state)

theorem answering_eq_ok {answer : α → ρ} {outcome : Except ε (α × σ)} {given : ρ} {state : σ} :
    answering answer outcome = .ok (given, state) ↔
      ∃ result, outcome = .ok (result, state) ∧ given = answer result := by
  simp only [answering, bind_eq_ok, Prod.exists, pure_eq_ok, Prod.mk.injEq]
  constructor
  · rintro ⟨result, _, committed, rfl, rfl⟩
    exact ⟨result, committed, rfl⟩
  · rintro ⟨result, committed, rfl⟩
    exact ⟨result, state, committed, rfl, rfl⟩

end Answering

/-- A store whose callers act by whole transactions. -/
structure TransactionSystem (σ : Type u) (α : Type v) (ρ : Type w) (ε : Type x) where
  exec : α → σ → Except ε (ρ × σ)

namespace TransactionSystem

variable {σ : Type u} {α : Type v} {ρ : Type w} {ε : Type x} (M : TransactionSystem σ α ρ ε)

/-! ## Steps and runs -/

/-- One transaction with rollback: a fault leaves the state unchanged. -/
def step (s : σ) (a : α) : σ :=
  match M.exec a s with
  | .ok (_, s') => s'
  | .error _ => s

/-- The state after a list of transactions. -/
def run (s : σ) (actions : List α) : σ :=
  actions.foldl M.step s

/-- The committed transactions of a run with their answers, in order. -/
def answers (s : σ) : List α → List (α × ρ)
  | [] => []
  | a :: rest =>
    match M.exec a s with
    | .ok (r, s') => (a, r) :: answers s' rest
    | .error _ => answers s rest

/-- The states some run reaches. -/
def Reachable (start s : σ) : Prop :=
  ∃ actions, M.run start actions = s

/-- Every step of the run, taken at its own state, meets the condition. -/
def Along (cond : σ → α → Prop) : σ → List α → Prop
  | _, [] => True
  | s, a :: rest => cond s a ∧ Along cond (M.step s a) rest

variable {s : σ}

theorem step_of_commit {s' : σ} {a : α} {r : ρ} (commit : M.exec a s = .ok (r, s')) :
    M.step s a = s' := by
  simp only [step, commit]

theorem step_of_fault {a : α} {e : ε} (fault : M.exec a s = .error e) :
    M.step s a = s := by
  simp only [step, fault]

@[simp] theorem run_nil (s : σ) : M.run s [] = s := rfl

@[simp] theorem run_cons (s : σ) (a : α) (rest : List α) :
    M.run s (a :: rest) = M.run (M.step s a) rest := rfl

theorem run_append (s : σ) (first second : List α) :
    M.run s (first ++ second) = M.run (M.run s first) second := by
  simp [run, List.foldl_append]

theorem answers_cons_commit {s' : σ} {a : α} {r : ρ} (rest : List α)
    (commit : M.exec a s = .ok (r, s')) :
    M.answers s (a :: rest) = (a, r) :: M.answers s' rest := by
  simp only [answers, commit]

theorem answers_cons_fault {a : α} {e : ε} (rest : List α)
    (fault : M.exec a s = .error e) : M.answers s (a :: rest) = M.answers s rest := by
  simp only [answers, fault]

theorem mem_answers {s' : σ} {first rest : List α} {a : α} {r : ρ}
    (commit : M.exec a (M.run s first) = .ok (r, s')) :
    (a, r) ∈ M.answers s (first ++ a :: rest) := by
  induction first generalizing s with
  | nil =>
    rw [run_nil] at commit
    rw [List.nil_append, M.answers_cons_commit rest commit]
    exact List.mem_cons_self
  | cons b more ih =>
    rw [run_cons] at commit
    cases outcome : M.exec b s with
    | error e =>
      rw [M.step_of_fault outcome] at commit
      rw [List.cons_append, M.answers_cons_fault _ outcome]
      exact ih commit
    | ok result =>
      obtain ⟨answer, next⟩ := result
      rw [M.step_of_commit outcome] at commit
      rw [List.cons_append, M.answers_cons_commit _ outcome]
      exact List.mem_cons_of_mem _ (ih commit)

theorem Reachable.refl (start : σ) : M.Reachable start start := ⟨[], rfl⟩

theorem Reachable.step {start : σ} (reached : M.Reachable start s) (a : α) :
    M.Reachable start (M.step s a) := by
  obtain ⟨actions, rfl⟩ := reached
  exact ⟨actions ++ [a], by rw [run_append]; rfl⟩

theorem Reachable.commit {start s s' : σ} {a : α} {r : ρ} (reached : M.Reachable start s)
    (commit : M.exec a s = .ok (r, s')) : M.Reachable start s' := by
  have next := reached.step M a
  rwa [M.step_of_commit commit] at next

theorem Reachable.run {start : σ} (reached : M.Reachable start s) (actions : List α) :
    M.Reachable start (M.run s actions) := by
  obtain ⟨before, rfl⟩ := reached
  exact ⟨before ++ actions, M.run_append start before actions⟩

/-- Every commit from a state with the property ends in one. -/
def Invariant (P : σ → Prop) : Prop :=
  ∀ s a r s', P s → M.exec a s = .ok (r, s') → P s'

variable {M : TransactionSystem σ α ρ ε}

theorem Invariant.step {P : σ → Prop} (inv : M.Invariant P)
    (holds : P s) (a : α) : P (M.step s a) := by
  cases outcome : M.exec a s with
  | error e => rwa [M.step_of_fault outcome]
  | ok result =>
    obtain ⟨r, s'⟩ := result
    rw [M.step_of_commit outcome]
    exact inv s a r s' holds outcome

theorem Invariant.run {P : σ → Prop} (inv : M.Invariant P)
    (holds : P s) (actions : List α) : P (M.run s actions) := by
  induction actions generalizing s with
  | nil => exact holds
  | cons a rest ih => exact ih (inv.step holds a)

theorem Invariant.reachable {P : σ → Prop} (inv : M.Invariant P)
    {start : σ} (holds : P start) (reached : M.Reachable start s) : P s := by
  obtain ⟨actions, rfl⟩ := reached
  exact inv.run holds actions

theorem run_of_along {P : σ → Prop} {cond : σ → α → Prop}
    (keeps : ∀ s a r s', P s → cond s a → M.exec a s = .ok (r, s') → P s')
    (holds : P s) {actions : List α} (along : M.Along cond s actions) :
    P (M.run s actions) := by
  induction actions generalizing s with
  | nil => exact holds
  | cons a rest ih =>
    obtain ⟨here, later⟩ := along
    refine ih ?_ later
    cases outcome : M.exec a s with
    | error e => rwa [M.step_of_fault outcome]
    | ok result =>
      obtain ⟨r, s'⟩ := result
      rw [M.step_of_commit outcome]
      exact keeps s a r s' holds here outcome

theorem along_append {cond : σ → α → Prop} {first second : List α} :
    M.Along cond s (first ++ second) ↔
      M.Along cond s first ∧ M.Along cond (M.run s first) second := by
  induction first generalizing s with
  | nil => simp [Along]
  | cons a rest ih => simp only [List.cons_append, Along, ih, run_cons, and_assoc]

theorem history {P : List (α × ρ) → σ → Prop}
    (keeps : ∀ log s a r s', P log s → M.exec a s = .ok (r, s') → P (log ++ [(a, r)]) s')
    (holds : P [] s) (actions : List α) : P (M.answers s actions) (M.run s actions) := by
  suffices continued : ∀ log, P log s → P (log ++ M.answers s actions) (M.run s actions) from
    continued [] holds
  clear holds
  intro log holds
  induction actions generalizing log s with
  | nil =>
    rw [answers, List.append_nil]
    exact holds
  | cons a rest ih =>
    rw [run_cons]
    cases outcome : M.exec a s with
    | error e =>
      rw [M.step_of_fault outcome, M.answers_cons_fault rest outcome]
      exact ih log holds
    | ok result =>
      obtain ⟨r, s'⟩ := result
      rw [M.step_of_commit outcome, M.answers_cons_commit rest outcome, ← List.singleton_append,
        ← List.append_assoc]
      exact ih _ (keeps log s a r s' holds outcome)

theorem answered_at_most_once {P spent : σ → Prop}
    {marked : α × ρ → Bool} (inv : M.Invariant P)
    (stays : ∀ s a r s', P s → M.exec a s = .ok (r, s') → spent s → spent s')
    (spends : ∀ s a r s', P s → M.exec a s = .ok (r, s') → marked (a, r) = true →
      ¬ spent s ∧ spent s')
    (holds : P s) (actions : List α) :
    (M.answers s actions).countP marked ≤ 1 ∧
      (spent s → (M.answers s actions).countP marked = 0) := by
  induction actions generalizing s with
  | nil => simp [answers]
  | cons a rest ih =>
    cases outcome : M.exec a s with
    | error e =>
      rw [M.answers_cons_fault rest outcome]
      exact ih holds
    | ok result =>
      obtain ⟨r, s'⟩ := result
      rw [M.answers_cons_commit rest outcome, List.countP_cons]
      obtain ⟨atMost, none⟩ := ih (inv s a r s' holds outcome)
      by_cases mark : marked (a, r) = true
      · obtain ⟨unspent, now⟩ := spends s a r s' holds outcome mark
        simp [mark, none now, unspent]
      · simp only [mark, Bool.false_eq_true, if_false, Nat.add_zero]
        exact ⟨atMost, fun isSpent => none (stays s a r s' holds outcome isSpent)⟩

theorem answered_once {P spent : σ → Prop}
    {marked : α × ρ → Bool} (inv : M.Invariant P)
    (stays : ∀ s a r s', P s → M.exec a s = .ok (r, s') → spent s → spent s')
    (spends : ∀ s a r s', P s → M.exec a s = .ok (r, s') → marked (a, r) = true →
      ¬ spent s ∧ spent s')
    (holds : P s) (actions : List α) : (M.answers s actions).countP marked ≤ 1 :=
  (answered_at_most_once inv stays spends holds actions).1

end TransactionSystem

end SkillMind.Library
