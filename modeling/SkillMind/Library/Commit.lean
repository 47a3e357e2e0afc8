import SkillMind.Library.Fallible

/-!
# Commits whose answer may be lost

A transaction that reached its end is committed, and then its caller may learn it or not; or the
commit fails, and nothing is written. A caller without an answer cannot tell the last two cases
apart.
-/

namespace SkillMind.Library

universe u

/-- What becomes of a commit: its rows are written and the caller learns it, they are written and
the answer is lost, or neither. -/
inductive CommitFate where
  | acknowledged
  | lost
  | rolledBack

variable {ε α σ : Type u}

/-- The answer the caller gets, if any, and the state that is left. -/
def CommitFate.settle (fate : CommitFate) (before : σ) (outcome : Except ε (α × σ)) :
    Except ε (Option α × σ) :=
  outcome.map fun (value, after) =>
    match fate with
    | .acknowledged => (some value, after)
    | .lost => (none, after)
    | .rolledBack => (none, before)

theorem CommitFate.settle_some {fate : CommitFate} {before after : σ} {value : α}
    {outcome : Except ε (α × σ)} (settled : fate.settle before outcome = .ok (some value, after)) :
    outcome = .ok (value, after) := by
  obtain ⟨⟨own, written⟩, committed, ended⟩ := map_eq_ok.mp settled
  cases fate with
  | acknowledged =>
    obtain ⟨same, rfl⟩ := Prod.mk.inj ended
    rw [← Option.some.inj same]
    exact committed
  | lost => cases ended
  | rolledBack => cases ended

theorem CommitFate.settle_cases {fate : CommitFate} {before after : σ} {value : Option α}
    {outcome : Except ε (α × σ)} (settled : fate.settle before outcome = .ok (value, after)) :
    (∃ own, outcome = .ok (own, after)) ∨ (value = none ∧ after = before) := by
  obtain ⟨⟨own, written⟩, committed, ended⟩ := map_eq_ok.mp settled
  cases fate <;> obtain ⟨rfl, rfl⟩ := Prod.mk.inj ended
  · exact .inl ⟨own, committed⟩
  · exact .inl ⟨own, committed⟩
  · exact .inr ⟨rfl, rfl⟩

end SkillMind.Library
