import SkillMind.Library.Fallible
import Mathlib.Algebra.BigOperators.Group.List.Basic
import Mathlib.Algebra.Ring.Nat
import Mathlib.Logic.Relation

/-!
# Walks of a tree by a stack

A stack holds the parts that are still to be looked at. The part on top is checked and its own
parts take its place, the last one on top. Since what is below a part weighs less than the part,
the walk ends, and it passes exactly when every part at or below the stack passes.
-/

namespace SkillMind.Library

universe u v

/-- What is directly below a part, and a weight that bounds it. -/
structure Descent (α : Type u) where
  below : α → List α
  weight : α → Nat
  decreases : ∀ part, ((below part).map weight).sum < weight part

namespace Descent

variable {α : Type u} {ε : Type v} (descent : Descent α) (check : α → Except ε Unit)

/-- One part is directly below another one. -/
def Below (part other : α) : Prop := other ∈ descent.below part

/-- One part is at or below another one. -/
def Within : α → α → Prop := Relation.ReflTransGen descent.Below

/-- The stack behind a part that was taken off. -/
def extended (part : α) (stack : List α) : List α := (descent.below part).reverse ++ stack

variable {descent} in
theorem mem_extended {part other : α} {stack : List α} :
    other ∈ descent.extended part stack ↔ other ∈ descent.below part ∨ other ∈ stack := by
  rw [extended, List.mem_append, List.mem_reverse]

theorem weight_extended (part : α) (stack : List α) :
    ((descent.extended part stack).map descent.weight).sum <
      ((part :: stack).map descent.weight).sum := by
  have less := descent.decreases part
  rw [extended, List.map_append, List.sum_append, List.map_reverse, List.sum_reverse,
    List.map_cons, List.sum_cons]
  exact Nat.add_lt_add_right less _

/-- The walk of a stack. -/
def visit : List α → Except ε Unit
  | [] => .ok ()
  | part :: stack => do
    check part
    visit (descent.extended part stack)
termination_by stack => (stack.map descent.weight).sum
decreasing_by exact descent.weight_extended part stack

variable {descent check}

theorem visit_nil : descent.visit check [] = .ok () := by
  rw [visit]

theorem visit_cons (part : α) (stack : List α) :
    descent.visit check (part :: stack) =
      check part >>= fun _ => descent.visit check (descent.extended part stack) := by
  rw [visit]

theorem Within.self (part : α) : descent.Within part part := .refl

theorem within_iff {part other : α} :
    descent.Within part other ↔
      other = part ∨ ∃ next ∈ descent.below part, descent.Within next other :=
  Relation.ReflTransGen.cases_head_iff.trans (or_congr_left eq_comm)

theorem visit_eq_ok (stack : List α) :
    descent.visit check stack = .ok () ↔
      ∀ part ∈ stack, ∀ other, descent.Within part other → check other = .ok () := by
  induction stack using visit.induct descent with
  | case1 => simp [visit_nil]
  | case2 part stack ih =>
    rw [visit_cons, bind_eq_ok, exists_unit, ih]
    constructor
    · rintro ⟨first, rest⟩ above mem other within
      rcases List.mem_cons.mp mem with rfl | later
      · rcases within_iff.mp within with rfl | ⟨next, inside, within⟩
        · exact first
        · exact rest next (mem_extended.mpr (.inl inside)) other within
      · exact rest above (mem_extended.mpr (.inr later)) other within
    · intro passes
      refine ⟨passes part List.mem_cons_self part (.self part), ?_⟩
      intro above mem other within
      rcases mem_extended.mp mem with inside | later
      · exact passes part List.mem_cons_self other
          (within_iff.mpr (.inr ⟨above, inside, within⟩))
      · exact passes above (List.mem_cons_of_mem _ later) other within

theorem visit_eq_error {fault : ε} (stack : List α)
    (raised : descent.visit check stack = .error fault) : ∃ part, check part = .error fault := by
  induction stack using visit.induct descent with
  | case1 =>
    rw [visit_nil] at raised
    cases raised
  | case2 part stack ih =>
    rw [visit_cons, bind_eq_error] at raised
    rcases raised with first | ⟨-, -, rest⟩
    · exact ⟨part, first⟩
    · exact ih rest

end Descent

end SkillMind.Library
