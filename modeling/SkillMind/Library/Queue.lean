import Mathlib.Data.List.Count
import Mathlib.Data.List.Perm.Basic

/-!
# Taking an element out of a list

A queue is a list whose first element with some property is taken out. Nothing else is lost: the
list has the elements of the rest and the one that was taken, so that what is counted in it splits
the same way.
-/

namespace SkillMind.Library

universe u

variable {α : Type u} {p q : α → Bool}

/-- The first element that satisfies the test, and the list without it. -/
def takeFirst (p : α → Bool) : List α → Option (α × List α)
  | [] => none
  | a :: rest =>
    if p a then some (a, rest)
    else (takeFirst p rest).map fun (taken, others) => (taken, a :: others)

theorem takeFirst_perm {list rest : List α} {a : α} (taken : takeFirst p list = some (a, rest)) :
    p a = true ∧ list.Perm (a :: rest) := by
  induction list generalizing rest with
  | nil => cases taken
  | cons b others ih =>
    rw [takeFirst] at taken
    split at taken
    · rename_i meets
      obtain ⟨rfl, rfl⟩ := Prod.mk.inj (Option.some.inj taken)
      exact ⟨meets, .refl _⟩
    · obtain ⟨⟨own, left⟩, found, same⟩ := Option.map_eq_some_iff.mp taken
      obtain ⟨rfl, rfl⟩ := Prod.mk.inj same
      obtain ⟨meets, perm⟩ := ih found
      exact ⟨meets, (perm.cons b).trans (.swap own b left)⟩

theorem countP_takeFirst {list rest : List α} {a : α}
    (taken : takeFirst p list = some (a, rest)) :
    list.countP q = rest.countP q + if q a then 1 else 0 := by
  rw [(takeFirst_perm taken).2.countP_eq, List.countP_cons]

theorem mem_takeFirst {list rest : List α} {a : α} (taken : takeFirst p list = some (a, rest)) :
    a ∈ list ∧ ∀ b ∈ rest, b ∈ list := by
  have perm := (takeFirst_perm taken).2
  exact ⟨perm.mem_iff.mpr List.mem_cons_self,
    fun b mem => perm.mem_iff.mpr (List.mem_cons_of_mem a mem)⟩

theorem eraseIdx_perm {list : List α} {index : Nat} {a : α} (found : list[index]? = some a) :
    list.Perm (a :: list.eraseIdx index) := by
  obtain ⟨bound, rfl⟩ := List.getElem?_eq_some_iff.mp found
  exact (List.getElem_cons_eraseIdx_perm bound).symm

end SkillMind.Library
