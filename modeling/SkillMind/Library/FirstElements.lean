import Mathlib.Order.Bounds.Basic
import Mathlib.Order.Interval.Set.Defs

/-!
# The first elements of a set

A search that walks an increasing list and stops at the first hit finds the least one; a search
that starts again behind each hit lists the first elements of a set in their order.
-/

namespace SkillMind.Library

universe u v

variable {α : Type u} [LinearOrder α] {β : Type v}

theorem findSome?_eq_some_iff_least {xs : List α} (sorted : xs.Pairwise (· < ·))
    {hit : α → Option β} {value : β} :
    xs.findSome? hit = some value ↔
      ∃ x, hit x = some value ∧ IsLeast {y | y ∈ xs ∧ (hit y).isSome = true} x := by
  rw [List.findSome?_eq_some_iff]
  constructor
  · rintro ⟨before, x, behind, rfl, found, missed⟩
    refine ⟨x, found, ⟨by simp, by rw [found]; rfl⟩, ?_⟩
    rintro y ⟨mem, some⟩
    rcases List.mem_append.mp mem with front | back
    · rw [missed y front] at some
      cases some
    · rcases List.mem_cons.mp back with rfl | later
      · exact le_refl y
      · rw [List.pairwise_append] at sorted
        exact le_of_lt ((List.pairwise_cons.mp sorted.2.1).1 y later)
  · rintro ⟨x, found, ⟨mem, -⟩, least⟩
    obtain ⟨before, behind, rfl⟩ := List.append_of_mem mem
    refine ⟨before, x, behind, rfl, found, fun y front => ?_⟩
    by_contra hits
    rw [List.pairwise_append] at sorted
    have below : y < x := sorted.2.2 y front x List.mem_cons_self
    have above : x ≤ y := least ⟨List.mem_append_left _ front, Option.isSome_iff_ne_none.mpr hits⟩
    exact absurd below (not_lt_of_ge above)

/-- The list has the first elements of the set in their order: so many, or all when there are
fewer. -/
structure FirstOf (count : Nat) (elements : Set α) (xs : List α) : Prop where
  sorted : xs.Pairwise (· < ·)
  within : ∀ x ∈ xs, x ∈ elements
  bounded : xs.length ≤ count
  rest : ∀ x ∈ elements, x ∉ xs → xs.length = count ∧ ∀ y ∈ xs, y < x

namespace FirstOf

variable {count : Nat} {elements : Set α} {x : α} {xs : List α}

theorem zero : FirstOf 0 elements [] where
  sorted := List.Pairwise.nil
  within := fun _ mem => by cases mem
  bounded := le_refl 0
  rest := fun _ _ _ => ⟨rfl, fun _ mem => by cases mem⟩

theorem nil_iff : FirstOf (count + 1) elements [] ↔ elements = ∅ := by
  constructor
  · intro first
    refine Set.eq_empty_iff_forall_notMem.mpr fun x mem => ?_
    cases (first.rest x mem List.not_mem_nil).1
  · rintro rfl
    constructor
    · exact List.Pairwise.nil
    · intro x mem
      cases mem
    · exact Nat.zero_le _
    · intro x mem
      cases mem

theorem cons_iff : FirstOf (count + 1) elements (x :: xs) ↔
    IsLeast elements x ∧ FirstOf count {y | y ∈ elements ∧ x < y} xs := by
  constructor
  · intro first
    obtain ⟨above, sorted⟩ := List.pairwise_cons.mp first.sorted
    refine ⟨⟨first.within x List.mem_cons_self, fun y mem => ?_⟩, sorted, fun y mem => ?_, ?_, ?_⟩
    · by_cases inside : y ∈ x :: xs
      · rcases List.mem_cons.mp inside with rfl | later
        · exact le_refl y
        · exact le_of_lt (above y later)
      · exact le_of_lt ((first.rest y mem inside).2 x List.mem_cons_self)
    · exact ⟨first.within y (List.mem_cons_of_mem x mem), above y mem⟩
    · exact Nat.le_of_succ_le_succ first.bounded
    · rintro y ⟨mem, later⟩ outside
      have absent : y ∉ x :: xs := by
        rw [List.mem_cons, not_or]
        exact ⟨later.ne', outside⟩
      obtain ⟨full, behind⟩ := first.rest y mem absent
      exact ⟨Nat.succ.inj full, fun z inside => behind z (List.mem_cons_of_mem x inside)⟩
  · rintro ⟨⟨mem, least⟩, first⟩
    refine ⟨List.pairwise_cons.mpr ⟨fun y inside => (first.within y inside).2, first.sorted⟩,
      fun y inside => ?_, Nat.succ_le_succ first.bounded, fun y inside outside => ?_⟩
    · rcases List.mem_cons.mp inside with rfl | later
      · exact mem
      · exact (first.within y later).1
    · rw [List.mem_cons, not_or] at outside
      have later : x < y := lt_of_le_of_ne (least inside) (Ne.symm outside.1)
      obtain ⟨full, behind⟩ := first.rest y ⟨inside, later⟩ outside.2
      refine ⟨congrArg Nat.succ full, fun z within => ?_⟩
      rcases List.mem_cons.mp within with rfl | inside'
      · exact later
      · exact behind z inside'

end FirstOf

end SkillMind.Library
