import Mathlib.Data.List.Forall2
import Mathlib.Data.List.Nodup

/-!
# Lists of pairs, read by their first component

A list of pairs with distinct keys is a finite map.  `List.lookup` finds a value for a key that
the list has, and the only one when the keys are distinct.  A list is paired with another one of
the same length by a relation that every element has a partner for.
-/

namespace SkillMind.Library

section Association

variable {κ α : Type*} [BEq κ] [LawfulBEq κ] {pairs : List (κ × α)} {key : κ} {value : α}

theorem mem_of_lookup (found : pairs.lookup key = some value) : (key, value) ∈ pairs := by
  obtain ⟨front, back, rfl, -⟩ := List.lookup_eq_some_iff.mp found
  exact List.mem_append_right _ List.mem_cons_self

theorem lookup_isSome_iff_mem : (pairs.lookup key).isSome = true ↔ key ∈ pairs.map Prod.fst := by
  rw [List.lookup_isSome_iff, List.mem_map]
  constructor
  · rintro ⟨pair, mem, same⟩
    exact ⟨pair, mem, (eq_of_beq same).symm⟩
  · rintro ⟨pair, mem, rfl⟩
    exact ⟨pair, mem, beq_self_eq_true _⟩

theorem lookup_of_mem (mem : key ∈ pairs.map Prod.fst) :
    ∃ value, pairs.lookup key = some value ∧ (key, value) ∈ pairs := by
  obtain ⟨value, found⟩ := Option.isSome_iff_exists.mp (lookup_isSome_iff_mem.mpr mem)
  exact ⟨value, found, mem_of_lookup found⟩

theorem lookup_of_distinct {pair : κ × α} (distinct : (pairs.map Prod.fst).Nodup)
    (mem : pair ∈ pairs) : pairs.lookup pair.1 = some pair.2 := by
  obtain ⟨value, found, inside⟩ := lookup_of_mem (List.mem_map_of_mem mem)
  have same : (pair.1, value) = pair := List.inj_on_of_nodup_map distinct inside mem rfl
  rw [found, ← same]

end Association

section Pairing

variable {α β : Type*} {r : α → β → Prop} {rows : List α} {partners : List β}

theorem forall₂_mem_right (each : List.Forall₂ r rows partners) :
    ∀ partner ∈ partners, ∃ row ∈ rows, r row partner := by
  induction each with
  | nil => exact fun _ mem => absurd mem List.not_mem_nil
  | cons holds _ ih =>
    intro partner mem
    rcases List.mem_cons.mp mem with rfl | later
    · exact ⟨_, List.mem_cons_self, holds⟩
    · obtain ⟨row, inside, holds⟩ := ih partner later
      exact ⟨row, List.mem_cons_of_mem _ inside, holds⟩

end Pairing

end SkillMind.Library
