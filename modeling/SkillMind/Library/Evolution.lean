import Mathlib.Data.List.Forall2
import SkillMind.Library.Table

/-!
# How the rows of a table evolve

A transaction never deletes a row: it changes some and adds others. `Evolves step fresh` relates
two versions of a table whose old rows have each taken a `step`, and whose other rows are `fresh`.
What every step and every fresh row satisfies is then known of the whole table, and evolutions
compose.

The three ways of writing a table are evolutions: a row is overwritten, a row is added, every row
is rewritten.
-/

namespace SkillMind.Library

universe u v

variable {ρ : Type u} {κ : Type v} {step step' : ρ → ρ → Prop} {fresh fresh' : ρ → Prop}

/-- The old rows, each after a step, followed by fresh ones. -/
def Evolves (step : ρ → ρ → Prop) (fresh : ρ → Prop) (rows rows' : List ρ) : Prop :=
  ∃ kept added, rows' = kept ++ added ∧ List.Forall₂ step rows kept ∧ ∀ r ∈ added, fresh r

theorem Evolves.forward {rows rows' : List ρ} (evolves : Evolves step fresh rows rows') {r : ρ}
    (mem : r ∈ rows) : ∃ r' ∈ rows', step r r' := by
  obtain ⟨kept, added, rfl, stepped, -⟩ := evolves
  obtain ⟨index, bound, rfl⟩ := List.mem_iff_getElem.mp mem
  have keptBound : index < kept.length := stepped.length_eq ▸ bound
  exact ⟨kept[index], List.mem_append_left added (List.getElem_mem keptBound),
    List.Forall₂.get stepped bound keptBound⟩

theorem Evolves.backward {rows rows' : List ρ} (evolves : Evolves step fresh rows rows') {r' : ρ}
    (mem : r' ∈ rows') : (∃ r ∈ rows, step r r') ∨ fresh r' := by
  obtain ⟨kept, added, rfl, stepped, isFresh⟩ := evolves
  rcases List.mem_append.mp mem with old | new
  · obtain ⟨index, bound, rfl⟩ := List.mem_iff_getElem.mp old
    have rowsBound : index < rows.length := stepped.length_eq ▸ bound
    exact Or.inl ⟨rows[index], List.getElem_mem rowsBound,
      List.Forall₂.get stepped rowsBound bound⟩
  · exact Or.inr (isFresh r' new)

theorem Evolves.column {α : Type v} {column : ρ → α} {rows rows' : List ρ}
    (evolves : Evolves step fresh rows rows')
    (kept : ∀ r r', step r r' → column r' = column r) :
    rows.map column <+: rows'.map column := by
  obtain ⟨rest, added, rfl, stepped, -⟩ := evolves
  refine ⟨added.map column, ?_⟩
  rw [List.map_append]
  congr 1
  induction stepped with
  | nil => rfl
  | cons head _ ih => rw [List.map_cons, List.map_cons, ih, kept _ _ head]

theorem Evolves.refl (refl : ∀ r, step r r) (rows : List ρ) : Evolves step fresh rows rows := by
  refine ⟨rows, [], (List.append_nil rows).symm, ?_, fun r mem => by cases mem⟩
  exact List.forall₂_same.mpr fun r _ => refl r

theorem Evolves.mono {rows rows' : List ρ} (evolves : Evolves step fresh rows rows')
    (steps : ∀ r r', step r r' → step' r r') (freshes : ∀ r, fresh r → fresh' r) :
    Evolves step' fresh' rows rows' := by
  obtain ⟨kept, added, rfl, stepped, isFresh⟩ := evolves
  exact ⟨kept, added, rfl, stepped.imp steps, fun r mem => freshes r (isFresh r mem)⟩

theorem Evolves.trans (trans : ∀ r r' r'', step r r' → step r' r'' → step r r'')
    (stays : ∀ r r', fresh r → step r r' → fresh r') {first second third : List ρ}
    (early : Evolves step fresh first second) (late : Evolves step fresh second third) :
    Evolves step fresh first third := by
  obtain ⟨kept, added, rfl, stepped, isFresh⟩ := early
  obtain ⟨kept', added', rfl, stepped', isFresh'⟩ := late
  obtain ⟨keptOld, keptNew, rfl, old, new⟩ :
      ∃ keptOld keptNew, kept' = keptOld ++ keptNew ∧ List.Forall₂ step kept keptOld ∧
        List.Forall₂ step added keptNew :=
    ⟨_, _, (List.take_append_drop kept.length kept').symm,
      List.forall₂_take_append kept' kept added stepped'.flip |>.flip,
      List.forall₂_drop_append kept' kept added stepped'.flip |>.flip⟩
  refine ⟨keptOld, keptNew ++ added', List.append_assoc _ _ _, ?_, ?_⟩
  · clear stepped' new
    induction stepped generalizing keptOld with
    | nil => exact old
    | cons head _ ih =>
      obtain ⟨_, _, next, rest, rfl⟩ := List.forall₂_cons_left_iff.mp old
      exact List.Forall₂.cons (trans _ _ _ head next) (ih _ rest)
  · intro r mem
    rcases List.mem_append.mp mem with inside | after
    · have stepped : Evolves step (fun _ => False) added keptNew :=
        ⟨keptNew, [], (List.append_nil _).symm, new, fun r mem => by cases mem⟩
      obtain ⟨before, beforeMem, took⟩ := (stepped.backward inside).resolve_right id
      exact stays before r (isFresh before beforeMem) took
    · exact isFresh' r after

theorem Evolves.map {f : ρ → ρ} {rows : List ρ} (steps : ∀ r ∈ rows, step r (f r)) :
    Evolves step fresh rows (rows.map f) := by
  refine ⟨rows.map f, [], (List.append_nil _).symm, ?_, fun r mem => by cases mem⟩
  rw [List.forall₂_map_right_iff]
  exact List.forall₂_same.mpr steps

theorem Evolves.replace [DecidableEq κ] {key : ρ → κ} {rows : List ρ} (keyed : Keyed key rows)
    (refl : ∀ r, step r r) {old row : ρ} (mem : old ∈ rows) (same : key old = key row)
    (takes : step old row) : Evolves step fresh rows (replaceRow key row rows) := by
  refine Evolves.map fun r rMem => ?_
  split
  · rename_i hit
    rw [keyed.eq_of_key rMem mem (hit.trans same.symm)]
    exact takes
  · exact refl r

theorem Evolves.add (refl : ∀ r, step r r) {rows : List ρ} {row : ρ} (isFresh : fresh row) :
    Evolves step fresh rows (rows ++ [row]) := by
  refine ⟨rows, [row], rfl, List.forall₂_same.mpr fun r _ => refl r, ?_⟩
  intro r mem
  rwa [List.mem_singleton.mp mem]

end SkillMind.Library
