import Mathlib.Data.Set.Basic
import Mathlib.Order.Lattice

/-!
# Cumulative readings under a watermark

A cumulative counter is reported as readings: a watermark, which orders the reports, and the value
counted so far. The readings of one counter form a series when a larger watermark never has a
smaller value, so that a watermark has one value. Any two readings of a series are comparable in
the product order, their join is one of them, and neither contradicts the other.

A meter that keeps the join of what it has seen therefore ends at the greatest reading, whatever
the order and the number of times each reading arrives.
-/

namespace SkillMind.Library

universe u v

variable {ω : Type u} {ν : Type v} [LinearOrder ω] [LinearOrder ν]

/-- A larger watermark never has a smaller value. -/
def Series (readings : Set (ω × ν)) : Prop :=
  ∀ p ∈ readings, ∀ q ∈ readings, p.1 ≤ q.1 → p.2 ≤ q.2

/-- A reading that a meter standing at `current` cannot be reconciled with: it is not older
and counts less, or it is not newer and counts more. -/
def Contradicts (current reading : ω × ν) : Prop :=
  (current.1 ≤ reading.1 ∧ reading.2 < current.2) ∨
    (reading.1 ≤ current.1 ∧ current.2 < reading.2)

instance (current reading : ω × ν) : Decidable (Contradicts current reading) :=
  inferInstanceAs (Decidable (_ ∨ _))

variable {readings : Set (ω × ν)}

theorem Series.not_contradicts (series : Series readings)
    {p q : ω × ν} (pMem : p ∈ readings) (qMem : q ∈ readings) : ¬ Contradicts p q := by
  rintro (⟨newer, less⟩ | ⟨older, more⟩)
  · exact absurd (series p pMem q qMem newer) (not_le.mpr less)
  · exact absurd (series q qMem p pMem older) (not_le.mpr more)

theorem Series.comparable (series : Series readings)
    {p q : ω × ν} (pMem : p ∈ readings) (qMem : q ∈ readings) : p ≤ q ∨ q ≤ p := by
  rcases le_total p.1 q.1 with order | order
  · exact Or.inl ⟨order, series p pMem q qMem order⟩
  · exact Or.inr ⟨order, series q qMem p pMem order⟩

theorem Series.sup_mem (series : Series readings)
    {p q : ω × ν} (pMem : p ∈ readings) (qMem : q ∈ readings) : p ⊔ q ∈ readings := by
  rcases series.comparable pMem qMem with le | le
  · rwa [sup_eq_right.mpr le]
  · rwa [sup_eq_left.mpr le]

theorem Series.insert (series : Series readings) {base : ω × ν}
    (below : ∀ p ∈ readings, base.1 < p.1 ∧ base.2 ≤ p.2) :
    Series (Insert.insert base readings) := by
  rintro p (rfl | pMem) q (rfl | qMem) order
  · exact le_refl _
  · exact (below q qMem).2
  · exact absurd order (not_le.mpr (below p pMem).1)
  · exact series p pMem q qMem order

section Meters

variable {α : Type u} [SemilatticeSup α]

/-- The meter after a list of arrivals. -/
def absorbAll (base : α) (arrivals : List α) : α := arrivals.foldl (· ⊔ ·) base

@[simp] theorem absorbAll_nil (base : α) : absorbAll base [] = base := rfl

@[simp] theorem absorbAll_cons (base reading : α) (arrivals : List α) :
    absorbAll base (reading :: arrivals) = absorbAll (base ⊔ reading) arrivals := rfl

theorem base_le_absorbAll (base : α) (arrivals : List α) : base ≤ absorbAll base arrivals := by
  induction arrivals generalizing base with
  | nil => exact le_refl _
  | cons reading rest ih => exact le_sup_left.trans (ih (base ⊔ reading))

theorem le_absorbAll {base reading : α} {arrivals : List α} (mem : reading ∈ arrivals) :
    reading ≤ absorbAll base arrivals := by
  induction arrivals generalizing base with
  | nil => simp at mem
  | cons first rest ih =>
    rcases List.mem_cons.mp mem with rfl | later
    · exact le_sup_right.trans (base_le_absorbAll _ rest)
    · exact ih later

theorem absorbAll_le {base top : α} {arrivals : List α} (baseLe : base ≤ top)
    (le : ∀ reading ∈ arrivals, reading ≤ top) : absorbAll base arrivals ≤ top := by
  induction arrivals generalizing base with
  | nil => exact baseLe
  | cons first rest ih =>
    exact ih (sup_le baseLe (le first List.mem_cons_self))
      fun reading mem => le reading (List.mem_cons_of_mem first mem)

theorem absorbAll_congr {base : α} {first second : List α}
    (same : ∀ reading, reading ∈ first ↔ reading ∈ second) :
    absorbAll base first = absorbAll base second := by
  refine le_antisymm ?_ ?_
  · exact absorbAll_le (base_le_absorbAll base second) fun reading mem =>
      le_absorbAll ((same reading).mp mem)
  · exact absorbAll_le (base_le_absorbAll base first) fun reading mem =>
      le_absorbAll ((same reading).mpr mem)

@[simp] theorem absorbAll_append (base : α) (first second : List α) :
    absorbAll base (first ++ second) = absorbAll (absorbAll base first) second := by
  simp [absorbAll, List.foldl_append]

theorem absorbAll_eq_greatest {base top : α} {arrivals : List α} (baseLe : base ≤ top)
    (le : ∀ reading ∈ arrivals, reading ≤ top) (seen : top ∈ arrivals) :
    absorbAll base arrivals = top :=
  le_antisymm (absorbAll_le baseLe le) (le_absorbAll seen)

end Meters

theorem Series.absorbAll_mem (series : Series readings)
    {base : ω × ν} (base_mem : base ∈ readings) {arrivals : List (ω × ν)}
    (arrived : ∀ reading ∈ arrivals, reading ∈ readings) :
    absorbAll base arrivals ∈ readings := by
  induction arrivals generalizing base with
  | nil => exact base_mem
  | cons first rest ih =>
    refine ih ?_ fun reading mem => arrived reading (List.mem_cons_of_mem first mem)
    exact series.sup_mem base_mem (arrived first List.mem_cons_self)

end SkillMind.Library
