import Mathlib.Algebra.Order.Group.Defs
import Mathlib.Algebra.Order.Group.MinMax
import Mathlib.Tactic.Abel

/-!
# Grants held in escrow

A grant is split into a part that is still reserved and a part that is consumed.  Drawing an
amount moves it from the reserved part, as far as that part reaches, and consumes all of it,
so a draw beyond the reserved part shows as an overdraft and never as a negative
reservation.  Releasing returns what is left.

A hold is balanced while reserved and consumed still make up the grant, and tight while the
reserved part is the unconsumed remainder of the grant, with an overdraft counted as an empty
remainder. Tightness survives every draw; balance survives exactly the draws within the grant.
-/

namespace SkillMind.Library

universe u

/-- A grant with its reserved and its consumed part. -/
structure Hold (α : Type u) where
  granted : α
  reserved : α
  consumed : α
  deriving DecidableEq

namespace Hold

variable {α : Type u}

variable [AddCommGroup α] [LinearOrder α]

/-- A fresh hold: the whole grant is reserved. -/
def opened (granted : α) : Hold α := ⟨granted, granted, 0⟩

/-- The part of an amount the reservation covers. -/
def transfer (hold : Hold α) (amount : α) : α := min hold.reserved amount

/-- Consume an amount, out of the reservation as far as it reaches. -/
def draw (hold : Hold α) (amount : α) : Hold α :=
  ⟨hold.granted, hold.reserved - hold.transfer amount, hold.consumed + amount⟩

/-- Return what is still reserved. -/
def release (hold : Hold α) : Hold α := ⟨hold.granted, 0, hold.consumed⟩

/-- The parts are nonnegative and no more is reserved than granted. -/
structure Sound (hold : Hold α) : Prop where
  reserved_nonneg : 0 ≤ hold.reserved
  reserved_le : hold.reserved ≤ hold.granted
  consumed_nonneg : 0 ≤ hold.consumed

/-- Reserved and consumed make up the grant. -/
def Balanced (hold : Hold α) : Prop := hold.consumed + hold.reserved = hold.granted

/-- The reservation is the unconsumed remainder of the grant. -/
def Tight (hold : Hold α) : Prop := hold.reserved = max 0 (hold.granted - hold.consumed)

theorem opened_sound {granted : α} (nonneg : 0 ≤ granted) : (opened granted).Sound :=
  ⟨nonneg, le_refl _, le_refl _⟩

theorem transfer_nonneg {hold : Hold α} (sound : hold.Sound) {amount : α}
    (nonneg : 0 ≤ amount) : 0 ≤ hold.transfer amount :=
  le_min sound.reserved_nonneg nonneg

theorem draw_sound [IsOrderedAddMonoid α] {hold : Hold α} (sound : hold.Sound) {amount : α}
    (nonneg : 0 ≤ amount) : (hold.draw amount).Sound where
  reserved_nonneg := sub_nonneg.mpr (min_le_left _ _)
  reserved_le := by
    have shrinks := sub_le_self hold.reserved (transfer_nonneg sound nonneg)
    exact shrinks.trans sound.reserved_le
  consumed_nonneg := add_nonneg sound.consumed_nonneg nonneg

theorem release_sound {hold : Hold α} (sound : hold.Sound) : hold.release.Sound :=
  ⟨le_refl _, sound.reserved_nonneg.trans sound.reserved_le, sound.consumed_nonneg⟩

theorem opened_tight {granted : α} (nonneg : 0 ≤ granted) : (opened granted).Tight := by
  simp only [Tight, opened, sub_zero, max_eq_right nonneg]

theorem Tight.balanced_iff [IsOrderedAddMonoid α] {hold : Hold α} (tight : hold.Tight) :
    hold.Balanced ↔ hold.consumed ≤ hold.granted := by
  unfold Balanced
  rw [show hold.reserved = max 0 (hold.granted - hold.consumed) from tight]
  constructor
  · intro sum
    have above : hold.consumed ≤ hold.consumed + max 0 (hold.granted - hold.consumed) :=
      le_add_of_nonneg_right (le_max_left _ _)
    exact above.trans_eq sum
  · intro within
    rw [max_eq_right (sub_nonneg.mpr within)]
    abel

theorem draw_tight [IsOrderedAddMonoid α] {hold : Hold α} (tight : hold.Tight) {amount : α}
    (nonneg : 0 ≤ amount) : (hold.draw amount).Tight := by
  have reserved : hold.reserved = max 0 (hold.granted - hold.consumed) := tight
  have remainder : hold.granted - (hold.consumed + amount) =
      (hold.granted - hold.consumed) - amount := by abel
  show hold.reserved - min hold.reserved amount = max 0 (hold.granted - (hold.consumed + amount))
  rw [remainder]
  rcases le_total hold.reserved amount with covers | beyond
  · rw [min_eq_left covers, sub_self]
    have bound : hold.granted - hold.consumed ≤ amount := by
      exact (le_max_right _ _).trans (reserved ▸ covers)
    rw [max_eq_left (sub_nonpos.mpr bound)]
  · rw [min_eq_right beyond]
    rcases le_total 0 (hold.granted - hold.consumed) with positive | negative
    · rw [max_eq_right positive] at reserved
      rw [reserved, max_eq_right (sub_nonneg.mpr (reserved ▸ beyond))]
    · rw [max_eq_left negative] at reserved
      have zero : amount = 0 := le_antisymm (reserved ▸ beyond) nonneg
      rw [reserved, zero, sub_zero, max_eq_left (by rwa [sub_zero])]

@[simp] theorem draw_granted (hold : Hold α) (amount : α) :
    (hold.draw amount).granted = hold.granted := rfl

@[simp] theorem draw_consumed (hold : Hold α) (amount : α) :
    (hold.draw amount).consumed = hold.consumed + amount := rfl

@[simp] theorem draw_reserved (hold : Hold α) (amount : α) :
    (hold.draw amount).reserved = hold.reserved - hold.transfer amount := rfl

omit [AddCommGroup α] in
theorem transfer_le (hold : Hold α) (amount : α) : hold.transfer amount ≤ amount :=
  min_le_right _ _

end Hold

/-- The two totals of an account that many holds share. -/
structure Pool (α : Type u) where
  consumed : α
  reserved : α
  deriving DecidableEq

namespace Pool

variable {α : Type u} [AddCommGroup α]

/-- Nothing reserved and nothing consumed. -/
def empty : Pool α := ⟨0, 0⟩

end Pool

end SkillMind.Library
