import Mathlib.Data.List.Basic
import Mathlib.Tactic.Common

/-!
# Covers by rectangles

Cells of a grid are covered by rectangles; how often a cell is covered is counted, so that
rectangles partition a set of cells when every cell of it is covered once and no other one is. The
columns of one row are covered by their runs.
-/

namespace SkillMind.Library

/-- The runs of a list of columns, behind a run that is open. -/
def runsFrom (start stop : Nat) : List Nat → List (Nat × Nat)
  | [] => [(start, stop)]
  | column :: rest =>
    if column = stop + 1 then runsFrom start column rest
    else (start, stop) :: runsFrom column column rest

/-- The maximal runs of consecutive columns of an increasing list. -/
def runs : List Nat → List (Nat × Nat)
  | [] => []
  | column :: rest => runsFrom column column rest

/-- A column is between the ends of an interval. -/
def Spans (interval : Nat × Nat) (column : Nat) : Prop :=
  interval.1 ≤ column ∧ column ≤ interval.2

instance (interval : Nat × Nat) (column : Nat) : Decidable (Spans interval column) :=
  inferInstanceAs (Decidable (_ ∧ _))

theorem spans_iff {start stop column : Nat} :
    Spans (start, stop) column ↔ start ≤ column ∧ column ≤ stop := Iff.rfl

theorem runsFrom_le {start stop : Nat} (le : start ≤ stop) {columns : List Nat} :
    ∀ interval ∈ runsFrom start stop columns, interval.1 ≤ interval.2 := by
  induction columns generalizing start stop with
  | nil =>
    intro interval mem
    rw [runsFrom, List.mem_singleton] at mem
    rw [mem]
    exact le
  | cons column rest ih =>
    intro interval mem
    rw [runsFrom] at mem
    split_ifs at mem with next
    · exact ih (by omega) interval mem
    · rcases List.mem_cons.mp mem with rfl | later
      · exact le
      · exact ih (Nat.le_refl _) interval later

theorem runs_le {columns : List Nat} : ∀ interval ∈ runs columns, interval.1 ≤ interval.2 := by
  cases columns with
  | nil => exact fun _ mem => nomatch mem
  | cons column rest => exact runsFrom_le (Nat.le_refl _)

theorem countP_runsFrom {start stop : Nat} (le : start ≤ stop) (columns : List Nat)
    (column : Nat) :
    (runsFrom start stop columns).countP (fun interval => Spans interval column) =
      (if Spans (start, stop) column then 1 else 0) + columns.count column := by
  induction columns generalizing start stop with
  | nil => simp [runsFrom, List.countP_cons]
  | cons first rest ih =>
    rw [runsFrom, List.count_cons]
    by_cases next : first = stop + 1
    · rw [if_pos next, ih (by omega)]
      simp only [spans_iff, beq_iff_eq]
      split_ifs <;> omega
    · rw [if_neg next, List.countP_cons, ih (Nat.le_refl _)]
      simp only [spans_iff, beq_iff_eq, decide_eq_true_eq]
      split_ifs <;> omega

theorem countP_runs (columns : List Nat) (column : Nat) :
    (runs columns).countP (fun interval => Spans interval column) = columns.count column := by
  cases columns with
  | nil => rfl
  | cons first rest =>
    rw [runs, countP_runsFrom (Nat.le_refl _), List.count_cons]
    simp only [spans_iff, beq_iff_eq]
    split_ifs <;> omega

/-! ## Rectangles -/

structure Rectangle where
  top : Nat
  left : Nat
  bottom : Nat
  right : Nat
  deriving DecidableEq

namespace Rectangle

/-- A cell, as its row and its column, is in the rectangle. -/
def Holds (rectangle : Rectangle) (cell : Nat × Nat) : Prop :=
  (rectangle.top ≤ cell.1 ∧ cell.1 ≤ rectangle.bottom) ∧
    Spans (rectangle.left, rectangle.right) cell.2

instance (rectangle : Rectangle) (cell : Nat × Nat) : Decidable (rectangle.Holds cell) :=
  inferInstanceAs (Decidable (_ ∧ _))

/-- The corners are in their order. -/
structure Proper (rectangle : Rectangle) : Prop where
  rows : rectangle.top ≤ rectangle.bottom
  columns : rectangle.left ≤ rectangle.right

theorem Proper.holds_first {rectangle : Rectangle} (proper : rectangle.Proper) :
    rectangle.Holds (rectangle.top, rectangle.left) :=
  ⟨⟨Nat.le_refl _, proper.rows⟩, Nat.le_refl _, proper.columns⟩

theorem Proper.holds_last {rectangle : Rectangle} (proper : rectangle.Proper) :
    rectangle.Holds (rectangle.bottom, rectangle.right) :=
  ⟨⟨proper.rows, Nat.le_refl _⟩, proper.columns, Nat.le_refl _⟩

end Rectangle

/-- How many rectangles hold a cell. -/
def coverage (rectangles : List Rectangle) (cell : Nat × Nat) : Nat :=
  rectangles.countP fun rectangle => rectangle.Holds cell

@[simp] theorem coverage_nil (cell : Nat × Nat) : coverage [] cell = 0 := rfl

theorem coverage_cons (rectangle : Rectangle) (rectangles : List Rectangle) (cell : Nat × Nat) :
    coverage (rectangle :: rectangles) cell =
      coverage rectangles cell + if rectangle.Holds cell then 1 else 0 := by
  simp [coverage, List.countP_cons]

theorem coverage_append (rectangles : List Rectangle) (rectangle : Rectangle)
    (cell : Nat × Nat) : coverage (rectangles ++ [rectangle]) cell =
      coverage rectangles cell + if rectangle.Holds cell then 1 else 0 := by
  simp [coverage, List.countP_append, List.countP_cons]

theorem coverage_set {rectangles : List Rectangle} {index : Nat} {old : Rectangle}
    (found : rectangles[index]? = some old) (new : Rectangle) (cell : Nat × Nat) :
    coverage (rectangles.set index new) cell + (if old.Holds cell then 1 else 0) =
      coverage rectangles cell + if new.Holds cell then 1 else 0 := by
  induction rectangles generalizing index with
  | nil => cases found
  | cons rectangle rest ih =>
    cases index with
    | zero =>
      obtain rfl := Option.some.inj found
      rw [List.set_cons_zero, coverage_cons, coverage_cons]
      omega
    | succ index =>
      have tail := ih found
      rw [List.set_cons_succ, coverage_cons, coverage_cons]
      omega

theorem coverage_pos {rectangles : List Rectangle} {cell : Nat × Nat} :
    0 < coverage rectangles cell ↔ ∃ rectangle ∈ rectangles, rectangle.Holds cell := by
  simp [coverage, List.countP_pos_iff]

theorem pairwise_disjoint {rectangles : List Rectangle}
    (once : ∀ cell, coverage rectangles cell ≤ 1) :
    rectangles.Pairwise fun first second => ∀ cell, ¬ (first.Holds cell ∧ second.Holds cell) := by
  induction rectangles with
  | nil => exact .nil
  | cons first rest ih =>
    refine .cons ?_ (ih fun cell => ?_)
    · rintro second mem cell ⟨here, there⟩
      have twice := once cell
      have again : 0 < coverage rest cell := coverage_pos.mpr ⟨second, mem, there⟩
      rw [coverage_cons, if_pos here] at twice
      omega
    · have whole := once cell
      rw [coverage_cons] at whole
      omega

end SkillMind.Library
