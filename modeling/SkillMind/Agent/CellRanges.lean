import SkillMind.Library.Association
import SkillMind.Library.Fallible
import SkillMind.Library.Rectangles
import Mathlib.Data.List.Dedup
import Mathlib.Data.List.Sort

/-!
# Ranges of cells

The cells of a worksheet that share a format are written as ranges. The columns of a row are
joined to runs, and a run is joined to the equal run of the row before it; a hole ends both. Each
row adds its own cells to what the rectangles cover and no other ones, so the ranges partition the
cells.
-/

namespace SkillMind.Agent.CellRanges

open Library

/-! ## The merge -/

/-- The rectangles, and those of the current row by their intervals. -/
structure Merge where
  rectangles : List Rectangle
  current : List ((Nat × Nat) × Nat)

/-- The rectangle of an interval of the row before, if it ends there. -/
def continued (previous : List ((Nat × Nat) × Nat)) (rectangles : List Rectangle) (row : Nat)
    (interval : Nat × Nat) : Option (Nat × Rectangle) := do
  let index ← previous.lookup interval
  let rectangle ← rectangles[index]?
  if rectangle.bottom + 1 = row then some (index, rectangle) else none

def joinInterval (previous : List ((Nat × Nat) × Nat)) (row : Nat) (state : Merge)
    (interval : Nat × Nat) : Merge :=
  match continued previous state.rectangles row interval with
  | some (index, rectangle) =>
    ⟨state.rectangles.set index { rectangle with bottom := row },
      state.current ++ [(interval, index)]⟩
  | none =>
    ⟨state.rectangles ++ [⟨row, interval.1, row, interval.2⟩],
      state.current ++ [(interval, state.rectangles.length)]⟩

def joinRow (columns : Nat → List Nat) (state : Merge) (row : Nat) : Merge :=
  (runs (columns row)).foldl (joinInterval state.current row) ⟨state.rectangles, []⟩

/-- `sorted(rows)`. -/
def rowsOf (cells : List (Nat × Nat)) : List Nat :=
  (cells.map Prod.fst).dedup.insertionSort (· ≤ ·)

/-- `sorted(set(rows[row]))`. -/
def columnsOf (cells : List (Nat × Nat)) (row : Nat) : List Nat :=
  ((cells.filter fun cell => cell.1 = row).map Prod.snd).dedup.insertionSort (· ≤ ·)

def rectanglesOf (cells : List (Nat × Nat)) : List Rectangle :=
  ((rowsOf cells).foldl (joinRow (columnsOf cells)) ⟨[], []⟩).rectangles

/-- A cell of a worksheet. -/
structure OnSheet (cell : Nat × Nat) : Prop where
  row_pos : 1 ≤ cell.1
  column_pos : 1 ≤ cell.2
  column_le : cell.2 ≤ 16384

/-- `ValueError` of `get_column_letter`. -/
inductive ColumnError where
  | invalidIndex

/-- `get_column_letter`: each column of a worksheet has capital letters of its own. -/
structure ColumnLetters where
  letter : Nat → Except ColumnError String
  written : ∀ column, 1 ≤ column → column ≤ 16384 → ∃ text, letter column = .ok text
  capital : ∀ column text, letter column = .ok text → ∀ c ∈ text.toList, c.isUpper = true
  injective : ∀ column other text, letter column = .ok text → letter other = .ok text →
    column = other

def cellText (letters : ColumnLetters) (row column : Nat) : Except ColumnError String :=
  (letters.letter column).map fun letter => letter ++ toString row

def rangeText (letters : ColumnLetters) (rectangle : Rectangle) : Except ColumnError String := do
  let first ← cellText letters rectangle.top rectangle.left
  if (rectangle.top, rectangle.left) = (rectangle.bottom, rectangle.right) then .ok first
  else
    let last ← cellText letters rectangle.bottom rectangle.right
    .ok (first ++ ":" ++ last)

def compactRanges (letters : ColumnLetters) (cells : List (Nat × Nat)) :
    Except ColumnError (List String) :=
  (rectanglesOf cells).mapM (rangeText letters)

/-! ## What the rectangles cover -/

/-- An interval of a row has the columns of its rectangle. -/
def Linked (rectangles : List Rectangle) (entries : List ((Nat × Nat) × Nat)) : Prop :=
  ∀ interval index, (interval, index) ∈ entries →
    ∃ rectangle, rectangles[index]? = some rectangle ∧
      (rectangle.left, rectangle.right) = interval

section Linked

variable {rectangles : List Rectangle} {entries : List ((Nat × Nat) × Nat)}

theorem linked_nil : Linked rectangles [] := fun _ _ mem => nomatch mem

theorem Linked.add (linked : Linked rectangles entries) {interval : Nat × Nat} {index : Nat}
    {rectangle : Rectangle} (found : rectangles[index]? = some rectangle)
    (columns : (rectangle.left, rectangle.right) = interval) :
    Linked rectangles (entries ++ [(interval, index)]) := by
  intro other place mem
  rcases List.mem_append.mp mem with before | here
  · exact linked other place before
  · cases List.mem_singleton.mp here
    exact ⟨rectangle, found, columns⟩

theorem Linked.append (linked : Linked rectangles entries) (rectangle : Rectangle) :
    Linked (rectangles ++ [rectangle]) entries := by
  intro interval index mem
  obtain ⟨old, found, columns⟩ := linked interval index mem
  have small : index < rectangles.length := (List.getElem?_eq_some_iff.mp found).1
  exact ⟨old, by rw [List.getElem?_append_left small, found], columns⟩

theorem Linked.set (linked : Linked rectangles entries) {index : Nat} {old : Rectangle}
    (found : rectangles[index]? = some old) (row : Nat) :
    Linked (rectangles.set index { old with bottom := row }) entries := by
  have small : index < rectangles.length := (List.getElem?_eq_some_iff.mp found).1
  intro interval place mem
  obtain ⟨rectangle, stands, columns⟩ := linked interval place mem
  by_cases same : index = place
  · subst same
    rw [found] at stands
    cases stands
    exact ⟨{ old with bottom := row }, List.getElem?_set_self small, columns⟩
  · exact ⟨rectangle, by rw [List.getElem?_set_ne same, stands], columns⟩

end Linked

theorem continued_some {previous : List ((Nat × Nat) × Nat)} {rectangles : List Rectangle}
    {row index : Nat} {interval : Nat × Nat} {rectangle : Rectangle}
    (found : continued previous rectangles row interval = some (index, rectangle)) :
    (interval, index) ∈ previous ∧ rectangles[index]? = some rectangle ∧
      rectangle.bottom + 1 = row := by
  simp only [continued, Option.bind_eq_bind, Option.bind_eq_some_iff] at found
  obtain ⟨index', listed, rectangle', stands, same⟩ := found
  split_ifs at same with adjacent
  cases same
  exact ⟨mem_of_lookup listed, stands, adjacent⟩

/-- The rectangles of a merge in a row, with the intervals of the row before. -/
structure Sound (previous : List ((Nat × Nat) × Nat)) (state : Merge) : Prop where
  proper : ∀ rectangle ∈ state.rectangles, rectangle.Proper
  before : Linked state.rectangles previous
  current : Linked state.rectangles state.current

theorem sound_nil : Sound [] ⟨[], []⟩ := ⟨by simp, linked_nil, linked_nil⟩

theorem joinInterval_sound {previous : List ((Nat × Nat) × Nat)} {state : Merge}
    (sound : Sound previous state) {row : Nat} {interval : Nat × Nat}
    (le : interval.1 ≤ interval.2) :
    Sound previous (joinInterval previous row state interval) ∧
      ∀ cell, coverage (joinInterval previous row state interval).rectangles cell =
        coverage state.rectangles cell +
          if cell.1 = row ∧ Spans interval cell.2 then 1 else 0 := by
  rw [joinInterval]
  cases found : continued previous state.rectangles row interval with
  | some entry =>
    obtain ⟨index, rectangle⟩ := entry
    obtain ⟨listed, stands, adjacent⟩ := continued_some found
    obtain ⟨rectangle', stands', columns⟩ := sound.before interval index listed
    obtain rfl := Option.some.inj (stands.symm.trans stands')
    have proper := sound.proper rectangle (List.mem_of_getElem? stands)
    have small : index < state.rectangles.length := (List.getElem?_eq_some_iff.mp stands).1
    refine ⟨⟨?_, sound.before.set stands row, ?_⟩, fun cell => ?_⟩
    · intro one mem
      rcases List.mem_or_eq_of_mem_set mem with old | rfl
      · exact sound.proper one old
      · exact ⟨by have := proper.rows; simp only; omega, proper.columns⟩
    · exact (sound.current.set stands row).add (List.getElem?_set_self small) columns
    · have changed := coverage_set stands { rectangle with bottom := row } cell
      have rows := proper.rows
      subst columns
      simp only [Rectangle.Holds, spans_iff] at changed ⊢
      split_ifs at changed ⊢ <;> omega
  | none =>
    refine ⟨⟨?_, sound.before.append _, ?_⟩, fun cell => ?_⟩
    · intro one mem
      rcases List.mem_append.mp mem with old | new
      · exact sound.proper one old
      · rw [List.mem_singleton.mp new]
        exact ⟨Nat.le_refl _, le⟩
    · exact (sound.current.append _).add List.getElem?_concat_length rfl
    · rw [coverage_append]
      simp only [Rectangle.Holds]
      congr 1
      refine if_congr ?_ rfl rfl
      exact and_congr_left fun _ => by omega

theorem joinIntervals_sound {previous : List ((Nat × Nat) × Nat)} {row : Nat}
    (intervals : List (Nat × Nat)) (le : ∀ interval ∈ intervals, interval.1 ≤ interval.2)
    {state : Merge} (sound : Sound previous state) :
    Sound previous (intervals.foldl (joinInterval previous row) state) ∧
      ∀ cell, coverage (intervals.foldl (joinInterval previous row) state).rectangles cell =
        coverage state.rectangles cell +
          if cell.1 = row then intervals.countP fun interval => Spans interval cell.2 else 0 := by
  induction intervals generalizing state with
  | nil => exact ⟨sound, fun cell => by simp⟩
  | cons interval rest ih =>
    obtain ⟨next, adds⟩ := @joinInterval_sound _ _ sound row _ (le interval List.mem_cons_self)
    obtain ⟨last, whole⟩ := ih (fun one mem => le one (List.mem_cons_of_mem _ mem)) next
    refine ⟨last, fun cell => ?_⟩
    rw [List.foldl_cons, whole, adds, List.countP_cons]
    simp only [decide_eq_true_eq]
    by_cases here : cell.1 = row
    · simp only [here, true_and, if_true]
      omega
    · simp only [here, false_and, if_false]

theorem joinRow_coverage (columns : Nat → List Nat) {state : Merge}
    (sound : Sound [] state) (row : Nat) :
    Sound [] (joinRow columns state row) ∧
      ∀ cell, coverage (joinRow columns state row).rectangles cell =
        coverage state.rectangles cell +
          if cell.1 = row then (columns row).count cell.2 else 0 := by
  have start : Sound state.current ⟨state.rectangles, []⟩ :=
    ⟨sound.proper, sound.current, linked_nil⟩
  obtain ⟨after, adds⟩ := @joinIntervals_sound _ row (runs (columns row)) runs_le _ start
  refine ⟨⟨after.proper, linked_nil, after.current⟩, fun cell => ?_⟩
  rw [joinRow, adds, countP_runs]

theorem joinRows_coverage (columns : Nat → List Nat) (rows : List Nat) {state : Merge}
    (sound : Sound [] state) :
    Sound [] (rows.foldl (joinRow columns) state) ∧
      ∀ cell, coverage (rows.foldl (joinRow columns) state).rectangles cell =
        coverage state.rectangles cell +
          rows.count cell.1 * (columns cell.1).count cell.2 := by
  induction rows generalizing state with
  | nil => exact ⟨sound, fun cell => by simp⟩
  | cons row rest ih =>
    obtain ⟨next, adds⟩ := joinRow_coverage columns sound row
    obtain ⟨last, whole⟩ := ih next
    refine ⟨last, fun cell => ?_⟩
    rw [List.foldl_cons, whole, adds, List.count_cons]
    by_cases here : cell.1 = row
    · rw [if_pos here, here, if_pos (beq_self_eq_true row), Nat.add_mul, Nat.one_mul]
      omega
    · rw [if_neg here, if_neg (by simpa using fun same => here same.symm), Nat.add_zero,
        Nat.add_zero]

theorem count_sorted (values : List Nat) (value : Nat) :
    (values.dedup.insertionSort (· ≤ ·)).count value = if value ∈ values then 1 else 0 := by
  rw [(List.perm_insertionSort _ _).count_eq, List.count_dedup]

theorem coverage_rectanglesOf (cells : List (Nat × Nat)) (cell : Nat × Nat) :
    coverage (rectanglesOf cells) cell = if cell ∈ cells then 1 else 0 := by
  rw [rectanglesOf, (joinRows_coverage (columnsOf cells) (rowsOf cells) sound_nil).2 cell, rowsOf,
    columnsOf, count_sorted, count_sorted, coverage_nil, Nat.zero_add]
  have listed : cell ∈ cells ↔ cell.1 ∈ cells.map Prod.fst ∧
      cell.2 ∈ (cells.filter fun other => other.1 = cell.1).map Prod.snd := by
    constructor
    · intro mem
      exact ⟨List.mem_map_of_mem mem, List.mem_map.mpr ⟨cell, by simpa using mem, rfl⟩⟩
    · rintro ⟨-, mem⟩
      obtain ⟨other, found, column⟩ := List.mem_map.mp mem
      obtain ⟨there, row⟩ := List.mem_filter.mp found
      rwa [← Prod.ext (of_decide_eq_true row) column]
  simp only [listed]
  split_ifs <;> simp_all

example : rectanglesOf [(1, 1), (1, 3), (2, 1), (2, 2), (2, 3)] =
    [⟨1, 1, 1, 1⟩, ⟨1, 3, 1, 3⟩, ⟨2, 1, 2, 3⟩] := by decide

theorem proper_rectanglesOf (cells : List (Nat × Nat)) :
    ∀ rectangle ∈ rectanglesOf cells, rectangle.Proper :=
  (joinRows_coverage (columnsOf cells) (rowsOf cells) sound_nil).1.proper

theorem sorted_congr {first second : List Nat} (same : ∀ value, value ∈ first ↔ value ∈ second) :
    first.dedup.insertionSort (· ≤ ·) = second.dedup.insertionSort (· ≤ ·) := by
  have perm : first.dedup.Perm second.dedup :=
    (List.perm_ext_iff_of_nodup first.nodup_dedup second.nodup_dedup).mpr fun value => by
      rw [List.mem_dedup, List.mem_dedup, same]
  exact List.Perm.eq_of_pairwise' (List.pairwise_insertionSort _ _)
    (List.pairwise_insertionSort _ _)
    ((List.perm_insertionSort _ _).trans (perm.trans (List.perm_insertionSort _ _).symm))

theorem rectanglesOf_congr {first second : List (Nat × Nat)}
    (same : ∀ cell, cell ∈ first ↔ cell ∈ second) : rectanglesOf first = rectanglesOf second := by
  have rows : rowsOf first = rowsOf second := by
    refine sorted_congr fun row => ?_
    simp only [List.mem_map, same]
  have columns : columnsOf first = columnsOf second := by
    funext row
    refine sorted_congr fun column => ?_
    simp only [List.mem_map, List.mem_filter, same]
  rw [rectanglesOf, rectanglesOf, rows, columns]

/-! ## What a range names -/

/-- A range covers the cells of the proper rectangle that it is the text of. -/
def Covers (letters : ColumnLetters) (range : String) (cell : Nat × Nat) : Prop :=
  ∃ rectangle : Rectangle, rectangle.Proper ∧ rangeText letters rectangle = .ok range ∧
    rectangle.Holds cell

theorem append_split {α : Type} {test : α → Bool} {front front' back back' : List α}
    (plain : ∀ c ∈ front, test c = true) (plain' : ∀ c ∈ front', test c = true)
    (stops : ∀ c ∈ back.head?, test c = false) (stops' : ∀ c ∈ back'.head?, test c = false)
    (same : front ++ back = front' ++ back') : front = front' ∧ back = back' := by
  have stop : ∀ rest : List α, (∀ c ∈ rest.head?, test c = false) → rest.takeWhile test = [] := by
    intro rest none
    cases rest with
    | nil => rfl
    | cons c rest => rw [List.takeWhile_cons_of_neg (by simp [none c rfl])]
  have taken := congrArg (List.takeWhile test) same
  rw [List.takeWhile_append_of_pos plain, List.takeWhile_append_of_pos plain', stop back stops,
    stop back' stops', List.append_nil, List.append_nil] at taken
  subst taken
  exact ⟨rfl, List.append_cancel_left same⟩

theorem toDigits_injective {first second : Nat}
    (same : Nat.toDigits 10 first = Nat.toDigits 10 second) : first = second := by
  have read := congrArg (fun digits => Nat.ofDigitChars 10 digits 0) same
  simpa [Nat.ofDigitChars_toDigits] using read

theorem toDigits_digits (row : Nat) : ∀ c ∈ Nat.toDigits 10 row, c.isDigit = true :=
  fun _ mem => Nat.isDigit_of_mem_toDigits (by decide) (by decide) mem

theorem isUpper_of_isDigit {c : Char} (digit : c.isDigit = true) : c.isUpper = false := by
  have digits : c.isDigit = (decide ('0'.val ≤ c.val) && decide (c.val ≤ '9'.val)) := rfl
  have capitals : c.isUpper = decide ('A'.val ≤ c.val ∧ c.val ≤ 'Z'.val) := rfl
  simp only [digits, capitals, Bool.and_eq_true, decide_eq_true_eq, decide_eq_false_iff_not,
    UInt32.le_iff_toNat_le] at digit ⊢
  have limits : '9'.val.toNat < 'A'.val.toNat := by decide
  omega

variable {letters : ColumnLetters}

theorem cellText_some {row column : Nat} {text : String}
    (written : cellText letters row column = .ok text) :
    ∃ letter, letters.letter column = .ok letter ∧
      text.toList = letter.toList ++ Nat.toDigits 10 row := by
  obtain ⟨letter, found, rfl⟩ := map_eq_ok.mp written
  exact ⟨letter, found, by rw [String.toList_append, Nat.toString_eq_repr, Nat.toList_repr]⟩

theorem cellText_split {row column row' column' : Nat} {text text' : String}
    {back back' : List Char} (written : cellText letters row column = .ok text)
    (written' : cellText letters row' column' = .ok text')
    (stops : ∀ c ∈ back.head?, c.isDigit = false) (stops' : ∀ c ∈ back'.head?, c.isDigit = false)
    (same : text.toList ++ back = text'.toList ++ back') :
    (row = row' ∧ column = column') ∧ back = back' := by
  obtain ⟨letter, found, whole⟩ := cellText_some written
  obtain ⟨letter', found', whole'⟩ := cellText_some written'
  rw [whole, whole', List.append_assoc, List.append_assoc] at same
  have digit : ∀ (row : Nat) (back : List Char),
      ∀ c ∈ (Nat.toDigits 10 row ++ back).head?, c.isUpper = false := by
    intro row back c head
    cases digits : Nat.toDigits 10 row with
    | nil => exact absurd digits Nat.toDigits_ne_nil
    | cons first rest =>
      rw [digits] at head
      obtain rfl := Option.some.inj head
      exact isUpper_of_isDigit (toDigits_digits row _ (digits ▸ List.mem_cons_self))
  obtain ⟨front, rest⟩ := append_split (letters.capital _ _ found) (letters.capital _ _ found')
    (digit row back) (digit row' back') same
  obtain ⟨rows, behind⟩ := append_split (toDigits_digits row) (toDigits_digits row') stops stops'
    rest
  obtain rfl := String.toList_inj.mp front
  exact ⟨⟨toDigits_injective rows, letters.injective _ _ _ found found'⟩, behind⟩

theorem rangeText_ok {rectangle : Rectangle} {range : String}
    (written : rangeText letters rectangle = .ok range) :
    ∃ first back, cellText letters rectangle.top rectangle.left = .ok first ∧
      range.toList = first.toList ++ back ∧ (∀ c ∈ back.head?, c.isDigit = false) ∧
      (if (rectangle.top, rectangle.left) = (rectangle.bottom, rectangle.right) then back = []
        else ∃ last, cellText letters rectangle.bottom rectangle.right = .ok last ∧
          back = ':' :: last.toList) := by
  obtain ⟨first, begins, rest⟩ := bind_eq_ok.mp written
  by_cases single : (rectangle.top, rectangle.left) = (rectangle.bottom, rectangle.right)
  · rw [if_pos single] at rest
    cases rest
    exact ⟨_, [], begins, by simp, by simp, by rw [if_pos single]⟩
  · rw [if_neg single] at rest
    obtain ⟨last, ends, whole⟩ := bind_eq_ok.mp rest
    cases whole
    refine ⟨first, ':' :: last.toList, begins, ?_, ?_, ?_⟩
    · rw [String.toList_append, String.toList_append, List.append_assoc]
      rfl
    · intro c head
      obtain rfl := Option.some.inj head
      rfl
    · rw [if_neg single]
      exact ⟨last, ends, rfl⟩

theorem rangeText_injective {first second : Rectangle} {range : String}
    (written : rangeText letters first = .ok range)
    (written' : rangeText letters second = .ok range) : first = second := by
  obtain ⟨start, back, begins, whole, stops, rest⟩ := rangeText_ok written
  obtain ⟨start', back', begins', whole', stops', rest'⟩ := rangeText_ok written'
  obtain ⟨⟨top, left⟩, behind⟩ :=
    cellText_split begins begins' stops stops' (whole.symm.trans whole')
  subst behind
  have corner : first.bottom = second.bottom ∧ first.right = second.right := by
    split_ifs at rest rest' with single single' single'
    · simp only [Prod.mk.injEq] at single single'
      omega
    · obtain ⟨last, -, more⟩ := rest'
      rw [rest] at more
      cases more
    · obtain ⟨last, -, more⟩ := rest
      rw [rest'] at more
      cases more
    · obtain ⟨last, ends, more⟩ := rest
      obtain ⟨last', ends', more'⟩ := rest'
      rw [more, List.cons.injEq] at more'
      have same : last.toList ++ [] = last'.toList ++ [] := by rw [more'.2]
      exact (cellText_split ends ends' (by simp) (by simp) same).1
  cases first
  cases second
  simp only [Rectangle.mk.injEq]
  exact ⟨top, left, corner.1, corner.2⟩

theorem rangeText_isOk {rectangle : Rectangle}
    (first : OnSheet (rectangle.top, rectangle.left))
    (last : OnSheet (rectangle.bottom, rectangle.right)) :
    ∃ range, rangeText letters rectangle = .ok range := by
  obtain ⟨letter, found⟩ := letters.written _ first.column_pos first.column_le
  obtain ⟨letter', found'⟩ := letters.written _ last.column_pos last.column_le
  rw [rangeText, cellText, cellText, found, found']
  by_cases single : (rectangle.top, rectangle.left) = (rectangle.bottom, rectangle.right)
  · exact ⟨_, if_pos single⟩
  · exact ⟨_, if_neg single⟩

/-- The ranges are disjoint rectangles and their union is the set of the cells. -/
structure Partition (letters : ColumnLetters) (cells : List (Nat × Nat))
    (ranges : List String) : Prop where
  rectangles : ∀ range ∈ ranges, ∃ rectangle : Rectangle, rectangle.Proper ∧
    rangeText letters rectangle = .ok range
  disjoint : ranges.Pairwise fun first second =>
    ∀ cell, ¬ (Covers letters first cell ∧ Covers letters second cell)
  union : ∀ cell, (∃ range ∈ ranges, Covers letters range cell) ↔ cell ∈ cells

theorem covers_iff {rectangle : Rectangle} {range : String} (proper : rectangle.Proper)
    (written : rangeText letters rectangle = .ok range) (cell : Nat × Nat) :
    Covers letters range cell ↔ rectangle.Holds cell := by
  constructor
  · rintro ⟨other, -, same, holds⟩
    rwa [rangeText_injective written same]
  · exact fun holds => ⟨rectangle, proper, written, holds⟩

/-- **The ranges partition the cells, in whatever order these are given.** -/
theorem compactRanges_partition (letters : ColumnLetters) {cells : List (Nat × Nat)}
    (onSheet : ∀ cell ∈ cells, OnSheet cell) :
    ∃ ranges, compactRanges letters cells = .ok ranges ∧ Partition letters cells ranges ∧
      ∀ other, (∀ cell, cell ∈ other ↔ cell ∈ cells) →
        compactRanges letters other = .ok ranges := by
  have proper := proper_rectanglesOf cells
  have listed : ∀ rectangle ∈ rectanglesOf cells, ∀ cell, rectangle.Holds cell → cell ∈ cells := by
    intro rectangle mem cell holds
    have positive : 0 < coverage (rectanglesOf cells) cell :=
      coverage_pos.mpr ⟨rectangle, mem, holds⟩
    rw [coverage_rectanglesOf] at positive
    split_ifs at positive with inside
    · exact inside
    · exact absurd positive (Nat.lt_irrefl 0)
  have each : ∀ rectangle ∈ rectanglesOf cells,
      ∃ range, rangeText letters rectangle = .ok range := fun rectangle mem =>
    rangeText_isOk (onSheet _ (listed rectangle mem _ (proper rectangle mem).holds_first))
      (onSheet _ (listed rectangle mem _ (proper rectangle mem).holds_last))
  choose! range written using each
  have covers : ∀ rectangle ∈ rectanglesOf cells, ∀ cell,
      Covers letters (range rectangle) cell ↔ rectangle.Holds cell := fun rectangle mem =>
    covers_iff (proper rectangle mem) (written rectangle mem)
  refine ⟨(rectanglesOf cells).map range, mapM_of_forall written, ⟨?_, ?_, fun cell => ?_⟩,
    fun other same => ?_⟩
  · intro text mem
    obtain ⟨rectangle, inside, rfl⟩ := List.mem_map.mp mem
    exact ⟨rectangle, proper rectangle inside, written rectangle inside⟩
  · have once : ∀ cell, coverage (rectanglesOf cells) cell ≤ 1 := by
      intro cell
      rw [coverage_rectanglesOf]
      split_ifs <;> omega
    rw [List.pairwise_map]
    refine (pairwise_disjoint once).imp_of_mem fun {first second} mem mem' apart cell both => ?_
    rw [covers first mem, covers second mem'] at both
    exact apart cell both
  · constructor
    · rintro ⟨text, mem, inside⟩
      obtain ⟨rectangle, found, rfl⟩ := List.mem_map.mp mem
      exact listed rectangle found cell ((covers rectangle found cell).mp inside)
    · intro mem
      have positive : 0 < coverage (rectanglesOf cells) cell := by
        rw [coverage_rectanglesOf, if_pos mem]
        exact Nat.one_pos
      obtain ⟨rectangle, found, holds⟩ := coverage_pos.mp positive
      exact ⟨_, List.mem_map_of_mem found, (covers rectangle found cell).mpr holds⟩
  · rw [compactRanges, rectanglesOf_congr same]
    exact mapM_of_forall written

/-- The letters of a column in the order of a spreadsheet, from `A` for 1. -/
def lettersOf : Nat → List Char
  | 0 => []
  | column + 1 => lettersOf (column / 26) ++ [Char.ofNat (65 + column % 26)]

theorem lettersOf_capital (column : Nat) : ∀ c ∈ lettersOf column, c.isUpper = true := by
  have capital : ∀ digit : Fin 26, (Char.ofNat (65 + digit.val)).isUpper = true := by decide
  induction column using lettersOf.induct with
  | case1 => simp [lettersOf]
  | case2 column ih =>
    intro c mem
    rw [lettersOf, List.mem_append, List.mem_singleton] at mem
    rcases mem with front | rfl
    · exact ih c front
    · exact capital ⟨column % 26, Nat.mod_lt _ (by decide)⟩

theorem lettersOf_value (column : Nat) :
    (lettersOf column).foldl (fun value c => value * 26 + (c.toNat - 64)) 0 = column := by
  have digit : ∀ digit : Fin 26, (Char.ofNat (65 + digit.val)).toNat - 64 = digit.val + 1 := by
    decide
  induction column using lettersOf.induct with
  | case1 => simp [lettersOf]
  | case2 column ih =>
    have last := digit ⟨column % 26, Nat.mod_lt _ (by decide)⟩
    rw [lettersOf, List.foldl_append, ih, List.foldl_cons, List.foldl_nil, last]
    simp only
    omega

def spreadsheetLetter (column : Nat) : Except ColumnError String :=
  if 1 ≤ column ∧ column ≤ 18278 then .ok (String.ofList (lettersOf column))
  else .error .invalidIndex

theorem spreadsheetLetter_ok {column : Nat} {text : String}
    (written : spreadsheetLetter column = .ok text) : text.toList = lettersOf column := by
  rw [spreadsheetLetter] at written
  split_ifs at written
  cases written
  exact String.toList_ofList

def spreadsheetLetters : ColumnLetters where
  letter := spreadsheetLetter
  written column positive small := ⟨_, if_pos ⟨positive, by omega⟩⟩
  capital column text written := by
    rw [spreadsheetLetter_ok written]
    exact lettersOf_capital column
  injective column other text written written' := by
    have same := (spreadsheetLetter_ok written).symm.trans (spreadsheetLetter_ok written')
    rw [← lettersOf_value column, same, lettersOf_value]

/-- A hole ends the ranges beside it. -/
theorem compactRanges_partition_hole :
    (∀ cell ∈ [(2, 1), (1, 1), (1, 3), (2, 3), (2, 2)], OnSheet cell) ∧
      ∃ ranges, compactRanges spreadsheetLetters [(2, 1), (1, 1), (1, 3), (2, 3), (2, 2)] =
          .ok ranges ∧
        Partition spreadsheetLetters [(2, 1), (1, 1), (1, 3), (2, 3), (2, 2)] ranges ∧
        ∀ other, (∀ cell, cell ∈ other ↔
            cell ∈ [(2, 1), (1, 1), (1, 3), (2, 3), (2, 2)]) →
          compactRanges spreadsheetLetters other = .ok ranges := by
  have onSheet : ∀ cell ∈ [(2, 1), (1, 1), (1, 3), (2, 3), (2, 2)], OnSheet cell := by
    intro cell mem
    simp only [List.mem_cons, List.not_mem_nil, or_false] at mem
    rcases mem with rfl | rfl | rfl | rfl | rfl <;> exact ⟨by decide, by decide, by decide⟩
  exact ⟨onSheet, compactRanges_partition spreadsheetLetters onSheet⟩

end SkillMind.Agent.CellRanges
