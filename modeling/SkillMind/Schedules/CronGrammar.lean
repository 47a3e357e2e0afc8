import Mathlib.Order.Interval.Finset.Nat
import SkillMind.Schedules.Cron

/-!
# The grammar of cron expressions

An item is `*`, `n` or `a-b`, or one of these with a step behind a slash.  The grammar is stated
once for a dialect: which characters are digits, whether a slash may stand with no step behind
it, and how long a step may be.  The ASCII dialect is the grammar the parser is meant for; the
parser itself is shown to read a dialect that differs from it in all three respects, and to let
`int` raise its own error on digits that are not decimal.
-/

namespace SkillMind.Schedules

open Library SkillMind.Core
open Documents (pieces)

structure Dialect where
  digit : Char → Option Nat
  /-- Whether a slash may have nothing behind it. -/
  bareSlash : Prop
  /-- The steps a field of that many values may have. -/
  fits : Nat → Nat → Prop
  star_digit : digit '*' = none
  slash_digit : digit '/' = none
  dash_digit : digit '-' = none

/-- The grammar: ASCII numbers, a number behind every slash, any positive step. -/
def asciiDialect : Dialect where
  digit := asciiValue
  bareSlash := False
  fits _ _ := True
  star_digit := rfl
  slash_digit := rfl
  dash_digit := rfl

/-- What the parser reads: any decimal digit, a slash alone, steps up to the width of the field. -/
def parsedDialect (tables : DigitTables) : Dialect where
  digit := tables.decimal
  bareSlash := True
  fits width step := step ≤ width
  star_digit := rfl
  slash_digit := rfl
  dash_digit := rfl

/-- The values from `start` to `stop` in steps of `step`. -/
def progression (start stop step : Nat) : Finset Nat :=
  (Finset.Icc start stop).filter fun value => step ∣ value - start

section Grammar

variable (dialect : Dialect) (bound : FieldBound)

/-- The text of an item without its step, its first and its last value; a number runs to the
end of the field exactly when a step follows. -/
inductive Span : Bool → List Char → Nat → Nat → Prop
  | star (stepped : Bool) : Span stepped ['*'] bound.low bound.high
  | single {text : List Char} {start : Nat} (stepped : Bool)
      (reads : number dialect.digit text = some start) (low : bound.low ≤ start)
      (high : start ≤ bound.high) :
      Span stepped text start (if stepped = true then bound.high else start)
  | between {first last : List Char} {start stop : Nat} (stepped : Bool)
      (reads : number dialect.digit first = some start) (low : bound.low ≤ start)
      (high : start ≤ bound.high) (reads' : number dialect.digit last = some stop)
      (low' : bound.low ≤ stop) (high' : stop ≤ bound.high) (ordered : start ≤ stop) :
      Span stepped (first ++ '-' :: last) start stop

inductive Item : List Char → Finset Nat → Prop
  | plain {text : List Char} {start stop : Nat} (span : Span dialect bound false text start stop) :
      Item text (progression start stop 1)
  | stepped {text stepText : List Char} {start stop step : Nat}
      (span : Span dialect bound true text start stop)
      (reads : number dialect.digit stepText = some step) (positive : 1 ≤ step)
      (fits : dialect.fits bound.width step) :
      Item (text ++ '/' :: stepText) (progression start stop step)
  | bare {text : List Char} {start stop : Nat} (allowed : dialect.bareSlash)
      (span : Span dialect bound false text start stop) :
      Item (text ++ ['/']) (progression start stop 1)

/-- A comma list of items, and all their values. -/
def Field (text : List Char) (values : Finset Nat) : Prop :=
  ∃ sets, List.Forall₂ (Item dialect bound) (pieces text) sets ∧ values = joined sets

/-- A line of the grammar and the expression it stands for. -/
structure Denotes (text : List Char) (expression : CronExpression) : Prop where
  short : text.length ≤ maxExpressionLength
  five : (words text).length = 5
  fields : ∃ values, List.Forall₂ (fun field set => Field dialect field.2 field.1 set)
    ((words text).zip fieldBounds) values ∧ expression = expressionOf (words text) values

end Grammar

theorem mem_progression {start stop step value : Nat} :
    value ∈ progression start stop step ↔
      start ≤ value ∧ value ≤ stop ∧ ∃ count, value = start + count * step := by
  simp only [progression, Finset.mem_filter, Finset.mem_Icc]
  constructor
  · rintro ⟨⟨low, high⟩, count, times⟩
    refine ⟨low, high, count, ?_⟩
    rw [Nat.mul_comm, ← times]
    omega
  · rintro ⟨low, high, count, rfl⟩
    refine ⟨⟨low, high⟩, count, ?_⟩
    rw [Nat.add_sub_cancel_left, Nat.mul_comm]

theorem range_toFinset {start stop step : Nat} (positive : 1 ≤ step) :
    (range start (stop + 1) step).toFinset = progression start stop step := by
  ext value
  rw [List.mem_toFinset, range, List.mem_range', mem_progression]
  have counted : ∀ index, index < (stop + 1 - start + (step - 1)) / step ↔
      start + step * index ≤ stop := by
    intro index
    rw [Nat.lt_div_iff_mul_lt (by omega)]
    have product : index * step = step * index := Nat.mul_comm index step
    constructor
    · intro less
      omega
    · intro least
      omega
  constructor
  · rintro ⟨index, inside, rfl⟩
    rw [counted] at inside
    exact ⟨Nat.le_add_right _ _, inside, index, by rw [Nat.mul_comm]⟩
  · rintro ⟨-, high, count, rfl⟩
    refine ⟨count, ?_, by rw [Nat.mul_comm]⟩
    rw [counted, Nat.mul_comm]
    exact high

theorem progression_nonempty {start stop step : Nat} (ordered : start ≤ stop) :
    progression start stop step ≠ ∅ := by
  apply Finset.ne_empty_of_mem (a := start)
  rw [mem_progression]
  exact ⟨le_refl start, ordered, 0, by omega⟩

theorem partition_append {mark : Char} {before : List Char} (free : mark ∉ before)
    (behind : List Char) : partition mark (before ++ mark :: behind) = (before, behind) := by
  have plain : ∀ c ∈ before, (c != mark) = true := by
    intro c mem
    simp only [bne_iff_ne, ne_eq]
    rintro rfl
    exact free mem
  rw [partition, List.takeWhile_append_of_pos plain, List.dropWhile_append_of_pos plain]
  simp

theorem partition_free {mark : Char} {text : List Char} (free : mark ∉ text) :
    partition mark text = (text, []) := by
  have plain : ∀ c ∈ text, (c != mark) = true := by
    intro c mem
    simp only [bne_iff_ne, ne_eq]
    rintro rfl
    exact free mem
  rw [partition, List.takeWhile_eq_self_iff.mpr plain, List.dropWhile_eq_nil_iff.mpr plain]
  rfl

theorem partition_spec {mark : Char} {text : List Char} (mem : mark ∈ text) :
    text = (partition mark text).1 ++ mark :: (partition mark text).2 ∧
      mark ∉ (partition mark text).1 := by
  obtain ⟨before, behind, rfl, free⟩ := List.eq_append_cons_of_mem mem
  rw [partition_append free]
  exact ⟨rfl, free⟩

section Numbers

variable {digit : Char → Option Nat}

variable {text : List Char}

theorem digitsFrom_digit {total value : Nat}
    (reads : digitsFrom digit total text = some value) : ∀ c ∈ text, (digit c).isSome = true := by
  induction text generalizing total with
  | nil => exact fun _ mem => (by cases mem)
  | cons c rest ih =>
    rw [digitsFrom] at reads
    cases known : digit c with
    | none => simp [known] at reads
    | some first =>
      rw [known] at reads
      intro c' mem
      rcases List.mem_cons.mp mem with rfl | later
      · rw [known, Option.isSome_some]
      · exact ih reads c' later

theorem digitsFrom_congr {digit' : Char → Option Nat}
    (same : ∀ c ∈ text, digit c = digit' c) (total : Nat) :
    digitsFrom digit total text = digitsFrom digit' total text := by
  induction text generalizing total with
  | nil => rfl
  | cons c rest ih =>
    rw [digitsFrom, digitsFrom, same c List.mem_cons_self]
    cases digit' c with
    | none => rfl
    | some value => exact ih (fun c' mem => same c' (List.mem_cons_of_mem c mem)) _

theorem number_present {value : Nat}
    (reads : number digit text = some value) : text ≠ [] := by
  intro empty
  rw [number, if_pos empty] at reads
  cases reads

theorem number_digit {value : Nat} (reads : number digit text = some value) :
    ∀ c ∈ text, (digit c).isSome = true := by
  have present := number_present reads
  rw [number, if_neg present] at reads
  exact digitsFrom_digit reads

theorem number_congr {digit' : Char → Option Nat}
    (same : ∀ c ∈ text, digit c = digit' c) : number digit text = number digit' text := by
  rw [number, number, digitsFrom_congr same]

theorem number_free {value : Nat} (reads : number digit text = some value)
    {mark : Char} (none : digit mark = none) : mark ∉ text := by
  intro mem
  have known := number_digit reads mark mem
  rw [none] at known
  cases known

end Numbers

section Tables

variable {tables : DigitTables}

theorem DigitTables.decimal_isDigit {c : Char} (known : (tables.decimal c).isSome = true) :
    tables.digit c = true := by
  rw [DigitTables.decimal] at known
  rw [DigitTables.digit]
  split at known
  · rename_i ascii
    rw [if_pos ascii]
    rw [asciiValue] at known
    split at known
    · assumption
    · cases known
  · rename_i foreign
    rw [if_neg foreign]
    obtain ⟨value, reads⟩ := Option.isSome_iff_exists.mp known
    exact tables.decimal_digit c value reads

theorem isdigit_of_number {text : List Char} {value : Nat}
    (reads : number tables.decimal text = some value) : isdigit tables text = true := by
  rw [isdigit, Bool.and_eq_true]
  constructor
  · simpa using number_present reads
  · rw [List.all_eq_true]
    intro c mem
    exact DigitTables.decimal_isDigit (number_digit reads c mem)

theorem int_eq_ok {text : List Char} {value : Nat} :
    int tables text = .ok value ↔ number tables.decimal text = some value := by
  rw [int, orFault_eq_ok]

end Tables

end SkillMind.Schedules
