import SkillMind.Schedules.CronGrammar

/-!
# Parsing against the grammar

Each parser is described twice: what it accepts, with the value, and when it ends in the error
of `int`.  Together they give the texts on which the parser does what its grammar says.
-/

namespace SkillMind.Schedules

open Library SkillMind.Core
open Documents (pieces)

section Parsers

variable {tables : DigitTables} {bound : FieldBound}

variable {text : List Char}

theorem parseNumber_eq_ok {value : Nat} :
    parseNumber tables bound text = .ok value ↔
      number tables.decimal text = some value ∧ bound.low ≤ value ∧ value ≤ bound.high := by
  simp only [parseNumber, bind_eq_ok, require_eq_ok, exists_unit, int_eq_ok, Except.ok.injEq]
  constructor
  · rintro ⟨-, value, reads, inside, rfl⟩
    exact ⟨reads, inside⟩
  · rintro ⟨reads, inside⟩
    exact ⟨isdigit_of_number reads, value, reads, inside, rfl⟩

/-- A text that `str.isdigit` lets pass and `int` does not read. -/
def Raw (tables : DigitTables) (text : List Char) : Prop :=
  isdigit tables text = true ∧ number tables.decimal text = none

instance (text : List Char) : Decidable (Raw tables text) := by unfold Raw; infer_instance

theorem parseNumber_raises :
    parseNumber tables bound text = .error .valueError ↔ Raw tables text := by
  simp only [parseNumber, bind_eq_error, require_eq_error, require_eq_ok, FieldBound.fault,
    reduceCtorEq, and_false, false_or, exists_unit, int, orFault_eq_error, orFault_eq_ok,
    and_true, exists_false, or_false, Raw]

def StepReads (tables : DigitTables) (bound : FieldBound) (stepText : List Char) (step : Nat) :
    Prop :=
  (stepText = [] ∧ step = 1) ∨
    (number tables.decimal stepText = some step ∧ 1 ≤ step ∧ step ≤ bound.width)

theorem parseStep_eq_ok {stepText : List Char} {step : Nat} :
    parseStep tables bound stepText = .ok step ↔ StepReads tables bound stepText step := by
  rw [parseStep, StepReads]
  by_cases empty : stepText = []
  · subst empty
    simp [number, eq_comm]
  · simp only [if_neg empty, bind_eq_ok, require_eq_ok, exists_unit, int_eq_ok, Except.ok.injEq]
    constructor
    · rintro ⟨-, step, reads, inside, rfl⟩
      exact Or.inr ⟨reads, inside⟩
    · rintro (⟨absent, -⟩ | ⟨reads, inside⟩)
      · exact absurd absent empty
      · exact ⟨isdigit_of_number reads, step, reads, inside, rfl⟩

theorem parseStep_raises {stepText : List Char} :
    parseStep tables bound stepText = .error .valueError ↔ Raw tables stepText := by
  rw [parseStep]
  by_cases empty : stepText = []
  · subst empty
    simp [Raw, isdigit]
  · simp only [if_neg empty, bind_eq_error, require_eq_error, require_eq_ok, FieldBound.fault,
      reduceCtorEq, and_false, false_or, exists_unit, int, orFault_eq_error, orFault_eq_ok,
      and_true, exists_false, or_false, Raw]

variable {stepped : Bool}

theorem parseBody_eq_ok {body : List Char} {start stop : Nat} :
    parseBody tables bound body stepped = .ok (start, stop) ↔
      Span (parsedDialect tables) bound stepped body start stop := by
  rw [parseBody]
  by_cases star : body = ['*']
  · subst star
    rw [if_pos rfl]
    constructor
    · intro read
      cases read
      exact Span.star stepped
    · intro span
      generalize whole : ['*'] = body at span
      cases span with
      | star => rfl
      | single _ reads =>
        have mem : '*' ∈ body := by rw [← whole]; exact List.mem_singleton_self '*'
        exact absurd mem (number_free reads (parsedDialect tables).star_digit)
      | @between first last =>
        have mem : '-' ∈ ['*'] := by rw [whole]; simp
        exact absurd mem (by decide)
  · rw [if_neg star]
    by_cases dash : '-' ∈ body
    · rw [if_pos dash]
      obtain ⟨whole, free⟩ := partition_spec dash
      simp only [bind_eq_ok, parseNumber_eq_ok, require_eq_ok, exists_unit, Except.ok.injEq,
        Prod.mk.injEq]
      constructor
      · rintro ⟨start, ⟨reads, low, high⟩, stop, ⟨reads', low', high'⟩, ordered, rfl, rfl⟩
        rw [whole]
        exact Span.between stepped reads low high reads' low' high' ordered
      · intro span
        cases span with
        | star => exact absurd rfl star
        | single _ reads =>
          exact absurd dash (number_free reads (parsedDialect tables).dash_digit)
        | between _ reads low high reads' low' high' ordered =>
          rw [partition_append (number_free reads (parsedDialect tables).dash_digit)]
          exact ⟨start, ⟨reads, low, high⟩, stop, ⟨reads', low', high'⟩, ordered, rfl, rfl⟩
    · rw [if_neg dash]
      simp only [bind_eq_ok, parseNumber_eq_ok, Except.ok.injEq, Prod.mk.injEq]
      constructor
      · rintro ⟨start, ⟨reads, low, high⟩, rfl, rfl⟩
        exact Span.single stepped reads low high
      · intro span
        cases span with
        | star => exact absurd rfl star
        | single _ reads low high => exact ⟨start, ⟨reads, low, high⟩, rfl, rfl⟩
        | between => exact absurd (by simp) dash

/-- The first number of a body that is wrong passes `str.isdigit`. -/
def RawBody (tables : DigitTables) (bound : FieldBound) (body : List Char) : Prop :=
  if '-' ∈ body then
    Raw tables (partition '-' body).1 ∨
      (∃ start, number tables.decimal (partition '-' body).1 = some start ∧
        bound.low ≤ start ∧ start ≤ bound.high) ∧ Raw tables (partition '-' body).2
  else Raw tables body

theorem raw_star : ¬ Raw tables ['*'] := by
  rintro ⟨digits, -⟩
  exact absurd digits (by simp [isdigit, DigitTables.digit])

theorem parseBody_raises {body : List Char} :
    parseBody tables bound body stepped = .error .valueError ↔ RawBody tables bound body := by
  rw [parseBody, RawBody]
  by_cases star : body = ['*']
  · subst star
    simp [raw_star]
  · rw [if_neg star]
    by_cases dash : '-' ∈ body
    · simp only [if_pos dash, bind_eq_error, parseNumber_raises, parseNumber_eq_ok,
        require_eq_error, FieldBound.fault, reduceCtorEq, and_false, exists_false, or_false]
      constructor
      · rintro (first | ⟨start, reads, last⟩)
        · exact Or.inl first
        · exact Or.inr ⟨⟨start, reads⟩, last⟩
      · rintro (first | ⟨⟨start, reads⟩, last⟩)
        · exact Or.inl first
        · exact Or.inr ⟨start, reads, last⟩
    · simp only [if_neg dash, bind_eq_error, parseNumber_raises, reduceCtorEq, and_false,
        exists_false, or_false]

variable {dialect : Dialect}

theorem span_free {start stop : Nat}
    (span : Span dialect bound stepped text start stop) : '/' ∉ text := by
  cases span with
  | star => decide
  | single _ reads => exact number_free reads dialect.slash_digit
  | between _ reads _ _ reads' =>
    intro mem
    rcases List.mem_append.mp mem with first | last
    · exact number_free reads dialect.slash_digit first
    · rcases List.mem_cons.mp last with same | last
      · cases same
      · exact number_free reads' dialect.slash_digit last

variable {part : List Char} {values : Finset Nat}

theorem parsePart_eq_ok :
    parsePart tables bound part = .ok values ↔
      Item (parsedDialect tables) bound part values := by
  simp only [parsePart, bind_eq_ok, parseStep_eq_ok, Prod.exists, parseBody_eq_ok,
    Except.ok.injEq]
  constructor
  · rintro ⟨step, steps, start, stop, span, rfl⟩
    rcases steps with ⟨empty, rfl⟩ | ⟨reads, positive, fits⟩
    · rw [range_toFinset (le_refl 1)]
      rw [empty] at span
      by_cases slash : '/' ∈ part
      · have whole := (partition_spec slash).1
        rw [empty] at whole
        rw [whole]
        exact Item.bare trivial span
      · rw [partition_free slash] at span
        exact Item.plain span
    · rw [range_toFinset positive]
      have present : (!(partition '/' part).2.isEmpty) = true := by
        simpa using number_present reads
      rw [present] at span
      have slash : '/' ∈ part := by
        by_contra free
        exact number_present reads (by rw [partition_free free])
      rw [(partition_spec slash).1]
      exact Item.stepped span reads positive fits
  · intro item
    cases item with
    | @plain _ start stop span =>
      rw [partition_free (span_free span)]
      exact ⟨1, Or.inl ⟨rfl, rfl⟩, start, stop, span, range_toFinset (le_refl 1)⟩
    | @stepped text stepText start stop step span reads positive fits =>
      rw [partition_append (span_free span)]
      have present : (!stepText.isEmpty) = true := by simpa using number_present reads
      simp only [present]
      exact ⟨step, Or.inr ⟨reads, positive, fits⟩, start, stop, span, range_toFinset positive⟩
    | @bare text start stop _ span =>
      rw [partition_append (span_free span)]
      exact ⟨1, Or.inl ⟨rfl, rfl⟩, start, stop, span, range_toFinset (le_refl 1)⟩

/-- The first number of an item that is wrong passes `str.isdigit`; the step is read first. -/
def RawItem (tables : DigitTables) (bound : FieldBound) (part : List Char) : Prop :=
  Raw tables (partition '/' part).2 ∨
    (∃ step, StepReads tables bound (partition '/' part).2 step) ∧
      RawBody tables bound (partition '/' part).1

theorem parsePart_raises :
    parsePart tables bound part = .error .valueError ↔ RawItem tables bound part := by
  simp only [parsePart, bind_eq_error, parseStep_raises, parseStep_eq_ok, parseBody_raises,
    reduceCtorEq, and_false, exists_false, or_false, RawItem]
  constructor
  · rintro (stepText | ⟨step, reads, body⟩)
    · exact Or.inl stepText
    · exact Or.inr ⟨⟨step, reads⟩, body⟩
  · rintro (stepText | ⟨⟨step, reads⟩, body⟩)
    · exact Or.inl stepText
    · exact Or.inr ⟨step, reads, body⟩

/-! ## Fields -/

theorem span_ordered {start stop : Nat}
    (span : Span dialect bound stepped text start stop) : start ≤ stop := by
  cases span with
  | star => exact bound.ordered
  | single _ _ _ high =>
    split
    · exact high
    · exact le_refl start
  | between _ _ _ _ _ _ _ ordered => exact ordered

theorem span_present {start stop : Nat}
    (span : Span dialect bound stepped text start stop) : text ≠ [] := by
  cases span with
  | star => exact List.cons_ne_nil _ _
  | single _ reads => exact number_present reads
  | between => simp

theorem item_nonempty
    (item : Item dialect bound part values) : values ≠ ∅ := by
  cases item with
  | plain span => exact progression_nonempty (span_ordered span)
  | stepped span => exact progression_nonempty (span_ordered span)
  | bare _ span => exact progression_nonempty (span_ordered span)

theorem item_present
    (item : Item dialect bound part values) : part ≠ [] := by
  cases item with
  | plain span => exact span_present span
  | stepped => simp
  | bare => simp

theorem pieces_present (text : List Char) : pieces text ≠ [] := by
  cases text with
  | nil => exact List.cons_ne_nil _ _
  | cons c rest =>
    rw [pieces]
    split
    · exact List.cons_ne_nil _ _
    · split
      · exact List.cons_ne_nil _ _
      · exact List.cons_ne_nil _ _

theorem subset_joined {sets : List (Finset Nat)} (mem : values ∈ sets) :
    values ⊆ joined sets := by
  induction sets with
  | nil => cases mem
  | cons first rest ih =>
    rcases List.mem_cons.mp mem with rfl | later
    · exact Finset.subset_union_left
    · exact (ih later).trans Finset.subset_union_right

theorem parseField_eq_ok {field : List Char} :
    parseField tables bound field = .ok values ↔
      Field (parsedDialect tables) bound field values := by
  simp only [parseField, bind_eq_ok, require_eq_ok, exists_unit, mapM_eq_ok_iff, parsePart_eq_ok,
    Except.ok.injEq, Field]
  constructor
  · rintro ⟨-, sets, items, -, rfl⟩
    exact ⟨sets, items, rfl⟩
  · rintro ⟨sets, items, rfl⟩
    refine ⟨?_, sets, items, ?_, rfl⟩
    · rintro rfl
      cases items with
      | cons item _ => exact item_present item rfl
    · intro empty
      obtain ⟨first, rest, whole⟩ := List.exists_cons_of_ne_nil (pieces_present field)
      rw [whole] at items
      cases items with
      | @cons _ values _ sets item _ =>
        have inside : values ⊆ joined (values :: sets) := subset_joined List.mem_cons_self
        rw [empty] at inside
        exact item_nonempty item (Finset.subset_empty.mp inside)

/-- The items of a field are read up to one that passes `str.isdigit` where it should not. -/
def RawField (tables : DigitTables) (bound : FieldBound) (field : List Char) : Prop :=
  ∃ before part behind, pieces field = before ++ part :: behind ∧
    (∀ other ∈ before, ∃ values, Item (parsedDialect tables) bound other values) ∧
    RawItem tables bound part

theorem rawItem_present (raw : RawItem tables bound part) : part ≠ [] := by
  rintro rfl
  rcases raw with ⟨digits, -⟩ | ⟨-, body⟩
  · cases digits
  · rw [RawBody, partition_free List.not_mem_nil, if_neg List.not_mem_nil] at body
    cases body.1

theorem parseField_raises {field : List Char} :
    parseField tables bound field = .error .valueError ↔ RawField tables bound field := by
  simp only [parseField, bind_eq_error, require_eq_error, require_eq_ok, exists_unit,
    mapM_eq_error, parsePart_raises, parsePart_eq_ok, FieldBound.fault, reduceCtorEq, and_false,
    false_or, exists_false, or_false]
  constructor
  · rintro ⟨-, raw⟩
    exact raw
  · rintro ⟨before, part, behind, whole, read, raw⟩
    refine ⟨?_, before, part, behind, whole, read, raw⟩
    rintro rfl
    have single : part ∈ pieces [] := by rw [whole]; simp
    exact rawItem_present raw (List.mem_singleton.mp single)

theorem parseCron_eq_ok {expression : CronExpression} :
    parseCron tables text = .ok expression ↔ Denotes (parsedDialect tables) text expression := by
  simp only [parseCron, bind_eq_ok, require_eq_ok, exists_unit, mapM_eq_ok_iff, parseField_eq_ok,
    Except.ok.injEq]
  constructor
  · rintro ⟨short, five, values, fields, rfl⟩
    exact ⟨short, five, values, fields, rfl⟩
  · rintro ⟨short, five, values, fields, rfl⟩
    exact ⟨short, five, values, fields, rfl⟩

/-- Five fields are read up to one that passes `str.isdigit` where it should not. -/
structure Escapes (tables : DigitTables) (text : List Char) : Prop where
  short : text.length ≤ maxExpressionLength
  five : (words text).length = 5
  first : ∃ before field behind, (words text).zip fieldBounds = before ++ field :: behind ∧
    (∀ other ∈ before, ∃ values, Field (parsedDialect tables) other.2 other.1 values) ∧
    RawField tables field.2 field.1

theorem parseCron_raises :
    parseCron tables text = .error .valueError ↔ Escapes tables text := by
  simp only [parseCron, bind_eq_error, require_eq_error, require_eq_ok, exists_unit,
    mapM_eq_error, parseField_raises, parseField_eq_ok, reduceCtorEq, and_false, false_or,
    exists_false, or_false]
  constructor
  · rintro ⟨short, five, first⟩
    exact ⟨short, five, first⟩
  · rintro ⟨short, five, first⟩
    exact ⟨short, five, first⟩

end Parsers

end SkillMind.Schedules
