import SkillMind.Schedules.CronParsing

/-!
# Where the parser keeps its grammar

The parser reads its own dialect, so it keeps the ASCII grammar on a text exactly when both
dialects agree about the text and `int` is not called on digits it cannot read.  What the two
dialects differ in is said in terms of the text: a slash at the end of an item, a decimal digit
of another script, a step longer than its field.

The bound on the step is a guard of the parser.  With it in the grammar, every line of the
grammar is read, and what else is read has a slash at the end of an item or a digit of another
script.
-/

namespace SkillMind.Schedules

open Library SkillMind.Core
open Documents (pieces)

/-- The parser accepts the lines of the grammar with the sets they denote, and refuses every
other text with its own error. -/
def Exact (tables : DigitTables) (text : List Char) : Prop :=
  (∀ expression, parseCron tables text = .ok expression ↔
      Denotes asciiDialect text expression) ∧
    ∀ fault, parseCron tables text = .error fault → ∃ message,
      fault = .cronExpressionError message

/-- A decimal digit of another script. -/
def Foreign (tables : DigitTables) (c : Char) : Prop :=
  128 ≤ c.toNat ∧ (tables.foreignDecimal c).isSome = true

/-- The grammar with the guard of the parser: no step is longer than its field. -/
def guardedDialect : Dialect := { asciiDialect with fits := fun width step => step ≤ width }

def boundedFields (text : List Char) : List (List Char × FieldBound) :=
  (words text).zip fieldBounds

/-- The text stays clear of the three points in which the parser leaves its grammar. -/
structure Clear (tables : DigitTables) (text : List Char) : Prop where
  /-- A line that is read has no slash at the end of an item and no digit of another script. -/
  strict : ∀ expression, Denotes (parsedDialect tables) text expression →
    ∀ field ∈ boundedFields text, ∀ part ∈ pieces field.1,
      part.getLast? ≠ some '/' ∧ ∀ c ∈ part, ¬ Foreign tables c
  /-- A line of the grammar has no step longer than its field. -/
  narrow : ∀ expression, Denotes asciiDialect text expression →
    ∀ field ∈ boundedFields text, ∀ part ∈ pieces field.1, ∀ step,
      number asciiValue (partition '/' part).2 = some step → step ≤ field.2.width
  /-- The first wrong number is not one that `str.isdigit` lets pass. -/
  decimal : ¬ Escapes tables text

section Digits

variable {tables : DigitTables}

theorem asciiValue_small {c : Char} (known : (asciiValue c).isSome = true) : c.toNat < 128 := by
  rw [asciiValue] at known
  split at known
  · rename_i digit
    simp only [Char.isDigit, Bool.and_eq_true, decide_eq_true_eq, UInt32.le_iff_toNat_le] at digit
    have last : c.toNat ≤ 57 := digit.2
    omega
  · cases known

theorem decimal_of_ascii {c : Char} (known : (asciiValue c).isSome = true) :
    asciiValue c = tables.decimal c := by
  rw [DigitTables.decimal, if_pos (asciiValue_small known)]

theorem decimal_of_not_foreign {c : Char} (plain : ¬ Foreign tables c) :
    tables.decimal c = asciiValue c := by
  rw [DigitTables.decimal]
  split
  · rfl
  · rename_i large
    have unread : tables.foreignDecimal c = none := by
      cases known : tables.foreignDecimal c with
      | none => rfl
      | some value => exact absurd ⟨by omega, by rw [known, Option.isSome_some]⟩ plain
    rw [unread]
    cases known : asciiValue c with
    | none => rfl
    | some value => exact absurd (asciiValue_small (by rw [known, Option.isSome_some])) large

theorem number_of_ascii {text : List Char} {value : Nat}
    (reads : number asciiValue text = some value) : number tables.decimal text = some value := by
  rw [← reads]
  apply number_congr
  intro c mem
  exact (decimal_of_ascii (number_digit reads c mem)).symm

theorem number_of_plain {text : List Char} {value : Nat}
    (reads : number tables.decimal text = some value) (plain : ∀ c ∈ text, ¬ Foreign tables c) :
    number asciiValue text = some value := by
  rw [← reads]
  apply number_congr
  intro c mem
  exact (decimal_of_not_foreign (plain c mem)).symm

theorem not_foreign_of_ascii {text : List Char} {value : Nat}
    (reads : number asciiValue text = some value) : ∀ c ∈ text, ¬ Foreign tables c := by
  intro c mem foreign
  have small := asciiValue_small (number_digit reads c mem)
  have large := foreign.1
  omega

theorem not_foreign_of_small {c : Char} (small : c.toNat < 128) : ¬ Foreign tables c := by
  intro foreign
  have large := foreign.1
  omega

end Digits

/-! ## Items of the two dialects -/

section Items

variable {tables : DigitTables} {bound : FieldBound}

variable {stepped : Bool} {text : List Char}

theorem span_ascii {start stop : Nat}
    (span : Span (parsedDialect tables) bound stepped text start stop)
    (plain : ∀ c ∈ text, ¬ Foreign tables c) :
    Span asciiDialect bound stepped text start stop := by
  cases span with
  | star => exact Span.star stepped
  | single _ reads low high => exact Span.single stepped (number_of_plain reads plain) low high
  | between _ reads low high reads' low' high' ordered =>
    refine Span.between stepped ?_ low high ?_ low' high' ordered
    · apply number_of_plain reads
      intro c mem
      exact plain c (List.mem_append_left _ mem)
    · apply number_of_plain reads'
      intro c mem
      exact plain c (List.mem_append_right _ (List.mem_cons_of_mem _ mem))

theorem span_parsed {start stop : Nat}
    (span : Span asciiDialect bound stepped text start stop) :
    Span (parsedDialect tables) bound stepped text start stop := by
  cases span with
  | star => exact Span.star stepped
  | single _ reads low high => exact Span.single stepped (number_of_ascii reads) low high
  | between _ reads low high reads' low' high' ordered =>
    exact Span.between stepped (number_of_ascii reads) low high (number_of_ascii reads') low'
      high' ordered

theorem span_not_foreign {start stop : Nat}
    (span : Span asciiDialect bound stepped text start stop) :
    ∀ c ∈ text, ¬ Foreign tables c := by
  cases span with
  | star =>
    intro c mem
    rw [List.mem_singleton.mp mem]
    exact not_foreign_of_small (by decide)
  | single _ reads => exact not_foreign_of_ascii reads
  | between _ reads _ _ reads' =>
    intro c mem
    rcases List.mem_append.mp mem with first | last
    · exact not_foreign_of_ascii reads c first
    · rcases List.mem_cons.mp last with rfl | last
      · exact not_foreign_of_small (by decide)
      · exact not_foreign_of_ascii reads' c last

theorem span_guarded {start stop : Nat}
    (span : Span asciiDialect bound stepped text start stop) :
    Span guardedDialect bound stepped text start stop := by
  cases span with
  | star => exact Span.star stepped
  | single _ reads low high => exact Span.single stepped reads low high
  | between _ reads low high reads' low' high' ordered =>
    exact Span.between stepped reads low high reads' low' high' ordered

theorem guarded_span {start stop : Nat}
    (span : Span guardedDialect bound stepped text start stop) :
    Span asciiDialect bound stepped text start stop := by
  cases span with
  | star => exact Span.star stepped
  | single _ reads low high => exact Span.single stepped reads low high
  | between _ reads low high reads' low' high' ordered =>
    exact Span.between stepped reads low high reads' low' high' ordered

variable {part : List Char} {values : Finset Nat}

theorem item_ascii
    (item : Item (parsedDialect tables) bound part values) (closed : part.getLast? ≠ some '/')
    (plain : ∀ c ∈ part, ¬ Foreign tables c) : Item asciiDialect bound part values := by
  cases item with
  | plain span => exact Item.plain (span_ascii span plain)
  | stepped span reads positive =>
    refine Item.stepped (span_ascii span ?_) (number_of_plain reads ?_) positive trivial
    · intro c mem
      exact plain c (List.mem_append_left _ mem)
    · intro c mem
      exact plain c (List.mem_append_right _ (List.mem_cons_of_mem _ mem))
  | bare => exact absurd (by simp) closed

theorem item_parsed
    (item : Item asciiDialect bound part values)
    (narrow : ∀ step, number asciiValue (partition '/' part).2 = some step →
      step ≤ bound.width) : Item (parsedDialect tables) bound part values := by
  cases item with
  | plain span => exact Item.plain (span_parsed span)
  | stepped span reads positive =>
    rw [partition_append (span_free span)] at narrow
    exact Item.stepped (span_parsed span) (number_of_ascii reads) positive (narrow _ reads)
  | bare allowed => exact allowed.elim

theorem item_clean
    (item : Item asciiDialect bound part values) :
    part.getLast? ≠ some '/' ∧ ∀ c ∈ part, ¬ Foreign tables c := by
  cases item with
  | plain span =>
    refine ⟨?_, span_not_foreign span⟩
    intro slash
    exact span_free span (List.mem_of_getLast? slash)
  | @stepped text stepText start stop step span reads =>
    constructor
    · intro slash
      obtain ⟨c, rest, rfl⟩ := List.exists_cons_of_ne_nil (number_present reads)
      rw [List.getLast?_append_of_ne_nil _ (List.cons_ne_nil _ _),
        List.getLast?_cons_cons] at slash
      exact number_free reads asciiDialect.slash_digit (List.mem_of_getLast? slash)
    · intro c mem
      rcases List.mem_append.mp mem with first | last
      · exact span_not_foreign span c first
      · rcases List.mem_cons.mp last with rfl | last
        · exact not_foreign_of_small (by decide)
        · exact not_foreign_of_ascii reads c last
  | bare allowed => exact allowed.elim

theorem item_guarded
    (item : Item asciiDialect bound part values)
    (narrow : ∀ step, number asciiValue (partition '/' part).2 = some step →
      step ≤ bound.width) : Item guardedDialect bound part values := by
  cases item with
  | plain span => exact Item.plain (span_guarded span)
  | stepped span reads positive =>
    rw [partition_append (span_free span)] at narrow
    exact Item.stepped (span_guarded span) reads positive (narrow _ reads)
  | bare allowed => exact allowed.elim

theorem guarded_item
    (item : Item guardedDialect bound part values) :
    Item (parsedDialect tables) bound part values := by
  cases item with
  | plain span => exact Item.plain (span_parsed (guarded_span span))
  | stepped span reads positive fits =>
    exact Item.stepped (span_parsed (guarded_span span)) (number_of_ascii reads) positive fits
  | bare allowed => exact allowed.elim

theorem item_narrow
    (item : Item (parsedDialect tables) bound part values) {step : Nat}
    (reads : number asciiValue (partition '/' part).2 = some step) : step ≤ bound.width := by
  cases item with
  | plain span =>
    rw [partition_free (span_free span)] at reads
    cases reads
  | stepped span reads' _ fits =>
    rw [partition_append (span_free span)] at reads
    have same : number tables.decimal _ = some step := number_of_ascii reads
    rw [Option.some.inj (same.symm.trans reads')]
    exact fits
  | bare _ span =>
    rw [partition_append (span_free span)] at reads
    cases reads

end Items

theorem forall₂_exists {α β : Type} {related : α → β → Prop} {xs : List α} {ys : List β}
    (each : List.Forall₂ related xs ys) : ∀ x ∈ xs, ∃ y, related x y := by
  induction each with
  | nil => exact fun _ mem => (by cases mem)
  | cons head _ ih =>
    intro x mem
    rcases List.mem_cons.mp mem with rfl | later
    · exact ⟨_, head⟩
    · exact ih x later

theorem Denotes.items {dialect : Dialect} {text : List Char} {expression : CronExpression}
    (denotes : Denotes dialect text expression) :
    ∀ field ∈ boundedFields text, ∀ part ∈ pieces field.1,
      ∃ values, Item dialect field.2 part values := by
  obtain ⟨values, fields, -⟩ := denotes.fields
  intro field mem part inside
  obtain ⟨set, sets, items, -⟩ := forall₂_exists fields field mem
  exact forall₂_exists items part inside

theorem Denotes.transfer {dialect dialect' : Dialect} {text : List Char}
    {expression : CronExpression} (denotes : Denotes dialect text expression)
    (items : ∀ field ∈ boundedFields text, ∀ part ∈ pieces field.1, ∀ values,
      Item dialect field.2 part values → Item dialect' field.2 part values) :
    Denotes dialect' text expression := by
  obtain ⟨values, fields, same⟩ := denotes.fields
  refine ⟨denotes.short, denotes.five, values, ?_, same⟩
  refine ((List.forall₂_and_left _ _).mpr ⟨items, fields⟩).imp ?_
  rintro field set ⟨carried, sets, each, rfl⟩
  exact ⟨sets, ((List.forall₂_and_left _ _).mpr ⟨carried, each⟩).imp fun part values both =>
    both.1 values both.2, rfl⟩

theorem exact_iff_clear (tables : DigitTables) (text : List Char) :
    Exact tables text ↔ Clear tables text := by
  constructor
  · rintro ⟨accepts, refuses⟩
    constructor
    · intro expression denotes field mem part inside
      have grammar := (accepts expression).mp (parseCron_eq_ok.mpr denotes)
      obtain ⟨values, item⟩ := grammar.items field mem part inside
      exact item_clean item
    · intro expression grammar field mem part inside step reads
      have denotes := parseCron_eq_ok.mp ((accepts expression).mpr grammar)
      obtain ⟨values, item⟩ := denotes.items field mem part inside
      exact item_narrow item reads
    · intro escapes
      obtain ⟨message, own⟩ := refuses .valueError (parseCron_raises.mpr escapes)
      cases own
  · intro clear
    constructor
    · intro expression
      rw [parseCron_eq_ok]
      constructor
      · intro denotes
        apply denotes.transfer
        intro field mem part inside values item
        obtain ⟨closed, plain⟩ := clear.strict expression denotes field mem part inside
        exact item_ascii item closed plain
      · intro grammar
        apply grammar.transfer
        intro field mem part inside values item
        exact item_parsed item (clear.narrow expression grammar field mem part inside)
    · intro fault raised
      cases fault with
      | cronExpressionError message => exact ⟨message, rfl⟩
      | valueError => exact absurd (parseCron_raises.mp raised) clear.decimal

/-! ## Digits that are not decimal -/

section Undecimal

variable {tables : DigitTables} {bound : FieldBound}

/-- A character of which `str.isdigit` holds and that `int` does not read. -/
def Undecimal (tables : DigitTables) (c : Char) : Prop :=
  tables.digit c = true ∧ tables.decimal c = none

variable {text : List Char}

theorem digitsFrom_isSome {digit : Char → Option Nat}
    (all : ∀ c ∈ text, (digit c).isSome = true) (total : Nat) :
    (digitsFrom digit total text).isSome = true := by
  induction text generalizing total with
  | nil => rfl
  | cons c rest ih =>
    obtain ⟨value, known⟩ := Option.isSome_iff_exists.mp (all c List.mem_cons_self)
    rw [digitsFrom, known]
    exact ih (fun c' mem => all c' (List.mem_cons_of_mem c mem)) _

theorem raw_undecimal (raw : Raw tables text) :
    ∃ c ∈ text, Undecimal tables c := by
  obtain ⟨digits, unread⟩ := raw
  rw [isdigit, Bool.and_eq_true, List.all_eq_true] at digits
  have present : text ≠ [] := by simpa using digits.1
  by_contra none
  have all : ∀ c ∈ text, (tables.decimal c).isSome = true := by
    intro c mem
    cases known : tables.decimal c with
    | none => exact absurd ⟨c, mem, digits.2 c mem, known⟩ none
    | some value => rfl
  have read := digitsFrom_isSome all 0
  rw [number, if_neg present] at unread
  rw [unread] at read
  cases read

theorem partition_fst {mark c : Char} (mem : c ∈ (partition mark text).1) :
    c ∈ text := (List.takeWhile_sublist _).subset mem

theorem partition_snd {mark c : Char} (mem : c ∈ (partition mark text).2) :
    c ∈ text := (List.dropWhile_sublist _).subset (List.mem_of_mem_drop mem)

theorem rawBody_undecimal {body : List Char} (raw : RawBody tables bound body) :
    ∃ c ∈ body, Undecimal tables c := by
  rw [RawBody] at raw
  split at raw
  · rcases raw with first | ⟨-, last⟩
    · obtain ⟨c, mem, undecimal⟩ := raw_undecimal first
      exact ⟨c, partition_fst mem, undecimal⟩
    · obtain ⟨c, mem, undecimal⟩ := raw_undecimal last
      exact ⟨c, partition_snd mem, undecimal⟩
  · exact raw_undecimal raw

theorem rawItem_undecimal {part : List Char} (raw : RawItem tables bound part) :
    ∃ c ∈ part, Undecimal tables c := by
  rcases raw with stepText | ⟨-, body⟩
  · obtain ⟨c, mem, undecimal⟩ := raw_undecimal stepText
    exact ⟨c, partition_snd mem, undecimal⟩
  · obtain ⟨c, mem, undecimal⟩ := rawBody_undecimal body
    exact ⟨c, partition_fst mem, undecimal⟩

theorem Escapes.undecimal (escapes : Escapes tables text) :
    ∃ field ∈ boundedFields text, ∃ part ∈ pieces field.1, ∃ c ∈ part, Undecimal tables c := by
  obtain ⟨before, field, behind, whole, -, before', part, behind', whole', -, raw⟩ :=
    escapes.first
  refine ⟨field, ?_, part, ?_, rawItem_undecimal raw⟩
  · rw [boundedFields, whole]
    exact List.mem_append_right _ List.mem_cons_self
  · rw [whole']
    exact List.mem_append_right _ List.mem_cons_self

end Undecimal

/-- Every line of the guarded grammar is read with the sets it denotes.  What else is read has
an item that ends in a slash or a digit of another script, and what is refused is refused with
the error of the parser unless it has a digit that is not decimal. -/
theorem cron_parsed (tables : DigitTables) (text : List Char) :
    (∀ expression, Denotes guardedDialect text expression →
      parseCron tables text = .ok expression) ∧
    (∀ expression, parseCron tables text = .ok expression →
      Denotes guardedDialect text expression ∨ ∃ field ∈ boundedFields text,
        ∃ part ∈ pieces field.1, part.getLast? = some '/' ∨ ∃ c ∈ part, Foreign tables c) ∧
    ∀ fault, parseCron tables text = .error fault →
      (∃ message, fault = .cronExpressionError message) ∨ ∃ field ∈ boundedFields text,
        ∃ part ∈ pieces field.1, ∃ c ∈ part, Undecimal tables c := by
  refine ⟨?_, ?_, ?_⟩
  · intro expression grammar
    rw [parseCron_eq_ok]
    apply grammar.transfer
    intro field _ part _ values item
    exact guarded_item item
  · intro expression read
    have denotes := parseCron_eq_ok.mp read
    by_cases loose : ∃ field ∈ boundedFields text, ∃ part ∈ pieces field.1,
        part.getLast? = some '/' ∨ ∃ c ∈ part, Foreign tables c
    · exact Or.inr loose
    · refine Or.inl (denotes.transfer ?_)
      intro field mem part inside values item
      have grammar : Item asciiDialect field.2 part values := by
        apply item_ascii item
        · intro slash
          exact loose ⟨field, mem, part, inside, Or.inl slash⟩
        · intro c mem' foreign
          exact loose ⟨field, mem, part, inside, Or.inr ⟨c, mem', foreign⟩⟩
      exact item_guarded grammar fun step reads => item_narrow item reads
  · intro fault raised
    cases fault with
    | cronExpressionError message => exact Or.inl ⟨message, rfl⟩
    | valueError => exact Or.inr (parseCron_raises.mp raised).undecimal

def superscriptTables : DigitTables where
  foreignDigit c := c == '²'
  foreignDecimal _ := none
  decimal_digit := by
    intro c value read
    cases read

/-- A step longer than its field is refused though the grammar has it; `int` raises its own
error on a superscript, and a slash with nothing behind it is read. -/
theorem cron_parsed_loosely :
    ¬ Exact superscriptTables "*/61 * * * *".toList ∧
      ¬ Exact superscriptTables "² * * * *".toList ∧
      ¬ Exact superscriptTables "5/ * * * *".toList := by
  refine ⟨?_, ?_, ?_⟩
  · rintro ⟨accepts, -⟩
    have split : words "*/61 * * * *".toList =
        [['*', '/', '6', '1'], ['*'], ['*'], ['*'], ['*']] := by decide
    have star : ∀ bound, Field asciiDialect bound ['*']
        (joined [progression bound.low bound.high 1]) := fun bound =>
      ⟨_, List.Forall₂.cons (Item.plain (Span.star false)) List.Forall₂.nil, rfl⟩
    have stepped : Field asciiDialect ⟨"minute", 0, 59, by decide⟩ ['*', '/', '6', '1']
        (joined [progression 0 59 61]) :=
      ⟨_, List.Forall₂.cons (Item.stepped (Span.star true) (by decide) (by decide) trivial)
        List.Forall₂.nil, rfl⟩
    obtain ⟨values, fields⟩ : ∃ values, List.Forall₂
        (fun field set => Field asciiDialect field.2 field.1 set)
        ((words "*/61 * * * *".toList).zip fieldBounds) values := by
      rw [split]
      exact ⟨_, List.Forall₂.cons stepped (List.Forall₂.cons (star _) (List.Forall₂.cons (star _)
        (List.Forall₂.cons (star _) (List.Forall₂.cons (star _) List.Forall₂.nil))))⟩
    have denotes : Denotes asciiDialect "*/61 * * * *".toList
        (expressionOf (words "*/61 * * * *".toList) values) :=
      ⟨by decide, by rw [split]; rfl, values, fields, rfl⟩
    have read := (accepts _).mpr denotes
    have refused : (parseCron superscriptTables "*/61 * * * *".toList).isOk = false := by
      decide
    rw [read] at refused
    cases refused
  · rintro ⟨-, refuses⟩
    obtain ⟨message, own⟩ := refuses .valueError (by decide)
    cases own
  · rintro ⟨accepts, -⟩
    obtain ⟨expression, read⟩ : ∃ expression,
        parseCron superscriptTables "5/ * * * *".toList = .ok expression :=
      exists_ok (by decide)
    have grammar := (accepts expression).mp read
    have split : words "5/ * * * *".toList = [['5', '/'], ['*'], ['*'], ['*'], ['*']] := by
      decide
    obtain ⟨values, item⟩ := grammar.items (['5', '/'], ⟨"minute", 0, 59, by decide⟩)
      (by rw [boundedFields, split, fieldBounds]; exact List.mem_cons_self) ['5', '/'] (by decide)
    have clean : ['5', '/'].getLast? ≠ some '/' ∧ ∀ c ∈ ['5', '/'], ¬ Foreign superscriptTables c :=
      item_clean item
    exact clean.1 rfl

end SkillMind.Schedules
