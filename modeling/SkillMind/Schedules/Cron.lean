import Mathlib.Data.Finset.Image
import SkillMind.Documents.Snapshot

/-!
# Cron expressions

An expression has five fields, and a field is a list of items, each of them a star, a number or
a range, with or without a step.  Parsing expands every field into the set of its values; what
it does not understand is refused, so that an expression is never run at times nobody wrote.

Numbers are read in two steps, as the source does: `str.isdigit` first, then `int`.  The two do
not agree outside of ASCII.
-/

namespace SkillMind.Schedules

open Library SkillMind.Core
open Documents (pieces)

/-- What the standard library says about digits outside of ASCII. -/
structure DigitTables where
  /-- `str.isdigit` of one character. -/
  foreignDigit : Char → Bool
  /-- The value `int` reads for one character. -/
  foreignDecimal : Char → Option Nat
  decimal_digit : ∀ c value, foreignDecimal c = some value → foreignDigit c = true

inductive CronFault where
  | cronExpressionError (message : String)
  /-- What `int` raises, which nothing in the parser catches. -/
  | valueError
  deriving DecidableEq

def asciiValue (c : Char) : Option Nat := if c.isDigit = true then some (c.toNat - 48) else none

/-- The number behind `total`, digit by digit. -/
def digitsFrom (digit : Char → Option Nat) : Nat → List Char → Option Nat
  | total, [] => some total
  | total, c :: rest =>
    match digit c with
    | some value => digitsFrom digit (total * 10 + value) rest
    | none => none

/-- A decimal number of at least one digit. -/
def number (digit : Char → Option Nat) (text : List Char) : Option Nat :=
  if text = [] then none else digitsFrom digit 0 text

section Digits

variable (tables : DigitTables)

def DigitTables.decimal (c : Char) : Option Nat :=
  if c.toNat < 128 then asciiValue c else tables.foreignDecimal c

def DigitTables.digit (c : Char) : Bool :=
  if c.toNat < 128 then c.isDigit else tables.foreignDigit c

def isdigit (text : List Char) : Bool := !text.isEmpty && text.all tables.digit

/-- `int` of a text of which `isdigit` holds. -/
def int (text : List Char) : Except CronFault Nat :=
  orFault .valueError (number tables.decimal text)

end Digits

/-- `str.split()`. -/
def words (text : List Char) : List (List Char) := (text.splitOnP isSpace).filter (· ≠ [])

/-- `str.partition`, less the mark itself. -/
def partition (mark : Char) (text : List Char) : List Char × List Char :=
  (text.takeWhile (· != mark), (text.dropWhile (· != mark)).drop 1)

/-- `range(start, stop, step)` for a positive step. -/
def range (start stop step : Nat) : List Nat :=
  List.range' start ((stop - start + (step - 1)) / step) step

/-! ## Fields -/

structure FieldBound where
  name : String
  low : Nat
  high : Nat
  ordered : low ≤ high

def fieldBounds : List FieldBound :=
  [⟨"minute", 0, 59, by decide⟩, ⟨"hour", 0, 23, by decide⟩, ⟨"day_of_month", 1, 31, by decide⟩,
    ⟨"month", 1, 12, by decide⟩, ⟨"day_of_week", 0, 7, by decide⟩]

def maxExpressionLength : Nat := 128

def FieldBound.fault (bound : FieldBound) (what : String) : CronFault :=
  .cronExpressionError ("Cron field " ++ bound.name ++ what)

def FieldBound.width (bound : FieldBound) : Nat := bound.high - bound.low + 1

section Fields

variable (tables : DigitTables) (bound : FieldBound)

def parseNumber (text : List Char) : Except CronFault Nat := do
  require (isdigit tables text = true) (bound.fault " is not a plain number")
  let value ← int tables text
  require (bound.low ≤ value ∧ value ≤ bound.high) (bound.fault " is out of range")
  .ok value

def parseStep (stepText : List Char) : Except CronFault Nat :=
  if stepText = [] then .ok 1
  else do
    require (isdigit tables stepText = true) (bound.fault " has an invalid step")
    let step ← int tables stepText
    require (1 ≤ step ∧ step ≤ bound.width) (bound.fault " step is out of range")
    .ok step

/-- The first and the last value of an item. -/
def parseBody (body : List Char) (stepped : Bool) : Except CronFault (Nat × Nat) :=
  if body = ['*'] then .ok (bound.low, bound.high)
  else if '-' ∈ body then do
    let start ← parseNumber tables bound (partition '-' body).1
    let stop ← parseNumber tables bound (partition '-' body).2
    require (start ≤ stop) (bound.fault " range is inverted")
    .ok (start, stop)
  else do
    let start ← parseNumber tables bound body
    -- A number with a step runs to the end of the field.
    .ok (start, if stepped = true then bound.high else start)

def parsePart (part : List Char) : Except CronFault (Finset Nat) := do
  let stepText := (partition '/' part).2
  let step ← parseStep tables bound stepText
  let (start, stop) ← parseBody tables bound (partition '/' part).1 (!stepText.isEmpty)
  .ok (range start (stop + 1) step).toFinset

/-- The values of all items. -/
def joined (sets : List (Finset Nat)) : Finset Nat := sets.foldr (· ∪ ·) ∅

def parseField (field : List Char) : Except CronFault (Finset Nat) := do
  require (field ≠ []) (bound.fault " is empty")
  let sets ← (pieces field).mapM (parsePart tables bound)
  require (joined sets ≠ ∅) (bound.fault " matches nothing")
  .ok (joined sets)

end Fields

structure CronExpression where
  /-- The fields with one blank between them. -/
  expression : List Char
  minutes : Finset Nat
  hours : Finset Nat
  daysOfMonth : Finset Nat
  months : Finset Nat
  daysOfWeek : Finset Nat
  dayOfMonthRestricted : Bool
  dayOfWeekRestricted : Bool
  deriving DecidableEq

/-- Sunday is written as 0 and as 7, and kept as 0. -/
def weekday (value : Nat) : Nat := if value = 7 then 0 else value

/-- The expression of five fields and the sets of their values. -/
def expressionOf (fields : List (List Char)) (values : List (Finset Nat)) : CronExpression where
  expression := [' '].intercalate fields
  minutes := values.getD 0 ∅
  hours := values.getD 1 ∅
  daysOfMonth := values.getD 2 ∅
  months := values.getD 3 ∅
  daysOfWeek := (values.getD 4 ∅).image weekday
  dayOfMonthRestricted := fields.getD 2 [] != ['*']
  dayOfWeekRestricted := fields.getD 4 [] != ['*']

def parseCron (tables : DigitTables) (expression : List Char) :
    Except CronFault CronExpression := do
  require (expression.length ≤ maxExpressionLength)
    (.cronExpressionError "Cron expression is too long")
  let fields := words expression
  require (fields.length = 5) (.cronExpressionError "Cron expression must have exactly 5 fields")
  let values ← (fields.zip fieldBounds).mapM fun field => parseField tables field.2 field.1
  .ok (expressionOf fields values)

end SkillMind.Schedules
