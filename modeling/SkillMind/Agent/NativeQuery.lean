import SkillMind.Agent.NativeSql
import SkillMind.Core.CodePoints
import SkillMind.Documents.Binding
import SkillMind.Library.Assignments
import Mathlib.Data.Rat.Defs
import Mathlib.Algebra.Order.Field.Rat

/-!
# The rows of a query

A query is wrapped: the database writes each row of its result as a JSON object, and Python reads
the objects back. The cut-offs keep the longest leading run of rows within them. What a row loses
is lost on the way through JSON: of columns of one name the last one stays, and a number with a
fraction becomes the nearest float.
-/

namespace SkillMind.Agent.NativeQuery

open Library SkillMind.Core
open Documents (member)

/-! ## Values -/

/-- A JSON value over a type of numbers. -/
inductive Value (N : Type) where
  | null
  | bool (value : Bool)
  | number (number : N)
  | string (text : PyText)
  | array (items : List (Value N))
  | object (members : List (PyText × Value N))

/-- A number as it is written: without a fraction and an exponent, or with one of them. -/
inductive Numeral where
  | int (value : ℤ)
  | frac (value : ℚ)

def Numeral.value : Numeral → ℚ
  | .int value => value
  | .frac value => value

/-- A number of Python; a float by its exact value, without one when it is infinite. -/
inductive PyNumber where
  | int (value : ℤ)
  | float (value : Option ℚ)

def PyNumber.value : PyNumber → Option ℚ
  | .int value => some (value : ℚ)
  | .float value => value

abbrev Written := Value Numeral

abbrev Loaded := Value PyNumber

namespace Value

variable {N M : Type}

mutual
/-- The value over other numbers. -/
def map (change : N → M) : Value N → Value M
  | .null => .null
  | .bool value => .bool value
  | .number numeral => .number (change numeral)
  | .string text => .string text
  | .array items => .array (mapItems change items)
  | .object members => .object (mapMembers change members)

def mapItems (change : N → M) : List (Value N) → List (Value M)
  | [] => []
  | item :: rest => item.map change :: mapItems change rest

def mapMembers (change : N → M) : List (PyText × Value N) → List (PyText × Value M)
  | [] => []
  | (key, value) :: rest => (key, value.map change) :: mapMembers change rest
end

mutual
/-- The nesting of arrays and objects. -/
def height : Value N → Nat
  | .array items => heightItems items + 1
  | .object members => heightMembers members + 1
  | _ => 0

def heightItems : List (Value N) → Nat
  | [] => 0
  | item :: rest => max item.height (heightItems rest)

def heightMembers : List (PyText × Value N) → Nat
  | [] => 0
  | (_, value) :: rest => max value.height (heightMembers rest)
end

mutual
/-- Every number of a value passes a test. -/
def Numbers (test : N → Prop) : Value N → Prop
  | .number numeral => test numeral
  | .array items => NumbersItems test items
  | .object members => NumbersMembers test members
  | _ => True

def NumbersItems (test : N → Prop) : List (Value N) → Prop
  | [] => True
  | item :: rest => item.Numbers test ∧ NumbersItems test rest

def NumbersMembers (test : N → Prop) : List (PyText × Value N) → Prop
  | [] => True
  | (_, value) :: rest => value.Numbers test ∧ NumbersMembers test rest
end

end Value

/-- What is written, with numbers as exact decimals and objects member for member. -/
def Value.decimals (written : Value Numeral) : Value (Option ℚ) :=
  written.map fun numeral => some numeral.value

/-- What a Python value holds; an infinite float is no decimal. -/
def Value.held (loaded : Value PyNumber) : Value (Option ℚ) := loaded.map PyNumber.value

/-- The exact decimals that floats have. -/
def Binary64 (value : ℚ) : Prop :=
  ∃ significand exponent : ℤ, |significand| < 2 ^ 53 ∧ -1074 ≤ exponent ∧ exponent ≤ 971 ∧
    value = significand * (2 : ℚ) ^ exponent

/-- `float` of a text rounds to the nearest float, and a float is the nearest one to itself. -/
structure Floats where
  rounds : ℚ → Option ℚ
  rounds_iff : ∀ value, rounds value = some value ↔ Binary64 value

def Floats.number (floats : Floats) : Numeral → PyNumber
  | .int value => .int value
  | .frac value => .float (floats.rounds value)

mutual
/-- What is read of a written value. -/
def decode (floats : Floats) : Written → Loaded
  | .null => .null
  | .bool value => .bool value
  | .number numeral => .number (floats.number numeral)
  | .string text => .string text
  | .array items => .array (decodeItems floats items)
  | .object members => .object (dictOf (decodeMembers floats members))

def decodeItems (floats : Floats) : List Written → List Loaded
  | [] => []
  | item :: rest => decode floats item :: decodeItems floats rest

def decodeMembers (floats : Floats) : List (PyText × Written) → List (PyText × Loaded)
  | [] => []
  | (key, value) :: rest => (key, decode floats value) :: decodeMembers floats rest
end

/-- `sys.get_int_max_str_digits()`. -/
def maxStrDigits : Nat := 4300

/-- `int` takes the digits of a number. -/
def Numeral.Taken : Numeral → Prop
  | .int value => value.natAbs < 10 ^ maxStrDigits
  | .frac _ => True

/-- `ValueError` or `RecursionError`. -/
inductive LoadFault where
  | value
  | recursion

/-- The interpreter and the database: the floats, the nesting that the recursion limit allows,
`json.loads`, and the length of a text in the encoding of the database. -/
structure Platform where
  floats : Floats
  depth : Nat
  loads : String → Except LoadFault Loaded
  octetLength : String → Nat

/-- A value is neither nested too deeply nor has an integer of too many digits. -/
structure Readable (platform : Platform) (written : Written) : Prop where
  height : written.height ≤ platform.depth
  integers : written.Numbers Numeral.Taken

/-- A text is the JSON text of a value: `json.loads` reads it or refuses it as documented. -/
structure Platform.Reads (platform : Platform) (text : String) (written : Written) : Prop where
  ok : Readable platform written → platform.loads text = .ok (decode platform.floats written)
  refused : ¬ Readable platform written → ∃ fault, platform.loads text = .error fault

/-! ## The result and the query -/

structure Column where
  name : PyText
  /-- The values are rows themselves. -/
  composite : Bool

structure Row where
  values : List Written
  /-- The row as the text of an object. -/
  whole : String
  /-- The text of the value of a composite column `s`, unless that is null. -/
  part : Option String

def rowObject (columns : List Column) (values : List Written) : Written :=
  .object ((columns.map Column.name).zip values)

def derivedName : PyText := pyText "s"

def valueAt (columns : List Column) (values : List Written) (name : PyText) : Option Written :=
  ((columns.map Column.name).zip values).lookup name

/-- What PostgreSQL returns for the query, with the texts that `row_to_json` writes. -/
structure Relation (platform : Platform) where
  columns : List Column
  rows : List Row
  width : ∀ row ∈ rows, row.values.length = columns.length
  whole_reads : ∀ row ∈ rows, platform.Reads row.whole (rowObject columns row.values)
  part_reads : ∀ row ∈ rows, ∀ text ∈ row.part, ∃ members,
    valueAt columns row.values derivedName = some (.object members) ∧
      platform.Reads text (.object members)

inductive QueryFault where
  /-- `ValueError`. -/
  | invalid (message : String)
  | load (fault : LoadFault)
  /-- The database refuses the wrapped query. -/
  | database

/-- The payloads of the wrapped query.  In `row_to_json(s)` the name stands for the whole row only
where the result has no column of that name. -/
def payloads {platform : Platform} (relation : Relation platform) :
    Except QueryFault (List (Option String)) :=
  match relation.columns.filter fun column => decide (column.name = derivedName) with
  | [] => .ok (relation.rows.map fun row => some row.whole)
  | [column] => if column.composite then .ok (relation.rows.map Row.part) else .error .database
  | _ => .error .database

def maxQueryBytes : Nat := 16 * 1024 * 1024

/-- `CASE WHEN octet_length(payload) <= … THEN payload ELSE NULL END`. -/
def bounded (platform : Platform) (payload : Option String) : Option String :=
  payload.filter fun text => decide (platform.octetLength text ≤ maxQueryBytes)

structure Reply where
  rows : List Loaded
  truncated : Bool

/-- The loop over the cursor. -/
def collect (platform : Platform) (limit : Nat) :
    List (Option String) → List Loaded → Nat → Except QueryFault Reply
  | [], rows, _ => .ok ⟨rows, false⟩
  | none :: _, rows, _ => .ok ⟨rows, true⟩
  | some raw :: rest, rows, size =>
    if limit ≤ rows.length ∨ maxQueryBytes < size + raw.utf8ByteSize then .ok ⟨rows, true⟩
    else do
      let value ← (platform.loads raw).mapError QueryFault.load
      collect platform limit rest (rows ++ [value]) (size + raw.utf8ByteSize)

/-- `request.get("limit", 1000)`, if it is an integer of the bounds. -/
def limitOf (request : SqlNode) : Option Nat :=
  match member request "limit" with
  | none => some 1000
  | some value =>
    match Documents.sizeOf ⟨""⟩ (some value) with
    | .ok number => if 1 ≤ number ∧ number ≤ 10000 then some number.toNat else none
    | .error _ => none

/-- `query_rows`, on the result that PostgreSQL has for the statement. -/
def queryRows (parseSql : String → Option (List Json)) (rawStream : Json → String)
    (platform : Platform) (request : SqlNode) (scope : ConnectionScope)
    (relation : Relation platform) : Except QueryFault Reply := do
  let _ ← (nativeStatement parseSql rawStream (.object request) scope false).mapError
    fun error => QueryFault.invalid error.message
  let limit ← orFault (.invalid "Query limit must be between 1 and 10000") (limitOf request)
  let items ← payloads relation
  collect platform limit ((items.take (limit + 1)).map (bounded platform)) [] 0

/-- A row has the value of every column, as an exact decimal where it is a number. -/
def Carries (columns : List Column) (row : Row) (loaded : Loaded) : Prop :=
  ∃ fields, loaded = .object fields ∧
    ∀ entry ∈ (columns.map Column.name).zip row.values, ∃ value,
      fields.lookup entry.1 = some value ∧ value.held = entry.2.decimals

/-- The rows stay within the limit and the byte bound. -/
structure Fits (platform : Platform) (limit : Nat) (rows : List Row) : Prop where
  count : rows.length ≤ limit
  each : ∀ row ∈ rows, platform.octetLength row.whole ≤ maxQueryBytes
  bytes : (rows.map fun row => row.whole.utf8ByteSize).sum ≤ maxQueryBytes

/-- The longest leading run of rows that fits. -/
structure Longest (platform : Platform) (limit : Nat) (rows run : List Row) : Prop where
  leading : run <+: rows
  fits : Fits platform limit run
  longest : ∀ other, other <+: rows → Fits platform limit other → other.length ≤ run.length

/-- The rows are the longest leading run that fits, and a cut is reported. -/
def Complete {platform : Platform} (limit : Nat) (relation : Relation platform) (reply : Reply) :
    Prop :=
  ∃ run, Longest platform limit relation.rows run ∧
    List.Forall₂ (Carries relation.columns) run reply.rows ∧
    (reply.truncated = true ↔ ∃ row rest, relation.rows = run ++ row :: rest)

/-! ## What survives JSON -/

mutual
/-- The numbers with a fraction are floats, and no object has a key twice. -/
def Kept : Written → Prop
  | .number (.frac value) => Binary64 value
  | .array items => KeptItems items
  | .object members => (members.map Prod.fst).Nodup ∧ KeptMembers members
  | _ => True

def KeptItems : List Written → Prop
  | [] => True
  | item :: rest => Kept item ∧ KeptItems rest

def KeptMembers : List (PyText × Written) → Prop
  | [] => True
  | (_, value) :: rest => Kept value ∧ KeptMembers rest
end

namespace Value

variable {N M : Type} {change : N → M}

theorem mapMembers_eq (members : List (PyText × Value N)) :
    mapMembers change members = members.map fun entry => (entry.1, entry.2.map change) := by
  induction members with
  | nil => rfl
  | cons entry rest ih => rw [mapMembers, ih, List.map_cons]

mutual
theorem height_map (value : Value N) : (value.map change).height = value.height := by
  cases value with
  | array items => rw [map, height, height, heightItems_map items]
  | object members => rw [map, height, height, heightMembers_map members]
  | _ => rfl

theorem heightItems_map (items : List (Value N)) :
    heightItems (mapItems change items) = heightItems items := by
  cases items with
  | nil => rfl
  | cons item rest => rw [mapItems, heightItems, heightItems, height_map item, heightItems_map rest]

theorem heightMembers_map (members : List (PyText × Value N)) :
    heightMembers (mapMembers change members) = heightMembers members := by
  cases members with
  | nil => rfl
  | cons entry rest =>
    rw [mapMembers, heightMembers, heightMembers, height_map entry.2, heightMembers_map rest]
end

theorem heightMembers_le_iff {members : List (PyText × Value N)} {bound : Nat} :
    heightMembers members ≤ bound ↔ ∀ entry ∈ members, entry.2.height ≤ bound := by
  induction members with
  | nil => simp [heightMembers]
  | cons entry rest ih => rw [heightMembers, Nat.max_le, ih, List.forall_mem_cons]

end Value

theorem decodeMembers_eq (floats : Floats) (members : List (PyText × Written)) :
    decodeMembers floats members =
      members.map fun entry => (entry.1, decode floats entry.2) := by
  induction members with
  | nil => rfl
  | cons entry rest ih => rw [decodeMembers, ih, List.map_cons]

mutual
theorem held_decode_iff (floats : Floats) (written : Written) :
    (decode floats written).held = written.decimals ↔ Kept written := by
  cases written with
  | number numeral =>
    cases numeral with
    | int value => simp [decode, Value.held, Value.decimals, Value.map, Floats.number,
        PyNumber.value, Numeral.value, Kept]
    | frac value => simp [decode, Value.held, Value.decimals, Value.map, Floats.number,
        PyNumber.value, Numeral.value, Kept, floats.rounds_iff]
  | array items =>
    rw [decode, Value.held, Value.decimals, Value.map, Value.map, Value.array.injEq,
      heldItems_decode_iff floats items, Kept]
  | object members =>
    have keys : (decodeMembers floats members).map Prod.fst = members.map Prod.fst := by
      rw [decodeMembers_eq, List.map_map]
      rfl
    rw [decode, Value.held, Value.decimals, Value.map, Value.map, Value.object.injEq, Kept]
    constructor
    · intro same
      have names := congrArg (List.map Prod.fst) same
      rw [Value.mapMembers_eq, Value.mapMembers_eq, List.map_map, List.map_map] at names
      have distinct : (members.map Prod.fst).Nodup := by
        have listed : (dictOf (decodeMembers floats members)).map Prod.fst =
            members.map Prod.fst := names
        rw [← listed]
        exact nodup_dictOf _
      rw [dictOf_of_nodup (by rwa [keys])] at same
      exact ⟨distinct, (heldMembers_decode_iff floats members).mp same⟩
    · rintro ⟨distinct, each⟩
      rw [dictOf_of_nodup (by rwa [keys])]
      exact (heldMembers_decode_iff floats members).mpr each
  | null => simp [decode, Value.held, Value.decimals, Value.map, Kept]
  | bool value => simp [decode, Value.held, Value.decimals, Value.map, Kept]
  | string text => simp [decode, Value.held, Value.decimals, Value.map, Kept]

theorem heldItems_decode_iff (floats : Floats) (items : List Written) :
    Value.mapItems PyNumber.value (decodeItems floats items) =
      Value.mapItems (fun numeral => some numeral.value) items ↔ KeptItems items := by
  cases items with
  | nil => simp [decodeItems, Value.mapItems, KeptItems]
  | cons item rest =>
    rw [decodeItems, Value.mapItems, Value.mapItems, List.cons.injEq, KeptItems,
      heldItems_decode_iff floats rest]
    exact and_congr_left' (held_decode_iff floats item)

theorem heldMembers_decode_iff (floats : Floats) (members : List (PyText × Written)) :
    Value.mapMembers PyNumber.value (decodeMembers floats members) =
      Value.mapMembers (fun numeral => some numeral.value) members ↔ KeptMembers members := by
  cases members with
  | nil => simp [decodeMembers, Value.mapMembers, KeptMembers]
  | cons entry rest =>
    rw [decodeMembers, Value.mapMembers, Value.mapMembers, List.cons.injEq, KeptMembers,
      heldMembers_decode_iff floats rest, Prod.mk.injEq]
    simp only [true_and]
    exact and_congr_left' (held_decode_iff floats entry.2)
end

mutual
theorem height_decode_le (floats : Floats) (written : Written) :
    (decode floats written).height ≤ written.height := by
  cases written with
  | array items =>
    rw [decode, Value.height, Value.height]
    exact Nat.succ_le_succ (heightItems_decode_le floats items)
  | object members =>
    rw [decode, Value.height, Value.height]
    refine Nat.succ_le_succ (Value.heightMembers_le_iff.mpr fun entry mem => ?_)
    exact Value.heightMembers_le_iff.mp (heightMembers_decode_le floats members) entry
      (mem_of_mem_dictOf mem)
  | _ => exact Nat.le_refl _

theorem heightItems_decode_le (floats : Floats) (items : List Written) :
    Value.heightItems (decodeItems floats items) ≤ Value.heightItems items := by
  cases items with
  | nil => exact Nat.le_refl _
  | cons item rest =>
    rw [decodeItems, Value.heightItems, Value.heightItems]
    exact max_le_max (height_decode_le floats item) (heightItems_decode_le floats rest)

theorem heightMembers_decode_le (floats : Floats) (members : List (PyText × Written)) :
    Value.heightMembers (decodeMembers floats members) ≤ Value.heightMembers members := by
  cases members with
  | nil => exact Nat.le_refl _
  | cons entry rest =>
    rw [decodeMembers, Value.heightMembers, Value.heightMembers]
    exact max_le_max (height_decode_le floats entry.2) (heightMembers_decode_le floats rest)
end

/-- Every column has the value that the last column of its name has, and that value is kept. -/
def RowKept (columns : List Column) (values : List Written) : Prop :=
  ∀ entry ∈ (columns.map Column.name).zip values,
    ∃ last, ((columns.map Column.name).zip values).reverse.lookup entry.1 = some last ∧
      Kept last ∧ last.decimals = entry.2.decimals

theorem lookup_map_snd {α β : Type} {pairs : List (PyText × α)} {read : α → β} {key : PyText} :
    (pairs.map fun pair => (pair.1, read pair.2)).lookup key = (pairs.lookup key).map read := by
  induction pairs with
  | nil => rfl
  | cons pair rest ih =>
    rw [List.map_cons, List.lookup_cons, List.lookup_cons, ih]
    cases key == pair.1 <;> rfl

theorem lookup_decode (floats : Floats) (members : List (PyText × Written)) (key : PyText) :
    (dictOf (decodeMembers floats members)).lookup key =
      (members.reverse.lookup key).map (decode floats) := by
  rw [lookup_dictOf, decodeMembers_eq, ← List.map_reverse, lookup_map_snd]

theorem carries_iff (floats : Floats) (columns : List Column) (row : Row) :
    Carries columns row (decode floats (rowObject columns row.values)) ↔
      RowKept columns row.values := by
  have reads : Carries columns row (decode floats (rowObject columns row.values)) ↔
      ∀ entry ∈ (columns.map Column.name).zip row.values,
        ∃ last, ((columns.map Column.name).zip row.values).reverse.lookup entry.1 = some last ∧
          (decode floats last).held = entry.2.decimals := by
    constructor
    · rintro ⟨fields, same, each⟩ entry mem
      rw [rowObject, decode, Value.object.injEq] at same
      obtain ⟨value, found, holds⟩ := each entry mem
      rw [← same, lookup_decode, Option.map_eq_some_iff] at found
      obtain ⟨last, found, rfl⟩ := found
      exact ⟨last, found, holds⟩
    · intro each
      refine ⟨_, by rw [rowObject, decode], fun entry mem => ?_⟩
      obtain ⟨last, found, holds⟩ := each entry mem
      exact ⟨decode floats last, by rw [lookup_decode, found]; rfl, holds⟩
  rw [reads]
  constructor
  · intro each entry mem
    obtain ⟨last, found, holds⟩ := each entry mem
    -- the last column of a name is one of its columns
    have among := List.mem_reverse.mp (mem_of_lookup found)
    obtain ⟨last', found', holds'⟩ := each (entry.1, last) among
    obtain rfl := Option.some.inj (found.symm.trans found')
    exact ⟨last, found, (held_decode_iff floats last).mp holds', holds'.symm.trans holds⟩
  · intro each entry mem
    obtain ⟨last, found, kept, same⟩ := each entry mem
    exact ⟨last, found, ((held_decode_iff floats last).mpr kept).trans same⟩

theorem not_carries_part (floats : Floats) {columns : List Column} {row : Row}
    {members : List (PyText × Written)} {name : PyText}
    (value : valueAt columns row.values name = some (.object members)) :
    ¬ Carries columns row (decode floats (.object members)) := by
  rintro ⟨fields, same, each⟩
  rw [decode, Value.object.injEq] at same
  obtain ⟨inner, found, holds⟩ := each _ (mem_of_lookup value)
  rw [← same, lookup_decode, Option.map_eq_some_iff] at found
  obtain ⟨written, found, rfl⟩ := found
  have among := List.mem_reverse.mp (mem_of_lookup found)
  have low := height_decode_le floats written
  have inside := Value.heightMembers_le_iff.mp (Nat.le_refl _) _ among
  have high := congrArg Value.height holds
  rw [Value.held, Value.decimals, Value.height_map, Value.height_map, Value.height] at high
  simp only at inside
  omega

/-! ## The loop -/

section Loop

variable (platform : Platform)

/-- The texts that the loop loads, with so many rows left and so many bytes read. -/
def admitted (left size : Nat) : List (Option String) → List String
  | [] => []
  | item :: rest =>
    match bounded platform item with
    | none => []
    | some raw =>
      if left = 0 ∨ maxQueryBytes < size + raw.utf8ByteSize then []
      else raw :: admitted (left - 1) (size + raw.utf8ByteSize) rest

def load (raw : String) : Except QueryFault Loaded :=
  (platform.loads raw).mapError QueryFault.load

/-- The reply of the loop that loads these texts of the items. -/
def finish (items : List (Option String)) (raws : List String) (rows : List Loaded) :
    Except QueryFault Reply :=
  (raws.mapM (load platform)).bind fun values =>
    .ok ⟨rows ++ values, decide (raws.length < items.length)⟩

theorem finish_nil (items : List (Option String)) (rows : List Loaded) :
    finish platform items [] rows = .ok ⟨rows, decide (0 < items.length)⟩ := by
  simp [finish, pure, Except.pure, Except.bind]

theorem finish_cons (item : Option String) (items : List (Option String)) (raw : String)
    (raws : List String) (rows : List Loaded) :
    finish platform (item :: items) (raw :: raws) rows =
      (load platform raw).bind fun value => finish platform items raws (rows ++ [value]) := by
  rw [finish, List.mapM_cons]
  cases load platform raw with
  | error fault => rfl
  | ok value =>
    simp only [bind, Except.bind, finish]
    cases raws.mapM (load platform) with
    | error fault => rfl
    | ok values => simp [pure, Except.pure]

theorem collect_eq {limit : Nat} (items : List (Option String)) {left size : Nat}
    {rows : List Loaded} (room : rows.length + left = limit) :
    collect platform limit ((items.take (left + 1)).map (bounded platform)) rows size =
      finish platform items (admitted platform left size items) rows := by
  induction items generalizing left size rows with
  | nil => rw [admitted, finish_nil]; rfl
  | cons item rest ih =>
    rw [List.take_succ_cons, List.map_cons, admitted]
    cases bounded platform item with
    | none => rw [finish_nil]; simp [collect]
    | some raw =>
      simp only [collect]
      by_cases stop : left = 0 ∨ maxQueryBytes < size + raw.utf8ByteSize
      · have full : limit ≤ rows.length ∨ maxQueryBytes < size + raw.utf8ByteSize :=
          stop.imp_left fun none => by omega
        rw [if_pos full, if_pos stop, finish_nil]
        simp
      · have more : ¬ (limit ≤ rows.length ∨ maxQueryBytes < size + raw.utf8ByteSize) := by
          omega
        obtain ⟨fewer, rfl⟩ : ∃ fewer, left = fewer + 1 := ⟨left - 1, by omega⟩
        rw [if_neg more, if_neg stop, Nat.add_sub_cancel, finish_cons, load]
        refine congrArg (Except.bind _) (funext fun value => ih ?_)
        rw [List.length_append, List.length_singleton]
        omega

/-- The leading run of rows that fits, with so many rows left and so many bytes read. -/
def runOf (left size : Nat) : List Row → List Row
  | [] => []
  | row :: rest =>
    if left = 0 ∨ maxQueryBytes < platform.octetLength row.whole ∨
        maxQueryBytes < size + row.whole.utf8ByteSize then []
    else row :: runOf (left - 1) (size + row.whole.utf8ByteSize) rest

theorem admitted_whole (rows : List Row) (left size : Nat) :
    admitted platform left size (rows.map fun row => some row.whole) =
      (runOf platform left size rows).map Row.whole := by
  induction rows generalizing left size with
  | nil => rfl
  | cons row rest ih =>
    rw [List.map_cons, admitted, runOf]
    by_cases large : maxQueryBytes < platform.octetLength row.whole
    · have none : bounded platform (some row.whole) = none := by
        simp [bounded, Option.filter, large]
      rw [none, if_pos (.inr (.inl large))]
      rfl
    · have kept : bounded platform (some row.whole) = some row.whole := by
        simp [bounded, Option.filter, Nat.not_lt.mp large]
      rw [kept]
      simp only
      by_cases stop : left = 0 ∨ maxQueryBytes < size + row.whole.utf8ByteSize
      · rw [if_pos stop, if_pos (by tauto)]
        rfl
      · rw [if_neg stop, if_neg (by tauto), ih, List.map_cons]

theorem runOf_prefix (rows : List Row) (left size : Nat) :
    runOf platform left size rows <+: rows := by
  induction rows generalizing left size with
  | nil => exact List.nil_prefix
  | cons row rest ih =>
    rw [runOf]
    split_ifs
    · exact List.nil_prefix
    · exact List.cons_prefix_cons.mpr ⟨rfl, ih _ _⟩

/-- The rows fit with so many rows left and so many bytes read. -/
structure FitsFrom (left size : Nat) (rows : List Row) : Prop where
  count : rows.length ≤ left
  each : ∀ row ∈ rows, platform.octetLength row.whole ≤ maxQueryBytes
  bytes : rows ≠ [] → size + (rows.map fun row => row.whole.utf8ByteSize).sum ≤ maxQueryBytes

theorem fitsFrom_cons {left size : Nat} {row : Row} {rest : List Row} :
    FitsFrom platform left size (row :: rest) ↔
      ¬ (left = 0 ∨ maxQueryBytes < platform.octetLength row.whole ∨
        maxQueryBytes < size + row.whole.utf8ByteSize) ∧
      FitsFrom platform (left - 1) (size + row.whole.utf8ByteSize) rest := by
  constructor
  · rintro ⟨count, each, bytes⟩
    have whole := bytes (List.cons_ne_nil _ _)
    rw [List.map_cons, List.sum_cons] at whole
    rw [List.length_cons] at count
    have first := each row List.mem_cons_self
    refine ⟨by omega, by omega, fun one mem => each one (List.mem_cons_of_mem _ mem), fun _ => ?_⟩
    omega
  · rintro ⟨open_, count, each, bytes⟩
    refine ⟨by rw [List.length_cons]; omega, ?_, fun _ => ?_⟩
    · intro one mem
      rcases List.mem_cons.mp mem with rfl | later
      · omega
      · exact each one later
    · rw [List.map_cons, List.sum_cons]
      by_cases none : rest = []
      · rw [none, List.map_nil, List.sum_nil]
        omega
      · have tail := bytes none
        omega

theorem runOf_fits (rows : List Row) (left size : Nat) :
    FitsFrom platform left size (runOf platform left size rows) := by
  induction rows generalizing left size with
  | nil => exact ⟨Nat.zero_le _, by simp [runOf], by simp [runOf]⟩
  | cons row rest ih =>
    rw [runOf]
    split_ifs with stop
    · exact ⟨Nat.zero_le _, by simp, by simp⟩
    · exact (fitsFrom_cons platform).mpr ⟨stop, ih _ _⟩

theorem runOf_longest {rows other : List Row} {left size : Nat} (leading : other <+: rows)
    (fits : FitsFrom platform left size other) :
    other.length ≤ (runOf platform left size rows).length := by
  induction rows generalizing other left size with
  | nil =>
    rw [List.prefix_nil.mp leading]
    exact Nat.zero_le _
  | cons row rest ih =>
    cases other with
    | nil => exact Nat.zero_le _
    | cons first more =>
      obtain ⟨rfl, behind⟩ := List.cons_prefix_cons.mp leading
      obtain ⟨open_, tail⟩ := (fitsFrom_cons platform).mp fits
      rw [runOf, if_neg open_, List.length_cons, List.length_cons]
      exact Nat.succ_le_succ (ih behind tail)

theorem fits_iff {limit : Nat} {rows : List Row} :
    Fits platform limit rows ↔ FitsFrom platform limit 0 rows := by
  constructor
  · rintro ⟨count, each, bytes⟩
    exact ⟨count, each, fun _ => by omega⟩
  · rintro ⟨count, each, bytes⟩
    refine ⟨count, each, ?_⟩
    by_cases none : rows = []
    · rw [none]
      exact Nat.zero_le _
    · have whole := bytes none
      omega

theorem longest_iff {limit : Nat} {rows run : List Row} :
    Longest platform limit rows run ↔ run = runOf platform limit 0 rows := by
  have leading := runOf_prefix platform rows limit 0
  have fits := (fits_iff platform).mpr (runOf_fits platform rows limit 0)
  have longest : ∀ other, other <+: rows → Fits platform limit other →
      other.length ≤ (runOf platform limit 0 rows).length := fun other front within =>
    runOf_longest platform front ((fits_iff platform).mp within)
  constructor
  · intro best
    have length := Nat.le_antisymm (longest run best.leading best.fits)
      (best.longest _ leading fits)
    exact (List.prefix_of_prefix_length_le best.leading leading (Nat.le_of_eq length)).eq_of_length
      length
  · rintro rfl
    exact ⟨leading, fits, longest⟩

end Loop

/-! ## Exactly when a reply is complete -/

/-- `json.loads` reads a row, and every column of it survives. -/
structure RowExact (platform : Platform) (columns : List Column) (row : Row) : Prop where
  readable : Readable platform (rowObject columns row.values)
  kept : RowKept columns row.values

/-- There is no row, or neither the first one nor what is written for it fits. -/
def Beyond {platform : Platform} (relation : Relation platform) : Prop :=
  ∀ first ∈ relation.rows.head?, ¬ Fits platform 1 [first] ∧ ∀ text ∈ first.part,
    maxQueryBytes < platform.octetLength text ∨ maxQueryBytes < text.utf8ByteSize

/-- No column has the name of the derived table and every row of the run survives; or one has it,
has rows for values, and no row fits. -/
def Survives {platform : Platform} (limit : Nat) (relation : Relation platform) : Prop :=
  match relation.columns.filter fun column => decide (column.name = derivedName) with
  | [] => ∀ run, Longest platform limit relation.rows run →
      ∀ row ∈ run, RowExact platform relation.columns row
  | [column] => column.composite = true ∧ Beyond relation
  | _ => False

theorem limitOf_pos {request : SqlNode} {limit : Nat} (given : limitOf request = some limit) :
    1 ≤ limit := by
  rw [limitOf] at given
  cases found : member request "limit" with
  | none =>
    rw [found] at given
    cases given
    decide
  | some value =>
    rw [found] at given
    simp only at given
    cases read : Documents.sizeOf ⟨""⟩ (some value) with
    | error fault =>
      rw [read] at given
      cases given
    | ok number =>
      rw [read] at given
      simp only at given
      split_ifs at given with bounds
      cases given
      omega

variable {platform : Platform} {limit : Nat} {relation : Relation platform}

theorem load_ok {raw : String} {loaded : Loaded} :
    load platform raw = .ok loaded ↔ platform.loads raw = .ok loaded := mapError_eq_ok

theorem finish_ok {items : List (Option String)} {raws : List String} {reply : Reply} :
    finish platform items raws [] = .ok reply ↔
      List.Forall₂ (fun raw loaded => platform.loads raw = .ok loaded) raws reply.rows ∧
        reply.truncated = decide (raws.length < items.length) := by
  have steps : finish platform items raws [] = .ok reply ↔ ∃ values,
      raws.mapM (load platform) = .ok values ∧
        (⟨values, decide (raws.length < items.length)⟩ : Reply) = reply := by
    rw [finish]
    exact bind_eq_ok.trans (by simp)
  rw [steps]
  simp only [mapM_eq_ok_iff, load_ok]
  constructor
  · rintro ⟨values, each, rfl⟩
    exact ⟨each, rfl⟩
  · rintro ⟨each, cut⟩
    exact ⟨reply.rows, each, by rw [← cut]⟩

theorem missing_iff {rows run : List Row} (leading : run <+: rows) :
    run.length < rows.length ↔ ∃ row rest, rows = run ++ row :: rest := by
  obtain ⟨behind, rfl⟩ := leading
  cases behind with
  | nil => simp
  | cons row rest =>
    constructor
    · exact fun _ => ⟨row, rest, rfl⟩
    · intro _
      rw [List.length_append, List.length_cons]
      omega

theorem whole_complete_iff :
    (∃ reply, finish platform (relation.rows.map fun row => some row.whole)
        (admitted platform limit 0 (relation.rows.map fun row => some row.whole)) [] = .ok reply ∧
      Complete limit relation reply) ↔
      ∀ run, Longest platform limit relation.rows run →
        ∀ row ∈ run, RowExact platform relation.columns row := by
  have leading := runOf_prefix platform relation.rows limit 0
  have among : ∀ row ∈ runOf platform limit 0 relation.rows, row ∈ relation.rows := fun row mem =>
    leading.subset mem
  rw [admitted_whole]
  simp only [finish_ok, List.forall₂_map_left_iff, List.length_map, Complete, longest_iff,
    exists_eq_left, forall_eq]
  constructor
  · rintro ⟨reply, ⟨each, -⟩, carried, -⟩ row mem
    obtain ⟨i, small, rfl⟩ := List.getElem_of_mem mem
    have length := each.length_eq
    have loaded := (List.forall₂_iff_get.mp each).2 i small (by omega)
    have holds := (List.forall₂_iff_get.mp carried).2 i small (by omega)
    simp only [List.get_eq_getElem] at loaded holds
    have reads := relation.whole_reads _ (among _ mem)
    have readable : Readable platform (rowObject relation.columns
        (runOf platform limit 0 relation.rows)[i].values) := by
      by_contra bad
      obtain ⟨fault, fails⟩ := reads.refused bad
      rw [fails] at loaded
      cases loaded
    rw [reads.ok readable, Except.ok.injEq] at loaded
    rw [← loaded] at holds
    exact ⟨readable, (carries_iff platform.floats relation.columns _).mp holds⟩
  · intro exact_
    refine ⟨⟨(runOf platform limit 0 relation.rows).map fun row =>
      decode platform.floats (rowObject relation.columns row.values),
      decide ((runOf platform limit 0 relation.rows).length < relation.rows.length)⟩,
      ⟨?_, rfl⟩, ?_, ?_⟩
    · rw [List.forall₂_map_right_iff, List.forall₂_same]
      exact fun row mem => (relation.whole_reads row (among row mem)).ok (exact_ row mem).readable
    · rw [List.forall₂_map_right_iff, List.forall₂_same]
      exact fun row mem =>
        (carries_iff platform.floats relation.columns row).mpr (exact_ row mem).kept
    · rw [decide_eq_true_eq]
      exact missing_iff leading

theorem admitted_cons {item : Option String} {items : List (Option String)} {raw : String}
    {raws : List String} (first : admitted platform limit 0 (item :: items) = raw :: raws) :
    raw ∈ item := by
  rw [admitted] at first
  cases kept : bounded platform item with
  | none =>
    rw [kept] at first
    cases first
  | some text =>
    rw [kept] at first
    simp only at first
    split_ifs at first
    cases first
    exact (Option.filter_eq_some_iff.mp kept).1

theorem admitted_eq_nil_iff (positive : 1 ≤ limit) {item : Option String}
    {items : List (Option String)} : admitted platform limit 0 (item :: items) = [] ↔
      ∀ text ∈ item, maxQueryBytes < platform.octetLength text ∨
        maxQueryBytes < text.utf8ByteSize := by
  rw [admitted]
  cases item with
  | none => simp [bounded]
  | some text =>
    simp only [Option.mem_def, Option.some.injEq, forall_eq']
    by_cases large : maxQueryBytes < platform.octetLength text
    · have none : bounded platform (some text) = none := by simp [bounded, Option.filter, large]
      simp [none, large]
    · have kept : bounded platform (some text) = some text := by
        simp [bounded, Option.filter, Nat.not_lt.mp large]
      rw [kept]
      simp only [large, false_or, Nat.zero_add]
      split_ifs with stop
      · simp only [true_iff]
        omega
      · simp only [false_iff]
        omega

theorem runOf_eq_nil_iff (positive : 1 ≤ limit) {first : Row} {rest : List Row} :
    runOf platform limit 0 (first :: rest) = [] ↔ ¬ Fits platform 1 [first] := by
  have one : Fits platform 1 [first] ↔ ¬ (limit = 0 ∨
      maxQueryBytes < platform.octetLength first.whole ∨
        maxQueryBytes < 0 + first.whole.utf8ByteSize) := by
    constructor
    · rintro ⟨-, each, bytes⟩
      have small := each first List.mem_cons_self
      simp only [List.map_cons, List.map_nil, List.sum_cons, List.sum_nil] at bytes
      omega
    · intro open_
      refine ⟨Nat.le_refl _, ?_, ?_⟩
      · intro row mem
        rw [List.mem_singleton.mp mem]
        omega
      · simp only [List.map_cons, List.map_nil, List.sum_cons, List.sum_nil]
        omega
  rw [one, not_not, runOf]
  split_ifs with stop
  · exact iff_of_true rfl stop
  · exact iff_of_false id stop

theorem part_complete_iff (positive : 1 ≤ limit) :
    (∃ reply, finish platform (relation.rows.map Row.part)
        (admitted platform limit 0 (relation.rows.map Row.part)) [] = .ok reply ∧
      Complete limit relation reply) ↔ Beyond relation := by
  simp only [finish_ok, List.length_map, Complete, longest_iff, exists_eq_left, Beyond]
  cases rows : relation.rows with
  | nil =>
    refine iff_of_true ⟨⟨[], false⟩, ⟨?_, rfl⟩, ?_, ?_⟩ (by simp)
    · exact .nil
    · exact .nil
    · simp [runOf]
  | cons first rest =>
    have here : first ∈ relation.rows := rows ▸ List.mem_cons_self
    have head : (∀ one ∈ (first :: rest).head?, ¬ Fits platform 1 [one] ∧ ∀ text ∈ one.part,
        maxQueryBytes < platform.octetLength text ∨ maxQueryBytes < text.utf8ByteSize) ↔
        runOf platform limit 0 (first :: rest) = [] ∧
          admitted platform limit 0 (first.part :: rest.map Row.part) = [] := by
      rw [runOf_eq_nil_iff positive, admitted_eq_nil_iff positive, List.head?_cons]
      simp
    rw [head, List.map_cons]
    constructor
    · rintro ⟨reply, ⟨each, -⟩, carried, -⟩
      -- nothing that is loaded for the first row carries it
      have none : reply.rows = [] := by
        cases loaded : reply.rows with
        | nil => rfl
        | cons value values =>
          rw [loaded] at each carried
          obtain ⟨raw, raws, reads, -, admits⟩ := List.forall₂_cons_right_iff.mp each
          obtain ⟨row, behind, holds, -, runs⟩ := List.forall₂_cons_right_iff.mp carried
          have front := runOf_prefix platform (first :: rest) limit 0
          rw [runs] at front
          obtain rfl := (List.cons_prefix_cons.mp front).1
          obtain ⟨members, valued, text⟩ :=
            relation.part_reads row here raw (admitted_cons admits)
          by_cases readable : Readable platform (.object members)
          · rw [text.ok readable, Except.ok.injEq] at reads
            exact absurd (reads ▸ holds) (not_carries_part platform.floats valued)
          · obtain ⟨fault, fails⟩ := text.refused readable
            rw [fails] at reads
            cases reads
      rw [none] at each carried
      exact ⟨List.forall₂_nil_right_iff.mp carried, List.forall₂_nil_right_iff.mp each⟩
    · rintro ⟨run, raws⟩
      refine ⟨⟨[], true⟩, ⟨?_, ?_⟩, ?_, ?_⟩
      · rw [raws]
        exact .nil
      · rw [raws]
        simp
      · rw [run]
        exact .nil
      · rw [run]
        exact iff_of_true rfl ⟨first, rest, rfl⟩

section Query

variable {parseSql : String → Option (List Json)} {rawStream : Json → String} {request : SqlNode}
  {scope : ConnectionScope} {statement : NativeStatement}

theorem queryRows_eq (accepted : nativeStatement parseSql rawStream (.object request) scope false =
    .ok statement) (given : limitOf request = some limit) :
    queryRows parseSql rawStream platform request scope relation =
      (payloads relation).bind fun items =>
        finish platform items (admitted platform limit 0 items) [] := by
  have loop : ∀ items : List (Option String),
      collect platform limit ((items.take (limit + 1)).map (bounded platform)) [] 0 =
        finish platform items (admitted platform limit 0 items) [] := fun items =>
    collect_eq platform items (Nat.zero_add limit)
  rw [queryRows, accepted, given]
  simp only [Except.mapError, orFault_some, ok_bind, loop]
  rfl

/-- **A query replies the complete rows exactly when its limit is one and its rows survive.** -/
theorem queryRows_complete_iff (platform : Platform) (relation : Relation platform)
    (accepted : nativeStatement parseSql rawStream (.object request) scope false = .ok statement) :
    (∃ limit reply, limitOf request = some limit ∧
        queryRows parseSql rawStream platform request scope relation = .ok reply ∧
        Complete limit relation reply) ↔
      ∃ limit, limitOf request = some limit ∧ Survives limit relation := by
  refine exists_congr fun limit => ?_
  rw [exists_and_left]
  refine and_congr_right fun given => ?_
  rw [queryRows_eq accepted given, payloads, Survives]
  cases relation.columns.filter fun column => decide (column.name = derivedName) with
  | nil => exact whole_complete_iff
  | cons column others =>
    cases others with
    | nil =>
      simp only
      by_cases composite : column.composite = true
      · rw [if_pos composite, and_iff_right composite]
        exact part_complete_iff (limitOf_pos given)
      · rw [if_neg composite]
        refine iff_of_false ?_ fun survives => composite survives.1
        rintro ⟨reply, replies, -⟩
        cases replies
    | cons second more =>
      refine iff_of_false ?_ id
      rintro ⟨reply, replies, -⟩
      cases replies

end Query

/-! ## Two names and one -/

open Classical in
/-- Floats that round what is none of them to infinity. -/
noncomputable def sampleFloats : Floats where
  rounds value := if Binary64 value then some value else none
  rounds_iff value := by simp

/-- The text of a row of 1 and 2 under two names. -/
def sampleText (first second : String) : String :=
  "\x7b\"" ++ first ++ "\":1,\"" ++ second ++ "\":2\x7d"

def sampleColumns (first second : String) : List Column :=
  [⟨pyText first, false⟩, ⟨pyText second, false⟩]

def sampleValues : List Written := [.number (.int 1), .number (.int 2)]

noncomputable def samplePlatform (first second : String) : Platform where
  floats := sampleFloats
  depth := 1000
  loads text := if text = sampleText first second then
      .ok (decode sampleFloats (rowObject (sampleColumns first second) sampleValues))
    else .error .value
  octetLength := String.utf8ByteSize

theorem sample_readable (platform : Platform) (deep : 1 ≤ platform.depth)
    (first second : String) :
    Readable platform (rowObject (sampleColumns first second) sampleValues) := by
  have small : 2 < 10 ^ maxStrDigits :=
    Nat.lt_of_lt_of_le (by decide) (Nat.le_self_pow (by decide) 10)
  refine ⟨by simpa [rowObject, sampleColumns, sampleValues, Value.height, Value.heightMembers]
    using deep, ?_⟩
  refine ⟨?_, ?_, trivial⟩
  · exact Nat.lt_of_le_of_lt (by decide) small
  · exact small

theorem sample_depth : 1 ≤ 1000 := by decide

theorem sample_width (first second : String) :
    sampleValues.length = (sampleColumns first second).length := rfl

def sampleRow (first second : String) : Row := ⟨sampleValues, sampleText first second, none⟩

theorem sample_reads (first second : String) : (samplePlatform first second).Reads
    (sampleText first second) (rowObject (sampleColumns first second) sampleValues) where
  ok _ := if_pos rfl
  refused bad := absurd (sample_readable (samplePlatform first second) sample_depth first second)
    bad

/-- `SELECT 1 AS first, 2 AS second`. -/
noncomputable def sampleRelation (first second : String) :
    Relation (samplePlatform first second) where
  columns := sampleColumns first second
  rows := [sampleRow first second]
  width row mem := by
    rw [List.mem_singleton.mp mem]
    exact sample_width first second
  whole_reads row mem := by
    rw [List.mem_singleton.mp mem]
    exact sample_reads first second
  part_reads row mem text inside := by
    rw [List.mem_singleton.mp mem] at inside
    cases inside

def sampleStatement (first second : String) : String :=
  "SELECT 1 AS " ++ first ++ ", 2 AS " ++ second

def sampleTarget (name : String) (value : String) : Json :=
  .object [("@", .string "ResTarget"), ("name", .string name), ("val", .object
    [("@", .string "A_Const"), ("ival", .number value)])]

def sampleParse (first second : String) (sql : String) : Option (List Json) :=
  if sql = sampleStatement first second then
    some [.object [("@", .string "SelectStmt"),
      ("targetList", .array [sampleTarget first "1", sampleTarget second "2"])]]
  else none

def sampleQuery (first second : String) : SqlNode :=
  [("sql", .string (sampleStatement first second))]

theorem repeated_accepted : ∃ statement, nativeStatement (sampleParse "a" "a")
    (fun _ => sampleStatement "a" "a") (.object (sampleQuery "a" "a")) ⟨["SELECT"]⟩ false =
      .ok statement := exists_ok (by decide)

/-! Two columns of a table with two rows, of which one is asked for. -/

def pairValues (pair : Nat × Nat) : List Written :=
  [.number (.int pair.1), .number (.int pair.2)]

def pairText (pair : Nat × Nat) : String :=
  "\x7b\"a\":" ++ toString pair.1 ++ ",\"b\":" ++ toString pair.2 ++ "\x7d"

def storedPairs : List (Nat × Nat) := [(1, 2), (3, 4)]

noncomputable def pairPlatform : Platform where
  floats := sampleFloats
  depth := 1000
  loads text :=
    match storedPairs.find? fun pair => decide (pairText pair = text) with
    | some pair => .ok (decode sampleFloats (rowObject (sampleColumns "a" "b") (pairValues pair)))
    | none => .error .value
  octetLength := String.utf8ByteSize

theorem pair_readable {pair : Nat × Nat} (known : pair ∈ storedPairs) :
    Readable pairPlatform (rowObject (sampleColumns "a" "b") (pairValues pair)) := by
  have small : 4 < 10 ^ maxStrDigits :=
    Nat.lt_of_lt_of_le (by decide) (Nat.le_self_pow (by decide) 10)
  have below : pair.1 ≤ 4 ∧ pair.2 ≤ 4 := by
    revert pair
    decide
  refine ⟨?_, Nat.lt_of_le_of_lt below.1 small, Nat.lt_of_le_of_lt below.2 small, trivial⟩
  simp [rowObject, sampleColumns, pairValues, Value.height, Value.heightMembers, pairPlatform]

theorem pair_found : ∀ pair ∈ storedPairs,
    storedPairs.find? (fun other => decide (pairText other = pairText pair)) = some pair := by
  decide

theorem pair_reads {pair : Nat × Nat} (known : pair ∈ storedPairs) :
    pairPlatform.Reads (pairText pair)
      (rowObject (sampleColumns "a" "b") (pairValues pair)) where
  ok _ := by simp only [pairPlatform, pair_found pair known]
  refused bad := absurd (pair_readable known) bad

def pairRow (pair : Nat × Nat) : Row := ⟨pairValues pair, pairText pair, none⟩

noncomputable def pairRelation : Relation pairPlatform where
  columns := sampleColumns "a" "b"
  rows := storedPairs.map pairRow
  width row mem := by
    obtain ⟨pair, -, rfl⟩ := List.mem_map.mp mem
    rfl
  whole_reads row mem := by
    obtain ⟨pair, known, rfl⟩ := List.mem_map.mp mem
    exact pair_reads known
  part_reads row mem text inside := by
    obtain ⟨pair, -, rfl⟩ := List.mem_map.mp mem
    cases inside

def pairStatement : String := "SELECT a, b FROM pairs ORDER BY a"

def columnReference (name : String) : Json :=
  .object [("@", .string "ColumnRef"), ("fields", .array
    [.object [("@", .string "String"), ("sval", .string name)]])]

def pairParse (sql : String) : Option (List Json) :=
  if sql = pairStatement then
    some [.object [("@", .string "SelectStmt"),
      ("targetList", .array
        [ .object [("@", .string "ResTarget"), ("val", columnReference "a")]
        , .object [("@", .string "ResTarget"), ("val", columnReference "b")] ]),
      ("fromClause", .array [.object [("@", .string "RangeVar"), ("relname", .string "pairs"),
        ("inh", .bool true), ("relpersistence", .string "p")]]),
      ("sortClause", .array [.object [("@", .string "SortBy"), ("node", columnReference "a")]])]]
  else none

def pairQuery : SqlNode := [("sql", .string pairStatement), ("limit", .number "1")]

theorem pair_accepted : ∃ statement, nativeStatement pairParse (fun _ => pairStatement)
    (.object pairQuery) ⟨["SELECT"]⟩ false = .ok statement := exists_ok (by decide)

theorem pair_exact {pair : Nat × Nat} (known : pair ∈ storedPairs) :
    RowExact pairPlatform (sampleColumns "a" "b") (pairRow pair) := by
  refine ⟨pair_readable known, fun entry inside => ?_⟩
  have either : entry = (pyText "a", .number (.int pair.1)) ∨
      entry = (pyText "b", .number (.int pair.2)) := by
    simpa using List.mem_cons.mp inside
  rcases either with rfl | rfl
  · exact ⟨.number (.int pair.1), rfl, trivial, rfl⟩
  · exact ⟨.number (.int pair.2), rfl, trivial, rfl⟩

/-- The first of the two rows is returned as it is, and the other is reported missing. -/
theorem queryRows_complete_distinct :
    ∃ limit reply, limitOf pairQuery = some limit ∧
      queryRows pairParse (fun _ => pairStatement) pairPlatform pairQuery ⟨["SELECT"]⟩
        pairRelation = .ok reply ∧
      Complete limit pairRelation reply ∧ reply.rows.length = 1 ∧ reply.truncated = true := by
  obtain ⟨statement, accepted⟩ := pair_accepted
  obtain ⟨limit, reply, given, replies, complete⟩ :=
    (queryRows_complete_iff pairPlatform pairRelation accepted).mpr ⟨1, rfl, by
      intro run best row mem
      obtain ⟨pair, known, rfl⟩ := List.mem_map.mp (best.leading.subset mem)
      exact pair_exact known⟩
  obtain rfl : 1 = limit := Option.some.inj given
  obtain ⟨run, longest, carries, cut⟩ := id complete
  have first : run = [pairRow (1, 2)] := by
    have fits : ¬ ((1 : Nat) = 0 ∨ maxQueryBytes < (pairText (1, 2)).utf8ByteSize ∨
        maxQueryBytes < 0 + (pairText (1, 2)).utf8ByteSize) := by decide
    exact ((longest_iff _).mp longest).trans (if_neg fits)
  rw [first] at carries cut
  exact ⟨1, reply, given, replies, complete, carries.length_eq.symm,
    cut.mpr ⟨pairRow (3, 4), [], rfl⟩⟩

/-- **Of two columns of one name the row has the last.** -/
theorem repeated_name_incomplete :
    (∃ statement, nativeStatement (sampleParse "a" "a") (fun _ => sampleStatement "a" "a")
      (.object (sampleQuery "a" "a")) ⟨["SELECT"]⟩ false = .ok statement) ∧
    ¬ ∃ limit reply, limitOf (sampleQuery "a" "a") = some limit ∧
      queryRows (sampleParse "a" "a") (fun _ => sampleStatement "a" "a") (samplePlatform "a" "a")
        (sampleQuery "a" "a") ⟨["SELECT"]⟩ (sampleRelation "a" "a") = .ok reply ∧
      Complete limit (sampleRelation "a" "a") reply := by
  obtain ⟨statement, accepted⟩ := repeated_accepted
  refine ⟨⟨statement, accepted⟩, ?_⟩
  rintro ⟨limit, reply, given, replies, complete⟩
  obtain rfl : 1000 = limit := Option.some.inj given
  have plain : (sampleColumns "a" "a").filter (fun column => decide (column.name = derivedName)) =
      [] := by decide
  have direct : payloads (sampleRelation "a" "a") =
      .ok ((sampleRelation "a" "a").rows.map fun row => some row.whole) := by
    rw [payloads]
    simp only [sampleRelation, plain]
  rw [queryRows_eq accepted given, direct, Except.bind] at replies
  have survive := whole_complete_iff.mp ⟨reply, replies, complete⟩
  have fits : ¬ ((1000 : Nat) = 0 ∨ maxQueryBytes < (sampleText "a" "a").utf8ByteSize ∨
      maxQueryBytes < 0 + (sampleText "a" "a").utf8ByteSize) := by decide
  have run : sampleRow "a" "a" ∈
      runOf (samplePlatform "a" "a") 1000 0 (sampleRelation "a" "a").rows := by
    rw [sampleRelation, runOf]
    exact (if_neg fits).symm ▸ List.mem_cons_self
  obtain ⟨last, found, -, same⟩ := (survive _ ((longest_iff _).mpr rfl) _ run).kept
    (pyText "a", .number (.int 1)) List.mem_cons_self
  obtain rfl : .number (.int 2) = last := Option.some.inj found
  simp [Value.decimals, Value.map, Numeral.value] at same

end SkillMind.Agent.NativeQuery
