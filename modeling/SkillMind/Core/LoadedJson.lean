import SkillMind.Core.CodePoints
import SkillMind.Core.JsonText

/-!
# JSON as a Python program holds it

`json.loads` takes an escape of a surrogate alone, so the texts of a loaded value are lists of code
points.  It also takes numbers beyond the floats and, without the hooks of the program, `NaN` and a
key twice.  The canonical text of such a value is a text that may have no encoding.
-/

namespace SkillMind.Core

inductive PyJson where
  | null
  | bool (value : Bool)
  /-- By the text that is written for it; an infinity has none. -/
  | number (literal : Option String)
  /-- `NaN`, `Infinity` or `-Infinity`. -/
  | constant (name : String)
  | string (text : PyText)
  | array (items : List PyJson)
  | object (fields : List (PyText × PyJson))

namespace PyJson

mutual
/-- Every value at or below a value passes a test. -/
def all (test : PyJson → Bool) : PyJson → Bool
  | .array items => test (.array items) && allItems test items
  | .object fields => test (.object fields) && allFields test fields
  | value => test value

def allItems (test : PyJson → Bool) : List PyJson → Bool
  | [] => true
  | item :: rest => item.all test && allItems test rest

def allFields (test : PyJson → Bool) : List (PyText × PyJson) → Bool
  | [] => true
  | (_, value) :: rest => value.all test && allFields test rest
end

mutual
/-- The nesting of arrays and objects. -/
def height : PyJson → Nat
  | .array items => heightItems items + 1
  | .object fields => heightFields fields + 1
  | _ => 0

def heightItems : List PyJson → Nat
  | [] => 0
  | item :: rest => max item.height (heightItems rest)

def heightFields : List (PyText × PyJson) → Nat
  | [] => 0
  | (_, value) :: rest => max value.height (heightFields rest)
end

/-- `_constant` and `_object` return: no constant, and no object with a key twice. -/
def hooksReturn : PyJson → Bool
  | .constant _ => false
  | .object fields => decide (fields.map Prod.fst).Nodup
  | _ => true

/-- `allow_nan=False`. -/
def isFinite : PyJson → Bool
  | .number none => false
  | .constant _ => false
  | _ => true

def hasSurrogate (text : PyText) : Bool := text.any fun point => decide point.IsSurrogate

/-- No text of a node has a surrogate. -/
def isScalar : PyJson → Bool
  | .string text => !hasSurrogate text
  | .object fields => fields.all fun field => !hasSurrogate field.1
  | _ => true

/-! ## The text -/

/-- A code point of a JSON string, written with `ensure_ascii=False`. -/
def escapedPoint (point : CodePoint) : PyText :=
  match point.toChar? with
  | some c => (escaped c).map CodePoint.ofChar
  | none => [point]

def quote : CodePoint := CodePoint.ofChar (Char.ofNat 0x22)

def quotedText (text : PyText) : PyText := quote :: text.flatMap escapedPoint ++ [quote]

/-- The order of texts by code points. -/
def pyTextLe : PyText → PyText → Bool
  | [], _ => true
  | _ :: _, [] => false
  | c :: rest, d :: rest' => c.value < d.value || (c.value == d.value && pyTextLe rest rest')

def joined (parts : List PyText) : PyText := (pyText ",").intercalate parts

mutual
def dumpText : PyJson → PyText
  | .null => pyText "null"
  | .bool true => pyText "true"
  | .bool false => pyText "false"
  | .number literal => pyText (literal.getD "Infinity")
  | .constant name => pyText name
  | .string text => quotedText text
  | .array items => pyText "[" ++ joined (dumpItems items) ++ pyText "]"
  | .object fields =>
    pyText "\x7b" ++
      joined (((dumpFields fields).insertionSort fun first second =>
        pyTextLe first.1 second.1 = true).map Prod.snd) ++ pyText "\x7d"

def dumpItems : List PyJson → List PyText
  | [] => []
  | item :: rest => item.dumpText :: dumpItems rest

/-- Each member with its key. -/
def dumpFields : List (PyText × PyJson) → List (PyText × PyText)
  | [] => []
  | (key, value) :: rest =>
    (key, quotedText key ++ pyText ":" ++ value.dumpText) :: dumpFields rest
end

theorem allItems_iff {test : PyJson → Bool} {items : List PyJson} :
    allItems test items = true ↔ ∀ item ∈ items, item.all test = true := by
  induction items with
  | nil => simp [allItems]
  | cons item rest ih => simp [allItems, ih]

theorem allFields_iff {test : PyJson → Bool} {fields : List (PyText × PyJson)} :
    allFields test fields = true ↔ ∀ field ∈ fields, field.2.all test = true := by
  induction fields with
  | nil => simp [allFields]
  | cons field rest ih => simp [allFields, ih]

theorem heightItems_le {items : List PyJson} {bound : Nat} :
    heightItems items ≤ bound ↔ ∀ item ∈ items, item.height ≤ bound := by
  induction items with
  | nil => simp [heightItems]
  | cons item rest ih => simp [heightItems, ih]

theorem heightFields_le {fields : List (PyText × PyJson)} {bound : Nat} :
    heightFields fields ≤ bound ↔ ∀ field ∈ fields, field.2.height ≤ bound := by
  induction fields with
  | nil => simp [heightFields]
  | cons field rest ih => simp [heightFields, ih]

theorem hasSurrogate_append (text rest : PyText) :
    hasSurrogate (text ++ rest) = (hasSurrogate text || hasSurrogate rest) := List.any_append

theorem hasSurrogate_pyText (text : String) : hasSurrogate (pyText text) = false := by
  rw [hasSurrogate, List.any_eq_false]
  intro point mem
  obtain ⟨c, -, rfl⟩ := List.mem_map.mp mem
  rw [decide_eq_true_eq, ← CodePoint.toChar?_eq_none_iff, CodePoint.toChar?_ofChar]
  exact Option.some_ne_none c

theorem encodeUtf8_isSome_iff {text : PyText} :
    (encodeUtf8 text).isSome = true ↔ hasSurrogate text = false := by
  rw [encodeUtf8, Option.isSome_map, toChars?_isSome_iff, hasSurrogate, List.any_eq_false]
  simp only [decide_eq_true_eq]

theorem hasSurrogate_escapedPoint (point : CodePoint) :
    hasSurrogate (escapedPoint point) = decide point.IsSurrogate := by
  rw [escapedPoint]
  cases read : point.toChar? with
  | none =>
    rw [hasSurrogate, List.any_cons, List.any_nil, Bool.or_false]
  | some c =>
    have plain : ¬ point.IsSurrogate := by
      rw [← CodePoint.toChar?_eq_none_iff, read]
      exact Option.some_ne_none c
    have none := hasSurrogate_pyText (String.ofList (escaped c))
    rw [pyText, String.toList_ofList] at none
    rw [decide_eq_false plain]
    exact none

theorem hasSurrogate_quotedText (text : PyText) :
    hasSurrogate (quotedText text) = hasSurrogate text := by
  have inside : hasSurrogate (text.flatMap escapedPoint) = hasSurrogate text := by
    induction text with
    | nil => rfl
    | cons point rest ih =>
      rw [List.flatMap_cons, hasSurrogate_append, hasSurrogate_escapedPoint, ih]
      rfl
  have outside : hasSurrogate [quote] = false := by decide
  rw [quotedText, ← List.singleton_append, hasSurrogate_append, hasSurrogate_append, outside,
    inside, Bool.false_or, Bool.or_false]

theorem hasSurrogate_joined (parts : List PyText) :
    hasSurrogate (joined parts) = parts.any hasSurrogate := by
  have comma : hasSurrogate (pyText ",") = false := hasSurrogate_pyText ","
  rw [joined]
  induction parts with
  | nil => rfl
  | cons part rest ih =>
    cases rest with
    | nil => simp
    | cons next rest =>
      rw [List.intercalate_cons_cons, hasSurrogate_append, hasSurrogate_append, comma, ih]
      simp

mutual
theorem hasSurrogate_dumpText :
    ∀ value : PyJson, hasSurrogate value.dumpText = !value.all isScalar
  | .null => hasSurrogate_pyText _
  | .bool true => hasSurrogate_pyText _
  | .bool false => hasSurrogate_pyText _
  | .number _ => hasSurrogate_pyText _
  | .constant _ => hasSurrogate_pyText _
  | .string text => by
    rw [dumpText, hasSurrogate_quotedText, all, isScalar, Bool.not_not]
    all_goals nofun
  | .array items => by
    rw [dumpText, hasSurrogate_append, hasSurrogate_append, hasSurrogate_joined,
      hasSurrogate_pyText, hasSurrogate_pyText, Bool.false_or, Bool.or_false,
      hasSurrogate_dumpItems items, all, isScalar, Bool.true_and]
    all_goals nofun
  | .object fields => by
    have sorted := ((dumpFields fields).perm_insertionSort fun first second =>
      pyTextLe first.1 second.1 = true).map Prod.snd
    rw [dumpText, hasSurrogate_append, hasSurrogate_append, hasSurrogate_joined,
      hasSurrogate_pyText, hasSurrogate_pyText, Bool.false_or, Bool.or_false, sorted.any_eq,
      hasSurrogate_dumpFields fields, all, isScalar]

theorem hasSurrogate_dumpItems :
    ∀ items : List PyJson, (dumpItems items).any hasSurrogate = !allItems isScalar items
  | [] => rfl
  | item :: rest => by
    rw [dumpItems, List.any_cons, hasSurrogate_dumpText item, hasSurrogate_dumpItems rest, allItems,
      Bool.not_and]

theorem hasSurrogate_dumpFields :
    ∀ fields : List (PyText × PyJson), ((dumpFields fields).map Prod.snd).any hasSurrogate =
      !((fields.all fun field => !hasSurrogate field.1) && allFields isScalar fields)
  | [] => rfl
  | (key, value) :: rest => by
    rw [dumpFields, List.map_cons, List.any_cons, hasSurrogate_append, hasSurrogate_append,
      hasSurrogate_quotedText, hasSurrogate_pyText, Bool.or_false, hasSurrogate_dumpText value,
      hasSurrogate_dumpFields rest, List.all_cons, allFields]
    cases hasSurrogate key <;> cases value.all isScalar <;> simp
end

end PyJson

end SkillMind.Core
