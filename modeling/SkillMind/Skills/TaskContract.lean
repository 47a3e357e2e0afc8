import SkillMind.Core.LoadedJson
import SkillMind.Library.Association
import SkillMind.Skills.SourceStorage
import Mathlib.Data.Rat.Defs

/-!
# Contracts of tasks

A draft describes the values of a task by a tree of nodes.  `compile_task_contract` checks the tree
and writes a schema that accepts what the draft describes.  The schema is then encoded as canonical
JSON for its checksum, and the encoder refuses what no check of a node refuses: a bound that is not
finite, and a text with a surrogate.
-/

namespace SkillMind.Skills.TaskContract

open Library SkillMind.Core

def maxContractFields : Nat := 100
def maxContractDepth : Nat := 5
def maxEnumValues : Nat := 50
def maxDescriptionLength : Nat := 500
def maxPatternLength : Nat := 128
def maxStringLength : Nat := 100000

/-! ## Values -/

/-- An `int` or a `float`. -/
inductive Number where
  | int (value : ℤ)
  | float (value : ℚ)
  | infinity (negative : Bool)
  | nan
  deriving DecidableEq

namespace Number

def isFinite : Number → Bool
  | .int _ => true
  | .float _ => true
  | _ => false

/-- `first < second`, exact between the two types. -/
def less : Number → Number → Bool
  | .nan, _ => false
  | _, .nan => false
  | .infinity first, .infinity second => first && !second
  | .infinity first, _ => first
  | _, .infinity second => !second
  | .int first, .int second => decide (first < second)
  | .int first, .float second => decide ((first : ℚ) < second)
  | .float first, .int second => decide (first < (second : ℚ))
  | .float first, .float second => decide (first < second)

/-- `first == second`. -/
def same (first second : Number) : Bool :=
  decide (first ≠ .nan) && decide (second ≠ .nan) && !first.less second && !second.less first

/-- A number without a fraction. -/
def isIntegral : Number → Bool
  | .int _ => true
  | .float value => decide (value.den = 1)
  | _ => false

end Number

/-- What `json.loads` returns. -/
inductive Value where
  | null
  | bool (value : Bool)
  | number (value : Number)
  | string (text : PyText)
  | array (items : List Value)
  | object (fields : List (PyText × Value))

/-- A `dict`. -/
abbrev Fields := List (PyText × Value)

namespace Value

mutual
/-- Every value at or below a value passes a test. -/
def all (test : Value → Bool) : Value → Bool
  | .array items => test (.array items) && allItems test items
  | .object fields => test (.object fields) && allFields test fields
  | value => test value

def allItems (test : Value → Bool) : List Value → Bool
  | [] => true
  | item :: rest => item.all test && allItems test rest

def allFields (test : Value → Bool) : List (PyText × Value) → Bool
  | [] => true
  | (_, value) :: rest => value.all test && allFields test rest
end

/-- `allow_nan=False`. -/
def isFinite : Value → Bool
  | .number value => value.isFinite
  | _ => true

/-- The canonical text of a node has an encoding. -/
def isPlain : Value → Bool
  | .number value => value.isFinite
  | .string text => !PyJson.hasSurrogate text
  | .object fields => fields.all fun field => !PyJson.hasSurrogate field.1
  | _ => true

/-- `first == second` of two scalars. -/
def same : Value → Value → Bool
  | .null, .null => true
  | .bool first, .bool second => first == second
  | .number first, .number second => first.same second
  | .string first, .string second => decide (first = second)
  | _, _ => false

end Value

/-- `node.get(key)`. -/
def get (key : String) (node : Fields) : Value := (node.lookup (pyText key)).getD .null

/-- What `Draft202012Validator.check_schema` and `re.compile` raise. -/
inductive Raised where
  | schemaError
  | other (name : String)

inductive Fault where
  /-- `TaskContractCompilationError`. -/
  | failure (code path : String) (message : PyText)
  | valueError
  | unicodeEncodeError
  | raised (raised : Raised)

def failure (code path message : String) : Fault := .failure code path (pyText message)

/-- `_ALLOWED_TYPES`. -/
inductive Kind where
  | array
  | boolean
  | integer
  | number
  | object
  | string
  deriving DecidableEq

namespace Kind

def name : Kind → String
  | .array => "array"
  | .boolean => "boolean"
  | .integer => "integer"
  | .number => "number"
  | .object => "object"
  | .string => "string"

def kinds : List Kind := [.array, .boolean, .integer, .number, .object, .string]

/-- `allowed_by_type`. -/
def allowed : Kind → List String
  | .object => ["fields"]
  | .array => ["items"]
  | .string => ["enum", "max_length", "min_length", "pattern"]
  | .integer => ["enum", "maximum", "minimum"]
  | .number => ["enum", "maximum", "minimum"]
  | .boolean => ["enum"]

end Kind

def dialect : PyText := pyText "https://json-schema.org/draft/2020-12/schema"

def natural (value : Nat) : Value := .number (.int value)

/-- What `re.compile` does with a pattern. -/
inductive Compiling where
  | compiled
  | reError
  /-- It raises what is no `re.error`, as `OverflowError` for a code point from `2 ^ 31` on. -/
  | other (name : String)
  deriving DecidableEq

inductive MetaKeyword (compiling : PyText → Compiling) : String → Value → Prop where
  | dialect : MetaKeyword compiling "$schema" (.string dialect)
  | type (kind : Kind) : MetaKeyword compiling "type" (.string (pyText kind.name))
  | description (text : PyText) : MetaKeyword compiling "description" (.string text)
  | enum (values : List Value) : MetaKeyword compiling "enum" (.array values)
  | required (names : List PyText) (distinct : names.Nodup) :
      MetaKeyword compiling "required" (.array (names.map .string))
  | additional (flag : Bool) : MetaKeyword compiling "additionalProperties" (.bool flag)
  | minLength (least : Nat) : MetaKeyword compiling "minLength" (natural least)
  | maxLength (most : Nat) : MetaKeyword compiling "maxLength" (natural most)
  | pattern {text : PyText} (valid : compiling text = .compiled) :
      MetaKeyword compiling "pattern" (.string text)
  | minimum (least : Number) : MetaKeyword compiling "minimum" (.number least)
  | maximum (most : Number) : MetaKeyword compiling "maximum" (.number most)

inductive MetaSchema (compiling : PyText → Compiling) : Fields → Prop where
  | nil : MetaSchema compiling []
  | keyword {key : String} {value : Value} {rest : Fields}
      (valid : MetaKeyword compiling key value) (others : MetaSchema compiling rest) :
      MetaSchema compiling ((pyText key, value) :: rest)
  | items {schema rest : Fields} (valid : MetaSchema compiling schema)
      (others : MetaSchema compiling rest) :
      MetaSchema compiling ((pyText "items", .object schema) :: rest)
  | properties {schemas : List (PyText × Fields)} {rest : Fields}
      (valid : ∀ schema ∈ schemas, MetaSchema compiling schema.2)
      (others : MetaSchema compiling rest) :
      MetaSchema compiling ((pyText "properties",
        .object (schemas.map fun schema => (schema.1, .object schema.2))) :: rest)

/-- `re`, `jsonschema` and the hash. -/
structure ContractLibrary where
  /-- `re.compile`. -/
  compiling : PyText → Compiling
  /-- `re.search` finds the pattern. -/
  search : PyText → PyText → Bool
  checkSchema : Fields → Except Raised Unit
  /-- `sha256_hex` of the canonical text. -/
  checksum : Fields → String
  /-- `check_schema` raises nothing of what the meta-schema accepts. -/
  checkSchema_ok : ∀ schema, MetaSchema compiling schema → checkSchema schema = .ok ()

/-- What the checks hand over: the value of an enum to `canonical_json`, a pattern to
`re.compile`. -/
inductive Handed where
  | value (value : Value)
  | pattern (text : PyText)

/-- Which exceptions are raised that the checks do not translate. -/
abbrev Raises := Handed → Option Fault

def handOver (raises : Raises) (handed : Handed) : Except Fault Unit :=
  match raises handed with
  | some fault => .error fault
  | none => .ok ()

/-! ## Checks of the keywords -/

def commonKeys : List String :=
  ["description", "enum", "fields", "items", "max_length", "maximum", "min_length", "minimum",
    "pattern", "type"]

def structural : List String :=
  ["enum", "fields", "items", "max_length", "maximum", "min_length", "minimum", "pattern"]

/-- `', '.join(sorted(keys))`. -/
def joinedKeys (keys : List PyText) : PyText :=
  (pyText ", ").intercalate
    (keys.insertionSort fun first second => PyJson.pyTextLe first second = true)

def rejectUnknownKeys (allowed : List String) (path : String) (node : Fields) :
    Except Fault Unit :=
  let unknown := (node.map Prod.fst).filter fun key => !(allowed.map pyText).contains key
  require (unknown = [])
    (.failure "contract_keyword_unknown" path (pyText "Unsupported contract keys: " ++
      joinedKeys unknown))

def rejectInapplicableKeywords (kind : Kind) (path : String) (node : Fields) :
    Except Fault Unit :=
  let unsupported := (node.map Prod.fst).filter fun key =>
    (structural.map pyText).contains key && !(kind.allowed.map pyText).contains key
  require (unsupported = [])
    (.failure "contract_keyword_inapplicable" path
      (pyText ("Keywords are not valid for type " ++ kind.name ++ ": ") ++ joinedKeys unsupported))

/-- `value_type`. -/
def typeOf (path : String) (node : Fields) : Except Fault Kind :=
  orFault (failure "contract_type_invalid" (path ++ "type") "Contract type is invalid")
    (match get "type" node with
    | .string text => Kind.kinds.find? fun kind => pyText kind.name = text
    | _ => none)

/-- `description.strip()` is not empty. -/
def isBlank (text : PyText) : Bool :=
  text.all fun point =>
    match point.toChar? with
    | some c => isSpace c
    | none => false

def compileDescription (path : String) (node : Fields) : Except Fault Fields :=
  match get "description" node with
  | .null => .ok []
  | .string text => do
    require (isBlank text = false)
      (failure "contract_description_invalid" (path ++ "description")
        "Description must be a non-empty string")
    require (text.length ≤ maxDescriptionLength)
      (failure "contract_description_too_long" (path ++ "description")
        "Description must not exceed 500 characters")
    .ok [(pyText "description", .string text)]
  | _ => .error (failure "contract_description_invalid" (path ++ "description")
      "Description must be a non-empty string")

def matchesType : Value → Kind → Bool
  | .string _, .string => true
  | .bool _, .boolean => true
  | .number (.int _), .integer => true
  | .number _, .number => true
  | _, _ => false

/-- The loop over the values of an enum. -/
def compileValues (raises : Raises) (kind : Kind) (path : String) :
    Nat → List Value → List Value → Except Fault (List Value)
  | _, [], normalized => .ok normalized
  | index, value :: rest, normalized => do
    let place := path ++ "enum/" ++ toString index
    require (matchesType value kind = true)
      (failure "contract_enum_type_mismatch" place "Enum value does not match contract type")
    handOver raises (.value value)
    require (normalized.any value.same = false)
      (failure "contract_enum_duplicate" place "Enum values must be unique")
    compileValues raises kind path (index + 1) rest (normalized ++ [value])

def compileEnum (raises : Raises) (kind : Kind) (path : String) (node : Fields) :
    Except Fault Fields :=
  match get "enum" node with
  | .null => .ok []
  | .array values => do
    require (kind ≠ .array ∧ kind ≠ .object)
      (failure "contract_enum_invalid" (path ++ "enum") "Enum is supported only for scalar types")
    require (values ≠ [] ∧ values.length ≤ maxEnumValues)
      (failure "contract_enum_limit_exceeded" (path ++ "enum")
        "Enum must contain 1 to 50 values")
    let normalized ← compileValues raises kind path 0 values []
    .ok [(pyText "enum", .array normalized)]
  | _ => .error (failure "contract_enum_invalid" (path ++ "enum")
      "Enum is supported only for scalar types")

def optionalInteger (key : String) (upper : Option Nat) (path : String) (node : Fields) :
    Except Fault (Option Nat) :=
  match get key node with
  | .null => .ok none
  | .number (.int value) => do
    require (0 ≤ value ∧ ∀ bound ∈ upper, value.toNat ≤ bound)
      (failure "contract_constraint_out_of_range" (path ++ key) (key ++ " is out of range"))
    .ok (some value.toNat)
  | _ => .error (failure "contract_constraint_invalid" (path ++ key) (key ++ " must be integer"))

def optionalNumber (key path : String) (node : Fields) : Except Fault (Option Number) :=
  match get key node with
  | .null => .ok none
  | .number value => .ok (some value)
  | _ => .error (failure "contract_constraint_invalid" (path ++ key) (key ++ " must be numeric"))

/-- `_UNSAFE_PATTERN_PARTS`. -/
def unsafeParts : List PyText :=
  ["(", ")", "\x7b", "\x7d", "|", "\\1", "\\2", "\\k", "\\g"].map pyText

/-- `part in text`. -/
def occursIn (part : PyText) : PyText → Bool
  | [] => part.isEmpty
  | c :: rest => part.isPrefixOf (c :: rest) || occursIn part rest

/-- The pattern, where it is one of the safe subset. -/
def compilePattern (library : ContractLibrary) (raises : Raises) (path : String)
    (node : Fields) : Except Fault (Option PyText) :=
  let invalid := failure "contract_pattern_invalid" (path ++ "pattern")
    "Pattern must contain 1 to 128 characters"
  match get "pattern" node with
  | .null => .ok none
  | .string pattern => do
    require (pattern ≠ [] ∧ pattern.length ≤ maxPatternLength) invalid
    require (unsafeParts.any (fun part => occursIn part pattern) = false)
      (failure "contract_pattern_unsafe" (path ++ "pattern")
        "Pattern uses constructs unsupported by TaskContract v1")
    handOver raises (.pattern pattern)
    require (library.compiling pattern = .compiled)
      (failure "contract_pattern_invalid" (path ++ "pattern") "Pattern is invalid")
    .ok (some pattern)
  | _ => .error invalid

def keyword (key : String) (value : Option Value) : Fields :=
  (value.map fun value => (pyText key, value)).toList

def compileString (library : ContractLibrary) (raises : Raises) (path : String)
    (node : Fields) : Except Fault Fields := do
  let minimum ← optionalInteger "min_length" none path node
  let maximum ← optionalInteger "max_length" (some maxStringLength) path node
  require (∀ least ∈ minimum, ∀ greatest ∈ maximum, least ≤ greatest)
    (failure "contract_string_range_invalid" path "min_length must not exceed max_length")
  let pattern ← compilePattern library raises path node
  .ok (keyword "minLength" (minimum.map natural) ++ keyword "maxLength" (maximum.map natural) ++
    keyword "pattern" (pattern.map .string))

def compileNumber (path : String) (node : Fields) : Except Fault Fields := do
  let minimum ← optionalNumber "minimum" path node
  let maximum ← optionalNumber "maximum" path node
  require (∀ least ∈ minimum, ∀ greatest ∈ maximum, greatest.less least = false)
    (failure "contract_number_range_invalid" path "minimum must not exceed maximum")
  .ok (keyword "minimum" (minimum.map .number) ++ keyword "maximum" (maximum.map .number))

/-! ## Nodes -/

/-- How a node below is compiled: at a path, with the fields counted so far. -/
abbrev Compile := String → Fields → Nat → Except Fault (Fields × Nat)

/-- `_KEY_PATTERN.fullmatch(key)`. -/
def isFieldKey : PyText → Bool
  | [] => false
  | first :: rest =>
    (97 ≤ first.value && first.value ≤ 122) && decide (rest.length ≤ 63) &&
      rest.all fun point => (97 ≤ point.value && point.value ≤ 122) ||
        (48 ≤ point.value && point.value ≤ 57) || point.value == 95

def keyOf (path : String) (field : Fields) : Except Fault PyText :=
  let invalid := failure "contract_field_key_invalid" (path ++ "key")
    "Field key must use lower snake_case"
  match get "key" field with
  | .string key => do
    require (isFieldKey key = true) invalid
    .ok key
  | _ => .error invalid

def requiredOf (path : String) (field : Fields) : Except Fault Bool :=
  match get "required" field with
  | .bool value => .ok value
  | _ => .error (failure "contract_required_invalid" (path ++ "required")
      "Field required must be a boolean")

/-- One field, behind those with the known keys. -/
def compileField (compile : Compile) (path : String) (known : List PyText) (raw : Value)
    (count : Nat) : Except Fault ((PyText × Bool × Fields) × Nat) :=
  match raw with
  | .object field => do
    rejectUnknownKeys (commonKeys ++ ["key", "required"]) path field
    let key ← keyOf path field
    require (known.contains key = false)
      (.failure "contract_field_duplicate" (path ++ "key")
        (pyText "Duplicate field key: " ++ key))
    let needed ← requiredOf path field
    require (count + 1 ≤ maxContractFields)
      (failure "contract_field_limit_exceeded" path
        "Contract must not contain more than 100 fields")
    let (schema, counted) ← compile path field (count + 1)
    .ok ((key, needed, schema), counted)
  | _ => .error (failure "contract_field_invalid" path "Field must be an object")

def compileFields (compile : Compile) (path : String) :
    Nat → List Value → List (PyText × Bool × Fields) → Nat →
      Except Fault (List (PyText × Bool × Fields) × Nat)
  | _, [], done, count => .ok (done, count)
  | index, raw :: rest, done, count => do
    let (field, counted) ← compileField compile (path ++ "fields/" ++ toString index ++ "/")
      (done.map Prod.fst) raw count
    compileFields compile path (index + 1) rest (done ++ [field]) counted

/-- `node.get("fields", [])`. -/
def fieldsOf (path : String) (node : Fields) : Except Fault (List Value) :=
  match node.lookup (pyText "fields") with
  | none => .ok []
  | some (.array fields) => .ok fields
  | some _ => .error (failure "contract_fields_invalid" (path ++ "fields")
      "Fields must be an array")

def objectKeywords (done : List (PyText × Bool × Fields)) : Fields :=
  let required := (done.filter fun field => field.2.1).map Prod.fst
  [(pyText "properties", .object (done.map fun field => (field.1, .object field.2.2))),
    (pyText "additionalProperties", .bool false)] ++
    if required = [] then [] else
      [(pyText "required", .array ((required.insertionSort fun first second =>
        PyJson.pyTextLe first second = true).map .string))]

def compileObject (compile : Compile) (path : String) (node : Fields) (count : Nat) :
    Except Fault (Fields × Nat) := do
  let fields ← fieldsOf path node
  let (done, counted) ← compileFields compile path 0 fields [] count
  .ok (objectKeywords done, counted)

def compileArray (compile : Compile) (path : String) (node : Fields) (count : Nat) :
    Except Fault (Fields × Nat) :=
  match get "items" node with
  | .object item => do
    rejectUnknownKeys commonKeys (path ++ "items/") item
    let (schema, counted) ← compile (path ++ "items/") item count
    .ok ([(pyText "items", .object schema)], counted)
  | _ => .error (failure "contract_items_missing" (path ++ "items")
      "Array items contract is required")

/-- The keywords of the type of a node. -/
def compileKind (library : ContractLibrary) (raises : Raises) (compile : Compile) (kind : Kind)
    (path : String) (node : Fields) (count : Nat) : Except Fault (Fields × Nat) :=
  match kind with
  | .object => compileObject compile path node count
  | .array => compileArray compile path node count
  | .string => (compileString library raises path node).map fun keywords => (keywords, count)
  | .integer => (compileNumber path node).map fun keywords => (keywords, count)
  | .number => (compileNumber path node).map fun keywords => (keywords, count)
  | .boolean => .ok ([], count)

/-- `_compile_node`; the first argument is what is left of the depth. -/
def compileNode (library : ContractLibrary) (raises : Raises) : Nat → Compile
  | 0, path, _, _ => .error (failure "contract_depth_exceeded" path
      "Contract nesting depth must not exceed 5")
  | left + 1, path, node, count => do
    let kind ← typeOf path node
    let description ← compileDescription path node
    let values ← compileEnum raises kind path node
    let (keywords, counted) ← compileKind library raises (compileNode library raises left) kind
      path node count
    rejectInapplicableKeywords kind path node
    .ok ((pyText "type", .string (pyText kind.name)) :: description ++ values ++ keywords,
      counted)

structure CompiledTaskContract where
  schema : Fields
  checksum : String

def contractVersion : PyText := pyText "skillmind.task-contract-draft/v1"

/-- The checks of a draft, where what they hand over raises as it is told to. -/
def compileDraft (library : ContractLibrary) (raises : Raises) (draft : Fields) :
    Except Fault Fields := do
  rejectUnknownKeys (commonKeys ++ ["contract_version"]) "/" draft
  let isVersion := match get "contract_version" draft with
    | .string text => decide (text = contractVersion)
    | _ => false
  require (isVersion = true)
    (failure "contract_version_invalid" "/contract_version"
      "contract_version must be skillmind.task-contract-draft/v1")
  let (schema, _) ← compileNode library raises maxContractDepth "/" draft 0
  .ok ((pyText "$schema", .string dialect) :: schema)

/-- `canonical_json`, for the schema as for the value of an enum. -/
def refused (value : Value) : Bool := !value.all Value.isFinite

/-- What is raised out of the checks: `ValueError` by `canonical_json`, and by `re.compile`
whatever `except re.error` lets through. -/
def raisedOf (library : ContractLibrary) : Raises
  | .value value => if refused value then some .valueError else none
  | .pattern text =>
    match library.compiling text with
    | .other name => some (.raised (.other name))
    | _ => none

def checksumOf (library : ContractLibrary) (schema : Fields) : Except Fault String := do
  require (refused (.object schema) = false) .valueError
  require ((Value.object schema).all Value.isPlain = true) .unicodeEncodeError
  .ok ("sha256:" ++ library.checksum schema)

def compileTaskContract (library : ContractLibrary) (draft : Fields) :
    Except Fault CompiledTaskContract := do
  let schema ← compileDraft library (raisedOf library) draft
  match library.checkSchema schema with
  | .error raised => .error (.raised raised)
  | .ok () => do
    let checksum ← checksumOf library schema
    .ok ⟨schema, checksum⟩

variable (library : ContractLibrary)

/-- The type of a schema, where an integer has no fraction. -/
def HasType (name : PyText) : Value → Prop
  | .null => name = pyText "null"
  | .bool _ => name = pyText "boolean"
  | .number value => name = pyText "number" ∨ name = pyText "integer" ∧ value.isIntegral = true
  | .string _ => name = pyText "string"
  | .array _ => name = pyText "array"
  | .object _ => name = pyText "object"

/-- A member of a schema. -/
def at? (key : String) (schema : Fields) : Option Value := schema.lookup (pyText key)

/-- `properties` of a schema. -/
def propertiesOf (schema : Fields) : Fields :=
  match at? "properties" schema with
  | some (.object properties) => properties
  | _ => []

structure TextHolds (schema : Fields) (text : PyText) : Prop where
  minLength : ∀ least, at? "minLength" schema = some (.number (.int least)) → least ≤ text.length
  maxLength : ∀ most, at? "maxLength" schema = some (.number (.int most)) → text.length ≤ most
  pattern : ∀ pattern, at? "pattern" schema = some (.string pattern) →
    library.search pattern text = true

structure NumberHolds (schema : Fields) (value : Number) : Prop where
  minimum : ∀ least, at? "minimum" schema = some (.number least) → value.less least = false
  maximum : ∀ most, at? "maximum" schema = some (.number most) → most.less value = false

/-- The keywords that look at the keys of an object. -/
structure KeysHold (schema : Fields) (keys : List PyText) : Prop where
  required : ∀ names, at? "required" schema = some (.array names) →
    ∀ name, .string name ∈ names → name ∈ keys
  additional : at? "additionalProperties" schema = some (.bool false) →
    ∀ key ∈ keys, key ∈ (propertiesOf schema).map Prod.fst

/-- The keywords that look at a value of any type. -/
structure AnyHolds (schema : Fields) (value : Value) : Prop where
  type : ∀ name, at? "type" schema = some (.string name) → HasType name value
  enum : ∀ values, at? "enum" schema = some (.array values) → ∃ one ∈ values, one.same value = true

mutual
/-- A value is valid by a schema of Draft 2020-12, as far as a contract uses its keywords. -/
def Valid : Value → Fields → Prop
  | .string text, schema => AnyHolds schema (.string text) ∧ TextHolds library schema text
  | .number value, schema => AnyHolds schema (.number value) ∧ NumberHolds schema value
  | .array items, schema => AnyHolds schema (.array items) ∧
      ∀ sub, at? "items" schema = some (.object sub) → ValidItems items sub
  | .object fields, schema => AnyHolds schema (.object fields) ∧
      KeysHold schema (fields.map Prod.fst) ∧ ValidMembers fields (propertiesOf schema)
  | value, schema => AnyHolds schema value

def ValidItems : List Value → Fields → Prop
  | [], _ => True
  | item :: rest, sub => Valid item sub ∧ ValidItems rest sub

def ValidMembers : Fields → Fields → Prop
  | [], _ => True
  | (key, value) :: rest, properties =>
    (∀ sub, properties.lookup key = some (.object sub) → Valid value sub) ∧
      ValidMembers rest properties
end

/-! ## What a contract describes -/

def enumOf (node : Fields) : Option (List Value) :=
  match get "enum" node with
  | .array values => some values
  | _ => none

def lengthOf (key : String) (node : Fields) : Option Nat :=
  match get key node with
  | .number (.int value) => some value.toNat
  | _ => none

def boundOf (key : String) (node : Fields) : Option Number :=
  match get key node with
  | .number value => some value
  | _ => none

def textOf (key : String) (node : Fields) : Option PyText :=
  match get key node with
  | .string text => some text
  | _ => none

def patternOf (node : Fields) : Option PyText := textOf "pattern" node

/-- A field of a contract: its key, whether it is required, and its node. -/
def declaredField : Value → Option (PyText × Bool × Fields)
  | .object field =>
    match get "key" field, get "required" field with
    | .string key, .bool needed => some (key, needed, field)
    | _, _ => none
  | _ => none

def rawFields (node : Fields) : List Value :=
  match node.lookup (pyText "fields") with
  | some (.array fields) => fields
  | _ => []

def declared (node : Fields) : List (PyText × Bool × Fields) :=
  (rawFields node).filterMap declaredField

def IsKind (kind : Kind) (node : Fields) : Prop := get "type" node = .string (pyText kind.name)

def InEnum (node : Fields) (value : Value) : Prop :=
  ∀ values ∈ enumOf node, ∃ one ∈ values, one.same value = true

mutual
def Described : Value → Fields → Prop
  | .null, _ => False
  | .bool value, node => IsKind .boolean node ∧ InEnum node (.bool value)
  | .number value, node =>
    (IsKind .number node ∨ IsKind .integer node ∧ value.isIntegral = true) ∧
      (∀ least ∈ boundOf "minimum" node, value.less least = false) ∧
      (∀ most ∈ boundOf "maximum" node, most.less value = false) ∧ InEnum node (.number value)
  | .string text, node => IsKind .string node ∧
      (∀ least ∈ lengthOf "min_length" node, least ≤ text.length) ∧
      (∀ most ∈ lengthOf "max_length" node, text.length ≤ most) ∧
      (∀ pattern ∈ patternOf node, library.search pattern text = true) ∧ InEnum node (.string text)
  | .array items, node => IsKind .array node ∧
      ∀ item, get "items" node = .object item → DescribedItems items item
  | .object fields, node => IsKind .object node ∧
      (∀ key ∈ fields.map Prod.fst, key ∈ (declared node).map Prod.fst) ∧
      (∀ field ∈ declared node, field.2.1 = true → field.1 ∈ fields.map Prod.fst) ∧
      DescribedMembers fields (declared node)

def DescribedItems : List Value → Fields → Prop
  | [], _ => True
  | item :: rest, node => Described item node ∧ DescribedItems rest node

def DescribedMembers : Fields → List (PyText × Bool × Fields) → Prop
  | [], _ => True
  | (key, value) :: rest, fields =>
    (∀ field, fields.lookup key = some field → Described value field.2) ∧
      DescribedMembers rest fields
end

def nodesBelow (node : Fields) : List Fields :=
  (declared node).map (fun field => field.2.2) ++
    match get "items" node with
    | .object item => [item]
    | _ => []

inductive NodeAt (root : Fields) : Nat → Fields → Prop where
  | root : NodeAt root 1 root
  | child {depth : Nat} {node next : Fields} (parent : NodeAt root depth node)
      (mem : next ∈ nodesBelow node) : NodeAt root (depth + 1) next

/-- The fields of a node and of the nodes below, for a number of levels. -/
def fieldTotal : Nat → Fields → Nat
  | 0, _ => 0
  | levels + 1, node => (declared node).length + ((nodesBelow node).map (fieldTotal levels)).sum

/-- The limits over the whole tree. -/
structure WithinLimits (draft : Fields) : Prop where
  depth : ∀ depth node, NodeAt draft depth node → depth ≤ maxContractDepth
  fields : ∀ levels, fieldTotal levels draft ≤ maxContractFields
  enums : ∀ depth node, NodeAt draft depth node → ∀ values ∈ enumOf node,
    values ≠ [] ∧ values.length ≤ maxEnumValues

/-- Only the stable error is raised, and what is returned accepts exactly what the draft describes,
which is within the limits. -/
structure CompilesExactly (draft : Fields) : Prop where
  raises : ∀ fault, compileTaskContract library draft = .error fault →
    ∃ code path message, fault = .failure code path message
  exact : ∀ contract, compileTaskContract library draft = .ok contract →
    ∀ value, Valid library value contract.schema ↔ Described library value draft
  limits : ∀ contract, compileTaskContract library draft = .ok contract → WithinLimits draft

end SkillMind.Skills.TaskContract
