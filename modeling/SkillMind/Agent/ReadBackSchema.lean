import SkillMind.Agent.JsonPointers

/-!
# Read-back checks against an output schema

Before an MCP call is sent, its checks are held against the output schema of the reader.
`_possible` walks down the schema along a pointer and validates the expected value where the
pointer ends; there the part of the schema is compiled as a document of its own, without the
definitions and the dialect of the whole.

The package `jsonschema` is a parameter.  What is assumed of it is the meaning of the keywords the
walk reads.
-/

namespace SkillMind.Agent

open Library SkillMind.Core

abbrev Keywords := List (String × Json)

def listOf : Option Json → List Json
  | some (.array items) => items
  | _ => []

/-- `schema.get("type", ["object", "array"])`, as a list. -/
def typeNames (schema : Keywords) : List String :=
  match schema.lookup "type" with
  | none => ["object", "array"]
  | some (.string name) => [name]
  | some value => (listOf (some value)).filterMap Json.text?

/-- The schema of a member. -/
def propertyChild (schema : Keywords) (key : String) : Json :=
  let other := (schema.lookup "additionalProperties").getD (.bool true)
  match schema.lookup "properties" with
  | some (.object properties) => (properties.lookup key).getD other
  | _ => other

def itemChild (schema : Keywords) (index : Nat) : Json :=
  match (listOf (schema.lookup "prefixItems"))[index]? with
  | some child => child
  | none =>
    match schema.lookup "items" with
    | some (.array items) =>
      items[index]?.getD ((schema.lookup "additionalItems").getD (.bool true))
    | items => items.getD (.bool true)

/-! ## The structure of a schema -/

def maxSchemaBytes : Nat := 262144
def maxSchemaNodes : Nat := 100000
def maxSchemaDepth : Nat := 12
def maxSchemaKeywords : Nat := 64

/-- `_KEYWORDS`. -/
def schemaKeywords : List String :=
  ["type", "properties", "required", "additionalProperties", "items", "enum", "const",
    "description", "title", "default", "format", "minLength", "maxLength", "minimum", "maximum",
    "minItems", "maxItems", "minProperties", "maxProperties", "uniqueItems", "anyOf", "oneOf",
    "allOf", "not", "exclusiveMinimum", "exclusiveMaximum", "multipleOf", "$schema", "$defs",
    "definitions", "$ref", "$comment", "examples", "deprecated", "readOnly", "writeOnly", "if",
    "then", "else", "contains", "minContains", "maxContains", "prefixItems", "additionalItems",
    "propertyNames", "dependentRequired", "dependentSchemas", "unevaluatedProperties",
    "unevaluatedItems"]

/-- `_MAPS`, `_ARRAYS` and `_SINGLE`. -/
def mapKeywords : List String := ["properties", "$defs", "definitions", "dependentSchemas"]
def arrayKeywords : List String := ["anyOf", "oneOf", "allOf", "prefixItems"]
def singleKeywords : List String :=
  ["items", "additionalItems", "additionalProperties", "not", "if", "then", "else", "contains",
    "propertyNames", "unevaluatedProperties", "unevaluatedItems"]

inductive Dialect where
  | draft202012
  | draft07
  | other
  deriving DecidableEq

/-- A schema below a schema: where it stands, and the sensitive name it stands under. -/
structure Subschema where
  place : List String
  sensitive : Option String
  schema : Json

section Structure

variable (library : StandardLibrary) (unquote : String → String)

/-- The schemas under one of `_MAPS`. -/
def mapChildren (schema : Keywords) (keyword : String) : Option (List Subschema) :=
  match schema.lookup keyword with
  | none => some []
  | some (.object children) =>
    if 100 < children.length then none
    else some (children.map fun child => ⟨[keyword, child.1],
      findSensitiveKey library true (.object [(child.1, .null)]), child.2⟩)
  | some _ => none

def positioned (keyword : String) (children : List Json) : List Subschema :=
  children.zipIdx.map fun child => ⟨[keyword, toString child.2], none, child.1⟩

/-- The schemas under one of `_ARRAYS`. -/
def arrayChildren (schema : Keywords) (keyword : String) : Option (List Subschema) :=
  match schema.lookup keyword with
  | none => some []
  | some (.array children) =>
    if 30 < children.length then none else some (positioned keyword children)
  | some _ => none

/-- The schemas under one of `_SINGLE`; only `items` may be a list. -/
def singleChildren (schema : Keywords) (keyword : String) : Option (List Subschema) :=
  match schema.lookup keyword with
  | none => some []
  | some (.array children) =>
    if keyword = "items" then
      if 30 < children.length then none else some (positioned keyword children)
    else some [⟨[keyword], none, .array children⟩]
  | some child => some [⟨[keyword], none, child⟩]

def subschemas (schema : Keywords) : Option (List Subschema) := do
  let maps ← mapKeywords.mapM (mapChildren library schema)
  let arrays ← arrayKeywords.mapM (arrayChildren schema)
  let singles ← singleKeywords.mapM (singleChildren schema)
  pure (maps.flatten ++ arrays.flatten ++ singles.flatten)

def literalsAllowed (schema : Keywords) (sensitive : Option String) : Bool :=
  ["default", "const", "enum", "examples"].all fun keyword =>
    match schema.lookup keyword with
    | none => true
    | some literal =>
      let candidates :=
        match literal with
        | .array items => if keyword ∈ ["enum", "examples"] then items else [literal]
        | _ => [literal]
      (findSensitiveKey library true literal).isNone &&
        match sensitive with
        | none => true
        | some name => candidates.all fun candidate =>
          match candidate with
          | .string text => text = "" ||
            (findSensitiveKey library true (.object [(name, .string text)])).isNone
          | _ => true

/-- The tokens of a local reference lead down a document. -/
def referenceTarget : List (List Char) → List String → Json → Option (List String × Json)
  | [], place, value => some (place, value)
  | raw :: rest, place, value =>
    (strictStep (unescape raw) value).bind fun below =>
      referenceTarget rest (place ++ [String.ofList (unescape raw)]) below

def localReference (root : Json) : Json → Option (List String × Json)
  | .string ref =>
    if 1024 < ref.length then none
    else
      match ref.toList with
      | '#' :: fragment =>
        match (unquote (String.ofList fragment)).toList with
        | [] => some ([], root)
        | '/' :: pointer => referenceTarget (pointer.splitOn '/') [] root
        | _ => none
      | _ => none
  | _ => none

/-- `visit`: the nodes visited so far, or `none` for its `ValueError`.  The first argument is what
is left of the depth; an object is known by its place in the document. -/
def visit (root : Json) : Nat → List (List String) → List String → Json → Option String → Nat →
    Option Nat
  | _, _, _, .bool _, _, visited =>
    if maxSchemaNodes < visited + 1 then none else some (visited + 1)
  | left + 1, active, place, .object schema, sensitive, visited =>
    if maxSchemaNodes < visited + 1 ∨ maxSchemaKeywords < schema.length ∨
        active.contains place = true ∨
        (schema.all fun member => decide (member.1 ∈ schemaKeywords)) = false ∨
        literalsAllowed library schema sensitive = false then none
    else
      (match schema.lookup "$ref" with
        | none => some (visited + 1)
        | some ref =>
          (localReference unquote root ref).bind fun target =>
            visit root left (place :: active) target.1 target.2 sensitive (visited + 1)).bind
        fun visited => (subschemas library schema).bind fun children =>
          children.foldlM (fun visited (child : Subschema) => visit root left (place :: active)
            (place ++ child.place) child.schema (child.sensitive.or sensitive) visited) visited
  | _, _, _, _, _, _ => none

def checkStructure (root : Json) : Bool :=
  (visit library unquote root (maxSchemaDepth + 1) [] [] root none 0).isSome

end Structure

/-- A reference stands in a schema or below it. -/
inductive Within (library : StandardLibrary) : Json → Json → Prop where
  | here (schema : Json) : Within library schema schema
  | inner {keywords : Keywords} {children : List Subschema} {child : Subschema} {schema : Json}
      (read : subschemas library keywords = some children) (mem : child ∈ children)
      (within : Within library child.schema schema) : Within library (.object keywords) schema

def ReferenceFree (library : StandardLibrary) (schema : Json) : Prop :=
  ∀ keywords, Within library schema (.object keywords) → keywords.lookup "$ref" = none

/-- The values of `allOf`, `anyOf` and `oneOf`. -/
def branches (keywords : Keywords) (keyword : String) : List Json :=
  listOf (keywords.lookup keyword)

/-- `jsonschema`, with the meaning of the keywords the walk reads. -/
structure SchemaLibrary (library : StandardLibrary) where
  unquote : String → String
  /-- The dialect a `$schema` names. -/
  named : Json → Option Dialect
  /-- `cls.check_schema`. -/
  checkSchema : Dialect → Json → Bool
  /-- `validator.is_valid`. -/
  isValid : Dialect → Json → Json → Bool
  /-- A value is valid, formats included, under a schema that stands in a document. -/
  holds : Dialect → Json → Json → Json → Prop
  /-- An index is smaller than a number of a schema. -/
  below : Nat → Json → Bool
  /-- Schemas of both dialects consist of schemas. -/
  checked_branch : ∀ {dialect keywords keyword branch}, dialect ≠ .other →
    checkSchema dialect (.object keywords) = true → keyword ∈ ["allOf", "anyOf", "oneOf"] →
    branch ∈ branches keywords keyword → checkSchema dialect branch = true
  checked_property : ∀ {dialect keywords key}, dialect ≠ .other →
    checkSchema dialect (.object keywords) = true →
    checkSchema dialect (propertyChild keywords key) = true
  checked_item : ∀ {dialect keywords index}, dialect ≠ .other →
    checkSchema dialect (.object keywords) = true →
    (dialect = .draft07 → (listOf (keywords.lookup "prefixItems"))[index]? = none) →
    checkSchema dialect (itemChild keywords index) = true
  never : ∀ {dialect document value}, ¬ holds dialect document (.bool false) value
  allOf : ∀ {dialect document keywords value branch}, dialect ≠ .other →
    checkSchema dialect (.object keywords) = true → keywords.lookup "$ref" = none →
    holds dialect document (.object keywords) value →
    branch ∈ branches keywords "allOf" → holds dialect document branch value
  someOf : ∀ {dialect document keywords value keyword}, dialect ≠ .other →
    checkSchema dialect (.object keywords) = true → keywords.lookup "$ref" = none →
    holds dialect document (.object keywords) value →
    keyword ∈ ["anyOf", "oneOf"] → keywords.lookup keyword = none ∨
    ∃ branch ∈ branches keywords keyword, holds dialect document branch value
  object : ∀ {dialect document keywords fields}, dialect ≠ .other →
    checkSchema dialect (.object keywords) = true → keywords.lookup "$ref" = none →
    holds dialect document (.object keywords) (.object fields) →
    "object" ∈ typeNames keywords
  array : ∀ {dialect document keywords items}, dialect ≠ .other →
    checkSchema dialect (.object keywords) = true → keywords.lookup "$ref" = none →
    holds dialect document (.object keywords) (.array items) → "array" ∈ typeNames keywords
  property : ∀ {dialect document keywords fields key value}, dialect ≠ .other →
    checkSchema dialect (.object keywords) = true → keywords.lookup "$ref" = none →
    keywords.lookup "patternProperties" = none →
    holds dialect document (.object keywords) (.object fields) →
    fields.lookup key = some value →
    holds dialect document (propertyChild keywords key) value
  item : ∀ {dialect document keywords} {items : List Json} {index : Nat} {value}, dialect ≠ .other →
    checkSchema dialect (.object keywords) = true → keywords.lookup "$ref" = none →
    (dialect = .draft07 → (listOf (keywords.lookup "prefixItems"))[index]? = none) →
    holds dialect document (.object keywords) (.array items) →
    items[index]? = some value → holds dialect document (itemChild keywords index) value
  maxItems : ∀ {dialect document keywords} {items : List Json} {index : Nat} {bound},
    dialect ≠ .other → checkSchema dialect (.object keywords) = true →
    keywords.lookup "$ref" = none →
    holds dialect document (.object keywords) (.array items) →
    keywords.lookup "maxItems" = some bound → index < items.length → below index bound = true
  /-- A schema without a reference is checked alone as in its document. -/
  alone : ∀ {dialect document schema value}, dialect ≠ .other →
    checkStructure library unquote schema = true → checkSchema dialect schema = true →
    ReferenceFree library schema → holds dialect document schema value →
    isValid dialect schema value = true

/-! ## The walk -/

section Walk

variable {library : StandardLibrary} (schemas : SchemaLibrary library) (table : DecimalTable)

/-- `validator_for`. -/
def dialectOf : Json → Option Dialect
  | .object keywords =>
    match keywords.lookup "$schema" with
    | none => some .draft202012
    | some name => schemas.named name
  | _ => some .draft202012

/-- `_compiled_schema`: the dialect, or `none` for its `ValueError`. -/
def compiledSchema (schema : Json) : Option Dialect :=
  if maxSchemaBytes < canonicalBytes schema ∨ checkStructure library schemas.unquote schema = false
  then none
  else (dialectOf schemas schema).bind fun dialect =>
    if schemas.checkSchema dialect schema = true then some dialect else none

def validateToolValue (schema value : Json) : Bool :=
  match compiledSchema schemas schema with
  | none => false
  | some dialect => schemas.isValid dialect schema value

variable {keywords : Keywords}

theorem sizeOf_lookup {keyword : String} {value : Json}
    (found : keywords.lookup keyword = some value) :
    sizeOf value < sizeOf (Json.object keywords) := by
  have smaller := List.sizeOf_lt_of_mem (mem_of_lookup found)
  simp only [Prod.mk.sizeOf_spec] at smaller
  simp only [Json.object.sizeOf_spec]
  omega

theorem sizeOf_branch {keyword : String} {branch : Json}
    (mem : branch ∈ branches keywords keyword) : sizeOf branch < sizeOf (Json.object keywords) := by
  rw [branches] at mem
  cases found : keywords.lookup keyword with
  | none => rw [found] at mem; cases mem
  | some value =>
    have smaller := sizeOf_lookup found
    rw [found] at mem
    cases value with
    | array items =>
      have inner : sizeOf branch < sizeOf items := List.sizeOf_lt_of_mem mem
      simp only [Json.array.sizeOf_spec] at smaller
      omega
    | _ => cases mem

/-- `_possible`.  It goes down the pointer, and at one part of it down the schema; a reference
ends the walk. -/
def possible (schema : Json) (parts : List (List Char)) (value : Json) : Bool :=
  match schema with
  | .bool flag => flag
  | .object keywords =>
    if (keywords.lookup "$ref").isSome then true
    else
      match parts with
      | [] => validateToolValue schemas (.object keywords) value
      | part :: rest =>
        ((branches keywords "allOf").attach.all fun branch =>
            possible branch (part :: rest) value) &&
        ((keywords.lookup "anyOf").isNone || (branches keywords "anyOf").attach.any fun branch =>
            possible branch (part :: rest) value) &&
        ((keywords.lookup "oneOf").isNone || (branches keywords "oneOf").attach.any fun branch =>
            possible branch (part :: rest) value) &&
        ((decide ("object" ∈ typeNames keywords) &&
            possible (propertyChild keywords (String.ofList part)) rest value) ||
          (decide ("array" ∈ typeNames keywords) && isIndex part &&
            match pyInt table part with
            | none => false
            | some index =>
              ((keywords.lookup "maxItems").all fun bound => schemas.below index bound) &&
                possible (itemChild keywords index) rest value))
  | _ => true
termination_by (parts.length, sizeOf schema)
decreasing_by
  · exact Prod.Lex.right _ (sizeOf_branch branch.2)
  · exact Prod.Lex.right _ (sizeOf_branch branch.2)
  · exact Prod.Lex.right _ (sizeOf_branch branch.2)
  · exact Prod.Lex.left _ _ (Nat.lt_succ_self _)
  · exact Prod.Lex.left _ _ (Nat.lt_succ_self _)

theorem possible_end (keywords : Keywords) (value : Json) :
    possible schemas table (.object keywords) [] value =
      ((keywords.lookup "$ref").isSome || validateToolValue schemas (.object keywords) value) := by
  rw [possible]
  cases (keywords.lookup "$ref").isSome <;> rfl

def possibleItem (keywords : Keywords) (part : List Char) (rest : List (List Char))
    (value : Json) : Bool :=
  match pyInt table part with
  | none => false
  | some index =>
    ((keywords.lookup "maxItems").all fun bound => schemas.below index bound) &&
      possible schemas table (itemChild keywords index) rest value

theorem possible_step {part : List Char} {rest : List (List Char)}
    {value : Json} (free : keywords.lookup "$ref" = none) :
    possible schemas table (.object keywords) (part :: rest) value = true ↔
      (∀ branch ∈ branches keywords "allOf",
        possible schemas table branch (part :: rest) value = true) ∧
      (∀ keyword ∈ ["anyOf", "oneOf"], keywords.lookup keyword = none ∨
        ∃ branch ∈ branches keywords keyword,
          possible schemas table branch (part :: rest) value = true) ∧
      (("object" ∈ typeNames keywords ∧
          possible schemas table (propertyChild keywords (String.ofList part)) rest value = true) ∨
        "array" ∈ typeNames keywords ∧ isIndex part = true ∧
          possibleItem schemas table keywords part rest value = true) := by
  rw [possible]
  simp only [free, Option.isSome_none, Bool.false_eq_true, if_false, Bool.and_eq_true,
    Bool.or_eq_true, decide_eq_true_eq, List.all_eq_true, List.any_eq_true, List.mem_attach,
    Subtype.forall, Subtype.exists, true_implies, true_and, exists_prop, Option.isNone_iff_eq_none,
    List.forall_mem_cons, List.not_mem_nil, false_implies, implies_true, and_assoc, possibleItem]

/-- The checks of `validate_read_back_schema` from an index on. -/
def validateReadBackFrom (schema : Json) :
    Nat → List ReadBackCheck → Except McpReadBackError Unit
  | _, [] => .ok ()
  | index, check :: rest =>
    let parts := (readBackTokens check.path.toList).map unescape
    if check.expected.candidates.all fun value => possible schemas table schema parts value then
      validateReadBackFrom schema (index + 1) rest
    else .error ⟨"output_schema_conflict", index⟩

def validateReadBackSchema (schema : Option Json) (checks : List ReadBackCheck) :
    Except McpReadBackError Unit :=
  match schema with
  | none => .ok ()
  | some schema => validateReadBackFrom schemas table schema 0 checks

/-- The walk from a schema along the parts of a pointer comes to a schema, with parts left. -/
inductive Reaches : Json → List (List Char) → Json → List (List Char) → Prop where
  | here (schema : Json) (parts : List (List Char)) : Reaches schema parts schema parts
  | branch {keywords : Keywords} {keyword : String} {branch target : Json} {part : List Char}
      {rest left : List (List Char)} (free : keywords.lookup "$ref" = none)
      (listed : keyword ∈ ["allOf", "anyOf", "oneOf"]) (mem : branch ∈ branches keywords keyword)
      (further : Reaches branch (part :: rest) target left) :
      Reaches (.object keywords) (part :: rest) target left
  | property {keywords : Keywords} {target : Json} {part : List Char}
      {rest left : List (List Char)} (free : keywords.lookup "$ref" = none)
      (typed : "object" ∈ typeNames keywords)
      (further : Reaches (propertyChild keywords (String.ofList part)) rest target left) :
      Reaches (.object keywords) (part :: rest) target left
  | item {keywords : Keywords} {index : Nat} {target : Json} {part : List Char}
      {rest left : List (List Char)} (free : keywords.lookup "$ref" = none)
      (typed : "array" ∈ typeNames keywords) (digits : isIndex part = true)
      (read : pyInt table part = some index)
      (further : Reaches (itemChild keywords index) rest target left) :
      Reaches (.object keywords) (part :: rest) target left

/-- No branch of a combinator ends the walk at a part of the pointer. -/
structure BranchesPass (keywords : Keywords) (parts : List (List Char)) (value : Json) : Prop where
  all : ∀ branch ∈ branches keywords "allOf", possible schemas table branch parts value = true
  some : ∀ keyword ∈ ["anyOf", "oneOf"], keywords.lookup keyword = none ∨
    ∃ branch ∈ branches keywords keyword, possible schemas table branch parts value = true

/-- The walk asks for the item of an index. -/
structure AsksItem (keywords : Keywords) (part : List Char) (rest : List (List Char))
    (value : Json) (index : Nat) : Prop where
  free : keywords.lookup "$ref" = none
  passes : BranchesPass schemas table keywords (part :: rest) value
  property : ¬ ("object" ∈ typeNames keywords ∧
    possible schemas table (propertyChild keywords (String.ofList part)) rest value = true)
  typed : "array" ∈ typeNames keywords
  digits : isIndex part = true
  read : pyInt table part = some index
  bounded : (keywords.lookup "maxItems").all (schemas.below index) = true

/-- The calls that the walk makes: `all` and `any` stop at the first branch that decides, and the
item of a place is asked for behind its member only. -/
inductive Evaluates (value : Json) :
    Json → List (List Char) → Json → List (List Char) → Prop where
  | here (schema : Json) (parts : List (List Char)) : Evaluates value schema parts schema parts
  | allOf {keywords : Keywords} {before after : List Json} {branch target : Json}
      {part : List Char} {rest left : List (List Char)} (free : keywords.lookup "$ref" = none)
      (listed : branches keywords "allOf" = before ++ branch :: after)
      (passed : ∀ earlier ∈ before, possible schemas table earlier (part :: rest) value = true)
      (further : Evaluates value branch (part :: rest) target left) :
      Evaluates value (.object keywords) (part :: rest) target left
  | someOf {keywords : Keywords} {keyword : String} {before after : List Json}
      {branch target : Json} {part : List Char} {rest left : List (List Char)}
      (free : keywords.lookup "$ref" = none) (known : keyword ∈ ["anyOf", "oneOf"])
      (all : ∀ branch ∈ branches keywords "allOf",
        possible schemas table branch (part :: rest) value = true)
      (behind : keyword = "oneOf" → keywords.lookup "anyOf" = none ∨
        ∃ branch ∈ branches keywords "anyOf",
          possible schemas table branch (part :: rest) value = true)
      (listed : branches keywords keyword = before ++ branch :: after)
      (failed : ∀ earlier ∈ before, possible schemas table earlier (part :: rest) value = false)
      (further : Evaluates value branch (part :: rest) target left) :
      Evaluates value (.object keywords) (part :: rest) target left
  | property {keywords : Keywords} {target : Json} {part : List Char}
      {rest left : List (List Char)} (free : keywords.lookup "$ref" = none)
      (passes : BranchesPass schemas table keywords (part :: rest) value)
      (typed : "object" ∈ typeNames keywords)
      (further : Evaluates value (propertyChild keywords (String.ofList part)) rest target left) :
      Evaluates value (.object keywords) (part :: rest) target left
  | item {keywords : Keywords} {index : Nat} {target : Json} {part : List Char}
      {rest left : List (List Char)} (asks : AsksItem schemas table keywords part rest value index)
      (further : Evaluates value (itemChild keywords index) rest target left) :
      Evaluates value (.object keywords) (part :: rest) target left

/-- What a walk through a document of a dialect must not meet. -/
structure Undisturbed (dialect : Dialect) (schema : Json) (parts : List (List Char))
    (value : Json) : Prop where
  /-- A schema at the end refers to nothing and is a document of the dialect of the whole, or it
  takes the value all the same. -/
  ends : ∀ keywords, Evaluates schemas table value schema parts (.object keywords) [] →
    keywords.lookup "$ref" = none →
    (ReferenceFree library (.object keywords) ∧
        compiledSchema schemas (.object keywords) = some dialect) ∨
      validateToolValue schemas (.object keywords) value = true
  /-- No item is looked for under a keyword that the dialect does not know. -/
  known : ∀ keywords part rest index,
    Evaluates schemas table value schema parts (.object keywords) (part :: rest) →
    AsksItem schemas table keywords part rest value index → dialect = .draft07 →
    (listOf (keywords.lookup "prefixItems"))[index]? = none

/-- The validation comes to a value of a check: everything before it is possible. -/
def Asked (schema : Json) (checks : List ReadBackCheck) (check : ReadBackCheck) (value : Json) :
    Prop :=
  ∃ before after values others, checks = before ++ check :: after ∧
    check.expected.candidates = values ++ value :: others ∧
    (∀ earlier ∈ before, ∀ value ∈ earlier.expected.candidates, possible schemas table schema
      ((readBackTokens earlier.path.toList).map unescape) value = true) ∧
    ∀ value ∈ values, possible schemas table schema
      ((readBackTokens check.path.toList).map unescape) value = true

/-- Along a pointer every schema is read, and none at its end compiles on its own. -/
structure Starved (schema : Json) (parts : List (List Char)) : Prop where
  read : ∀ target left, Reaches table schema parts target left →
    ∃ keywords, target = .object keywords ∧ keywords.lookup "$ref" = none
  ends : ∀ target, Reaches table schema parts target [] → compiledSchema schemas target = none

/-- An instance of a schema shows a value at a pointer. -/
def Satisfiable (dialect : Dialect) (schema : Json) (path : String) (value : Json) : Prop :=
  ∃ document, schemas.holds dialect schema schema document ∧
    readBackTarget table (readBackTokens path.toList) document = some value

/-- **A check that some answer satisfies is accepted.** -/
def ReadBackSound (dialect : Dialect) (schema : Json) (checks : List ReadBackCheck) : Prop :=
  (∀ check ∈ checks, ∀ value ∈ check.expected.candidates,
    Satisfiable schemas table dialect schema check.path value) →
  validateReadBackSchema schemas table (some schema) checks = .ok ()

/-! ## What a structure that was visited looks like -/

/-- `visit` comes through a schema. -/
def Visited (library : StandardLibrary) (unquote : String → String) (root schema : Json) : Prop :=
  ∃ left active place sensitive visited count,
    visit library unquote root left active place schema sensitive visited = some count

theorem exists_of_mapM {α β : Type*} {f : α → Option β} {rows : List α} {results : List β}
    (mapped : rows.mapM f = some results) {row : α} (mem : row ∈ rows) :
    ∃ result ∈ results, f row = some result := by
  induction rows generalizing results with
  | nil => cases mem
  | cons first rest ih =>
    rw [List.mapM_cons, Option.bind_eq_bind, Option.bind_eq_some_iff] at mapped
    obtain ⟨result, made, mapped⟩ := mapped
    rw [Option.bind_eq_bind, Option.bind_eq_some_iff] at mapped
    obtain ⟨others, mapped, same⟩ := mapped
    obtain rfl := Option.some.inj same
    rcases List.mem_cons.mp mem with rfl | mem
    · exact ⟨result, List.mem_cons_self, made⟩
    · obtain ⟨other, inside, made⟩ := ih mapped mem
      exact ⟨other, List.mem_cons_of_mem _ inside, made⟩

theorem exists_of_foldlM {α β : Type*} {f : β → α → Option β} {rows : List α} {start final : β}
    (folded : rows.foldlM f start = some final) {row : α} (mem : row ∈ rows) :
    ∃ before after, f before row = some after := by
  induction rows generalizing start with
  | nil => cases mem
  | cons first rest ih =>
    rw [List.foldlM_cons, Option.bind_eq_bind, Option.bind_eq_some_iff] at folded
    obtain ⟨next, made, folded⟩ := folded
    rcases List.mem_cons.mp mem with rfl | mem
    · exact ⟨start, next, made⟩
    · exact ih folded mem

theorem Visited.object {unquote : String → String} {root : Json} {keywords : Keywords}
    (visited : Visited library unquote root (.object keywords)) :
    (∀ member ∈ keywords, member.1 ∈ schemaKeywords) ∧
      ∃ children, subschemas library keywords = some children ∧
        ∀ child ∈ children, Visited library unquote root child.schema := by
  obtain ⟨left, active, place, sensitive, count, final, came⟩ := visited
  cases left with
  | zero => cases (show (none : Option Nat) = some final from came)
  | succ left =>
    rw [visit] at came
    split at came
    case isTrue => cases came
    case isFalse refused =>
      simp only [not_or, Bool.not_eq_false, List.all_eq_true, decide_eq_true_eq] at refused
      obtain ⟨reached, -, came⟩ := Option.bind_eq_some_iff.mp came
      rw [Option.bind_eq_some_iff] at came
      obtain ⟨children, read, folded⟩ := came
      refine ⟨refused.2.2.2.1, children, read, fun child mem => ?_⟩
      obtain ⟨before, after, step⟩ := exists_of_foldlM folded mem
      exact ⟨_, _, _, _, before, after, step⟩

theorem visited_bool (unquote : String → String) (root : Json) (flag : Bool) :
    Visited library unquote root (.bool flag) := by
  refine ⟨0, [], [], none, 0, 1, ?_⟩
  rw [visit]
  rfl

theorem subschemas_eq_some {children : List Subschema}
    (read : subschemas library keywords = some children) :
    (∀ keyword ∈ mapKeywords, ∃ listed, mapChildren library keywords keyword = some listed ∧
      ∀ child ∈ listed, child ∈ children) ∧
    (∀ keyword ∈ arrayKeywords, ∃ listed, arrayChildren keywords keyword = some listed ∧
      ∀ child ∈ listed, child ∈ children) ∧
    ∀ keyword ∈ singleKeywords, ∃ listed, singleChildren keywords keyword = some listed ∧
      ∀ child ∈ listed, child ∈ children := by
  rw [subschemas, Option.bind_eq_bind, Option.bind_eq_some_iff] at read
  obtain ⟨maps, mapped, read⟩ := read
  obtain ⟨arrays, arrayed, read⟩ := Option.bind_eq_some_iff.mp read
  obtain ⟨singles, alone, read⟩ := Option.bind_eq_some_iff.mp read
  obtain rfl := Option.some.inj read
  refine ⟨fun keyword mem => ?_, fun keyword mem => ?_, fun keyword mem => ?_⟩
  · obtain ⟨listed, inside, made⟩ := exists_of_mapM mapped mem
    exact ⟨listed, made, fun child held => List.mem_append_left _
      (List.mem_append_left _ (List.mem_flatten_of_mem inside held))⟩
  · obtain ⟨listed, inside, made⟩ := exists_of_mapM arrayed mem
    exact ⟨listed, made, fun child held => List.mem_append_left _
      (List.mem_append_right _ (List.mem_flatten_of_mem inside held))⟩
  · obtain ⟨listed, inside, made⟩ := exists_of_mapM alone mem
    exact ⟨listed, made, fun child held => List.mem_append_right _
      (List.mem_flatten_of_mem inside held)⟩

variable {schema : Json}

theorem exists_positioned (keyword : String) {schemas : List Json}
    (mem : schema ∈ schemas) : ∃ child ∈ positioned keyword schemas, child.schema = schema := by
  obtain ⟨index, bound, rfl⟩ := List.mem_iff_getElem.mp mem
  refine ⟨_, List.mem_map_of_mem (List.mk_mem_zipIdx_iff_getElem?.mpr
    (List.getElem?_eq_getElem bound)), rfl⟩

theorem Visited.listed {unquote : String → String} {root branch : Json} {keywords : Keywords}
    {keyword : String} (visited : Visited library unquote root (.object keywords))
    (kind : keyword ∈ arrayKeywords) (mem : branch ∈ listOf (keywords.lookup keyword)) :
    Visited library unquote root branch := by
  obtain ⟨-, children, read, below⟩ := visited.object
  obtain ⟨listed, made, inside⟩ := (subschemas_eq_some read).2.1 keyword kind
  rw [arrayChildren] at made
  cases found : keywords.lookup keyword with
  | none => rw [found] at mem; cases mem
  | some value =>
    rw [found] at mem made
    cases value with
    | array items =>
      simp only [Option.ite_none_left_eq_some, Option.some.injEq] at made
      obtain ⟨child, held, rfl⟩ := exists_positioned keyword mem
      exact below _ (inside _ (made.2 ▸ held))
    | _ => cases mem

variable {unquote : String → String}

theorem Visited.single {root value : Json}
    {keyword : String} (visited : Visited library unquote root (.object keywords))
    (kind : keyword ∈ singleKeywords) (found : keywords.lookup keyword = some value)
    (plain : keyword = "items" → ∀ items, value ≠ .array items) :
    Visited library unquote root value := by
  obtain ⟨-, children, read, below⟩ := visited.object
  obtain ⟨listed, made, inside⟩ := (subschemas_eq_some read).2.2 keyword kind
  rw [singleChildren, found] at made
  cases value with
  | array items =>
    have other : keyword ≠ "items" := fun same => plain same items rfl
    simp only [if_neg other] at made
    obtain rfl := Option.some.inj made
    exact below _ (inside _ List.mem_cons_self)
  | _ =>
    obtain rfl := Option.some.inj made
    exact below _ (inside _ List.mem_cons_self)

theorem Visited.tuple {root item : Json}
    {items : List Json} (visited : Visited library unquote root (.object keywords))
    (found : keywords.lookup "items" = some (.array items)) (mem : item ∈ items) :
    Visited library unquote root item := by
  obtain ⟨-, children, read, below⟩ := visited.object
  obtain ⟨listed, made, inside⟩ := (subschemas_eq_some read).2.2 "items" List.mem_cons_self
  rw [singleChildren, found] at made
  simp only [if_true, Option.ite_none_left_eq_some, Option.some.injEq] at made
  obtain ⟨child, held, rfl⟩ := exists_positioned "items" mem
  exact below _ (inside _ (made.2 ▸ held))

theorem Visited.getD {root : Json}
    {keyword : String} (visited : Visited library unquote root (.object keywords))
    (kind : keyword ∈ singleKeywords) (other : keyword ≠ "items") :
    Visited library unquote root ((keywords.lookup keyword).getD (.bool true)) := by
  cases found : keywords.lookup keyword with
  | none => exact visited_bool unquote root true
  | some value => exact visited.single kind found fun same => absurd same other

theorem Visited.mapped {unquote : String → String} {root : Json} {keywords children : Keywords}
    {key : String} {child : Json} (visited : Visited library unquote root (.object keywords))
    (found : keywords.lookup "properties" = some (.object children))
    (mem : children.lookup key = some child) : Visited library unquote root child := by
  obtain ⟨-, listed, read, below⟩ := visited.object
  obtain ⟨mapped, made, inside⟩ := (subschemas_eq_some read).1 "properties" List.mem_cons_self
  rw [mapChildren, found] at made
  simp only [Option.ite_none_left_eq_some, Option.some.injEq] at made
  obtain ⟨-, rfl⟩ := made
  exact below _ (inside _ (List.mem_map_of_mem (mem_of_lookup mem)))

theorem Visited.propertyChild {unquote : String → String} {root : Json} {keywords : Keywords}
    (visited : Visited library unquote root (.object keywords)) (key : String) :
    Visited library unquote root (propertyChild keywords key) := by
  have other := visited.getD
    (show "additionalProperties" ∈ singleKeywords by decide) (by decide)
  rw [Agent.propertyChild]
  split
  next properties found =>
    cases held : properties.lookup key with
    | none => exact other
    | some child => exact visited.mapped found held
  next => exact other

theorem Visited.itemChild {unquote : String → String} {root : Json} {keywords : Keywords}
    (visited : Visited library unquote root (.object keywords)) (index : Nat) :
    Visited library unquote root (itemChild keywords index) := by
  rw [Agent.itemChild]
  split
  next child held =>
    exact visited.listed (show "prefixItems" ∈ arrayKeywords by decide)
      (List.mem_of_getElem? held)
  next =>
    split
    next items found =>
      cases held : items[index]? with
      | none =>
        exact visited.getD (show "additionalItems" ∈ singleKeywords by decide) (by decide)
      | some child => exact visited.tuple found (List.mem_of_getElem? held)
    next plain =>
      cases found : keywords.lookup "items" with
      | none => exact visited_bool unquote root true
      | some value =>
        refine visited.single List.mem_cons_self found fun _ items same => ?_
        exact plain items (found.trans (congrArg some same))

variable {schemas table}

variable {dialect : Dialect}

theorem Undisturbed.mono {next value : Json} {parts left : List (List Char)}
    (undisturbed : Undisturbed schemas table dialect schema parts value)
    (below : ∀ {target rest}, Evaluates schemas table value next left target rest →
      Evaluates schemas table value schema parts target rest) :
    Undisturbed schemas table dialect next left value :=
  ⟨fun keywords reached => undisturbed.ends keywords (below reached),
    fun keywords part rest index reached =>
      undisturbed.known keywords part rest index (below reached)⟩

theorem Visited.no_patterns {root : Json}
    (visited : Visited library unquote root (.object keywords)) :
    keywords.lookup "patternProperties" = none := by
  cases found : keywords.lookup "patternProperties" with
  | none => rfl
  | some value =>
    have known := visited.object.1 _ (mem_of_lookup found)
    exact absurd known (show "patternProperties" ∉ schemaKeywords by decide)

theorem branchKeywords_subset :
    ∀ keyword ∈ ["allOf", "anyOf", "oneOf"], keyword ∈ arrayKeywords := by decide

theorem compiledSchema_eq_some
    (compiled : compiledSchema schemas schema = some dialect) :
    checkStructure library schemas.unquote schema = true ∧
      schemas.checkSchema dialect schema = true := by
  rw [compiledSchema, Option.ite_none_left_eq_some, Option.bind_eq_some_iff] at compiled
  obtain ⟨allowed, named, -, checked⟩ := compiled
  rw [Option.ite_none_right_eq_some] at checked
  obtain ⟨checked, same⟩ := checked
  obtain rfl := Option.some.inj same
  rw [not_or, Bool.not_eq_false] at allowed
  exact ⟨allowed.2, checked⟩

theorem visited_of_checkStructure
    (structured : checkStructure library unquote schema = true) :
    Visited library unquote schema schema := by
  rw [checkStructure, Option.isSome_iff_exists] at structured
  obtain ⟨count, came⟩ := structured
  exact ⟨_, _, _, _, _, count, came⟩

theorem possible_of_end {document value : Json}
    (known : dialect ≠ .other) (undisturbed : Undisturbed schemas table dialect schema [] value)
    (holds : schemas.holds dialect document schema value) :
    possible schemas table schema [] value = true := by
  cases schema with
  | bool flag =>
    cases flag with
    | false => exact absurd holds schemas.never
    | true => rw [possible]
  | object keywords =>
    rw [possible_end, Bool.or_eq_true]
    cases free : keywords.lookup "$ref" with
    | some ref => exact .inl rfl
    | none =>
      right
      rcases undisturbed.ends keywords (.here _ _) free with ⟨alone, compiled⟩ | taken
      · obtain ⟨structured, checked⟩ := compiledSchema_eq_some compiled
        rw [validateToolValue, compiled]
        exact schemas.alone known structured checked alone holds
      · exact taken
  | _ => rw [possible] <;> intros <;> contradiction

theorem below_of_holds
    {document answer value : Json}
    {raw : List Char} {rest : List (List Char)}
    (further : ∀ {schema answer : Json},
      Undisturbed schemas table dialect schema (rest.map unescape) value →
      schemas.checkSchema dialect schema = true → Visited library unquote document schema →
      schemas.holds dialect document schema answer →
      readBackTarget table rest answer = some value →
      possible schemas table schema (rest.map unescape) value = true)
    (free : keywords.lookup "$ref" = none) (known : dialect ≠ .other)
    (undisturbed : Undisturbed schemas table dialect (.object keywords)
      (unescape raw :: rest.map unescape) value)
    (checked : schemas.checkSchema dialect (.object keywords) = true)
    (visited : Visited library unquote document (.object keywords))
    (passes : BranchesPass schemas table keywords (unescape raw :: rest.map unescape) value)
    (holds : schemas.holds dialect document (.object keywords) answer)
    (shows : readBackTarget table (raw :: rest) answer = some value) :
    ("object" ∈ typeNames keywords ∧ possible schemas table
        (propertyChild keywords (String.ofList (unescape raw))) (rest.map unescape) value = true) ∨
      "array" ∈ typeNames keywords ∧ isIndex (unescape raw) = true ∧
        possibleItem schemas table keywords (unescape raw) (rest.map unescape) value = true := by
  rw [readBackTarget, Option.bind_eq_some_iff] at shows
  obtain ⟨next, step, shows⟩ := shows
  cases answer with
  | object fields =>
    have typed := schemas.object known checked free holds
    exact .inl ⟨typed, further
      (undisturbed.mono fun reached => .property free passes typed reached)
      (schemas.checked_property known checked) (visited.propertyChild _)
      (schemas.property known checked free visited.no_patterns holds step) shows⟩
  | array items =>
    refine or_iff_not_imp_left.mpr fun property => ?_
    have typed := schemas.array known checked free holds
    rw [readBackStep, Option.ite_none_left_eq_some, Option.bind_eq_some_iff] at step
    obtain ⟨digits, index, read, held⟩ := step
    rw [Bool.not_eq_false] at digits
    have bounded : (keywords.lookup "maxItems").all (schemas.below index) = true := by
      rw [Option.all_eq_true]
      exact fun bound found => schemas.maxItems known checked free holds found
        (List.getElem?_eq_some_iff.mp held).1
    have asks : AsksItem schemas table keywords (unescape raw) (rest.map unescape) value index :=
      ⟨free, passes, property, typed, digits, read, bounded⟩
    have plain := undisturbed.known keywords _ _ index (.here _ _) asks
    have child : possible schemas table (itemChild keywords index) (rest.map unescape) value =
        true := further
      (undisturbed.mono fun reached => .item asks reached)
      (schemas.checked_item known checked plain) (visited.itemChild index)
      (schemas.item known checked free plain holds held) shows
    refine ⟨typed, digits, ?_⟩
    rw [possibleItem, read]
    simp only [child, Bool.and_true]
    exact bounded
  | _ => cases step

/-- A property of the rows of a list, each under the assumption that the rows before it have it. -/
theorem forall_mem_of_split {α : Type*} {P : α → Prop} {rows : List α}
    (next : ∀ before row after, rows = before ++ row :: after → (∀ earlier ∈ before, P earlier) →
      P row) : ∀ row ∈ rows, P row := by
  induction rows with
  | nil => exact fun _ mem => absurd mem List.not_mem_nil
  | cons first rest ih =>
    have head := next [] first rest rfl fun _ mem => absurd mem List.not_mem_nil
    refine List.forall_mem_cons.mpr ⟨head, ih fun before row after split passed => ?_⟩
    exact next (first :: before) row after (congrArg (first :: ·) split)
      (List.forall_mem_cons.mpr ⟨head, passed⟩)

section Branches

variable {document answer value : Json} {part : List Char} {rest : List (List Char)}

/-- The branches of a combinator decide as the specification says, if the walk does below them. -/
theorem branchesPass_of_holds
    (below : ∀ {branch}, sizeOf branch < sizeOf (Json.object keywords) →
      Undisturbed schemas table dialect branch (part :: rest) value →
      schemas.checkSchema dialect branch = true → Visited library unquote document branch →
      schemas.holds dialect document branch answer →
      possible schemas table branch (part :: rest) value = true)
    (free : keywords.lookup "$ref" = none) (known : dialect ≠ .other)
    (undisturbed : Undisturbed schemas table dialect (.object keywords) (part :: rest) value)
    (checked : schemas.checkSchema dialect (.object keywords) = true)
    (visited : Visited library unquote document (.object keywords))
    (holds : schemas.holds dialect document (.object keywords) answer) :
    BranchesPass schemas table keywords (part :: rest) value := by
  have inner {keyword : String} {branch : Json} (listed : keyword ∈ ["allOf", "anyOf", "oneOf"])
      (mem : branch ∈ branches keywords keyword)
      (undisturbed : Undisturbed schemas table dialect branch (part :: rest) value)
      (held : schemas.holds dialect document branch answer) :
      possible schemas table branch (part :: rest) value = true :=
    below (sizeOf_branch mem) undisturbed (schemas.checked_branch known checked listed mem)
      (visited.listed (branchKeywords_subset _ listed) mem) held
  have all : ∀ branch ∈ branches keywords "allOf",
      possible schemas table branch (part :: rest) value = true := by
    refine forall_mem_of_split fun before branch after split passed => ?_
    have mem : branch ∈ branches keywords "allOf" := by simp [split]
    exact inner (by decide) mem (undisturbed.mono fun further => .allOf free split passed further)
      (schemas.allOf known checked free holds mem)
  have someOf (keyword : String) (listed : keyword ∈ ["anyOf", "oneOf"])
      (behind : keyword = "oneOf" → keywords.lookup "anyOf" = none ∨
        ∃ branch ∈ branches keywords "anyOf",
          possible schemas table branch (part :: rest) value = true) :
      keywords.lookup keyword = none ∨ ∃ branch ∈ branches keywords keyword,
        possible schemas table branch (part :: rest) value = true := by
    rcases schemas.someOf known checked free holds listed with missing | ⟨branch, mem, held⟩
    · exact .inl missing
    · refine .inr ?_
      by_contra none
      push Not at none
      obtain ⟨before, after, split⟩ := List.append_of_mem mem
      -- no branch before the one that holds ends the evaluation
      have failed : ∀ earlier ∈ before,
          possible schemas table earlier (part :: rest) value = false := fun earlier inside =>
        Bool.eq_false_iff.mpr (none earlier (by simp [split, inside]))
      exact none branch mem (inner (List.mem_cons_of_mem _ listed) mem
        (undisturbed.mono fun further => .someOf free listed all behind split failed further) held)
  have anyOf := someOf "anyOf" (by decide) fun same => absurd same (by decide)
  refine ⟨all, List.forall_mem_cons.mpr ⟨anyOf, List.forall_mem_singleton.mpr ?_⟩⟩
  exact someOf "oneOf" (by decide) fun _ => anyOf

end Branches

theorem possible_of_holds
    {document answer value : Json} {raws : List (List Char)} (known : dialect ≠ .other)
    (undisturbed : Undisturbed schemas table dialect schema (raws.map unescape) value)
    (checked : schemas.checkSchema dialect schema = true)
    (visited : Visited library unquote document schema)
    (holds : schemas.holds dialect document schema answer)
    (shows : readBackTarget table raws answer = some value) :
    possible schemas table schema (raws.map unescape) value = true := by
  induction raws generalizing schema answer with
  | nil =>
    obtain rfl := Option.some.inj shows
    exact possible_of_end known undisturbed holds
  | cons raw rest ih =>
    rw [List.map_cons] at undisturbed ⊢
    -- at one part of the pointer the walk goes down the branches
    induction size : sizeOf schema using Nat.strong_induction_on generalizing schema with
    | _ size inner =>
      cases schema with
      | bool flag =>
        cases flag with
        | false => exact absurd holds schemas.never
        | true => rw [possible]
      | object keywords =>
        cases free : keywords.lookup "$ref" with
        | some ref => rw [possible]; simp [free]
        | none =>
          have passes := branchesPass_of_holds
            (fun smaller undisturbed checked visited held =>
              inner _ (size ▸ smaller) undisturbed checked visited held rfl)
            free known undisturbed checked visited holds
          rw [possible_step schemas table free]
          exact ⟨passes.all, passes.some,
            below_of_holds ih free known undisturbed checked visited passes holds shows⟩
      | _ => rw [possible] <;> intros <;> contradiction

theorem validateReadBackFrom_eq_ok {checks : List ReadBackCheck} (index : Nat)
    (all : ∀ check ∈ checks, ∀ value ∈ check.expected.candidates,
      possible schemas table schema ((readBackTokens check.path.toList).map unescape) value =
        true) :
    validateReadBackFrom schemas table schema index checks = .ok () := by
  induction checks generalizing index with
  | nil => rfl
  | cons check rest ih =>
    rw [validateReadBackFrom, if_pos (List.all_eq_true.mpr (all check List.mem_cons_self))]
    exact ih (index + 1) fun later mem => all later (List.mem_cons_of_mem _ mem)

/-- What the walk comes to is reached along the pointer. -/
theorem Evaluates.reaches {value target : Json} {parts left : List (List Char)}
    (evaluates : Evaluates schemas table value schema parts target left) :
    Reaches table schema parts target left := by
  induction evaluates with
  | here schema parts => exact .here schema parts
  | allOf free listed _ _ ih =>
    exact .branch free List.mem_cons_self (by simp [listed]) ih
  | someOf free known _ _ listed _ _ ih =>
    exact .branch free (List.mem_cons_of_mem _ known) (by simp [listed]) ih
  | property free _ typed _ ih => exact .property free typed ih
  | item asks _ ih => exact .item asks.free asks.typed asks.digits asks.read ih

theorem Starved.mono {next : Json} {parts left : List (List Char)}
    (starved : Starved schemas table schema parts)
    (below : ∀ {target rest}, Reaches table next left target rest →
      Reaches table schema parts target rest) : Starved schemas table next left :=
  ⟨fun target rest reached => starved.read target rest (below reached),
    fun target reached => starved.ends target (below reached)⟩

theorem Starved.not_possible {parts : List (List Char)}
    (starved : Starved schemas table schema parts) (value : Json) :
    possible schemas table schema parts value = false := by
  induction parts generalizing schema with
  | nil =>
    obtain ⟨keywords, rfl, free⟩ := starved.read _ _ (.here _ _)
    rw [possible_end, free, validateToolValue, starved.ends _ (.here _ _)]
    rfl
  | cons part rest ih =>
    obtain ⟨keywords, rfl, free⟩ := starved.read _ _ (.here _ _)
    rw [Bool.eq_false_iff]
    intro passes
    obtain ⟨-, -, ⟨typed, child⟩ | ⟨typed, digits, child⟩⟩ :=
      (possible_step schemas table free).mp passes
    · have none := ih (starved.mono fun further => .property free typed further)
      cases none.symm.trans child
    · rw [possibleItem] at child
      cases read : pyInt table part with
      | none => rw [read] at child; cases child
      | some index =>
        have none := ih (starved.mono fun further => .item free typed digits read further)
        rw [read] at child
        simp only [none, Bool.and_false, Bool.false_eq_true] at child

theorem Starved.rejected {value : Json} {path : String}
    (starved : Starved schemas table schema ((readBackTokens path.toList).map unescape)) :
    validateReadBackSchema schemas table (some schema) [⟨path, .equals value⟩] =
      .error ⟨"output_schema_conflict", 0⟩ := by
  rw [validateReadBackSchema, validateReadBackFrom]
  simp only [Expectation.candidates, List.all_cons, starved.not_possible, Bool.false_and,
    Bool.false_eq_true, if_false]

end Walk

/-! ## A reader whose items are defined elsewhere -/

def asciiLibrary : StandardLibrary := ⟨Char.isAlphanum, digestOfThree.sha256⟩

def textSchema : Keywords := [("type", .string "string")]

def referringItems : Keywords :=
  [("type", .string "array"), ("items", .object [("$ref", .string "#/$defs/I")])]

def readerSchema : Keywords :=
  [("type", .string "object"),
    ("properties", .object [("items", .object referringItems), ("state", .object textSchema)]),
    ("$defs", .object [("I", .object [("type", .string "integer")])])]

def readerAnswer : List (String × Json) :=
  [("items", .array [.number "1"]), ("state", .string "done")]

/-- The keyword `type`. -/
def typeHolds : Json → Json → Bool
  | .object keywords, value =>
    match keywords.lookup "type", value with
    | some (.string "string"), .string _ => true
    | some (.string "object"), .object _ => true
    | some (.string "array"), .array _ => true
    | none, _ => true
    | _, _ => false
  | .bool flag, _ => flag
  | _, _ => true

inductive ReaderHolds : Dialect → Json → Json → Json → Prop where
  | answer {dialect : Dialect} :
      ReaderHolds dialect (.object readerSchema) (.object readerSchema) (.object readerAnswer)
  | items {dialect : Dialect} : ReaderHolds dialect (.object readerSchema) (.object referringItems)
      (.array [.number "1"])
  | item {dialect : Dialect} : ReaderHolds dialect (.object readerSchema)
      (.object [("$ref", .string "#/$defs/I")]) (.number "1")
  | state {dialect : Dialect} :
      ReaderHolds dialect (.object readerSchema) (.object textSchema) (.string "done")

def readerSchemas : SchemaLibrary asciiLibrary where
  unquote text := text
  named _ := none
  checkSchema _ _ := true
  isValid _ := typeHolds
  holds := ReaderHolds
  below _ _ := true
  checked_branch _ _ _ _ := rfl
  checked_property _ _ := rfl
  checked_item _ _ _ := rfl
  never holds := by cases holds
  allOf _ _ _ holds mem := by cases holds <;> cases mem
  someOf _ _ _ holds listed := by
    left
    rcases List.mem_cons.mp listed with rfl | listed
    · cases holds <;> rfl
    · obtain rfl := List.mem_singleton.mp listed
      cases holds <;> rfl
  object _ _ _ holds := by
    cases holds
    exact List.mem_cons_self
  array _ _ _ holds := by
    cases holds
    exact List.mem_cons_self
  property _ _ _ _ holds found := by
    cases holds
    rcases List.mem_cons.mp (mem_of_lookup found) with same | mem
    · obtain ⟨rfl, rfl⟩ := Prod.mk.inj same
      exact .items
    · obtain ⟨rfl, rfl⟩ := Prod.mk.inj (List.mem_singleton.mp mem)
      exact .state
  item _ _ _ _ holds found := by
    cases holds
    obtain rfl := List.mem_singleton.mp (List.mem_of_getElem? found)
    exact .item
  maxItems _ _ _ _ _ _ := rfl
  alone _ _ _ _ holds := by cases holds <;> rfl

theorem readerSchema_accepted :
    compiledSchema readerSchemas (.object readerSchema) = some .draft202012 := by
  rw [compiledSchema, if_neg]
  · rfl
  · decide +kernel

theorem textSchema_alone : ReferenceFree asciiLibrary (.object textSchema) := by
  intro keywords within
  cases within with
  | here => rfl
  | inner read mem =>
    obtain rfl := Option.some.inj (read.symm.trans (show _ = some [] from rfl))
    cases mem

theorem textSchema_compiled :
    compiledSchema readerSchemas (.object textSchema) = some .draft202012 := by
  rw [compiledSchema, if_neg]
  · rfl
  · decide

theorem Reaches.end_eq {table : DecimalTable} {schema target : Json} {left : List (List Char)}
    (reached : Reaches table schema [] target left) : target = schema ∧ left = [] := by
  cases reached
  exact ⟨rfl, rfl⟩

theorem reaches_reader {table : DecimalTable} {part : List Char} {target : Json}
    {left : List (List Char)}
    (reached : Reaches table (.object readerSchema) [part] target left) :
    (target = .object readerSchema ∧ left = [part]) ∨
      (target = propertyChild readerSchema (String.ofList part) ∧ left = []) := by
  cases reached with
  | here => exact .inl ⟨rfl, rfl⟩
  | branch _ listed mem =>
    rcases List.mem_cons.mp listed with rfl | listed
    · cases mem
    · rcases List.mem_cons.mp listed with rfl | listed
      · cases mem
      · obtain rfl := List.mem_singleton.mp listed
        cases mem
  | item _ typed => exact absurd typed (by decide)
  | property _ _ further => exact .inr further.end_eq

theorem undisturbed_state (value : Json) : Undisturbed readerSchemas arabicDigits .draft202012
    (.object readerSchema) ["state".toList] value := by
  refine ⟨fun keywords reached free => .inl ?_, fun _ _ _ _ _ _ other => by cases other⟩
  obtain ⟨-, left⟩ | ⟨same, -⟩ := reaches_reader reached.reaches
  · cases left
  · obtain rfl := Json.object.inj (same.trans (show _ = Json.object textSchema from rfl))
    exact ⟨textSchema_alone, textSchema_compiled⟩

theorem starved_items : Starved readerSchemas arabicDigits (.object readerSchema)
    ["items".toList] := by
  have child : propertyChild readerSchema (String.ofList "items".toList) =
      .object referringItems := by rfl
  refine ⟨fun target left reached => ?_, fun target reached => ?_⟩
  · obtain ⟨rfl, -⟩ | ⟨same, -⟩ := reaches_reader reached
    · exact ⟨_, rfl, rfl⟩
    · exact ⟨_, same.trans child, rfl⟩
  · obtain ⟨-, left⟩ | ⟨same, -⟩ := reaches_reader reached
    · cases left
    · rw [same, child, compiledSchema, if_pos]
      decide

end SkillMind.Agent
