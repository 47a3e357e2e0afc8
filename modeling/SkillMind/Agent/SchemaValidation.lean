import SkillMind.Agent.WorkspaceJson
import SkillMind.Library.Descent

/-!
# Validation by a JSON Schema

`validate` reads a schema and an instance as JSON, walks the places of the schema that its keywords
name as schemas, and leaves the rest to the `jsonschema` package.  The package also follows a
reference into any other place of the document, which the walk has not seen: what it applies is
supported exactly as far as it is walked, and what a reference alone reaches is on its own.
-/

namespace SkillMind.Agent.SchemaValidation

open Library SkillMind.Core

def maxFileBytes : Nat := 1048576
def maxErrors : Nat := 50
def maxDepth : Nat := 64
def maxNodes : Nat := 100000
def dialect : PyText := pyText "https://json-schema.org/draft/2020-12/schema"

/-! ## The packages -/

/-- The classes of what `jsonschema` and `referencing` raise. -/
inductive Raised where
  | schemaError
  | unresolvable
  | typeError
  | valueError
  | recursionError
  /-- Any other one, by its class. -/
  | other (name : String)
  deriving DecidableEq

/-- What is read of an error of the validator; a part of a path is `str` of it. -/
structure SchemaError where
  absolutePath : List PyText
  absoluteSchemaPath : List PyText
  keyword : PyText

/-- `iter_errors`: the errors in order, and what is raised behind the last one. -/
structure ErrorStream where
  errors : List SchemaError
  raised : Option Raised

/-- `singles`: keywords whose value is a schema. -/
def singles : List PyText :=
  ["additionalProperties", "unevaluatedProperties", "propertyNames", "items", "contains",
    "unevaluatedItems", "not", "if", "then", "else", "contentSchema"].map pyText

/-- `maps`: keywords whose value has schemas by keys. -/
def maps : List PyText :=
  ["$defs", "definitions", "properties", "patternProperties", "dependentSchemas"].map pyText

/-- `arrays`: keywords whose value is a list of schemas. -/
def arrays : List PyText := ["allOf", "anyOf", "oneOf", "prefixItems"].map pyText

/-- `child.values()` of a `dict`. -/
def valuesOf : PyJson → List PyJson
  | .object fields => fields.map Prod.snd
  | _ => []

/-- The items of a `list`. -/
def itemsOf : PyJson → List PyJson
  | .array items => items
  | _ => []

def memberSchemas (member : PyText × PyJson) : List PyJson :=
  if singles.contains member.1 = true then [member.2]
  else if maps.contains member.1 = true then valuesOf member.2
  else if arrays.contains member.1 = true then itemsOf member.2
  else []

/-- The places of a schema that its keywords name as schemas. -/
def subschemas : PyJson → List PyJson
  | .object fields => fields.flatMap memberSchemas
  | _ => []

/-- `"$ref", "$dynamicRef"`. -/
def referenceKeywords : List PyText := ["$ref", "$dynamicRef"].map pyText

def memberOf (key : String) : PyJson → Option PyJson
  | .object fields => fields.lookup (pyText key)
  | _ => none

def references : PyJson → List PyText
  | .object fields =>
    referenceKeywords.filterMap fun keyword =>
      match fields.lookup keyword with
      | some (.string text) => some text
      | _ => none
  | _ => []

/-- The places that schemas are reached at: by keywords, and by what a reference stands for. -/
inductive Reached (targets : PyJson → PyJson → PyText → PyJson → Prop) (root : PyJson) :
    PyJson → Prop where
  | root : Reached targets root root
  | keyword {place next : PyJson} (reached : Reached targets root place)
      (mem : next ∈ subschemas place) : Reached targets root next
  | reference {place target : PyJson} {text : PyText} (reached : Reached targets root place)
      (mem : text ∈ references place) (resolves : targets root place text target) :
      Reached targets root target

/-- `Draft202012Validator` and `FormatChecker`. -/
structure JsonSchema where
  /-- `FormatChecker().checkers`. -/
  checkers : List PyText
  /-- The keys of `META_SCHEMA["$vocabulary"]`. -/
  vocabularies : List PyText
  checkSchema : PyJson → Except Raised Unit
  /-- The errors of an instance by a schema. -/
  iterErrors : PyJson → PyJson → ErrorStream
  /-- What a reference of a place of the document can stand for. -/
  targets : PyJson → PyJson → PyText → PyJson → Prop
  /-- The schemas of the document that the evaluation of an instance applies. -/
  Applied : PyJson → PyJson → PyJson → Prop
  /-- Draft 2020-12 applies what keywords name and what references stand for. -/
  applied_reached : ∀ {schema instance' place : PyJson},
    Applied schema instance' place → Reached targets schema place

variable (json : JsonModule) (package : JsonSchema)

inductive Fault where
  /-- `ValidationRejected`, by its code. -/
  | rejected (code : String)
  | unicodeEncodeError
  /-- What the package raised. -/
  | raised (raised : Raised)
  deriving DecidableEq

/-- The walk of the values of a text; the first argument is what is left of the nodes. -/
def measureNodes : Nat → List (PyJson × Nat) → Except Fault Unit
  | _, [] => .ok ()
  | 0, _ :: _ => .error (.rejected "too_large")
  | left + 1, (node, depth) :: stack => do
    require (depth ≤ maxDepth) (.rejected "too_large")
    require (node.isFinite = true) (.rejected "invalid_json")
    measureNodes left (((childrenOf node).reverse.map fun child => (child, depth + 1)) ++ stack)

/-- `_parse`.  What a hook raises is a `ValueError`, and so is raised with the same code. -/
def parse (text : PyText) : Except Fault PyJson :=
  match encodeUtf8 text with
  | none => .error .unicodeEncodeError
  | some data => do
    require (data.size ≤ maxFileBytes) (.rejected "too_large")
    match json.loads text with
    | .error _ => .error (.rejected "invalid_json")
    | .ok parsed => do
      require (parsed.all PyJson.hooksReturn = true) (.rejected "invalid_json")
      measureNodes maxNodes [(parsed, 0)]
      .ok parsed

/-! ## The check of a schema -/

/-- `bool(value)`. -/
def truthy : PyJson → Bool
  | .null => false
  | .bool value => value
  | .number literal => decide (literal ∉ [some "0", some "0.0", some "-0.0"])
  | .constant _ => true
  | .string text => decide (text ≠ [])
  | .array items => !items.isEmpty
  | .object fields => !fields.isEmpty

/-- `isinstance(schema, (dict, bool))`. -/
def isSchema : PyJson → Bool
  | .object _ => true
  | .bool _ => true
  | _ => false

def isDialect : PyJson → Bool
  | .string text => decide (text = dialect)
  | _ => false

def knownVocabulary (vocabularies : List PyText) : PyJson → Bool
  | .object fields => fields.all fun field => !truthy field.2 || vocabularies.contains field.1
  | _ => true

/-- `isinstance(value, str) and value.startswith("#")`. -/
def isLocal : PyJson → Bool
  | .string text => decide (text.head? = some (CodePoint.ofChar '#'))
  | _ => false

/-- `isinstance(value, str) and value in checker.checkers`. -/
def isImplemented (checkers : List PyText) : PyJson → Bool
  | .string text => checkers.contains text
  | _ => false

def memberPasses (key : String) (test : PyJson → Bool) (node : PyJson) : Bool :=
  (memberOf key node).all test

def checkNode (node : PyJson) : Except Fault Unit := do
  require (memberPasses "$schema" isDialect node = true) (.rejected "unsupported_schema")
  require (memberPasses "$vocabulary" (knownVocabulary package.vocabularies) node = true)
    (.rejected "unsupported_schema")
  require (memberPasses "$ref" isLocal node = true) (.rejected "external_reference")
  require (memberPasses "$dynamicRef" isLocal node = true) (.rejected "external_reference")
  require (memberPasses "format" (isImplemented package.checkers) node = true)
    (.rejected "unsupported_format")

mutual
/-- How many values are at or below a value. -/
def weight : PyJson → Nat
  | .array items => weightItems items + 1
  | .object fields => weightFields fields + 1
  | _ => 1

def weightItems : List PyJson → Nat
  | [] => 0
  | item :: rest => weight item + weightItems rest

def weightFields : List (PyText × PyJson) → Nat
  | [] => 0
  | (_, value) :: rest => weight value + weightFields rest
end

theorem weight_array (items : List PyJson) :
    weight (.array items) = (items.map weight).sum + 1 := by
  change weightItems items + 1 = _
  refine congrArg Nat.succ ?_
  induction items with
  | nil => rfl
  | cons item rest ih =>
    change weight item + weightItems rest = _
    rw [ih, List.map_cons, List.sum_cons]

theorem weight_object (fields : List (PyText × PyJson)) :
    weight (.object fields) = (fields.map fun field => weight field.2).sum + 1 := by
  change weightFields fields + 1 = _
  refine congrArg Nat.succ ?_
  induction fields with
  | nil => rfl
  | cons field rest ih =>
    change weight field.2 + weightFields rest = _
    rw [ih, List.map_cons, List.sum_cons]

theorem weight_valuesOf (value : PyJson) : ((valuesOf value).map weight).sum ≤ weight value := by
  cases value with
  | object fields =>
    rw [valuesOf, weight_object, List.map_map]
    exact Nat.le_succ _
  | _ => exact Nat.zero_le _

theorem weight_itemsOf (value : PyJson) : ((itemsOf value).map weight).sum ≤ weight value := by
  cases value with
  | array items =>
    rw [itemsOf, weight_array]
    exact Nat.le_succ _
  | _ => exact Nat.zero_le _

theorem weight_memberSchemas (field : PyText × PyJson) :
    ((memberSchemas field).map weight).sum ≤ weight field.2 := by
  rw [memberSchemas]
  split_ifs
  · simp
  · exact weight_valuesOf field.2
  · exact weight_itemsOf field.2
  · simp

theorem weight_subschemas (node : PyJson) :
    ((subschemas node).map weight).sum < weight node := by
  cases node with
  | object fields =>
    rw [subschemas, weight_object]
    refine Nat.lt_succ_of_le ?_
    induction fields with
    | nil => rfl
    | cons field rest ih =>
      rw [List.flatMap_cons, List.map_append, List.sum_append, List.map_cons, List.sum_cons]
      exact Nat.add_le_add (weight_memberSchemas field) ih
  | array items => exact Nat.succ_pos (weightItems items)
  | _ => exact Nat.one_pos

def places : Descent PyJson := ⟨subschemas, weight, weight_subschemas⟩

/-- A place that keywords alone reach. -/
def Walked (schema place : PyJson) : Prop := places.Within schema place

/-- The exceptions that `_check_schema` translates. -/
def caughtByCheck : List Raised := [.schemaError, .typeError, .valueError, .recursionError]

/-- The exceptions that `validate` translates. -/
def caughtByRun : List Raised := [.unresolvable, .recursionError, .valueError, .typeError]

/-- What leaves a handler. -/
def translated (caught : List Raised) (raised : Raised) : Fault :=
  if raised ∈ caught then .rejected "invalid_schema" else .raised raised

def checkSchema (schema : PyJson) : Except Fault Unit := do
  require (isSchema schema = true) (.rejected "invalid_schema")
  places.visit (checkNode package) [schema]
  match package.checkSchema schema with
  | .error raised => .error (translated caughtByCheck raised)
  | .ok () => .ok ()

/-! ## The verdict -/

/-- `str(x).replace("~", "~0").replace("/", "~1")`. -/
def escapedPart (part : PyText) : PyText :=
  part.flatMap fun c =>
    if c = tilde then [tilde, zeroPoint] else if c = slashPoint then [tilde, onePoint] else [c]

def pointer (parts : List PyText) : PyText :=
  (parts.flatMap fun part => slashPoint :: escapedPart part).take 1024

/-- An entry of `errors`. -/
structure ReportedError where
  instancePath : PyText
  schemaPath : PyText
  keyword : PyText
  message : PyText

def reported (error : SchemaError) : ReportedError where
  instancePath := pointer error.absolutePath
  schemaPath := pointer error.absoluteSchemaPath
  keyword := error.keyword.take 100
  message := pyText "JSON Schema constraint failed: " ++ error.keyword.take 100

structure Verdict where
  valid : Bool
  errors : List ReportedError
  truncated : Bool
  schemaDialect : PyText
  formatAssertions : Bool

/-- The loop over the errors; what is behind the error that does not fit is not asked for. -/
def collect (stream : ErrorStream) : Except Fault (List ReportedError × Bool) :=
  if maxErrors < stream.errors.length then
    .ok ((stream.errors.take maxErrors).map reported, true)
  else
    match stream.raised with
    | some raised => .error (translated caughtByRun raised)
    | none => .ok (stream.errors.map reported, false)

def validate (schemaText instanceText : PyText) : Except Fault Verdict := do
  let schema ← parse json schemaText
  let instance' ← parse json instanceText
  checkSchema package schema
  let (errors, truncated) ← collect (package.iterErrors schema instance')
  .ok ⟨errors.isEmpty, errors, truncated, dialect, true⟩

/-- A schema of the supported dialect that refers to its own document and uses a format that the
checker has. -/
structure Supported (node : PyJson) : Prop where
  dialect : ∀ value, memberOf "$schema" node = some value → value = .string dialect
  vocabulary : ∀ fields, memberOf "$vocabulary" node = some (.object fields) →
    ∀ field ∈ fields, truthy field.2 = true → field.1 ∈ package.vocabularies
  reference : ∀ keyword ∈ ["$ref", "$dynamicRef"], ∀ value, memberOf keyword node = some value →
    ∃ text, value = .string (CodePoint.ofChar '#' :: text)
  format : ∀ value, memberOf "format" node = some value →
    ∃ name ∈ package.checkers, value = .string name

/-- Nothing but `ValidationRejected` is raised, and behind a verdict every schema that was applied
is supported. -/
structure ChecksApplied (schemaText instanceText : PyText) : Prop where
  raises : ∀ fault, validate json package schemaText instanceText = .error fault →
    ∃ code, fault = .rejected code
  applied : ∀ verdict schema instance',
    validate json package schemaText instanceText = .ok verdict →
    parse json schemaText = .ok schema → parse json instanceText = .ok instance' →
    ∀ place, package.Applied schema instance' place → Supported package place

/-- Both texts are read, and keywords reach supported places only. -/
structure Admitted (schemaText instanceText : PyText) (schema instance' : PyJson) : Prop where
  schemaRead : parse json schemaText = .ok schema
  instanceRead : parse json instanceText = .ok instance'
  isSchema : isSchema schema = true
  walked : ∀ place, Walked schema place → Supported package place

/-- The texts have an encoding, the package raises what is translated, and what is applied though no
keyword reaches it is supported. -/
structure Guarded (schemaText instanceText : PyText) : Prop where
  schemaEncodes : PyJson.hasSurrogate schemaText = false
  instanceEncodes : ∀ schema, parse json schemaText = .ok schema →
    PyJson.hasSurrogate instanceText = false
  checkRaises : ∀ schema instance', Admitted json package schemaText instanceText schema instance' →
    ∀ raised, package.checkSchema schema = .error raised → raised ∈ caughtByCheck
  runRaises : ∀ schema instance', Admitted json package schemaText instanceText schema instance' →
    package.checkSchema schema = .ok () →
    (package.iterErrors schema instance').errors.length ≤ maxErrors →
    ∀ raised, (package.iterErrors schema instance').raised = some raised → raised ∈ caughtByRun
  strays : ∀ schema instance', Admitted json package schemaText instanceText schema instance' →
    package.checkSchema schema = .ok () →
    (maxErrors < (package.iterErrors schema instance').errors.length ∨
      (package.iterErrors schema instance').raised = none) →
    ∀ place, package.Applied schema instance' place → ¬ Walked schema place →
      Supported package place

theorem measureNodes_rejects {left : Nat} {stack : List (PyJson × Nat)} {fault : Fault}
    (raised : measureNodes left stack = .error fault) : ∃ code, fault = .rejected code := by
  induction left generalizing stack with
  | zero =>
    cases stack with
    | nil => cases raised
    | cons entry stack =>
      cases raised
      exact ⟨_, rfl⟩
  | succ left ih =>
    obtain _ | ⟨⟨node, depth⟩, stack⟩ := stack
    · cases raised
    · rw [measureNodes, bind_eq_error, bind_eq_error] at raised
      rcases raised with deep | ⟨-, -, infinite | ⟨-, -, rest⟩⟩
      · exact ⟨_, (require_eq_error.mp deep).2.symm⟩
      · exact ⟨_, (require_eq_error.mp infinite).2.symm⟩
      · exact ih rest

theorem parse_raises {text : PyText} {fault : Fault} (raised : parse json text = .error fault) :
    PyJson.hasSurrogate text = true ∧ fault = .unicodeEncodeError ∨
      ∃ code, fault = .rejected code := by
  rw [parse] at raised
  cases encoded : encodeUtf8 text with
  | none =>
    rw [encoded] at raised
    cases raised
    refine .inl ⟨?_, rfl⟩
    rw [← Bool.not_eq_false, ← PyJson.encodeUtf8_isSome_iff, encoded]
    exact Bool.false_ne_true
  | some data =>
    refine .inr ?_
    rw [encoded] at raised
    simp only [bind_eq_error] at raised
    rcases raised with large | ⟨-, -, rest⟩
    · exact ⟨_, (require_eq_error.mp large).2.symm⟩
    · cases loaded : json.loads text with
      | error _ =>
        rw [loaded] at rest
        cases rest
        exact ⟨_, rfl⟩
      | ok parsed =>
        rw [loaded] at rest
        simp only [bind_eq_error] at rest
        rcases rest with hooked | ⟨-, -, long | ⟨-, -, nothing⟩⟩
        · exact ⟨_, (require_eq_error.mp hooked).2.symm⟩
        · exact measureNodes_rejects long
        · cases nothing

theorem parse_of_surrogate {text : PyText} (surrogate : PyJson.hasSurrogate text = true) :
    parse json text = .error .unicodeEncodeError := by
  have none : encodeUtf8 text = none := by
    rw [← Option.not_isSome_iff_eq_none, PyJson.encodeUtf8_isSome_iff, surrogate]
    exact Bool.noConfusion
  rw [parse, none]

/-! ## The walk -/

section Walk

variable {json package} {node schema : PyJson}

theorem memberPasses_iff {key : String} {test : PyJson → Bool} :
    memberPasses key test node = true ↔
      ∀ value, memberOf key node = some value → test value = true := by
  rw [memberPasses]
  cases memberOf key node with
  | none => simp
  | some value => simp

theorem isDialect_iff {value : PyJson} : isDialect value = true ↔ value = .string dialect := by
  cases value <;> simp [isDialect]

theorem isLocal_iff {value : PyJson} :
    isLocal value = true ↔ ∃ text, value = .string (CodePoint.ofChar '#' :: text) := by
  cases value with
  | string text =>
    rw [isLocal, decide_eq_true_eq, List.head?_eq_some_iff]
    simp only [PyJson.string.injEq]
  | _ => simp [isLocal]

theorem isImplemented_iff {checkers : List PyText} {value : PyJson} :
    isImplemented checkers value = true ↔ ∃ name ∈ checkers, value = .string name := by
  cases value <;> simp [isImplemented]

theorem knownVocabulary_iff {vocabularies : List PyText} {value : PyJson} :
    knownVocabulary vocabularies value = true ↔ ∀ fields, value = .object fields →
      ∀ field ∈ fields, truthy field.2 = true → field.1 ∈ vocabularies := by
  cases value with
  | object fields =>
    have member : ∀ field : PyText × PyJson,
        (!truthy field.2 || vocabularies.contains field.1) = true ↔
          (truthy field.2 = true → field.1 ∈ vocabularies) := by
      intro field
      cases truthy field.2 <;> simp
    simp only [knownVocabulary, List.all_eq_true, member, PyJson.object.injEq, forall_eq']
  | _ => simp [knownVocabulary]

theorem checkNode_iff : checkNode package node = .ok () ↔ Supported package node := by
  simp only [checkNode, bind_eq_ok, exists_unit, require_eq_ok, memberPasses_iff, isDialect_iff,
    isLocal_iff, isImplemented_iff, knownVocabulary_iff]
  constructor
  · rintro ⟨declared, vocabulary, reference, dynamic, format⟩
    refine ⟨declared, fun fields found => vocabulary _ found fields rfl, ?_, format⟩
    intro keyword mem
    rcases List.mem_pair.mp mem with rfl | rfl
    · exact reference
    · exact dynamic
  · intro supported
    refine ⟨supported.dialect, ?_, supported.reference _ (by simp), supported.reference _ (by simp),
      supported.format⟩
    rintro value found fields rfl
    exact supported.vocabulary fields found

theorem checkNode_rejects {fault : Fault} (raised : checkNode package node = .error fault) :
    ∃ code, fault = .rejected code := by
  simp only [checkNode, bind_eq_error, require_eq_error] at raised
  rcases raised with
    ⟨-, rfl⟩ | ⟨-, -, ⟨-, rfl⟩ | ⟨-, -, ⟨-, rfl⟩ | ⟨-, -, ⟨-, rfl⟩ | ⟨-, -, -, rfl⟩⟩⟩⟩
  all_goals exact ⟨_, rfl⟩

theorem translated_rejected_iff {caught : List Raised} {raised : Raised} :
    (∃ code, translated caught raised = .rejected code) ↔ raised ∈ caught := by
  rw [translated]
  split_ifs with known
  · simp [known]
  · simp [known]

theorem visit_iff :
    places.visit (checkNode package) [schema] = .ok () ↔
      ∀ place, Walked schema place → Supported package place := by
  rw [Descent.visit_eq_ok, List.forall_mem_singleton]
  simp only [checkNode_iff, Walked]

theorem checkSchema_iff :
    checkSchema package schema = .ok () ↔ isSchema schema = true ∧
      (∀ place, Walked schema place → Supported package place) ∧
      package.checkSchema schema = .ok () := by
  rw [checkSchema]
  simp only [bind_eq_ok, exists_unit, require_eq_ok, visit_iff]
  cases package.checkSchema schema <;> simp

theorem checkSchema_raises {fault : Fault} (raised : checkSchema package schema = .error fault) :
    (∃ code, fault = .rejected code) ∨ isSchema schema = true ∧
      (∀ place, Walked schema place → Supported package place) ∧
      ∃ cause, package.checkSchema schema = .error cause ∧
        fault = translated caughtByCheck cause := by
  rw [checkSchema] at raised
  simp only [bind_eq_error] at raised
  rcases raised with shape | ⟨_, shape, walk | ⟨_, walk, rest⟩⟩
  · exact .inl ⟨_, (require_eq_error.mp shape).2.symm⟩
  · obtain ⟨part, first⟩ := Descent.visit_eq_error _ walk
    exact .inl (checkNode_rejects first)
  · refine .inr ⟨require_eq_ok.mp shape, visit_iff.mp walk, ?_⟩
    cases checked : package.checkSchema schema with
    | ok _ =>
      rw [checked] at rest
      cases rest
    | error cause =>
      rw [checked] at rest
      cases rest
      exact ⟨cause, rfl, rfl⟩

end Walk

/-! ## The verdict -/

theorem collect_ok {stream : ErrorStream} {answer : List ReportedError × Bool}
    (collected : collect stream = .ok answer) :
    maxErrors < stream.errors.length ∨ stream.raised = none := by
  rw [collect] at collected
  split_ifs at collected with many
  · exact .inl many
  · cases raised : stream.raised with
    | none => exact .inr rfl
    | some cause =>
      rw [raised] at collected
      cases collected

theorem collect_of_answers {stream : ErrorStream}
    (answers : maxErrors < stream.errors.length ∨ stream.raised = none) :
    ∃ answer, collect stream = .ok answer := by
  rw [collect]
  split_ifs with many
  · exact ⟨_, rfl⟩
  · rw [answers.resolve_left many]
    exact ⟨_, rfl⟩

theorem collect_raises {stream : ErrorStream} {fault : Fault} :
    collect stream = .error fault ↔ stream.errors.length ≤ maxErrors ∧
      ∃ cause, stream.raised = some cause ∧ fault = translated caughtByRun cause := by
  rw [collect]
  split_ifs with many
  · simp [Nat.not_le.mpr many]
  · cases stream.raised with
    | none => simp
    | some cause => simp [Nat.not_lt.mp many, eq_comm]

variable {json package}

theorem validate_eq_ok {schemaText instanceText : PyText} {verdict : Verdict} :
    validate json package schemaText instanceText = .ok verdict ↔
      ∃ schema instance', Admitted json package schemaText instanceText schema instance' ∧
        package.checkSchema schema = .ok () ∧
        ∃ answer, collect (package.iterErrors schema instance') = .ok answer ∧
          ⟨answer.1.isEmpty, answer.1, answer.2, dialect, true⟩ = verdict := by
  simp only [validate, bind_eq_ok, exists_unit, checkSchema_iff, Except.ok.injEq]
  constructor
  · rintro ⟨schema, read, instance', read', ⟨shape, walked, checked⟩, answer, collected, same⟩
    exact ⟨schema, instance', ⟨read, read', shape, walked⟩, checked, answer, collected, same⟩
  · rintro ⟨schema, instance', admitted, checked, answer, collected, same⟩
    exact ⟨schema, admitted.schemaRead, instance', admitted.instanceRead,
      ⟨admitted.isSchema, admitted.walked, checked⟩, answer, collected, same⟩

theorem validate_raises {schemaText instanceText : PyText} {fault : Fault}
    (raised : validate json package schemaText instanceText = .error fault) :
    (∃ code, fault = .rejected code) ∨ PyJson.hasSurrogate schemaText = true ∨
      (∃ schema, parse json schemaText = .ok schema ∧ PyJson.hasSurrogate instanceText = true) ∨
      ∃ schema instance', Admitted json package schemaText instanceText schema instance' ∧
        ((∃ cause, package.checkSchema schema = .error cause ∧
            fault = translated caughtByCheck cause) ∨
          package.checkSchema schema = .ok () ∧
            (package.iterErrors schema instance').errors.length ≤ maxErrors ∧
            ∃ cause, (package.iterErrors schema instance').raised = some cause ∧
              fault = translated caughtByRun cause) := by
  simp only [validate, bind_eq_error] at raised
  rcases raised with first | ⟨schema, read, second | ⟨instance', read', rest⟩⟩
  · rcases parse_raises json first with ⟨surrogate, -⟩ | rejected
    · exact .inr (.inl surrogate)
    · exact .inl rejected
  · rcases parse_raises json second with ⟨surrogate, -⟩ | rejected
    · exact .inr (.inr (.inl ⟨schema, read, surrogate⟩))
    · exact .inl rejected
  · rcases rest with checked | ⟨_, passed, collected | ⟨_, -, nothing⟩⟩
    · rcases checkSchema_raises checked with rejected | ⟨shape, walked, cause, fails, same⟩
      · exact .inl rejected
      · exact .inr (.inr (.inr ⟨schema, instance', ⟨read, read', shape, walked⟩,
          .inl ⟨cause, fails, same⟩⟩))
    · obtain ⟨shape, walked, checked⟩ := checkSchema_iff.mp passed
      exact .inr (.inr (.inr ⟨schema, instance', ⟨read, read', shape, walked⟩,
        .inr ⟨checked, collect_raises.mp collected⟩⟩))
    · cases nothing

section Admission

variable {schemaText instanceText : PyText} {schema instance' : PyJson}

theorem checkSchema_of_admitted
    (admitted : Admitted json package schemaText instanceText schema instance') {cause : Raised}
    (fails : package.checkSchema schema = .error cause) :
    checkSchema package schema = .error (translated caughtByCheck cause) := by
  rw [checkSchema, require_of admitted.isSchema, ok_bind, visit_iff.mpr admitted.walked, ok_bind,
    fails]

theorem validate_of_checkSchema
    (admitted : Admitted json package schemaText instanceText schema instance') {cause : Raised}
    (fails : package.checkSchema schema = .error cause) :
    validate json package schemaText instanceText = .error (translated caughtByCheck cause) := by
  rw [validate, admitted.schemaRead, ok_bind, admitted.instanceRead, ok_bind,
    checkSchema_of_admitted admitted fails]
  rfl

theorem validate_of_collect
    (admitted : Admitted json package schemaText instanceText schema instance')
    (passes : package.checkSchema schema = .ok ()) {fault : Fault}
    (collected : collect (package.iterErrors schema instance') = .error fault) :
    validate json package schemaText instanceText = .error fault := by
  rw [validate, admitted.schemaRead, ok_bind, admitted.instanceRead, ok_bind,
    checkSchema_iff.mpr ⟨admitted.isSchema, admitted.walked, passes⟩, ok_bind, collected]
  rfl

theorem ChecksApplied.guarded (checks : ChecksApplied json package schemaText instanceText) :
    Guarded json package schemaText instanceText where
  schemaEncodes := by
    by_contra surrogate
    have fails : validate json package schemaText instanceText = .error .unicodeEncodeError := by
      rw [validate, parse_of_surrogate json (Bool.not_eq_false _ ▸ surrogate)]
      rfl
    obtain ⟨code, same⟩ := checks.raises _ fails
    cases same
  instanceEncodes schema read := by
    by_contra surrogate
    have fails : validate json package schemaText instanceText = .error .unicodeEncodeError := by
      rw [validate, read, ok_bind, parse_of_surrogate json (Bool.not_eq_false _ ▸ surrogate)]
      rfl
    obtain ⟨code, same⟩ := checks.raises _ fails
    cases same
  checkRaises schema instance' admitted cause fails :=
    translated_rejected_iff.mp (checks.raises _ (validate_of_checkSchema admitted fails))
  runRaises schema instance' admitted passes few cause raised :=
    translated_rejected_iff.mp (checks.raises _ (validate_of_collect admitted passes
      (collect_raises.mpr ⟨few, cause, raised, rfl⟩)))
  strays schema instance' admitted passes answers place applied _ := by
    obtain ⟨answer, collected⟩ := collect_of_answers answers
    have verdict := validate_eq_ok.mpr ⟨schema, instance', admitted, passes, answer, collected, rfl⟩
    exact checks.applied _ schema instance' verdict admitted.schemaRead admitted.instanceRead place
      applied

theorem Guarded.checksApplied (guarded : Guarded json package schemaText instanceText) :
    ChecksApplied json package schemaText instanceText where
  raises fault raised := by
    rcases validate_raises raised with rejected | surrogate | ⟨schema, read, surrogate⟩ |
      ⟨schema, instance', admitted, ⟨cause, fails, rfl⟩ | ⟨passes, few, cause, raises, rfl⟩⟩
    · exact rejected
    · rw [guarded.schemaEncodes] at surrogate
      cases surrogate
    · rw [guarded.instanceEncodes schema read] at surrogate
      cases surrogate
    · exact translated_rejected_iff.mpr (guarded.checkRaises schema instance' admitted cause fails)
    · exact translated_rejected_iff.mpr
        (guarded.runRaises schema instance' admitted passes few cause raises)
  applied verdict schema instance' verdict_eq read read' place applied := by
    obtain ⟨other, other', admitted, passes, answer, collected, -⟩ := validate_eq_ok.mp verdict_eq
    obtain rfl := Except.ok.inj (read.symm.trans admitted.schemaRead)
    obtain rfl := Except.ok.inj (read'.symm.trans admitted.instanceRead)
    by_cases walked : Walked schema place
    · exact admitted.walked place walked
    · exact guarded.strays schema instance' admitted passes (collect_ok collected) place applied
        walked

end Admission

/-- What the references of walked places stand for is walked. -/
def ReferencesWalked (package : JsonSchema) (schema : PyJson) : Prop :=
  ∀ place, Walked schema place → ∀ text ∈ references place, ∀ target,
    package.targets schema place text target → Walked schema target

theorem walked_of_applied {schema instance' place : PyJson}
    (closed : ReferencesWalked package schema)
    (applied : package.Applied schema instance' place) : Walked schema place := by
  have reached := package.applied_reached applied
  clear applied
  induction reached with
  | root => exact .self schema
  | keyword _ mem walked => exact Relation.ReflTransGen.tail walked mem
  | reference _ mem resolves walked => exact closed _ walked _ mem _ resolves

/-- A schema whose references lead to walked places is applied only where it was checked. -/
theorem supported_of_applied {schemaText instanceText : PyText} {verdict : Verdict}
    {schema instance' place : PyJson}
    (validated : validate json package schemaText instanceText = .ok verdict)
    (read : parse json schemaText = .ok schema) (closed : ReferencesWalked package schema)
    (applied : package.Applied schema instance' place) : Supported package place := by
  obtain ⟨other, other', admitted, -⟩ := validate_eq_ok.mp validated
  obtain rfl := Except.ok.inj (read.symm.trans admitted.schemaRead)
  exact admitted.walked place (walked_of_applied closed applied)

/-- **A validation checks what it applies exactly when the texts have an encoding, the package
raises what is translated, and the schemas that a reference alone reaches are supported.** -/
theorem checksApplied_iff (schemaText instanceText : PyText) :
    ChecksApplied json package schemaText instanceText ↔
      Guarded json package schemaText instanceText :=
  ⟨ChecksApplied.guarded, Guarded.checksApplied⟩

/-! ## A format behind a reference -/

/-- A schema in the place of a default. -/
def unknownFormat : PyJson := .object [(pyText "format", .string (pyText "no-such-format"))]

def defaultReference : PyJson :=
  .object [(pyText "$ref", .string (pyText "#/default")), (pyText "default", unknownFormat)]

def defaultReferenceText : PyText :=
  pyText "\x7b\"$ref\":\"#/default\",\"default\":\x7b\"format\":\"no-such-format\"\x7d\x7d"

def anyText : PyText := pyText "\"any\""

theorem sampleNesting : 128 ≤ 900 := by decide

/-- `json.loads` of the two texts. -/
def sampleJson : JsonModule where
  loads text :=
    if text = defaultReferenceText then .ok defaultReference
    else if text = anyText then .ok (.string (pyText "any"))
    else .error .valueError
  nesting := 900
  nesting_le := sampleNesting

def DefaultTarget (root _ : PyJson) (text : PyText) (target : PyJson) : Prop :=
  text = pyText "#/default" ∧ memberOf "default" root = some target

def samplePackage : JsonSchema where
  checkers := [pyText "date"]
  vocabularies := []
  checkSchema _ := .ok ()
  iterErrors _ _ := ⟨[], none⟩
  targets := DefaultTarget
  Applied schema _ place := Reached DefaultTarget schema place
  applied_reached := id

theorem parse_of_loads {text : PyText} {value : PyJson} (loaded : sampleJson.loads text = .ok value)
    (small : (encodeUtf8 text).map (fun data => decide (data.size ≤ maxFileBytes)) = some true)
    (hooks : value.all PyJson.hooksReturn = true)
    (measured : measureNodes maxNodes [(value, 0)] = .ok ()) :
    parse sampleJson text = .ok value := by
  obtain ⟨data, encoded, fits⟩ := Option.map_eq_some_iff.mp small
  rw [parse, encoded]
  simp only [loaded]
  rw [require_of (of_decide_eq_true fits), ok_bind, require_of hooks, ok_bind, measured]
  rfl

theorem parse_defaultReference : parse sampleJson defaultReferenceText = .ok defaultReference :=
  have loaded : sampleJson.loads defaultReferenceText = .ok defaultReference := by
    simp [sampleJson]
  parse_of_loads loaded (by decide) (by decide) rfl

theorem parse_any : parse sampleJson anyText = .ok (.string (pyText "any")) :=
  have other : anyText ≠ defaultReferenceText := by decide
  have loaded : sampleJson.loads anyText = .ok (.string (pyText "any")) := by
    simp [sampleJson, other]
  parse_of_loads loaded (by decide) rfl rfl

theorem not_supported_unknownFormat : ¬ Supported samplePackage unknownFormat := by
  intro supported
  obtain ⟨name, known, same⟩ := supported.format _ rfl
  obtain rfl := PyJson.string.inj same
  exact absurd known (by decide)

/-- **A format that nothing implements is behind a verdict.** -/
theorem defaultReference_not_checked :
    validate sampleJson samplePackage defaultReferenceText anyText =
        .ok ⟨true, [], false, dialect, true⟩ ∧
      ¬ ChecksApplied sampleJson samplePackage defaultReferenceText anyText := by
  have admitted : Admitted sampleJson samplePackage defaultReferenceText anyText defaultReference
      (.string (pyText "any")) := by
    refine ⟨parse_defaultReference, parse_any, rfl, ?_⟩
    have passes : places.visit (checkNode samplePackage) [defaultReference] = .ok () := by
      rw [Descent.visit_cons]
      have first : checkNode samplePackage defaultReference = .ok () := by decide
      have none : places.extended defaultReference [] = [] := by decide
      rw [first, ok_bind, none, Descent.visit_nil]
    exact visit_iff.mp passes
  have verdict : validate sampleJson samplePackage defaultReferenceText anyText =
      .ok ⟨true, [], false, dialect, true⟩ :=
    validate_eq_ok.mpr ⟨_, _, admitted, rfl, ([], false), rfl, rfl⟩
  refine ⟨verdict, fun checks => not_supported_unknownFormat ?_⟩
  have applied : samplePackage.Applied defaultReference (.string (pyText "any")) unknownFormat :=
    have named : pyText "#/default" ∈ references defaultReference := by decide
    .reference .root named ⟨rfl, rfl⟩
  exact checks.applied _ _ _ verdict parse_defaultReference parse_any _ applied

end SkillMind.Agent.SchemaValidation
