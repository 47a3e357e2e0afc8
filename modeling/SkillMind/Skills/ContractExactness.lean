import SkillMind.Skills.TaskContract

/-!
# What the schema of a contract accepts

Each compiled node has one lemma that says what its schema consists of, and the schema is looked
at by its members only. By induction on the depth that is left, the schema of a node accepts
exactly the values that the node describes.
-/

namespace SkillMind.Skills.TaskContract

open Library SkillMind.Core

variable {library : ContractLibrary}

/-! ## What a node is compiled to -/

theorem pyText_injective {first second : String} (same : pyText first = pyText second) :
    first = second := by
  have chars := congrArg toChars? same
  rw [toChars?_pyText, toChars?_pyText] at chars
  exact String.toList_inj.mp (Option.some.inj chars)

theorem pyText_inj {first second : String} : pyText first = pyText second ↔ first = second :=
  ⟨pyText_injective, congrArg pyText⟩

@[simp] theorem at?_keyword (key other : String) (value : Option Value) :
    at? other (keyword key value) = if other = key then value else none := by
  cases value with
  | none => simp [at?, keyword]
  | some value =>
    rw [at?, keyword]
    by_cases same : other = key
    · simp [same]
    · have apart : ¬ pyText other = pyText key := fun equal => same (pyText_inj.mp equal)
      simp [same, List.lookup_cons, beq_eq_false_iff_ne.mpr apart]

@[simp] theorem at?_append (key : String) (first second : Fields) :
    at? key (first ++ second) = (at? key first).or (at? key second) :=
  List.lookup_append

variable {node : Fields}

theorem get_of_at? {key : String} (absent : at? key node = none) :
    get key node = .null := by
  rw [at?] at absent
  rw [get, absent]
  rfl

theorem Kind.mem_kinds (kind : Kind) : kind ∈ kinds := by
  cases kind <;> decide

theorem kind_of_name {kind kind' : Kind} (same : pyText kind.name = pyText kind'.name) :
    kind = kind' := by
  have names := pyText_injective same
  cases kind <;> cases kind' <;> first | rfl | exact absurd names (by decide)

variable {path : String}

theorem typeOf_ok {kind : Kind} :
    typeOf path node = .ok kind ↔ IsKind kind node := by
  rw [typeOf, orFault_eq_ok, IsKind]
  cases get "type" node with
  | string text =>
    simp only [Value.string.injEq]
    constructor
    · intro found
      have named := List.find?_some found
      exact (of_decide_eq_true named).symm
    · rintro rfl
      cases found : Kind.kinds.find? fun other => pyText other.name = pyText kind.name with
      | none =>
        rw [List.find?_eq_none] at found
        exact absurd (decide_eq_true rfl) (found kind (kind.mem_kinds))
      | some other =>
        have named := List.find?_some found
        rw [kind_of_name (of_decide_eq_true named)]
  | _ => simp

theorem rejectInapplicableKeywords_ok {kind : Kind} {u : Unit}
    (passes : rejectInapplicableKeywords kind path node = .ok u) {key : String}
    (known : key ∈ structural) (other : key ∉ kind.allowed) : at? key node = none := by
  rw [rejectInapplicableKeywords, require_eq_ok, List.filter_eq_nil_iff] at passes
  rw [at?, ← Option.not_isSome_iff_eq_none, lookup_isSome_iff_mem]
  intro mem
  have inside : (structural.map pyText).contains (pyText key) = true :=
    List.contains_iff_mem.mpr (List.mem_map_of_mem known)
  have outside : (kind.allowed.map pyText).contains (pyText key) = false := by
    rw [← Bool.not_eq_true, List.contains_iff_mem]
    intro allowed
    obtain ⟨name, mem', same⟩ := List.mem_map.mp allowed
    exact other (pyText_injective same ▸ mem')
  exact passes _ mem (by rw [inside, outside]; rfl)

theorem compileDescription_ok {description : Fields}
    (compiled : compileDescription path node = .ok description) :
    description = keyword "description" ((textOf "description" node).map .string) := by
  rw [compileDescription] at compiled
  rw [textOf]
  cases given : get "description" node with
  | null =>
    rw [given] at compiled
    cases compiled
    rfl
  | string text =>
    rw [given] at compiled
    simp only [bind_eq_ok, exists_unit, require_eq_ok, Except.ok.injEq] at compiled
    obtain ⟨-, -, rfl⟩ := compiled
    rfl
  | _ =>
    rw [given] at compiled
    cases compiled

section Values

theorem handOver_eq_ok {raises : Raises} {handed : Handed} {u : Unit} :
    handOver raises handed = .ok u ↔ raises handed = none := by
  rw [handOver]
  cases raises handed <;> simp

variable {raises : Raises} {kind : Kind} {path : String}

theorem compileValues_ok {index : Nat} {values done result : List Value}
    (compiled : compileValues raises kind path index values done = .ok result) :
    result = done ++ values ∧ ∀ value ∈ values, matchesType value kind = true ∧
      raises (.value value) = none := by
  induction values generalizing index done with
  | nil =>
    cases compiled
    simp
  | cons value rest ih =>
    simp only [compileValues, bind_eq_ok, exists_unit, require_eq_ok, handOver_eq_ok] at compiled
    obtain ⟨type, encoded, -, rest'⟩ := compiled
    obtain ⟨rfl, each⟩ := ih rest'
    refine ⟨List.append_assoc .., ?_⟩
    intro one mem
    rcases List.mem_cons.mp mem with rfl | later
    · exact ⟨type, encoded⟩
    · exact each one later

theorem compileEnum_ok {node values : Fields}
    (compiled : compileEnum raises kind path node = .ok values) :
    values = keyword "enum" ((enumOf node).map .array) ∧
      ∀ listed ∈ enumOf node, kind ≠ .array ∧ kind ≠ .object ∧ listed ≠ [] ∧
        listed.length ≤ maxEnumValues ∧
        ∀ value ∈ listed, matchesType value kind = true ∧ raises (.value value) = none := by
  rw [compileEnum] at compiled
  rw [enumOf]
  cases given : get "enum" node with
  | null =>
    rw [given] at compiled
    cases compiled
    exact ⟨rfl, by simp⟩
  | array listed =>
    rw [given] at compiled
    simp only [bind_eq_ok, exists_unit, require_eq_ok, Except.ok.injEq] at compiled
    obtain ⟨scalar, ⟨present, few⟩, normalized, loop, rfl⟩ := compiled
    obtain ⟨rfl, each⟩ := compileValues_ok loop
    refine ⟨rfl, ?_⟩
    rintro other mem
    obtain rfl := Option.some.inj mem
    exact ⟨scalar.1, scalar.2, present, few, each⟩
  | _ =>
    rw [given] at compiled
    cases compiled

end Values

theorem optionalInteger_ok {key : String} {upper : Option Nat}
    {value : Option Nat} (read : optionalInteger key upper path node = .ok value) :
    value = lengthOf key node := by
  rw [optionalInteger] at read
  rw [lengthOf]
  cases given : get key node with
  | null =>
    rw [given] at read
    cases read
    rfl
  | number number =>
    rw [given] at read
    cases number with
    | int number =>
      simp only [bind_eq_ok, exists_unit, require_eq_ok, Except.ok.injEq] at read
      exact read.2.symm
    | _ => cases read
  | _ =>
    rw [given] at read
    cases read

theorem optionalNumber_ok {key : String} {value : Option Number}
    (read : optionalNumber key path node = .ok value) : value = boundOf key node := by
  rw [optionalNumber] at read
  rw [boundOf]
  cases given : get key node with
  | null | number _ =>
    rw [given] at read
    cases read
    rfl
  | _ =>
    rw [given] at read
    cases read

theorem compilePattern_ok {raises : Raises} {pattern : Option PyText}
    (read : compilePattern library raises path node = .ok pattern) :
    pattern = patternOf node ∧ ∀ text ∈ patternOf node, library.compiling text = .compiled := by
  rw [compilePattern] at read
  rw [patternOf, textOf]
  cases given : get "pattern" node with
  | null =>
    rw [given] at read
    cases read
    exact ⟨rfl, by simp⟩
  | string text =>
    rw [given] at read
    simp only [bind_eq_ok, exists_unit, require_eq_ok, Except.ok.injEq] at read
    obtain ⟨-, -, -, compiles, rfl⟩ := read
    refine ⟨rfl, ?_⟩
    rintro other mem
    obtain rfl := Option.some.inj mem
    exact compiles
  | _ =>
    rw [given] at read
    cases read

theorem compileString_ok {raises : Raises} {keywords : Fields}
    (compiled : compileString library raises path node = .ok keywords) :
    keywords = keyword "minLength" ((lengthOf "min_length" node).map natural) ++
        keyword "maxLength" ((lengthOf "max_length" node).map natural) ++
        keyword "pattern" ((patternOf node).map .string) ∧
      ∀ text ∈ patternOf node, library.compiling text = .compiled := by
  simp only [compileString, bind_eq_ok, exists_unit, require_eq_ok, Except.ok.injEq] at compiled
  obtain ⟨minimum, least, maximum, most, -, pattern, read, rfl⟩ := compiled
  obtain ⟨rfl, compiles⟩ := compilePattern_ok read
  rw [optionalInteger_ok least, optionalInteger_ok most]
  exact ⟨rfl, compiles⟩

theorem compileNumber_ok {keywords : Fields}
    (compiled : compileNumber path node = .ok keywords) :
    keywords = keyword "minimum" ((boundOf "minimum" node).map .number) ++
      keyword "maximum" ((boundOf "maximum" node).map .number) := by
  simp only [compileNumber, bind_eq_ok, exists_unit, require_eq_ok, Except.ok.injEq] at compiled
  obtain ⟨minimum, least, maximum, most, -, rfl⟩ := compiled
  rw [optionalNumber_ok least, optionalNumber_ok most]

/-! ## Fields -/

section Fields

variable {compile : Compile}

variable {path : String}

theorem keyOf_ok {field : Fields} {key : PyText} :
    keyOf path field = .ok key ↔ get "key" field = .string key ∧ isFieldKey key = true := by
  rw [keyOf]
  cases get "key" field with
  | string text =>
    simp only [bind_eq_ok, exists_unit, require_eq_ok, Except.ok.injEq, Value.string.injEq]
    constructor
    · rintro ⟨valid, rfl⟩
      exact ⟨rfl, valid⟩
    · rintro ⟨rfl, valid⟩
      exact ⟨valid, rfl⟩
  | _ => simp

theorem requiredOf_ok {field : Fields} {needed : Bool} :
    requiredOf path field = .ok needed ↔ get "required" field = .bool needed := by
  rw [requiredOf]
  cases get "required" field <;> simp

/-- How the loop runs over fields: what is declared, what is made of it, and the counts. -/
inductive FieldsRan (compile : Compile) :
    List Value → List (PyText × Bool × Fields) → List (PyText × Bool × Fields) → Nat → Nat → Prop
    where
  | nil (count : Nat) : FieldsRan compile [] [] [] count count
  | cons {field schema : Fields} {key : PyText} {needed : Bool} {path : String} {rest : List Value}
      {fields done : List (PyText × Bool × Fields)} {count between counted : Nat}
      (named : get "key" field = .string key) (valid : isFieldKey key = true)
      (optional : get "required" field = .bool needed) (few : count + 1 ≤ maxContractFields)
      (compiled : compile path field (count + 1) = .ok (schema, between))
      (ran : FieldsRan compile rest fields done between counted) :
      FieldsRan compile (.object field :: rest) ((key, needed, field) :: fields)
        ((key, needed, schema) :: done) count counted

theorem compileField_ok {known : List PyText} {raw : Value} {count : Nat}
    {result : PyText × Bool × Fields} {counted : Nat}
    (compiled : compileField compile path known raw count = .ok (result, counted)) :
    ∃ field, raw = .object field ∧ get "key" field = .string result.1 ∧
      isFieldKey result.1 = true ∧ result.1 ∉ known ∧ get "required" field = .bool result.2.1 ∧
      count + 1 ≤ maxContractFields ∧
      compile path field (count + 1) = .ok (result.2.2, counted) := by
  cases raw with
  | object field =>
    simp only [compileField, bind_eq_ok, exists_unit, require_eq_ok, keyOf_ok, requiredOf_ok,
      Except.ok.injEq, Prod.mk.injEq] at compiled
    obtain ⟨-, key, ⟨named, valid⟩, fresh, needed, optional, few, ⟨schema, _⟩, below, rfl, rfl⟩ :=
      compiled
    have apart : key ∉ known := by
      rw [← List.contains_iff_mem, fresh]
      exact Bool.false_ne_true
    exact ⟨field, rfl, named, valid, apart, optional, few, below⟩
  | _ => cases compiled

theorem compileFields_ok {index : Nat} {raws : List Value}
    {done result : List (PyText × Bool × Fields)} {count counted : Nat}
    (compiled : compileFields compile path index raws done count = .ok (result, counted)) :
    ∃ fields more, result = done ++ more ∧ FieldsRan compile raws fields more count counted ∧
      ((done.map Prod.fst).Nodup → (result.map Prod.fst).Nodup) := by
  induction raws generalizing index done count with
  | nil =>
    cases compiled
    exact ⟨[], [], (List.append_nil _).symm, .nil _, id⟩
  | cons raw rest ih =>
    simp only [compileFields, bind_eq_ok] at compiled
    obtain ⟨⟨one, between⟩, first, rest'⟩ := compiled
    obtain ⟨field, rfl, named, valid, fresh, optional, few, below⟩ := compileField_ok first
    obtain ⟨fields, more, rfl, ran, distinct⟩ := ih rest'
    refine ⟨_, one :: more, by rw [List.append_assoc]; rfl,
      .cons named valid optional few below ran, fun nodup => distinct ?_⟩
    rw [List.map_append, List.nodup_append]
    refine ⟨nodup, List.nodup_singleton _, ?_⟩
    rintro key mem _ single rfl
    exact fresh (List.mem_singleton.mp single ▸ mem)

theorem FieldsRan.declared {raws : List Value} {fields done : List (PyText × Bool × Fields)}
    {count counted : Nat} (ran : FieldsRan compile raws fields done count counted) :
    raws.filterMap declaredField = fields := by
  induction ran with
  | nil => rfl
  | cons named _ optional _ _ _ ih =>
    rw [List.filterMap_cons, declaredField, named, optional]
    exact congrArg _ ih

/-- A field and what is made of it: the same key, and a schema of its node. -/
def Made (compile : Compile) (field done : PyText × Bool × Fields) : Prop :=
  field.1 = done.1 ∧ field.2.1 = done.2.1 ∧
    ∃ path count counted, compile path field.2.2 count = .ok (done.2.2, counted)

theorem FieldsRan.made {raws : List Value} {fields done : List (PyText × Bool × Fields)}
    {count counted : Nat} (ran : FieldsRan compile raws fields done count counted) :
    List.Forall₂ (Made compile) fields done := by
  induction ran with
  | nil => exact .nil
  | cons _ _ _ _ compiled _ ih => exact .cons ⟨rfl, rfl, _, _, _, compiled⟩ ih

theorem fieldsOf_ok {node : Fields} {raws : List Value}
    (read : fieldsOf path node = .ok raws) : raws = rawFields node := by
  rw [fieldsOf] at read
  rw [rawFields]
  split at read <;> cases read <;> rename_i given <;> rw [given]

theorem compileObject_ok {node keywords : Fields} {count counted : Nat}
    (compiled : compileObject compile path node count = .ok (keywords, counted)) :
    ∃ done, keywords = objectKeywords done ∧
      FieldsRan compile (rawFields node) (declared node) done count counted ∧
      (done.map Prod.fst).Nodup := by
  simp only [compileObject, bind_eq_ok, Except.ok.injEq, Prod.mk.injEq] at compiled
  obtain ⟨raws, read, ⟨done, _⟩, loop, rfl, rfl⟩ := compiled
  obtain ⟨fields, more, rfl, ran, distinct⟩ := compileFields_ok loop
  obtain rfl := fieldsOf_ok read
  refine ⟨_, rfl, ?_, distinct List.nodup_nil⟩
  rw [TaskContract.declared, ran.declared]
  exact ran

theorem compileArray_ok {node keywords : Fields} {count counted : Nat}
    (compiled : compileArray compile path node count = .ok (keywords, counted)) :
    ∃ item schema, get "items" node = .object item ∧
      compile (path ++ "items/") item count = .ok (schema, counted) ∧
      keywords = keyword "items" (some (.object schema)) := by
  rw [compileArray] at compiled
  cases given : get "items" node with
  | object item =>
    rw [given] at compiled
    simp only [bind_eq_ok, exists_unit, Except.ok.injEq, Prod.mk.injEq] at compiled
    obtain ⟨-, ⟨schema, _⟩, below, rfl, rfl⟩ := compiled
    exact ⟨item, schema, rfl, below, rfl⟩
  | _ =>
    rw [given] at compiled
    cases compiled

end Fields

structure NodeMade (library : ContractLibrary) (raises : Raises) (left : Nat) (kind : Kind)
    (path : String) (node schema description keywords : Fields) (count counted : Nat) : Prop where
  isKind : IsKind kind node
  described : description = keyword "description" ((textOf "description" node).map .string)
  listed : ∀ listed ∈ enumOf node, kind ≠ .array ∧ kind ≠ .object ∧ listed ≠ [] ∧
    listed.length ≤ maxEnumValues ∧
    ∀ value ∈ listed, matchesType value kind = true ∧ raises (.value value) = none
  ofKind : compileKind library raises (compileNode library raises left) kind path node count =
    .ok (keywords, counted)
  applicable : ∀ key ∈ structural, key ∉ kind.allowed → at? key node = none
  schema_eq : schema = keyword "type" (some (.string (pyText kind.name))) ++ description ++
    keyword "enum" ((enumOf node).map .array) ++ keywords

theorem compileNode_ok {raises : Raises} {left : Nat} {schema : Fields}
    {count counted : Nat}
    (compiled : compileNode library raises (left + 1) path node count = .ok (schema, counted)) :
    ∃ kind description keywords,
      NodeMade library raises left kind path node schema description keywords count counted := by
  simp only [compileNode, bind_eq_ok, exists_unit, Except.ok.injEq, Prod.mk.injEq] at compiled
  obtain ⟨kind, type, description, describe, values, enum, ⟨keywords, _⟩, ofKind, applicable, rfl,
    rfl⟩ := compiled
  obtain ⟨rfl, listed⟩ := compileEnum_ok enum
  exact ⟨kind, description, keywords, typeOf_ok.mp type, compileDescription_ok describe, listed,
    ofKind, fun key known other => rejectInapplicableKeywords_ok applicable known other, rfl⟩

theorem map_keywords {keywords : Fields} {count counted : Nat} {read : Except Fault Fields}
    (compiled : read.map (fun keywords => (keywords, count)) = .ok (keywords, counted)) :
    read = .ok keywords ∧ counted = count := by
  cases read with
  | error _ => cases compiled
  | ok _ =>
    cases compiled
    exact ⟨rfl, rfl⟩

theorem objectKeywords_eq (done : List (PyText × Bool × Fields)) :
    ∃ required : Option (List Value), objectKeywords done =
      keyword "properties" (some (.object (done.map fun field => (field.1, .object field.2.2)))) ++
        keyword "additionalProperties" (some (.bool false)) ++
        keyword "required" (required.map .array) ∧
      ∀ name, (∃ names ∈ required, .string name ∈ names) ↔
        ∃ field ∈ done, field.2.1 = true ∧ field.1 = name := by
  have mem : ∀ name, name ∈ (done.filter fun field => field.2.1).map Prod.fst ↔
      ∃ field ∈ done, field.2.1 = true ∧ field.1 = name := by
    intro name
    simp only [List.mem_map, List.mem_filter, and_assoc]
  rw [objectKeywords]
  split_ifs with none
  · refine ⟨Option.none, rfl, fun name => ?_⟩
    rw [← mem name, none]
    simp
  · refine ⟨some _, rfl, fun name => ?_⟩
    rw [← mem name]
    simp only [Option.mem_def, Option.some.injEq, exists_eq_left', List.mem_map,
      Value.string.injEq, exists_eq_right, List.mem_insertionSort]

/-! ## Exactness -/

section Exact

variable {raises : Raises} {left : Nat} {kind : Kind} {path : String}
  {node schema description keywords : Fields} {count counted : Nat}

theorem isKind_iff (is : IsKind kind node) {other : Kind} : IsKind other node ↔ kind = other := by
  constructor
  · intro also
    exact kind_of_name (Value.string.inj (is.symm.trans also))
  · rintro rfl
    exact is

theorem name_iff (other : Kind) : pyText kind.name = pyText other.name ↔ kind = other :=
  ⟨kind_of_name, fun same => same ▸ rfl⟩

theorem NodeMade.at?_kind
    (made : NodeMade library raises left kind path node schema description keywords count counted)
    {key : String} (other : key ≠ "type" ∧ key ≠ "description" ∧ key ≠ "enum") :
    at? key schema = at? key keywords := by
  rw [made.schema_eq, made.described]
  simp [other.1, other.2.1, other.2.2]

theorem NodeMade.at?_type
    (made : NodeMade library raises left kind path node schema description keywords count counted) :
    at? "type" schema = some (.string (pyText kind.name)) := by
  rw [made.schema_eq]
  simp

theorem NodeMade.at?_enum
    (made : NodeMade library raises left kind path node schema description keywords count counted) :
    at? "enum" schema = (enumOf node).map .array := by
  have none : at? "enum" keywords = none := by
    have compiled := made.ofKind
    cases kind with
    | object =>
      obtain ⟨done, rfl, -⟩ := compileObject_ok compiled
      obtain ⟨required, same, -⟩ := objectKeywords_eq done
      simp [same]
    | array =>
      obtain ⟨item, inner, -, -, rfl⟩ := compileArray_ok compiled
      simp
    | string =>
      obtain ⟨read, -⟩ := map_keywords compiled
      simp [(compileString_ok read).1]
    | integer | number =>
      obtain ⟨read, -⟩ := map_keywords compiled
      simp [compileNumber_ok read]
    | boolean =>
      cases compiled
      rfl
  rw [made.schema_eq, made.described]
  simp [none]

theorem NodeMade.anyHolds_iff
    (made : NodeMade library raises left kind path node schema description keywords count counted)
    {value : Value} :
    AnyHolds schema value ↔ HasType (pyText kind.name) value ∧ InEnum node value := by
  constructor
  · rintro ⟨type, enum⟩
    refine ⟨type _ made.at?_type, fun values mem => enum values ?_⟩
    rw [made.at?_enum, Option.mem_def.mp mem]
    rfl
  · rintro ⟨type, enum⟩
    refine ⟨fun name found => ?_, fun values found => ?_⟩
    · obtain rfl := Value.string.inj (Option.some.inj (made.at?_type.symm.trans found))
      exact type
    · rw [made.at?_enum, Option.map_eq_some_iff] at found
      obtain ⟨_, mem, same⟩ := found
      obtain rfl := Value.array.inj same
      exact enum _ mem

theorem NodeMade.textHolds_iff
    (made : NodeMade library raises left .string path node schema description keywords count
      counted) {text : PyText} :
    TextHolds library schema text ↔ (∀ least ∈ lengthOf "min_length" node, least ≤ text.length) ∧
      (∀ most ∈ lengthOf "max_length" node, text.length ≤ most) ∧
      ∀ pattern ∈ patternOf node, library.search pattern text = true := by
  obtain ⟨read, -⟩ := map_keywords made.ofKind
  obtain ⟨rfl, -⟩ := compileString_ok read
  have least : at? "minLength" schema = (lengthOf "min_length" node).map natural := by
    simp [made.at?_kind]
  have most : at? "maxLength" schema = (lengthOf "max_length" node).map natural := by
    simp [made.at?_kind]
  have pattern : at? "pattern" schema = (patternOf node).map .string := by
    simp [made.at?_kind]
  constructor
  · rintro ⟨least', most', pattern'⟩
    refine ⟨fun bound mem => ?_, fun bound mem => ?_, fun expression mem => ?_⟩
    · exact Int.ofNat_le.mp (least' bound (by rw [least, mem]; rfl))
    · exact Int.ofNat_le.mp (most' bound (by rw [most, mem]; rfl))
    · exact pattern' expression (by rw [pattern, mem]; rfl)
  · rintro ⟨least', most', pattern'⟩
    refine ⟨fun bound found => ?_, fun bound found => ?_, fun expression found => ?_⟩
    · rw [least, Option.map_eq_some_iff] at found
      obtain ⟨inner, mem, same⟩ := found
      cases same
      exact Int.ofNat_le.mpr (least' _ mem)
    · rw [most, Option.map_eq_some_iff] at found
      obtain ⟨inner, mem, same⟩ := found
      cases same
      exact Int.ofNat_le.mpr (most' _ mem)
    · rw [pattern, Option.map_eq_some_iff] at found
      obtain ⟨inner, mem, same⟩ := found
      cases same
      exact pattern' _ mem

theorem NodeMade.numberHolds_iff
    (made : NodeMade library raises left kind path node schema description keywords count counted)
    (numeric : kind = .integer ∨ kind = .number) {value : Number} :
    NumberHolds schema value ↔ (∀ least ∈ boundOf "minimum" node, value.less least = false) ∧
      ∀ most ∈ boundOf "maximum" node, most.less value = false := by
  have read : compileNumber path node = .ok keywords := by
    have compiled := made.ofKind
    rcases numeric with rfl | rfl
    · exact (map_keywords compiled).1
    · exact (map_keywords compiled).1
  have least : at? "minimum" schema = (boundOf "minimum" node).map .number := by
    simp [made.at?_kind, compileNumber_ok read]
  have most : at? "maximum" schema = (boundOf "maximum" node).map .number := by
    simp [made.at?_kind, compileNumber_ok read]
  constructor
  · rintro ⟨least', most'⟩
    refine ⟨fun bound mem => least' bound ?_, fun bound mem => most' bound ?_⟩
    · rw [least, mem]
      rfl
    · rw [most, mem]
      rfl
  · rintro ⟨least', most'⟩
    refine ⟨fun bound found => ?_, fun bound found => ?_⟩
    · rw [least, Option.map_eq_some_iff] at found
      obtain ⟨inner, mem, same⟩ := found
      cases same
      exact least' _ mem
    · rw [most, Option.map_eq_some_iff] at found
      obtain ⟨inner, mem, same⟩ := found
      cases same
      exact most' _ mem

theorem validItems_iff {items : List Value} {sub : Fields} :
    ValidItems library items sub ↔ ∀ item ∈ items, Valid library item sub := by
  induction items with
  | nil => simp [ValidItems]
  | cons item rest ih => rw [ValidItems, ih, List.forall_mem_cons]

theorem describedItems_iff {items : List Value} {item : Fields} :
    DescribedItems library items item ↔ ∀ value ∈ items, Described library value item := by
  induction items with
  | nil => simp [DescribedItems]
  | cons value rest ih => rw [DescribedItems, ih, List.forall_mem_cons]

theorem validMembers_iff {members properties : Fields} :
    ValidMembers library members properties ↔ ∀ member ∈ members, ∀ sub,
      properties.lookup member.1 = some (.object sub) → Valid library member.2 sub := by
  induction members with
  | nil => simp [ValidMembers]
  | cons member rest ih =>
    obtain ⟨key, value⟩ := member
    rw [ValidMembers, ih, List.forall_mem_cons]

theorem describedMembers_iff {members : Fields} {fields : List (PyText × Bool × Fields)} :
    DescribedMembers library members fields ↔ ∀ member ∈ members, ∀ field,
      fields.lookup member.1 = some field → Described library member.2 field.2 := by
  induction members with
  | nil => simp [DescribedMembers]
  | cons member rest ih =>
    obtain ⟨key, value⟩ := member
    rw [DescribedMembers, ih, List.forall_mem_cons]

variable {compile : Compile}

theorem lookup_made {fields done : List (PyText × Bool × Fields)}
    (made : List.Forall₂ (Made compile) fields done) (key : PyText) :
    fields.lookup key = none ∧
        (done.map fun field => (field.1, Value.object field.2.2)).lookup key = none ∨
      ∃ field sub path count counted, fields.lookup key = some field ∧
        (done.map fun field => (field.1, Value.object field.2.2)).lookup key =
          some (.object sub) ∧ compile path field.2 count = .ok (sub, counted) := by
  induction made with
  | nil => exact .inl ⟨rfl, rfl⟩
  | @cons field one fields done first _ ih =>
    obtain ⟨same, -, path, count, counted, compiled⟩ := first
    rw [List.map_cons, List.lookup_cons, List.lookup_cons, ← same]
    cases found : key == field.1 with
    | false => exact ih
    | true => exact .inr ⟨field.2, one.2.2, path, count, counted, rfl, rfl, compiled⟩

theorem made_flags {fields done : List (PyText × Bool × Fields)}
    (made : List.Forall₂ (Made compile) fields done) :
    (fields.map fun field => (field.1, field.2.1)) =
      done.map fun field => (field.1, field.2.1) := by
  induction made with
  | nil => rfl
  | cons first _ ih => rw [List.map_cons, List.map_cons, ih, first.1, first.2.1]

theorem made_keys {fields done : List (PyText × Bool × Fields)}
    (made : List.Forall₂ (Made compile) fields done) :
    fields.map Prod.fst = done.map Prod.fst := by
  have flags := congrArg (List.map Prod.fst) (made_flags made)
  rw [List.map_map, List.map_map] at flags
  exact flags

theorem made_required {fields done : List (PyText × Bool × Fields)}
    (made : List.Forall₂ (Made compile) fields done) {keys : List PyText} :
    (∀ field ∈ fields, field.2.1 = true → field.1 ∈ keys) ↔
      ∀ field ∈ done, field.2.1 = true → field.1 ∈ keys := by
  have each : ∀ rows : List (PyText × Bool × Fields),
      (∀ field ∈ rows, field.2.1 = true → field.1 ∈ keys) ↔
        ∀ flag ∈ rows.map (fun field => (field.1, field.2.1)), flag.2 = true → flag.1 ∈ keys := by
    intro rows
    rw [List.forall_mem_map]
  rw [each, each, made_flags made]

theorem made_mem {fields done : List (PyText × Bool × Fields)}
    (made : List.Forall₂ (Made compile) fields done) {field : PyText × Bool × Fields}
    (mem : field ∈ fields) :
    ∃ path count schema counted, compile path field.2.2 count = .ok (schema, counted) := by
  induction made with
  | nil => cases mem
  | @cons _ one _ _ first _ ih =>
    rcases List.mem_cons.mp mem with rfl | later
    · obtain ⟨-, -, path, count, counted, compiled⟩ := first
      exact ⟨path, count, one.2.2, counted, compiled⟩
    · exact ih later

theorem forall_made {holds holds' : Fields → Prop}
    (each : ∀ path node count schema counted, compile path node count = .ok (schema, counted) →
      (holds schema ↔ holds' node))
    {fields done : List (PyText × Bool × Fields)} (made : List.Forall₂ (Made compile) fields done) :
    (∀ one ∈ done, holds one.2.2) ↔ ∀ field ∈ fields, holds' field.2.2 := by
  induction made with
  | nil => simp
  | cons first _ rest =>
    obtain ⟨-, -, path, count, counted, compiled⟩ := first
    rw [List.forall_mem_cons, List.forall_mem_cons, rest, each _ _ _ _ _ compiled]

theorem members_iff {fields done : List (PyText × Bool × Fields)}
    (made : List.Forall₂ (Made compile) fields done)
    (exact : ∀ path node count schema counted, compile path node count = .ok (schema, counted) →
      ∀ value, Valid library value schema ↔ Described library value node) {members : Fields} :
    ValidMembers library members (done.map fun field => (field.1, Value.object field.2.2)) ↔
      DescribedMembers library members fields := by
  rw [validMembers_iff, describedMembers_iff]
  refine forall₂_congr fun member _ => ?_
  rcases lookup_made made member.1 with ⟨none, none'⟩ |
    ⟨field, sub, path, count, counted, found, found', compiled⟩
  · simp [none, none']
  · simp [found, found', exact _ _ _ _ _ compiled]

theorem NodeMade.object
    (made : NodeMade library raises left .object path node schema description keywords count
      counted) :
    ∃ done, FieldsRan (compileNode library raises left) (rawFields node) (declared node) done count
        counted ∧
      propertiesOf schema = done.map (fun field => (field.1, Value.object field.2.2)) ∧
      ∀ keys, KeysHold schema keys ↔ (∀ key ∈ keys, key ∈ (declared node).map Prod.fst) ∧
        ∀ field ∈ declared node, field.2.1 = true → field.1 ∈ keys := by
  obtain ⟨done, rfl, ran, -⟩ := compileObject_ok made.ofKind
  obtain ⟨required, same, names⟩ := objectKeywords_eq done
  have properties : propertiesOf schema =
      done.map (fun field => (field.1, Value.object field.2.2)) := by
    rw [propertiesOf, made.at?_kind (by simp), same]
    simp
  have additional : at? "additionalProperties" schema = some (.bool false) := by
    simp [made.at?_kind, same]
  have listed : at? "required" schema = required.map .array := by
    simp [made.at?_kind, same]
  have known : (propertiesOf schema).map Prod.fst = (declared node).map Prod.fst := by
    rw [properties, made_keys ran.made, List.map_map]
    rfl
  refine ⟨done, ran, properties, fun keys => ?_⟩
  rw [made_required ran.made, ← known]
  constructor
  · rintro ⟨required', additional'⟩
    refine ⟨additional' additional, fun field mem needed => ?_⟩
    obtain ⟨values, mem', inside⟩ := (names field.1).mpr ⟨field, mem, needed, rfl⟩
    exact required' values (by rw [listed, Option.mem_def.mp mem']; rfl) field.1 inside
  · rintro ⟨closed, required'⟩
    refine ⟨fun values found name inside => ?_, fun _ => closed⟩
    rw [listed, Option.map_eq_some_iff] at found
    obtain ⟨inner, mem, same'⟩ := found
    obtain rfl := Value.array.inj same'
    obtain ⟨field, mem', needed, rfl⟩ := (names name).mp ⟨inner, mem, inside⟩
    exact required' field mem' needed

end Exact

theorem compileNode_exact {raises : Raises} (left : Nat) (path : String) (node : Fields)
    (count : Nat) (schema : Fields) (counted : Nat)
    (compiled : compileNode library raises left path node count = .ok (schema, counted))
    (value : Value) : Valid library value schema ↔ Described library value node := by
  induction left generalizing path node count schema counted value with
  | zero => cases compiled
  | succ left ih =>
    obtain ⟨kind, description, keywords, made⟩ := compileNode_ok compiled
    have is := @isKind_iff _ _ made.isKind
    cases value with
    | null =>
      rw [Valid, Described, made.anyHolds_iff, HasType, iff_false]
      rintro ⟨name, -⟩
      have names := pyText_injective name
      cases kind <;> exact absurd names (by decide)
      all_goals simp
    | bool value =>
      rw [Valid, Described, made.anyHolds_iff, HasType, is]
      exact and_congr_left fun _ => name_iff .boolean
      all_goals simp
    | number value =>
      rw [Valid, Described, made.anyHolds_iff, HasType, is, is]
      have types : (pyText kind.name = pyText "number" ∨
          pyText kind.name = pyText "integer" ∧ value.isIntegral = true) ↔
          (kind = .number ∨ kind = .integer ∧ value.isIntegral = true) :=
        or_congr (name_iff .number) (and_congr_left fun _ => name_iff .integer)
      rw [types, and_assoc]
      refine and_congr_right fun type => ?_
      have numeric : kind = .integer ∨ kind = .number :=
        type.symm.imp And.left id
      rw [made.numberHolds_iff numeric, and_comm, and_assoc]
    | string text =>
      rw [Valid, Described, made.anyHolds_iff, HasType, is]
      rw [show (pyText kind.name = pyText "string") ↔ kind = .string from name_iff .string,
        and_assoc]
      refine and_congr_right fun type => ?_
      subst type
      rw [made.textHolds_iff, and_comm, and_assoc, and_assoc]
    | array items =>
      rw [Valid, Described, made.anyHolds_iff, HasType, is]
      rw [show (pyText kind.name = pyText "array") ↔ kind = .array from name_iff .array,
        and_assoc]
      refine and_congr_right fun type => ?_
      subst type
      obtain ⟨item, inner, given, below, same⟩ := compileArray_ok made.ofKind
      have at_items : at? "items" schema = some (.object inner) := by
        simp [made.at?_kind, same]
      have free : InEnum node (.array items) := fun listed mem =>
        absurd rfl (made.listed listed mem).1
      simp only [free, true_and, at_items, given, Option.some.injEq, Value.object.injEq,
        forall_eq', validItems_iff, describedItems_iff]
      exact forall₂_congr fun one _ => ih _ _ _ _ _ below one
    | object members =>
      rw [Valid, Described, made.anyHolds_iff, HasType, is]
      rw [show (pyText kind.name = pyText "object") ↔ kind = .object from name_iff .object,
        and_assoc]
      refine and_congr_right fun type => ?_
      subst type
      obtain ⟨done, ran, properties, keys⟩ := made.object
      have free : InEnum node (.object members) := fun listed mem =>
        absurd rfl (made.listed listed mem).2.1
      rw [keys, properties, members_iff ran.made ih, and_assoc]
      exact and_iff_right free

end SkillMind.Skills.TaskContract
