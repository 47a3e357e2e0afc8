import SkillMind.Skills.ContractExactness

/-!
# The tree of a contract

The nodes below a compiled node are compiled themselves, so what is checked at each node holds over
the whole tree: the limits, what the meta-schema asks of the schema, and which texts and bounds get
into it.
-/

namespace SkillMind.Skills.TaskContract

open Library SkillMind.Core

variable {library : ContractLibrary}

/-! ## Limits -/

section Limits

variable {raises : Raises} {left : Nat} {kind : Kind} {path : String}
  {node schema description keywords : Fields} {count counted : Nat}

theorem NodeMade.declared_nil
    (made : NodeMade library raises left kind path node schema description keywords count counted)
    (other : kind ≠ .object) : declared node = [] := by
  have absent : at? "fields" node = none :=
    made.applicable "fields" (by decide) (by cases kind <;> first | decide | exact absurd rfl other)
  rw [at?] at absent
  rw [declared, rawFields, absent]
  rfl

theorem NodeMade.below_eq
    (made : NodeMade library raises left kind path node schema description keywords count counted)
    (other : kind ≠ .array) : nodesBelow node = (declared node).map fun field => field.2.2 := by
  have absent : at? "items" node = none :=
    made.applicable "items" (by decide) (by cases kind <;> first | decide | exact absurd rfl other)
  rw [nodesBelow, get_of_at? absent]
  exact List.append_nil _

theorem NodeMade.below_array
    (made : NodeMade library raises left .array path node schema description keywords count
      counted) : ∃ item inner place, nodesBelow node = [item] ∧
        compileNode library raises left place item count = .ok (inner, counted) := by
  obtain ⟨item, inner, given, compiled, -⟩ := compileArray_ok made.ofKind
  refine ⟨item, inner, _, ?_, compiled⟩
  rw [nodesBelow, made.declared_nil (by decide), given]
  rfl

theorem NodeMade.below_compiled
    (made : NodeMade library raises left kind path node schema description keywords count counted)
    {next : Fields} (mem : next ∈ nodesBelow node) :
    ∃ place start inner stop,
      compileNode library raises left place next start = .ok (inner, stop) := by
  by_cases array : kind = .array
  · subst array
    obtain ⟨item, inner, place, only, compiled⟩ := made.below_array
    rw [only, List.mem_singleton] at mem
    exact ⟨place, count, inner, counted, mem ▸ compiled⟩
  · rw [made.below_eq array] at mem
    obtain ⟨field, inside, rfl⟩ := List.mem_map.mp mem
    by_cases object : kind = .object
    · subst object
      obtain ⟨done, ran, -⟩ := made.object
      exact made_mem ran.made inside
    · rw [made.declared_nil object] at inside
      cases inside

theorem FieldsRan.total {compile : Compile} {total : Fields → Nat}
    (each : ∀ path node count schema counted, compile path node count = .ok (schema, counted) →
      count ≤ maxContractFields → count + total node ≤ counted ∧ counted ≤ maxContractFields)
    {raws : List Value} {fields done : List (PyText × Bool × Fields)} {count counted : Nat}
    (ran : FieldsRan compile raws fields done count counted) (few : count ≤ maxContractFields) :
    count + (fields.length + (fields.map fun field => total field.2.2).sum) ≤ counted ∧
      counted ≤ maxContractFields := by
  induction ran with
  | nil => exact ⟨le_rfl, few⟩
  | cons _ _ _ room compiled _ ih =>
    obtain ⟨first, between⟩ := each _ _ _ _ _ compiled room
    obtain ⟨rest, most⟩ := ih between
    refine ⟨?_, most⟩
    rw [List.length_cons, List.map_cons, List.sum_cons]
    dsimp only
    omega

theorem compileNode_total (levels left : Nat) (path : String) (node : Fields) (count : Nat)
    (schema : Fields) (counted : Nat)
    (compiled : compileNode library raises left path node count = .ok (schema, counted))
    (few : count ≤ maxContractFields) :
    count + fieldTotal levels node ≤ counted ∧ counted ≤ maxContractFields := by
  induction left generalizing levels path node count schema counted with
  | zero => cases compiled
  | succ left ih =>
    obtain ⟨kind, description, keywords, made⟩ := compileNode_ok compiled
    have inner : fieldTotal levels node ≤
        (declared node).length + ((nodesBelow node).map (fieldTotal (levels - 1))).sum := by
      cases levels with
      | zero => exact Nat.zero_le _
      | succ levels => exact le_rfl
    by_cases object : kind = .object
    · subst object
      obtain ⟨done, ran, -⟩ := made.object
      obtain ⟨covers, most⟩ := ran.total (ih (levels - 1)) few
      rw [made.below_eq (by decide), List.map_map] at inner
      exact ⟨(Nat.add_le_add_left inner count).trans covers, most⟩
    · rw [made.declared_nil object] at inner
      by_cases array : kind = .array
      · subst array
        obtain ⟨item, schema', place, only, compiled'⟩ := made.below_array
        obtain ⟨covers, most⟩ := ih (levels - 1) _ _ _ _ _ compiled' few
        rw [only, List.map_singleton, List.sum_singleton, List.length_nil, Nat.zero_add] at inner
        exact ⟨(Nat.add_le_add_left inner count).trans covers, most⟩
      · rw [made.below_eq array, made.declared_nil object] at inner
        have none : fieldTotal levels node = 0 := Nat.le_zero.mp inner
        have same : counted = count := by
          have ofKind := made.ofKind
          cases kind with
          | object => exact absurd rfl object
          | array => exact absurd rfl array
          | string | integer | number => exact (map_keywords ofKind).2
          | boolean =>
            cases ofKind
            rfl
        rw [none, same]
        exact ⟨le_rfl, few⟩

theorem NodeAt.compiled {root : Fields}
    (compiled : compileNode library raises left path root count = .ok (schema, counted))
    {depth : Nat} (at_ : NodeAt root depth node) :
    ∃ rest place start inner stop, rest + 1 + depth = left + 1 ∧
      compileNode library raises (rest + 1) place node start = .ok (inner, stop) := by
  induction at_ with
  | root =>
    cases left with
    | zero => cases compiled
    | succ left => exact ⟨left, path, count, schema, counted, rfl, compiled⟩
  | child _ mem ih =>
    obtain ⟨rest, place, start, inner, stop, sum, compiled'⟩ := ih
    obtain ⟨_, _, _, made⟩ := compileNode_ok compiled'
    obtain ⟨place', start', inner', stop', compiled''⟩ := made.below_compiled mem
    cases rest with
    | zero => cases compiled''
    | succ rest => exact ⟨rest, place', start', inner', stop', by omega, compiled''⟩

theorem compileDraft_ok {draft : Fields}
    (compiled : compileDraft library raises draft = .ok schema) :
    ∃ inner counted,
      compileNode library raises maxContractDepth "/" draft 0 = .ok (inner, counted) ∧
      schema = keyword "$schema" (some (.string dialect)) ++ inner := by
  simp only [compileDraft, bind_eq_ok, exists_unit, Except.ok.injEq] at compiled
  obtain ⟨-, -, ⟨inner, counted⟩, below, rfl⟩ := compiled
  exact ⟨inner, counted, below, rfl⟩

theorem compileDraft_withinLimits {draft : Fields}
    (compiled : compileDraft library raises draft = .ok schema) : WithinLimits draft := by
  obtain ⟨inner, counted, root, -⟩ := compileDraft_ok compiled
  refine ⟨fun depth node at_ => ?_, fun levels => ?_, fun depth node at_ values mem => ?_⟩
  · obtain ⟨rest, _, _, _, _, sum, -⟩ := at_.compiled root
    omega
  · obtain ⟨covers, most⟩ := compileNode_total levels _ _ _ _ _ _ root (Nat.zero_le _)
    omega
  · obtain ⟨rest, _, _, _, _, -, below⟩ := at_.compiled root
    obtain ⟨_, _, _, made⟩ := compileNode_ok below
    obtain ⟨-, -, present, few, -⟩ := made.listed values mem
    exact ⟨present, few⟩

/-- The keywords that a value is looked at by. -/
def assertions : List String :=
  ["type", "enum", "minLength", "maxLength", "pattern", "minimum", "maximum", "required",
    "additionalProperties", "properties", "items"]

theorem AnyHolds.congr {first second : Fields} {value : Value}
    (same : ∀ key ∈ assertions, at? key second = at? key first) (holds : AnyHolds first value) :
    AnyHolds second value where
  type name found := holds.type name (same "type" (by decide) ▸ found)
  enum values found := holds.enum values (same "enum" (by decide) ▸ found)

theorem TextHolds.congr {first second : Fields} {text : PyText}
    (same : ∀ key ∈ assertions, at? key second = at? key first)
    (holds : TextHolds library first text) : TextHolds library second text where
  minLength least found := holds.minLength least (same "minLength" (by decide) ▸ found)
  maxLength most found := holds.maxLength most (same "maxLength" (by decide) ▸ found)
  pattern pattern found := holds.pattern pattern (same "pattern" (by decide) ▸ found)

theorem NumberHolds.congr {first second : Fields} {value : Number}
    (same : ∀ key ∈ assertions, at? key second = at? key first)
    (holds : NumberHolds first value) : NumberHolds second value where
  minimum least found := holds.minimum least (same "minimum" (by decide) ▸ found)
  maximum most found := holds.maximum most (same "maximum" (by decide) ▸ found)

theorem propertiesOf_congr {first second : Fields}
    (same : ∀ key ∈ assertions, at? key second = at? key first) :
    propertiesOf second = propertiesOf first := by
  rw [propertiesOf, same "properties" (by decide)]
  rfl

theorem KeysHold.congr {first second : Fields} {keys : List PyText}
    (same : ∀ key ∈ assertions, at? key second = at? key first) (holds : KeysHold first keys) :
    KeysHold second keys where
  required names found := holds.required names (same "required" (by decide) ▸ found)
  additional found := by
    rw [propertiesOf_congr same]
    exact holds.additional (same "additionalProperties" (by decide) ▸ found)

theorem Valid.congr {first second : Fields} {value : Value}
    (same : ∀ key ∈ assertions, at? key second = at? key first)
    (valid : Valid library value first) : Valid library value second := by
  cases value with
  | string text =>
    rw [Valid] at valid ⊢
    exact ⟨valid.1.congr same, valid.2.congr same⟩
  | number value =>
    rw [Valid] at valid ⊢
    exact ⟨valid.1.congr same, valid.2.congr same⟩
  | array items =>
    rw [Valid] at valid ⊢
    refine ⟨valid.1.congr same, fun sub found => valid.2 sub ?_⟩
    rw [← same "items" (by decide)]
    exact found
  | object fields =>
    rw [Valid] at valid ⊢
    refine ⟨valid.1.congr same, valid.2.1.congr same, ?_⟩
    rw [propertiesOf_congr same]
    exact valid.2.2
  | null =>
    rw [Valid] at valid ⊢
    · exact valid.congr same
    all_goals simp
  | bool _ =>
    rw [Valid] at valid ⊢
    · exact valid.congr same
    all_goals simp

theorem valid_dialect {value : Value} :
    Valid library value (keyword "$schema" (some (.string dialect)) ++ schema) ↔
      Valid library value schema := by
  have front : ∀ key ∈ assertions,
      at? key (keyword "$schema" (some (.string dialect)) ++ schema) = at? key schema := by
    intro key mem
    have other : key ≠ "$schema" := by
      rintro rfl
      exact absurd mem (by decide)
    simp [other]
  exact ⟨Valid.congr fun key mem => (front key mem).symm, Valid.congr front⟩

end Limits

section Meta

variable {compiling : PyText → Compiling}

theorem MetaSchema.append {first second : Fields} (valid : MetaSchema compiling first)
    (others : MetaSchema compiling second) : MetaSchema compiling (first ++ second) := by
  induction valid with
  | nil => exact others
  | keyword known _ ih => exact .keyword known ih
  | items inner _ _ ih => exact .items inner ih
  | properties inner _ _ ih => exact .properties inner ih

theorem MetaSchema.of_map {α : Type} {key : String} {value : Option α} {write : α → Value}
    (valid : ∀ one ∈ value, MetaKeyword compiling key (write one)) :
    MetaSchema compiling (TaskContract.keyword key (value.map write)) := by
  cases value with
  | none => exact .nil
  | some one => exact .keyword (valid one rfl) .nil

theorem metaSchema_object {done : List (PyText × Bool × Fields)}
    (distinct : (done.map Prod.fst).Nodup)
    (each : ∀ one ∈ done, MetaSchema compiling one.2.2) :
    MetaSchema compiling (objectKeywords done) := by
  have properties : (done.map fun field => (field.1, Value.object field.2.2)) =
      (done.map fun field => (field.1, field.2.2)).map
        fun schema => (schema.1, Value.object schema.2) := by
    rw [List.map_map]
    rfl
  have front : MetaSchema compiling [(pyText "properties",
      .object (done.map fun field => (field.1, .object field.2.2))),
      (pyText "additionalProperties", .bool false)] := by
    rw [properties]
    refine .properties ?_ (.keyword (.additional false) .nil)
    intro schema mem
    obtain ⟨one, inside, rfl⟩ := List.mem_map.mp mem
    exact each one inside
  rw [objectKeywords]
  refine front.append ?_
  split_ifs
  · exact .nil
  · refine .keyword (.required _ ?_) .nil
    refine (List.perm_insertionSort _ _).nodup_iff.mpr ?_
    exact distinct.sublist (List.filter_sublist.map _)

theorem compileNode_meta {raises : Raises} (left : Nat) (path : String) (node : Fields)
    (count : Nat) (schema : Fields) (counted : Nat)
    (compiled : compileNode library raises left path node count = .ok (schema, counted)) :
    MetaSchema library.compiling schema := by
  induction left generalizing path node count schema counted with
  | zero => cases compiled
  | succ left ih =>
    obtain ⟨kind, description, keywords, made⟩ := compileNode_ok compiled
    have inner : MetaSchema library.compiling keywords := by
      have ofKind := made.ofKind
      cases kind with
      | object =>
        obtain ⟨done, rfl, ran, distinct⟩ := compileObject_ok ofKind
        refine metaSchema_object distinct fun one mem => ?_
        obtain ⟨field, -, -, -, path, start, stop, below⟩ := forall₂_mem_right ran.made one mem
        exact ih _ _ _ _ _ below
      | array =>
        obtain ⟨item, schema', -, below, rfl⟩ := compileArray_ok ofKind
        exact .items (ih _ _ _ _ _ below) .nil
      | string =>
        obtain ⟨read, -⟩ := map_keywords ofKind
        obtain ⟨rfl, valid⟩ := compileString_ok read
        refine (MetaSchema.append ?_ ?_).append ?_
        · exact MetaSchema.of_map fun least _ => .minLength least
        · exact MetaSchema.of_map fun most _ => .maxLength most
        · exact MetaSchema.of_map fun text mem => .pattern (valid text mem)
      | integer | number =>
        obtain ⟨read, -⟩ := map_keywords ofKind
        rw [compileNumber_ok read]
        refine MetaSchema.append ?_ ?_
        · exact MetaSchema.of_map fun least _ => .minimum least
        · exact MetaSchema.of_map fun most _ => .maximum most
      | boolean =>
        cases ofKind
        exact .nil
    rw [made.schema_eq, made.described]
    refine ((MetaSchema.append ?_ ?_).append ?_).append inner
    · exact .keyword (.type kind) .nil
    · exact MetaSchema.of_map fun text _ => .description text
    · exact MetaSchema.of_map fun values _ => .enum values

end Meta

/-! ## The encoding -/

section Plain

/-- The texts and bounds of a node have a canonical text with an encoding. -/
structure Writable (node : Fields) : Prop where
  description : ∀ text ∈ textOf "description" node, PyJson.hasSurrogate text = false
  enum : ∀ values ∈ enumOf node, ∀ text, .string text ∈ values → PyJson.hasSurrogate text = false
  pattern : ∀ text ∈ patternOf node, PyJson.hasSurrogate text = false
  bounds : ∀ key ∈ ["minimum", "maximum"], ∀ bound ∈ boundOf key node, bound.isFinite = true

/-- Members with a canonical text that has an encoding. -/
def PlainFields (fields : Fields) : Prop :=
  ∀ field ∈ fields, PyJson.hasSurrogate field.1 = false ∧ field.2.all Value.isPlain = true

theorem Value.allFields_iff {test : Value → Bool} {fields : Fields} :
    Value.allFields test fields = true ↔ ∀ field ∈ fields, field.2.all test = true := by
  induction fields with
  | nil => simp [Value.allFields]
  | cons field rest ih =>
    obtain ⟨key, value⟩ := field
    simp [Value.allFields, ih]

theorem Value.allItems_iff {test : Value → Bool} {items : List Value} :
    Value.allItems test items = true ↔ ∀ item ∈ items, item.all test = true := by
  induction items with
  | nil => simp [Value.allItems]
  | cons item rest ih => simp [Value.allItems, ih]

theorem plain_object {fields : Fields} :
    (Value.object fields).all Value.isPlain = true ↔ PlainFields fields := by
  rw [Value.all, Bool.and_eq_true, Value.allFields_iff, Value.isPlain, List.all_eq_true,
    ← forall₂_and]
  simp only [Bool.not_eq_true', PlainFields]

theorem plain_array {items : List Value} :
    (Value.array items).all Value.isPlain = true ↔
      ∀ item ∈ items, item.all Value.isPlain = true := by
  rw [Value.all, Bool.and_eq_true, Value.allItems_iff]
  exact and_iff_right rfl

theorem plainFields_append {first second : Fields} :
    PlainFields (first ++ second) ↔ PlainFields first ∧ PlainFields second :=
  List.forall_mem_append

theorem plainFields_keyword {key : String} {value : Option Value} :
    PlainFields (keyword key value) ↔ ∀ one ∈ value, one.all Value.isPlain = true := by
  cases value with
  | none => simp [keyword, PlainFields]
  | some one => simp [keyword, PlainFields, PyJson.hasSurrogate_pyText]

theorem plainFields_map {α : Type} {key : String} {value : Option α} {write : α → Value} :
    PlainFields (keyword key (value.map write)) ↔
      ∀ one ∈ value, (write one).all Value.isPlain = true := by
  rw [plainFields_keyword]
  cases value <;> simp

theorem plain_string {text : PyText} :
    (Value.string text).all Value.isPlain = true ↔ PyJson.hasSurrogate text = false := by
  rw [Value.all, Value.isPlain, Bool.not_eq_true']
  all_goals simp

theorem plain_number {value : Number} :
    (Value.number value).all Value.isPlain = true ↔ value.isFinite = true := by
  rw [Value.all, Value.isPlain]
  all_goals simp

theorem NodeAt.under {root next node : Fields} {depth : Nat} (mem : next ∈ nodesBelow root)
    (at_ : NodeAt next depth node) : NodeAt root (depth + 1) node := by
  induction at_ with
  | root => exact .child .root mem
  | child _ inside ih => exact .child ih inside

theorem NodeAt.head {root node : Fields} {depth : Nat} (at_ : NodeAt root depth node) :
    node = root ∨ ∃ next ∈ nodesBelow root, ∃ depth, NodeAt next depth node := by
  induction at_ with
  | root => exact .inl rfl
  | child _ mem ih =>
    rcases ih with rfl | ⟨next, inside, depth, at_⟩
    · exact .inr ⟨_, mem, 1, .root⟩
    · exact .inr ⟨next, inside, depth + 1, .child at_ mem⟩

theorem forall_nodeAt {holds : Fields → Prop} {root : Fields} :
    (∀ depth node, NodeAt root depth node → holds node) ↔
      holds root ∧ ∀ next ∈ nodesBelow root, ∀ depth node, NodeAt next depth node → holds node := by
  constructor
  · intro every
    exact ⟨every 1 root .root, fun next mem depth node at_ => every _ node (at_.under mem)⟩
  · rintro ⟨here, under⟩ depth node at_
    rcases at_.head with rfl | ⟨next, mem, depth', at_'⟩
    · exact here
    · exact under next mem depth' node at_'

theorem hasSurrogate_fieldKey {key : PyText} (valid : isFieldKey key = true) :
    PyJson.hasSurrogate key = false := by
  have low : ∀ point ∈ key, point.value ≤ 122 := by
    cases key with
    | nil => simp
    | cons first rest =>
      rw [isFieldKey] at valid
      simp only [Bool.and_eq_true, Bool.or_eq_true, decide_eq_true_eq, List.all_eq_true,
        beq_iff_eq] at valid
      intro point mem
      rcases List.mem_cons.mp mem with rfl | later
      · exact valid.1.1.2
      · have one := valid.2 point later
        omega
  rw [PyJson.hasSurrogate, List.any_eq_false]
  intro point mem
  rw [decide_eq_true_eq, CodePoint.IsSurrogate]
  have small := low point mem
  omega

theorem FieldsRan.keys {compile : Compile} {raws : List Value}
    {fields done : List (PyText × Bool × Fields)} {count counted : Nat}
    (ran : FieldsRan compile raws fields done count counted) :
    ∀ one ∈ done, PyJson.hasSurrogate one.1 = false := by
  induction ran with
  | nil => simp
  | cons _ valid _ _ _ _ ih =>
    exact List.forall_mem_cons.mpr ⟨hasSurrogate_fieldKey valid, ih⟩

theorem plainFields_object {done : List (PyText × Bool × Fields)}
    (keys : ∀ one ∈ done, PyJson.hasSurrogate one.1 = false) :
    PlainFields (objectKeywords done) ↔ ∀ one ∈ done, PlainFields one.2.2 := by
  constructor
  · intro plain one mem
    have properties := (plainFields_append.mp plain).1 _ List.mem_cons_self
    have member := plain_object.mp properties.2 _ (List.mem_map_of_mem mem)
    exact plain_object.mp member.2
  · intro each
    refine plainFields_append.mpr ⟨?_, ?_⟩
    · intro field mem
      rcases List.mem_pair.mp mem with rfl | rfl
      · refine ⟨PyJson.hasSurrogate_pyText _, plain_object.mpr ?_⟩
        intro member inside
        obtain ⟨one, among, rfl⟩ := List.mem_map.mp inside
        exact ⟨keys one among, plain_object.mpr (each one among)⟩
      · exact ⟨PyJson.hasSurrogate_pyText _, rfl⟩
    · split_ifs
      · exact fun _ none => absurd none List.not_mem_nil
      · intro field mem
        obtain rfl := List.mem_singleton.mp mem
        refine ⟨PyJson.hasSurrogate_pyText _, plain_array.mpr ?_⟩
        intro item inside
        obtain ⟨name, listed, rfl⟩ := List.mem_map.mp inside
        rw [List.mem_insertionSort] at listed
        obtain ⟨one, among, rfl⟩ := List.mem_map.mp listed
        exact plain_string.mpr (keys one (List.mem_filter.mp among).1)

theorem refused_of_raisedOf {value : Value} (accepted : raisedOf library (.value value) = none) :
    refused value = false := by
  rw [raisedOf] at accepted
  split_ifs at accepted with refusal
  exact Bool.eq_false_of_not_eq_true refusal

theorem plain_enum {kind : Kind} {values : List Value}
    (each : ∀ value ∈ values, matchesType value kind = true ∧
      raisedOf library (.value value) = none) :
    (Value.array values).all Value.isPlain = true ↔
      ∀ text, .string text ∈ values → PyJson.hasSurrogate text = false := by
  rw [plain_array]
  constructor
  · intro plain text mem
    exact plain_string.mp (plain _ mem)
  · intro texts value mem
    obtain ⟨type, accepted⟩ := each value mem
    cases value with
    | string text => exact plain_string.mpr (texts text mem)
    | number value =>
      have finite := refused_of_raisedOf accepted
      rw [refused, Value.all, Value.isFinite, Bool.not_eq_false'] at finite
      · exact plain_number.mpr finite
      all_goals simp
    | bool _ => rfl
    | null | array _ | object _ => cases kind <;> cases type

section Node

variable {left : Nat} {kind : Kind} {path : String}
  {node schema description keywords : Fields} {count counted : Nat}

theorem NodeMade.get_null {raises : Raises}
    (made : NodeMade library raises left kind path node schema description keywords count counted)
    {key : String} (known : key ∈ structural) (other : key ∉ kind.allowed) :
    get key node = .null := get_of_at? (made.applicable key known other)

theorem NodeMade.pattern_none {raises : Raises}
    (made : NodeMade library raises left kind path node schema description keywords count counted)
    (other : kind ≠ .string) : patternOf node = none := by
  rw [patternOf, textOf, made.get_null (by decide)]
  cases kind <;> first | decide | exact absurd rfl other

theorem NodeMade.bounds_none {raises : Raises}
    (made : NodeMade library raises left kind path node schema description keywords count counted)
    (other : kind ≠ .integer ∧ kind ≠ .number) :
    ∀ key ∈ ["minimum", "maximum"], boundOf key node = none := by
  intro key mem
  rw [boundOf, made.get_null]
  · rcases List.mem_pair.mp mem with rfl | rfl <;> decide
  · rcases List.mem_pair.mp mem with rfl | rfl
    · cases kind <;> first | decide | exact absurd rfl other.1 | exact absurd rfl other.2
    · cases kind <;> first | decide | exact absurd rfl other.1 | exact absurd rfl other.2

theorem NodeMade.plain_iff
    (made : NodeMade library (raisedOf library) left kind path node schema description keywords
      count counted) :
    PlainFields schema ↔
      (∀ text ∈ textOf "description" node, PyJson.hasSurrogate text = false) ∧
        (∀ values ∈ enumOf node, ∀ text, .string text ∈ values →
          PyJson.hasSurrogate text = false) ∧ PlainFields keywords := by
  have type : PlainFields (keyword "type" (some (.string (pyText kind.name)))) := by
    rw [plainFields_keyword]
    intro one mem
    obtain rfl := Option.some.inj mem
    exact plain_string.mpr (PyJson.hasSurrogate_pyText _)
  have enum : (∀ values ∈ enumOf node, (Value.array values).all Value.isPlain = true) ↔
      ∀ values ∈ enumOf node, ∀ text, .string text ∈ values →
        PyJson.hasSurrogate text = false :=
    forall₂_congr fun values mem => plain_enum (made.listed values mem).2.2.2.2
  rw [made.schema_eq, made.described, plainFields_append, plainFields_append, plainFields_append,
    plainFields_map, plainFields_map, enum, and_assoc, and_assoc]
  simp only [type, true_and, plain_string]

theorem NodeMade.plain_leaf {raises : Raises}
    (made : NodeMade library raises left kind path node schema description keywords count counted)
    (leaf : kind ≠ .object ∧ kind ≠ .array) :
    PlainFields keywords ↔ (∀ text ∈ patternOf node, PyJson.hasSurrogate text = false) ∧
      ∀ key ∈ ["minimum", "maximum"], ∀ bound ∈ boundOf key node, bound.isFinite = true := by
  have ofKind := made.ofKind
  have pattern := made.pattern_none
  have bounds := made.bounds_none
  cases kind with
  | object => exact absurd rfl leaf.1
  | array => exact absurd rfl leaf.2
  | string =>
    obtain ⟨read, -⟩ := map_keywords ofKind
    obtain ⟨rfl, -⟩ := compileString_ok read
    have none : ∀ key ∈ ["minimum", "maximum"], ∀ bound ∈ boundOf key node,
        bound.isFinite = true := by
      intro key mem bound found
      rw [bounds (by decide) key mem] at found
      cases found
    have lengths : ∀ length : Nat, (natural length).all Value.isPlain = true :=
      fun _ => plain_number.mpr rfl
    rw [plainFields_append, plainFields_append, plainFields_map, plainFields_map, plainFields_map,
      and_iff_left none]
    simp only [lengths, implies_true, true_and, plain_string]
  | integer | number =>
    obtain ⟨read, -⟩ := map_keywords ofKind
    rw [compileNumber_ok read, pattern (by decide), plainFields_append, plainFields_map,
      plainFields_map]
    simp [plain_number]
  | boolean =>
    cases ofKind
    rw [pattern (by decide)]
    constructor
    · intro _
      refine ⟨by simp, fun key mem bound found => ?_⟩
      rw [bounds (by decide) key mem] at found
      cases found
    · exact fun _ _ none => absurd none List.not_mem_nil

end Node

theorem compileNode_plain (left : Nat) (path : String) (node : Fields) (count : Nat)
    (schema : Fields) (counted : Nat)
    (compiled :
      compileNode library (raisedOf library) left path node count = .ok (schema, counted)) :
    PlainFields schema ↔ ∀ depth below, NodeAt node depth below → Writable below := by
  induction left generalizing path node count schema counted with
  | zero => cases compiled
  | succ left ih =>
    obtain ⟨kind, description, keywords, made⟩ := compileNode_ok compiled
    rw [made.plain_iff, forall_nodeAt]
    have here : Writable node ↔
        ((∀ text ∈ textOf "description" node, PyJson.hasSurrogate text = false) ∧
          ∀ values ∈ enumOf node, ∀ text, .string text ∈ values →
            PyJson.hasSurrogate text = false) ∧
          (∀ text ∈ patternOf node, PyJson.hasSurrogate text = false) ∧
            ∀ key ∈ ["minimum", "maximum"], ∀ bound ∈ boundOf key node, bound.isFinite = true :=
      ⟨fun writable => ⟨⟨writable.1, writable.2⟩, writable.3, writable.4⟩,
        fun ⟨⟨description, enum⟩, pattern, bounds⟩ => ⟨description, enum, pattern, bounds⟩⟩
    rw [here, ← and_assoc, and_assoc (b := _ ∧ _)]
    refine and_congr_right fun _ => ?_
    by_cases leaf : kind ≠ .object ∧ kind ≠ .array
    · rw [made.plain_leaf leaf, made.below_eq leaf.2, made.declared_nil leaf.1]
      exact (and_iff_left (by simp)).symm
    · have free : (∀ text ∈ patternOf node, PyJson.hasSurrogate text = false) ∧
          ∀ key ∈ ["minimum", "maximum"], ∀ bound ∈ boundOf key node, bound.isFinite = true := by
        have other : kind ≠ .string ∧ kind ≠ .integer ∧ kind ≠ .number := by
          refine ⟨?_, ?_, ?_⟩ <;> rintro rfl <;> exact leaf (by decide)
        refine ⟨?_, fun key mem bound found => ?_⟩
        · rw [made.pattern_none other.1]
          simp
        · rw [made.bounds_none other.2 key mem] at found
          cases found
      rw [and_iff_right free]
      by_cases object : kind = .object
      · subst object
        obtain ⟨done, rfl, ran, -⟩ := compileObject_ok made.ofKind
        rw [plainFields_object ran.keys, made.below_eq (by decide), List.forall_mem_map]
        exact forall_made ih ran.made
      · have array : kind = .array := by
          by_contra other
          exact leaf ⟨object, other⟩
        subst array
        obtain ⟨item, inner, given, below, rfl⟩ := compileArray_ok made.ofKind
        have only : nodesBelow node = [item] := by
          rw [nodesBelow, made.declared_nil (by decide), given]
          rfl
        rw [only, List.forall_mem_singleton, ← ih _ _ _ _ _ below, plainFields_keyword]
        simp only [Option.mem_def, Option.some.injEq, forall_eq', plain_object]

end Plain

end SkillMind.Skills.TaskContract
