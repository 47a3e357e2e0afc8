import SkillMind.Effects.Proposal
import SkillMind.Runs.SourceSelection

/-!
# Native SQL

A tool may send SQL as it is written.  The parser of the database turns the text into one tree,
and the check of `native_statement` walks the whole tree: a query holds no modifying statement
at any depth, and a statement to execute holds only the kinds that the connection allows.

The parser is a parameter.  A tree is the dictionary of its node, under `@` the name of its
class; a tuple is an array, and an enumeration a dictionary with its `name`.

The check knows four kinds of statements. A `MERGE`, which the parser accepts inside a `WITH`, is
none of them: apart from it, a tree that passes the check modifies only what its scope lists.
-/

namespace SkillMind.Agent

open Library SkillMind.Core
open Documents (member)
open Effects (textAt objectAt asObject)
open Runs (truthy)

/-- `ValueError`. -/
structure SqlError where
  message : String

/-- The scope of a connection: `scope.get("statements", [])`. -/
structure ConnectionScope where
  statements : List String

/-! ## Trees -/

abbrev SqlNode := List (String × Json)

mutual
def nodes : Json → List SqlNode
  | .object fields => fields :: memberNodes fields
  | .array items => itemNodes items
  | _ => []

def memberNodes : List (String × Json) → List SqlNode
  | [] => []
  | (_, value) :: rest => nodes value ++ memberNodes rest

def itemNodes : List Json → List SqlNode
  | [] => []
  | value :: rest => nodes value ++ itemNodes rest
end

/-- The class of a node. -/
def kind (node : SqlNode) : Option String := textAt node "@"

/-- `commands`. -/
def commandOf (name : String) : Option String :=
  [("SelectStmt", "SELECT"), ("InsertStmt", "INSERT"), ("UpdateStmt", "UPDATE"),
    ("DeleteStmt", "DELETE")].lookup name

def command (node : SqlNode) : Option String := (kind node).bind commandOf

/-- `node.get("action", \x7b\x7d).get("name")`. -/
def actionName (node : SqlNode) : Option String :=
  (objectAt node "action").bind fun action => textAt action "name"

/-- The member is there and is not `None`. -/
def present : Option Json → Bool
  | none | some .null => false
  | some _ => true

section Check

variable (write : Bool) (scope : ConnectionScope)

/-- What `check` asks of one node. -/
def checkNode (node : SqlNode) : Except SqlError Unit := do
  require (¬ (kind node = some "OnConflictClause" ∧
      actionName node = some "ONCONFLICT_UPDATE" ∧ "UPDATE" ∉ scope.statements))
    ⟨"SQL upsert requires UPDATE permission"⟩
  require (¬ (write = true ∧ kind node = some "RangeVar" ∧
      (textAt node "schemaname" = some "pg_catalog" ∨
        textAt node "schemaname" = some "information_schema")))
    ⟨"Native SQL cannot mutate system relations"⟩
  require (∀ operation ∈ command node, operation ∈ scope.statements ∨
      (write = true ∧ kind node = some "SelectStmt" ∧ truthy (member node "valuesLists") = true))
    ⟨"SQL operation is outside the connection scope"⟩
  require (¬ (command node ≠ none ∧ write = false ∧ kind node ≠ some "SelectStmt"))
    ⟨"Query cannot contain a modifying CTE"⟩
  require (¬ (present (member node "intoClause") = true ∨
      (write = false ∧ truthy (member node "lockingClause") = true)))
    ⟨"Query cannot create tables or lock rows"⟩

mutual
def check : Json → Except SqlError Unit
  | .object fields => do
    checkNode write scope fields
    checkMembers fields
  | .array items => checkItems items
  | _ => .ok ()

def checkMembers : List (String × Json) → Except SqlError Unit
  | [] => .ok ()
  | (_, value) :: rest => do
    check value
    checkMembers rest

def checkItems : List Json → Except SqlError Unit
  | [] => .ok ()
  | value :: rest => do
    check value
    checkItems rest
end

/-- The command of the one statement. -/
def operationOf (tree : Json) : Except SqlError String := do
  let mismatch := ⟨"SQL requires the matching query or approved execute capability"⟩
  let operation ← orFault mismatch ((asObject tree).bind command)
  require (operation ∈ if write then ["INSERT", "UPDATE", "DELETE"] else ["SELECT"]) mismatch
  return operation

end Check

/-- `request.get("parameters", [])`, when it is a list. -/
def parametersOf (request : SqlNode) : Option (List Json) :=
  match member request "parameters" with
  | none => some []
  | some (.array items) => some items
  | some _ => none

def isScalar : Json → Bool
  | .array _ | .object _ => false
  | _ => true

def theOnly : List Json → Option Json
  | [tree] => some tree
  | _ => none

structure NativeStatement where
  sql : String
  parameters : List Json
  operation : String

def nativeStatement (parseSql : String → Option (List Json)) (rawStream : Json → String)
    (request : Json) (scope : ConnectionScope) (write : Bool) :
    Except SqlError NativeStatement := do
  let request ← orFault ⟨"SQL request must be an object"⟩ (asObject request)
  require (∀ field ∈ request,
      field.1 ∈ ["sql", "parameters", "limit", "purpose", "response_mode"])
    ⟨"Unknown SQL request field"⟩
  let invalid := ⟨"SQL or parameters are invalid"⟩
  let sql ← orFault invalid (textAt request "sql")
  let parameters ← orFault invalid (parametersOf request)
  require (1 ≤ sql.utf8ByteSize ∧ sql.utf8ByteSize ≤ 65536 ∧ parameters.length ≤ 1000 ∧
    ∀ value ∈ parameters, isScalar value = true) invalid
  let statements ← orFault ⟨"SQL could not be parsed"⟩ (parseSql sql)
  let tree ← orFault ⟨"One SQL statement is required"⟩ (theOnly statements)
  let operation ← operationOf write tree
  check write scope tree
  return ⟨rawStream tree, parameters, operation⟩

/-- The clause of an `INSERT` that updates the rows in conflict. -/
def upserts (node : SqlNode) : Bool :=
  match objectAt node "onConflictClause" with
  | some clause =>
    kind clause = some "OnConflictClause" ∧ actionName clause = some "ONCONFLICT_UPDATE"
  | none => false

/-- The operations of one node that modify data. -/
def modifications (node : SqlNode) : List String :=
  match kind node with
  | some "InsertStmt" => if upserts node then ["INSERT", "UPDATE"] else ["INSERT"]
  | some "UpdateStmt" => ["UPDATE"]
  | some "DeleteStmt" => ["DELETE"]
  | some "MergeStmt" => ["MERGE"]
  | some "SelectStmt" => if present (member node "intoClause") then ["SELECT INTO"] else []
  | _ => []

/-- What the scope promises: an operation that modifies data, at any depth, is one it lists, and
a query has none. -/
def Scoped (write : Bool) (scope : ConnectionScope) (tree : Json) : Prop :=
  ∀ node ∈ nodes tree, ∀ operation ∈ modifications node,
    operation ∈ scope.statements ∧ write = true

/-! ## The walk -/

section Walk

variable {write : Bool} {scope : ConnectionScope} {tree : Json}

mutual
theorem check_eq_ok (tree : Json) :
    check write scope tree = .ok () ↔
      ∀ node ∈ nodes tree, checkNode write scope node = .ok () := by
  cases tree with
  | object fields =>
    simp only [check, nodes, bind_eq_ok, exists_unit, List.forall_mem_cons,
      checkMembers_eq_ok fields]
  | array items =>
    simp only [check, nodes]
    exact checkItems_eq_ok items
  | _ => simp [check, nodes]

theorem checkMembers_eq_ok (fields : List (String × Json)) :
    checkMembers write scope fields = .ok () ↔
      ∀ node ∈ memberNodes fields, checkNode write scope node = .ok () := by
  cases fields with
  | nil => simp [checkMembers, memberNodes]
  | cons field rest =>
    simp only [checkMembers, memberNodes, bind_eq_ok, exists_unit, List.forall_mem_append,
      check_eq_ok field.2, checkMembers_eq_ok rest]

theorem checkItems_eq_ok (items : List Json) :
    checkItems write scope items = .ok () ↔
      ∀ node ∈ itemNodes items, checkNode write scope node = .ok () := by
  cases items with
  | nil => simp [checkItems, itemNodes]
  | cons value rest =>
    simp only [checkItems, itemNodes, bind_eq_ok, exists_unit, List.forall_mem_append,
      check_eq_ok value, checkItems_eq_ok rest]
end

theorem subset_memberNodes {fields : List (String × Json)} {field : String × Json}
    (mem : field ∈ fields) : nodes field.2 ⊆ memberNodes fields := by
  induction mem with
  | head rest => exact List.subset_append_left _ _
  | tail first _ ih => exact fun node inside => List.mem_append_right _ (ih inside)

mutual
theorem nodes_below {node : SqlNode} : ∀ tree : Json, node ∈ nodes tree →
    memberNodes node ⊆ nodes tree
  | .object fields, inside => by
    rcases List.mem_cons.mp inside with rfl | deeper
    · exact List.subset_cons_self _ _
    · exact fun other mem => List.mem_cons_of_mem _ (memberNodes_below fields deeper mem)
  | .array items, inside => itemNodes_below items inside
  | .null, inside | .bool _, inside | .number _, inside | .string _, inside => nomatch inside

theorem memberNodes_below {node : SqlNode} : ∀ fields : List (String × Json),
    node ∈ memberNodes fields → memberNodes node ⊆ memberNodes fields
  | [], inside => nomatch inside
  | (_, value) :: rest, inside => by
    intro other mem
    rcases List.mem_append.mp inside with here | later
    · exact List.mem_append_left _ (nodes_below value here mem)
    · exact List.mem_append_right _ (memberNodes_below rest later mem)

theorem itemNodes_below {node : SqlNode} : ∀ items : List Json,
    node ∈ itemNodes items → memberNodes node ⊆ itemNodes items
  | [], inside => nomatch inside
  | value :: rest, inside => by
    intro other mem
    rcases List.mem_append.mp inside with here | later
    · exact List.mem_append_left _ (nodes_below value here mem)
    · exact List.mem_append_right _ (itemNodes_below rest later mem)
end

theorem objectAt_mem_nodes {node clause : SqlNode} {key : String} (inside : node ∈ nodes tree)
    (found : objectAt node key = some clause) : clause ∈ nodes tree := by
  have isMember : member node key = some (.object clause) := by
    unfold objectAt at found
    split at found
    · rename_i isMember
      rw [isMember, Option.some.inj found]
    · cases found
  obtain ⟨field, search, same⟩ := Option.map_eq_some_iff.mp isMember
  have below := subset_memberNodes (List.mem_of_find?_eq_some search)
  rw [same] at below
  exact nodes_below tree inside (below List.mem_cons_self)

structure NodeAllowed (write : Bool) (scope : ConnectionScope) (node : SqlNode) : Prop where
  upsert : kind node = some "OnConflictClause" → actionName node = some "ONCONFLICT_UPDATE" →
    "UPDATE" ∈ scope.statements
  modifying : ∀ name operation, kind node = some name → commandOf name = some operation →
    name ≠ "SelectStmt" → operation ∈ scope.statements ∧ write = true
  noTable : present (member node "intoClause") = false

theorem checkNode_eq_ok {node : SqlNode} (passed : checkNode write scope node = .ok ()) :
    NodeAllowed write scope node := by
  simp only [checkNode, bind_eq_ok, exists_unit, require_eq_ok] at passed
  obtain ⟨upsert, -, listed, modifying, noTable⟩ := passed
  refine ⟨fun isClause updates => ?_, fun name operation named isCommand modifies => ?_, ?_⟩
  · by_contra missing
    exact upsert ⟨isClause, updates, missing⟩
  · have found : command node = some operation := by
      rw [command, named]
      exact isCommand
    have notSelect : kind node ≠ some "SelectStmt" := by
      rw [named]
      exact fun same => modifies (Option.some.inj same)
    constructor
    · rcases listed operation found with member | values
      · exact member
      · exact absurd values.2.1 notSelect
    · by_contra query
      exact modifying ⟨by simp [found], by simpa using query, notSelect⟩
  · by_contra table
    exact noTable (Or.inl (by simpa using table))

theorem NodeAllowed.modifications {node : SqlNode}
    (all : ∀ node ∈ nodes tree, NodeAllowed write scope node) (inside : node ∈ nodes tree)
    (notMerge : kind node ≠ some "MergeStmt") :
    ∀ operation ∈ modifications node, operation ∈ scope.statements ∧ write = true := by
  intro operation modified
  have allowed := all node inside
  unfold Agent.modifications at modified
  split at modified
  · rename_i isInsert
    have insert := allowed.modifying "InsertStmt" "INSERT" isInsert rfl (by decide)
    split at modified
    · rename_i conflict
      rcases List.mem_cons.mp modified with rfl | update
      · exact insert
      · rw [List.mem_singleton.mp update]
        refine ⟨?_, insert.2⟩
        unfold upserts at conflict
        split at conflict
        · rename_i clause found
          obtain ⟨isClause, updates⟩ := of_decide_eq_true conflict
          exact (all clause (objectAt_mem_nodes inside found)).upsert isClause updates
        · cases conflict
    · rw [List.mem_singleton.mp modified]
      exact insert
  · rename_i isUpdate
    rw [List.mem_singleton.mp modified]
    exact allowed.modifying "UpdateStmt" "UPDATE" isUpdate rfl (by decide)
  · rename_i isDelete
    rw [List.mem_singleton.mp modified]
    exact allowed.modifying "DeleteStmt" "DELETE" isDelete rfl (by decide)
  · rename_i isMerge
    exact absurd isMerge notMerge
  · rw [allowed.noTable] at modified
    cases modified
  · cases modified

end Walk

section Accepted

variable {parseSql : String → Option (List Json)} {rawStream : Json → String} {request : Json}
  {scope : ConnectionScope} {write : Bool} {statement : NativeStatement}

theorem nativeStatement_eq_ok
    (accepted : nativeStatement parseSql rawStream request scope write = .ok statement) :
    ∃ fields sql tree, request = .object fields ∧ textAt fields "sql" = some sql ∧
      parseSql sql = some [tree] ∧ ∀ node ∈ nodes tree, NodeAllowed write scope node := by
  simp only [nativeStatement, bind_eq_ok, exists_unit, orFault_eq_ok] at accepted
  obtain ⟨fields, isObject, -, sql, hasText, _, -, -, statements, parsed, tree, single, _, -,
    checked, -⟩ := accepted
  obtain rfl : request = .object fields := by
    cases request with
    | object own => exact congrArg Json.object (Option.some.inj isObject)
    | _ => cases isObject
  obtain rfl : statements = [tree] := by
    match statements, single with
    | [_], rfl => rfl
  exact ⟨fields, sql, tree, rfl, hasText, parsed,
    fun node inside => checkNode_eq_ok ((check_eq_ok tree).mp checked node inside)⟩

/-- **An accepted statement stays in its scope exactly when it merges nothing.**  At every depth
of its tree the modifying operations are those the scope lists, and a query has none, if and only
if no `MERGE` occurs, or the scope of a statement to execute lists it. -/
theorem accepted_scoped (parseSql : String → Option (List Json)) (rawStream : Json → String)
    (request : Json) (scope : ConnectionScope) (write : Bool) (statement : NativeStatement)
    (accepted : nativeStatement parseSql rawStream request scope write = .ok statement) :
    ∃ fields sql tree, request = .object fields ∧ textAt fields "sql" = some sql ∧
      parseSql sql = some [tree] ∧
      (Scoped write scope tree ↔
        ∀ node ∈ nodes tree, kind node = some "MergeStmt" →
          "MERGE" ∈ scope.statements ∧ write = true) := by
  obtain ⟨fields, sql, tree, isObject, hasText, parsed, all⟩ := nativeStatement_eq_ok accepted
  refine ⟨fields, sql, tree, isObject, hasText, parsed, ?_, ?_⟩
  · intro kept node inside isMerge
    apply kept node inside "MERGE"
    rw [modifications, isMerge]
    exact List.mem_singleton_self _
  · intro merges node inside
    by_cases isMerge : kind node = some "MergeStmt"
    · intro operation modified
      rw [modifications, isMerge] at modified
      rw [List.mem_singleton.mp modified]
      exact merges node inside isMerge
    · exact NodeAllowed.modifications all inside isMerge

end Accepted

/-- A query whose `WITH` merges. -/
def sampleSql : String :=
  "WITH m AS (MERGE INTO items USING source ON items.id = source.id " ++
    "WHEN MATCHED THEN DELETE RETURNING items.id) SELECT * FROM m"

def columnRef (names : List String) : Json :=
  .object [("@", .string "ColumnRef"), ("fields", .array (names.map fun name =>
    .object [("@", .string "String"), ("sval", .string name)]))]

def rangeVar (name : String) : Json :=
  .object [("@", .string "RangeVar"), ("relname", .string name), ("inh", .bool true),
    ("relpersistence", .string "p")]

def enumeration (name value : String) : Json :=
  .object [("#", .string name), ("name", .string value)]

def sampleMerge : SqlNode :=
  [ ("@", .string "MergeStmt"), ("relation", rangeVar "items"),
    ("sourceRelation", rangeVar "source"),
    ("joinCondition", .object [("@", .string "A_Expr"),
      ("kind", enumeration "A_Expr_Kind" "AEXPR_OP"),
      ("name", .array [.object [("@", .string "String"), ("sval", .string "=")]]),
      ("lexpr", columnRef ["items", "id"]), ("rexpr", columnRef ["source", "id"])]),
    ("mergeWhenClauses", .array [.object [("@", .string "MergeWhenClause"),
      ("matchKind", enumeration "MergeMatchKind" "MERGE_WHEN_MATCHED"),
      ("commandType", enumeration "CmdType" "CMD_DELETE")]]),
    ("returningClause", .object [("@", .string "ReturningClause"), ("exprs", .array
      [.object [("@", .string "ResTarget"), ("val", columnRef ["items", "id"])]])]) ]

/-- The tree of `sampleSql`. -/
def sampleTree : Json :=
  .object
    [ ("@", .string "SelectStmt"),
      ("targetList", .array [.object [("@", .string "ResTarget"), ("val",
        .object [("@", .string "ColumnRef"), ("fields", .array
          [.object [("@", .string "A_Star")]])])]]),
      ("fromClause", .array [rangeVar "m"]),
      ("withClause", .object [("@", .string "WithClause"), ("ctes", .array
        [.object [("@", .string "CommonTableExpr"), ("ctename", .string "m"),
          ("ctequery", .object sampleMerge)]])]) ]

def sampleParser (sql : String) : Option (List Json) :=
  if sql = sampleSql then some [sampleTree] else none

def sampleRequest : Json := .object [("sql", .string sampleSql)]

/-- The query is accepted on a connection that only selects. -/
theorem merge_accepted :
    (∃ statement, nativeStatement sampleParser (fun _ => sampleSql) sampleRequest ⟨["SELECT"]⟩
        false = .ok statement) ∧
      sampleParser sampleSql = some [sampleTree] ∧
      sampleMerge ∈ nodes sampleTree ∧ modifications sampleMerge = ["MERGE"] ∧
      ¬ Scoped false ⟨["SELECT"]⟩ sampleTree := by
  have merged : sampleMerge ∈ nodes sampleTree := List.mem_of_getElem? (i := 7) rfl
  refine ⟨exists_ok (by decide +kernel), if_pos rfl, merged, by decide +kernel, fun kept => ?_⟩
  exact Bool.false_ne_true (kept sampleMerge merged "MERGE" (by decide)).2

/-- It is out of its scope for its `MERGE` alone. -/
theorem accepted_scoped_merge :
    ∃ fields sql tree, sampleRequest = .object fields ∧ textAt fields "sql" = some sql ∧
      sampleParser sql = some [tree] ∧
      (Scoped false ⟨["SELECT"]⟩ tree ↔
        ∀ node ∈ nodes tree, kind node = some "MergeStmt" →
          "MERGE" ∈ ["SELECT"] ∧ false = true) := by
  obtain ⟨statement, accepted⟩ : ∃ statement, nativeStatement sampleParser (fun _ => sampleSql)
      sampleRequest ⟨["SELECT"]⟩ false = .ok statement := exists_ok (by decide +kernel)
  exact accepted_scoped sampleParser (fun _ => sampleSql) sampleRequest ⟨["SELECT"]⟩ false
    statement accepted

end SkillMind.Agent
