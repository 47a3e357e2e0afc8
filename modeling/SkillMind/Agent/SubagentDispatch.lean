import SkillMind.Agent.ToolAudit
import SkillMind.Agent.WorkspaceSearch

/-!
# Dispatch of sub-agents

An agent may start up to four branches, each with some of the capabilities it holds itself and
with its part of the turns and of the output. What a branch must not have is told by four names
and by a test of the name; what a capability does is told by the provider the catalogue gives it.
-/

namespace SkillMind.Agent

open Library SkillMind.Core

def changeProposeCapability : String := "change.propose/v1"
def interactionRequestCapability : String := "interaction.request/v1"
def subagentDispatchCapability : String := "subagent.dispatch/v1"

def forbiddenSubagentCapabilities : List String :=
  [changeProposeCapability, interactionRequestCapability, subagentDispatchCapability,
    "workspace.write/v1"]

def isWriteCapability (capability : String) : Prop :=
  ".update/".toList <:+: capability.toList ∨ ".apply/".toList <:+: capability.toList ∨
    ".write/".toList <:+: capability.toList ∨ capability ∈ ["mcp.call/v1", "database.execute/v1"]

instance (capability : String) : Decidable (isWriteCapability capability) :=
  inferInstanceAs (Decidable (_ ∨ _))

/-- What a branch may not be given. -/
def isDenied (capability : String) : Prop :=
  capability ∈ forbiddenSubagentCapabilities ∨ isWriteCapability capability

instance (capability : String) : Decidable (isDenied capability) :=
  inferInstanceAs (Decidable (_ ∨ _))

inductive ProviderEffect where
  /-- It calls `write_workspace_file`, at least for some arguments. -/
  | writesWorkspace
  /-- Its Evidence has an `ArtifactDraft`, at least for some arguments. -/
  | publishesArtifact
  | proposesChange
  | asksUser
  | dispatches

structure CatalogueEntry where
  capability : String
  effects : List ProviderEffect

/-- The definitions of `create_run_tool_registry` with what their providers do. -/
def catalogue : List CatalogueEntry :=
  [ -- The file mode of `ResourceFileProvider` stores the response.
    ⟨"mcp.tools/v1", [.writesWorkspace]⟩,
    ⟨"mcp.query/v1", [.writesWorkspace]⟩,
    ⟨"mcp.read/v1", [.writesWorkspace]⟩,
    ⟨"repository.read/v1", [.writesWorkspace]⟩,
    -- These store every response.
    ⟨"mcp.download/v1", [.writesWorkspace]⟩,
    ⟨"database.query/v1", [.writesWorkspace]⟩,
    ⟨"http.read/v1", [.writesWorkspace]⟩,
    ⟨"database.read/v1", []⟩,
    ⟨"database.read/v2", []⟩,
    ⟨"database.describe/v1", []⟩,
    ⟨"issue.read/v1", []⟩,
    -- It checks files out and stores a prepared commit.
    ⟨"repository.workspace/v1", [.writesWorkspace]⟩,
    -- `_document_file` copies the document.
    ⟨"document.read/v1", [.writesWorkspace]⟩,
    ⟨"document.files/v1", []⟩,
    ⟨"document.convert/v1", [.writesWorkspace, .publishesArtifact]⟩,
    ⟨"document.inspect/v1", []⟩,
    ⟨"document.list/v1", []⟩,
    ⟨"document.readiness/v1", []⟩,
    ⟨"workspace.image/v1", []⟩,
    ⟨"json.schema.validate/v1", []⟩,
    ⟨"workspace.read/v1", []⟩,
    ⟨"workspace.search/v1", []⟩,
    ⟨"workspace.write/v1", [.writesWorkspace]⟩,
    ⟨"workspace.write/v2", [.writesWorkspace, .publishesArtifact]⟩,
    ⟨"workspace.edit/v1", [.writesWorkspace, .publishesArtifact]⟩,
    ⟨"artifact.materialize/v1", [.writesWorkspace]⟩,
    ⟨"artifact.append/v1", [.writesWorkspace, .publishesArtifact]⟩,
    ⟨"audit.export/v1", [.writesWorkspace, .publishesArtifact]⟩,
    -- Its steps are calls of the other tools of the same context.
    ⟨"tool.sequence/v1", []⟩,
    ⟨interactionRequestCapability, [.asksUser]⟩,
    ⟨changeProposeCapability, [.proposesChange]⟩,
    ⟨subagentDispatchCapability, [.dispatches]⟩]

/-- The provider of a capability does more than read. -/
def HasEffect (capability : String) : Prop :=
  ∃ entry ∈ catalogue, entry.capability = capability ∧ entry.effects ≠ []

instance (capability : String) : Decidable (HasEffect capability) :=
  inferInstanceAs (Decidable (∃ _ ∈ _, _))

/-- The capabilities that write or publish and that no name test catches. -/
def uncaughtCapabilities : List String :=
  ["mcp.tools/v1", "mcp.query/v1", "mcp.read/v1", "repository.read/v1", "mcp.download/v1",
    "database.query/v1", "http.read/v1", "repository.workspace/v1", "document.read/v1",
    "document.convert/v1", "workspace.edit/v1", "artifact.materialize/v1", "artifact.append/v1",
    "audit.export/v1"]

/-! ## The dispatch -/

/-- A member of `branches`: its key and objective as texts, and the texts among its
capabilities. -/
inductive BranchArgument where
  | notAnObject
  | object (key objective : String) (capabilities : List String)

structure BranchRequest where
  key : String
  objective : String
  capabilities : List String

structure RunLimits where
  maxTurns : Int
  maxOutputBytes : Int

structure SubagentContext where
  prompt : String
  allowedCapabilities : List String
  subagentOf : Option String
  subagentBranch : Option String
  runId : String
  limits : RunLimits
  tools : List RegisteredTool

structure SubagentBudget where
  turnsPerBranch : Int
  outputBytesPerBranch : Int

def maxSubagentBranches : Nat := 4

def resolveSubagentCapabilities (requested parentAllowed : List String) :
    Except ToolProviderError (List String) :=
  let readable := parentAllowed.filter fun capability => ¬ isDenied capability
  if requested = [] then .ok (sortedSet readable)
  else
    match requested.find? fun capability => isDenied capability ∨ capability ∉ readable with
    | some capability =>
      if isDenied capability then
        .error ⟨"capability_not_granted",
          "Sub-agents cannot receive this capability: " ++ capability, false⟩
      else
        .error ⟨"capability_not_granted",
          "Capability is not held by the dispatching agent: " ++ capability, false⟩
    | none => .ok (sortedSet requested)

/-- `split_budget`: an equal share of what remains, which the dispatch takes to be the limits of
its own context. -/
def splitBudget (branches : Nat) (limits : RunLimits) : Except ToolProviderError SubagentBudget :=
  if branches < 1 ∨ maxSubagentBranches < branches then
    .error (invalidRequest "Sub-agent branch count must be between 1 and 4")
  else if limits.maxTurns / branches < 1 ∨ limits.maxOutputBytes / branches < 1 then
    .error ⟨"budget_exhausted",
      "Remaining Run budget cannot be split across the requested branches", false⟩
  else .ok ⟨limits.maxTurns / branches, limits.maxOutputBytes / branches⟩

/-- The loop of `_branch_requests`. -/
def checkBranches : List BranchArgument → List BranchRequest →
    Except ToolProviderError (List BranchRequest)
  | [], branches => .ok branches
  | .notAnObject :: _, _ => .error (invalidRequest "Sub-agent branch must be an object")
  | .object key objective capabilities :: rest, branches =>
    if key = "" ∨ objective = "" then
      .error (invalidRequest "Sub-agent branch needs a key and an objective")
    else if key ∈ branches.map BranchRequest.key then
      .error (invalidRequest ("Duplicate sub-agent branch key: " ++ key))
    else checkBranches rest (branches ++ [⟨key, objective, capabilities⟩])

/-- `_branch_requests`; `none` when the member is no list. -/
def branchRequests (branches : Option (List BranchArgument)) :
    Except ToolProviderError (List BranchRequest) :=
  match branches with
  | none => .error (invalidRequest "Sub-agent branches are required")
  | some [] => .error (invalidRequest "Sub-agent branches are required")
  | some branches =>
    if maxSubagentBranches < branches.length then
      .error (invalidRequest "Sub-agent dispatch allows at most 4 branches")
    else checkBranches branches []

def branchPrompt (branch : BranchRequest) : String :=
  branch.objective ++ "\n\n" ++
    "You are a bounded read-only sub-analysis of a larger run. Report only what you can " ++
    "support with what you read. You cannot write, ask the user, propose changes, or start " ++
    "further sub-analyses."

/-- `_derive_child_context`; the instructions are those for a model output, or empty. -/
def deriveChildContext (instructions : String) (parent : SubagentContext) (branch : BranchRequest)
    (capabilities : List String) (budget : SubagentBudget) : SubagentContext :=
  { parent with
    prompt := branchPrompt branch ++ instructions
    allowedCapabilities := sortedSet capabilities
    subagentOf := some parent.runId
    subagentBranch := some branch.key
    limits := ⟨budget.turnsPerBranch, budget.outputBytesPerBranch⟩
    tools := parent.tools.filter fun tool => tool.capability ∈ capabilities }

def dispatch (instructions : String) (parent : SubagentContext)
    (branches : Option (List BranchArgument)) :
    Except ToolProviderError (List (BranchRequest × SubagentContext)) := do
  let branches ← branchRequests branches
  let granted ← branches.mapM fun branch =>
    (resolveSubagentCapabilities branch.capabilities parent.allowedCapabilities).map
      fun capabilities => (branch, capabilities)
  let budget ← splitBudget branches.length parent.limits
  pure (granted.map fun branch =>
    (branch.1, deriveChildContext instructions parent branch.1 branch.2 budget))

/-! ## What a branch is given -/

def BranchArgument.wanted (parent : SubagentContext) : BranchArgument → List String
  | .notAnObject => []
  | .object _ _ capabilities =>
    if capabilities = [] then parent.allowedCapabilities else capabilities

/-- **A branch has only what its parent has, with just the tools of it, and nothing that proposes,
asks, dispatches or is named as a write.** -/
structure BranchBounded (parent child : SubagentContext) : Prop where
  subset : ∀ capability ∈ child.allowedCapabilities, capability ∈ parent.allowedCapabilities
  tools : ∀ tool, tool ∈ child.tools ↔
    tool ∈ parent.tools ∧ tool.capability ∈ child.allowedCapabilities
  admitted : ∀ capability ∈ child.allowedCapabilities, ¬ isDenied capability

def IsReadOnly (child : SubagentContext) : Prop :=
  ∀ capability ∈ child.allowedCapabilities, ¬ HasEffect capability

/-- **The branches of a dispatch are read-only and within the limits of the parent.** -/
structure DispatchSound (parent : SubagentContext) (children : List SubagentContext) : Prop where
  bounded : ∀ child ∈ children, BranchBounded parent child
  readOnly : ∀ child ∈ children, IsReadOnly child
  turns : (children.map fun child => child.limits.maxTurns).sum ≤ parent.limits.maxTurns
  outputBytes :
    (children.map fun child => child.limits.maxOutputBytes).sum ≤ parent.limits.maxOutputBytes

theorem mem_sortedSet {texts : List String} {text : String} :
    text ∈ sortedSet texts ↔ text ∈ texts := by
  rw [sortedSet, List.mem_insertionSort, List.mem_dedup]

theorem resolveSubagentCapabilities_eq_ok {requested parentAllowed granted : List String}
    (resolved : resolveSubagentCapabilities requested parentAllowed = .ok granted) :
    (∀ capability ∈ granted, capability ∈ parentAllowed ∧ ¬ isDenied capability) ∧
      ∀ capability, capability ∈ granted ↔
        capability ∈ (if requested = [] then parentAllowed else requested) ∧
          ¬ isDenied capability := by
  rw [resolveSubagentCapabilities] at resolved
  have readable_iff : ∀ capability,
      capability ∈ parentAllowed.filter (fun capability => ¬ isDenied capability) ↔
        capability ∈ parentAllowed ∧ ¬ isDenied capability := by
    intro capability
    rw [List.mem_filter, decide_eq_true_eq]
  split_ifs at resolved with all
  · obtain rfl := Except.ok.inj resolved
    rw [if_pos all]
    refine ⟨fun capability mem => ?_, fun capability => ?_⟩
    · exact (readable_iff capability).mp (mem_sortedSet.mp mem)
    · rw [mem_sortedSet, readable_iff]
  · rw [if_neg all]
    split at resolved
    · split_ifs at resolved
    · rename_i none
      obtain rfl := Except.ok.inj resolved
      have each : ∀ capability ∈ requested, ¬ isDenied capability ∧
          capability ∈ parentAllowed := by
        intro capability mem
        have fine := List.find?_eq_none.mp none capability mem
        rw [decide_eq_true_eq, not_or, not_not, readable_iff] at fine
        exact ⟨fine.1, fine.2.1⟩
      refine ⟨fun capability mem => ?_, fun capability => ?_⟩
      · obtain ⟨free, held⟩ := each capability (mem_sortedSet.mp mem)
        exact ⟨held, free⟩
      · rw [mem_sortedSet]
        exact ⟨fun mem => ⟨mem, (each capability mem).1⟩, fun wanted => wanted.1⟩

theorem splitBudget_eq_ok {branches : Nat} {limits : RunLimits} {budget : SubagentBudget}
    (split : splitBudget branches limits = .ok budget) :
    branches * budget.turnsPerBranch ≤ limits.maxTurns ∧
      branches * budget.outputBytesPerBranch ≤ limits.maxOutputBytes := by
  rw [splitBudget] at split
  split_ifs at split with count
  obtain rfl := Except.ok.inj split
  have positive : (0 : Int) < branches := by omega
  exact ⟨Int.mul_ediv_self_le positive.ne', Int.mul_ediv_self_le positive.ne'⟩

theorem uncaught_not_denied {capability : String} (uncaught : capability ∈ uncaughtCapabilities) :
    ¬ isDenied capability := by
  have free : ∀ name ∈ uncaughtCapabilities, ¬ isDenied name := by decide
  exact free capability uncaught

theorem sum_map_const {α : Type*} (xs : List α) (value : Int) :
    (xs.map fun _ => value).sum = xs.length * value := by
  induction xs with
  | nil => rw [List.map_nil, List.sum_nil, List.length_nil, Nat.cast_zero, zero_mul]
  | cons _ rest ih =>
    rw [List.map_cons, List.sum_cons, ih, List.length_cons]
    push_cast
    rw [add_one_mul, add_comm]

theorem hasEffect_iff {capability : String} (free : ¬ isDenied capability) :
    HasEffect capability ↔ capability ∈ uncaughtCapabilities := by
  have caught : ∀ entry ∈ catalogue, entry.effects ≠ [] →
      isDenied entry.capability ∨ entry.capability ∈ uncaughtCapabilities := by decide
  have listed : ∀ name ∈ uncaughtCapabilities, HasEffect name := by decide
  constructor
  · rintro ⟨entry, mem, rfl, effects⟩
    exact (caught entry mem effects).resolve_left free
  · exact fun mem => listed capability mem

def BranchRequest.argument (branch : BranchRequest) : BranchArgument :=
  .object branch.key branch.objective branch.capabilities

theorem checkBranches_eq_ok {arguments : List BranchArgument} {before branches : List BranchRequest}
    (checked : checkBranches arguments before = .ok branches) :
    branches.map BranchRequest.argument = before.map BranchRequest.argument ++ arguments := by
  induction arguments generalizing before with
  | nil =>
    obtain rfl := Except.ok.inj checked
    exact (List.append_nil _).symm
  | cons argument rest ih =>
    cases argument with
    | notAnObject => cases checked
    | object key objective capabilities =>
      rw [checkBranches] at checked
      split_ifs at checked
      rw [ih checked, List.map_append, List.append_assoc]
      rfl

theorem branchRequests_eq_ok {arguments : Option (List BranchArgument)}
    {branches : List BranchRequest} (read : branchRequests arguments = .ok branches) :
    arguments = some (branches.map BranchRequest.argument) := by
  match arguments with
  | none => cases read
  | some [] => cases read
  | some (argument :: rest) =>
    rw [branchRequests] at read
    split_ifs at read
    exact congrArg some (checkBranches_eq_ok read).symm
    · simp

theorem forall₂_resolved {parentAllowed : List String} {branches : List BranchRequest}
    {granted : List (BranchRequest × List String)}
    (each : List.Forall₂ (fun branch given =>
      (resolveSubagentCapabilities branch.capabilities parentAllowed).map
        (fun capabilities => (branch, capabilities)) = .ok given) branches granted) :
    branches = granted.map Prod.fst ∧ ∀ branch ∈ granted,
      resolveSubagentCapabilities branch.1.capabilities parentAllowed = .ok branch.2 := by
  induction each with
  | nil => exact ⟨rfl, fun _ mem => nomatch mem⟩
  | cons head _ ih =>
    obtain ⟨capabilities, given, rfl⟩ := map_eq_ok.mp head
    exact ⟨congrArg (_ :: ·) ih.1, List.forall_mem_cons.mpr ⟨given, ih.2⟩⟩

theorem dispatch_eq_ok {instructions : String} {parent : SubagentContext}
    {arguments : Option (List BranchArgument)} {dispatched : List (BranchRequest × SubagentContext)}
    (accepted : dispatch instructions parent arguments = .ok dispatched) :
    ∃ (granted : List (BranchRequest × List String)) (budget : SubagentBudget),
      arguments = some (granted.map fun branch => branch.1.argument) ∧
      (∀ branch ∈ granted,
        resolveSubagentCapabilities branch.1.capabilities parent.allowedCapabilities =
          .ok branch.2) ∧
      splitBudget granted.length parent.limits = .ok budget ∧
      dispatched = granted.map fun branch =>
        (branch.1, deriveChildContext instructions parent branch.1 branch.2 budget) := by
  rw [dispatch] at accepted
  obtain ⟨branches, read, resolving⟩ := bind_eq_ok.mp accepted
  obtain ⟨granted, resolved, splitting⟩ := bind_eq_ok.mp resolving
  obtain ⟨budget, split, result⟩ := bind_eq_ok.mp splitting
  obtain ⟨rfl, given⟩ := forall₂_resolved (mapM_eq_ok_iff.mp resolved)
  refine ⟨granted, budget, ?_, given, ?_, (pure_eq_ok.mp result).symm⟩
  · rw [branchRequests_eq_ok read, List.map_map]
    rfl
  · rwa [List.length_map] at split

theorem deriveChildContext_bounded {instructions : String} {parent : SubagentContext}
    {branch : BranchRequest} {granted : List String} {budget : SubagentBudget}
    (resolved : resolveSubagentCapabilities branch.capabilities parent.allowedCapabilities =
      .ok granted) :
    BranchBounded parent (deriveChildContext instructions parent branch granted budget) ∧
      (IsReadOnly (deriveChildContext instructions parent branch granted budget) ↔
        ∀ capability ∈ branch.argument.wanted parent, capability ∉ uncaughtCapabilities) := by
  obtain ⟨held, granted_iff⟩ := resolveSubagentCapabilities_eq_ok resolved
  refine ⟨⟨?_, ?_, ?_⟩, ?_⟩
  · intro capability mem
    exact (held capability (mem_sortedSet.mp mem)).1
  · intro tool
    simp only [deriveChildContext, List.mem_filter, decide_eq_true_eq, mem_sortedSet]
  · intro capability mem
    exact (held capability (mem_sortedSet.mp mem)).2
  · constructor
    · intro readOnly capability wanted uncaught
      have free : ¬ isDenied capability := uncaught_not_denied uncaught
      have given : capability ∈ granted := (granted_iff capability).mpr ⟨wanted, free⟩
      exact readOnly capability (mem_sortedSet.mpr given) ((hasEffect_iff free).mpr uncaught)
    · intro caught capability mem effect
      obtain ⟨wanted, free⟩ := (granted_iff capability).mp (mem_sortedSet.mp mem)
      exact caught capability wanted ((hasEffect_iff free).mp effect)

/-- **An accepted dispatch is sound exactly when no branch asks for a capability that writes or
publishes under a name no test catches, nor is given it as one of all its parent has.** -/
theorem dispatch_sound_iff {instructions : String} {parent : SubagentContext}
    {arguments : List BranchArgument} {dispatched : List (BranchRequest × SubagentContext)}
    (accepted : dispatch instructions parent (some arguments) = .ok dispatched) :
    DispatchSound parent (dispatched.map Prod.snd) ↔
      ∀ argument ∈ arguments, ∀ capability ∈ argument.wanted parent,
        capability ∉ uncaughtCapabilities := by
  obtain ⟨granted, budget, same, resolved, split, rfl⟩ := dispatch_eq_ok accepted
  obtain rfl := Option.some.inj same
  obtain ⟨turns, outputBytes⟩ := splitBudget_eq_ok split
  simp only [List.map_map]
  constructor
  · rintro ⟨-, readOnly, -, -⟩ argument mem
    obtain ⟨branch, among, rfl⟩ := List.mem_map.mp mem
    have bounded := @deriveChildContext_bounded instructions parent branch.1 branch.2 budget
      (resolved branch among)
    exact bounded.2.mp (readOnly _ (List.mem_map.mpr ⟨branch, among, rfl⟩))
  · intro caught
    refine ⟨?_, ?_, ?_, ?_⟩
    · intro child mem
      obtain ⟨branch, among, rfl⟩ := List.mem_map.mp mem
      exact (deriveChildContext_bounded (resolved branch among)).1
    · intro child mem
      obtain ⟨branch, among, rfl⟩ := List.mem_map.mp mem
      exact (deriveChildContext_bounded (resolved branch among)).2.mpr
        (caught _ (List.mem_map.mpr ⟨branch, among, rfl⟩))
    · rw [List.map_map]
      exact (sum_map_const granted budget.turnsPerBranch).trans_le turns
    · rw [List.map_map]
      exact (sum_map_const granted budget.outputBytesPerBranch).trans_le outputBytes

/-- A Run that may read and edit the workspace, with its two tools. -/
def editingParent : SubagentContext :=
  ⟨"Audit the sheet.", ["workspace.edit/v1", "workspace.read/v1"], none, none, "run", ⟨8, 4096⟩,
    [⟨"workspace.edit/v1", "workspace_edit", "workspace", none, "\x7b\x7d", false, none, none⟩,
      ⟨"workspace.read/v1", "workspace_read", "workspace", none, "\x7b\x7d", true, none, none⟩]⟩

theorem dispatch_sound_of_reading :
    ∃ dispatched, dispatch "" editingParent
        (some [.object "a" "Read it." ["workspace.read/v1"],
          .object "b" "Read it too." ["workspace.read/v1"]]) = .ok dispatched ∧
      DispatchSound editingParent (dispatched.map Prod.snd) := by
  obtain ⟨dispatched, accepted⟩ : ∃ dispatched, dispatch "" editingParent
      (some [.object "a" "Read it." ["workspace.read/v1"],
        .object "b" "Read it too." ["workspace.read/v1"]]) = .ok dispatched :=
    exists_ok (by decide)
  refine ⟨dispatched, accepted, (dispatch_sound_iff accepted).mpr ?_⟩
  decide

/-- Two branches of one dispatch are given the tool that edits the files they share. -/
theorem dispatch_edits_the_workspace :
    ∃ dispatched, dispatch "" editingParent
        (some [.object "a" "Tidy it." [], .object "b" "Tidy it too." ["workspace.edit/v1"]]) =
          .ok dispatched ∧
      ¬ DispatchSound editingParent (dispatched.map Prod.snd) ∧
      ∀ branch ∈ dispatched, ∃ tool ∈ branch.2.tools, HasEffect tool.capability := by
  refine ⟨_, rfl, fun sound => ?_, ?_⟩
  · have readOnly := sound.readOnly
    revert readOnly
    unfold IsReadOnly
    decide
  · decide

end SkillMind.Agent
