import SkillMind.Runs.Domain

/-!
# Proposals, approvals and effect executions

The statuses of the observe, propose, apply chain and the registry of the capabilities that may be
applied. A capability is answered by one or more providers; supervision, Project preauthorization
and the consent given at the start of a Run are decided here and nowhere else. Supervised
capabilities are never preauthorizable, so that the approval of a supervised effect always names
an actor.
-/

namespace SkillMind.Effects

open SkillMind.Runs

inductive ChangeProposalStatus where
  | draft
  | pendingApproval
  | approved
  | applying
  | applied
  | rejected
  | stale
  | failed
  deriving DecidableEq

inductive ApprovalSource where
  | user
  | preauthorization
  | runStart
  deriving DecidableEq

inductive ApprovalDecision where
  | approved
  | rejected
  deriving DecidableEq

inductive EffectExecutionStatus where
  | requested
  | leased
  | applying
  | applied
  | stale
  | failed
  | verificationFailed
  deriving DecidableEq

/-- The statuses an execution does not leave through a claim or a finalization. -/
def EffectExecutionStatus.finished (status : EffectExecutionStatus) : Bool :=
  status ∈ [.applied, .stale, .failed, .verificationFailed]

/-- The phases of a proposal that is delivered inside the running native turn. -/
inductive InlinePhase where
  | active
  | delivered
  | detached
  deriving DecidableEq

inductive EffectCapability where
  | sqlWrite
  | httpWrite
  | mcpCall
  | documentWrite
  | databaseWrite
  | issueUpdate
  | repositoryWrite
  deriving DecidableEq

inductive EffectProvider where
  | postgres
  | http
  | mcp
  | projectLibrary
  | redmine
  | git
  | svn
  deriving DecidableEq

/-- An entry of `EFFECT_CAPABILITIES`, without its proposal validators. -/
structure EffectCapabilityDefinition where
  providers : List EffectProvider
  preauthorizable : Bool
  stagedAuthorization : Bool
  runAutoApprovable : Bool
  stagedProviders : List EffectProvider
  runAutoApprovableProviders : List EffectProvider

namespace EffectCapabilityDefinition

def supportsRunApproval (definition : EffectCapabilityDefinition) (provider : EffectProvider) :
    Bool :=
  definition.runAutoApprovable || provider ∈ definition.runAutoApprovableProviders

def supportsSupervision (definition : EffectCapabilityDefinition) (provider : EffectProvider) :
    Bool :=
  definition.stagedAuthorization || provider ∈ definition.stagedProviders

end EffectCapabilityDefinition

/-- `resolve_effect_capability` on the registered capabilities. -/
def resolveEffectCapability : EffectCapability → EffectCapabilityDefinition
  | .sqlWrite => ⟨[.postgres], false, true, true, [], []⟩
  | .httpWrite => ⟨[.http], false, true, true, [], []⟩
  | .mcpCall => ⟨[.mcp], false, true, false, [], [.mcp]⟩
  | .documentWrite => ⟨[.projectLibrary], false, true, true, [], []⟩
  | .databaseWrite => ⟨[.postgres], false, true, true, [], []⟩
  | .issueUpdate => ⟨[.redmine], true, false, false, [], []⟩
  | .repositoryWrite => ⟨[.git, .svn], false, false, false, [.git], [.git]⟩

/-- `provider_versions`: what an execution records about the provider that carries it out. -/
def providerVersion : EffectCapability → EffectProvider → Option String
  | .sqlWrite, .postgres => some "postgres-native/v2"
  | .httpWrite, .http => some "http-client/v2"
  | .mcpCall, .mcp => some "mcp-tools/v1"
  | .documentWrite, .projectLibrary => some "project-library-receipt/v2"
  | .databaseWrite, .postgres => some "postgres-receipt/v1"
  | .issueUpdate, .redmine => some "redmine-cas/v1"
  | .repositoryWrite, .git => some "git-branch-commit/v2"
  | .repositoryWrite, .svn => some "svn-branch-commit/v1"
  | _, _ => none

end SkillMind.Effects
