import SkillMind.Effects.Domain

/-!
# The deployment limits of external effects

Which effects a deployment carries out at all.  The switches are independent: opening the
database does not open the document library, and the Git switch alone does not open SVN.
-/

namespace SkillMind.Effects

/-- The switches of `ExecutionFeatures`. -/
structure ExecutionFeatures where
  deferred : Bool := false
  databaseWrites : Bool := false
  documentWrites : Bool := false
  gitWrites : Bool := false
  mcpTools : Bool := false
  httpWrites : Bool := false

namespace ExecutionFeatures

variable (features : ExecutionFeatures)

/-- `capability_enabled` on the registered write capabilities, all of which are deferred
execution capabilities. -/
def capabilityEnabled : EffectCapability → Bool
  | .httpWrite => features.httpWrites
  | .mcpCall => features.mcpTools
  | .databaseWrite | .sqlWrite => features.databaseWrites
  | .documentWrite => features.documentWrites
  | .repositoryWrite => features.deferred || features.gitWrites
  | .issueUpdate => features.deferred

def providerEnabled (capability : EffectCapability) (provider : Option EffectProvider) : Bool :=
  features.capabilityEnabled capability &&
    (capability ≠ .repositoryWrite || features.deferred ||
      provider ∈ [none, some EffectProvider.git])

/-- The operations a capability admits, as `effect_enabled` lists them. -/
def operationEnabled (capability : EffectCapability) (operation : String) : Bool :=
  match capability with
  | .databaseWrite => operation ∈ ["INSERT", "UPDATE"]
  | .documentWrite =>
    operation ∈ ["CREATE", "UPDATE", "MOVE", "MOVE_FOLDER", "CREATE_FOLDER",
      "DELETE_FOLDER", "TRASH", "RESTORE"]
  | .repositoryWrite => operation = "commit"
  | .httpWrite => operation ∈ ["POST", "PUT", "PATCH", "DELETE"]
  | .sqlWrite | .mcpCall | .issueUpdate => true

def effectEnabled (capability : EffectCapability) (operation : String)
    (provider : Option EffectProvider := none) : Bool :=
  features.capabilityEnabled capability && operationEnabled capability operation &&
    features.providerEnabled capability provider

end ExecutionFeatures

end SkillMind.Effects
