import SkillMind.Reconciliation.RequestService

/-!
# Leases of MCP desktops

A desktop is an endpoint with one lease: the Run that has it, and the effect whose operation there
is not known to have ended.  `McpDesktopLeases` changes the lease in short transactions; the calls
themselves, and the lookup of a pending operation, are made outside of them.

The endpoint is kept by the hash of its normalized address.  Whether the lookup found that an
operation has ended is the answer of the remote side, so a pending operation may be released
whenever it was observed.
-/

namespace SkillMind.Agent

open Library Reconciliation
open Runs (Uuid RunStatus)

inductive ErrorClass where
  | mcpDesktopBusyError
  | noResultFound
  | integrityError
  | valueError
  | runHistoryConflict
  | reconciliationError

structure Fault where
  error : ErrorClass
  message : String

structure McpEffect where
  id : Uuid
  runId : Uuid
  integrationId : Uuid
  endpointHash : String
  cancelTarget : Option Uuid
  deriving DecidableEq

structure DesktopRun where
  id : Uuid
  status : RunStatus

/-- The leases with the Runs and effects they name; `started` has the effects whose first attempt
has the desktop, `sent` those whose call was sent. -/
structure DesktopTables where
  leases : List McpDesktopLease
  runs : List DesktopRun
  effects : List McpEffect
  started : List Uuid
  sent : List Uuid

def DesktopTables.empty : DesktopTables := ⟨[], [], [], [], []⟩

/-- What a caller learns of the lease it has. -/
structure DesktopHold where
  endpointHash : String
  runId : Uuid
  pendingOperation : Bool

def findLease (leases : List McpDesktopLease) (key : String) : Option McpDesktopLease :=
  leases.find? fun lease => decide (lease.endpointHash = key)

def findEffect (t : DesktopTables) (effectId : Uuid) : Option McpEffect :=
  t.effects.find? fun effect => decide (effect.id = effectId)

def runEnded (t : DesktopTables) (runId : Uuid) : Bool :=
  (t.runs.find? fun run => decide (run.id = runId)).any fun run => run.status.terminal

def busy (message : String) : Fault := ⟨.mcpDesktopBusyError, message⟩

/-- The first part of `_release_if_ended`: the pending operation that the remote side is asked
about. -/
def observePending (t : DesktopTables) (key : String) (runId : Uuid)
    (beginEffect cancelTarget : Option Uuid) : Option (Uuid × Uuid) := do
  let lease ← findLease t.leases key
  let pending ← lease.pendingEffectId
  if some pending = beginEffect ∨ some pending = cancelTarget then none
  else if lease.runId ≠ runId ∧ runEnded t lease.runId = false then none
  else some (lease.runId, pending)

/-- The last part of `_release_if_ended`: the operation that ended is no longer pending, if the
lease still has it. -/
def releaseEnded (t : DesktopTables) (key : String) (owner pending : Uuid) :
    Except Fault DesktopTables := do
  let lease ← orFault ⟨.noResultFound, "mcp_desktop_leases"⟩ (findLease t.leases key)
  if lease.runId = owner ∧ lease.pendingEffectId = some pending then
    return { t with
      leases := replaceRow McpDesktopLease.endpointHash
        { lease with pendingEffectId := none } t.leases }
  else
    return t

/-- The transaction of `acquire`. -/
def acquire (t : DesktopTables) (key : String) (runId : Uuid)
    (beginEffect cancelTarget : Option Uuid) : Except Fault (DesktopHold × DesktopTables) := do
  let leases := if (findLease t.leases key).isSome then t.leases
    else t.leases ++ [⟨key, runId, none⟩]
  let lease ← orFault ⟨.noResultFound, "mcp_desktop_leases"⟩ (findLease leases key)
  require (lease.runId ≠ runId → lease.pendingEffectId = none ∧ runEnded t lease.runId = true)
    (busy "MCP desktop is reserved by another Run")
  require (beginEffect ≠ none →
      lease.pendingEffectId ∈ [none, beginEffect, cancelTarget])
    (busy "MCP desktop has an unconfirmed operation")
  let held : McpDesktopLease :=
    { lease with
      runId := runId
      pendingEffectId := beginEffect.or lease.pendingEffectId }
  return (⟨key, runId, held.pendingEffectId.isSome⟩, { t with
    leases := replaceRow McpDesktopLease.endpointHash held leases })

def requireOriginalEffect (t : DesktopTables) (effect : McpEffect) : Except Fault Unit :=
  require (∀ target, effect.cancelTarget = some target → ∃ original ∈ t.effects,
      original.id = target ∧ original.runId = effect.runId ∧
        original.integrationId = effect.integrationId)
    (busy "MCP request does not belong to the original Run")

def confirm (t : DesktopTables) (key : String) (runId effectId : Uuid) :
    Except Fault DesktopTables := do
  let lease ← orFault ⟨.noResultFound, "mcp_desktop_leases"⟩ (findLease t.leases key)
  require (lease.runId = runId ∧ lease.pendingEffectId = some effectId)
    (busy "MCP operation ownership changed")
  return { t with
    leases := replaceRow McpDesktopLease.endpointHash
      { lease with pendingEffectId := none } t.leases }

/-! ## Effects and Runs -/

def knownEffect (t : DesktopTables) (effectId : Uuid) : Except Fault McpEffect :=
  orFault ⟨.noResultFound, "effect_executions"⟩ (findEffect t effectId)

/-- An attempt of `McpCallProvider.apply` gets the desktop.  Only the first attempt of an effect
will send its call; the later ones read. -/
def beginEffect (t : DesktopTables) (effectId : Uuid) (attemptNo : Nat) :
    Except Fault (DesktopHold × DesktopTables) := do
  require (1 ≤ attemptNo) ⟨.valueError, "Invalid MCP effect"⟩
  let effect ← knownEffect t effectId
  requireOriginalEffect t effect
  let (hold, acquired) ← acquire t effect.endpointHash effect.runId (some effectId)
    effect.cancelTarget
  return (hold, { acquired with
    started := if attemptNo = 1 then effectId :: acquired.started else acquired.started })

def sendCall (t : DesktopTables) (effectId : Uuid) : Except Fault DesktopTables := do
  require (effectId ∈ t.started ∧ effectId ∉ t.sent) ⟨.valueError, "call"⟩
  return { t with sent := effectId :: t.sent }

/-- The end of an attempt that read its operation back. -/
def confirmEffect (t : DesktopTables) (effectId : Uuid) : Except Fault DesktopTables := do
  let effect ← knownEffect t effectId
  confirm t effect.endpointHash effect.runId effectId

/-- The part of a reconciliation that is about the desktops. -/
def reconcileEffect (t : DesktopTables) (target : EffectReconciliationTarget)
    (status : ObservationStatus) : Except Fault DesktopTables :=
  match releaseDesktop t.leases target status with
  | .ok leases => .ok { t with leases := leases }
  | .error fault => .error ⟨.reconciliationError, fault.message⟩

def insertEffect (t : DesktopTables) (effect : McpEffect) : Except Fault DesktopTables := do
  require (∀ other ∈ t.effects, other.id ≠ effect.id) ⟨.integrityError, "effect_executions"⟩
  return { t with effects := t.effects ++ [effect] }

/-- A Run is made, or moves; one that is over stays over. -/
def moveRun (t : DesktopTables) (run : DesktopRun) : Except Fault DesktopTables := do
  require (runEnded t run.id = false) ⟨.integrityError, "runs"⟩
  if run.id ∈ t.runs.map DesktopRun.id then
    return { t with runs := replaceRow DesktopRun.id run t.runs }
  else
    return { t with runs := t.runs ++ [run] }

def purgeRun (t : DesktopTables) (runId : Uuid) : Except Fault DesktopTables := do
  require (runEnded t runId = true ∧
      ∀ lease ∈ t.leases, lease.runId = runId → lease.pendingEffectId = none)
    ⟨.runHistoryConflict, "An operation still requires reconciliation"⟩
  return { t with leases := t.leases.filter fun lease => decide (lease.runId ≠ runId) }

inductive DesktopAction where
  | moveRun (run : DesktopRun)
  | insertEffect (effect : McpEffect)
  | observe (key : String) (runId : Uuid) (beginEffect cancelTarget : Option Uuid)
  | release (key : String) (owner pending : Uuid)
  | read (key : String) (runId : Uuid)
  | begin (effectId : Uuid) (attemptNo : Nat)
  | send (effectId : Uuid)
  | confirm (effectId : Uuid)
  | reconcile (target : EffectReconciliationTarget) (status : ObservationStatus)
  | purge (runId : Uuid)

inductive DesktopAnswer where
  | held (hold : DesktopHold)
  | observed (pending : Option (Uuid × Uuid))
  | done

/-- A transaction that answers nothing. -/
def finished (outcome : Except Fault DesktopTables) :
    Except Fault (DesktopAnswer × DesktopTables) := do
  let written ← outcome
  return (.done, written)

def execDesktop (action : DesktopAction) (t : DesktopTables) :
    Except Fault (DesktopAnswer × DesktopTables) :=
  match action with
  | .moveRun run => finished (moveRun t run)
  | .insertEffect effect => finished (insertEffect t effect)
  | .observe key runId beginEffect cancelTarget =>
    return (.observed (observePending t key runId beginEffect cancelTarget), t)
  | .release key owner pending => finished (releaseEnded t key owner pending)
  | .read key runId => answering .held (acquire t key runId none none)
  | .begin effectId attemptNo => answering .held (beginEffect t effectId attemptNo)
  | .send effectId => finished (sendCall t effectId)
  | .confirm effectId => finished (confirmEffect t effectId)
  | .reconcile target status => finished (reconcileEffect t target status)
  | .purge runId => finished (purgeRun t runId)

/-- The desktops as the effects and reads of all Runs see them. -/
def desktopStore : TransactionSystem DesktopTables DesktopAction DesktopAnswer Fault :=
  ⟨execDesktop⟩

end SkillMind.Agent
