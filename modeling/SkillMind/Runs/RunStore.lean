import SkillMind.Library.Transaction
import SkillMind.Runs.Repository

/-!
# The Run store as a transaction system

Every transaction that touches a Run, as its callers issue it, and the store they act on.  A
transaction gets its clock readings, the identifiers it draws and what it reads from other
aggregates with the call, so that a run of the store is a list of calls by any number of
workers and users in any order.

Three promises of the callers are part of their calls. A worker acts under a claim it was handed,
which names its segment; the executor finalizes with one of five outcomes; and a provider reports
its failures under its own codes.
-/

namespace SkillMind.Runs

open Library Effects

/-- A claim as `claim_for_execution` hands it out: it names the segment. -/
structure IssuedClaim where
  claimed : ClaimedRun
  named : claimed.runSegmentId ≠ none

def finalOutcomes : List (RunStatus × RunAttemptStatus) :=
  [(.succeeded, .succeeded), (.failed, .failed), (.cancelled, .cancelled),
    (.retryPending, .failed), (.waitingPermission, .deferred)]

structure FinalReport where
  report : ExecutionReport
  final : (report.target, report.attemptStatus) ∈ finalOutcomes

/-- The transactions of the Run and effect repositories. -/
inductive RunAction where
  | createIdempotent (command : CreateRunCommand) (runId segmentId : Uuid)
  | transition (runId : Uuid) (target : RunStatus) (expectedRowVersion : Nat)
      (error : Option ErrorRecord) (attemptId : Option Uuid) (now : Timestamp)
  | requestCancellation (runId : Uuid) (now : Timestamp)
  | claimForExecution (request : ClaimRequest) (brief : Except Fault Unit) (attemptId : Uuid)
      (now : Timestamp)
  | prepareExecution (claim : IssuedClaim) (now : Timestamp)
  | appendAgentEvent (claim : IssuedClaim) (event : AgentEvent) (kind : AgentSessionKind)
      (sessionId : Uuid) (now : Timestamp)
  | heartbeatAttempt (attemptId : Uuid) (tokenHash : String) (extension now : Timestamp)
  | finalizeExecution (claim : IssuedClaim) (report : FinalReport) (evidence : Except Fault Unit)
      (sessionId segmentId : Uuid) (now : Timestamp)
  | recoverExpiredAttempts (limit : Nat) (drawn : List (Uuid × Except Fault Unit))
      (now : Timestamp)
  | suspendForInteraction (claim : IssuedClaim) (event : AgentEvent) (kind : AgentSessionKind)
      (request : InteractionRequestDraft) (checkpointRefs : Except Fault Unit)
      (sessionId interactionId : Uuid) (now later : Timestamp)
  | respondToInteraction (command : RespondCommand) (responseId segmentId : Uuid)
      (now : Timestamp)
  | recoverExpiredInteractions (limit : Nat) (segmentIds : List Uuid) (now lockedNow : Timestamp)
  | suspendForProposal (claim : IssuedClaim) (origin : ProposalOrigin)
      (draft : ChangeProposalDraft) (resource : Except Fault BoundResource)
      (checkpointRefs evidenceRefs : Except Fault Unit) (policy : Option Uuid)
      (requestHash : String) (ids : ProposalIds) (now later : Timestamp)
  | suspendInlineEffect (claim : IssuedClaim) (event : AgentEvent) (proposalId : Uuid)
      (original evidence : Except Fault Unit) (segmentId : Uuid) (now : Timestamp)
  | inlineReceipt (claim : IssuedClaim) (proposalId : Uuid) (evidence : Except Fault Unit)
      (now : Timestamp)
  | decideChangeProposal (command : DecideProposalCommand) (binding : Option EffectProvider)
      (rowCheck : Except Fault Unit) (ids : DecisionIds) (now : Timestamp)
  | recoverExpiredProposals (limit : Nat) (segmentIds : List Uuid) (now : Timestamp)
  | claimEffectExecution (request : EffectClaimRequest) (binding : Option EffectProvider)
      (resource : Except Fault BoundResource) (ids : EffectClaimIds) (now later : Timestamp)
  | heartbeatEffectExecution (claimed : ClaimedEffectExecution) (providerVersion : String)
      (leaseSeconds : Nat) (actors snapshot : Except Fault Unit) (now later last : Timestamp)
  | finalizeEffectExecution (claimed : ClaimedEffectExecution) (outcome : ProviderOutcome)
      (segmentId : Uuid) (now : Timestamp)
  | recoverExpiredEffects (limit maxAttempts : Nat) (segmentIds : List Uuid) (now : Timestamp)

inductive RunAnswer where
  | done
  | identifier (id : Uuid)
  | cancellation (state : RunCancellationState)
  | claimed (claimed : Option ClaimedRun)
  | prepared (prepared : PreparedExecution)
  | finalized (status : RunStatus)
  | recovered (count : Nat)
  | responded (outcome : RespondOutcome)
  | receipt (effect : Option EffectExecution)
  | decided (outcome : DecideOutcome)
  | effectClaimed (claimed : Option ClaimedEffectExecution)
  | renewed (expiresAt : Timestamp)
  | effectFinalized (effect : EffectExecution)
  deriving DecidableEq

/-- The deployment: its switches, and the digest of a lease token. -/
structure RunSettings where
  features : ExecutionFeatures
  leaseTokenHash : String → String

/-- A transaction without an answer. -/
def silently (outcome : Except Fault RunTables) : Except Fault (Unit × RunTables) := do
  return ((), ← outcome)

section Store

variable (settings : RunSettings)

def execRun (action : RunAction) (tables : RunTables) : Except Fault (RunAnswer × RunTables) :=
  let features := settings.features
  let hash := settings.leaseTokenHash
  match action with
  | .createIdempotent command runId segmentId =>
    answering .identifier (createIdempotent tables command runId segmentId)
  | .transition runId target expectedRowVersion error attemptId now =>
    answering (fun _ => .done)
      (silently (transition tables runId target expectedRowVersion error attemptId now))
  | .requestCancellation runId now =>
    answering .cancellation (requestCancellation tables runId now)
  | .claimForExecution request brief attemptId now =>
    answering .claimed (claimForExecution hash tables request brief attemptId now)
  | .prepareExecution claim now =>
    answering .prepared (prepareExecution hash tables claim.claimed now)
  | .appendAgentEvent claim event kind sessionId now =>
    answering (fun _ => .done)
      (silently (appendAgentEvent hash tables claim.claimed event kind sessionId now))
  | .heartbeatAttempt attemptId tokenHash extension now =>
    answering (fun _ => .done)
      (silently (heartbeatAttempt tables attemptId tokenHash extension now))
  | .finalizeExecution claim report evidence sessionId segmentId now =>
    answering .finalized
      (finalizeExecution hash tables claim.claimed report.report evidence sessionId segmentId
        now)
  | .recoverExpiredAttempts limit drawn now =>
    answering .recovered (recoverExpiredAttempts tables limit drawn now)
  | .suspendForInteraction claim event kind request checkpointRefs sessionId interactionId now
      later =>
      answering .identifier
        (suspendForInteraction hash tables claim.claimed event kind request checkpointRefs
          sessionId interactionId now later)
  | .respondToInteraction command responseId segmentId now =>
    answering .responded (respondToInteraction tables command responseId segmentId now)
  | .recoverExpiredInteractions limit segmentIds now lockedNow =>
    answering .recovered (recoverExpiredInteractions tables limit segmentIds now lockedNow)
  | .suspendForProposal claim origin draft resource checkpointRefs evidenceRefs policy
      requestHash ids now later =>
      answering .identifier
        (suspendForProposal features hash tables claim.claimed origin draft resource
          checkpointRefs evidenceRefs policy requestHash ids now later)
  | .suspendInlineEffect claim event proposalId original evidence segmentId now =>
    answering .identifier
      (suspendInlineEffect hash tables claim.claimed event proposalId original evidence
        segmentId now)
  | .inlineReceipt claim proposalId evidence now =>
    answering .receipt (inlineReceipt hash tables claim.claimed proposalId evidence now)
  | .decideChangeProposal command binding rowCheck ids now =>
    answering .decided
      (decideChangeProposal features tables command binding rowCheck ids now)
  | .recoverExpiredProposals limit segmentIds now =>
    answering .recovered (recoverExpiredProposals features tables limit segmentIds now)
  | .claimEffectExecution request binding resource ids now later =>
    answering .effectClaimed
      (claimEffectExecution features hash tables request binding resource ids now later)
  | .heartbeatEffectExecution claimed providerVersion leaseSeconds actors snapshot now later
      last =>
      answering .renewed
        (heartbeatEffectExecution features hash tables claimed providerVersion leaseSeconds
          actors snapshot now later last)
  | .finalizeEffectExecution claimed outcome segmentId now =>
    answering .effectFinalized
      (finalizeEffectExecution hash tables claimed outcome segmentId now)
  | .recoverExpiredEffects limit maxAttempts segmentIds now =>
    answering .recovered
      (recoverExpiredEffects features tables limit maxAttempts segmentIds now)

def runStore : TransactionSystem RunTables RunAction RunAnswer Fault := ⟨execRun settings⟩

end Store

end SkillMind.Runs
