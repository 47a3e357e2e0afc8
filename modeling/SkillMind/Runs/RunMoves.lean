import Mathlib.Logic.Relation
import SkillMind.Runs.Repository

/-!
# The moves of a Run

What the transactions of a Run do, said once. Every transaction is a path of a few small moves,
each with the guards the transaction has checked and the exact rows it writes. Properties of whole
runs are proved for the moves.

Some moves are remarkable: they are where the store departs from what its other transactions keep.
They carry a mark, and a path is taken under the marks that are allowed on it (`Moves allowed`):

* `transition` — the status is changed from outside, with nothing else of the Run;
* `requeue` — it is so changed to one that waits for a worker;
* `inlineSuspension` — the turn ends with a question while its inline effect is unfinished;
* `silentDetach` — the turn ends, its inline effect goes on, and no snapshot says so;
* `forgetting` — a cancellation closes a requested execution whose outcome is unknown;
* `effectClaim` — an execution is handed to a worker.
-/

namespace SkillMind.Runs

open Library Effects

/-- The Run waits for a worker. -/
def RunStatus.queues (status : RunStatus) : Prop := status ∈ [.queued, .retryPending]

inductive Mark where
  | transition
  | requeue
  | inlineSuspension
  | silentDetach
  | forgetting
  | effectClaim

namespace RunTables

variable (t : RunTables)

/-- The Run's row after a move, with the events of the move; the last one is the snapshot. -/
def announce (run : Run) (attemptId : Option Uuid) (start : Nat) (types : List AgentEventType) :
    RunTables :=
  (t.putRun run).publish run.id run.status
    (eventsFrom attemptId start
      (types.map RunEventBody.agent ++ [.runSnapshot run.status run.rowVersion]))

/-- The segment is completed, and the next one is open. -/
def proceed (segment next : RunSegment) (now : Timestamp) : RunTables :=
  { t with
    segments :=
      replaceRow RunSegment.id (segment.closed .completed now) t.segments ++ [next] }

/-- The turn hands its lease back, and its segment waits. -/
def suspend (segment : RunSegment) (attempt : RunAttempt) (now : Timestamp) : RunTables :=
  { t with
    segments := replaceRow RunSegment.id { segment with status := .waiting } t.segments
    attempts := replaceRow RunAttempt.id (attempt.deferred now) t.attempts }

/-- The turn ends while its inline effect goes on. -/
def detachTurn (run : Run) (segment : RunSegment) (attempt : RunAttempt)
    (proposal : ChangeProposal) (now : Timestamp) : RunTables :=
  { t with
    run := some (run.moved .waitingForApproval run.error now)
    segments := replaceRow RunSegment.id { segment with status := .waiting } t.segments
    attempts := replaceRow RunAttempt.id
      { attempt.deferred now with inlineProposalId := none } t.attempts
    proposals := replaceRow ChangeProposal.id (proposal.withPhase .detached) t.proposals }

end RunTables

def RunStatus.waits (status : RunStatus) : Bool :=
  status ∈ [.waitingPermission, .waitingForInput, .waitingForApproval]

/-- The attempt holds the Run and works on the segment. -/
structure Turn (t : RunTables) (run : Run) (segment : RunSegment) (attempt : RunAttempt) :
    Prop where
  found : t.run = some run
  member : attempt ∈ t.attempts
  active : attempt.status.active = true
  known : segment ∈ t.segments
  on : attempt.runSegmentId = some segment.id

/-- The running turn may end with a question; its inline effect is finished, or the mark says
otherwise. -/
structure Suspends (allowed : Mark → Prop) (t : RunTables) (run : Run) (segment : RunSegment)
    (attempt : RunAttempt) : Prop extends Turn t run segment attempt where
  running : run.status = .running
  calm : isCancellationRequested t = false
  alone : (∃ effect ∈ t.effects, effect.status.finished = false ∧
    attempt.inlineProposalId = some effect.proposalId) → allowed .inlineSuspension

/-- The segment may be completed and followed by the next one. -/
structure Follows (t : RunTables) (segment next : RunSegment) (now : Timestamp) : Prop where
  known : segment ∈ t.segments
  number : next.segmentNo = segment.segmentNo + 1
  created : next.status = .created
  fresh : ∀ other ∈ replaceRow RunSegment.id (segment.closed .completed now) t.segments,
    next.clash other = false

/-- Why a question is closed and followed by a segment: its one response, which is stored, its
expiry, or a decision on its proposal. -/
inductive Cause (t : RunTables) (interaction : UserInteraction) (next : RunSegment) :
    List InteractionResponse → Prop
  | response {response : InteractionResponse} (of : response.interactionId = interaction.id)
      (fresh : ∀ other ∈ t.responses, response.clash other = false)
      (trigger : next.triggerType = .interactionResponse)
      (ref : next.triggerRef = some response.id) :
      Cause t interaction next (t.responses ++ [response])
  | timeout (trigger : next.triggerType ∈ [.interactionTimeout, .approvalTimeout])
      (ref : next.triggerRef = some interaction.id) : Cause t interaction next t.responses
  | decision (trigger : next.triggerType = .approvalResponse) :
      Cause t interaction next t.responses

/-- An execution that was just created for its proposal. -/
structure NewEffect (t : RunTables) (proposalId : Uuid) (effect : EffectExecution) : Prop where
  proposal : effect.proposalId = proposalId
  status : effect.status = .requested
  attemptNo : effect.attemptNo = 0
  error : effect.error = none
  unleased : effect.leaseTokenHash = none
  fresh : ∀ other ∈ t.effects, effect.clash other = false

/-- How an unfinished execution gets its outcome: it is applied, or it fails and its record is
written by `effect_failure_record`. -/
inductive Settlement (t : RunTables) (effect : EffectExecution) : EffectExecution → Prop
  | applied {beforeRef afterRef : String} :
      Settlement t effect
        { effect with
          status := .applied
          beforeRef := some beforeRef
          afterRef := some afterRef
          error := none
          leaseTokenHash := none
          leaseExpiresAt := none }
  | failed {status : EffectExecutionStatus} {code : String} {retryable : Bool}
      {diagnostic : Option McpDiagnostic} {toolCallId : Option Uuid} {workerId : Option String}
      (proposal : ChangeProposal)
      (known : proposal ∈ t.proposals) (owner : proposal.id = effect.proposalId)
      (ended : status ∈ [.stale, .verificationFailed, .failed])
      (unreserved : code ≠ unknownEffectCode) :
      Settlement t effect
        { effect with
          toolCallId := toolCallId
          status := status
          error := some (effectFailureRecord proposal.capability effect.provider
            effect.attemptNo code retryable effect.error diagnostic)
          workerId := workerId
          leaseTokenHash := none
          leaseExpiresAt := none }

/-- How the Run leaves its wait for an execution that has its outcome. -/
inductive Ending (t : RunTables) : RunTables → Prop
  /-- The Run stops; a recorded cancellation decides how. -/
  | stopped {run : Run} {segment : RunSegment} {target : RunStatus} {error : Option ErrorRecord}
      {types : List AgentEventType} {now : Timestamp}
      (found : t.run = some run) (waiting : run.status = .waitingForApproval)
      (known : segment ∈ t.segments) (stops : target ∈ [.failed, .cancelled])
      (wins : isCancellationRequested t = true → target = .cancelled) :
      Ending t
        ({ t with
          segments := replaceRow RunSegment.id
            (segment.closed (stoppedSegmentStatus target) now) t.segments }.announce
          (run.moved target error now) none (nextSequence t) types)
  /-- The Run goes on in a new segment. -/
  | continued {run : Run} {segment next : RunSegment} {types : List AgentEventType}
      {reason : Option String} {now : Timestamp}
      (found : t.run = some run) (waiting : run.status = .waitingForApproval)
      (calm : isCancellationRequested t = false) (follows : Follows t segment next now)
      (trigger : next.triggerType = .approvalResponse) :
      Ending t
        (((t.proceed segment next now).announce (run.moved .queued none now) none
          (nextSequence t) types).dispatchRun run.id reason)
  /-- The Run keeps waiting, for another try of the failed execution. -/
  | again {run : Run} {effect : EffectExecution} {proposal : ChangeProposal}
      (found : t.run = some run) (waiting : run.status = .waitingForApproval)
      (calm : isCancellationRequested t = false) (member : effect ∈ t.effects)
      (failed : effect.status ∈ [.stale, .verificationFailed, .failed])
      (known : proposal ∈ t.proposals) (types : List AgentEventType) :
      Ending t
        (({ t with
          effects := replaceRow EffectExecution.id
            { effect with status := .requested, workerId := none } t.effects
          proposals := replaceRow ChangeProposal.id { proposal with status := .approved }
            t.proposals }.publish
          run.id run.status (eventsFrom none (nextSequence t) (types.map .agent))).dispatchEffect
          { effect with status := .requested, workerId := none })

inductive RunMove (allowed : Mark → Prop) (t : RunTables) : RunTables → Prop
  /-- Sessions and tool calls are written freely. -/
  | aside (sessions : List AgentSession) (toolCalls : List ToolCall) :
      RunMove allowed t { t with sessions, toolCalls }
  | approvalAdded {approval : ChangeApproval}
      (fresh : ∀ other ∈ t.approvals, approval.clash other = false) :
      RunMove allowed t { t with approvals := t.approvals ++ [approval] }
  | proposalMoved {proposal : ChangeProposal} (known : proposal ∈ t.proposals)
      (status : ChangeProposalStatus) :
      RunMove allowed t
        { t with
          proposals := replaceRow ChangeProposal.id { proposal with status } t.proposals }
  | created {run : Run} {segment : RunSegment}
      (absent : t.run = none) (queued : run.status = .queued) (version : run.rowVersion = 1)
      (first : segment.segmentNo = 1) (opened : segment.status = .created)
      (initial : segment.triggerType = .initial) :
      RunMove allowed t
        { t with
          run := some run
          segments := t.segments ++ [segment]
          events := t.events ++ [⟨none, 1, .runSnapshot .queued 1⟩]
          outbox := t.outbox ++ [.runDispatchRequested run.id none] }
  /-- Events of a Run that goes on, without a snapshot. -/
  | noted {run : Run} {attemptId : Option Uuid} {start : Nat}
      (found : t.run = some run) (lives : run.status.terminal = false)
      (later : nextSequence t ≤ start) (types : List AgentEventType) :
      RunMove allowed t
        (t.publish run.id run.status (eventsFrom attemptId start (types.map .agent)))
  /-- A cancellation is recorded for whoever holds the Run. -/
  | cancellationRecorded {run : Run} {attemptId : Option Uuid}
      (found : t.run = some run) (calm : isCancellationRequested t = false)
      (held : run.status ∈ [.preparing, .running] ∨
        (run.status = .waitingForApproval ∧
          ∃ effect ∈ t.effects, effect.status ∈ [.leased, .applying])) :
      RunMove allowed t
        (t.publish run.id run.status
          (eventsFrom attemptId (nextSequence t) [.runCancelRequested run.status]))
  | leaseExtended {attempt : RunAttempt} {expiry : Option Timestamp}
      (member : attempt ∈ t.attempts) :
      RunMove allowed t
        { t with
          attempts := replaceRow RunAttempt.id { attempt with leaseExpiresAt := expiry }
            t.attempts }
  | claimed {run : Run} {segment : RunSegment} {attempt : RunAttempt}
      {startedAt : Option Timestamp} {types : List AgentEventType} {now : Timestamp}
      (found : t.run = some run) (due : run.status ∈ [.queued, .retryPending])
      (latest : latestSegment t = some segment) (leased : attempt.status = .leased)
      (on : attempt.runSegmentId = some segment.id) (bare : attempt.inlineProposalId = none)
      (fresh : ∀ other ∈ t.attempts, attempt.clash other = false) :
      RunMove allowed t
        ({ t with
          segments := replaceRow RunSegment.id { segment with status := .running, startedAt }
            t.segments
          attempts := t.attempts ++ [attempt] }.announce
          (run.moved .preparing none now) (some attempt.id) (nextSequence t) types)
  | exhausted {run : Run} {segment : RunSegment} {error : Option ErrorRecord} {now : Timestamp}
      (found : t.run = some run) (due : run.status ∈ [.queued, .retryPending])
      (known : segment ∈ t.segments) :
      RunMove allowed t
        ({ t with
          segments := replaceRow RunSegment.id (segment.closed .failed now) t.segments }.announce
          (run.moved .failed error now) none (nextSequence t) [])
  | prepared {run : Run} {segment : RunSegment} {attempt : RunAttempt}
      {startedAt : Option Timestamp} {now : Timestamp}
      (turn : Turn t run segment attempt) (preparing : run.status = .preparing) :
      RunMove allowed t
        ({ t with
          segments := replaceRow RunSegment.id { segment with status := .running, startedAt }
            t.segments
          attempts := replaceRow RunAttempt.id { attempt with status := .running }
            t.attempts }.announce
          (run.moved .running run.error now) (some attempt.id) (nextSequence t) [])
  /-- The turn ends, by its worker or because its lease ran out; a retry is dispatched. -/
  | released {run : Run} {segment : RunSegment} {attempt : RunAttempt} {target : RunStatus}
      {error attemptError : Option ErrorRecord} {attemptStatus : RunAttemptStatus}
      {tokenHash : Option String} {expiry closedAt finishedAt : Option Timestamp}
      {segmentStatus : RunSegmentStatus} {start : Nat} {now : Timestamp} {base t' : RunTables}
      (types : List AgentEventType)
      (turn : Turn t run segment attempt) (held : run.status ∈ [.preparing, .running])
      (own : attempt.inlineProposalId = none ∨ run.status = .preparing)
      (inactive : attemptStatus.active = false)
      (targets : target ∈ [.succeeded, .failed, .cancelled, .waitingPermission, .retryPending])
      (wins : isCancellationRequested t = true → target = .cancelled)
      (later : nextSequence t ≤ start)
      (written : base =
        { t with
          segments := replaceRow RunSegment.id
            { segment with status := segmentStatus, finishedAt := closedAt } t.segments
          attempts := replaceRow RunAttempt.id
            { attempt with
              status := attemptStatus
              finishedAt := finishedAt
              error := attemptError
              leaseTokenHash := tokenHash
              leaseExpiresAt := expiry } t.attempts }.announce
          (run.moved target error now) (some attempt.id) start types)
      (posted : (target = .retryPending ∧ ∃ reason, t' = base.dispatchRun run.id reason) ∨
        (target ≠ .retryPending ∧ t' = base)) :
      RunMove allowed t t'
  /-- The lease runs out of an attempt its Run has left. -/
  | attemptExpired {run : Run} {attempt : RunAttempt} {now : Timestamp}
      (found : t.run = some run) (left : run.status ∉ [.preparing, .running])
      (member : attempt ∈ t.attempts) :
      RunMove allowed t
        { t with
          attempts := replaceRow RunAttempt.id
            { attempt with status := .leaseExpired, finishedAt := some now } t.attempts }
  | asked {run : Run} {segment : RunSegment} {attempt : RunAttempt}
      {interaction : UserInteraction} {start : Nat} {now : Timestamp}
      (suspends : Suspends allowed t run segment attempt)
      (ordinary : interaction.interactionType.ordinary = true)
      (isOpen : interaction.status = .open) (free : interaction.changeProposalId = none)
      (place : interaction.runSegmentId = segment.id)
      (fresh : ∀ other ∈ t.interactions, interaction.clash other = false)
      (later : nextSequence t ≤ start) (types : List AgentEventType) :
      RunMove allowed t
        ({ t.suspend segment attempt now with
          interactions := t.interactions ++ [interaction] }.announce
          (run.moved .waitingForInput none now) (some attempt.id) start types)
  /-- An open question is answered or expires, and the Run goes on in a new segment. -/
  | answered {run : Run} {segment next : RunSegment} {interaction : UserInteraction}
      {status : UserInteractionStatus} {types : List AgentEventType} {reason : Option String}
      {now : Timestamp} {responses : List InteractionResponse}
      (found : t.run = some run) (waiting : run.status ∈ [.waitingForInput, .waitingForApproval])
      (member : interaction ∈ t.interactions) (isOpen : interaction.status = .open)
      (closes : status ≠ .open) (follows : Follows t segment next now)
      (cause : Cause t interaction next responses) :
      RunMove allowed t
        (({ t.proceed segment next now with
          responses
          interactions := replaceRow UserInteraction.id
            { interaction with status, version := interaction.version + 1 }
            t.interactions }.announce
          (run.moved .queued none now) none (nextSequence t) types).dispatchRun run.id reason)
  /-- An open question expires for which the Run does not wait. -/
  | lapsed {run : Run} {interaction : UserInteraction} {status : UserInteractionStatus}
      (found : t.run = some run)
      (member : interaction ∈ t.interactions) (isOpen : interaction.status = .open)
      (closes : status ≠ .open)
      (left : (interaction.interactionType.ordinary = true ∧
          (run.status ≠ .waitingForInput ∨ ∃ segment ∈ t.segments,
            segment.id = interaction.runSegmentId ∧ segment.status ≠ .waiting)) ∨
        (interaction.changeProposalId ≠ none ∧ run.status ≠ .waitingForApproval)) :
      RunMove allowed t
        { t with
          interactions := replaceRow UserInteraction.id
            { interaction with status, version := interaction.version + 1 } t.interactions }
  /-- The turn ends with a proposal that a user has to approve. -/
  | proposed {run : Run} {segment : RunSegment} {attempt : RunAttempt}
      {proposal : ChangeProposal} {interaction : UserInteraction} {start : Nat}
      {now : Timestamp}
      (suspends : Suspends allowed t run segment attempt)
      (deferred : proposal.inlineOwner = none)
      (newProposal : ∀ other ∈ t.proposals, proposal.clash other = false)
      (approval : interaction.interactionType.ordinary = false)
      (isOpen : interaction.status = .open)
      (fresh : ∀ other ∈ t.interactions, interaction.clash other = false)
      (later : nextSequence t ≤ start) (types : List AgentEventType) :
      RunMove allowed t
        ({ t.suspend segment attempt now with
          proposals := t.proposals ++ [proposal]
          interactions := t.interactions ++ [interaction] }.announce
          (run.moved .waitingForApproval none now) (some attempt.id) start types)
  /-- The turn ends with a proposal that is approved already. -/
  | proposedApproved {run : Run} {segment : RunSegment} {attempt : RunAttempt}
      {proposal : ChangeProposal} {effect : EffectExecution} {start : Nat} {now : Timestamp}
      (suspends : Suspends allowed t run segment attempt)
      (deferred : proposal.inlineOwner = none)
      (newProposal : ∀ other ∈ t.proposals, proposal.clash other = false)
      (new : NewEffect t proposal.id effect) (later : nextSequence t ≤ start)
      (types : List AgentEventType) :
      RunMove allowed t
        (({ t.suspend segment attempt now with
          proposals := t.proposals ++ [proposal]
          effects := t.effects ++ [effect] }.dispatchEffect effect).announce
          (run.moved .waitingForApproval none now) (some attempt.id) start types)
  /-- The running turn holds an approved proposal. -/
  | held {run : Run} {segment : RunSegment} {attempt : RunAttempt} {proposal : ChangeProposal}
      {effect : EffectExecution}
      (turn : Turn t run segment attempt) (running : run.status = .running)
      (calm : isCancellationRequested t = false) (bare : attempt.inlineProposalId = none)
      (inline : proposal.activeInline = true) (owner : proposal.runAttemptId = attempt.id)
      (newProposal : ∀ other ∈ t.proposals, proposal.clash other = false)
      (new : NewEffect t proposal.id effect) :
      RunMove allowed t
        { t with
          attempts := replaceRow RunAttempt.id
            { attempt with inlineProposalId := some proposal.id } t.attempts
          proposals := t.proposals ++ [proposal]
          effects := t.effects ++ [effect] }
  /-- The receipt of the applied effect is handed to the turn. -/
  | delivered {attempt : RunAttempt} {proposal : ChangeProposal} {effect : EffectExecution}
      (member : attempt ∈ t.attempts) (known : proposal ∈ t.proposals)
      (owner : proposal.runAttemptId = attempt.id)
      (waited : attempt.inlineProposalId = none ∨ attempt.inlineProposalId = some proposal.id)
      (written : effect ∈ t.effects) (same : effect.proposalId = proposal.id)
      (applied : effect.status = .applied) :
      RunMove allowed t
        { t with
          attempts := replaceRow RunAttempt.id { attempt with inlineProposalId := none }
            t.attempts
          proposals := replaceRow ChangeProposal.id (proposal.withPhase .delivered) t.proposals }
  /-- The turn ends, and its inline effect goes on outside of it. -/
  | detached {run : Run} {segment : RunSegment} {attempt : RunAttempt}
      {proposal : ChangeProposal} {effect : EffectExecution} {now : Timestamp} {t' : RunTables}
      (turn : Turn t run segment attempt) (running : run.status = .running)
      (known : proposal ∈ t.proposals) (inline : proposal.activeInline = true)
      (owner : proposal.runAttemptId = attempt.id)
      (written : effect ∈ t.effects) (same : effect.proposalId = proposal.id)
      (after : (effect.status.finished = false ∧
          t' = (t.detachTurn run segment attempt proposal now).dispatchEffect effect) ∨
        (effect.status.finished = true ∧
          Ending (t.detachTurn run segment attempt proposal now) t'))
      (heard : (∃ run' ∈ t'.run, run'.status = .waitingForApproval) → allowed .silentDetach) :
      RunMove allowed t t'
  /-- A user approves the proposal the Run waits for. -/
  | approved {run : Run} {interaction : UserInteraction} {effect : EffectExecution}
      (proposal : ChangeProposal)
      (found : t.run = some run) (waiting : run.status = .waitingForApproval)
      (member : interaction ∈ t.interactions) (isOpen : interaction.status = .open)
      (known : proposal ∈ t.proposals) (new : NewEffect t proposal.id effect)
      (types : List AgentEventType) :
      RunMove allowed t
        (({ t with
          interactions := replaceRow UserInteraction.id
            { interaction with status := .responded, version := interaction.version + 1 }
            t.interactions
          effects := t.effects ++ [effect] }.publish run.id run.status
          (eventsFrom none (nextSequence t) (types.map .agent))).dispatchEffect effect)
  | effectLeased {effect : EffectExecution} {toolCallId : Option Uuid}
      {workerId tokenHash : Option String} {expiry : Option Timestamp}
      (member : effect ∈ t.effects) (unfinished : effect.status.finished = false)
      (calm : isCancellationRequested t = false) (marked : allowed .effectClaim) :
      RunMove allowed t
        { t with
          effects := replaceRow EffectExecution.id
            { effect with
              toolCallId := toolCallId
              status := .applying
              workerId := workerId
              leaseTokenHash := tokenHash
              leaseExpiresAt := expiry
              attemptNo := effect.attemptNo + 1 } t.effects }
  | effectRenewed {effect : EffectExecution} {expiry : Option Timestamp}
      (member : effect ∈ t.effects) :
      RunMove allowed t
        { t with
          effects := replaceRow EffectExecution.id { effect with leaseExpiresAt := expiry }
            t.effects }
  | effectSettled {effect settled : EffectExecution}
      (member : effect ∈ t.effects) (unfinished : effect.status.finished = false)
      (settlement : Settlement t effect settled) :
      RunMove allowed t
        { t with effects := replaceRow EffectExecution.id settled t.effects }
  /-- The execution whose lease ran out is dispatched again. -/
  | redispatched {effect again : EffectExecution} {proposal : ChangeProposal} {code : String}
      {retryable : Bool}
      (member : effect ∈ t.effects) (live : effect.status ∈ [.leased, .applying])
      (known : proposal ∈ t.proposals) (owner : proposal.id = effect.proposalId)
      (unreserved : code ≠ unknownEffectCode)
      (written : again =
        { effect with
          status := .requested
          error := some (effectFailureRecord proposal.capability effect.provider
            effect.attemptNo code retryable effect.error)
          workerId := none
          leaseTokenHash := none
          leaseExpiresAt := none }) :
      RunMove allowed t
        ({ t with
          effects := replaceRow EffectExecution.id again t.effects }.dispatchEffect again)
  /-- The execution gets its outcome, and the Run that waits for it leaves its wait. -/
  | concluded {run : Run} {effect settled : EffectExecution} {t' : RunTables}
      (found : t.run = some run) (waiting : run.status = .waitingForApproval)
      (member : effect ∈ t.effects) (unfinished : effect.status.finished = false)
      (settlement : Settlement t effect settled)
      (ending : Ending { t with effects := replaceRow EffectExecution.id settled t.effects } t') :
      RunMove allowed t t'
  /-- A Run that nobody holds is cancelled. -/
  | withdrawn {run : Run} {segment : RunSegment} {now : Timestamp}
      (found : t.run = some run) (due : run.status ∈ [.queued, .retryPending])
      (latest : latestSegment t = some segment) :
      RunMove allowed t
        ({ t with
          segments := replaceRow RunSegment.id (segment.closed .cancelled now)
            t.segments }.announce
          (run.moved .cancelled none now) none (nextSequence t) [])
  /-- A waiting Run is cancelled together with what waits for it. -/
  | cancelled {run : Run} {segment : RunSegment} {now : Timestamp}
      (found : t.run = some run) (waiting : run.status.waits = true)
      (latest : latestSegment t = some segment)
      (unheld : run.status = .waitingForApproval →
        ∀ effect ∈ t.effects, effect.status ∉ [.leased, .applying])
      (remembered : (∃ effect ∈ t.effects, effect.status = .requested ∧
        effectRequiresReconciliation effect.error) → allowed .forgetting) :
      RunMove allowed t
        ((closeWaiting
          { t with
            segments := replaceRow RunSegment.id (segment.closed .cancelled now) t.segments }
          (some segment) now).announce (run.moved .cancelled none now) none (nextSequence t) [])
  | transitioned {run : Run} {target : RunStatus} {error : Option ErrorRecord}
      {attemptId : Option Uuid} {now : Timestamp}
      (found : t.run = some run) (planned : target ∈ allowedRunTransitions run.status)
      (marked : allowed .transition) (requeued : target.queues → allowed .requeue) :
      RunMove allowed t
        (t.announce (run.moved target error now) attemptId (nextSequence t) [])

/-- A path of moves under the marks that are allowed. -/
def Moves (allowed : Mark → Prop) : RunTables → RunTables → Prop :=
  Relation.ReflTransGen (RunMove allowed)

end SkillMind.Runs
