import SkillMind.Runs.RunRows
import SkillMind.Runs.RunStore

/-!
# What the locked reads establish

Every transaction starts by reading rows under locks and checking them. The lemmas here say what
is known once the checks have passed: which rows of the tables were read, and that a worker with a
valid lease holds the turn.

Sessions, responses and tool calls are written at the side of a transaction; the two ways a
waiting Run moves on are read off the tables they leave.
-/

namespace SkillMind.Runs

open Library Effects

section Paths

variable {allowed : Mark → Prop} {t t' t'' : RunTables}

theorem Moves.one (move : RunMove allowed t t') : Moves allowed t t' :=
  Relation.ReflTransGen.single move

theorem Moves.refl (t : RunTables) : Moves allowed t t := Relation.ReflTransGen.refl

theorem Moves.trans (first : Moves allowed t t') (second : Moves allowed t' t'') :
    Moves allowed t t'' :=
  Relation.ReflTransGen.trans first second

theorem Moves.step (move : RunMove allowed t t') (rest : Moves allowed t' t'') :
    Moves allowed t t'' :=
  Relation.ReflTransGen.head move rest

theorem Moves.wellKept (moves : Moves allowed t t') (kept : WellKept t) : WellKept t' := by
  induction moves with
  | refl => exact kept
  | tail _ move ih => exact move.wellKept ih

theorem recoverAll_moves {ρ : Type}
    {recover : RunTables → ρ → Except Fault (Bool × RunTables)}
    (each : ∀ t candidate recovered t', WellKept t →
      recover t candidate = .ok (recovered, t') → Moves allowed t t')
    {candidates : List ρ} {count : Nat} (kept : WellKept t)
    (committed : recoverAll recover candidates t = .ok (count, t')) : Moves allowed t t' := by
  induction candidates generalizing t count with
  | nil =>
    obtain ⟨-, rfl⟩ := Prod.mk.inj (Except.ok.inj committed)
    exact Moves.refl t
  | cons candidate rest ih =>
    simp only [recoverAll, bind_eq_ok, Prod.exists, pure_eq_ok, Prod.mk.injEq] at committed
    obtain ⟨_, _, first, _, _, later, -, rfl⟩ := committed
    have moves := each _ _ _ _ kept first
    exact moves.trans (ih (moves.wellKept kept) later)

end Paths

/-- Only sessions and tool calls differ. -/
def Aside (t t' : RunTables) : Prop :=
  ∃ sessions toolCalls, t' = { t with sessions, toolCalls }

section Asides

variable {t t' : RunTables}

theorem Aside.refl (t : RunTables) : Aside t t := ⟨t.sessions, t.toolCalls, rfl⟩

theorem Aside.moves {allowed : Mark → Prop} (aside : Aside t t') : Moves allowed t t' := by
  obtain ⟨sessions, toolCalls, rfl⟩ := aside
  exact Moves.one (.aside sessions toolCalls)

theorem putSession_aside (session : AgentSession) : Aside t (t.putSession session) :=
  ⟨_, t.toolCalls, rfl⟩

theorem idleSession_aside (sessionId : Uuid) :
    ∃ sessions, ∀ t' : RunTables, t'.sessions = t.sessions →
      idleSession t' sessionId = { t' with sessions } := by
  unfold idleSession
  cases found : t.sessions.find? fun session => decide (session.id = sessionId) with
  | none =>
    refine ⟨t.sessions, fun t' same => ?_⟩
    rw [same, found, ← same]
  | some session =>
    refine ⟨replaceRow AgentSession.id { session with status := .idle } t.sessions,
      fun t' same => ?_⟩
    rw [same, found, ← same]
    rfl

theorem closeAttemptSessions_aside (attemptId : Uuid) (status : AgentSessionStatus) :
    Aside t (closeAttemptSessions t attemptId status) :=
  ⟨_, t.toolCalls, rfl⟩

theorem failToolCall_aside (effect : EffectExecution) :
    ∃ toolCalls, ∀ t' : RunTables, t'.toolCalls = t.toolCalls →
      failToolCall t' effect = { t' with toolCalls } := by
  unfold failToolCall
  cases found : effect.toolCallId.bind fun id =>
      t.toolCalls.find? fun call => decide (call.id = id) with
  | none =>
    refine ⟨t.toolCalls, fun t' same => ?_⟩
    rw [same, found, ← same]
  | some toolCall =>
    refine ⟨replaceRow ToolCall.id { toolCall with status := .failed } t.toolCalls,
      fun t' same => ?_⟩
    rw [same, found, ← same]
    rfl

theorem ensureAgentSession_aside {claim : ClaimedRun} {sdkSessionId id : Uuid}
    {kind : AgentSessionKind} {session : AgentSession}
    (ensured : ensureAgentSession t claim sdkSessionId kind id = .ok (session, t')) :
    Aside t t' := by
  simp only [ensureAgentSession, bind_eq_ok, require_eq_ok, exists_unit] at ensured
  obtain ⟨-, ensured⟩ := ensured
  split at ensured
  · simp only [bind_eq_ok, require_eq_ok, exists_unit, pure_eq_ok, Prod.mk.injEq] at ensured
    obtain ⟨-, -, rfl⟩ := ensured
    exact Aside.refl t
  · simp only [bind_eq_ok, pure_eq_ok, Prod.mk.injEq, RunTables.addSession,
      insertRow_eq_ok] at ensured
    obtain ⟨_, ⟨_, ⟨-, rfl⟩, rfl⟩, -, rfl⟩ := ensured
    exact ⟨_, t.toolCalls, rfl⟩

end Asides

section Reads

variable {t : RunTables}

theorem lockRunRow_eq_some {runId : Uuid} {projectId : Option Uuid} {run : Run}
    (found : lockRunRow t runId projectId = some run) : t.run = some run ∧ run.id = runId := by
  obtain ⟨present, matching⟩ := Option.filter_eq_some_iff.mp found
  exact ⟨present, (of_decide_eq_true matching).1⟩

theorem lockSegmentRow_eq_some {segmentId runId : Uuid} {segment : RunSegment}
    (found : lockSegmentRow t segmentId runId = some segment) :
    segment ∈ t.segments ∧ segment.id = segmentId :=
  ⟨List.mem_of_find?_eq_some found, (of_decide_eq_true (List.find?_some found :)).1⟩

theorem lockInteractionRow_eq_ok {interactionId runId segmentId : Uuid}
    {interaction : UserInteraction}
    (found : lockInteractionRow t interactionId runId segmentId = .ok interaction) :
    interaction ∈ t.interactions ∧ interaction.id = interactionId ∧
      interaction.runSegmentId = segmentId := by
  rw [lockInteractionRow, orFault_eq_ok] at found
  have matching := of_decide_eq_true (List.find?_some found :)
  exact ⟨List.mem_of_find?_eq_some found, matching.1, matching.2.2⟩

theorem interactionOfProposal_eq_some {proposal : ChangeProposal}
    {interaction : UserInteraction}
    (found : interactionOfProposal t proposal = some interaction) :
    interaction ∈ t.interactions ∧ interaction.changeProposalId = some proposal.id :=
  ⟨List.mem_of_find?_eq_some found, of_decide_eq_true (List.find?_some found :)⟩

theorem lockEffect_eq_ok {effectId : Uuid} {effect : EffectExecution} {proposal : ChangeProposal}
    (found : lockEffect t effectId = .ok (effect, proposal)) :
    effect ∈ t.effects ∧ effect.id = effectId ∧ proposal ∈ t.proposals ∧
      proposal.id = effect.proposalId := by
  simp only [lockEffect, bind_eq_ok, orFault_eq_ok, pure_eq_ok, Prod.mk.injEq] at found
  obtain ⟨effect', foundEffect, proposal', foundProposal, rfl, rfl⟩ := found
  obtain ⟨member, same⟩ := find_key foundEffect
  obtain ⟨known, owner⟩ := find_key foundProposal
  exact ⟨member, same, known, owner⟩

theorem lockClaimedExecution_eq_ok {claim : ClaimedRun} {run : Run} {owned : Option RunSegment}
    {attempt : RunAttempt} (named : claim.runSegmentId ≠ none)
    (locked : lockClaimedExecution t claim = .ok (run, owned, attempt)) :
    t.run = some run ∧ attempt ∈ t.attempts ∧ attempt.id = claim.runAttemptId ∧
      ∃ segment ∈ t.segments, owned = some segment ∧ attempt.runSegmentId = some segment.id := by
  cases segmentNamed : claim.runSegmentId with
  | none => exact absurd segmentNamed named
  | some segmentId =>
    simp only [lockClaimedExecution, segmentNamed, bind_eq_ok, orFault_eq_ok, pure_eq_ok,
      Prod.mk.injEq] at locked
    obtain ⟨_, lockedRun, segment, lockedSegment, _, rfl, _, foundAttempt, rfl, rfl, rfl⟩ :=
      locked
    obtain ⟨known, segmentId'⟩ := lockSegmentRow_eq_some lockedSegment
    have matching := of_decide_eq_true (List.find?_some foundAttempt :)
    refine ⟨(lockRunRow_eq_some lockedRun).1, List.mem_of_find?_eq_some foundAttempt,
      matching.1, segment, known, rfl, ?_⟩
    rw [segmentId']
    exact matching.2.2.resolve_left (by simp)

end Reads

section Lease

variable {t : RunTables} {leaseTokenHash : String → String}

theorem validateClaimedLease_active {attempt : RunAttempt} {claim : ClaimedRun} {now : Timestamp}
    {u : Unit} (valid : validateClaimedLease leaseTokenHash attempt claim now = .ok u) :
    attempt.status.active = true := by
  simp only [validateClaimedLease, bind_eq_ok, require_eq_ok, exists_unit] at valid
  exact valid.2.1

theorem turn_of_claim {claim : ClaimedRun} {run : Run} {owned : Option RunSegment}
    {attempt : RunAttempt} {now : Timestamp} (named : claim.runSegmentId ≠ none)
    (locked : lockClaimedExecution t claim = .ok (run, owned, attempt))
    (valid : validateClaimedLease leaseTokenHash attempt claim now = .ok ()) :
    ∃ segment, owned = some segment ∧ Turn t run segment attempt ∧
      attempt.id = claim.runAttemptId := by
  obtain ⟨found, member, same, segment, known, rfl, on⟩ :=
    lockClaimedExecution_eq_ok named locked
  exact ⟨segment, rfl, ⟨found, member, validateClaimedLease_active valid, known, on⟩, same⟩

end Lease

section Waits

variable {t t' : RunTables} {run : Run} {segment : RunSegment} {now : Timestamp}

theorem requeue_eq_ok {waiting : RunStatus} {next : RunSegment} {events : List AgentEventType}
    {reason : String}
    (committed : t.requeue run waiting segment next events reason now = .ok t')
    (known : segment ∈ t.segments) (number : next.segmentNo = segment.segmentNo + 1)
    (created : next.status = .created) :
    Follows t segment next now ∧
      t' = ((t.proceed segment next now).announce (run.moved .queued none now) none
        (nextSequence t) events).dispatchRun run.id (some reason) := by
  simp only [RunTables.requeue, bind_eq_ok, Run.transitTo_eq_ok, RunTables.addSegment,
    insertRow_eq_ok, pure_eq_ok] at committed
  obtain ⟨_, ⟨-, rfl⟩, _, ⟨_, ⟨fresh, rfl⟩, rfl⟩, rfl⟩ := committed
  exact ⟨⟨known, number, created, fresh⟩, rfl⟩

theorem stop_eq_ok {current target : RunStatus} {error : Option ErrorRecord}
    {events : List AgentEventType} {attemptId : Option Uuid}
    (committed : t.stop run current target segment error events now attemptId = .ok t') :
    target ∈ allowedRunTransitions current ∧
      t' = ({ t with
        segments := replaceRow RunSegment.id
          (segment.closed (stoppedSegmentStatus target) now) t.segments }.announce
        (run.moved target error now) attemptId (nextSequence t) events) := by
  simp only [RunTables.stop, bind_eq_ok, Run.transitTo_eq_ok, pure_eq_ok] at committed
  obtain ⟨_, ⟨planned, rfl⟩, rfl⟩ := committed
  exact ⟨planned, rfl⟩

end Waits

end SkillMind.Runs
