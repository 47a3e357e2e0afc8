import SkillMind.Library.Evolution
import SkillMind.Runs.RunMoves

/-!
# The rows of a Run are well kept

What holds of the tables of one Run in every state of the store, whatever path led there: the
tables are keyed, the segments are numbered from one on without a gap, an attempt works on a
segment, an execution belongs to one proposal, and a proposal that is delivered inside a running
turn is the one its attempt waits for.

Every move keeps this, also the marked ones.
-/

namespace SkillMind.Runs

open Library Effects

/-- Nothing has been written yet. -/
structure Unborn (t : RunTables) : Prop where
  segments : t.segments = []
  attempts : t.attempts = []
  interactions : t.interactions = []
  proposals : t.proposals = []
  effects : t.effects = []
  events : t.events = []
  outbox : t.outbox = []

/-- A proposal that is delivered inside a running turn is the one its attempt waits for. -/
def InlineOwned (attempts : List RunAttempt) (proposals : List ChangeProposal) : Prop :=
  ∀ proposal ∈ proposals, proposal.activeInline = true →
    ∃ attempt ∈ attempts, attempt.id = proposal.runAttemptId ∧
      attempt.inlineProposalId = some proposal.id

/-- The rows of one Run, in every state of the store. -/
structure WellKept (t : RunTables) : Prop where
  unborn : t.run = none → Unborn t
  born : ∀ run ∈ t.run, t.segments ≠ []
  segments : Keyed RunSegment.id t.segments
  numbers : t.segments.map RunSegment.segmentNo = List.range' 1 t.segments.length
  attempts : Keyed RunAttempt.id t.attempts
  placed : ∀ attempt ∈ t.attempts, attempt.runSegmentId ≠ none
  interactions : Keyed UserInteraction.id t.interactions
  proposals : Keyed ChangeProposal.id t.proposals
  effects : Keyed EffectExecution.id t.effects
  effectProposals : Keyed EffectExecution.proposalId t.effects
  inlineOwned : InlineOwned t.attempts t.proposals

theorem wellKept_empty : WellKept RunTables.empty where
  unborn _ := ⟨rfl, rfl, rfl, rfl, rfl, rfl, rfl⟩
  born run found := by cases found
  segments := List.nodup_nil
  numbers := rfl
  attempts := List.nodup_nil
  placed attempt mem := by cases mem
  interactions := List.nodup_nil
  proposals := List.nodup_nil
  effects := List.nodup_nil
  effectProposals := List.nodup_nil
  inlineOwned proposal mem := by cases mem

theorem RunAttempt.clash_id {row other : RunAttempt} (fresh : row.clash other = false) :
    row.id ≠ other.id := by
  intro same
  simp [RunAttempt.clash, same] at fresh

theorem RunSegment.clash_id {row other : RunSegment} (fresh : row.clash other = false) :
    row.id ≠ other.id ∧ row.segmentNo ≠ other.segmentNo := by
  simpa [RunSegment.clash] using fresh

theorem UserInteraction.clash_id {row other : UserInteraction} (fresh : row.clash other = false) :
    row.id ≠ other.id := by
  intro same
  simp [UserInteraction.clash, same] at fresh

theorem ChangeProposal.clash_id {row other : ChangeProposal} (fresh : row.clash other = false) :
    row.id ≠ other.id := by
  intro same
  simp [ChangeProposal.clash, same] at fresh

theorem EffectExecution.clash_id {row other : EffectExecution} (fresh : row.clash other = false) :
    row.id ≠ other.id ∧ row.proposalId ≠ other.proposalId := by
  simp only [EffectExecution.clash, Bool.or_eq_false_iff, decide_eq_false_iff_not] at fresh
  exact ⟨fresh.1.1, fresh.1.2⟩

namespace WellKept

variable {t : RunTables}

theorem number_le (kept : WellKept t) {segment : RunSegment} (known : segment ∈ t.segments) :
    1 ≤ segment.segmentNo ∧ segment.segmentNo ≤ t.segments.length := by
  have mem : segment.segmentNo ∈ t.segments.map RunSegment.segmentNo :=
    List.mem_map_of_mem known
  rw [kept.numbers, List.mem_range'_1] at mem
  omega

theorem number_mem (kept : WellKept t) {number : Nat} (low : 1 ≤ number)
    (high : number ≤ t.segments.length) :
    ∃ segment ∈ t.segments, segment.segmentNo = number := by
  have mem : number ∈ t.segments.map RunSegment.segmentNo := by
    rw [kept.numbers, List.mem_range'_1]
    omega
  obtain ⟨segment, known, rfl⟩ := List.mem_map.mp mem
  exact ⟨segment, known, rfl⟩

theorem latest_known {segment : RunSegment} (latest : latestSegment t = some segment) :
    segment ∈ t.segments :=
  List.argmax_mem latest

theorem follows_last (kept : WellKept t) {segment next : RunSegment} {now : Timestamp}
    (follows : Follows t segment next now) : segment.segmentNo = t.segments.length := by
  obtain ⟨low, high⟩ := kept.number_le follows.known
  by_contra notLast
  have room : segment.segmentNo + 1 ≤ t.segments.length := by omega
  have columns :
      (replaceRow RunSegment.id (segment.closed .completed now) t.segments).map
        RunSegment.segmentNo = t.segments.map RunSegment.segmentNo :=
    map_column_replaceRow kept.segments follows.known rfl rfl
  obtain ⟨taken, takenMem, number⟩ := kept.number_mem (by omega) room
  have mem : taken.segmentNo ∈
      (replaceRow RunSegment.id (segment.closed .completed now) t.segments).map
        RunSegment.segmentNo := columns ▸ List.mem_map_of_mem takenMem
  obtain ⟨other, otherMem, same⟩ := List.mem_map.mp mem
  have clash := (RunSegment.clash_id (follows.fresh other otherMem)).2
  rw [follows.number, same, number] at clash
  exact clash rfl

theorem numbers_replace (kept : WellKept t) {segment row : RunSegment}
    (known : segment ∈ t.segments) (same : row.id = segment.id)
    (number : row.segmentNo = segment.segmentNo) :
    (replaceRow RunSegment.id row t.segments).map RunSegment.segmentNo =
      List.range' 1 (replaceRow RunSegment.id row t.segments).length := by
  rw [map_column_replaceRow kept.segments known same.symm number, length_replaceRow, kept.numbers]

theorem numbers_proceed (kept : WellKept t) {segment next : RunSegment} {now : Timestamp}
    (follows : Follows t segment next now) :
    (t.proceed segment next now).segments.map RunSegment.segmentNo =
      List.range' 1 (t.proceed segment next now).segments.length := by
  have last := kept.follows_last follows
  have old :
      (replaceRow RunSegment.id (segment.closed .completed now) t.segments).map
          RunSegment.segmentNo =
        List.range' 1
          (replaceRow RunSegment.id (segment.closed .completed now) t.segments).length :=
    kept.numbers_replace follows.known rfl rfl
  show (replaceRow RunSegment.id (segment.closed .completed now) t.segments ++ [next]).map _ =
    List.range' 1
      (replaceRow RunSegment.id (segment.closed .completed now) t.segments ++ [next]).length
  rw [List.map_append, old, List.length_append, length_replaceRow, List.length_singleton,
    List.range'_concat, List.map_singleton, follows.number, last, Nat.one_mul, Nat.add_comm 1]

theorem segments_proceed (kept : WellKept t) {segment next : RunSegment} {now : Timestamp}
    (follows : Follows t segment next now) :
    Keyed RunSegment.id (t.proceed segment next now).segments :=
  (kept.segments.replaceRow _).add fun other mem =>
    (RunSegment.clash_id (follows.fresh other mem)).1

end WellKept

namespace InlineOwned

variable {attempts : List RunAttempt} {proposals : List ChangeProposal}

theorem attempt_written (owned : InlineOwned attempts proposals)
    (keyed : Keyed RunAttempt.id attempts) {attempt row : RunAttempt}
    (member : attempt ∈ attempts) (same : row.id = attempt.id)
    (waits : row.inlineProposalId = attempt.inlineProposalId) :
    InlineOwned (replaceRow RunAttempt.id row attempts) proposals := by
  intro proposal known inline
  obtain ⟨owner, ownerMem, ownerId, ownerWaits⟩ := owned proposal known inline
  by_cases hit : owner.id = row.id
  · rw [keyed.eq_of_key ownerMem member (hit.trans same)] at ownerId ownerWaits
    exact ⟨row, mem_replaceRow_self member same.symm, same.trans ownerId,
      waits.trans ownerWaits⟩
  · exact ⟨owner, mem_replaceRow_of_ne ownerMem hit, ownerId, ownerWaits⟩

theorem attempt_added (owned : InlineOwned attempts proposals) (attempt : RunAttempt) :
    InlineOwned (attempts ++ [attempt]) proposals := by
  intro proposal known inline
  obtain ⟨owner, ownerMem, rest⟩ := owned proposal known inline
  exact ⟨owner, List.mem_append_left _ ownerMem, rest⟩

theorem proposal_written (owned : InlineOwned attempts proposals) {proposal row : ChangeProposal}
    (known : proposal ∈ proposals) (same : row.id = proposal.id)
    (attempt : row.runAttemptId = proposal.runAttemptId)
    (active : row.activeInline = true → proposal.activeInline = true) :
    InlineOwned attempts (replaceRow ChangeProposal.id row proposals) := by
  intro other mem inline
  rcases mem_replaceRow mem with ⟨rfl, -⟩ | ⟨old, -⟩
  · rw [attempt, same]
    exact owned proposal known (active inline)
  · exact owned other old inline

theorem proposal_added (owned : InlineOwned attempts proposals) {proposal : ChangeProposal}
    (deferred : proposal.inlineOwner = none) :
    InlineOwned attempts (proposals ++ [proposal]) := by
  intro other mem inline
  rcases List.mem_append.mp mem with old | new
  · exact owned other old inline
  · rw [List.mem_singleton.mp new, ChangeProposal.activeInline, deferred] at inline
    cases inline

theorem taken (owned : InlineOwned attempts proposals) (keyed : Keyed RunAttempt.id attempts)
    {attempt : RunAttempt} (member : attempt ∈ attempts)
    (bare : attempt.inlineProposalId = none) {proposal : ChangeProposal}
    (owner : proposal.runAttemptId = attempt.id) :
    InlineOwned
      (replaceRow RunAttempt.id { attempt with inlineProposalId := some proposal.id } attempts)
      (proposals ++ [proposal]) := by
  intro other mem inline
  rcases List.mem_append.mp mem with old | new
  · obtain ⟨holder, holderMem, holderId, waits⟩ := owned other old inline
    have elsewhere : holder.id ≠ attempt.id := by
      intro same
      rw [keyed.eq_of_key holderMem member same, bare] at waits
      cases waits
    exact ⟨holder, mem_replaceRow_of_ne holderMem elsewhere, holderId, waits⟩
  · rw [List.mem_singleton.mp new]
    exact ⟨_, mem_replaceRow_self member rfl, owner.symm, rfl⟩

theorem dropped (owned : InlineOwned attempts proposals) (keyed : Keyed RunAttempt.id attempts)
    {attempt row : RunAttempt} (member : attempt ∈ attempts) (same : row.id = attempt.id)
    {proposal closed : ChangeProposal} (sameProposal : closed.id = proposal.id)
    (waited : attempt.inlineProposalId = none ∨ attempt.inlineProposalId = some proposal.id)
    (inactive : closed.activeInline = false) :
    InlineOwned (replaceRow RunAttempt.id row attempts)
      (replaceRow ChangeProposal.id closed proposals) := by
  intro other mem inline
  rcases mem_replaceRow mem with ⟨rfl, -⟩ | ⟨old, elsewhere⟩
  · rw [inactive] at inline
    cases inline
  · obtain ⟨holder, holderMem, holderId, waits⟩ := owned other old inline
    have another : holder.id ≠ row.id := by
      intro hit
      rw [keyed.eq_of_key holderMem member (hit.trans same)] at waits
      rcases waited with bare | waited
      · rw [bare] at waits
        cases waits
      · rw [waited] at waits
        exact elsewhere ((Option.some.inj waits).symm.trans sameProposal.symm)
    exact ⟨holder, mem_replaceRow_of_ne holderMem another, holderId, waits⟩

end InlineOwned

@[simp] theorem ChangeProposal.withPhase_id (proposal : ChangeProposal) (phase : InlinePhase) :
    (proposal.withPhase phase).id = proposal.id := rfl

@[simp] theorem ChangeProposal.withPhase_activeInline {proposal : ChangeProposal}
    {phase : InlinePhase} (other : phase ≠ .active) :
    (proposal.withPhase phase).activeInline = false := by
  cases owner : proposal.inlineOwner <;>
    simp [ChangeProposal.activeInline, ChangeProposal.withPhase, owner, other]

theorem WellKept.waits_for {t : RunTables} (kept : WellKept t) {attempt : RunAttempt}
    {proposal : ChangeProposal} (member : attempt ∈ t.attempts) (known : proposal ∈ t.proposals)
    (inline : proposal.activeInline = true) (owner : proposal.runAttemptId = attempt.id) :
    attempt.inlineProposalId = some proposal.id := by
  obtain ⟨holder, holderMem, holderId, waits⟩ := kept.inlineOwned proposal known inline
  rwa [kept.attempts.eq_of_key holderMem member (holderId.trans owner)] at waits

/-! ## Elementary writes -/

namespace WellKept

variable {t : RunTables} {run : Run}

theorem not_unborn {P : Prop} (found : t.run = some run) (absent : t.run = none) : P := by
  rw [found] at absent
  cases absent

theorem published (kept : WellKept t) (found : t.run = some run) {runId : Uuid}
    {status : RunStatus} {events : List RunEvent} : WellKept (t.publish runId status events) :=
  { kept with unborn := not_unborn found }

theorem posted (kept : WellKept t) (found : t.run = some run) {outbox : List OutboxMessage} :
    WellKept { t with outbox } :=
  { kept with unborn := not_unborn found }

theorem announced (kept : WellKept t) (found : t.run = some run) {run' : Run}
    {attemptId : Option Uuid} {start : Nat} {types : List AgentEventType} :
    WellKept (t.announce run' attemptId start types) :=
  { kept with
    unborn := fun absent => nomatch absent
    born := fun _ _ => kept.born run found }

variable {segment : RunSegment}

theorem segment_written (kept : WellKept t) {row : RunSegment}
    (known : segment ∈ t.segments) (same : row.id = segment.id := by rfl)
    (number : row.segmentNo = segment.segmentNo := by rfl) :
    WellKept { t with segments := replaceRow RunSegment.id row t.segments } :=
  { kept with
    unborn := fun absent => by
      rw [(kept.unborn absent).segments] at known
      cases known
    born := fun _ _ =>
      List.ne_nil_of_mem (mem_replaceRow_self known same.symm)
    segments := kept.segments.replaceRow row
    numbers := kept.numbers_replace known same number }

theorem proceeded (kept : WellKept t) (found : t.run = some run) {next : RunSegment}
    {now : Timestamp} (follows : Follows t segment next now) :
    WellKept (t.proceed segment next now) :=
  { kept with
    unborn := not_unborn found
    born := fun _ _ => List.append_ne_nil_of_right_ne_nil _ (List.cons_ne_nil _ _)
    segments := kept.segments_proceed follows
    numbers := kept.numbers_proceed follows }

variable {attempt : RunAttempt}

theorem placed_written (kept : WellKept t) {row : RunAttempt}
    (member : attempt ∈ t.attempts) (place : row.runSegmentId = attempt.runSegmentId) :
    ∀ other ∈ replaceRow RunAttempt.id row t.attempts, other.runSegmentId ≠ none := by
  intro other mem
  rcases mem_replaceRow mem with ⟨rfl, -⟩ | ⟨old, -⟩
  · rw [place]
    exact kept.placed attempt member
  · exact kept.placed other old

theorem attempt_written (kept : WellKept t) {row : RunAttempt}
    (member : attempt ∈ t.attempts) (same : row.id = attempt.id := by rfl)
    (waits : row.inlineProposalId = attempt.inlineProposalId := by rfl)
    (place : row.runSegmentId = attempt.runSegmentId := by rfl) :
    WellKept { t with attempts := replaceRow RunAttempt.id row t.attempts } :=
  { kept with
    unborn := fun absent => by
      rw [(kept.unborn absent).attempts] at member
      cases member
    attempts := kept.attempts.replaceRow row
    placed := kept.placed_written member place
    inlineOwned := kept.inlineOwned.attempt_written kept.attempts member same waits }

theorem attempt_added (kept : WellKept t) (found : t.run = some run)
    (on : attempt.runSegmentId = some segment.id)
    (fresh : ∀ other ∈ t.attempts, attempt.clash other = false) :
    WellKept { t with attempts := t.attempts ++ [attempt] } :=
  { kept with
    unborn := not_unborn found
    attempts := kept.attempts.add fun other mem => RunAttempt.clash_id (fresh other mem)
    placed := fun other mem => by
      rcases List.mem_append.mp mem with old | new
      · exact kept.placed other old
      · rw [List.mem_singleton.mp new, on]
        exact Option.some_ne_none _
    inlineOwned := kept.inlineOwned.attempt_added attempt }

theorem responded (kept : WellKept t) (found : t.run = some run)
    (responses : List InteractionResponse) : WellKept { t with responses } :=
  { kept with unborn := not_unborn found }

theorem interaction_written (kept : WellKept t) {interaction row : UserInteraction}
    (member : interaction ∈ t.interactions) :
    WellKept { t with interactions := replaceRow UserInteraction.id row t.interactions } :=
  { kept with
    unborn := fun absent => by
      rw [(kept.unborn absent).interactions] at member
      cases member
    interactions := kept.interactions.replaceRow row }

theorem interaction_added (kept : WellKept t) (found : t.run = some run)
    {interaction : UserInteraction}
    (fresh : ∀ other ∈ t.interactions, interaction.clash other = false) :
    WellKept { t with interactions := t.interactions ++ [interaction] } :=
  { kept with
    unborn := not_unborn found
    interactions := kept.interactions.add fun other mem =>
      UserInteraction.clash_id (fresh other mem) }

theorem proposal_written (kept : WellKept t) {proposal row : ChangeProposal}
    (known : proposal ∈ t.proposals) (same : row.id = proposal.id := by rfl)
    (attempt : row.runAttemptId = proposal.runAttemptId := by rfl)
    (active : row.activeInline = true → proposal.activeInline = true := by exact id) :
    WellKept { t with proposals := replaceRow ChangeProposal.id row t.proposals } :=
  { kept with
    unborn := fun absent => by
      rw [(kept.unborn absent).proposals] at known
      cases known
    proposals := kept.proposals.replaceRow row
    inlineOwned := kept.inlineOwned.proposal_written known same attempt active }

theorem proposal_added (kept : WellKept t) (found : t.run = some run) {proposal : ChangeProposal}
    (deferred : proposal.inlineOwner = none)
    (fresh : ∀ other ∈ t.proposals, proposal.clash other = false) :
    WellKept { t with proposals := t.proposals ++ [proposal] } :=
  { kept with
    unborn := not_unborn found
    proposals := kept.proposals.add fun other mem => ChangeProposal.clash_id (fresh other mem)
    inlineOwned := kept.inlineOwned.proposal_added deferred }

theorem effect_written (kept : WellKept t) {effect row : EffectExecution}
    (member : effect ∈ t.effects) (same : row.id = effect.id := by rfl)
    (proposal : row.proposalId = effect.proposalId := by rfl) :
    WellKept { t with effects := replaceRow EffectExecution.id row t.effects } :=
  { kept with
    unborn := fun absent => by
      rw [(kept.unborn absent).effects] at member
      cases member
    effects := kept.effects.replaceRow row
    effectProposals := by
      unfold Keyed
      rw [map_column_replaceRow kept.effects member same.symm proposal]
      exact kept.effectProposals }

theorem effect_added (kept : WellKept t) (found : t.run = some run) {proposalId : Uuid}
    {effect : EffectExecution} (new : NewEffect t proposalId effect) :
    WellKept { t with effects := t.effects ++ [effect] } :=
  { kept with
    unborn := not_unborn found
    effects := kept.effects.add fun other mem =>
      (EffectExecution.clash_id (new.fresh other mem)).1
    effectProposals := kept.effectProposals.add fun other mem =>
      (EffectExecution.clash_id (new.fresh other mem)).2 }

theorem suspended (kept : WellKept t)
    (turn : Turn t run segment attempt) {now : Timestamp} :
    WellKept (t.suspend segment attempt now) :=
  (kept.segment_written turn.known).attempt_written turn.member

theorem detached (kept : WellKept t) {segment : RunSegment} {attempt : RunAttempt}
    {proposal : ChangeProposal} (turn : Turn t run segment attempt)
    (known : proposal ∈ t.proposals) (inline : proposal.activeInline = true)
    (owner : proposal.runAttemptId = attempt.id) {now : Timestamp} :
    WellKept (t.detachTurn run segment attempt proposal now) :=
  { kept with
    unborn := fun absent => nomatch absent
    born := fun _ _ => List.ne_nil_of_mem (mem_replaceRow_self turn.known rfl)
    segments := kept.segments.replaceRow _
    numbers := kept.numbers_replace turn.known rfl rfl
    attempts := kept.attempts.replaceRow _
    placed := kept.placed_written turn.member (by rfl)
    proposals := kept.proposals.replaceRow _
    inlineOwned := kept.inlineOwned.dropped kept.attempts turn.member (by rfl) (by rfl)
      (Or.inr (kept.waits_for turn.member known inline owner))
      (ChangeProposal.withPhase_activeInline (by decide)) }

theorem delivered (kept : WellKept t) {attempt : RunAttempt} {proposal : ChangeProposal}
    (member : attempt ∈ t.attempts)
    (waited : attempt.inlineProposalId = none ∨ attempt.inlineProposalId = some proposal.id) :
    WellKept
      { t with
        attempts := replaceRow RunAttempt.id { attempt with inlineProposalId := none } t.attempts
        proposals := replaceRow ChangeProposal.id (proposal.withPhase .delivered) t.proposals } :=
  { kept with
    unborn := fun absent => by
      rw [(kept.unborn absent).attempts] at member
      cases member
    attempts := kept.attempts.replaceRow _
    placed := kept.placed_written member (by rfl)
    proposals := kept.proposals.replaceRow _
    inlineOwned := kept.inlineOwned.dropped kept.attempts member (by rfl) (by rfl) waited
      (ChangeProposal.withPhase_activeInline (by decide)) }

theorem held (kept : WellKept t)
    {proposal : ChangeProposal} {effect : EffectExecution} (turn : Turn t run segment attempt)
    (bare : attempt.inlineProposalId = none) (owner : proposal.runAttemptId = attempt.id)
    (fresh : ∀ other ∈ t.proposals, proposal.clash other = false)
    (new : NewEffect t proposal.id effect) :
    WellKept
      { t with
        attempts := replaceRow RunAttempt.id
          { attempt with inlineProposalId := some proposal.id } t.attempts
        proposals := t.proposals ++ [proposal]
        effects := t.effects ++ [effect] } :=
  { kept.effect_added turn.found new with
    unborn := not_unborn turn.found
    attempts := kept.attempts.replaceRow _
    placed := kept.placed_written turn.member (by rfl)
    proposals := kept.proposals.add fun other mem => ChangeProposal.clash_id (fresh other mem)
    inlineOwned := kept.inlineOwned.taken kept.attempts turn.member bare owner }

theorem found_of_effect (kept : WellKept t) {effect : EffectExecution}
    (member : effect ∈ t.effects) : ∃ run, t.run = some run := by
  cases found : t.run with
  | none =>
    rw [(kept.unborn found).effects] at member
    cases member
  | some run => exact ⟨run, rfl⟩

theorem closeWaiting_attempts (t : RunTables) (segment : Option RunSegment) (now : Timestamp) :
    (closeWaiting t segment now).attempts = t.attempts ∨
      ∃ attempt ∈ t.attempts, attempt.status = .deferred ∧
        (closeWaiting t segment now).attempts =
          replaceRow RunAttempt.id
            { attempt with status := .cancelled, finishedAt := some now } t.attempts := by
  simp only [closeWaiting]
  split
  · exact Or.inl rfl
  · rename_i attempt latest
    obtain ⟨member, matching⟩ := List.mem_filter.mp (List.argmax_mem latest)
    exact Or.inr ⟨attempt, member, (of_decide_eq_true matching).2, rfl⟩

theorem closed (kept : WellKept t) (found : t.run = some run) {segment : Option RunSegment}
    {now : Timestamp} : WellKept (closeWaiting t segment now) := by
  have attempts : WellKept { t with attempts := (closeWaiting t segment now).attempts } := by
    rcases closeWaiting_attempts t segment now with same | ⟨attempt, member, -, written⟩
    · rw [same]
      exact kept
    · rw [written]
      exact kept.attempt_written member
  refine
    { attempts with
      unborn := not_unborn found
      interactions := kept.interactions.map fun interaction => ?_
      effects := kept.effects.map fun effect => ?_
      effectProposals := kept.effectProposals.map fun effect => ?_
      proposals := kept.proposals.map fun proposal => ?_
      inlineOwned := fun proposal mem inline => ?_ }
  · split <;> rfl
  · split <;> rfl
  · split <;> rfl
  · split <;> rfl
  · obtain ⟨old, oldMem, rfl⟩ := List.mem_map.mp mem
    revert inline
    split <;> exact attempts.inlineOwned old oldMem

theorem ended (kept : WellKept t) {t' : RunTables} (ending : Ending t t') : WellKept t' := by
  cases ending with
  | stopped found waiting known =>
    exact (kept.segment_written known).announced found
  | continued found waiting calm follows =>
    exact ((kept.proceeded found follows).announced found).posted rfl
  | again found waiting calm member failed known =>
    exact (((kept.effect_written member).proposal_written known).published found).posted found

end WellKept

theorem Settlement.id {t : RunTables} {effect settled : EffectExecution}
    (settlement : Settlement t effect settled) :
    settled.id = effect.id ∧ settled.proposalId = effect.proposalId := by
  cases settlement <;> exact ⟨rfl, rfl⟩

theorem RunMove.wellKept {allowed : Mark → Prop} {t t' : RunTables}
    (move : RunMove allowed t t') (kept : WellKept t) : WellKept t' := by
  cases move with
  | aside => exact { kept with unborn := fun absent => { kept.unborn absent with } }
  | approvalAdded => exact { kept with unborn := fun absent => { kept.unborn absent with } }
  | proposalMoved known status => exact kept.proposal_written known
  | created absent queued version first opened =>
    obtain ⟨segments, -, -, -, -, -, -⟩ := kept.unborn absent
    exact { kept with
      unborn := fun absent => nomatch absent
      born := fun _ _ => List.append_ne_nil_of_right_ne_nil _ (List.cons_ne_nil _ _)
      segments := by
        rw [segments]
        exact List.nodup_singleton _
      numbers := by
        rw [segments, List.nil_append, List.map_singleton, first]
        rfl }
  | noted found => exact kept.published found
  | cancellationRecorded found => exact kept.published found
  | leaseExtended member => exact kept.attempt_written member
  | claimed found due latest leased on bare fresh =>
    exact ((kept.segment_written (WellKept.latest_known latest)).attempt_added found on
      fresh).announced found
  | exhausted found due known =>
    exact (kept.segment_written known).announced found
  | prepared turn =>
    exact ((kept.segment_written turn.known).attempt_written turn.member).announced
      turn.found
  | released types turn held own inactive targets wins later written posted =>
    subst written
    rcases posted with ⟨-, reason, rfl⟩ | ⟨-, rfl⟩
    · exact (((kept.segment_written turn.known).attempt_written turn.member).announced
        turn.found).posted rfl
    · exact ((kept.segment_written turn.known).attempt_written turn.member).announced
        turn.found
  | attemptExpired found left member => exact kept.attempt_written member
  | asked suspends ordinary isOpen free place fresh =>
    exact ((kept.suspended suspends.toTurn).interaction_added suspends.found fresh).announced
      suspends.found
  | @answered _ _ _ _ _ _ _ _ responses found waiting member isOpen closes follows =>
    exact ((((kept.responded found responses).proceeded found { follows with }).interaction_written
      member).announced found).posted rfl
  | lapsed found member => exact kept.interaction_written member
  | proposed suspends deferred newProposal approval isOpen fresh =>
    exact (((kept.suspended suspends.toTurn).proposal_added suspends.found deferred
      newProposal).interaction_added suspends.found fresh).announced suspends.found
  | proposedApproved suspends deferred newProposal new =>
    exact ((((kept.suspended suspends.toTurn).proposal_added suspends.found deferred
      newProposal).effect_added suspends.found { new with }).posted
        suspends.found).announced suspends.found
  | held turn running calm bare inline owner newProposal new =>
    exact kept.held turn bare owner newProposal new
  | delivered member known owner waited => exact kept.delivered member waited
  | detached turn running known inline owner written same after heard =>
    rcases after with ⟨-, rfl⟩ | ⟨-, ending⟩
    · exact (kept.detached turn known inline owner).posted rfl
    · exact (kept.detached turn known inline owner).ended ending
  | approved proposal found waiting member isOpen known new =>
    exact (((kept.interaction_written member).effect_added found { new with }).published
      found).posted found
  | effectLeased member => exact kept.effect_written member
  | effectRenewed member => exact kept.effect_written member
  | effectSettled member unfinished settlement =>
    exact kept.effect_written member settlement.id.1 settlement.id.2
  | redispatched member live known owner unreserved written =>
    subst written
    obtain ⟨run, found⟩ := kept.found_of_effect member
    exact (kept.effect_written member).posted found
  | concluded found waiting member unfinished settlement ending =>
    exact (kept.effect_written member settlement.id.1 settlement.id.2).ended ending
  | withdrawn found due latest =>
    exact (kept.segment_written (WellKept.latest_known latest)).announced found
  | cancelled found waiting latest =>
    exact ((kept.segment_written (WellKept.latest_known latest)).closed found).announced
      found
  | transitioned found => exact kept.announced found

end SkillMind.Runs
