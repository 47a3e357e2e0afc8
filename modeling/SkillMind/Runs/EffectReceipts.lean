import SkillMind.Effects.DatabaseProvider
import SkillMind.Runs.EffectFencing

/-!
# Recording a confirmed write

`finalizeEffectExecution` records an outcome by its references alone. Here the worker hands over
the whole result of the provider: what was read before and after becomes evidence, and the receipt
is checked and goes into the next segment.

Both agree. A confirmed write is recorded exactly when its receipt may be shown; otherwise nothing
is written and the execution keeps its lease, so that the original claim stays recoverable.
-/

namespace SkillMind.Runs

open Library SkillMind.Core Effects

/-- The identifiers drawn for a finalization, and the one in the reference of the proposal. -/
structure ReceiptIds where
  proposalRef : Uuid
  before : Uuid
  after : Uuid
  segment : Uuid

/-- What a finalization leaves: the execution, the rows, the evidence, and the receipt in the
checkpoint of the next segment. -/
structure FinalizedEffect where
  effect : EffectExecution
  tables : RunTables
  evidence : List Evidence
  receipt : Option Json

section Store

variable (library : StandardLibrary) (leaseTokenHash : String → String)

/-- The receipt in the checkpoint of the next segment is checked once more; a cancelled Run has
no next segment. -/
def continuedReceipt (tables : RunTables) (receipt : Json) : Except Fault (Option Json) :=
  if isCancellationRequested tables = true then .ok none
  else do return some (← validatedEffectResult library receipt)

/-- The part of `finalize_effect_execution` that records a result.  Of the result, the rows of
the execution and of the tool call keep a copy of the verification, which the model leaves out. -/
def recordResult (tables : RunTables) (evidence : List Evidence) (run : Run)
    (segment : RunSegment) (proposal : ChangeProposal) (effect : EffectExecution) (call : ToolCall)
    (inline : Bool) (result : EffectProviderResult) (ids : ReceiptIds) (now : Timestamp) :
    Except Fault FinalizedEffect := do
  let before :=
    effectEvidenceRow library run.id call.id (evidenceRef ids.before) result.before now
  let after := effectEvidenceRow library run.id call.id (evidenceRef ids.after) result.after now
  let receipt ← validatedEffectResult library (effectResult effect.id ids.proposalRef
    proposal.capability before after result.verification)
  let (settled, proposal, tables) := recordOutcome tables proposal effect call
    (.applied before.evidenceRef after.evidenceRef)
  let evidence := evidence ++ [before, after]
  if inline = true then return ⟨settled, tables, evidence, none⟩
  else do
    let receipt ← continuedReceipt library tables receipt
    let tables ← finishEffectContinuation tables run segment proposal settled none ids.segment now
    return ⟨(tables.effects.find? fun effect => effect.id = settled.id).getD settled, tables,
      evidence, receipt⟩

/-- `finalize_effect_execution` with the result of the provider. -/
def finalizeEffectResult (tables : RunTables) (evidence : List Evidence)
    (claimed : ClaimedEffectExecution) (result : EffectProviderResult) (ids : ReceiptIds)
    (now : Timestamp) : Except Fault FinalizedEffect := do
  let (effect, proposal) ← lockEffect tables claimed.effectExecutionId
  let run ← orFault ⟨.runNotFoundError, "EffectExecution Run not found"⟩
    (lockRunRow tables claimed.runId)
  let segment ← orFault ⟨.runNotFoundError, "EffectExecution Segment not found"⟩
    (lockSegmentRow tables claimed.runSegmentId run.id)
  if effect.status.finished = true then return ⟨effect, tables, evidence, none⟩
  else do
    validateEffectLease leaseTokenHash effect claimed now
    let inline ← inlineParentActive tables run segment proposal now
    require (inline = true ∨ run.status = .waitingForApproval)
      (effectLeaseInvalid "Run left effect waiting state")
    let call ← orFault (effectLeaseInvalid "Effect ToolCall is unavailable")
      (effect.toolCallId.bind fun id => tables.toolCalls.find? fun call => call.id = id)
    recordResult library tables evidence run segment proposal effect call inline result ids now

variable {library leaseTokenHash} {t : RunTables} {evidence : List Evidence}
  {claimed : ClaimedEffectExecution} {result : EffectProviderResult} {ids : ReceiptIds}
  {now : Timestamp}

/-- **The recorded outcome is the one of `finalizeEffectExecution`.** -/
theorem finalizeEffectResult_refines {final : FinalizedEffect}
    (committed : finalizeEffectResult library leaseTokenHash t evidence claimed result ids now =
      .ok final) :
    finalizeEffectExecution leaseTokenHash t claimed
        (.applied (evidenceRef ids.before) (evidenceRef ids.after)) ids.segment now =
      .ok (final.effect, final.tables) := by
  simp only [finalizeEffectResult, bind_eq_ok, Prod.exists, orFault_eq_ok] at committed
  obtain ⟨effect, proposal, locked, run, lockedRun, segment, lockedSegment, committed⟩ :=
    committed
  simp only [finalizeEffectExecution, bind_eq_ok, Prod.exists, orFault_eq_ok]
  refine ⟨effect, proposal, locked, run, lockedRun, segment, lockedSegment, ?_⟩
  split at committed
  · rename_i finished
    cases committed
    rw [if_pos finished]
    rfl
  · rename_i unfinished
    simp only [bind_eq_ok, exists_unit, require_eq_ok, orFault_eq_ok] at committed
    obtain ⟨leased, inline, owned, place, call, called, committed⟩ := committed
    simp only [recordResult, bind_eq_ok] at committed
    obtain ⟨receipt, -, committed⟩ := committed
    rw [if_neg unfinished]
    simp only [bind_eq_ok, exists_unit, require_eq_ok, orFault_eq_ok]
    refine ⟨leased, inline, owned, place, call, called, ?_⟩
    split at committed
    · rename_i isInline
      cases committed
      rw [if_pos isInline]
      rfl
    · rename_i outside
      simp only [bind_eq_ok, pure_eq_ok] at committed
      obtain ⟨shown, -, tables, finished, rfl⟩ := committed
      rw [if_neg outside]
      simp only [bind_eq_ok, pure_eq_ok]
      exact ⟨tables, finished, rfl⟩

theorem number_fresh {segment : RunSegment} (latest : latestSegment t = some segment)
    {other : RunSegment} (mem : other ∈ t.segments) : other.segmentNo ≠ segment.segmentNo + 1 := by
  intro same
  have first : other.segmentNo ≤ segment.segmentNo := List.le_of_mem_argmax mem latest
  omega

theorem finish_applied (run : Run) {segment : RunSegment} (proposal : ChangeProposal)
    (effect : EffectExecution) {segmentId : Uuid} (now : Timestamp)
    (fresh : ∀ other ∈ t.segments, other.id ≠ segmentId)
    (last : ∀ other ∈ t.segments, other.segmentNo ≠ segment.segmentNo + 1) :
    ∃ t', finishEffectContinuation t run segment proposal effect none segmentId now = .ok t' ∧
      t'.effects = t.effects ∧ t'.proposals = t.proposals := by
  unfold finishEffectContinuation
  rw [if_neg fun failed => failed.1 rfl]
  by_cases cancelled : isCancellationRequested t = true
  · have planned : run.transitTo .waitingForApproval .cancelled none now =
        .ok (run.moved .cancelled none now) := Run.transitTo_eq_ok.mpr ⟨by decide, rfl⟩
    rw [if_pos cancelled]
    unfold RunTables.stop
    rw [planned]
    exact ⟨_, rfl, rfl, rfl⟩
  · have planned : run.transitTo .waitingForApproval .queued none now =
        .ok (run.moved .queued none now) := Run.transitTo_eq_ok.mpr ⟨by decide, rfl⟩
    have free : ∀ other ∈ (t.putSegment (segment.closed .completed now)).segments,
        (nextEffectSegment run segment proposal segmentId effect.id).clash other = false := by
      intro other mem
      have apart : other.id ≠ segmentId ∧ other.segmentNo ≠ segment.segmentNo + 1 := by
        rcases mem_replaceRow mem with ⟨rfl, old, known, same⟩ | ⟨known, -⟩
        · refine ⟨fun equal => fresh old known (same.trans equal), ?_⟩
          exact (Nat.lt_succ_self segment.segmentNo).ne
        · exact ⟨fresh other known, last other known⟩
      simp [RunSegment.clash, nextEffectSegment, nextSegment, apart.1.symm, apart.2.symm]
    have added := insertRow_eq_ok.mpr ⟨free, rfl⟩
    rw [if_neg cancelled, if_neg (by simp)]
    unfold RunTables.requeue RunTables.addSegment
    rw [planned, ok_bind, added]
    exact ⟨_, rfl, rfl, rfl⟩

/-- The claimed execution holds its lease, and its Run waits for it or is its live inline
parent. -/
structure AwaitedEffect (leaseTokenHash : String → String) (t : RunTables)
    (claimed : ClaimedEffectExecution) (now : Timestamp) (effect : EffectExecution)
    (proposal : ChangeProposal) (run : Run) (segment : RunSegment) (call : ToolCall) : Prop where
  locked : lockEffect t claimed.effectExecutionId = .ok (effect, proposal)
  lockedRun : lockRunRow t claimed.runId = some run
  lockedSegment : lockSegmentRow t claimed.runSegmentId run.id = some segment
  leased : validateEffectLease leaseTokenHash effect claimed now = .ok ()
  waits : inlineParentActive t run segment proposal now = .ok true ∨
    (inlineParentActive t run segment proposal now = .ok false ∧
      run.status = .waitingForApproval ∧ latestSegment t = some segment)
  called : (effect.toolCallId.bind fun id => t.toolCalls.find? fun call => call.id = id) =
    some call

def ReceiptPublishable (library : StandardLibrary) (effect : EffectExecution)
    (proposal : ChangeProposal) (run : Run) (call : ToolCall) (result : EffectProviderResult)
    (ids : ReceiptIds) (now : Timestamp) : Prop :=
  Publishable library effect.id ids.proposalRef ids.before ids.after run.id call.id
    proposal.capability result now

/-- The execution is applied, with its references, its proposal and its evidence. -/
structure RecordedEffect (library : StandardLibrary) (evidence : List Evidence)
    (effect : EffectExecution) (proposal : ChangeProposal) (run : Run) (call : ToolCall)
    (result : EffectProviderResult) (ids : ReceiptIds) (now : Timestamp)
    (final : FinalizedEffect) : Prop where
  id : final.effect.id = effect.id
  applied : final.effect.status = .applied
  error : final.effect.error = none
  beforeRef : final.effect.beforeRef = some (evidenceRef ids.before)
  afterRef : final.effect.afterRef = some (evidenceRef ids.after)
  stored : final.effect ∈ final.tables.effects
  proposal : ∃ known ∈ final.tables.proposals, known.id = proposal.id ∧ known.status = .applied
  evidence : final.evidence = evidence ++
    [ effectEvidenceRow library run.id call.id (evidenceRef ids.before) result.before now
    , effectEvidenceRow library run.id call.id (evidenceRef ids.after) result.after now ]

section Awaited

variable {effect : EffectExecution} {proposal : ChangeProposal} {run : Run}
  {segment : RunSegment} {call : ToolCall}

theorem AwaitedEffect.unfinished
    (awaited : AwaitedEffect leaseTokenHash t claimed now effect proposal run segment call) :
    ¬ effect.status.finished = true := by
  rw [(validateEffectLease_eq_ok awaited.leased).2.1]
  decide

theorem AwaitedEffect.finalize_eq (library : StandardLibrary) (evidence : List Evidence)
    (result : EffectProviderResult) (ids : ReceiptIds)
    (awaited : AwaitedEffect leaseTokenHash t claimed now effect proposal run segment call) :
    ∃ inline, (inline = true ∨ latestSegment t = some segment) ∧
      finalizeEffectResult library leaseTokenHash t evidence claimed result ids now =
        recordResult library t evidence run segment proposal effect call inline result ids now := by
  have place : ∃ inline, inlineParentActive t run segment proposal now = .ok inline ∧
      (inline = true ∨ run.status = .waitingForApproval) ∧
      (inline = true ∨ latestSegment t = some segment) := by
    rcases awaited.waits with inline | ⟨outside, waiting, latest⟩
    · exact ⟨true, inline, Or.inl rfl, Or.inl rfl⟩
    · exact ⟨false, outside, Or.inr waiting, Or.inr latest⟩
  obtain ⟨inline, owned, place, latest⟩ := place
  refine ⟨inline, latest, ?_⟩
  unfold finalizeEffectResult
  rw [awaited.locked, ok_bind]
  simp only [awaited.lockedRun, awaited.lockedSegment, orFault_some, ok_bind,
    if_neg awaited.unfinished, awaited.leased, owned, require_of place, awaited.called]

theorem recordOutcome_applied (t : RunTables) (proposal : ChangeProposal)
    (effect : EffectExecution) (call : ToolCall) (beforeRef afterRef : String) :
    ∃ settled t', recordOutcome t proposal effect call (.applied beforeRef afterRef) =
        (settled, { proposal with status := .applied }, t') ∧
      settled.id = effect.id ∧ (settled.status = .applied ∧ settled.error = none) ∧
      (settled.beforeRef = some beforeRef ∧ settled.afterRef = some afterRef) ∧
      t'.effects = replaceRow EffectExecution.id settled t.effects ∧
      t'.proposals =
        replaceRow ChangeProposal.id { proposal with status := .applied } t.proposals ∧
      t'.segments = t.segments :=
  ⟨_, _, rfl, rfl, ⟨rfl, rfl⟩, ⟨rfl, rfl⟩, rfl, rfl, rfl⟩

theorem AwaitedEffect.records (library : StandardLibrary) (evidence : List Evidence)
    (result : EffectProviderResult) (ids : ReceiptIds) (kept : WellKept t)
    (awaited : AwaitedEffect leaseTokenHash t claimed now effect proposal run segment call)
    (fresh : ∀ other ∈ t.segments, other.id ≠ ids.segment)
    (publishable : ReceiptPublishable library effect proposal run call result ids now) :
    ∃ final, finalizeEffectResult library leaseTokenHash t evidence claimed result ids now =
        .ok final ∧
      RecordedEffect library evidence effect proposal run call result ids now final := by
  obtain ⟨member, -, proposed, -⟩ := lockEffect_eq_ok awaited.locked
  obtain ⟨inline, latest, finalized⟩ := awaited.finalize_eq library evidence result ids
  have checked := (validatedEffectResult_resultReceipt library effect.id ids.proposalRef ids.before
    ids.after run.id call.id proposal.capability result now).mpr ⟨publishable, rfl⟩
  rw [finalized]
  unfold recordResult
  dsimp only
  unfold resultReceipt at checked
  rw [checked, ok_bind]
  obtain ⟨settled, t', recorded, same, row, references, effects, proposals, segments⟩ :=
    recordOutcome_applied t proposal effect call (evidenceRef ids.before) (evidenceRef ids.after)
  have stored : settled ∈ t'.effects := effects ▸ mem_replaceRow_self member same.symm
  have settledProposal : { proposal with status := .applied } ∈ t'.proposals :=
    proposals ▸ mem_replaceRow_self proposed rfl
  have leaves : ∀ (final : FinalizedEffect), final.effect = settled →
      final.tables.effects = t'.effects → final.tables.proposals = t'.proposals →
      final.evidence = evidence ++
        [ effectEvidenceRow library run.id call.id (evidenceRef ids.before) result.before now
        , effectEvidenceRow library run.id call.id (evidenceRef ids.after) result.after now ] →
      RecordedEffect library evidence effect proposal run call result ids now final := by
    rintro final rfl keptEffects keptProposals added
    exact ⟨same, row.1, row.2, references.1, references.2, keptEffects ▸ stored,
      ⟨{ proposal with status := .applied }, keptProposals.symm ▸ settledProposal, rfl, rfl⟩, added⟩
  have named : (effectEvidenceRow library run.id call.id (evidenceRef ids.before) result.before
      now).evidenceRef = evidenceRef ids.before := rfl
  have named' : (effectEvidenceRow library run.id call.id (evidenceRef ids.after) result.after
      now).evidenceRef = evidenceRef ids.after := rfl
  rw [named, named', recorded]
  dsimp only
  by_cases owned : inline = true
  · rw [if_pos owned]
    exact ⟨_, rfl, leaves _ rfl rfl rfl rfl⟩
  · rw [if_neg owned]
    obtain ⟨shown, continued⟩ : ∃ shown, continuedReceipt library t'
        (resultReceipt library effect.id ids.proposalRef ids.before ids.after run.id call.id
          proposal.capability result now) = .ok shown := by
      unfold continuedReceipt
      by_cases cancelled : isCancellationRequested t' = true
      · exact ⟨none, if_pos cancelled⟩
      · rw [if_neg cancelled]
        unfold resultReceipt
        rw [checked]
        exact ⟨_, rfl⟩
    obtain ⟨t'', finished, keptEffects, keptProposals⟩ :=
      finish_applied (t := t') run { proposal with status := .applied } settled now
        (segments ▸ fresh)
        (segments ▸ fun other mem => number_fresh (latest.resolve_left owned) mem)
    have keyed : Keyed EffectExecution.id t''.effects := by
      rw [keptEffects, effects]
      exact kept.effects.replaceRow settled
    have found : (t''.effects.find? fun effect => effect.id = settled.id) = some settled :=
      keyed.find_eq (keptEffects ▸ stored) rfl
    unfold resultReceipt at continued
    rw [continued, ok_bind, finished, ok_bind]
    exact ⟨_, rfl, leaves _ (by simp only [found, Option.getD_some]) keptEffects keptProposals rfl⟩

theorem AwaitedEffect.refuses (library : StandardLibrary) (evidence : List Evidence)
    (result : EffectProviderResult) (ids : ReceiptIds)
    (awaited : AwaitedEffect leaseTokenHash t claimed now effect proposal run segment call)
    (hidden : ¬ ReceiptPublishable library effect proposal run call result ids now) :
    ∃ fault : Fault, fault.error = .valueError ∧
      finalizeEffectResult library leaseTokenHash t evidence claimed result ids now =
        .error fault := by
  obtain ⟨inline, -, finalized⟩ := awaited.finalize_eq library evidence result ids
  rw [finalized]
  cases checked : validatedEffectResult library (resultReceipt library effect.id ids.proposalRef
      ids.before ids.after run.id call.id proposal.capability result now) with
  | ok value =>
    exact absurd ((validatedEffectResult_resultReceipt library effect.id ids.proposalRef
      ids.before ids.after run.id call.id proposal.capability result now).mp checked).1 hidden
  | error fault =>
    refine ⟨fault, validatedEffectResult_fault library checked, ?_⟩
    unfold recordResult
    dsimp only
    unfold resultReceipt at checked
    rw [checked]
    rfl

/-- **Confirmed writes are recorded when they may be shown.**  In every state of every run, for
a claimed execution that holds its lease and whose Run waits for it or is its live inline parent:
the result of its provider is recorded as applied, with its evidence, exactly when the receipt of
the result may be shown; any other result is refused and nothing is written. -/
theorem confirmed_writes_recorded (settings : RunSettings) (actions : List RunAction)
    (awaited : AwaitedEffect settings.leaseTokenHash
      ((runStore settings).run RunTables.empty actions) claimed now effect proposal run segment
      call)
    (fresh : ∀ other ∈ ((runStore settings).run RunTables.empty actions).segments,
      other.id ≠ ids.segment) :
    let t := (runStore settings).run RunTables.empty actions
    let finalized :=
      finalizeEffectResult library settings.leaseTokenHash t evidence claimed result ids now
    (ReceiptPublishable library effect proposal run call result ids now ↔
      ∃ final, finalized = .ok final ∧
        RecordedEffect library evidence effect proposal run call result ids now final) ∧
    (¬ ReceiptPublishable library effect proposal run call result ids now →
      ∃ fault : Fault, fault.error = .valueError ∧ finalized = .error fault) := by
  intro t finalized
  have kept : WellKept t := wellKept_invariant.run wellKept_empty actions
  refine ⟨⟨awaited.records library evidence result ids kept fresh, ?_⟩,
    awaited.refuses library evidence result ids⟩
  rintro ⟨final, committed, -⟩
  by_contra hidden
  obtain ⟨fault, -, refused⟩ := awaited.refuses library evidence result ids hidden
  rw [show finalized = .error fault from refused] at committed
  cases committed

end Awaited

end Store

/-! ## Sample writes -/

/-- The Run waits for the insertion of a row, and a worker holds its lease. -/
def sampleInsertion : List RunAction :=
  sampleTurn ++
    [ .suspendForProposal firstClaim
        (.deferred ⟨1, 10, 30, 6, .changeProposed, none, none⟩ (some .primary))
        ⟨.databaseWrite, "INSERT", .resume, "key", "fp", "sum", 500⟩
        (.ok ⟨50, some 51, .postgres⟩) (.ok ()) (.ok ()) none "rh" ⟨60, 61, 62, 63, 64⟩ 100 100
    , sampleEffectClaim "t" 10 none 80 100 ]

def sampleClaimedEffect : ClaimedEffectExecution :=
  ⟨63, 61, 62, 1, 2, 10, 7, some 51, 50, .databaseWrite, "INSERT", "key", "fp", .postgres, "t", 110,
    1, none⟩

def sampleLeasedEffect : EffectExecution :=
  { id := 63
    proposalId := 61
    runId := 1
    approvalId := 62
    toolCallId := some 80
    status := .applying
    provider := .postgres
    providerVersion := "postgres-receipt/v1"
    idempotencyKey := "key"
    requestFingerprint := "fp"
    beforeRef := none
    afterRef := none
    error := none
    workerId := some "worker"
    leaseTokenHash := some "t"
    leaseExpiresAt := some 110
    attemptNo := 1 }

def sampleProposal : ChangeProposal :=
  { id := 61
    inlineOwner := none
    projectId := 7
    runId := 1
    runSegmentId := 2
    runAttemptId := 10
    agentSessionId := 40
    targetBindingId := 50
    integrationId := some 51
    capability := .databaseWrite
    operation := "INSERT"
    continuationMode := .resume
    idempotencyKey := "key"
    requestFingerprint := "fp"
    status := .applying
    version := 1
    checksum := "sum"
    expiresAt := 500 }

def sampleWaitingRun : Run :=
  { id := 1
    projectId := 7
    status := .waitingForApproval
    rowVersion := 4
    startedAt := some 100
    finishedAt := none
    error := none
    actorId := some 5
    limits := ⟨10, none⟩
    creationIntent := some ⟨5, true, false, false, true⟩ }

def sampleSegment : RunSegment :=
  ⟨2, 1, 1, .initial, none, .waiting, .initial, none, some 100, none⟩

def sampleToolCall : ToolCall := ⟨80, "fp", .databaseWrite, some 51, .running⟩

theorem sampleAwaited :
    AwaitedEffect id ((runStore sampleSettings).run RunTables.empty sampleInsertion)
      sampleClaimedEffect 105 sampleLeasedEffect sampleProposal sampleWaitingRun sampleSegment
      sampleToolCall where
  locked := by decide
  lockedRun := by decide
  lockedSegment := by decide
  leased := by decide
  waits := Or.inr ⟨by decide, rfl, by decide⟩
  called := by decide

def digestOf (digits : List Char) : HexDigest :=
  if valid : digits.length = 64 ∧ digits.all isHexDigit = true then ⟨digits, valid.1, valid.2⟩
  else ⟨hexDigits 0 64, length_hexDigits 0 64, hexDigits_hexadecimal 0 64⟩

/-- The digests of the texts below. -/
def sampleDigits (text : String) : String :=
  if text = "\x7b\"row\":null\x7d" then
    "bf81b472038bf5d73936e71cdbc75e038fd22e1ae7aec20895d4fcc7d69433f1"
  else if text = "\x7b\"row\":\x7b\"id\":7,\"title\":\"x\"\x7d\x7d" then
    "ab9800a29b2d6ebdd206763f70f5328dfd317c1bfff272d25feebc5ce304f3d1"
  else if text = "\x7b\"id\":7,\"title\":\"x\"\x7d" then
    "08b7180481311dfa3c117a2fd2832fb2d3cac96a3265b597c1c30e7247878651"
  else if text =
      "\x7b\"row\":\x7b\"id\":7,\"reset_token\":null,\"title\":\"x\"\x7d\x7d" then
    "701111ac163059aeefdbc64fc9ec4f50e484e921f1aedab46d23ca19e643f105"
  else if text = "\x7b\"id\":7,\"reset_token\":null,\"title\":\"x\"\x7d" then
    "bae33b7b102d763d99c0d31b09bf11fd93ffbca355a25532b6c638e56c6d08d5"
  else ""

def sampleLibrary : StandardLibrary where
  isalnum := Char.isAlphanum
  sha256 text := digestOf (sampleDigits text).toList

def sampleResult (row : List (String × Json)) : EffectProviderResult :=
  databaseResult sampleLibrary ⟨63, 51, "public.items", [("id", .number "7")], "sum"⟩
    ⟨none, row, false⟩

def sampleIds : ReceiptIds := ⟨70, 71, 72, 73⟩

/-- The insertion of a row with ordinary columns is recorded. -/
theorem confirmed_writes_recorded_sample :
    ∃ final, finalizeEffectResult sampleLibrary id
        ((runStore sampleSettings).run RunTables.empty sampleInsertion) [] sampleClaimedEffect
        (sampleResult [("id", .number "7"), ("title", .string "x")]) sampleIds 105 = .ok final ∧
      RecordedEffect sampleLibrary [] sampleLeasedEffect sampleProposal sampleWaitingRun
        sampleToolCall (sampleResult [("id", .number "7"), ("title", .string "x")]) sampleIds 105
        final := by
  refine (confirmed_writes_recorded sampleSettings sampleInsertion sampleAwaited
    (by decide)).1.mp ?_
  exact ⟨by decide +kernel, by decide +kernel, by decide +kernel⟩

/-- A table fills the column `reset_token` by a default.  The insertion was confirmed, and still
its result is refused; when the lease runs out, the execution ends as failed with an unknown
outcome. -/
theorem confirmed_write_refused :
    sampleClaimedEffect ∈ (effectClaims ((runStore sampleSettings).answers RunTables.empty
        sampleInsertion)).map Prod.snd ∧
      AwaitedEffect id ((runStore sampleSettings).run RunTables.empty sampleInsertion)
        sampleClaimedEffect 105 sampleLeasedEffect sampleProposal sampleWaitingRun sampleSegment
        sampleToolCall ∧
      (∃ fault, finalizeEffectResult sampleLibrary id
        ((runStore sampleSettings).run RunTables.empty sampleInsertion) [] sampleClaimedEffect
        (sampleResult [("id", .number "7"), ("reset_token", .null), ("title", .string "x")])
        sampleIds 105 = .error fault) ∧
      ∃ effect ∈ ((runStore sampleSettings).run RunTables.empty
          (sampleInsertion ++ [.recoverExpiredEffects 5 1 [90] 200])).effects,
        effect.id = sampleClaimedEffect.effectExecutionId ∧ effect.status = .failed ∧
          effectRequiresReconciliation effect.error := by
  refine ⟨by decide, sampleAwaited, ?_, by decide⟩
  obtain ⟨fault, -, refused⟩ := sampleAwaited.refuses sampleLibrary []
    (sampleResult [("id", .number "7"), ("reset_token", .null), ("title", .string "x")]) sampleIds
    fun publishable => absurd publishable.content (by decide)
  exact ⟨fault, refused⟩

end SkillMind.Runs
