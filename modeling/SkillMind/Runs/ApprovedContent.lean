import SkillMind.Effects.StoredProposal
import SkillMind.Documents.Binding
import SkillMind.Runs.EffectFencing

/-!
# What a worker gets to execute

The Run store keeps of a proposal what its transactions decide by; here its row has all columns,
the frozen bindings stand beside it, and a claim validates the row as the source does before it
hands the contents out.

The program writes the columns of a proposal when it is made and not again, and bindings change
on paths of their own.  Neither is relied on: between any two transactions the columns may be
rewritten and the bindings may change, so that what a claim hands out rests on its own checks.
-/

namespace SkillMind.Runs

open Library SkillMind.Core Effects

/-- The columns of `change_proposals` that the Run store leaves out. -/
structure ProposalColumns where
  proposalId : Uuid
  proposalRef : String
  skillVersionId : Uuid
  effectIntentKey : String
  target : List Char
  summary : String
  preview : List Char
  precondition : List Char
  evidenceRefs : List Char
  riskLevel : String
  reversible : Bool
  rollback : List Char
  verification : List Char
  checkpoint : List Char

def SessionContinuationMode.value : SessionContinuationMode → String
  | .initial => "INITIAL"
  | .resume => "RESUME"
  | .fork => "FORK"
  | .replace => "REPLACE"
  | .branch => "BRANCH"

def rowOf (proposal : ChangeProposal) (columns : ProposalColumns) : ProposalRow where
  id := proposal.id
  proposalRef := columns.proposalRef
  place :=
    { projectId := proposal.projectId, runId := proposal.runId,
      runSegmentId := proposal.runSegmentId, agentSessionId := proposal.agentSessionId,
      skillVersionId := columns.skillVersionId, targetBindingId := proposal.targetBindingId,
      integrationId := proposal.integrationId }
  runAttemptId := proposal.runAttemptId
  effectIntentKey := columns.effectIntentKey
  capabilityVersion := proposal.capability.version
  operation := proposal.operation
  target := columns.target
  summary := columns.summary
  preview := columns.preview
  precondition := columns.precondition
  evidenceRefs := columns.evidenceRefs
  riskLevel := columns.riskLevel
  reversible := columns.reversible
  rollback := columns.rollback
  verification := columns.verification
  continuationMode := proposal.continuationMode.value
  checkpoint := columns.checkpoint
  idempotencyKey := proposal.idempotencyKey
  requestFingerprint := proposal.requestFingerprint
  version := proposal.version
  checksum := proposal.checksum
  expiresAt := proposal.expiresAt

structure EffectStore where
  runs : RunTables
  columns : List ProposalColumns
  world : ProposalWorld

def columnsOf (s : EffectStore) (proposal : ChangeProposal) : Option ProposalColumns :=
  s.columns.find? fun columns => columns.proposalId = proposal.id

/-- What a worker gets: the claim, and the contents of its proposal. -/
structure ExecutableEffect where
  claimed : ClaimedEffectExecution
  proposalRef : String
  target : List (String × Json)
  changes : List (List (String × Json))
  precondition : List (String × Json)
  verification : List (String × Json)

structure ContentSettings where
  runs : RunSettings
  library : StandardLibrary
  unicode : Documents.UnicodeTables
  isoformat : Timestamp → String
  contracts : String → Option EffectContract
  /-- The provider that a text in a binding names. -/
  provider : String → Option EffectProvider

section Store

variable (settings : ContentSettings)

/-- `_validate_proposal_row`, and the binding that the claim reads behind it.  The provider of the
Integration is that of its binding, as the validation has checked. -/
def checkedResource (s : EffectStore) (effectId : Uuid) : Except Fault BoundResource := do
  let (effect, proposal) ← lockEffect s.runs effectId
  let run ← orFault ⟨.runNotFoundError, "EffectExecution Run not found"⟩
    (lockRunRow s.runs effect.runId)
  let columns ← orFault ⟨.noResultFound, "No row was found when one was required"⟩
    (columnsOf s proposal)
  let _ ← (validateProposalRow settings.library settings.unicode settings.isoformat
    settings.contracts s.world run.id run.projectId (rowOf proposal columns)).mapError
      fun fault => proposalInvalid fault.message
  let binding ← orFault (effectLeaseInvalid "Effect execution snapshot is incomplete")
    (getBinding s.world proposal.targetBindingId)
  let provider ← orFault (effectLeaseInvalid "Effect execution snapshot is incomplete")
    (settings.provider binding.provider)
  return ⟨binding.id, binding.integrationId, provider⟩

def boundProvider (s : EffectStore) (effectId : Uuid) : Option EffectProvider :=
  match lockEffect s.runs effectId with
  | .ok (_, proposal) =>
    (getBinding s.world proposal.targetBindingId).bind fun binding =>
      settings.provider binding.provider
  | .error _ => none

def previewChanges (preview : List (String × Json)) : List (List (String × Json)) :=
  match Documents.member preview "changes" with
  | some (.array items) => items.filterMap asObject
  | _ => []

/-- The contents of a claimed proposal, as its columns have them. -/
def executableOf (s : EffectStore) (effectId : Uuid) (claimed : ClaimedEffectExecution) :
    Except Fault ExecutableEffect := do
  let (_, proposal) ← lockEffect s.runs effectId
  let unreadable := effectLeaseInvalid "Effect execution snapshot is incomplete"
  let columns ← orFault unreadable (columnsOf s proposal)
  let target ← orFault unreadable (objectColumn columns.target)
  let preview ← orFault unreadable (objectColumn columns.preview)
  let precondition ← orFault unreadable (objectColumn columns.precondition)
  let verification ← orFault unreadable (objectColumn columns.verification)
  return {
    claimed := claimed
    proposalRef := columns.proposalRef
    target := target
    changes := previewChanges preview
    precondition := precondition
    verification := verification }

/-- `claim_effect_execution`. -/
def claimContent (s : EffectStore) (request : EffectClaimRequest) (ids : EffectClaimIds)
    (now later : Timestamp) : Except Fault (Option ExecutableEffect × EffectStore) := do
  let (claimed, runs) ← claimEffectExecution settings.runs.features settings.runs.leaseTokenHash
    s.runs request (boundProvider settings s request.effectExecutionId)
    (checkedResource settings s request.effectExecutionId) ids now later
  match claimed with
  | none => return (none, { s with runs })
  | some claimed => do
    let effect ← executableOf s request.effectExecutionId claimed
    return (some effect, { s with runs })

/-! ## The store -/

def RunAction.claimsEffect : RunAction → Bool
  | .claimEffectExecution .. => true
  | _ => false

inductive EffectAction where
  | run (action : RunAction) (other : action.claimsEffect = false)
  | claim (request : EffectClaimRequest) (ids : EffectClaimIds) (now later : Timestamp)
  /-- The columns of all proposals, as they stand from now on. -/
  | write (columns : List ProposalColumns)
  /-- The bindings and what else the checks read, as they stand from now on. -/
  | change (world : ProposalWorld)

inductive EffectAnswer where
  | done
  | ran (answer : RunAnswer)
  | claimed (effect : Option ExecutableEffect)

def execEffect (action : EffectAction) (s : EffectStore) :
    Except Fault (EffectAnswer × EffectStore) :=
  match action with
  | .run action _ => do
    let (answer, runs) ← execRun settings.runs action s.runs
    return (.ran answer, { s with runs })
  | .claim request ids now later =>
    answering .claimed (claimContent settings s request ids now later)
  | .write columns => .ok (.done, { s with columns })
  | .change world => .ok (.done, { s with world })

def effectStore : TransactionSystem EffectStore EffectAction EffectAnswer Fault :=
  ⟨execEffect settings⟩

end Store

def EffectStore.empty : EffectStore where
  runs := RunTables.empty
  columns := []
  world := ⟨[], [], [], [], [], fun _ => false, fun _ => none⟩

section Content

variable (settings : ContentSettings)

structure ContentRecorded (s : EffectStore) (proposal : ChangeProposal)
    (columns : ProposalColumns) (binding : EffectBinding) (draft : ProposalDraft) : Prop where
  stored : columnsOf s proposal = some columns
  bound : getBinding s.world proposal.targetBindingId = some binding
  read : rowDraft (rowOf proposal columns) binding.requirementKey = some draft
  checksum : proposal.checksum = proposalChecksum settings.library
    (contentOf settings.isoformat (rowOf proposal columns).place draft proposal.version)

/-- The stored row is the one its checksum was taken of, as far as a checksum can tell. -/
def Intact (s : EffectStore) (proposal : ChangeProposal) : Prop :=
  ∃ columns binding draft, ContentRecorded settings s proposal columns binding draft

variable {settings} {s s' : EffectStore}

theorem validateProposalRow_recorded {runId projectId : Uuid} {proposal : ChangeProposal}
    {columns : ProposalColumns} {payload : List (String × Json)}
    (stored : columnsOf s proposal = some columns)
    (valid : validateProposalRow settings.library settings.unicode settings.isoformat
      settings.contracts s.world runId projectId (rowOf proposal columns) = .ok payload) :
    ∃ binding draft, ContentRecorded settings s proposal columns binding draft := by
  simp only [validateProposalRow, bind_eq_ok, orFault_eq_ok, require_eq_ok, exists_unit] at valid
  obtain ⟨binding, bound, -, _, -, draft, read, checksum, -⟩ := valid
  exact ⟨binding, draft, ⟨stored, bound, read, checksum⟩⟩

theorem checkedResource_recorded {effectId : Uuid} {resource : BoundResource}
    (checked : checkedResource settings s effectId = .ok resource) :
    ∃ effect proposal columns binding draft,
      lockEffect s.runs effectId = .ok (effect, proposal) ∧
        ContentRecorded settings s proposal columns binding draft := by
  simp only [checkedResource, bind_eq_ok, Prod.exists, orFault_eq_ok, mapError_eq_ok] at checked
  obtain ⟨effect, proposal, locked, run, -, columns, stored, payload, valid, -⟩ := checked
  obtain ⟨binding, draft, recorded⟩ := validateProposalRow_recorded stored valid
  exact ⟨effect, proposal, columns, binding, draft, locked, recorded⟩

theorem filterMap_of_mapM {items : List Json} {objects : List (List (String × Json))}
    (all : items.mapM asObject = some objects) : items.filterMap asObject = objects := by
  induction items generalizing objects with
  | nil =>
    cases all
    rfl
  | cons item rest ih =>
    simp only [List.mapM_cons, Option.bind_eq_bind, Option.bind_eq_some_iff] at all
    obtain ⟨first, read, more, rest', same⟩ := all
    cases same
    rw [List.filterMap_cons_some read, ih rest']

theorem previewChanges_of {preview : List (String × Json)}
    {changes : List (List (String × Json))} (all : objectsAt preview "changes" = some changes) :
    previewChanges preview = changes := by
  simp only [objectsAt, Option.bind_eq_bind, Option.bind_eq_some_iff] at all
  obtain ⟨items, found, read⟩ := all
  have present : Documents.member preview "changes" = some (.array items) := by
    rw [itemsAt] at found
    cases here : Documents.member preview "changes" with
    | none =>
      rw [here] at found
      cases found
    | some value =>
      rw [here] at found
      cases value <;> cases found
      rfl
  rw [previewChanges, present]
  exact filterMap_of_mapM read

theorem executableOf_draft {effectId : Uuid} {claimed : ClaimedEffectExecution}
    {effect : EffectExecution} {proposal : ChangeProposal} {columns : ProposalColumns}
    {binding : EffectBinding} {draft : ProposalDraft} {executable : ExecutableEffect}
    (locked : lockEffect s.runs effectId = .ok (effect, proposal))
    (recorded : ContentRecorded settings s proposal columns binding draft)
    (handed : executableOf s effectId claimed = .ok executable) :
    executable.claimed = claimed ∧ executable.target = draft.target ∧
      executable.changes = draft.changes ∧ executable.precondition = draft.precondition ∧
      executable.verification = draft.verification ∧ proposal.operation = draft.operation := by
  simp only [executableOf, locked, ok_bind, bind_eq_ok, orFault_eq_ok, recorded.stored,
    Option.some.injEq, pure_eq_ok] at handed
  obtain ⟨_, rfl, target, targetRead, preview, previewRead, precondition, preconditionRead,
    verification, verificationRead, rfl⟩ := handed
  have read := recorded.read
  simp only [rowDraft, rowOf, targetRead, previewRead, preconditionRead, verificationRead,
    Option.bind_eq_bind, Option.bind_some, Option.bind_eq_some_iff] at read
  obtain ⟨changes, changesRead, _, -, _, -, _, -, _, -, same⟩ := read
  cases same
  exact ⟨rfl, rfl, previewChanges_of changesRead, rfl, rfl, rfl⟩

end Content

section Claims

variable {features : ExecutionFeatures} {hash : String → String} {t t' : RunTables}

theorem requireEffectApproval_eq_ok {run : Run} {proposal : ChangeProposal}
    {effect : EffectExecution} {approval : ChangeApproval}
    (approved : requireEffectApproval t run proposal effect = .ok approval) :
    approval ∈ t.approvals ∧ approval.id = effect.approvalId ∧ approval.covers proposal := by
  simp only [requireEffectApproval, bind_eq_ok, orFault_eq_ok, require_eq_ok, exists_unit]
    at approved
  obtain ⟨found, known, covers, rest⟩ := approved
  have same : found = approval := by
    split at rest
    · simp only [bind_eq_ok, require_eq_ok, exists_unit, pure_eq_ok] at rest
      obtain ⟨_, -, -, same⟩ := rest
      exact same
    · simpa using rest
  rw [← same]
  exact ⟨List.mem_of_find?_eq_some known, by simpa using List.find?_some known, covers⟩

theorem refuseEffect_none {run : Run} {segment : RunSegment} {proposal : ChangeProposal}
    {effect : EffectExecution} {status : EffectExecutionStatus} {code : String} {segmentId : Uuid}
    {now : Timestamp} {answer : Option ClaimedEffectExecution}
    (committed : refuseEffect t run segment proposal effect status code segmentId now =
      .ok (answer, t')) : answer = none := by
  simp only [refuseEffect, bind_eq_ok, pure_eq_ok, Prod.mk.injEq] at committed
  obtain ⟨_, -, rfl, -⟩ := committed
  rfl

theorem leaseEffect_rests {run : Run} {segment : RunSegment} {proposal : ChangeProposal}
    {effect : EffectExecution} {request : EffectClaimRequest}
    {resource : Except Fault BoundResource} {ids : EffectClaimIds} {now later : Timestamp}
    {answer : Option ClaimedEffectExecution}
    (committed : leaseEffect hash t run segment proposal effect request resource ids now later =
      .ok (answer, t')) :
    (answer = none ∧ (isCancellationRequested t = true ∨ proposal.expiresAt ≤ now)) ∨
      ∃ approval bound, requireEffectApproval t run proposal effect = .ok approval ∧
        resource = .ok bound ∧ ∀ claimed, answer = some claimed →
          claimed.approvalId = approval.id ∧ claimed.proposalId = proposal.id ∧
            claimed.operation = proposal.operation := by
  simp only [leaseEffect] at committed
  split at committed
  · rename_i cancelled
    exact Or.inl ⟨refuseEffect_none committed, Or.inl cancelled⟩
  · split at committed
    · rename_i expired
      exact Or.inl ⟨refuseEffect_none committed, Or.inr expired⟩
    · simp only [bind_eq_ok, orFault_eq_ok, require_eq_ok, exists_unit] at committed
      obtain ⟨approval, approved, bound, valid, _, -, -, committed⟩ := committed
      refine Or.inr ⟨approval, bound, approved, valid, ?_⟩
      intro claimed same
      subst same
      split at committed
      · cases refuseEffect_none committed
      · simp only [bind_eq_ok, Prod.exists] at committed
        obtain ⟨_, _, -, committed⟩ := committed
        split at committed
        · cases refuseEffect_none committed
        · simp only [pure_eq_ok, Prod.mk.injEq, Option.some.injEq] at committed
          obtain ⟨rfl, -⟩ := committed
          exact ⟨rfl, rfl, rfl⟩

theorem claimEffectExecution_rests {request : EffectClaimRequest}
    {binding : Option EffectProvider} {resource : Except Fault BoundResource}
    {ids : EffectClaimIds} {now later : Timestamp} {answer : Option ClaimedEffectExecution}
    (committed : claimEffectExecution features hash t request binding resource ids now later =
      .ok (answer, t')) :
    ∃ effect proposal, lockEffect t request.effectExecutionId = .ok (effect, proposal) ∧
      ((answer = none ∧ (t' = t ∨ isCancellationRequested t = true ∨
          proposal.expiresAt ≤ now)) ∨
        ∃ approval bound, approval ∈ t.approvals ∧ approval.covers proposal ∧
          resource = .ok bound ∧ ∀ claimed, answer = some claimed →
            claimed.approvalId = approval.id ∧ claimed.proposalId = proposal.id ∧
              claimed.operation = proposal.operation) := by
  simp only [claimEffectExecution, bind_eq_ok, require_eq_ok, exists_unit, Prod.exists]
    at committed
  obtain ⟨-, effect, proposal, locked, run, -, segment, -, committed⟩ := committed
  refine ⟨effect, proposal, locked, ?_⟩
  split at committed
  · obtain ⟨rfl, rfl⟩ := Prod.mk.inj (Except.ok.inj committed)
    exact Or.inl ⟨rfl, Or.inl rfl⟩
  · simp only [bind_eq_ok, exists_unit] at committed
    obtain ⟨-, committed⟩ := committed
    split at committed
    · obtain ⟨rfl, rfl⟩ := Prod.mk.inj (Except.ok.inj committed)
      exact Or.inl ⟨rfl, Or.inl rfl⟩
    · split at committed
      · obtain ⟨rfl, rfl⟩ := Prod.mk.inj (Except.ok.inj committed)
        exact Or.inl ⟨rfl, Or.inl rfl⟩
      · simp only [bind_eq_ok, require_eq_ok, exists_unit] at committed
        obtain ⟨-, -, leased⟩ := committed
        rcases leaseEffect_rests leased with ⟨none, reason⟩ | ⟨approval, bound, approved, valid,
          named⟩
        · exact Or.inl ⟨none, Or.inr reason⟩
        · obtain ⟨known, -, covers⟩ := requireEffectApproval_eq_ok approved
          exact Or.inr ⟨approval, bound, known, covers, valid, named⟩

end Claims

section Main

variable {settings : ContentSettings}

/-- The effect is handed out under an approval of its proposal, and what it carries belongs to a
content with the checksum that the approval has. -/
structure Approved (settings : ContentSettings) (s : EffectStore)
    (executable : ExecutableEffect) : Prop where
  approved : ∃ approval ∈ s.runs.approvals, approval.id = executable.claimed.approvalId ∧
    approval.proposalId = executable.claimed.proposalId ∧ approval.decision = .approved ∧
    ∃ place draft version,
      approval.proposalChecksum = proposalChecksum settings.library
        (contentOf settings.isoformat place draft version) ∧
      executable.target = draft.target ∧ executable.changes = draft.changes ∧
      executable.precondition = draft.precondition ∧
      executable.verification = draft.verification ∧
      executable.claimed.operation = draft.operation

theorem claimContent_spec {s s' : EffectStore} {request : EffectClaimRequest}
    {ids : EffectClaimIds} {now later : Timestamp} {answer : Option ExecutableEffect}
    (committed : claimContent settings s request ids now later = .ok (answer, s')) :
    (∀ executable, answer = some executable → Approved settings s executable) ∧
      ∃ effect proposal, lockEffect s.runs request.effectExecutionId = .ok (effect, proposal) ∧
        (Intact settings s proposal ∨ (answer = none ∧
          (s' = s ∨ isCancellationRequested s.runs = true ∨ proposal.expiresAt ≤ now))) := by
  simp only [claimContent, bind_eq_ok, Prod.exists] at committed
  obtain ⟨claimed, runs, claims, committed⟩ := committed
  obtain ⟨effect, proposal, locked, rests⟩ := claimEffectExecution_rests claims
  rcases rests with ⟨rfl, reason⟩ | ⟨approval, bound, known, covers, valid, named⟩
  · obtain ⟨rfl, rfl⟩ := Prod.mk.inj (Except.ok.inj committed)
    refine ⟨fun executable same => (by cases same), effect, proposal, locked, Or.inr ⟨rfl, ?_⟩⟩
    rcases reason with rfl | reason
    · exact Or.inl rfl
    · exact Or.inr reason
  · obtain ⟨effect', proposal', columns, binding, draft, locked', recorded⟩ :=
      checkedResource_recorded valid
    obtain ⟨rfl, rfl⟩ := Prod.mk.inj (Except.ok.inj (locked.symm.trans locked'))
    refine ⟨?_, effect, proposal, locked, Or.inl ⟨columns, binding, draft, recorded⟩⟩
    intro executable same
    cases claimed with
    | none =>
      obtain ⟨rfl, -⟩ := Prod.mk.inj (Except.ok.inj committed)
      cases same
    | some claimed =>
      simp only [bind_eq_ok, pure_eq_ok, Prod.mk.injEq] at committed
      obtain ⟨handed, read, rfl, -⟩ := committed
      cases same
      obtain ⟨sameClaim, target, changes, precondition, verification, operation⟩ :=
        executableOf_draft locked recorded read
      obtain ⟨approvalId, proposalId, sameOperation⟩ := named claimed rfl
      obtain ⟨ofProposal, decision, -, checksum⟩ := covers
      refine ⟨approval, known, ?_, ?_, decision, _, draft, proposal.version,
        checksum.trans recorded.checksum, target, changes, precondition, verification, ?_⟩
      · rw [sameClaim]
        exact approvalId.symm
      · rw [sameClaim, proposalId]
        exact ofProposal
      · rw [sameClaim, sameOperation]
        exact operation

/-- **Wherever a run of the store has arrived, a claim hands out what was approved, and nothing
of a row that differs from its checksum**: such a claim raises and leaves the store as it was,
unless it ended before the row was read, where a cancelled or expired effect is closed. -/
theorem approved_content_executed (settings : ContentSettings) (actions : List EffectAction)
    (request : EffectClaimRequest) (ids : EffectClaimIds) (now later : Timestamp)
    (answer : Option ExecutableEffect) (s' : EffectStore)
    (committed : (effectStore settings).exec (.claim request ids now later)
      ((effectStore settings).run EffectStore.empty actions) = .ok (.claimed answer, s')) :
    (∀ executable, answer = some executable →
      Approved settings ((effectStore settings).run EffectStore.empty actions) executable) ∧
      ∃ effect proposal,
        lockEffect ((effectStore settings).run EffectStore.empty actions).runs
          request.effectExecutionId = .ok (effect, proposal) ∧
        (¬ Intact settings ((effectStore settings).run EffectStore.empty actions) proposal →
          answer = none ∧
            (s' = (effectStore settings).run EffectStore.empty actions ∨
              isCancellationRequested
                ((effectStore settings).run EffectStore.empty actions).runs = true ∨
              proposal.expiresAt ≤ now)) := by
  simp only [effectStore, execEffect, answering_eq_ok, EffectAnswer.claimed.injEq] at committed
  obtain ⟨_, claims, rfl⟩ := committed
  obtain ⟨handed, effect, proposal, locked, ended⟩ := claimContent_spec claims
  refine ⟨handed, effect, proposal, locked, fun differs => ?_⟩
  rcases ended with intact | refused
  · exact absurd intact differs
  · exact refused

end Main

def contentBinding : EffectBinding :=
  let row : EffectBinding := ⟨50, 7, some 1, some 51, "RUN", uuidText 1, "database",
    "integration", "postgres", "database.execute/v1", "1", [], "", none⟩
  { row with checksum := bindingChecksum Documents.zeroLibrary row }

def contentSettings : ContentSettings where
  runs := sampleSettings
  library := Documents.zeroLibrary
  unicode := Documents.asciiTables
  isoformat _ := "1970-01-01T00:08:20+00:00"
  contracts _ := some ⟨["postgres"], fun _ _ _ => .ok []⟩
  provider text := if text = "postgres" then some .postgres else none

def contentColumns (target : String) : ProposalColumns where
  proposalId := 61
  proposalRef := "cp_61"
  skillVersionId := 3
  effectIntentKey := "write"
  target := target.toList
  summary := "Insert a row"
  preview := "\x7b\"changes\":[\x7b\"path\":\"/id\",\"value\":7\x7d]\x7d".toList
  precondition := "\x7b\x7d".toList
  evidenceRefs := "[]".toList
  riskLevel := "HIGH"
  reversible := false
  rollback := "\x7b\x7d".toList
  verification := "\x7b\"read\":true\x7d".toList
  checkpoint := "\x7b\x7d".toList

/-- A write is proposed under the consent of the Run, and its row is stored. -/
def contentRun (target : String) : List EffectAction :=
  [ .run sampleCreation rfl
  , .run (sampleRunClaim "a" 10) rfl
  , .run (.prepareExecution firstClaim 100) rfl
  , .run (.appendAgentEvent firstClaim ⟨1, 10, 30, 5, .sessionStarted, none, none⟩ .primary 40 100)
      rfl
  , .run (.suspendForProposal firstClaim
      (.deferred ⟨1, 10, 30, 6, .changeProposed, none, none⟩ (some .primary))
      { sampleDraft with
        checksum := String.ofList ("sha256:".toList ++ Documents.zeroDigest.digits) }
      (.ok ⟨50, some 51, .postgres⟩) (.ok ()) (.ok ()) none "rh" ⟨60, 61, 62, 63, 64⟩ 100 100) rfl
  , .write [contentColumns target]
  , .change ⟨[contentBinding],
      [⟨51, 7, "ACTIVE", "postgres", 1, ["database.execute/v1"], []⟩], [], [], [],
      fun _ => false, fun _ => none⟩ ]

def contentClaim : EffectClaimRequest := ⟨63, "worker", "t", 10, 3, none⟩

/-- The approved write, and one whose row was rewritten to no object. -/
def intactRun : List EffectAction := contentRun "\x7b\"table\":\"items\"\x7d"

def rewrittenRun : List EffectAction := contentRun "[]"

/-- The approved write is handed out. -/
theorem approved_content_executed_sample :
    ∃ executable, Approved contentSettings
      ((effectStore contentSettings).run EffectStore.empty intactRun)
        executable := by
  have handed : ((claimContent contentSettings
      ((effectStore contentSettings).run EffectStore.empty intactRun)
      contentClaim ⟨80, 81⟩ 100 100).toOption.map fun result => result.1.isSome) = some true := by
    decide +kernel
  rw [Option.map_eq_some_iff] at handed
  obtain ⟨⟨answer, s'⟩, read, given⟩ := handed
  obtain ⟨executable, rfl⟩ := Option.isSome_iff_exists.mp given
  have claimed : claimContent contentSettings
      ((effectStore contentSettings).run EffectStore.empty intactRun)
      contentClaim ⟨80, 81⟩ 100 100 = .ok (some executable, s') := by
    cases outcome : claimContent contentSettings
        ((effectStore contentSettings).run EffectStore.empty intactRun)
        contentClaim ⟨80, 81⟩ 100 100 with
    | error fault =>
      rw [outcome] at read
      cases read
    | ok result =>
      rw [outcome] at read
      cases read
      rfl
  have committed : (effectStore contentSettings).exec (.claim contentClaim ⟨80, 81⟩ 100 100)
      ((effectStore contentSettings).run EffectStore.empty intactRun) =
      .ok (.claimed (some executable), s') := by
    simp only [effectStore, execEffect]
    rw [answering_eq_ok]
    exact ⟨_, claimed, rfl⟩
  exact ⟨executable, (approved_content_executed contentSettings intactRun
    contentClaim ⟨80, 81⟩ 100 100 (some executable) s' committed).1 executable rfl⟩

/-- A row that differs from its checksum is not always left alone: the claim of an expired effect
closes it before it reads the row. -/
theorem rewritten_effect_closed :
    (∀ proposal, ¬ Intact contentSettings
        ((effectStore contentSettings).run EffectStore.empty rewrittenRun) proposal) ∧
      ∃ answer s', (effectStore contentSettings).exec (.claim contentClaim ⟨80, 81⟩ 600 600)
          ((effectStore contentSettings).run EffectStore.empty rewrittenRun) = .ok (answer, s') ∧
        s'.runs ≠ ((effectStore contentSettings).run EffectStore.empty rewrittenRun).runs := by
  constructor
  · rintro proposal ⟨columns, binding, draft, recorded⟩
    have targets : ((effectStore contentSettings).run EffectStore.empty rewrittenRun).columns.map
        ProposalColumns.target = ["[]".toList] := by decide +kernel
    have known : columns ∈
        ((effectStore contentSettings).run EffectStore.empty rewrittenRun).columns :=
      List.mem_of_find?_eq_some recorded.stored
    have target : columns.target = "[]".toList := by
      have mem := List.mem_map_of_mem (f := ProposalColumns.target) known
      rw [targets] at mem
      exact List.mem_singleton.mp mem
    have unread : objectColumn columns.target = none := by
      rw [target]
      decide +kernel
    have read := recorded.read
    simp only [rowDraft, rowOf, unread, Option.bind_eq_bind, Option.bind_none,
      reduceCtorEq] at read
  · have closed : ((effectStore contentSettings).exec (.claim contentClaim ⟨80, 81⟩ 600 600)
        ((effectStore contentSettings).run EffectStore.empty rewrittenRun)).toOption.any
          (fun result => decide (result.2.runs ≠
            ((effectStore contentSettings).run EffectStore.empty rewrittenRun).runs)) = true := by
      decide +kernel
    cases outcome : (effectStore contentSettings).exec (.claim contentClaim ⟨80, 81⟩ 600 600)
        ((effectStore contentSettings).run EffectStore.empty rewrittenRun) with
    | error fault =>
      rw [outcome] at closed
      cases closed
    | ok result =>
      rw [outcome] at closed
      exact ⟨result.1, result.2, rfl, of_decide_eq_true closed⟩

end SkillMind.Runs
