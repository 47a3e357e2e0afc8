import SkillMind.Agent.ToolGateway
import SkillMind.Documents.Binding

/-!
# A tool call is executed once

Only the transaction that adds the row of a call hands out a lease that authorizes an execution,
and such a lease is in one place at a time: granted, queued, or with the invocation that took it,
which spends it when it calls the provider. Counting these places and the executions of one row
bounds the executions by the rows, whatever order the steps of all gateways have.
-/

namespace SkillMind.Agent

open Library SkillMind.Core
open Runs (Uuid)

variable {settings : GatewaySettings} {library : StandardLibrary} {claim : WorkerClaim}
  {audit audit' audit'' : AuditTables} {s s' : GatewayState}

/-! ## The audit -/

def ToolCallRow.frozen (call : ToolCallRow) : ToolCallRow :=
  { call with status := .running, durationMs := none, result := none, error := none }

/-- **What becomes of a row**: it ends once, and then it is kept; a result is written when it
succeeds, where there was none. -/
structure CallStep (call call' : ToolCallRow) : Prop where
  frozen : call'.frozen = call.frozen
  ended : call.status ≠ .running → call' = call
  result : call'.result = call.result ∨ (call.result = none ∧ call'.status = .succeeded)

/-- Rows go forward, and decisions are added. -/
structure AuditStep (audit audit' : AuditTables) : Prop where
  calls : Evolves CallStep (fun _ => True) audit.calls audit'.calls
  decisions : audit.decisions <+: audit'.decisions

theorem CallStep.refl (call : ToolCallRow) : CallStep call call := ⟨rfl, fun _ => rfl, .inl rfl⟩

variable {call : ToolCallRow}

theorem CallStep.id {call' : ToolCallRow} (step : CallStep call call') :
    call'.id = call.id := (congrArg ToolCallRow.id step.frozen :)

theorem AuditStep.refl (audit : AuditTables) : AuditStep audit audit :=
  ⟨Evolves.refl CallStep.refl _, List.prefix_refl _⟩

structure AuditKept (audit : AuditTables) : Prop where
  ids : Keyed ToolCallRow.id audit.calls
  uses : Keyed (fun call => (call.runId, call.sdkToolUseId)) audit.calls
  results : ∀ call ∈ audit.calls, call.status ≠ .succeeded → call.result = none

/-- How a transaction writes the audit: a row is added with its decision, or a running one ends. -/
inductive AuditWrite (audit : AuditTables) : AuditTables → Prop where
  | none : AuditWrite audit audit
  | added {call : ToolCallRow} {decision : PermissionOutcome} {reason : String}
      (fresh : ∀ other ∈ audit.calls, other.id ≠ call.id ∧
        ¬ (other.runId = call.runId ∧ other.sdkToolUseId = call.sdkToolUseId))
      (empty : call.result = none) :
      AuditWrite audit ⟨audit.calls ++ [call],
        audit.decisions ++ [⟨call.id, decision, reason, call.requestFingerprint⟩]⟩
  | ended {call call' : ToolCallRow} (known : call ∈ audit.calls) (step : CallStep call call')
      (results : call'.status ≠ .succeeded → call'.result = none) :
      AuditWrite audit { audit with calls := replaceRow ToolCallRow.id call' audit.calls }

theorem AuditWrite.step (write : AuditWrite audit audit') (kept : AuditKept audit) :
    AuditStep audit audit' := by
  cases write with
  | none => exact .refl _
  | added => exact ⟨Evolves.add CallStep.refl trivial, List.prefix_append _ _⟩
  | ended known step _ =>
    exact ⟨Evolves.replace kept.ids CallStep.refl known step.id.symm step, List.prefix_refl _⟩

theorem AuditKept.uses_replaced (kept : AuditKept audit) {call call' : ToolCallRow}
    (known : call ∈ audit.calls) (step : CallStep call call') :
    Keyed (fun call : ToolCallRow => (call.runId, call.sdkToolUseId))
      (replaceRow ToolCallRow.id call' audit.calls) := by
  have columns : (replaceRow ToolCallRow.id call' audit.calls).map
      (fun call => (call.runId, call.sdkToolUseId)) =
        audit.calls.map fun call => (call.runId, call.sdkToolUseId) :=
    map_column_replaceRow kept.ids known step.id.symm
      (congrArg (fun row : ToolCallRow => (row.runId, row.sdkToolUseId)) step.frozen :)
  unfold Keyed
  rw [columns]
  exact kept.uses

theorem AuditWrite.kept (write : AuditWrite audit audit') (kept : AuditKept audit) :
    AuditKept audit' := by
  cases write with
  | none => exact kept
  | @added call decision reason fresh empty =>
    refine ⟨?_, ?_, fun other mem failed => ?_⟩
    · refine keyed_append.mpr ⟨kept.ids, ?_, fun other known new mem => ?_⟩
      · exact List.nodup_singleton _
      · rw [List.mem_singleton.mp mem]
        exact (fresh other known).1
    · refine keyed_append.mpr ⟨kept.uses, ?_, fun other known new mem same => ?_⟩
      · exact List.nodup_singleton _
      · rw [List.mem_singleton.mp mem] at same
        exact (fresh other known).2 (Prod.mk.inj same)
    · rcases List.mem_append.mp mem with old | new
      · exact kept.results other old failed
      · rw [List.mem_singleton.mp new]
        exact empty
  | @ended call call' known step results =>
    refine ⟨kept.ids.replaceRow _, ?_, fun other mem failed => ?_⟩
    · exact kept.uses_replaced known step
    · rcases mem_replaceRow mem with ⟨rfl, -⟩ | ⟨old, -⟩
      · exact results failed
      · exact kept.results other old failed

def AuditTables.rows (audit : AuditTables) (id : Uuid) : Nat :=
  audit.calls.countP fun call => call.id == id

theorem AuditTables.rows_eq (audit : AuditTables) (id : Uuid) :
    audit.rows id = (audit.calls.map ToolCallRow.id).count id := by
  rw [AuditTables.rows, List.count, List.countP_map]
  rfl

theorem AuditKept.rows_le (kept : AuditKept audit) (id : Uuid) : audit.rows id ≤ 1 := by
  rw [audit.rows_eq]
  exact List.nodup_iff_count_le_one.mp kept.ids id

theorem AuditStep.rows (step : AuditStep audit audit') (id : Uuid) :
    audit.rows id ≤ audit'.rows id := by
  have column : audit.calls.map ToolCallRow.id <+: audit'.calls.map ToolCallRow.id :=
    step.calls.column fun _ _ => CallStep.id
  rw [audit.rows_eq, audit'.rows_eq]
  exact column.sublist.count_le id

structure LeaseKept (library : StandardLibrary) (audit : AuditTables) (lease : ToolAuditLease) :
    Prop where
  fingerprint : lease.invocation.requestFingerprint =
    invocationFingerprint library lease.invocation.tool.sdkName lease.invocation.arguments
  row : ∃ call ∈ audit.calls, call.id = lease.toolCallId ∧ SameCall call lease.invocation ∧
    (lease.status = .succeeded → call.status = .succeeded ∧ call.result = lease.result)
  authorizes : lease.isNew = true → lease.status = .running ∧
    ∃ decision ∈ audit.decisions, decision.toolCallId = lease.toolCallId ∧
      decision.decision = .autoAllow ∧
      decision.requestFingerprint = lease.invocation.requestFingerprint

variable {invocation : ToolInvocation}

theorem SameCall.later {call' : ToolCallRow}
    (same : SameCall call invocation) (frozen : call'.frozen = call.frozen) :
    SameCall call' invocation where
  run := (congrArg ToolCallRow.runId frozen :).trans same.run
  session := (congrArg ToolCallRow.agentSessionId frozen :).trans same.session
  toolUse := (congrArg ToolCallRow.sdkToolUseId frozen :).trans same.toolUse
  tool := (congrArg ToolCallRow.toolName frozen :).trans same.tool
  capability := (congrArg ToolCallRow.capability frozen :).trans same.capability
  provider := (congrArg ToolCallRow.provider frozen :).trans same.provider
  integration := (congrArg ToolCallRow.integrationId frozen :).trans same.integration
  fingerprint := (congrArg ToolCallRow.requestFingerprint frozen :).trans same.fingerprint
  resource named := (congrArg ToolCallRow.resource frozen :).trans (same.resource named)

variable {lease : ToolAuditLease}

theorem LeaseKept.later (kept : LeaseKept library audit lease)
    (step : AuditStep audit audit') : LeaseKept library audit' lease := by
  obtain ⟨call, known, same, sameCall, saved⟩ := kept.row
  obtain ⟨call', known', took⟩ := step.calls.forward known
  refine ⟨kept.fingerprint, ⟨call', known', took.id.trans same, sameCall.later took.frozen, ?_⟩, ?_⟩
  · intro succeeded
    obtain ⟨status, result⟩ := saved succeeded
    rw [took.ended (by rw [status]; decide)]
    exact ⟨status, result⟩
  · intro isNew
    obtain ⟨running, decision, made, rest⟩ := kept.authorizes isNew
    exact ⟨running, decision, step.decisions.subset made, rest⟩

theorem addCall_write {decision : PermissionOutcome} {reason : String}
    (empty : call.result = none) (added : addCall audit call decision reason = .ok audit') :
    AuditWrite audit audit' ∧ call ∈ audit'.calls ∧
      ⟨call.id, decision, reason, call.requestFingerprint⟩ ∈ audit'.decisions ∧
      audit'.rows call.id = audit.rows call.id + 1 := by
  simp only [addCall, bind_eq_ok, require_eq_ok, exists_unit, pure_eq_ok] at added
  obtain ⟨fresh, rfl⟩ := added
  refine ⟨.added fresh empty, List.mem_append_right _ (List.mem_singleton_self _),
    List.mem_append_right _ (List.mem_singleton_self _), ?_⟩
  simp [AuditTables.rows, List.countP_append]

variable {reading : AuditReading}

theorem verifyToolIdentity_eq_ok
    (verified : verifyToolIdentity claim reading call invocation = .ok ()) :
    SameCall call invocation := by
  simp only [verifyToolIdentity, bind_eq_ok, require_eq_ok, exists_unit] at verified
  exact verified.1

theorem startAuthorized_eq_ok {id : Uuid}
    (started : startAuthorized library claim audit invocation id reading = .ok (lease, audit')) :
    AuditWrite audit audit' ∧ LeaseKept library audit' lease ∧
      (lease.isNew = true → audit'.rows lease.toolCallId = audit.rows lease.toolCallId + 1) := by
  simp only [startAuthorized, bind_eq_ok, exists_unit] at started
  obtain ⟨checked, -, started⟩ := started
  obtain ⟨-, -, -, -, -, fingerprint⟩ := require_eq_ok.mp checked
  split at started
  · rename_i existing found
    simp only [bind_eq_ok, exists_unit, pure_eq_ok, Prod.mk.injEq] at started
    obtain ⟨verified, rfl, rfl⟩ := started
    have known := List.mem_of_find?_eq_some found
    refine ⟨.none, ⟨fingerprint, ?_, fun isNew => by cases isNew⟩, fun isNew => by cases isNew⟩
    exact ⟨existing, known, rfl, verifyToolIdentity_eq_ok verified, fun status => ⟨status, rfl⟩⟩
  · simp only [bind_eq_ok, pure_eq_ok, Prod.mk.injEq] at started
    obtain ⟨_, added, rfl, rfl⟩ := started
    obtain ⟨write, known, made, counted⟩ := addCall_write rfl added
    refine ⟨write, ⟨fingerprint, ?_, fun _ => ⟨rfl, _, made, rfl, rfl, rfl⟩⟩, fun _ => counted⟩
    exact ⟨_, known, rfl, ⟨rfl, rfl, rfl, rfl, rfl, rfl, rfl, rfl, fun _ => rfl⟩,
      fun status => by cases status⟩

theorem recordDenied_write {reason : String} {id : Uuid}
    (denied : recordDenied library claim audit invocation reason id reading = .ok audit') :
    AuditWrite audit audit' := by
  simp only [recordDenied, bind_eq_ok, exists_unit] at denied
  obtain ⟨-, -, denied⟩ := denied
  split at denied
  · simp only [bind_eq_ok, exists_unit, pure_eq_ok] at denied
    obtain ⟨-, rfl⟩ := denied
    exact .none
  · exact (addCall_write rfl denied).1

theorem lockTool_eq_ok
    (locked : lockTool claim audit lease reading = .ok call) :
    call ∈ audit.calls ∧ call.id = lease.toolCallId := by
  simp only [lockTool, bind_eq_ok, orFault_eq_ok, exists_unit, pure_eq_ok] at locked
  obtain ⟨_, found, -, rfl⟩ := locked
  exact find_key found

theorem completeCall_eq_ok (kept : AuditKept audit) {result saved : Json} {durationMs : Nat}
    {publication : Except AuditError Unit}
    (completed : completeCall library claim audit lease result durationMs reading publication =
      .ok (saved, audit')) :
    AuditWrite audit audit' ∧ ∃ call ∈ audit'.calls, call.id = lease.toolCallId ∧
      call.status = .succeeded ∧ call.result = some saved := by
  simp only [completeCall, bind_eq_ok, exists_unit] at completed
  obtain ⟨-, -, call, locked, completed⟩ := completed
  obtain ⟨known, same⟩ := lockTool_eq_ok locked
  split at completed
  · rename_i status result
    obtain ⟨rfl, rfl⟩ := Prod.mk.inj (Except.ok.inj completed)
    exact ⟨.none, call, known, same, status, result⟩
  · simp only [bind_eq_ok, require_eq_ok, exists_unit, pure_eq_ok, Prod.mk.injEq] at completed
    obtain ⟨⟨running, -⟩, -, rfl, rfl⟩ := completed
    have empty := kept.results call known (by rw [running]; decide)
    refine ⟨.ended known ⟨rfl, fun ended => absurd running ended, .inr ⟨empty, rfl⟩⟩
      (fun failed => absurd rfl failed), _, mem_replaceRow_self known rfl, same, rfl, rfl⟩

theorem failCall_write (kept : AuditKept audit) {failure : ToolFailure} {durationMs : Nat}
    (failed : failCall library claim audit lease failure durationMs reading = .ok audit') :
    AuditWrite audit audit' := by
  simp only [failCall, bind_eq_ok, exists_unit] at failed
  obtain ⟨-, -, -, call, locked, failed⟩ := failed
  obtain ⟨known, -⟩ := lockTool_eq_ok locked
  split at failed
  · cases failed
    exact .none
  · simp only [bind_eq_ok, require_eq_ok, exists_unit, pure_eq_ok] at failed
    obtain ⟨⟨running, -⟩, rfl⟩ := failed
    have empty := kept.results call known (by rw [running]; decide)
    exact .ended known ⟨rfl, fun ended => absurd running ended, .inl rfl⟩ fun _ => empty

def ToolAuditLease.authorizes (id : Uuid) (lease : ToolAuditLease) : Bool :=
  lease.isNew && lease.toolCallId == id

/-- The provider may still be called for the invocation. -/
def Flight.awaits (flight : Flight) : Bool :=
  match flight.stage with
  | .claimed none | .verified => true
  | _ => false

/-- The places where a row may still be executed, and its executions. -/
def GatewayState.tokens (s : GatewayState) (id : Uuid) : Nat :=
  s.granted.countP (fun entry => entry.2.authorizes id) +
    s.pending.countP (fun entry => entry.2.authorizes id) +
    s.flights.countP (fun flight => flight.awaits && flight.lease.authorizes id) +
    s.executions.countP (fun execution => execution.toolCallId == id)

/-- An invocation uses the lease it took. -/
structure FlightKept (library : StandardLibrary) (audit : AuditTables) (flight : Flight) :
    Prop where
  lease : LeaseKept library audit flight.lease
  tool : flight.lease.invocation.tool = flight.tool
  arguments : invocationFingerprint library flight.tool.sdkName flight.arguments =
    flight.lease.invocation.requestFingerprint
  replay : ∀ saved, flight.stage = .claimed (some saved) →
    flight.lease.status = .succeeded ∧ flight.lease.result = some saved
  isNew : flight.awaits = true → flight.lease.isNew = true

structure ExecutionKept (library : StandardLibrary) (audit : AuditTables)
    (execution : Execution) : Prop where
  row : ∃ call ∈ audit.calls, call.id = execution.toolCallId ∧ call.runId = execution.runId ∧
    call.sdkToolUseId = execution.sdkToolUseId ∧ call.toolName = execution.tool.sdkName ∧
    call.capability = execution.tool.capability ∧ call.provider = execution.tool.provider ∧
    call.integrationId = execution.tool.integrationId ∧
    (execution.tool.resourceKey ≠ none → call.resource = resourceIdentity execution.tool) ∧
    call.requestFingerprint =
      invocationFingerprint library execution.tool.sdkName execution.arguments
  given : execution.given = providerArguments execution.tool execution.arguments
  allowed : ∃ decision ∈ audit.decisions, decision.toolCallId = execution.toolCallId ∧
    decision.decision = .autoAllow ∧ decision.requestFingerprint =
      invocationFingerprint library execution.tool.sdkName execution.arguments

/-- **What holds in every state of the gateways.** -/
structure GatewayKept (library : StandardLibrary) (s : GatewayState) : Prop where
  audit : AuditKept s.audit
  granted : ∀ entry ∈ s.granted, LeaseKept library s.audit entry.2
  pending : ∀ entry ∈ s.pending, LeaseKept library s.audit entry.2
  flights : ∀ flight ∈ s.flights, FlightKept library s.audit flight
  executions : ∀ execution ∈ s.executions, ExecutionKept library s.audit execution
  tokens : ∀ id, s.tokens id ≤ s.audit.rows id

theorem FlightKept.later {flight : Flight} (kept : FlightKept library audit flight)
    (step : AuditStep audit audit') : FlightKept library audit' flight :=
  { kept with lease := kept.lease.later step }

theorem ExecutionKept.later {execution : Execution}
    (kept : ExecutionKept library audit execution) (step : AuditStep audit audit') :
    ExecutionKept library audit' execution := by
  obtain ⟨call, known, id, run, toolUse, tool, capability, provider, integration, resource,
    fingerprint⟩ := kept.row
  obtain ⟨call', known', took⟩ := step.calls.forward known
  obtain ⟨decision, made, rest⟩ := kept.allowed
  have frozen := took.frozen
  refine ⟨⟨call', known', took.id.trans id, ?_⟩, kept.given, decision, step.decisions.subset made,
    rest⟩
  exact ⟨(congrArg ToolCallRow.runId frozen :).trans run,
    (congrArg ToolCallRow.sdkToolUseId frozen :).trans toolUse,
    (congrArg ToolCallRow.toolName frozen :).trans tool,
    (congrArg ToolCallRow.capability frozen :).trans capability,
    (congrArg ToolCallRow.provider frozen :).trans provider,
    (congrArg ToolCallRow.integrationId frozen :).trans integration,
    fun named => (congrArg ToolCallRow.resource frozen :).trans (resource named),
    (congrArg ToolCallRow.requestFingerprint frozen :).trans fingerprint⟩

theorem GatewayKept.written (kept : GatewayKept library s) (write : AuditWrite s.audit audit') :
    GatewayKept library { s with audit := audit' } := by
  have step := write.step kept.audit
  exact
    { audit := write.kept kept.audit
      granted := fun entry mem => (kept.granted entry mem).later step
      pending := fun entry mem => (kept.pending entry mem).later step
      flights := fun flight mem => (kept.flights flight mem).later step
      executions := fun execution mem => (kept.executions execution mem).later step
      tokens := fun id => (kept.tokens id).trans (step.rows id) }

theorem GatewayKept.landed (kept : GatewayKept library s) (index : Nat) :
    GatewayKept library { s with flights := s.flights.eraseIdx index } := by
  refine { kept with flights := fun flight mem => ?_, tokens := fun id => ?_ }
  · exact kept.flights flight (List.mem_of_mem_eraseIdx mem)
  · have fewer : (s.flights.eraseIdx index).countP
        (fun flight => flight.awaits && flight.lease.authorizes id) ≤
          s.flights.countP fun flight => flight.awaits && flight.lease.authorizes id :=
      (List.eraseIdx_sublist s.flights index).countP_le
    have bounded := kept.tokens id
    simp only [GatewayState.tokens] at bounded ⊢
    omega

/-! ## Steps -/

/-- What a step keeps, and how it writes the audit. -/
structure Stepped (library : StandardLibrary) (s s' : GatewayState) : Prop where
  kept : GatewayKept library s'
  write : AuditWrite s.audit s'.audit

variable {answer : GatewayAnswer}

theorem registerAuthorized_stepped {worker : Nat} {name : String}
    {arguments : List (String × Json)} {toolUseId : String} {sessionId id : Uuid}
    {fate : CommitFate}
    (kept : GatewayKept settings.library s)
    (committed : registerAuthorized settings s worker name arguments toolUseId sessionId id reading
      fate = .ok (answer, s')) : Stepped settings.library s s' := by
  simp only [registerAuthorized, bind_eq_ok, exists_unit, Prod.exists] at committed
  obtain ⟨tool, -, -, given, audit, settled, committed⟩ := committed
  cases given with
  | some lease =>
    obtain ⟨-, rfl⟩ := Prod.mk.inj (Except.ok.inj committed)
    obtain ⟨write, leased, counted⟩ := startAuthorized_eq_ok (fate.settle_some settled)
    have after := kept.written write
    refine ⟨{ after with granted := fun entry mem => ?_, tokens := fun row => ?_ }, write⟩
    · rcases List.mem_append.mp mem with old | new
      · exact after.granted entry old
      · rw [List.mem_singleton.mp new]
        exact leased
    · -- a lease that authorizes an execution counts for the row that was added with it
      have before := kept.tokens row
      have more := (write.step kept.audit).rows row
      simp only [GatewayState.tokens, List.countP_append, List.countP_singleton] at before ⊢
      split
      · rename_i authorizes
        simp only [ToolAuditLease.authorizes, Bool.and_eq_true, beq_iff_eq] at authorizes
        obtain ⟨isNew, rfl⟩ := authorizes
        have one := counted isNew
        omega
      · omega
  | none =>
    obtain ⟨-, rfl⟩ := Prod.mk.inj (Except.ok.inj committed)
    have write : AuditWrite s.audit audit := by
      rcases fate.settle_cases settled with ⟨lease, started⟩ | ⟨-, rfl⟩
      · exact (startAuthorized_eq_ok started).1
      · exact .none
    exact ⟨kept.written write, write⟩

theorem enqueue_stepped {worker : Nat} {toolCallId : Uuid}
    (kept : GatewayKept library s)
    (committed : enqueue s worker toolCallId = .ok (answer, s')) : Stepped library s s' := by
  simp only [enqueue, bind_eq_ok, orFault_eq_ok, Prod.exists, pure_eq_ok, Prod.mk.injEq]
    at committed
  obtain ⟨owner, lease, granted, taken, -, rfl⟩ := committed
  obtain ⟨member, others⟩ := mem_takeFirst taken
  refine ⟨{ kept with
    granted := fun entry mem => kept.granted entry (others entry mem)
    pending := fun entry mem => ?_
    tokens := fun id => ?_ }, .none⟩
  · rcases List.mem_append.mp mem with old | new
    · exact kept.pending entry old
    · rw [List.mem_singleton.mp new]
      exact kept.granted _ member
  · have before := kept.tokens id
    simp only [GatewayState.tokens, List.countP_append, List.countP_singleton,
      countP_takeFirst taken] at before ⊢
    omega

theorem registerDenied_stepped {worker : Nat} {name : String} {arguments : List (String × Json)}
    {toolUseId : String} {sessionId : Uuid} {reason : String} {id : Uuid}
    {fate : CommitFate}
    (kept : GatewayKept settings.library s)
    (committed : registerDenied settings s worker name arguments toolUseId sessionId reason id
      reading fate = .ok (answer, s')) : Stepped settings.library s s' := by
  simp only [registerDenied, bind_eq_ok, Prod.exists, pure_eq_ok, Prod.mk.injEq] at committed
  obtain ⟨given, audit, settled, -, rfl⟩ := committed
  have write : AuditWrite s.audit audit := by
    rcases fate.settle_cases settled with ⟨_, denied⟩ | ⟨-, rfl⟩
    · simp only [bind_eq_ok, pure_eq_ok, Prod.mk.injEq] at denied
      obtain ⟨_, recorded, -, rfl⟩ := denied
      exact recordDenied_write recorded
    · exact .none
  exact ⟨kept.written write, write⟩

theorem claimLease_stepped {worker : Nat} {caller : Caller} {name : String}
    {arguments : List (String × Json)} (kept : GatewayKept settings.library s)
    (committed : claimLease settings s worker caller name arguments = .ok (answer, s')) :
    Stepped settings.library s s' := by
  simp only [claimLease] at committed
  cases resolved : resolveTool (settings.context worker).tools name arguments with
  | error error =>
    rw [resolved] at committed
    cases caller <;> cases committed <;> exact ⟨kept, .none⟩
  | ok tool =>
  rw [resolved] at committed
  simp only at committed
  split at committed
  · cases committed
    exact ⟨kept, .none⟩
  rename_i entry pending taken
  obtain ⟨owner, lease⟩ := entry
  obtain ⟨member, others⟩ := mem_takeFirst taken
  have leased := kept.pending _ member
  have spent : GatewayKept settings.library { s with pending } := by
    refine { kept with
      pending := fun entry mem => kept.pending entry (others entry mem)
      tokens := fun id => ?_ }
    have before := kept.tokens id
    simp only [GatewayState.tokens, countP_takeFirst taken] at before ⊢
    omega
  split at committed
  · obtain ⟨-, rfl⟩ := Prod.mk.inj (Except.ok.inj committed)
    exact ⟨spent, .none⟩
  · rename_i own
    obtain ⟨sameTool, sameArguments⟩ := not_or.mp own
    have tools := Decidable.of_not_not sameTool
    have fingerprints := Decidable.of_not_not sameArguments
    split at committed
    · rename_i saved
      obtain ⟨-, rfl⟩ := Prod.mk.inj (Except.ok.inj committed)
      obtain ⟨result, replays⟩ := Option.isSome_iff_exists.mp saved
      refine ⟨{ spent with flights := fun flight mem => ?_, tokens := fun id => ?_ }, .none⟩
      · rcases List.mem_append.mp mem with old | new
        · exact kept.flights flight old
        · rw [List.mem_singleton.mp new]
          refine ⟨leased, tools, fingerprints.symm, fun own same => ?_, fun awaits => ?_⟩
          · have replay := FlightStage.claimed.inj same
            simp only [ToolAuditLease.replay] at replay
            split at replay
            · rename_i status
              exact ⟨status, replay⟩
            · cases replay
          · rw [replays] at awaits
            cases awaits
      · have before := spent.tokens id
        simp only [GatewayState.tokens, List.countP_append, List.countP_singleton,
          Flight.awaits, replays, Bool.false_and, Bool.false_eq_true, if_false] at before ⊢
        omega
    · split at committed
      · obtain ⟨-, rfl⟩ := Prod.mk.inj (Except.ok.inj committed)
        exact ⟨spent, .none⟩
      · rename_i ready
        obtain ⟨-, isNew, -⟩ : lease.status = .running ∧ lease.isNew = true ∧
            (worker, lease.toolCallId) ∉ s.dispatched := by
          simpa [not_or] using ready
        obtain ⟨-, rfl⟩ := Prod.mk.inj (Except.ok.inj committed)
        refine ⟨{ spent with flights := fun flight mem => ?_, tokens := fun id => ?_ }, .none⟩
        · rcases List.mem_append.mp mem with old | new
          · exact kept.flights flight old
          · rw [List.mem_singleton.mp new]
            exact ⟨leased, tools, fingerprints.symm, fun own same => (by cases same),
              fun _ => isNew⟩
        · have before := kept.tokens id
          simp only [GatewayState.tokens, List.countP_append, List.countP_singleton,
            countP_takeFirst taken, Flight.awaits, Bool.true_and] at before ⊢
          omega

theorem takeFlight_eq_ok {index : Nat} {flight : Flight} {flights : List Flight}
    (taken : takeFlight s index = .ok (flight, flights)) :
    s.flights[index]? = some flight ∧ flights = s.flights.eraseIdx index := by
  simp only [takeFlight, orFault_eq_ok, Option.map_eq_some_iff, Prod.mk.injEq] at taken
  obtain ⟨_, found, rfl, rfl⟩ := taken
  exact ⟨found, rfl⟩

theorem countP_advance {q : Flight → Bool} {index : Nat} {flight : Flight}
    (found : s.flights[index]? = some flight) (next : Flight) :
    (s.flights.eraseIdx index ++ [next]).countP q + (if q flight then 1 else 0) =
      s.flights.countP q + if q next then 1 else 0 := by
  rw [(eraseIdx_perm found).countP_eq, List.countP_cons, List.countP_append,
    List.countP_singleton]
  omega

/-! ## What the model is shown -/

/-- The result of a call as the audit has it. -/
def Saved (audit : AuditTables) (toolCallId : Uuid) (result : Json) : Prop :=
  ∃ call ∈ audit.calls, call.id = toolCallId ∧ call.status = .succeeded ∧ call.result = some result

/-- A success that the model is shown is the text of a saved result, which labels may be added to;
a step of a sequence gets the saved result itself. -/
def Delivered (settings : GatewaySettings) (audit : AuditTables) : GatewayAnswer → Prop
  | .answered worker id answer => answer.isError = false →
    ∃ toolCallId saved, id = some toolCallId ∧ Saved audit toolCallId saved ∧
      answer.content.head? = some (textBlock (canonicalJson
        (deliveredResult settings.library (settings.context worker) saved)))
  | .returned (.ok (toolCallId, result)) => Saved audit toolCallId result
  | _ => True

theorem mcpResult_eq_ok {context : GatewayContext} {tool : RegisteredTool}
    {image : Except ToolProviderError Json} {response : Json} {shown : McpAnswer}
    (made : mcpResult library context tool image response = .ok shown) :
    shown.content.head? =
      some (textBlock (canonicalJson (deliveredResult library context response))) := by
  unfold mcpResult at made
  dsimp only at made
  split_ifs at made with large imaged
  · cases made
    rfl
  · cases image with
    | error error => cases made
    | ok block =>
      dsimp only at made
      split_ifs at made with large'
      cases made
      rfl

theorem mcpAnswer_success {context : GatewayContext} {tool : RegisteredTool}
    {image : Except ToolProviderError Json} {outcome : Except ToolGatewayError Json}
    (success : (mcpAnswer library context tool image outcome).isError = false) :
    ∃ response, outcome = .ok response ∧
      (mcpAnswer library context tool image outcome).content.head? =
        some (textBlock (canonicalJson (deliveredResult library context response))) := by
  rw [mcpAnswer] at success ⊢
  cases outcome with
  | error error => cases success
  | ok response =>
    refine ⟨response, rfl, ?_⟩
    have bound : Except.bind (.ok response) (mcpResult library context tool image) =
        mcpResult library context tool image response := rfl
    rw [bound] at success ⊢
    cases made : mcpResult library context tool image response with
    | error error =>
      rw [made] at success
      cases success
    | ok shown => exact mcpResult_eq_ok made

theorem handOver_delivered {worker : Nat} {caller : Caller} {tool : RegisteredTool}
    {image : Except ToolProviderError Json} {outcome : Except ToolGatewayError (Uuid × Json)}
    (saved : ∀ toolCallId result, outcome = .ok (toolCallId, result) →
      Saved audit toolCallId result) :
    Delivered settings audit (handOver settings worker caller tool image outcome) := by
  cases caller with
  | sequence =>
    cases outcome with
    | error error => trivial
    | ok given => exact saved given.1 given.2 rfl
  | model =>
    intro success
    obtain ⟨response, given, shown⟩ := mcpAnswer_success success
    obtain ⟨⟨toolCallId, result⟩, rfl, rfl⟩ := map_eq_ok.mp given
    exact ⟨toolCallId, result, rfl, saved toolCallId result rfl, shown⟩

theorem refused_delivered {worker : Nat} {caller : Caller} {tool : RegisteredTool}
    {image : Except ToolProviderError Json} {error : ToolGatewayError} :
    Delivered settings audit (handOver settings worker caller tool image (.error error)) :=
  handOver_delivered fun _ _ same => by cases same

theorem checkedResponse_eq_ok {context : GatewayContext} {tool : RegisteredTool}
    {response result : Json} (checked : checkedResponse context tool response = .ok result) :
    result = response := by
  rw [checkedResponse] at checked
  split at checked
  · cases checked
  · split_ifs at checked
    exact (Except.ok.inj checked).symm

theorem verifyFlight_stepped {index : Nat}
    {artifacts : Except AuditError Unit} {image : Except ToolProviderError Json}
    (kept : GatewayKept settings.library s)
    (committed : verifyFlight settings s index reading artifacts image = .ok (answer, s')) :
    Stepped settings.library s s' ∧ Delivered settings s'.audit answer := by
  simp only [verifyFlight, bind_eq_ok, Prod.exists] at committed
  obtain ⟨flight, flights, taken, committed⟩ := committed
  obtain ⟨found, rfl⟩ := takeFlight_eq_ok taken
  have member := List.mem_of_getElem? found
  have own := kept.flights flight member
  have landed := kept.landed index
  split at committed
  · rename_i replay stage
    split at committed
    · obtain ⟨rfl, rfl⟩ := Prod.mk.inj (Except.ok.inj committed)
      exact ⟨⟨landed, .none⟩, refused_delivered⟩
    · rename_i saved verified
      obtain ⟨rfl, rfl⟩ := Prod.mk.inj (Except.ok.inj committed)
      refine ⟨⟨landed, .none⟩, handOver_delivered fun toolCallId result given => ?_⟩
      obtain ⟨response, checked, same⟩ := map_eq_ok.mp given
      obtain ⟨rfl, rfl⟩ := Prod.mk.inj same
      obtain rfl := checkedResponse_eq_ok checked
      obtain ⟨status, replayed⟩ := own.replay response stage
      obtain ⟨call, known, sameId, -, stored⟩ := own.lease.row
      obtain ⟨succeeded, sameResult⟩ := stored status
      exact ⟨call, known, sameId, succeeded, sameResult.trans replayed⟩
    · obtain ⟨rfl, rfl⟩ := Prod.mk.inj (Except.ok.inj committed)
      have awaits : flight.awaits = true := by simp only [Flight.awaits, stage]
      have isNew := own.isNew awaits
      refine ⟨⟨{ kept with flights := fun other mem => ?_, tokens := fun id => ?_ }, .none⟩,
        trivial⟩
      · rcases List.mem_append.mp mem with old | new
        · exact landed.flights other old
        · rw [List.mem_singleton.mp new]
          exact { own with replay := fun saved same => (by cases same), isNew := fun _ => isNew }
      · have before := kept.tokens id
        have still : Flight.awaits { flight with stage := .verified } = true := rfl
        have advanced := countP_advance
          (q := fun flight => flight.awaits && flight.lease.authorizes id) found
          { flight with stage := .verified }
        simp only [awaits, still, Bool.true_and] at advanced
        simp only [GatewayState.tokens] at before ⊢
        omega
  · cases committed

theorem ProviderAnswer.stage_ends (context : GatewayContext) (answer : ProviderAnswer)
    (flight : Flight) (staged : flight.stage = answer.stage context flight.tool) :
    flight.awaits = false ∧ ∀ replay, flight.stage ≠ .claimed replay := by
  unfold Flight.awaits
  rw [staged]
  cases answer with
  | responded response =>
    rw [ProviderAnswer.stage]
    cases checkedResponse context flight.tool response <;> exact ⟨rfl, fun _ same => by cases same⟩
  | raised error => exact ⟨rfl, fun _ same => by cases same⟩

theorem executeFlight_stepped {index : Nat} {given : ProviderAnswer}
    (kept : GatewayKept settings.library s)
    (committed : executeFlight settings s index given = .ok (answer, s')) :
    Stepped settings.library s s' := by
  simp only [executeFlight, bind_eq_ok, Prod.exists] at committed
  obtain ⟨flight, flights, taken, committed⟩ := committed
  obtain ⟨found, rfl⟩ := takeFlight_eq_ok taken
  have own := kept.flights flight (List.mem_of_getElem? found)
  split at committed
  · rename_i stage
    have awaits : flight.awaits = true := by simp only [Flight.awaits, stage]
    obtain ⟨isRunning, decision, made, ofCall, allowed, fingerprint⟩ :=
      own.lease.authorizes (own.isNew awaits)
    obtain ⟨call, known, id, same, -⟩ := own.lease.row
    obtain ⟨-, rfl⟩ := Prod.mk.inj (Except.ok.inj committed)
    obtain ⟨spentNow, noReplay⟩ := given.stage_ends (settings.context flight.worker)
      { flight with stage := given.stage (settings.context flight.worker) flight.tool } rfl
    refine ⟨{ kept with
      flights := fun other mem => ?_
      executions := fun execution mem => ?_
      tokens := fun row => ?_ }, .none⟩
    · rcases List.mem_append.mp mem with old | new
      · exact (kept.landed index).flights other old
      · rw [List.mem_singleton.mp new]
        refine { own with replay := fun saved same => ?_, isNew := fun awaiting => ?_ }
        · exact absurd same (noReplay _)
        · exact absurd awaiting (by rw [spentNow]; decide)
    · rcases List.mem_append.mp mem with old | new
      · exact kept.executions execution old
      · rw [List.mem_singleton.mp new]
        refine ⟨⟨call, known, id, same.run, same.toolUse, ?_⟩, rfl, decision, made, ofCall, allowed,
          fingerprint.trans own.arguments.symm⟩
        rw [← own.tool]
        refine ⟨same.tool, same.capability, same.provider, same.integration, same.resource, ?_⟩
        rw [own.tool, own.arguments]
        exact same.fingerprint
    · have before := kept.tokens row
      have advanced := countP_advance
        (q := fun flight => flight.awaits && flight.lease.authorizes row) found
        { flight with stage := given.stage (settings.context flight.worker) flight.tool }
      simp only [awaits, spentNow, Bool.true_and, Bool.false_and, Bool.false_eq_true, if_false,
        ToolAuditLease.authorizes, own.isNew awaits] at advanced
      simp only [GatewayState.tokens, List.countP_append, List.countP_singleton,
        ToolAuditLease.authorizes] at before advanced ⊢
      omega
  · cases committed

theorem completeFlight_stepped {index durationMs : Nat}
    {publication : Except AuditError Unit} {image : Except ToolProviderError Json}
    {fate : CommitFate} (kept : GatewayKept settings.library s)
    (committed : completeFlight settings s index durationMs reading publication image fate =
      .ok (answer, s')) :
    Stepped settings.library s s' ∧ Delivered settings s'.audit answer := by
  simp only [completeFlight, bind_eq_ok, Prod.exists] at committed
  obtain ⟨flight, flights, taken, committed⟩ := committed
  obtain ⟨-, rfl⟩ := takeFlight_eq_ok taken
  have landed := kept.landed index
  split at committed
  · split at committed
    · rename_i saved audit settled
      obtain ⟨rfl, rfl⟩ := Prod.mk.inj (Except.ok.inj committed)
      obtain ⟨write, stored⟩ := completeCall_eq_ok kept.audit (fate.settle_some settled)
      refine ⟨⟨landed.written write, write⟩, handOver_delivered fun toolCallId result given => ?_⟩
      obtain ⟨rfl, rfl⟩ := Prod.mk.inj (Except.ok.inj given)
      exact stored
    · rename_i audit settled
      obtain ⟨rfl, rfl⟩ := Prod.mk.inj (Except.ok.inj committed)
      have write : AuditWrite s.audit audit := by
        rcases fate.settle_cases settled with ⟨saved, completed⟩ | ⟨-, rfl⟩
        · exact (completeCall_eq_ok kept.audit completed).1
        · exact .none
      exact ⟨⟨landed.written write, write⟩, refused_delivered⟩
    · obtain ⟨rfl, rfl⟩ := Prod.mk.inj (Except.ok.inj committed)
      exact ⟨⟨landed, .none⟩, refused_delivered⟩
  · cases committed

theorem failFlight_stepped {index durationMs : Nat} {fate : CommitFate}
    (kept : GatewayKept settings.library s)
    (committed : failFlight settings s index durationMs reading fate = .ok (answer, s')) :
    Stepped settings.library s s' ∧ Delivered settings s'.audit answer := by
  simp only [failFlight, bind_eq_ok, Prod.exists] at committed
  obtain ⟨flight, flights, taken, committed⟩ := committed
  obtain ⟨-, rfl⟩ := takeFlight_eq_ok taken
  have landed := kept.landed index
  split at committed
  · rename_i error _
    have write {value : Option Unit} {audit : AuditTables}
        (settled : (fate.settle s.audit do
          return ((), ← failCall settings.library (settings.context flight.worker).claim s.audit
            flight.lease ⟨error.code, error.retryable⟩ durationMs reading)) = .ok (value, audit)) :
        AuditWrite s.audit audit := by
      rcases fate.settle_cases settled with ⟨_, failed⟩ | ⟨-, rfl⟩
      · simp only [bind_eq_ok, pure_eq_ok, Prod.mk.injEq] at failed
        obtain ⟨_, recorded, -, rfl⟩ := failed
        exact failCall_write kept.audit recorded
      · exact .none
    split at committed
    · rename_i settled
      obtain ⟨rfl, rfl⟩ := Prod.mk.inj (Except.ok.inj committed)
      exact ⟨⟨landed.written (write settled), write settled⟩, refused_delivered⟩
    · rename_i settled
      obtain ⟨rfl, rfl⟩ := Prod.mk.inj (Except.ok.inj committed)
      exact ⟨⟨landed.written (write settled), write settled⟩, refused_delivered⟩
    · obtain ⟨rfl, rfl⟩ := Prod.mk.inj (Except.ok.inj committed)
      exact ⟨⟨landed, .none⟩, refused_delivered⟩
  · cases committed

theorem claimLease_delivered {worker : Nat} {caller : Caller} {name : String}
    {arguments : List (String × Json)}
    (committed : claimLease settings s worker caller name arguments = .ok (answer, s')) :
    Delivered settings audit answer := by
  simp only [claimLease] at committed
  split at committed
  · cases caller with
    | model =>
      cases committed
      exact fun success => by cases success
    | sequence =>
      cases committed
      trivial
  · split at committed
    · cases committed
      exact refused_delivered
    · split_ifs at committed
      · cases committed
        exact refused_delivered
      · cases committed
        trivial
      · cases committed
        exact refused_delivered
      · cases committed
        trivial

theorem execGateway_stepped {action : GatewayAction}
    (kept : GatewayKept settings.library s)
    (committed : execGateway settings action s = .ok (answer, s')) :
    Stepped settings.library s s' ∧ Delivered settings s'.audit answer := by
  cases action with
  | registerAuthorized =>
    refine ⟨registerAuthorized_stepped kept committed, ?_⟩
    simp only [execGateway, registerAuthorized, bind_eq_ok, exists_unit, Prod.exists]
      at committed
    obtain ⟨_, -, -, given, _, -, committed⟩ := committed
    cases given <;> obtain ⟨rfl, -⟩ := Prod.mk.inj (Except.ok.inj committed) <;> trivial
  | enqueue =>
    refine ⟨enqueue_stepped kept committed, ?_⟩
    simp only [execGateway, enqueue, bind_eq_ok, Prod.exists, pure_eq_ok, Prod.mk.injEq]
      at committed
    obtain ⟨_, _, _, -, rfl, -⟩ := committed
    trivial
  | registerDenied =>
    refine ⟨registerDenied_stepped kept committed, ?_⟩
    simp only [execGateway, registerDenied, bind_eq_ok, Prod.exists, pure_eq_ok,
      Prod.mk.injEq] at committed
    obtain ⟨given, _, -, rfl, -⟩ := committed
    cases given <;> trivial
  | claim => exact ⟨claimLease_stepped kept committed, claimLease_delivered committed⟩
  | verifyDispatch => exact verifyFlight_stepped kept committed
  | execute =>
    refine ⟨executeFlight_stepped kept committed, ?_⟩
    simp only [execGateway, executeFlight, bind_eq_ok, Prod.exists] at committed
    obtain ⟨_, _, -, committed⟩ := committed
    split at committed <;> cases committed
    trivial
  | complete => exact completeFlight_stepped kept committed
  | fail => exact failFlight_stepped kept committed

theorem gatewayKept_empty : GatewayKept library GatewayState.empty where
  audit := ⟨List.nodup_nil, List.nodup_nil, fun _ mem => by cases mem⟩
  granted _ mem := by cases mem
  pending _ mem := by cases mem
  flights _ mem := by cases mem
  executions _ mem := by cases mem
  tokens _ := Nat.le_refl _

theorem gatewayKept_invariant :
    (gatewaySystem settings).Invariant (GatewayKept settings.library) :=
  fun _ _ _ _ kept committed => (execGateway_stepped kept committed).1.kept

theorem GatewayKept.executions_once (kept : GatewayKept library s) :
    (s.executions.map fun execution => (execution.runId, execution.sdkToolUseId)).Nodup := by
  have distinct : (s.executions.map Execution.toolCallId).Nodup := by
    rw [List.nodup_iff_count_le_one]
    intro id
    have counted : (s.executions.map Execution.toolCallId).count id =
        s.executions.countP fun execution => execution.toolCallId == id := by
      rw [List.count, List.countP_map]
      rfl
    have bounded := (kept.tokens id).trans (kept.audit.rows_le id)
    rw [counted]
    simp only [GatewayState.tokens] at bounded
    omega
  rw [List.Nodup, List.pairwise_map] at distinct ⊢
  refine distinct.imp_of_mem fun {first second} mem mem' apart same => apart ?_
  obtain ⟨call, known, id, run, toolUse, -⟩ := (kept.executions first mem).row
  obtain ⟨call', known', id', run', toolUse', -⟩ := (kept.executions second mem').row
  obtain ⟨sameRun, sameUse⟩ := Prod.mk.inj same
  have one : call = call' := by
    refine kept.audit.uses.eq_of_key known known' (Prod.ext ?_ ?_)
    · exact run.trans (sameRun.trans run'.symm)
    · exact toolUse.trans (sameUse.trans toolUse'.symm)
  rw [← id, ← id', one]

theorem ended_invariant (ended : call.status ≠ .running) :
    (gatewaySystem settings).Invariant fun s =>
      GatewayKept settings.library s ∧ call ∈ s.audit.calls := by
  rintro s action answer s' ⟨kept, known⟩ committed
  obtain ⟨⟨after, write⟩, -⟩ := execGateway_stepped kept committed
  obtain ⟨call', known', took⟩ := (write.step kept.audit).calls.forward known
  exact ⟨after, took.ended ended ▸ known'⟩

/-- A result that is shown is the saved one, but for the labels of its references. -/
structure Shows (library : StandardLibrary) (context : GatewayContext)
    (saved shown : List (String × Json)) : Prop where
  plain : context.labelled = false → shown = saved
  others : ∀ key, key ≠ "result_references" → shown.lookup key = saved.lookup key
  labels : ∀ label pointer, (label, pointer) ∈ resultLabels library saved →
    ∃ reference, referenceLabel library reference = label ∧
      isReference reference.toList = true ∧
        Stands (.object saved) pointer.toList (.string reference)

theorem deliveredResult_shows (context : GatewayContext) (saved : List (String × Json)) :
    ∃ shown, deliveredResult library context (.object saved) = .object shown ∧
      Shows library context saved shown := by
  refine ⟨_, rfl, fun plain => ?_, fun key other => ?_, fun _ _ => placed_of_resultLabels⟩
  · rw [plain]
    rfl
  · split_ifs
    · exact lookup_projectResultReferences saved other
    · rfl

def sampleTool : RegisteredTool :=
  ⟨"workspace.read/v1", "workspace_read", "workspace", none, "schema", true, none, none⟩

def sampleGateways : GatewaySettings where
  library := Documents.zeroLibrary
  context _ :=
    { claim := ⟨1, 10, false, none, none⟩
      tools := [sampleTool]
      admits _ _ := true
      rejects _ _ := none
      meetsErrors _ _ := true
      labelled := true
      maxOutputBytes := 1000 }

def sampleReading : AuditReading := ⟨.ok (), [10]⟩

def sampleRegistration : List GatewayAction :=
  [ .registerAuthorized 0 "workspace_read" [] "toolu" 30 80 sampleReading .acknowledged
  , .enqueue 0 80
  , .claim 0 .model "workspace_read" [] ]

def sampleResult : Json :=
  .object [("evidence_refs", .array [.string "ev_00000000000000000000000000000000"])]

/-- The provider has answered. -/
def sampleCall : List GatewayAction :=
  sampleRegistration ++
    [ .verifyDispatch 0 sampleReading (.ok ()) noImage
    , .execute 0 (.responded sampleResult) ]

set_option maxRecDepth 20000 in
/-- The answer to the record of the result is lost; the use is registered again, and gets the saved
result without another execution. -/
example :
    let s := (gatewaySystem sampleGateways).run GatewayState.empty
      (sampleCall ++ .complete 0 5 sampleReading (.ok ()) noImage .lost :: sampleRegistration)
    s.executions.length = 1 ∧
      ∃ answer s', (gatewaySystem sampleGateways).exec
          (.verifyDispatch 0 sampleReading (.ok ()) noImage) s =
            .ok (.answered 0 (some 80) answer, s') ∧
        answer.isError = false ∧ Saved s'.audit 80 sampleResult :=
  ⟨rfl, _, _, rfl, rfl, _, List.mem_cons_self, rfl, rfl, rfl⟩

end SkillMind.Agent
