import SkillMind.Reconciliation.RequestService

/-!
# One owner, one answer

Every transaction writes one request at most, and what it can do to it is small: close it while it
is active, hand it to its owner, or record the observation of the owner within the lease. A
request that is over is never written again.
-/

namespace SkillMind.Reconciliation

open Library
open Runs (Uuid Timestamp)

variable {R : Type} {settings : ReconciliationSettings R} {t t' : ReconciliationTables}
  {row row' : EffectReconciliationRequest}

/-! ## Moves of one request -/

def EffectReconciliationRequest.frozen (row : EffectReconciliationRequest) :
    EffectReconciliationRequest :=
  { row with
    status := .queued, ownerHash := none, claimedAt := none, leaseExpiresAt := none,
    finishedAt := none, observationStatus := none, observedAt := none, receiptJson := none,
    errorCode := none }

inductive Closed (row row' : EffectReconciliationRequest) : Prop
  | stays (same : row' = row)
  | closes (active : row.status.active = true) (ends : row'.status ∈ [.failed, .revoked])
      (frozen : row'.frozen = row.frozen)

/-- The observation is recorded by the owner, within the lease. -/
structure Finishes (settings : ReconciliationSettings R) (owner : ReconciliationRequestOwner)
    (now commit : Timestamp) (row row' : EffectReconciliationRequest) : Prop where
  running : row.status = .running
  held : row.ownerHash = some (settings.leaseTokenHash owner.token)
  leased : row.leased now = true
  still : row.leased commit = true
  succeeded : row'.status = .succeeded
  frozen : row'.frozen = row.frozen

inductive RequestMove (settings : ReconciliationSettings R) :
    ReconciliationAction R → ReconciliationAnswer → EffectReconciliationRequest →
    EffectReconciliationRequest → Prop
  | closes {action : ReconciliationAction R} {answer : ReconciliationAnswer}
      {row row' : EffectReconciliationRequest}
      (unowned : ∀ owner, answer ≠ .claimed (some owner)) (closed : Closed row row') :
      RequestMove settings action answer row row'
  | claims {action : ReconciliationAction R} {owner : ReconciliationRequestOwner}
      {row row' : EffectReconciliationRequest}
      (queued : row.status = .queued) (running : row'.status = .running)
      (request : owner.request.requestId = row.id)
      (held : row'.ownerHash = some (settings.leaseTokenHash owner.token))
      (frozen : row'.frozen = row.frozen) :
      RequestMove settings action (.claimed (some owner)) row row'
  | finishes {owner : ReconciliationRequestOwner}
      {observation : EffectReconciliationObservation R} {visit : Visit} {first last : Look}
      {now commit : Timestamp} {request : Option ReconciliationRequestSnapshot}
      {row row' : EffectReconciliationRequest}
      (own : owner.request.requestId = row.id)
      (finishes : Finishes settings owner now commit row row') :
      RequestMove settings (.finish owner observation visit first now last commit)
        (.finished request) row row'

/-- One request is written. -/
structure Wrote (t t' : ReconciliationTables) (row row' : EffectReconciliationRequest) :
    Prop where
  known : row ∈ t.requests
  written : t'.requests = replaceRow EffectReconciliationRequest.id row' t.requests
  formed : row'.wellFormed = true

namespace RequestMove

variable {action : ReconciliationAction R} {answer : ReconciliationAnswer}

theorem frozen (move : RequestMove settings action answer row row') :
    row'.frozen = row.frozen := by
  cases move with
  | closes unowned closed =>
    rcases closed with rfl | ⟨-, -, frozen⟩
    · rfl
    · exact frozen
  | claims queued running request held frozen => exact frozen
  | finishes own finishes => exact finishes.frozen

theorem id (move : RequestMove settings action answer row row') : row'.id = row.id :=
  (congrArg EffectReconciliationRequest.id move.frozen :)

theorem effect (move : RequestMove settings action answer row row') :
    row'.effectExecutionId = row.effectExecutionId :=
  (congrArg EffectReconciliationRequest.effectExecutionId move.frozen :)

theorem final (move : RequestMove settings action answer row row')
    (ended : row.status.active = false) : row' = row := by
  cases move with
  | closes unowned closed =>
    rcases closed with same | ⟨active, -, -⟩
    · exact same
    · rw [active] at ended
      cases ended
  | claims queued =>
    rw [queued] at ended
    cases ended
  | finishes own finishes =>
    rw [finishes.running] at ended
    cases ended

theorem queued (move : RequestMove settings action answer row row')
    (still : row'.status = .queued) : row.status = .queued := by
  cases move with
  | closes unowned closed =>
    rcases closed with rfl | ⟨-, ends, -⟩
    · exact still
    · rw [still] at ends
      simp at ends
  | claims queued => exact queued
  | finishes own finishes =>
    rw [finishes.succeeded] at still
    cases still

theorem running (move : RequestMove settings action answer row row')
    (runs : row'.status = .running) : row' = row ∨
      ∃ owner, answer = .claimed (some owner) ∧ owner.request.requestId = row.id ∧
        row'.ownerHash = some (settings.leaseTokenHash owner.token) := by
  cases move with
  | closes unowned closed =>
    rcases closed with same | ⟨-, ends, -⟩
    · exact Or.inl same
    · rw [runs] at ends
      simp at ends
  | claims queued running request held => exact Or.inr ⟨_, rfl, request, held⟩
  | finishes own finishes =>
    rw [finishes.succeeded] at runs
    cases runs

theorem succeeded (move : RequestMove settings action answer row row')
    (succeeds : row'.status = .succeeded) : row' = row ∨
      ∃ owner observation visit first now last commit,
        action = .finish owner observation visit first now last commit ∧
        owner.request.requestId = row.id ∧ Finishes settings owner now commit row row' := by
  cases move with
  | closes unowned closed =>
    rcases closed with same | ⟨-, ends, -⟩
    · exact Or.inl same
    · rw [succeeds] at ends
      simp at ends
  | claims queued running =>
    rw [running] at succeeds
    cases succeeds
  | finishes own finishes => exact Or.inr ⟨_, _, _, _, _, _, _, rfl, own, finishes⟩

end RequestMove

/-! ## The operations -/

theorem fail_closed (row : EffectReconciliationRequest) (code : FailureCode) (now : Timestamp) :
    Closed row (fail row code now) := by
  unfold fail
  split
  · rename_i active
    refine .closes active ?_ rfl
    show (if code = .authorizationRevoked then RequestStatus.revoked else .failed) ∈ _
    split <;> simp
  · exact .stays rfl

theorem authorize_closed (row : EffectReconciliationRequest) (failure : Option FailureCode)
    (look : Look) : Closed row (authorize row failure look).1 := by
  unfold authorize
  split
  · exact fail_closed row _ look.now
  · exact .stays rfl

theorem authorize_goesOn {failure : Option FailureCode} {look : Look}
    (goesOn : (authorize row failure look).2 = true) :
    (authorize row failure look).1 = row := by
  unfold authorize at goesOn ⊢
  split
  · rename_i reason
    rw [reason] at goesOn
    cases goesOn
  · rfl

theorem authorize_lost {failure : Option FailureCode} {look : Look}
    (active : row.status.active = true) (lost : ¬ (authorize row failure look).2 = true) :
    (authorize row failure look).1.status ∈ [.failed, .revoked] ∧
      (authorize row failure look).1.frozen = row.frozen := by
  unfold authorize at lost ⊢
  split
  · rename_i code reason
    rw [fail, if_pos active]
    refine ⟨?_, rfl⟩
    show (if code = .authorizationRevoked then RequestStatus.revoked else .failed) ∈ _
    split <;> simp
  · rename_i reason
    rw [reason] at lost
    exact absurd rfl lost

theorem closed_fail {checked : EffectReconciliationRequest} (closed : Closed row checked)
    (code : FailureCode) (now : Timestamp) : Closed row (fail checked code now) := by
  rcases closed with rfl | ⟨active, ends, frozen⟩
  · exact fail_closed _ code now
  · have ended : checked.status.active = false := by
      revert ends
      cases checked.status <;> decide
    rw [fail, if_neg (by rw [ended]; decide)]
    exact .closes active ends frozen

variable {requestId : Uuid}

theorem find_known (found : find t requestId = some row) :
    row ∈ t.requests ∧ row.id = requestId :=
  ⟨List.mem_of_find?_eq_some found, by simpa using List.find?_some found⟩

variable {visit : Visit}

theorem locked_known {loadTarget : Bool} {lock : Locked}
    (locks : locked settings t requestId visit loadTarget = .ok lock) :
    lock.row ∈ t.requests ∧ lock.row.id = requestId := by
  simp only [locked, requireRequest, bind_eq_ok, orFault_eq_ok] at locks
  obtain ⟨row, found, rest⟩ := locks
  suffices same : lock.row = row by
    rw [same]
    exact find_known found
  split at rest
  · simp only [bind_eq_ok, require_eq_ok, exists_unit, pure_eq_ok] at rest
    rw [← rest.2]
  · split at rest
    · rw [← pure_eq_ok.mp rest]
    · split at rest
      · simp only [bind_eq_ok, require_eq_ok, exists_unit, pure_eq_ok] at rest
        rw [← rest.2]
      · rw [← pure_eq_ok.mp rest]

theorem put_eq_ok : put t row = .ok t' ↔ row.wellFormed = true ∧
    { t with requests := replaceRow EffectReconciliationRequest.id row t.requests } = t' := by
  simp only [put, flush, bind_eq_ok, require_eq_ok, exists_unit, pure_eq_ok]

variable {now : Timestamp}

theorem claim_claims {token : String} {claimed : EffectReconciliationRequest}
    {owner : Option ReconciliationRequestOwner}
    (claims : claim settings row token now = .ok (claimed, owner)) :
    (claimed = row ∧ owner = none) ∨
      (row.status = .queued ∧ claimed.status = .running ∧
        claimed.ownerHash = some (settings.leaseTokenHash token) ∧
        claimed.frozen = row.frozen ∧ owner = some ⟨claimed.snapshot, token⟩) := by
  unfold claim at claims
  split at claims
  · obtain ⟨rfl, rfl⟩ := Prod.mk.inj (pure_eq_ok.mp claims)
    exact Or.inl ⟨rfl, rfl⟩
  · rename_i queued
    simp only [bind_eq_ok, require_eq_ok, exists_unit, pure_eq_ok, Prod.mk.injEq] at claims
    obtain ⟨-, rfl, rfl⟩ := claims
    exact Or.inr ⟨not_not.mp queued, rfl, rfl, rfl, rfl⟩

theorem claimRequest_moves {first last : Look}
    {token : String} {owner : Option ReconciliationRequestOwner}
    (committed : claimRequest settings t requestId visit first token now last = .ok (owner, t')) :
    ∃ row row', Wrote t t' row row' ∧
      RequestMove settings (.claim requestId visit first token now last) (.claimed owner)
        row row' := by
  simp only [claimRequest, bind_eq_ok] at committed
  obtain ⟨⟨row, target, failure⟩, locks, rest⟩ := committed
  have known := (locked_known locks).1
  have quiet : ∀ other, ReconciliationAnswer.claimed none ≠ .claimed (some other) := by simp
  split at rest
  · rename_i goesOn
    rw [authorize_goesOn goesOn] at rest
    simp only [bind_eq_ok, pure_eq_ok, put_eq_ok, Prod.mk.injEq] at rest
    obtain ⟨⟨claimed, own⟩, claims, -, -, _, ⟨formed, rfl⟩, rfl, rfl⟩ := rest
    refine ⟨row, _, ⟨known, rfl, formed⟩, ?_⟩
    rcases claim_claims claims with ⟨rfl, rfl⟩ | ⟨queued, running, held, frozen, rfl⟩
    · rw [ite_self]
      exact .closes quiet (authorize_closed claimed failure last)
    · split
      · rename_i still
        rw [authorize_goesOn still]
        exact .claims queued running (congrArg EffectReconciliationRequest.id frozen :) held frozen
      · rename_i lost
        refine .closes quiet ?_
        obtain ⟨ends, frozen'⟩ := authorize_lost (by rw [running]; rfl) lost
        exact .closes (by rw [queued]; rfl) ends (frozen'.trans frozen)
  · simp only [bind_eq_ok, pure_eq_ok, put_eq_ok, Prod.mk.injEq] at rest
    obtain ⟨_, ⟨formed, rfl⟩, rfl, rfl⟩ := rest
    exact ⟨row, _, ⟨known, rfl, formed⟩, .closes quiet (authorize_closed row failure first)⟩

variable {owner : ReconciliationRequestOwner}

theorem authorizeOwner_moves {first : Look}
    {target : Option EffectReconciliationTarget}
    (committed : authorizeOwner settings t owner visit first now = .ok (target, t')) :
    ∃ row row', Wrote t t' row row' ∧ Closed row row' := by
  simp only [authorizeOwner, bind_eq_ok] at committed
  obtain ⟨⟨row, loaded, failure⟩, locks, rest⟩ := committed
  refine ⟨row, _, ⟨(locked_known locks).1, ?_, ?_⟩, authorize_closed row failure first⟩
  all_goals
    split at rest
    · simp only [bind_eq_ok, pure_eq_ok, put_eq_ok, Prod.mk.injEq] at rest
      obtain ⟨-, -, _, ⟨formed, rfl⟩, -, rfl⟩ := rest
      first | rfl | exact formed
    · simp only [bind_eq_ok, pure_eq_ok, put_eq_ok, Prod.mk.injEq] at rest
      obtain ⟨_, ⟨formed, rfl⟩, -, rfl⟩ := rest
      first | rfl | exact formed

theorem failRequest_moves {code : FailureCode}
    {later : Timestamp} {first : Look}
    (committed : failRequest settings t owner code visit now first later = .ok t') :
    ∃ row row', Wrote t t' row row' ∧ Closed row row' := by
  simp only [failRequest, bind_eq_ok, put_eq_ok] at committed
  obtain ⟨⟨row, loaded, failure⟩, locks, -, -, formed, rfl⟩ := committed
  refine ⟨row, _, ⟨(locked_known locks).1, rfl, formed⟩, ?_⟩
  have closed := authorize_closed row failure first
  split
  · exact closed_fail closed code later
  · exact closed

theorem recoverExpired_moves {first : Look} {changed : Bool}
    (committed : recoverExpired settings t requestId visit first = .ok (changed, t')) :
    ∃ row row', Wrote t t' row row' ∧ Closed row row' := by
  simp only [recoverExpired, bind_eq_ok, put_eq_ok, pure_eq_ok, Prod.mk.injEq] at committed
  obtain ⟨⟨row, loaded, failure⟩, locks, _, ⟨formed, rfl⟩, -, rfl⟩ := committed
  exact ⟨row, _, ⟨(locked_known locks).1, rfl, formed⟩, authorize_closed row failure first⟩

/-- What an accepted `finish` leaves in the request it names. -/
structure Recorded (settings : ReconciliationSettings R) (owner : ReconciliationRequestOwner)
    (observation : EffectReconciliationObservation R) (row : EffectReconciliationRequest) :
    Prop where
  own : row.id = owner.request.requestId
  held : row.ownerHash = some (settings.leaseTokenHash owner.token)
  succeeded : row.status = .succeeded
  status : row.observationStatus = some observation.status
  observed : row.observedAt = some observation.observedAt
  receipt : ∃ target, settings.targetChecksum target = row.targetChecksum ∧
    reconciliationReceiptJson settings observation target = .ok row.receiptJson

theorem finish_recorded
    {observation : EffectReconciliationObservation R} {target : EffectReconciliationTarget}
    (finished : finish settings row owner observation target now = .ok row') :
    Recorded settings owner observation row' ∧
      (row' = row ∨ (row.status = .running ∧ row.leased now = true ∧
        row.ownerHash = some (settings.leaseTokenHash owner.token) ∧
        row'.leaseExpiresAt = row.leaseExpiresAt ∧ row'.frozen = row.frozen)) := by
  simp only [finish, requireOwner, bind_eq_ok, require_eq_ok, exists_unit] at finished
  obtain ⟨⟨own, -, -, -, -, -, held, live⟩, same, receipt, document, rest⟩ := finished
  split at rest
  · rename_i replay
    simp only [bind_eq_ok, require_eq_ok, exists_unit, pure_eq_ok] at rest
    obtain ⟨⟨status, observed, stored⟩, rfl⟩ := rest
    exact ⟨⟨own, held, of_decide_eq_true replay, status, observed, target, same,
      stored ▸ document⟩, Or.inl rfl⟩
  · rename_i first
    simp only [bind_eq_ok, require_eq_ok, exists_unit, orFault_eq_ok, pure_eq_ok] at rest
    obtain ⟨claimedAt, -, -, rfl⟩ := rest
    obtain ⟨running, leased⟩ := live (by simpa using first)
    exact ⟨⟨own, held, rfl, rfl, rfl, target, same, document⟩,
      Or.inr ⟨running, leased, held, rfl, rfl⟩⟩

theorem finishRequest_moves
    {observation : EffectReconciliationObservation R} {first last : Look}
    {commit : Timestamp} {request : Option ReconciliationRequestSnapshot}
    (committed : finishRequest settings t owner observation visit first now last commit =
      .ok (request, t')) :
    ∃ row row', Wrote t t' row row' ∧
      RequestMove settings (.finish owner observation visit first now last commit)
        (.finished request) row row' ∧
      ∀ accepted ∈ request, Recorded settings owner observation row' ∧
        accepted = row'.snapshot := by
  simp only [finishRequest, bind_eq_ok] at committed
  obtain ⟨⟨row, target, failure⟩, locks, rest⟩ := committed
  obtain ⟨known, own⟩ := locked_known locks
  split at rest
  · rename_i goesOn loaded
    simp only [bind_eq_ok, require_eq_ok, exists_unit, pure_eq_ok, put_eq_ok,
      Prod.mk.injEq] at rest
    obtain ⟨finished, finishes, leases, -, -, ⟨still, leased⟩, _, ⟨formed, rfl⟩, rfl, rfl⟩ := rest
    rw [authorize_goesOn still] at leased formed ⊢
    rw [authorize_goesOn goesOn] at finishes leased
    obtain ⟨recorded, cases⟩ := finish_recorded finishes
    refine ⟨row, finished, ⟨known, rfl, formed⟩, ?_, ?_⟩
    · rcases cases with same | ⟨running, leasedNow, held, expiry, frozen⟩
      · exact .closes (by simp) (.stays same)
      · have still := leased (by rw [running]; decide)
        rw [EffectReconciliationRequest.leased, expiry] at still
        exact .finishes own.symm ⟨running, held, leasedNow, still, recorded.succeeded, frozen⟩
    · rintro _ ⟨⟩
      exact ⟨recorded, rfl⟩
  · simp only [bind_eq_ok, pure_eq_ok, put_eq_ok, Prod.mk.injEq] at rest
    obtain ⟨_, ⟨formed, rfl⟩, rfl, rfl⟩ := rest
    exact ⟨row, _, ⟨known, rfl, formed⟩, .closes (by simp) (authorize_closed row failure first),
      fun _ mem => absurd mem (Option.not_mem_none _)⟩

/-- The request is there already, or a new one is queued. -/
inductive Accepted (t t' : ReconciliationTables) (requestId effectExecutionId : Uuid)
    (request : ReconciliationRequestSnapshot) : Prop
  | again {row : EffectReconciliationRequest} (known : row ∈ t.requests)
      (id : row.id = requestId) (shown : request = row.snapshot) (same : t' = t)
  | added {row : EffectReconciliationRequest} (id : row.id = requestId)
      (fresh : ∀ other ∈ t.requests, other.id ≠ requestId) (shown : request = row.snapshot)
      (queued : row.status = .queued) (formed : row.wellFormed = true)
      (effect : row.effectExecutionId = effectExecutionId)
      (free : ∀ other ∈ t.requests, other.effectExecutionId = effectExecutionId →
        other.status.active = false)
      (written : t'.requests = t.requests ++ [row])

theorem accept_accepts {asking : Except Fault Asking}
    {projectId runId effectExecutionId : Uuid}
    {target : Except Fault EffectReconciliationTarget} {request : ReconciliationRequestSnapshot}
    (committed : accept settings t asking requestId projectId runId effectExecutionId target =
      .ok (request, t')) : Accepted t t' requestId effectExecutionId request := by
  simp only [accept, bind_eq_ok, require_eq_ok, exists_unit] at committed
  obtain ⟨-, user, -, -, -, -, rest⟩ := committed
  split at rest
  · rename_i existing found
    simp only [bind_eq_ok, require_eq_ok, exists_unit, pure_eq_ok, Prod.mk.injEq] at rest
    obtain ⟨-, -, -, -, rfl, rfl⟩ := rest
    obtain ⟨known, id⟩ := find_known found
    exact .again known id rfl rfl
  · simp only [create, bind_eq_ok, require_eq_ok, exists_unit, pure_eq_ok, Prod.mk.injEq] at rest
    obtain ⟨known, -, now, -, ⟨row, created⟩, ⟨-, -, free, fresh, rfl, rfl⟩, -, -, rfl, rfl⟩ := rest
    exact .added rfl fresh rfl rfl rfl rfl free rfl

theorem execReconciliation_moves {action : ReconciliationAction R}
    {answer : ReconciliationAnswer}
    (committed : execReconciliation settings action t = .ok (answer, t')) :
    (∃ asking requestId projectId runId effectExecutionId target request,
      action = .accept asking requestId projectId runId effectExecutionId target ∧
      answer = .accepted request ∧ Accepted t t' requestId effectExecutionId request) ∨
    ∃ row row', Wrote t t' row row' ∧ RequestMove settings action answer row row' := by
  cases action with
  | accept asking requestId projectId runId effectExecutionId target =>
    obtain ⟨request, accepted, rfl⟩ := answering_eq_ok.mp committed
    exact Or.inl ⟨_, _, _, _, _, _, request, rfl, rfl, accept_accepts accepted⟩
  | claim requestId visit first token now last =>
    obtain ⟨owner, claims, rfl⟩ := answering_eq_ok.mp committed
    exact Or.inr (claimRequest_moves claims)
  | authorize owner visit first now =>
    obtain ⟨target, authorizes, rfl⟩ := answering_eq_ok.mp committed
    obtain ⟨row, row', wrote, closed⟩ := authorizeOwner_moves authorizes
    exact Or.inr ⟨row, row', wrote, .closes (by simp) closed⟩
  | finish owner observation visit first now last commit =>
    obtain ⟨request, finishes, rfl⟩ := answering_eq_ok.mp committed
    obtain ⟨row, row', wrote, move, -⟩ := finishRequest_moves finishes
    exact Or.inr ⟨row, row', wrote, move⟩
  | fail owner code visit now first later =>
    simp only [execReconciliation, bind_eq_ok, pure_eq_ok, Prod.mk.injEq] at committed
    obtain ⟨_, fails, rfl, rfl⟩ := committed
    obtain ⟨row, row', wrote, closed⟩ := failRequest_moves fails
    exact Or.inr ⟨row, row', wrote, .closes (by simp) closed⟩
  | recoverExpired requestId visit first =>
    obtain ⟨changed, recovers, rfl⟩ := answering_eq_ok.mp committed
    obtain ⟨row, row', wrote, closed⟩ := recoverExpired_moves recovers
    exact Or.inr ⟨row, row', wrote, .closes (by simp) closed⟩

/-- The requests of the store, with the answers given so far. -/
structure Exclusive (settings : ReconciliationSettings R)
    (log : List (ReconciliationAction R × ReconciliationAnswer)) (t : ReconciliationTables) :
    Prop where
  keyed : Keyed EffectReconciliationRequest.id t.requests
  formed : ∀ row ∈ t.requests, row.wellFormed = true
  single : ∀ row ∈ t.requests, ∀ other ∈ t.requests, row.status.active = true →
    other.status.active = true → row.effectExecutionId = other.effectExecutionId → row = other
  owned : ∀ row ∈ t.requests, row.status = .running → ∃ action owner,
    (action, .claimed (some owner)) ∈ log ∧ owner.request.requestId = row.id ∧
      row.ownerHash = some (settings.leaseTokenHash owner.token)

theorem exclusive_empty : Exclusive settings [] ReconciliationTables.empty where
  keyed := List.nodup_nil
  formed _ member := nomatch member
  single _ member := nomatch member
  owned _ member := nomatch member

variable {log : List (ReconciliationAction R × ReconciliationAnswer)}
  {action : ReconciliationAction R} {answer : ReconciliationAnswer}

theorem RequestMove.active (move : RequestMove settings action answer row row')
    (active : row'.status.active = true) : row.status.active = true := by
  by_contra ended
  rw [move.final (Bool.eq_false_iff.mpr ended)] at active
  exact ended active

theorem Exclusive.wrote (exclusive : Exclusive settings log t) (wrote : Wrote t t' row row')
    (move : RequestMove settings action answer row row') :
    Exclusive settings (log ++ [(action, answer)]) t' := by
  have known := wrote.known
  constructor
  · rw [wrote.written]
    exact exclusive.keyed.replaceRow _
  · intro one member
    rw [wrote.written] at member
    rcases mem_replaceRow member with ⟨rfl, -⟩ | ⟨old, -⟩
    · exact wrote.formed
    · exact exclusive.formed one old
  · intro one oneMem other otherMem oneActive otherActive same
    rw [wrote.written] at oneMem otherMem
    have apart : ∀ other ∈ t.requests, other.id ≠ row'.id → other.status.active = true →
        row'.status.active = true → row'.effectExecutionId ≠ other.effectExecutionId := by
      intro other otherMem distinct otherActive active same
      have one := exclusive.single row known other otherMem (move.active active) otherActive
        (move.effect.symm.trans same)
      exact distinct (one ▸ move.id.symm)
    rcases mem_replaceRow oneMem with ⟨rfl, -⟩ | ⟨oneOld, oneNe⟩ <;>
      rcases mem_replaceRow otherMem with ⟨rfl, -⟩ | ⟨otherOld, otherNe⟩
    · rfl
    · exact absurd same (apart other otherOld otherNe otherActive oneActive)
    · exact absurd same.symm (apart one oneOld oneNe oneActive otherActive)
    · exact exclusive.single one oneOld other otherOld oneActive otherActive same
  · intro one member runs
    rw [wrote.written] at member
    rcases mem_replaceRow member with ⟨rfl, -⟩ | ⟨old, -⟩
    · rcases move.running runs with rfl | ⟨owner, rfl, request, held⟩
      · obtain ⟨claim, owner, issued, rest⟩ := exclusive.owned _ known runs
        exact ⟨claim, owner, List.mem_append_left _ issued, rest⟩
      · exact ⟨action, owner, List.mem_append_right _ (List.mem_singleton.mpr rfl),
          request.trans move.id.symm, held⟩
    · obtain ⟨claim, owner, issued, rest⟩ := exclusive.owned one old runs
      exact ⟨claim, owner, List.mem_append_left _ issued, rest⟩

theorem Exclusive.accepted (exclusive : Exclusive settings log t)
    {requestId effectExecutionId : Uuid} {request : ReconciliationRequestSnapshot}
    (accepted : Accepted t t' requestId effectExecutionId request) :
    Exclusive settings (log ++ [(action, answer)]) t' := by
  cases accepted with
  | again known id shown same =>
    subst same
    refine ⟨exclusive.keyed, exclusive.formed, exclusive.single, fun row member runs => ?_⟩
    obtain ⟨claim, owner, issued, rest⟩ := exclusive.owned row member runs
    exact ⟨claim, owner, List.mem_append_left _ issued, rest⟩
  | @added row id fresh shown queued formed effect free written =>
    have old : ∀ one ∈ t'.requests, one ∈ t.requests ∨ one = row := by
      intro one member
      rw [written] at member
      exact (List.mem_append.mp member).imp_right List.mem_singleton.mp
    have apart : ∀ other ∈ t.requests, other.status.active = true →
        row.effectExecutionId ≠ other.effectExecutionId := by
      intro other member active same
      rw [free other member (same.symm.trans effect)] at active
      cases active
    constructor
    · rw [written]
      exact exclusive.keyed.add fun other member => id ▸ (fresh other member).symm
    · intro one member
      rcases old one member with known | rfl
      · exact exclusive.formed one known
      · exact formed
    · intro one oneMem other otherMem oneActive otherActive same
      rcases old one oneMem with oneOld | rfl <;> rcases old other otherMem with otherOld | rfl
      · exact exclusive.single one oneOld other otherOld oneActive otherActive same
      · exact absurd same.symm (apart one oneOld oneActive)
      · exact absurd same (apart other otherOld otherActive)
      · rfl
    · intro one member runs
      rcases old one member with known | rfl
      · obtain ⟨claim, owner, issued, rest⟩ := exclusive.owned one known runs
        exact ⟨claim, owner, List.mem_append_left _ issued, rest⟩
      · rw [queued] at runs
        cases runs

theorem exclusive_kept (log : List (ReconciliationAction R × ReconciliationAnswer))
    (t : ReconciliationTables) (action : ReconciliationAction R) (answer : ReconciliationAnswer)
    (t' : ReconciliationTables) (exclusive : Exclusive settings log t)
    (committed : (reconciliationStore settings).exec action t = .ok (answer, t')) :
    Exclusive settings (log ++ [(action, answer)]) t' := by
  rcases execReconciliation_moves committed with
    ⟨_, _, _, _, _, _, _, -, -, accepted⟩ | ⟨row, row', wrote, move⟩
  · exact exclusive.accepted accepted
  · exact exclusive.wrote wrote move

def ReconciliationAnswer.claims (answer : ReconciliationAnswer) (requestId : Uuid) : Bool :=
  match answer with
  | .claimed (some owner) => owner.request.requestId = requestId
  | _ => false

/-- The request has had its owner, or needs none any more. -/
def Claimed (requestId : Uuid) (t : ReconciliationTables) : Prop :=
  ∃ row ∈ t.requests, row.id = requestId ∧ row.status ≠ .queued

theorem RequestMove.handed (move : RequestMove settings action answer row row')
    (hands : answer.claims requestId = true) :
    row.id = requestId ∧ row.status = .queued ∧ row'.status = .running := by
  cases move with
  | closes unowned closed =>
    unfold ReconciliationAnswer.claims at hands
    split at hands
    · rename_i owner
      exact absurd rfl (unowned owner)
    · cases hands
  | claims queued running request =>
    exact ⟨request.symm.trans (of_decide_eq_true hands), queued, running⟩
  | finishes own finishes => cases hands

theorem keyed_invariant : (reconciliationStore settings).Invariant
    fun t => Keyed EffectReconciliationRequest.id t.requests := by
  intro t action answer t' keyed committed
  rcases execReconciliation_moves committed with
    ⟨_, _, _, _, _, _, _, -, -, accepted⟩ | ⟨row, row', wrote, move⟩
  · cases accepted with
    | again known id shown same =>
      subst same
      exact keyed
    | added id fresh shown queued formed effect free written =>
      rw [written]
      exact keyed.add fun other member => id ▸ (fresh other member).symm
  · rw [wrote.written]
    exact keyed.replaceRow _

theorem claimed_stays (keyed : Keyed EffectReconciliationRequest.id t.requests)
    (committed : (reconciliationStore settings).exec action t = .ok (answer, t'))
    (claimed : Claimed requestId t) : Claimed requestId t' := by
  obtain ⟨old, oldMem, id, unqueued⟩ := claimed
  rcases execReconciliation_moves committed with
    ⟨_, _, _, _, _, _, _, -, -, accepted⟩ | ⟨row, row', wrote, move⟩
  · cases accepted with
    | again known id' shown same => exact ⟨old, same ▸ oldMem, id, unqueued⟩
    | added id' fresh shown queued formed effect free written =>
      exact ⟨old, written ▸ List.mem_append_left _ oldMem, id, unqueued⟩
  · by_cases hit : old.id = row'.id
    · have same := keyed.eq_of_key oldMem wrote.known (hit.trans move.id)
      refine ⟨row', ?_, hit.symm.trans id, fun queued => unqueued (same ▸ move.queued queued)⟩
      rw [wrote.written]
      exact mem_replaceRow_self oldMem hit
    · refine ⟨old, ?_, id, unqueued⟩
      rw [wrote.written]
      exact mem_replaceRow_of_ne oldMem hit

theorem claimed_once (requestId : Uuid) (actions : List (ReconciliationAction R)) :
    ((reconciliationStore settings).answers ReconciliationTables.empty actions).countP
      (fun entry => entry.2.claims requestId) ≤ 1 := by
  have stays : ∀ s action answer s', Keyed EffectReconciliationRequest.id s.requests →
      (reconciliationStore settings).exec action s = .ok (answer, s') →
      Claimed requestId s → Claimed requestId s' :=
    fun s action answer s' keyed committed claimed => claimed_stays keyed committed claimed
  have spends : ∀ s action answer s', Keyed EffectReconciliationRequest.id s.requests →
      (reconciliationStore settings).exec action s = .ok (answer, s') →
      answer.claims requestId = true → ¬ Claimed requestId s ∧ Claimed requestId s' := by
    intro s action answer s' keyed committed hands
    rcases execReconciliation_moves committed with
      ⟨_, _, _, _, _, _, _, -, rfl, -⟩ | ⟨row, row', wrote, move⟩
    · cases hands
    · obtain ⟨id, queued, running⟩ := move.handed hands
      constructor
      · rintro ⟨other, member, same, unqueued⟩
        rw [keyed.eq_of_key member wrote.known (same.trans id.symm)] at unqueued
        exact unqueued queued
      · refine ⟨row', ?_, move.id.trans id, by rw [running]; decide⟩
        rw [wrote.written]
        exact mem_replaceRow_self wrote.known move.id.symm
  have keyed : Keyed EffectReconciliationRequest.id ReconciliationTables.empty.requests :=
    List.nodup_nil
  exact TransactionSystem.answered_once keyed_invariant stays spends keyed actions

theorem formed_succeeded (formed : row.wellFormed = true) (succeeded : row.status = .succeeded) :
    ∃ claimedAt observedAt finishedAt expiry, row.claimedAt = some claimedAt ∧
      row.observedAt = some observedAt ∧ row.finishedAt = some finishedAt ∧
      row.leaseExpiresAt = some expiry ∧ claimedAt ≤ observedAt ∧ observedAt ≤ finishedAt ∧
      finishedAt < expiry := by
  have state := (Bool.and_eq_true_iff.mp formed).2
  rw [EffectReconciliationRequest.stateCheck, succeeded] at state
  dsimp only at state
  split at state
  · rename_i claimedAt expiry finishedAt observedAt status claimed leased finished observed stored
    simp only [Bool.and_eq_true, decide_eq_true_eq] at state
    obtain ⟨⟨-, ordered⟩, -⟩ := state
    exact ⟨claimedAt, observedAt, finishedAt, expiry, claimed, observed, finished, leased,
      ordered⟩
  · cases state

/-- What holds of one more transaction after the run that gave the answers of the log. -/
structure FinalStep (settings : ReconciliationSettings R)
    (log : List (ReconciliationAction R × ReconciliationAnswer)) (t t' : ReconciliationTables)
    (action : ReconciliationAction R) (answer : ReconciliationAnswer) : Prop where
  /-- A request that is over stays as it is. -/
  final : ∀ row ∈ t.requests, row.status.active = false → row ∈ t'.requests
  /-- A request that succeeds was running, and the worker that finishes it has the token that
  was handed out for it, within the lease. -/
  owner : ∀ row' ∈ t'.requests, row'.status = .succeeded → row' ∉ t.requests →
    ∃ owner observation visit first now last commit,
      action = .finish owner observation visit first now last commit ∧
      ∃ row ∈ t.requests, row.id = row'.id ∧ row.id = owner.request.requestId ∧
        row.status = .running ∧ row.leased now = true ∧ row.leased commit = true ∧
        ∃ claim issued, (claim, .claimed (some issued)) ∈ log ∧
          issued.request.requestId = row.id ∧
          settings.leaseTokenHash issued.token = settings.leaseTokenHash owner.token
  /-- An accepted finish finds or leaves exactly its observation. -/
  recorded : ∀ owner observation visit first now last commit request,
    action = .finish owner observation visit first now last commit →
    answer = .finished (some request) →
    ∃ row' ∈ t'.requests, Recorded settings owner observation row' ∧ request = row'.snapshot
  /-- Asking again returns the request that is there. -/
  again : ∀ asking requestId projectId runId effectExecutionId target,
    action = .accept asking requestId projectId runId effectExecutionId target →
    ∀ row ∈ t.requests, row.id = requestId → t' = t ∧ answer = .accepted row.snapshot

theorem Exclusive.finalStep (exclusive : Exclusive settings log t)
    (committed : (reconciliationStore settings).exec action t = .ok (answer, t')) :
    FinalStep settings log t t' action answer := by
  have moves := execReconciliation_moves committed
  constructor
  · intro old oldMem ended
    rcases moves with ⟨_, _, _, _, _, _, _, -, -, accepted⟩ | ⟨row, row', wrote, move⟩
    · cases accepted with
      | again known id shown same => exact same ▸ oldMem
      | added id fresh shown queued formed effect free written =>
        rw [written]
        exact List.mem_append_left _ oldMem
    · rw [wrote.written]
      by_cases hit : old.id = row'.id
      · have same := exclusive.keyed.eq_of_key oldMem wrote.known (hit.trans move.id)
        have unwritten := move.final (same ▸ ended)
        rw [unwritten, ← same]
        exact mem_replaceRow_self oldMem rfl
      · exact mem_replaceRow_of_ne oldMem hit
  · intro late lateMem succeeds new
    rcases moves with ⟨_, _, _, _, _, _, _, -, -, accepted⟩ | ⟨row, row', wrote, move⟩
    · cases accepted with
      | again known id shown same => exact absurd (same ▸ lateMem) new
      | added id fresh shown queued formed effect free written =>
        rw [written] at lateMem
        rcases List.mem_append.mp lateMem with old | added
        · exact absurd old new
        · rw [List.mem_singleton.mp added, queued] at succeeds
          cases succeeds
    · rw [wrote.written] at lateMem
      rcases mem_replaceRow lateMem with ⟨rfl, -⟩ | ⟨old, -⟩
      · rcases move.succeeded succeeds with rfl | ⟨owner, observation, visit, first, now, last,
          commit, acts, own, finishes⟩
        · exact absurd wrote.known new
        · obtain ⟨claim, issued, given, request, held⟩ :=
            exclusive.owned row wrote.known finishes.running
          exact ⟨owner, observation, visit, first, now, last, commit, acts, row, wrote.known,
            move.id.symm, own.symm, finishes.running, finishes.leased, finishes.still, claim,
            issued, given, request, Option.some.inj (held.symm.trans finishes.held)⟩
      · exact absurd old new
  · rintro owner observation visit first now last commit request rfl rfl
    obtain ⟨request', finishes, shown⟩ := answering_eq_ok.mp committed
    obtain ⟨row, row', wrote, move, accepted⟩ := finishRequest_moves finishes
    obtain ⟨recorded, same⟩ := accepted request (by cases shown; rfl)
    refine ⟨row', ?_, recorded, same⟩
    rw [wrote.written]
    exact mem_replaceRow_self wrote.known move.id.symm
  · rintro asking requestId projectId runId effectExecutionId target rfl row known id
    obtain ⟨request, accepts, rfl⟩ := answering_eq_ok.mp committed
    cases accept_accepts accepts with
    | @again existing there id' shown same =>
      rw [shown, exclusive.keyed.eq_of_key known there (id.trans id'.symm)]
      exact ⟨same, rfl⟩
    | added id' fresh => exact absurd id (fresh row known)

/-- **Reconciliation requests are exclusive and final** in every run of users and workers: an
effect has at most one active request, a request is handed to one owner at most, a request that
succeeded was finished within its lease, and every further transaction keeps what is over
(`FinalStep`). -/
theorem requests_exclusive_and_final (actions : List (ReconciliationAction R)) :
    let t := (reconciliationStore settings).run ReconciliationTables.empty actions
    let log := (reconciliationStore settings).answers ReconciliationTables.empty actions
    Keyed EffectReconciliationRequest.id t.requests ∧
    (∀ row ∈ t.requests, ∀ other ∈ t.requests, row.status.active = true →
      other.status.active = true → row.effectExecutionId = other.effectExecutionId →
      row = other) ∧
    (∀ requestId, log.countP (fun entry => entry.2.claims requestId) ≤ 1) ∧
    (∀ row ∈ t.requests, row.status = .succeeded → ∃ claimedAt observedAt finishedAt expiry,
      row.claimedAt = some claimedAt ∧ row.observedAt = some observedAt ∧
      row.finishedAt = some finishedAt ∧ row.leaseExpiresAt = some expiry ∧
      claimedAt ≤ observedAt ∧ observedAt ≤ finishedAt ∧ finishedAt < expiry) ∧
    ∀ action answer t', (reconciliationStore settings).exec action t = .ok (answer, t') →
      FinalStep settings log t t' action answer := by
  intro t log
  have exclusive : Exclusive settings log t :=
    TransactionSystem.history exclusive_kept exclusive_empty actions
  refine ⟨exclusive.keyed, exclusive.single, fun requestId => claimed_once requestId actions,
    fun row member => formed_succeeded (exclusive.formed row member), ?_⟩
  intro action answer t' committed
  exact exclusive.finalStep committed

end SkillMind.Reconciliation
