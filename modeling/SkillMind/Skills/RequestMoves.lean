import SkillMind.Skills.RequestService

/-!
# What a transaction does to an interpretation request

Every transaction writes one request at most and one call at most. A request that is over is never
written again, a call is granted to a running request only, in its turn, and a result is adopted
only while the session that asked is valid.
-/

namespace SkillMind.Skills

open Library Users
open Runs (Uuid Timestamp)

variable {J : Type} {settings : InterpretationSettings J} {t t' : InterpretationTables J}
  {row row' : SkillInterpretationRequest J} {action : InterpretationAction J}
  {answer : InterpretationAnswer J}

/-! ## Moves -/

def SkillInterpretationRequest.frozen (row : SkillInterpretationRequest J) :
    SkillInterpretationRequest J :=
  { row with
    status := .queued
    ownerHash := none
    claimedAt := none
    finishedAt := none
    interpretationId := none
    errorCode := none }

/-- The answer neither hands a request to an owner nor adopts a result. -/
structure Quiet (answer : InterpretationAnswer J) : Prop where
  unclaimed : ∀ owner, answer ≠ .claimed (some owner)
  unfinished : ∀ stored, answer ≠ .finished (some stored)

def sessionOf (t : InterpretationTables J) (row : SkillInterpretationRequest J) :
    Option (User × AuthSession) :=
  (lockSessionReference t.users row.organizationId row.actorId row.authSessionId).toOption

/-- The result is adopted by the owner, after every call returned, in a valid session. -/
structure Adopts (settings : InterpretationSettings J) (t : InterpretationTables J)
    (owner : InterpretationRequestOwner J) (times : FinishTimes)
    (row row' : SkillInterpretationRequest J) : Prop where
  started : row.status = .running ∨ row.status = .unknown
  owned : owns settings row owner = true
  returned : ∀ call ∈ t.calls, call.requestId = row.id → call.returnedAt.isSome = true
  valid : authorized (sessionOf t row) times.last = true
  stored : ∃ stored, row' = row.adopted stored times.finishedAt

/-- The request is left as it is, or ended without a result while it is active. -/
inductive Closed (row row' : SkillInterpretationRequest J) : Prop
  | stays (same : row' = row)
  | ends (active : row.status.active = true) (ended : row'.status ∈ [.failed, .revoked])
      (unadopted : row'.interpretationId = row.interpretationId) (frozen : row'.frozen = row.frozen)

inductive RequestMove (settings : InterpretationSettings J) (t : InterpretationTables J) :
    InterpretationAction J → InterpretationAnswer J → SkillInterpretationRequest J →
    SkillInterpretationRequest J → Prop
  | closes {action : InterpretationAction J} {answer : InterpretationAnswer J}
      {row row' : SkillInterpretationRequest J} (quiet : Quiet answer) (closed : Closed row row') :
      RequestMove settings t action answer row row'
  | unknown {action : InterpretationAction J} {answer : InterpretationAnswer J}
      {row row' : SkillInterpretationRequest J} (quiet : Quiet answer)
      (running : row.status = .running) (marked : row' = { row with status := .unknown }) :
      RequestMove settings t action answer row row'
  | claims {action : InterpretationAction J} {owner : InterpretationRequestOwner J}
      {row row' : SkillInterpretationRequest J} (queued : row.status = .queued)
      (running : row'.status = .running) (request : owner.request.requestId = row.id)
      (held : row'.ownerHash = some (settings.ownerHash owner.token))
      (unadopted : row'.interpretationId = row.interpretationId)
      (frozen : row'.frozen = row.frozen) :
      RequestMove settings t action (.claimed (some owner)) row row'
  | adopts {owner : InterpretationRequestOwner J} {source : ResultSource} {times : FinishTimes}
      {stored : StoredInterpretationExecution} {row row' : SkillInterpretationRequest J}
      (adopts : Adopts settings t owner times row row') :
      RequestMove settings t (.finish owner source times) (.finished (some stored)) row row'

structure Permits (permit : InterpretationCallPermit J) (call : SkillInterpretationCall) :
    Prop where
  id : permit.callId = call.id
  ordinal : permit.ordinal = call.ordinal
  request : permit.owner.request.requestId = call.requestId

/-- What a transaction does to the calls, while it holds the request. -/
inductive CallsMove (row : SkillInterpretationRequest J) (answer : InterpretationAnswer J)
    (calls : List SkillInterpretationCall) : List SkillInterpretationCall → Prop
  | same (ungranted : ∀ permit, answer ≠ .started (some permit)) : CallsMove row answer calls calls
  | granted (call : SkillInterpretationCall)
      (fresh : ∀ other ∈ calls, other.id ≠ call.id ∧
        (other.requestId, other.ordinal) ≠ (call.requestId, call.ordinal))
      (running : row.status = .running) (request : call.requestId = row.id)
      (turn : call.ordinal = 0 ∨ call.ordinal = 1 ∧ ∃ first ∈ calls,
        first.requestId = row.id ∧ first.ordinal = 0 ∧ first.returnedAt.isSome = true)
      (permitted : ∀ permit, answer = .started (some permit) → Permits permit call)
      (quiet : Quiet answer) : CallsMove row answer calls (calls ++ [call])
  | returned (old new : SkillInterpretationCall) (known : old ∈ calls)
      (kept : new.id = old.id ∧ new.requestId = old.requestId ∧ new.ordinal = old.ordinal)
      (returned : new.returnedAt.isSome = true)
      (ungranted : ∀ permit, answer ≠ .started (some permit)) :
      CallsMove row answer calls (replaceRow SkillInterpretationCall.id new calls)

inductive LedgerMove (settings : InterpretationSettings J) (t : InterpretationTables J)
    (action : InterpretationAction J) (answer : InterpretationAnswer J)
    (t' : InterpretationTables J) : Prop
  | other (quiet : Quiet answer) (ungranted : ∀ permit, answer ≠ .started (some permit))
      (requests : t'.requests = t.requests) (calls : t'.calls = t.calls)
  | added (row : SkillInterpretationRequest J) (requests : t'.requests = t.requests ++ [row])
      (calls : t'.calls = t.calls) (quiet : Quiet answer)
      (ungranted : ∀ permit, answer ≠ .started (some permit))
      (fresh : ∀ other ∈ t.requests, other.id ≠ row.id ∧
        (other.organizationId, other.executionKey) ≠ (row.organizationId, row.executionKey))
      (queued : row.status = .queued) (empty : row.interpretationId = none)
      (nonzero : row.id ≠ 0) (key : isExecutionKey row.executionKey = true)
      (checksum : row.inputChecksum = settings.checksum row.inputJson)
  | wrote (row row' : SkillInterpretationRequest J) (known : row ∈ t.requests)
      (move : RequestMove settings t action answer row row')
      (requests : t'.requests = replaceRow SkillInterpretationRequest.id row' t.requests)
      (calls : CallsMove row answer t.calls t'.calls)

namespace RequestMove

theorem frozen (move : RequestMove settings t action answer row row') :
    row'.frozen = row.frozen := by
  cases move with
  | closes quiet closed =>
    rcases closed with rfl | ⟨-, -, -, frozen⟩
    · rfl
    · exact frozen
  | unknown quiet running marked =>
    subst marked
    rfl
  | claims queued running request held unadopted frozen => exact frozen
  | adopts adopts =>
    obtain ⟨stored, rfl⟩ := adopts.stored
    rfl

theorem id (move : RequestMove settings t action answer row row') : row'.id = row.id :=
  (congrArg SkillInterpretationRequest.id move.frozen :)

theorem executionKey (move : RequestMove settings t action answer row row') :
    row'.executionKey = row.executionKey :=
  (congrArg SkillInterpretationRequest.executionKey move.frozen :)

theorem execution (move : RequestMove settings t action answer row row') :
    (row'.organizationId, row'.executionKey) = (row.organizationId, row.executionKey) :=
  Prod.ext (congrArg SkillInterpretationRequest.organizationId move.frozen :) move.executionKey

theorem input (move : RequestMove settings t action answer row row') :
    row'.inputJson = row.inputJson ∧ row'.inputChecksum = row.inputChecksum :=
  ⟨(congrArg SkillInterpretationRequest.inputJson move.frozen :),
    (congrArg SkillInterpretationRequest.inputChecksum move.frozen :)⟩

theorem final (move : RequestMove settings t action answer row row')
    (ended : row.status.active = false) : row' = row := by
  cases move with
  | closes quiet closed =>
    rcases closed with same | ⟨active, -, -, -⟩
    · exact same
    · rw [active] at ended
      cases ended
  | unknown quiet running =>
    rw [running] at ended
    cases ended
  | claims queued =>
    rw [queued] at ended
    cases ended
  | adopts adopts =>
    rcases adopts.started with running | unknown
    · rw [running] at ended
      cases ended
    · rw [unknown] at ended
      cases ended

theorem started (move : RequestMove settings t action answer row row')
    (runs : row'.status = .running ∨ row'.status = .unknown) :
    ((row.status = .running ∨ row.status = .unknown) ∧ row'.ownerHash = row.ownerHash) ∨
      ∃ owner, answer = .claimed (some owner) ∧ owner.request.requestId = row.id ∧
        row'.ownerHash = some (settings.ownerHash owner.token) := by
  cases move with
  | closes quiet closed =>
    rcases closed with rfl | ⟨-, ends, -, -⟩
    · exact Or.inl ⟨runs, rfl⟩
    · rcases runs with runs | runs <;>
      · rw [runs] at ends
        simp at ends
  | unknown quiet running marked =>
    subst marked
    exact Or.inl ⟨Or.inl running, rfl⟩
  | claims queued running request held => exact Or.inr ⟨_, rfl, request, held⟩
  | adopts adopts =>
    obtain ⟨stored, rfl⟩ := adopts.stored
    dsimp only [SkillInterpretationRequest.adopted] at runs
    split at runs <;> simp at runs

theorem adopted (move : RequestMove settings t action answer row row')
    (result : row'.interpretationId ≠ row.interpretationId) :
    ∃ owner source times stored, action = .finish owner source times ∧
      answer = .finished (some stored) ∧ Adopts settings t owner times row row' := by
  cases move with
  | closes quiet closed =>
    rcases closed with rfl | ⟨-, -, unadopted, -⟩
    · exact absurd rfl result
    · exact absurd unadopted result
  | unknown quiet running marked =>
    subst marked
    exact absurd rfl result
  | claims queued running request held unadopted => exact absurd unadopted result
  | adopts adopts => exact ⟨_, _, _, _, rfl, rfl, adopts⟩

theorem queued (move : RequestMove settings t action answer row row')
    (still : row'.status = .queued) : row.status = .queued := by
  cases move with
  | closes quiet closed =>
    rcases closed with rfl | ⟨-, ends, -, -⟩
    · exact still
    · rw [still] at ends
      simp at ends
  | unknown quiet running marked =>
    subst marked
    cases still
  | claims queued => exact queued
  | adopts adopts =>
    obtain ⟨stored, rfl⟩ := adopts.stored
    dsimp only [SkillInterpretationRequest.adopted] at still
    split at still <;> cases still

theorem unadopted (move : RequestMove settings t action answer row row')
    (before : row.status.active = true → row.interpretationId = none)
    (active : row'.status.active = true) : row'.interpretationId = none := by
  cases move with
  | closes quiet closed =>
    rcases closed with rfl | ⟨-, ends, -, -⟩
    · exact before active
    · have ended : row'.status.active = false := by
        revert ends
        cases row'.status <;> decide
      rw [ended] at active
      cases active
  | unknown quiet running marked =>
    subst marked
    exact before (by rw [running]; rfl)
  | claims queued running request held unadopted =>
    rw [unadopted]
    exact before (by rw [queued]; rfl)
  | adopts adopts =>
    obtain ⟨stored, rfl⟩ := adopts.stored
    dsimp only [SkillInterpretationRequest.adopted] at active
    split at active <;> cases active

end RequestMove

/-! ## The operations -/

theorem Closed.authorize {checked : SkillInterpretationRequest J} (closed : Closed row checked)
    (locked : Option (User × AuthSession)) (now : Timestamp) :
    Closed row (authorize row.status locked checked now).1 := by
  unfold Skills.authorize
  split
  · exact closed
  · split
    · rename_i active
      rcases closed with rfl | ⟨was, ended, unadopted, frozen⟩
      · rw [or_self] at active
        exact .ends active (by simp) rfl rfl
      · exact .ends was (by simp) unadopted frozen
    · exact closed

theorem authorize_goesOn {initialStatus : RequestStatus} {locked : Option (User × AuthSession)}
    {now : Timestamp} (goesOn : (authorize initialStatus locked row now).2 = true) :
    (authorize initialStatus locked row now).1 = row ∧ authorized locked now = true := by
  unfold authorize at goesOn ⊢
  split
  · rename_i valid
    exact ⟨rfl, valid⟩
  · rename_i invalid
    rw [if_neg invalid] at goesOn
    split at goesOn <;> cases goesOn

theorem authorize_lost {initialStatus : RequestStatus} {locked : Option (User × AuthSession)}
    {now : Timestamp} (active : initialStatus.active = true)
    (lost : ¬ (authorize initialStatus locked row now).2 = true) :
    (authorize initialStatus locked row now).1.status = .revoked ∧
      (authorize initialStatus locked row now).1.interpretationId = row.interpretationId ∧
      (authorize initialStatus locked row now).1.frozen = row.frozen := by
  unfold authorize at lost ⊢
  split
  · rename_i valid
    rw [if_pos valid] at lost
    exact absurd rfl lost
  · rw [if_pos (Or.inr active)]
    exact ⟨rfl, rfl, rfl⟩

variable {requestId : Uuid}

theorem lockedRequest_known {locked : Option (User × AuthSession)}
    (locks : lockedRequest t requestId = .ok (row, locked)) :
    row ∈ t.requests ∧ row.id = requestId ∧ locked = sessionOf t row := by
  simp only [lockedRequest, requireRequest, find, bind_eq_ok, orFault_eq_ok, pure_eq_ok,
    Prod.mk.injEq] at locks
  obtain ⟨_, found, rfl, rfl⟩ := locks
  exact ⟨List.mem_of_find?_eq_some found, of_decide_eq_true (List.find?_some found :), rfl⟩

theorem mem_calls {call : SkillInterpretationCall} :
    call ∈ calls t requestId ↔ call ∈ t.calls ∧ call.requestId = requestId := by
  rw [calls, List.mem_insertionSort, List.mem_filter, decide_eq_true_eq]

variable {owner : InterpretationRequestOwner J}

theorem owns_known (owned : owns settings row owner = true) :
    row.id = owner.request.requestId ∧
      row.ownerHash = some (settings.ownerHash owner.token) := by
  simp only [owns, Bool.and_eq_true, decide_eq_true_eq] at owned
  exact ⟨owned.1.1.1.1.1.1.1.1.1, owned.2⟩

theorem LedgerMove.of_put (known : row ∈ t.requests)
    (move : RequestMove settings t action answer row row')
    (ungranted : ∀ permit, answer ≠ .started (some permit)) :
    LedgerMove settings t action answer (put t row') :=
  .wrote row row' known move rfl (.same ungranted)

theorem LedgerMove.of_closed (known : row ∈ t.requests) (closed : Closed row row')
    (quiet : Quiet answer) (ungranted : ∀ permit, answer ≠ .started (some permit)) :
    LedgerMove settings t action answer (put t row') :=
  .of_put known (.closes quiet closed) ungranted

theorem claim_moves {token : String} {first claimedAt last : Timestamp}
    {owner : Option (InterpretationRequestOwner J)}
    (claims : claim settings t requestId token first claimedAt last = .ok (owner, t')) :
    LedgerMove settings t (.claim requestId token first claimedAt last) (.claimed owner) t' := by
  simp only [claim, bind_eq_ok, Prod.exists] at claims
  obtain ⟨row, locked, locks, rest⟩ := claims
  obtain ⟨known, -, -⟩ := lockedRequest_known locks
  have quiet : Quiet (.claimed none : InterpretationAnswer J) := ⟨by simp, by simp⟩
  split at rest
  · rename_i goesOn
    have queued := goesOn.2
    rw [(authorize_goesOn goesOn.1).1] at rest queued
    have active : row.status.active = true := by
      rw [queued]
      rfl
    split at rest
    · obtain ⟨rfl, rfl⟩ := Prod.mk.inj (pure_eq_ok.mp rest)
      exact .of_closed known (.ends active (by simp) rfl rfl) quiet (by simp)
    · obtain ⟨rfl, rfl⟩ := Prod.mk.inj (pure_eq_ok.mp rest)
      split
      · rename_i still
        refine .of_put known ?_ (by simp)
        rw [(authorize_goesOn still).1]
        exact .claims queued rfl rfl rfl rfl rfl
      · rename_i lost
        obtain ⟨revoked, unadopted, frozen⟩ := authorize_lost active lost
        exact .of_closed known (.ends active (by simp [revoked]) unadopted frozen) quiet (by simp)
  · obtain ⟨rfl, rfl⟩ := Prod.mk.inj (pure_eq_ok.mp rest)
    exact .of_closed known ((Closed.stays rfl).authorize locked first) quiet (by simp)

theorem expire_moves {now : Timestamp}
    (expires : expire t requestId now = .ok t') :
    LedgerMove settings t (.expire requestId now) .done t' := by
  simp only [expire, bind_eq_ok, Prod.exists, pure_eq_ok] at expires
  obtain ⟨row, locked, locks, rfl⟩ := expires
  exact .of_closed (lockedRequest_known locks).1 ((Closed.stays rfl).authorize locked now)
    ⟨by simp, by simp⟩ (by simp)

theorem markUnknown_moves {now : Timestamp}
    (marks : markUnknown settings t owner now = .ok t') :
    LedgerMove settings t (.markUnknown owner now) .done t' := by
  simp only [markUnknown, bind_eq_ok, Prod.exists] at marks
  obtain ⟨row, locked, locks, rest⟩ := marks
  obtain ⟨known, -, -⟩ := lockedRequest_known locks
  have quiet : Quiet (.done : InterpretationAnswer J) := ⟨by simp, by simp⟩
  split at rest
  · rename_i goesOn
    have running := goesOn.2.1
    rw [(authorize_goesOn goesOn.1).1] at rest running
    obtain rfl := pure_eq_ok.mp rest
    exact .of_put known (.unknown quiet running rfl) (by simp)
  · obtain rfl := pure_eq_ok.mp rest
    exact .of_closed known ((Closed.stays rfl).authorize locked now) quiet (by simp)

theorem recoverUnknown_moves {before now : Timestamp} {changed : Bool}
    (recovers : recoverUnknown t requestId before now = .ok (changed, t')) :
    LedgerMove settings t (.recoverUnknown requestId before now) (.recovered changed) t' := by
  simp only [recoverUnknown, bind_eq_ok, Prod.exists] at recovers
  obtain ⟨row, locked, locks, rest⟩ := recovers
  obtain ⟨known, -, -⟩ := lockedRequest_known locks
  have quiet : Quiet (.recovered changed : InterpretationAnswer J) := ⟨by simp, by simp⟩
  split at rest
  · rename_i stale
    obtain ⟨-, rfl⟩ := Prod.mk.inj (pure_eq_ok.mp rest)
    split
    · rename_i goesOn
      rw [(authorize_goesOn goesOn).1]
      exact .of_put known (.unknown quiet stale.1 rfl) (by simp)
    · exact .of_closed known ((Closed.stays rfl).authorize locked now) quiet (by simp)
  · obtain ⟨-, rfl⟩ := Prod.mk.inj (pure_eq_ok.mp rest)
    exact .other quiet (by simp) rfl rfl

theorem failBeforeCall_moves {errorCode : String}
    {first second finishedAt last : Timestamp} {failed : Bool}
    (fails : failBeforeCall settings t owner errorCode first second finishedAt last =
      .ok (failed, t')) :
    LedgerMove settings t (.failBeforeCall owner errorCode first second finishedAt last)
      (.failed failed) t' := by
  simp only [failBeforeCall, bind_eq_ok, Prod.exists] at fails
  obtain ⟨-, -, row, locked, locks, rest⟩ := fails
  obtain ⟨known, -, -⟩ := lockedRequest_known locks
  have quiet : Quiet (.failed failed : InterpretationAnswer J) := ⟨by simp, by simp⟩
  split at rest
  · rename_i goesOn
    have running := goesOn.2.1
    rw [(authorize_goesOn goesOn.1).1] at rest running
    have active : row.status.active = true := by
      rw [running]
      rfl
    split at rest
    · rename_i continues
      rw [(authorize_goesOn continues.1).1] at rest
      obtain ⟨-, rfl⟩ := Prod.mk.inj (pure_eq_ok.mp rest)
      have closed : Closed row { row with
          status := .failed
          errorCode := some errorCode
          finishedAt := some finishedAt } := .ends active (by simp) rfl rfl
      exact .of_closed known (closed.authorize locked last) quiet (by simp)
    · obtain ⟨-, rfl⟩ := Prod.mk.inj (pure_eq_ok.mp rest)
      exact .of_closed known ((Closed.stays rfl).authorize locked second) quiet (by simp)
  · obtain ⟨-, rfl⟩ := Prod.mk.inj (pure_eq_ok.mp rest)
    exact .of_closed known ((Closed.stays rfl).authorize locked first) quiet (by simp)

theorem recordReturn_moves {permit : InterpretationCallPermit J}
    {returnedAt first last : Timestamp}
    (records : recordReturn settings t permit returnedAt first last = .ok t') :
    LedgerMove settings t (.recordReturn permit returnedAt first last) .done t' := by
  simp only [recordReturn, bind_eq_ok, Prod.exists, require_eq_ok, exists_unit, orFault_eq_ok,
    pure_eq_ok] at records
  obtain ⟨row, locked, locks, -, call, found, rfl⟩ := records
  obtain ⟨known, -, -⟩ := lockedRequest_known locks
  have member := (mem_calls.mp (List.mem_of_find?_eq_some found)).1
  refine .wrote row _ known (.closes ⟨by simp, by simp⟩
    (((Closed.stays rfl).authorize locked first).authorize locked last)) rfl
    (.returned call _ member ?_ ?_ (by simp))
  · split <;> exact ⟨rfl, rfl, rfl⟩
  · split
    · rfl
    · rename_i returned
      exact Option.isSome_iff_ne_none.mpr returned

/-- The calls that are there have their turns: the second one after the first returned. -/
def InTurn (calls : List SkillInterpretationCall) : Prop :=
  ∀ call ∈ calls, call.ordinal = 0 ∨ call.ordinal = 1 ∧ ∃ first ∈ calls,
    first.requestId = call.requestId ∧ first.ordinal = 0 ∧ first.returnedAt.isSome = true

theorem insertCall_eq_ok {call : SkillInterpretationCall} (inserts : insertCall t call = .ok t') :
    (∀ other ∈ t.calls, other.id ≠ call.id ∧
        (other.requestId, other.ordinal) ≠ (call.requestId, call.ordinal)) ∧
      t' = { t with calls := t.calls ++ [call] } := by
  simp only [insertCall, bind_eq_ok, require_eq_ok, exists_unit, pure_eq_ok] at inserts
  exact ⟨inserts.1, inserts.2.symm⟩

theorem first_of_calls (inTurn : InTurn t.calls)
    (single : (calls t requestId).length = 1)
    (returned : (calls t requestId).head?.any (fun call => call.returnedAt.isSome) = true) :
    ∃ first ∈ t.calls, first.requestId = requestId ∧ first.ordinal = 0 ∧
      first.returnedAt.isSome = true := by
  obtain ⟨call, only⟩ := List.length_eq_one_iff.mp single
  rw [only] at returned
  obtain ⟨known, request⟩ := mem_calls.mp (only ▸ List.mem_singleton_self call)
  rcases inTurn call known with zero | ⟨one, first, member, same, zero, -⟩
  · exact ⟨call, known, request, zero, returned⟩
  · have listed : first ∈ calls t requestId := mem_calls.mpr ⟨member, same.trans request⟩
    rw [only, List.mem_singleton] at listed
    rw [listed, one] at zero
    cases zero

theorem startCall_moves (inTurn : InTurn t.calls)
    {ordinal : Nat} {feedback : Option String} {callId : Uuid}
    {first second grantedAt last : Timestamp} {permit : Option (InterpretationCallPermit J)}
    (starts : startCall settings t owner ordinal feedback callId first second grantedAt last =
      .ok (permit, t')) :
    LedgerMove settings t (.startCall owner ordinal feedback callId first second grantedAt last)
      (.started permit) t' := by
  simp only [startCall, bind_eq_ok, Prod.exists, require_eq_ok, exists_unit] at starts
  obtain ⟨shape, row, locked, locks, rest⟩ := starts
  obtain ⟨known, requested, -⟩ := lockedRequest_known locks
  have quiet : Quiet (.started permit : InterpretationAnswer J) := ⟨by simp, by simp⟩
  split at rest
  · rename_i goesOn
    have running := goesOn.2.1
    rw [(authorize_goesOn goesOn.1).1] at rest running
    split at rest
    · rename_i continues
      rw [(authorize_goesOn continues.1).1] at rest
      simp only [bind_eq_ok, pure_eq_ok, Prod.mk.injEq] at rest
      obtain ⟨_, inserts, given, rfl⟩ := rest
      obtain ⟨fresh, rfl⟩ := insertCall_eq_ok inserts
      refine .wrote row _ known (.closes quiet ((Closed.stays rfl).authorize locked last)) rfl
        (.granted _ fresh running rfl ?_ (fun issued issues => ?_) quiet)
      · rcases shape with ⟨zero, -⟩ | ⟨one, -⟩
        · exact Or.inl zero
        · refine Or.inr ⟨one, first_of_calls inTurn (continues.2.1.trans one) ?_⟩
          exact continues.2.2.resolve_left (by rw [one]; decide)
      · rw [← given] at issues
        split at issues
        · cases issues
          exact ⟨rfl, rfl, requested.symm⟩
        · cases issues
    · obtain ⟨rfl, rfl⟩ := Prod.mk.inj (pure_eq_ok.mp rest)
      exact .of_closed known ((Closed.stays rfl).authorize locked second) quiet (by simp)
  · obtain ⟨rfl, rfl⟩ := Prod.mk.inj (pure_eq_ok.mp rest)
    exact .of_closed known ((Closed.stays rfl).authorize locked first) quiet (by simp)

theorem storeResult_frame {source : ResultSource} {stored : StoredInterpretationExecution}
    (stores : storeResult settings t row source = .ok (stored, t')) :
    t'.requests = t.requests ∧ t'.calls = t.calls := by
  cases source with
  | command command interpretationId =>
    simp only [storeResult, saveModelInterpretation, bind_eq_ok] at stores
    obtain ⟨existing, -, rest⟩ := stores
    split at rest
    · obtain ⟨-, rfl⟩ := Prod.mk.inj (pure_eq_ok.mp rest)
      exact ⟨rfl, rfl⟩
    · simp only [bind_eq_ok, require_eq_ok, exists_unit, pure_eq_ok, Prod.mk.injEq] at rest
      obtain ⟨-, -, rfl⟩ := rest
      exact ⟨rfl, rfl⟩
  | existing interpretationId =>
    simp only [storeResult, bind_eq_ok, require_eq_ok, exists_unit, pure_eq_ok, Prod.mk.injEq]
      at stores
    obtain ⟨_, -, -, -, rfl⟩ := stores
    exact ⟨rfl, rfl⟩

theorem finish_moves {source : ResultSource}
    {times : FinishTimes} {stored : Option StoredInterpretationExecution}
    (finishes : finish settings t owner source times = .ok (stored, t')) :
    LedgerMove settings t (.finish owner source times) (.finished stored) t' := by
  simp only [finish, bind_eq_ok, Prod.exists] at finishes
  obtain ⟨row, locked, locks, rest⟩ := finishes
  obtain ⟨known, -, session⟩ := lockedRequest_known locks
  split at rest
  · rename_i goesOn
    have started := goesOn.2.1
    have owned := goesOn.2.2
    rw [(authorize_goesOn goesOn.1).1] at rest started owned
    have committed : ∃ result written, stored = some result ∧
        (∀ call ∈ calls t row.id, call.returnedAt ≠ none) ∧
        storeResult settings t row source = .ok (result, written) ∧
        authorized locked times.last = true ∧
        t' = put written (row.adopted result times.finishedAt) := by
      cases source with
      | command command interpretationId =>
        simp only [bind_eq_ok, require_eq_ok, exists_unit, Prod.exists, pure_eq_ok,
          Prod.mk.injEq] at rest
        obtain ⟨-, -, returned, -, -, result, written, stores, valid, rfl, rfl⟩ := rest
        exact ⟨result, written, rfl, returned, stores, valid, rfl⟩
      | existing interpretationId =>
        simp only [bind_eq_ok, require_eq_ok, exists_unit, Prod.exists, pure_eq_ok,
          Prod.mk.injEq] at rest
        obtain ⟨-, returned, -, -, result, written, stores, valid, rfl, rfl⟩ := rest
        exact ⟨result, written, rfl, returned, stores, valid, rfl⟩
    obtain ⟨result, written, rfl, returned, stores, valid, rfl⟩ := committed
    obtain ⟨requests, callsSame⟩ := storeResult_frame stores
    refine .wrote row _ known (.adopts ⟨started, owned, fun call member request => ?_,
      session ▸ valid, result, rfl⟩) ?_ ?_
    · exact Option.isSome_iff_ne_none.mpr (returned call (mem_calls.mpr ⟨member, request⟩))
    · rw [← requests]
      rfl
    · have same : (put written (row.adopted result times.finishedAt)).calls = t.calls := callsSame
      rw [same]
      exact .same (by simp)
  · obtain ⟨rfl, rfl⟩ := Prod.mk.inj (pure_eq_ok.mp rest)
    exact .of_closed known ((Closed.stays rfl).authorize locked times.first) ⟨by simp, by simp⟩
      (by simp)

theorem accept_moves {access : UserAccess} {skillSourceId : Uuid} {executionKey : String}
    {frozen : J} {times : AcceptTimes} {request : InterpretationRequestSnapshot J}
    (accepts : accept settings t access requestId skillSourceId executionKey frozen times =
      .ok (request, t')) :
    LedgerMove settings t (.accept access requestId skillSourceId executionKey frozen times)
        (.accepted request) t' ∧
      ∀ row, find t requestId = some row → t' = t ∧ request = row.snapshot := by
  simp only [accept, bind_eq_ok, require_eq_ok, exists_unit] at accepts
  obtain ⟨-, nonzero, key, locked, -, -, _, -, rest⟩ := accepts
  have quiet : Quiet (.accepted request : InterpretationAnswer J) := ⟨by simp, by simp⟩
  split at rest
  · rename_i existing found
    simp only [bind_eq_ok, require_eq_ok, exists_unit, pure_eq_ok, Prod.mk.injEq] at rest
    obtain ⟨-, -, -, rfl, rfl⟩ := rest
    refine ⟨.other quiet (by simp) rfl rfl, fun row located => ?_⟩
    rw [found, Option.some.injEq] at located
    rw [located]
    exact ⟨rfl, rfl⟩
  · rename_i missing
    simp only [bind_eq_ok, exists_unit] at rest
    obtain ⟨-, rest⟩ := rest
    split at rest
    · simp only [bind_eq_ok, exists_unit] at rest
      exact absurd rest.2 (by simp)
    · simp only [insertRequest, bind_eq_ok, require_eq_ok, exists_unit, pure_eq_ok,
        Prod.mk.injEq] at rest
      obtain ⟨-, -, _, ⟨fresh, rfl⟩, -, -, rfl, rfl⟩ := rest
      refine ⟨.added _ rfl rfl quiet (by simp) fresh rfl rfl nonzero key rfl, ?_⟩
      rw [missing]
      simp

theorem execInterpretation_moves (inTurn : InTurn t.calls)
    (commit : (interpretationStore settings).exec action t = .ok (answer, t')) :
    LedgerMove settings t action answer t' := by
  cases action with
  | administer action =>
    simp only [interpretationStore, execInterpretation, bind_eq_ok, Prod.exists, pure_eq_ok,
      Prod.mk.injEq] at commit
    obtain ⟨_, _, -, rfl, rfl⟩ := commit
    exact .other ⟨by simp, by simp⟩ (by simp) rfl rfl
  | changeSkills sources interpretations =>
    obtain ⟨rfl, rfl⟩ := Prod.mk.inj (pure_eq_ok.mp commit)
    exact .other ⟨by simp, by simp⟩ (by simp) rfl rfl
  | accept access requestId skillSourceId executionKey frozen times =>
    obtain ⟨_, accepts, rfl⟩ := answering_eq_ok.mp commit
    exact (accept_moves accepts).1
  | claim requestId token first claimedAt last =>
    obtain ⟨_, claims, rfl⟩ := answering_eq_ok.mp commit
    exact claim_moves claims
  | startCall owner ordinal feedback callId first second grantedAt last =>
    obtain ⟨_, starts, rfl⟩ := answering_eq_ok.mp commit
    exact startCall_moves inTurn starts
  | recordReturn permit returnedAt first last =>
    simp only [interpretationStore, execInterpretation, bind_eq_ok, pure_eq_ok, Prod.mk.injEq]
      at commit
    obtain ⟨_, records, rfl, rfl⟩ := commit
    exact recordReturn_moves records
  | finish owner source times =>
    obtain ⟨_, finishes, rfl⟩ := answering_eq_ok.mp commit
    exact finish_moves finishes
  | expire requestId now =>
    simp only [interpretationStore, execInterpretation, bind_eq_ok, pure_eq_ok, Prod.mk.injEq]
      at commit
    obtain ⟨_, expires, rfl, rfl⟩ := commit
    exact expire_moves expires
  | markUnknown owner now =>
    simp only [interpretationStore, execInterpretation, bind_eq_ok, pure_eq_ok, Prod.mk.injEq]
      at commit
    obtain ⟨_, marks, rfl, rfl⟩ := commit
    exact markUnknown_moves marks
  | failBeforeCall owner errorCode first second finishedAt last =>
    obtain ⟨_, fails, rfl⟩ := answering_eq_ok.mp commit
    exact failBeforeCall_moves fails
  | recoverUnknown requestId before now =>
    obtain ⟨_, recovers, rfl⟩ := answering_eq_ok.mp commit
    exact recoverUnknown_moves recovers

end SkillMind.Skills
