import SkillMind.Skills.RequestMoves

/-!
# Paid calls happen at most once

The tables of a run are sound: one request for each execution, the calls in their turns, and no
result whose request has a call that did not return. With the answers given so far this carries
the single owner, the single permit and the single result over every run.

A commit whose acknowledgement is lost is a commit whose answer nobody reads; the answers of a run
count it all the same.
-/

namespace SkillMind.Skills

open Library Users
open Runs (Uuid Timestamp)

variable {J : Type} {settings : InterpretationSettings J} {t t' : InterpretationTables J}
  {row row' : SkillInterpretationRequest J} {action : InterpretationAction J}
  {answer : InterpretationAnswer J}

section Calls

variable {calls calls' : List SkillInterpretationCall}

theorem CallsMove.kept (move : CallsMove row answer calls calls')
    (keyed : Keyed SkillInterpretationCall.id calls) {call : SkillInterpretationCall}
    (known : call ∈ calls) : ∃ later ∈ calls', later.requestId = call.requestId ∧
      later.ordinal = call.ordinal ∧
      (call.returnedAt.isSome = true → later.returnedAt.isSome = true) := by
  cases move with
  | same ungranted => exact ⟨call, known, rfl, rfl, fun was => was⟩
  | granted added => exact ⟨call, List.mem_append_left _ known, rfl, rfl, fun was => was⟩
  | returned old new oldMem kept returned ungranted =>
    by_cases hit : call.id = new.id
    · have same := keyed.eq_of_key known oldMem (hit.trans kept.1)
      subst same
      exact ⟨new, mem_replaceRow_self known hit, kept.2.1, kept.2.2, fun _ => returned⟩
    · exact ⟨call, mem_replaceRow_of_ne known hit, rfl, rfl, fun was => was⟩

theorem CallsMove.source (move : CallsMove row answer calls calls')
    {call : SkillInterpretationCall} (known : call ∈ calls') :
    (∃ earlier ∈ calls, earlier.requestId = call.requestId ∧ earlier.ordinal = call.ordinal ∧
      (earlier.returnedAt.isSome = true → call.returnedAt.isSome = true)) ∨
    (row.status = .running ∧ Quiet answer ∧ call.requestId = row.id ∧
      (call.ordinal = 0 ∨ call.ordinal = 1 ∧ ∃ first ∈ calls,
        first.requestId = row.id ∧ first.ordinal = 0 ∧ first.returnedAt.isSome = true)) := by
  cases move with
  | same ungranted => exact Or.inl ⟨call, known, rfl, rfl, fun was => was⟩
  | granted added fresh running request turn permitted quiet =>
    rcases List.mem_append.mp known with old | new
    · exact Or.inl ⟨call, old, rfl, rfl, fun was => was⟩
    · rw [List.mem_singleton.mp new]
      exact Or.inr ⟨running, quiet, request, turn⟩
  | returned old new oldMem kept returned ungranted =>
    rcases mem_replaceRow known with ⟨rfl, -⟩ | ⟨other, -⟩
    · exact Or.inl ⟨old, oldMem, kept.2.1.symm, kept.2.2.symm, fun _ => returned⟩
    · exact Or.inl ⟨call, other, rfl, rfl, fun was => was⟩

theorem CallsMove.keyed (move : CallsMove row answer calls calls')
    (keyed : Keyed SkillInterpretationCall.id calls) :
    Keyed SkillInterpretationCall.id calls' := by
  cases move with
  | same ungranted => exact keyed
  | granted added fresh => exact keyed.add fun other member => (fresh other member).1.symm
  | returned old new => exact keyed.replaceRow new

theorem CallsMove.inTurn (move : CallsMove row answer calls calls')
    (keyed : Keyed SkillInterpretationCall.id calls) (inTurn : InTurn calls) :
    InTurn calls' := by
  intro call known
  have later : ∀ first ∈ calls, first.requestId = call.requestId → first.ordinal = 0 →
      first.returnedAt.isSome = true → ∃ after ∈ calls', after.requestId = call.requestId ∧
        after.ordinal = 0 ∧ after.returnedAt.isSome = true := by
    intro first member request zero returned
    obtain ⟨after, afterMem, same, ordinal, kept⟩ := move.kept keyed member
    exact ⟨after, afterMem, same.trans request, ordinal.trans zero, kept returned⟩
  rcases move.source known with ⟨earlier, member, request, ordinal, -⟩ | ⟨-, -, request, turn⟩
  · rcases inTurn earlier member with zero | ⟨one, first, firstMem, same, zero, returned⟩
    · exact Or.inl (ordinal ▸ zero)
    · exact Or.inr ⟨ordinal ▸ one, later first firstMem (same.trans request) zero returned⟩
  · rcases turn with zero | ⟨one, first, firstMem, same, zero, returned⟩
    · exact Or.inl zero
    · exact Or.inr ⟨one, later first firstMem (same.trans request.symm) zero returned⟩

end Calls

/-- What holds of the tables alone. -/
structure Sound (settings : InterpretationSettings J) (t : InterpretationTables J) : Prop where
  ids : Keyed SkillInterpretationRequest.id t.requests
  executions : Keyed (fun row : SkillInterpretationRequest J =>
    (row.organizationId, row.executionKey)) t.requests
  callIds : Keyed SkillInterpretationCall.id t.calls
  inTurn : InTurn t.calls
  formed : ∀ row ∈ t.requests, row.id ≠ 0 ∧ isExecutionKey row.executionKey = true ∧
    row.inputChecksum = settings.checksum row.inputJson
  unadopted : ∀ row ∈ t.requests, row.status.active = true → row.interpretationId = none
  adopted : ∀ row ∈ t.requests, row.interpretationId ≠ none → ∀ call ∈ t.calls,
    call.requestId = row.id → call.returnedAt.isSome = true

theorem sound_opened (organizations : List Uuid) :
    Sound settings (InterpretationTables.opened J organizations) := by
  constructor
  · exact List.nodup_nil
  · exact List.nodup_nil
  · exact List.nodup_nil
  all_goals
    intro row known
    cases known

theorem Sound.moved (sound : Sound settings t) (move : LedgerMove settings t action answer t') :
    Sound settings t' := by
  cases move with
  | other quiet ungranted requests calls =>
    constructor
    all_goals simp only [requests, calls]
    · exact sound.ids
    · exact sound.executions
    · exact sound.callIds
    · exact sound.inTurn
    · exact sound.formed
    · exact sound.unadopted
    · exact sound.adopted
  | added row requests calls quiet ungranted fresh queued empty nonzero key checksum =>
    constructor
    all_goals simp only [requests, calls]
    · exact sound.ids.add fun other member => (fresh other member).1.symm
    · exact sound.executions.add fun other member => (fresh other member).2.symm
    · exact sound.callIds
    · exact sound.inTurn
    all_goals
      intro other member
      rcases List.mem_append.mp member with old | new
    · exact sound.formed other old
    · rw [List.mem_singleton.mp new]
      exact ⟨nonzero, key, checksum⟩
    · exact sound.unadopted other old
    · rw [List.mem_singleton.mp new]
      exact fun _ => empty
    · exact sound.adopted other old
    · rw [List.mem_singleton.mp new]
      exact fun some => absurd empty some
  | wrote row row' known move requests calls =>
    have id : row.id = row'.id := move.id.symm
    constructor
    · rw [requests]
      exact sound.ids.replaceRow row'
    · rw [requests, Keyed, map_column_replaceRow sound.ids known id move.execution]
      exact sound.executions
    · exact calls.keyed sound.callIds
    · exact calls.inTurn sound.callIds sound.inTurn
    all_goals
      rw [requests]
      intro other member
      rcases mem_replaceRow member with ⟨rfl, -⟩ | ⟨old, distinct⟩
    · obtain ⟨nonzero, key, checksum⟩ := sound.formed row known
      rw [move.executionKey, move.input.1, move.input.2]
      exact ⟨id ▸ nonzero, key, checksum⟩
    · exact sound.formed other old
    · exact move.unadopted (sound.unadopted row known)
    · exact sound.unadopted other old
    · intro result call callMem request
      by_cases changed : other.interpretationId = row.interpretationId
      · rcases calls.source callMem with ⟨earlier, was, same, -, returned⟩ | ⟨running, -⟩
        · exact returned (sound.adopted row known (changed ▸ result) earlier was
            ((same.trans request).trans id.symm))
        · exact absurd (sound.unadopted row known (by rw [running]; rfl)) (changed ▸ result)
      · obtain ⟨owner, source, times, stored, -, rfl, adopts⟩ := move.adopted changed
        rcases calls.source callMem with ⟨earlier, was, same, -, returned⟩ | ⟨-, quiet, -⟩
        · exact returned (adopts.returned earlier was ((same.trans request).trans id.symm))
        · exact absurd rfl (quiet.unfinished stored)
    · intro result call callMem request
      rcases calls.source callMem with ⟨earlier, was, same, -, returned⟩ | ⟨-, -, new, -⟩
      · exact returned (sound.adopted other old result earlier was (same.trans request))
      · exact absurd (request.symm.trans (new.trans id)) distinct

theorem sound_invariant : (interpretationStore settings).Invariant (Sound settings) :=
  fun _ _ _ _ sound commit => sound.moved (execInterpretation_moves sound.inTurn commit)

/-! ## What is given once -/

def InterpretationAnswer.claims (requestId : Uuid) : InterpretationAnswer J → Bool
  | .claimed (some owner) => decide (owner.request.requestId = requestId)
  | _ => false

def InterpretationAnswer.permits (requestId : Uuid) : InterpretationAnswer J → Bool
  | .started (some permit) => decide (permit.owner.request.requestId = requestId)
  | _ => false

def InterpretationAnswer.permitsTurn (requestId : Uuid) (ordinal : Nat) :
    InterpretationAnswer J → Bool
  | .started (some permit) =>
    decide (permit.owner.request.requestId = requestId) && decide (permit.ordinal = ordinal)
  | _ => false

def adoptsResult (requestId : Uuid) : InterpretationAction J × InterpretationAnswer J → Bool
  | (.finish owner _ _, .finished (some _)) => decide (owner.request.requestId = requestId)
  | _ => false

def HasRequest (requestId : Uuid) (p : RequestStatus → Prop) (t : InterpretationTables J) : Prop :=
  ∃ row ∈ t.requests, row.id = requestId ∧ p row.status

variable {requestId : Uuid}

theorem HasRequest.moved {p : RequestStatus → Prop} (sound : Sound settings t)
    (stays : ∀ row row', RequestMove settings t action answer row row' → p row.status →
      p row'.status)
    (move : LedgerMove settings t action answer t') (has : HasRequest requestId p t) :
    HasRequest requestId p t' := by
  obtain ⟨row, known, id, holds⟩ := has
  cases move with
  | other quiet ungranted requests calls => exact ⟨row, requests ▸ known, id, holds⟩
  | added added requests calls =>
    exact ⟨row, requests ▸ List.mem_append_left _ known, id, holds⟩
  | wrote old new oldMem move requests calls =>
    by_cases hit : row.id = new.id
    · have same := sound.ids.eq_of_key known oldMem (hit.trans move.id)
      subst same
      exact ⟨new, requests ▸ mem_replaceRow_self known hit, move.id.trans id,
        stays row new move holds⟩
    · exact ⟨row, requests ▸ mem_replaceRow_of_ne known hit, id, holds⟩

theorem HasRequest.of_wrote {p : RequestStatus → Prop} (known : row ∈ t.requests)
    (id : row.id = row'.id) (asked : row.id = requestId)
    (requests : t'.requests = replaceRow SkillInterpretationRequest.id row' t.requests)
    (holds : p row'.status) : HasRequest requestId p t' :=
  ⟨row', requests ▸ mem_replaceRow_self known id, id.symm.trans asked, holds⟩

theorem HasRequest.of_known {p : RequestStatus → Prop} (sound : Sound settings t)
    (known : row ∈ t.requests) (asked : row.id = requestId) (has : HasRequest requestId p t) :
    p row.status := by
  obtain ⟨other, member, id, holds⟩ := has
  rwa [sound.ids.eq_of_key known member (asked.trans id.symm)]

theorem claims_eq_true (claims : answer.claims requestId = true) :
    ∃ owner, answer = .claimed (some owner) ∧ owner.request.requestId = requestId := by
  unfold InterpretationAnswer.claims at claims
  split at claims
  · exact ⟨_, rfl, of_decide_eq_true claims⟩
  · cases claims

theorem permitsTurn_eq_true {ordinal : Nat}
    (permits : answer.permitsTurn requestId ordinal = true) :
    ∃ permit, answer = .started (some permit) ∧ permit.owner.request.requestId = requestId ∧
      permit.ordinal = ordinal := by
  unfold InterpretationAnswer.permitsTurn at permits
  split at permits
  · simp only [Bool.and_eq_true, decide_eq_true_eq] at permits
    exact ⟨_, rfl, permits⟩
  · cases permits

theorem adoptsResult_eq_true
    (adopts : adoptsResult requestId (action, answer) = true) :
    ∃ owner source times stored, action = .finish owner source times ∧
      answer = .finished (some stored) ∧ owner.request.requestId = requestId := by
  unfold adoptsResult at adopts
  split at adopts
  · rename_i shape
    obtain ⟨rfl, rfl⟩ := Prod.mk.inj shape
    exact ⟨_, _, _, _, rfl, rfl, of_decide_eq_true adopts⟩
  · cases adopts

theorem claimed_once (organizations : List Uuid) (requestId : Uuid)
    (actions : List (InterpretationAction J)) :
    ((interpretationStore settings).answers (InterpretationTables.opened J organizations)
      actions).countP (fun entry => entry.2.claims requestId) ≤ 1 := by
  have stays : ∀ s action answer s', Sound settings s →
      (interpretationStore settings).exec action s = .ok (answer, s') →
      HasRequest requestId (· ≠ .queued) s → HasRequest requestId (· ≠ .queued) s' := by
    intro s action answer s' sound commit
    exact HasRequest.moved sound (fun row row' move unqueued queued =>
      unqueued (move.queued queued)) (execInterpretation_moves sound.inTurn commit)
  have spends : ∀ s action answer s', Sound settings s →
      (interpretationStore settings).exec action s = .ok (answer, s') →
      answer.claims requestId = true →
      ¬ HasRequest requestId (· ≠ .queued) s ∧ HasRequest requestId (· ≠ .queued) s' := by
    intro s action answer s' sound commit claims
    obtain ⟨owner, rfl, asked⟩ := claims_eq_true claims
    cases execInterpretation_moves sound.inTurn commit with
    | other quiet => exact absurd rfl (quiet.unclaimed owner)
    | added row requests calls quiet => exact absurd rfl (quiet.unclaimed owner)
    | wrote row row' known move requests calls =>
      have id := move.id.symm
      cases move with
      | closes quiet => exact absurd rfl (quiet.unclaimed owner)
      | unknown quiet => exact absurd rfl (quiet.unclaimed owner)
      | claims queued running request =>
        have same := request.symm.trans asked
        exact ⟨fun has => HasRequest.of_known sound known same has queued,
          .of_wrote known id same requests (by rw [running]; decide)⟩
  exact TransactionSystem.answered_once sound_invariant stays spends
    (sound_opened organizations) actions

theorem adopted_once (organizations : List Uuid) (requestId : Uuid)
    (actions : List (InterpretationAction J)) :
    ((interpretationStore settings).answers (InterpretationTables.opened J organizations)
      actions).countP (adoptsResult requestId) ≤ 1 := by
  have stays : ∀ s action answer s', Sound settings s →
      (interpretationStore settings).exec action s = .ok (answer, s') →
      HasRequest requestId (·.active = false) s → HasRequest requestId (·.active = false) s' := by
    intro s action answer s' sound commit
    refine HasRequest.moved sound (fun row row' move ended => ?_)
      (execInterpretation_moves sound.inTurn commit)
    rw [move.final ended]
    exact ended
  have spends : ∀ s action answer s', Sound settings s →
      (interpretationStore settings).exec action s = .ok (answer, s') →
      adoptsResult requestId (action, answer) = true →
      ¬ HasRequest requestId (·.active = false) s ∧ HasRequest requestId (·.active = false) s' := by
    intro s action answer s' sound commit adopting
    obtain ⟨owner, source, times, stored, rfl, rfl, asked⟩ := adoptsResult_eq_true adopting
    cases execInterpretation_moves sound.inTurn commit with
    | other quiet => exact absurd rfl (quiet.unfinished stored)
    | added row requests calls quiet => exact absurd rfl (quiet.unfinished stored)
    | wrote row row' known move requests calls =>
      have id := move.id.symm
      cases move with
      | closes quiet => exact absurd rfl (quiet.unfinished stored)
      | unknown quiet => exact absurd rfl (quiet.unfinished stored)
      | adopts adopts =>
        have same := (owns_known adopts.owned).1.trans asked
        refine ⟨fun has => ?_, .of_wrote known id same requests ?_⟩
        · have ended := HasRequest.of_known sound known same has
          rcases adopts.started with running | unknown
          · rw [running] at ended
            cases ended
          · rw [unknown] at ended
            cases ended
        · obtain ⟨result, rfl⟩ := adopts.stored
          dsimp only [SkillInterpretationRequest.adopted]
          split <;> rfl
  exact TransactionSystem.answered_once sound_invariant stays spends
    (sound_opened organizations) actions

def HasCall (requestId : Uuid) (ordinal : Nat) (t : InterpretationTables J) : Prop :=
  ∃ call ∈ t.calls, call.requestId = requestId ∧ call.ordinal = ordinal

theorem LedgerMove.permitted {permit : InterpretationCallPermit J}
    (move : LedgerMove settings t action (.started (some permit)) t') :
    ∃ row ∈ t.requests, ∃ call ∈ t'.calls, Permits permit call ∧ call.requestId = row.id ∧
      (∀ other ∈ t.calls, (other.requestId, other.ordinal) ≠ (call.requestId, call.ordinal)) ∧
      (call.ordinal = 0 ∨ call.ordinal = 1 ∧ ∃ first ∈ t.calls,
        first.requestId = row.id ∧ first.ordinal = 0 ∧ first.returnedAt.isSome = true) := by
  cases move with
  | other quiet ungranted => exact absurd rfl (ungranted permit)
  | added row requests calls quiet ungranted => exact absurd rfl (ungranted permit)
  | wrote row row' known move requests calls =>
    generalize t'.calls = after at calls ⊢
    cases calls with
    | same ungranted => exact absurd rfl (ungranted permit)
    | granted call fresh running request turn permitted quiet =>
      exact ⟨row, known, call, by simp, permitted permit rfl, request,
        fun other member => (fresh other member).2, turn⟩
    | returned old new oldMem kept returned ungranted => exact absurd rfl (ungranted permit)

theorem permitted_once (organizations : List Uuid) (requestId : Uuid) (ordinal : Nat)
    (actions : List (InterpretationAction J)) :
    ((interpretationStore settings).answers (InterpretationTables.opened J organizations)
      actions).countP (fun entry => entry.2.permitsTurn requestId ordinal) ≤ 1 := by
  have stays : ∀ s action answer s', Sound settings s →
      (interpretationStore settings).exec action s = .ok (answer, s') →
      HasCall requestId ordinal s → HasCall requestId ordinal s' := by
    rintro s action answer s' sound commit ⟨call, known, request, turn⟩
    cases execInterpretation_moves sound.inTurn commit with
    | other quiet ungranted requests calls => exact ⟨call, calls ▸ known, request, turn⟩
    | added row requests calls => exact ⟨call, calls ▸ known, request, turn⟩
    | wrote row row' rowMem move requests calls =>
      obtain ⟨later, laterMem, same, kept, -⟩ := calls.kept sound.callIds known
      exact ⟨later, laterMem, same.trans request, kept.trans turn⟩
  have spends : ∀ s action answer s', Sound settings s →
      (interpretationStore settings).exec action s = .ok (answer, s') →
      answer.permitsTurn requestId ordinal = true →
      ¬ HasCall requestId ordinal s ∧ HasCall requestId ordinal s' := by
    intro s action answer s' sound commit permits
    obtain ⟨permit, rfl, asked, turn⟩ := permitsTurn_eq_true permits
    obtain ⟨row, -, call, known, permitted, -, fresh, -⟩ :=
      (execInterpretation_moves sound.inTurn commit).permitted
    have request := permitted.request.symm.trans asked
    have ordinals := permitted.ordinal.symm.trans turn
    refine ⟨?_, call, known, request, ordinals⟩
    rintro ⟨other, member, same, also⟩
    exact fresh other member (by rw [same, also, request, ordinals])
  exact TransactionSystem.answered_once sound_invariant stays spends
    (sound_opened organizations) actions

/-- What holds of the answers so far and the tables: the worker of a request was answered with its
token, and every permit is for the first or the second call. -/
structure Ledger (settings : InterpretationSettings J)
    (log : List (InterpretationAction J × InterpretationAnswer J)) (t : InterpretationTables J) :
    Prop where
  sound : Sound settings t
  owned : ∀ row ∈ t.requests, row.status = .running ∨ row.status = .unknown →
    ∃ claim issued, (claim, .claimed (some issued)) ∈ log ∧ issued.request.requestId = row.id ∧
      row.ownerHash = some (settings.ownerHash issued.token)
  turns : ∀ entry ∈ log, ∀ permit, entry.2 = .started (some permit) → permit.ordinal ≤ 1

theorem ledger_opened (organizations : List Uuid) :
    Ledger settings [] (InterpretationTables.opened J organizations) where
  sound := sound_opened organizations
  owned _ known := absurd known List.not_mem_nil
  turns _ known := absurd known List.not_mem_nil

theorem ledger_kept (log : List (InterpretationAction J × InterpretationAnswer J))
    (t : InterpretationTables J) (action : InterpretationAction J)
    (answer : InterpretationAnswer J) (t' : InterpretationTables J) (ledger : Ledger settings log t)
    (commit : (interpretationStore settings).exec action t = .ok (answer, t')) :
    Ledger settings (log ++ [(action, answer)]) t' := by
  have move := execInterpretation_moves ledger.sound.inTurn commit
  have earlier : ∀ row ∈ t.requests, row.status = .running ∨ row.status = .unknown →
      ∃ claim issued, (claim, .claimed (some issued)) ∈ log ++ [(action, answer)] ∧
        issued.request.requestId = row.id ∧
        row.ownerHash = some (settings.ownerHash issued.token) := by
    intro row known works
    obtain ⟨claim, issued, given, holds⟩ := ledger.owned row known works
    exact ⟨claim, issued, List.mem_append_left _ given, holds⟩
  refine ⟨ledger.sound.moved move, ?_, ?_⟩
  · intro row known works
    cases move with
    | other quiet ungranted requests calls => exact earlier row (requests ▸ known) works
    | added added requests calls quiet ungranted fresh queued =>
      rcases List.mem_append.mp (requests ▸ known) with old | new
      · exact earlier row old works
      · rw [List.mem_singleton.mp new, queued] at works
        simp at works
    | wrote old new oldMem move requests calls =>
      rcases mem_replaceRow (requests ▸ known) with ⟨rfl, -⟩ | ⟨other, -⟩
      · rcases move.started works with ⟨was, held⟩ | ⟨owner, rfl, request, held⟩
        · obtain ⟨claim, issued, given, same, hash⟩ := earlier old oldMem was
          exact ⟨claim, issued, given, same.trans move.id.symm, held.trans hash⟩
        · exact ⟨action, owner, List.mem_append_right _ List.mem_cons_self,
            request.trans move.id.symm, held⟩
      · exact earlier row other works
  · intro entry given permit issues
    rcases List.mem_append.mp given with old | new
    · exact ledger.turns entry old permit issues
    · obtain rfl := List.mem_singleton.mp new
      dsimp only at issues
      subst issues
      obtain ⟨row, -, call, -, permitted, -, -, turn⟩ := move.permitted
      rw [permitted.ordinal]
      rcases turn with zero | ⟨one, -⟩
      · rw [zero]
        exact Nat.zero_le 1
      · exact one.le

theorem countP_le_add {α : Type} {p q r : α → Bool} {xs : List α}
    (either : ∀ x ∈ xs, p x = true → q x = true ∨ r x = true) :
    xs.countP p ≤ xs.countP q + xs.countP r := by
  induction xs with
  | nil => simp
  | cons x rest ih =>
    have tail := ih fun y member => either y (List.mem_cons_of_mem x member)
    have head := either x List.mem_cons_self
    simp only [List.countP_cons]
    cases hp : p x <;> cases hq : q x <;> cases hr : r x <;> simp_all <;> omega

theorem permitted_twice (organizations : List Uuid) (requestId : Uuid)
    (actions : List (InterpretationAction J)) :
    ((interpretationStore settings).answers (InterpretationTables.opened J organizations)
      actions).countP (fun entry => entry.2.permits requestId) ≤ 2 := by
  have ledger := TransactionSystem.history (M := interpretationStore settings) ledger_kept
    (ledger_opened organizations) actions
  refine (countP_le_add fun entry given permits => ?_).trans (Nat.add_le_add
    (permitted_once organizations requestId 0 actions)
    (permitted_once organizations requestId 1 actions))
  unfold InterpretationAnswer.permits at permits
  split at permits
  · rename_i permit issues
    have request : permit.owner.request.requestId = requestId := of_decide_eq_true permits
    have turn := ledger.turns entry given permit issues
    simp only [issues, InterpretationAnswer.permitsTurn, request, decide_true, Bool.true_and,
      decide_eq_true_eq]
    omega
  · cases permits

structure AsksAgain (settings : InterpretationSettings J) (t : InterpretationTables J)
    (row : SkillInterpretationRequest J) (access : UserAccess) (times : AcceptTimes)
    (locked : LockedUsers) : Prop where
  proof : validateUserAccess settings.credentials access = .ok ()
  locks : lockUsers settings.credentials t.users access none false = .ok locked
  first : authorizeUserAccess settings.credentials access locked times.first true true = .ok ()
  looked : authorizeUserAccess settings.credentials access locked times.looked true true = .ok ()
  organization : locked.actor.organizationId = row.organizationId
  actor : locked.actor.id = row.actorId
  session : locked.currentSession.id = row.authSessionId
  source : ∃ source, getSource t row.organizationId row.skillSourceId = .ok source

theorem accept_again (sound : Sound settings t) (known : row ∈ t.requests) {access : UserAccess}
    {times : AcceptTimes} {locked : LockedUsers}
    (asks : AsksAgain settings t row access times locked) :
    (interpretationStore settings).exec
      (.accept access row.id row.skillSourceId row.executionKey row.inputJson times) t =
        .ok (.accepted row.snapshot, t) := by
  obtain ⟨nonzero, key, checksum⟩ := sound.formed row known
  obtain ⟨source, found⟩ := asks.source
  have located : find t row.id = some row := sound.ids.find_eq known rfl
  have same : sameRequest settings row locked row.skillSourceId row.executionKey
      (settings.checksum row.inputJson) = true := by
    simp [sameRequest, asks.actor, asks.session, checksum]
  refine answering_eq_ok.mpr ⟨row.snapshot, ?_, rfl⟩
  simp only [accept, bind_eq_ok, require_eq_ok, exists_unit, credentialed_eq_ok]
  refine ⟨asks.proof, nonzero, key, locked, asks.locks, asks.first, source,
    asks.organization ▸ found, ?_⟩
  rw [located]
  simp only [bind_eq_ok, require_eq_ok, exists_unit, credentialed_eq_ok]
  exact ⟨asks.looked, asks.organization.symm, same, rfl⟩

/-- What holds of one more transaction after the run that gave the answers of the log. -/
structure LedgerStep (settings : InterpretationSettings J)
    (log : List (InterpretationAction J × InterpretationAnswer J))
    (t t' : InterpretationTables J) (action : InterpretationAction J)
    (answer : InterpretationAnswer J) : Prop where
  /-- A request that is over stays as it is. -/
  final : ∀ row ∈ t.requests, row.status.active = false → row ∈ t'.requests
  /-- The second permit is issued after the first call returned. -/
  second : ∀ permit, answer = .started (some permit) → permit.ordinal = 1 →
    ∃ first ∈ t.calls, first.requestId = permit.owner.request.requestId ∧ first.ordinal = 0 ∧
      first.returnedAt.isSome = true
  /-- A result is adopted by a worker that shows the token that was issued for the request, after
  every call returned, while the session that asked is valid. -/
  adopted : ∀ row' ∈ t'.requests, row'.interpretationId ≠ none → row' ∉ t.requests →
    ∃ owner source times, action = .finish owner source times ∧
      ∃ row ∈ t.requests, row.id = row'.id ∧ row.interpretationId = none ∧
        row.id = owner.request.requestId ∧
        (∃ claim issued, (claim, .claimed (some issued)) ∈ log ∧
          issued.request.requestId = row.id ∧
          settings.ownerHash issued.token = settings.ownerHash owner.token) ∧
        (∀ call ∈ t.calls, call.requestId = row.id → call.returnedAt.isSome = true) ∧
        ∃ actor session, lockSessionReference t.users row.organizationId row.actorId
            row.authSessionId = .ok (actor, session) ∧ actor.systemRole = .admin ∧
          sessionStateValid session actor times.last = true
  /-- Asking again writes nothing and returns the request that is there. -/
  again : ∀ access requestId skillSourceId executionKey frozen times,
    action = .accept access requestId skillSourceId executionKey frozen times →
    ∀ row ∈ t.requests, row.id = requestId → t' = t ∧ answer = .accepted row.snapshot

theorem sessionOf_valid {now : Timestamp} (valid : authorized (sessionOf t row) now = true) :
    ∃ actor session, lockSessionReference t.users row.organizationId row.actorId
        row.authSessionId = .ok (actor, session) ∧ actor.systemRole = .admin ∧
      sessionStateValid session actor now = true := by
  unfold sessionOf at valid
  cases read : lockSessionReference t.users row.organizationId row.actorId row.authSessionId with
  | error fault =>
    rw [read] at valid
    cases valid
  | ok found =>
    obtain ⟨actor, session⟩ := found
    rw [read] at valid
    obtain ⟨admin, state⟩ := Bool.and_eq_true_iff.mp valid
    exact ⟨actor, session, rfl, of_decide_eq_true admin, state⟩

theorem Ledger.step {log : List (InterpretationAction J × InterpretationAnswer J)}
    (ledger : Ledger settings log t)
    (commit : (interpretationStore settings).exec action t = .ok (answer, t')) :
    LedgerStep settings log t t' action answer := by
  have sound := ledger.sound
  have move := execInterpretation_moves sound.inTurn commit
  constructor
  · intro old oldMem ended
    cases move with
    | other quiet ungranted requests calls => exact requests ▸ oldMem
    | added row requests calls => exact requests ▸ List.mem_append_left _ oldMem
    | wrote row row' known move requests calls =>
      rw [requests]
      by_cases hit : old.id = row'.id
      · have same := sound.ids.eq_of_key oldMem known (hit.trans move.id)
        rw [move.final (same ▸ ended), ← same]
        exact mem_replaceRow_self oldMem rfl
      · exact mem_replaceRow_of_ne oldMem hit
  · rintro permit rfl second
    obtain ⟨row, -, call, -, permitted, request, -, turn⟩ := move.permitted
    rw [← permitted.ordinal, second] at turn
    obtain ⟨-, first, member, same, zero, returned⟩ := turn.resolve_left (by decide)
    exact ⟨first, member, same.trans (request.symm.trans permitted.request.symm), zero, returned⟩
  · intro late lateMem result new
    cases move with
    | other quiet ungranted requests calls => exact absurd (requests ▸ lateMem) new
    | added row requests calls quiet ungranted fresh queued empty =>
      rcases List.mem_append.mp (requests ▸ lateMem) with old | added
      · exact absurd old new
      · exact absurd (List.mem_singleton.mp added ▸ empty) result
    | wrote row row' known move requests calls =>
      rcases mem_replaceRow (requests ▸ lateMem) with ⟨rfl, -⟩ | ⟨old, -⟩
      · by_cases changed : late.interpretationId = row.interpretationId
        · have ended : row.status.active = false := by
            by_contra active
            exact result (changed.trans (sound.unadopted row known (by simpa using active)))
          exact absurd (move.final ended ▸ known) new
        · obtain ⟨owner, source, times, stored, rfl, -, adopts⟩ := move.adopted changed
          obtain ⟨own, held⟩ := owns_known adopts.owned
          obtain ⟨claim, issued, given, request, hash⟩ := ledger.owned row known adopts.started
          refine ⟨owner, source, times, rfl, row, known, move.id.symm, ?_, own,
            ⟨claim, issued, given, request, Option.some.inj (hash.symm.trans held)⟩,
            adopts.returned, sessionOf_valid adopts.valid⟩
          refine sound.unadopted row known ?_
          rcases adopts.started with running | unknown
          · rw [running]
            rfl
          · rw [unknown]
            rfl
      · exact absurd old new
  · rintro access requestId skillSourceId executionKey frozen times rfl row known rfl
    obtain ⟨request, accepts, rfl⟩ := answering_eq_ok.mp commit
    obtain ⟨same, shown⟩ := (accept_moves accepts).2 row (sound.ids.find_eq known rfl)
    exact ⟨same, congrArg _ shown⟩

/-- **Paid interpretation calls happen at most once**, in every run of callers and workers and of
the administration of the users: an execution has one request at most; its owner, each of its two
permits and its result are given at most once; and every further transaction keeps what is over
(`LedgerStep`). -/
theorem paid_calls_once (settings : InterpretationSettings J) (organizations : List Uuid)
    (actions : List (InterpretationAction J)) :
    let M := interpretationStore settings
    let t := M.run (InterpretationTables.opened J organizations) actions
    let log := M.answers (InterpretationTables.opened J organizations) actions
    Keyed SkillInterpretationRequest.id t.requests ∧
    (∀ row ∈ t.requests, ∀ other ∈ t.requests, row.organizationId = other.organizationId →
      row.executionKey = other.executionKey → row = other) ∧
    (∀ requestId, log.countP (fun entry => entry.2.claims requestId) ≤ 1 ∧
      log.countP (fun entry => entry.2.permits requestId) ≤ 2 ∧
      (∀ ordinal, log.countP (fun entry => entry.2.permitsTurn requestId ordinal) ≤ 1) ∧
      log.countP (adoptsResult requestId) ≤ 1) ∧
    (∀ row ∈ t.requests, row.interpretationId ≠ none → ∀ call ∈ t.calls,
      call.requestId = row.id → call.returnedAt.isSome = true) ∧
    (∀ row ∈ t.requests, ∀ access times locked, AsksAgain settings t row access times locked →
      M.exec (.accept access row.id row.skillSourceId row.executionKey row.inputJson times) t =
        .ok (.accepted row.snapshot, t)) ∧
    (∀ action answer t', M.exec action t = .ok (answer, t') →
      LedgerStep settings log t t' action answer) ∧
    ∀ action fault, M.exec action t = .error fault → M.step t action = t := by
  intro M t log
  have ledger : Ledger settings log t :=
    TransactionSystem.history ledger_kept (ledger_opened organizations) actions
  refine ⟨ledger.sound.ids, ?_, fun requestId => ⟨claimed_once organizations requestId actions,
    permitted_twice organizations requestId actions,
    fun ordinal => permitted_once organizations requestId ordinal actions,
    adopted_once organizations requestId actions⟩, ledger.sound.adopted,
    fun row known access times locked asks => accept_again ledger.sound known asks,
    fun action answer t' commit => ledger.step commit,
    fun action fault refused => M.step_of_fault refused⟩
  intro row known other member organization execution
  exact ledger.sound.executions.eq_of_key known member (Prod.ext organization execution)

end SkillMind.Skills
