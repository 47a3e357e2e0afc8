import SkillMind.Schedules.Repository

/-!
# What the transactions of the schedules do

Every transaction is a path of moves: a schedule is created or written, an occurrence is claimed
for the first time, handed to the next generation, or settled. A move carries the claims it hands
out.
-/

namespace SkillMind.Schedules

open Library
open Runs (Uuid Timestamp)

variable {settings : ScheduleSettings} {t t' t'' : ScheduleTables}

/-! ## Moves -/

/-- What an occurrence keeps while it is claimed, recovered and settled. -/
structure SameOccurrence (row row' : TaskScheduleOccurrence) : Prop where
  id : row'.id = row.id
  scheduleId : row'.scheduleId = row.scheduleId
  occurrenceAt : row'.occurrenceAt = row.occurrenceAt

/-- The claim is the one of the current generation of the row. -/
structure Issues (settings : ScheduleSettings) (claim : ClaimedSchedule)
    (row : TaskScheduleOccurrence) : Prop where
  occurrence : claim.occurrenceId = row.id
  generation : claim.leaseGeneration = row.leaseGeneration
  worker : claim.workerId = row.workerId
  token : settings.leaseTokenHash claim.leaseToken = row.leaseTokenHash
  expiry : claim.leaseExpiresAt = row.leaseExpiresAt

/-- The later instant is at least the earlier one. -/
def Later (before after : Option Timestamp) : Prop :=
  ∀ instant ∈ before, ∃ later ∈ after, instant ≤ later

inductive ScheduleMove (settings : ScheduleSettings) (t t' : ScheduleTables) :
    List ClaimedSchedule → Prop
  | scheduleCreated {row : TaskSchedule} (fresh : ∀ other ∈ t.schedules, row.id ≠ other.id)
      (count : row.runCount = 0) (schedules : t'.schedules = t.schedules ++ [row])
      (occurrences : t'.occurrences = t.occurrences) : ScheduleMove settings t t' []
  | scheduleWritten {row row' : TaskSchedule} (known : row ∈ t.schedules)
      (id : row'.id = row.id) (count : row'.runCount = row.runCount)
      (last : row'.lastRunAt = row.lastRunAt)
      (bounded : row'.definition.maxRuns = row.definition.maxRuns ∨
        ∀ limit ∈ row'.definition.maxRuns, row.runCount + t.pendingCount row.id ≤ limit)
      (schedules : t'.schedules = replaceRow TaskSchedule.id row' t.schedules)
      (occurrences : t'.occurrences = t.occurrences) : ScheduleMove settings t t' []
  | claimed {schedule schedule' : TaskSchedule} {row : TaskScheduleOccurrence}
      {claim : ClaimedSchedule} (known : schedule ∈ t.schedules)
      (id : schedule'.id = schedule.id) (count : schedule'.runCount = schedule.runCount)
      (last : schedule'.lastRunAt = schedule.lastRunAt)
      (limits : schedule'.definition = schedule.definition)
      (free : t.pendingCount schedule.id = 0)
      (room : ∀ limit ∈ schedule.definition.maxRuns, schedule.runCount < limit)
      (fresh : ∀ other ∈ t.occurrences, row.id ≠ other.id ∧
        (row.scheduleId, row.occurrenceAt) ≠ (other.scheduleId, other.occurrenceAt))
      (place : row.scheduleId = schedule.id) (pending : row.status = .pending)
      (unset : row.runId = none) (first : row.leaseGeneration = 1)
      (issues : Issues settings claim row)
      (schedules : t'.schedules = replaceRow TaskSchedule.id schedule' t.schedules)
      (occurrences : t'.occurrences = t.occurrences ++ [row]) : ScheduleMove settings t t' [claim]
  | recovered {row row' : TaskScheduleOccurrence} {claim : ClaimedSchedule}
      (known : row ∈ t.occurrences) (pending : row.status = .pending)
      (same : SameOccurrence row row') (status : row'.status = row.status)
      (unset : row'.runId = row.runId)
      (next : row'.leaseGeneration = row.leaseGeneration + 1)
      (issues : Issues settings claim row') (schedules : t'.schedules = t.schedules)
      (occurrences : t'.occurrences =
        replaceRow TaskScheduleOccurrence.id row' t.occurrences) :
      ScheduleMove settings t t' [claim]
  | settled {schedule schedule' : TaskSchedule} {row row' : TaskScheduleOccurrence}
      (known : schedule ∈ t.schedules) (member : row ∈ t.occurrences)
      (place : row.scheduleId = schedule.id) (pending : row.status = .pending)
      (same : SameOccurrence row row') (ended : row'.status = .settled)
      (generation : row'.leaseGeneration = row.leaseGeneration)
      (worker : row'.workerId = row.workerId)
      (token : row'.leaseTokenHash = row.leaseTokenHash)
      (expiry : row'.leaseExpiresAt = row.leaseExpiresAt)
      (id : schedule'.id = schedule.id)
      (count : schedule'.runCount = schedule.runCount + row'.runId.isSome.toNat)
      (last : Later schedule.lastRunAt schedule'.lastRunAt)
      (limits : schedule'.definition = schedule.definition)
      (schedules : t'.schedules = replaceRow TaskSchedule.id schedule' t.schedules)
      (occurrences : t'.occurrences =
        replaceRow TaskScheduleOccurrence.id row' t.occurrences) : ScheduleMove settings t t' []
  | runs (schedules : t'.schedules = t.schedules) (occurrences : t'.occurrences = t.occurrences) :
      ScheduleMove settings t t' []

/-- A path of moves, with all the claims it hands out. -/
inductive ScheduleMoves (settings : ScheduleSettings) (t : ScheduleTables) :
    List ClaimedSchedule → ScheduleTables → Prop
  | refl : ScheduleMoves settings t [] t
  | tail {t' t'' : ScheduleTables} {issued more : List ClaimedSchedule}
      (before : ScheduleMoves settings t issued t') (move : ScheduleMove settings t' t'' more) :
      ScheduleMoves settings t (issued ++ more) t''

theorem ScheduleMoves.single {issued : List ClaimedSchedule}
    (move : ScheduleMove settings t t' issued) : ScheduleMoves settings t issued t' := by
  have path := ScheduleMoves.refl.tail move
  rwa [List.nil_append] at path

theorem requireRow_known {projectId scheduleId : Uuid} {row : TaskSchedule}
    (found : requireRow t projectId scheduleId = .ok row) :
    row ∈ t.schedules ∧ row.id = scheduleId := by
  have search := orFault_eq_ok.mp found
  have known := List.find?_some search
  simp only [decide_eq_true_eq] at known
  exact ⟨List.mem_of_find?_eq_some search, known.1⟩

variable {now : Timestamp}

theorem bump_same {row bumped : TaskSchedule}
    (bumps : bump row now = .ok bumped) : bumped.id = row.id ∧
      bumped.runCount = row.runCount ∧ bumped.lastRunAt = row.lastRunAt ∧
      bumped.definition = row.definition := by
  simp only [bump, bind_eq_ok, exists_unit, pure_eq_ok] at bumps
  obtain ⟨-, -, rfl⟩ := bumps
  exact ⟨rfl, rfl, rfl, rfl⟩

variable {claim : ClaimedSchedule}

theorem claimed_issues {row : TaskScheduleOccurrence} {token : String}
    (hands : claimed settings row token = .ok claim)
    (hashed : row.leaseTokenHash = settings.leaseTokenHash token) :
    Issues settings claim row := by
  simp only [claimed, bind_eq_ok, pure_eq_ok] at hands
  obtain ⟨snapshot, -, rfl⟩ := hands
  exact ⟨rfl, rfl, rfl, hashed.symm, rfl⟩

theorem create_moves {command : CreateScheduleCommand} {scheduleId : Uuid}
    {row : TaskSchedule} (committed : create t command scheduleId now = .ok (row, t')) :
    ScheduleMoves settings t [] t' := by
  simp only [create, bind_eq_ok, require_eq_ok, exists_unit, pure_eq_ok, Prod.mk.injEq] at committed
  obtain ⟨-, -, fresh, rfl, rfl⟩ := committed
  exact .single (.scheduleCreated fresh rfl rfl rfl)

theorem updateDefinition_moves {command : UpdateScheduleCommand}
    {edited : TaskSchedule} (committed : updateDefinition t command now = .ok (edited, t')) :
    ScheduleMoves settings t [] t' := by
  simp only [updateDefinition, bind_eq_ok, require_eq_ok, exists_unit] at committed
  obtain ⟨row, found, -, -, -, limits, -, rest⟩ := committed
  have written : (edited.id = row.id ∧ edited.runCount = row.runCount ∧
      edited.lastRunAt = row.lastRunAt ∧ edited.definition = command.definition) ∧
      t.putSchedule edited = t' := by
    split at rest
    · simp only [bind_eq_ok, exists_unit, pure_eq_ok, Prod.mk.injEq] at rest
      obtain ⟨-, _, bumps, rfl, rfl⟩ := rest
      have same := bump_same bumps
      exact ⟨same, rfl⟩
    · simp only [bind_eq_ok, pure_eq_ok, Prod.mk.injEq] at rest
      obtain ⟨_, bumps, rfl, rfl⟩ := rest
      have same := bump_same bumps
      exact ⟨same, rfl⟩
  obtain ⟨⟨id, count, last, definition⟩, rfl⟩ := written
  exact .single (.scheduleWritten (requireRow_known found).1 id count last
    (Or.inr (by rw [definition]; exact limits)) rfl rfl)

theorem setStatus_moves {projectId scheduleId : Uuid} {status : ScheduleStatus}
    {nextRunAt : Option Timestamp} {expectedRowVersion : Nat} {lastError : Option String}
    {moved : TaskSchedule}
    (committed : setStatus t projectId scheduleId status nextRunAt expectedRowVersion lastError
      now = .ok (moved, t')) : ScheduleMoves settings t [] t' := by
  simp only [setStatus, bind_eq_ok, exists_unit] at committed
  obtain ⟨row, found, -, -, rest⟩ := committed
  have known := (requireRow_known found).1
  have written : (moved.id = row.id ∧ moved.runCount = row.runCount ∧
      moved.lastRunAt = row.lastRunAt ∧ moved.definition = row.definition) ∧
      t.putSchedule moved = t' := by
    split at rest
    · simp only [bind_eq_ok, exists_unit, pure_eq_ok, Prod.mk.injEq] at rest
      obtain ⟨-, _, -, -, -, -, _, bumps, rfl, rfl⟩ := rest
      have same := bump_same bumps
      exact ⟨same, rfl⟩
    · simp only [bind_eq_ok, pure_eq_ok, Prod.mk.injEq] at rest
      obtain ⟨_, bumps, rfl, rfl⟩ := rest
      have same := bump_same bumps
      exact ⟨same, rfl⟩
  obtain ⟨⟨id, count, last, definition⟩, rfl⟩ := written
  exact .single (.scheduleWritten known id count last
    (Or.inl (congrArg ScheduleDefinition.maxRuns definition)) rfl rfl)

variable {worker : Credentials}

theorem claimDue_moves {record : ScheduleRecord} {occurrenceId : Uuid}
    {reference leaseStart last : Timestamp} {claim : Option ClaimedSchedule}
    (committed : claimDue settings t record worker occurrenceId reference leaseStart last =
      .ok (claim, t')) : ScheduleMoves settings t claim.toList t' := by
  simp only [claimDue, bind_eq_ok, exists_unit] at committed
  obtain ⟨-, row, found, rest⟩ := committed
  have known := (requireRow_known found).1
  have stays {claim : Option ClaimedSchedule}
      (same : (pure (none, t) : Except Fault (Option ClaimedSchedule × ScheduleTables)) =
        .ok (claim, t')) : ScheduleMoves settings t claim.toList t' := by
    obtain ⟨rfl, rfl⟩ := Prod.mk.inj (pure_eq_ok.mp same)
    exact .refl
  have written {claim : Option ClaimedSchedule} {changed : TaskSchedule}
      (writes : (bump changed reference >>= fun bumped => pure (none, t.putSchedule bumped)) =
        (.ok (claim, t') : Except Fault _))
      (same : changed.id = row.id ∧ changed.runCount = row.runCount ∧
        changed.lastRunAt = row.lastRunAt ∧ changed.definition = row.definition) :
      ScheduleMoves settings t claim.toList t' := by
    simp only [bind_eq_ok, pure_eq_ok, Prod.mk.injEq] at writes
    obtain ⟨bumped, bumps, rfl, rfl⟩ := writes
    obtain ⟨id, count, last, definition⟩ := bump_same bumps
    refine .single (.scheduleWritten known (id.trans same.1) (count.trans same.2.1)
      (last.trans same.2.2.1) (Or.inl ?_) rfl rfl)
    rw [definition, same.2.2.2]
  split at rest
  · exact stays rest
  · split at rest
    · exact stays rest
    · split at rest
      · exact written rest ⟨rfl, rfl, rfl, rfl⟩
      · split at rest
        · exact stays rest
        · rename_i free
          split at rest
          · exact written rest ⟨rfl, rfl, rfl, rfl⟩
          · rename_i room
            simp only [insertOccurrence, bind_eq_ok, require_eq_ok, exists_unit, pure_eq_ok,
              Prod.mk.injEq] at rest
            obtain ⟨-, -, -, _, ⟨fresh, rfl⟩, next, bumps, claim, hands, -, rfl, rfl⟩ := rest
            obtain ⟨id, count, last, definition⟩ := bump_same bumps
            refine .single (.claimed known id count last definition (not_not.mp free) ?_ fresh rfl
              rfl rfl rfl (claimed_issues hands rfl) rfl rfl)
            intro limit mem
            exact Nat.lt_of_not_le fun reached => room ⟨limit, mem, reached⟩

theorem recoverOne_moves {reference start : Timestamp}
    {maxAttempts : Nat} {result claims : List ClaimedSchedule} {schedule : TaskSchedule}
    (committed : recoverOne settings t worker reference maxAttempts result schedule start =
      .ok (claims, t')) :
    ∃ issued, claims = result ++ issued ∧ ScheduleMoves settings t issued t' := by
  unfold recoverOne at committed
  split at committed
  · obtain ⟨rfl, rfl⟩ := Prod.mk.inj (pure_eq_ok.mp committed)
    exact ⟨[], (List.append_nil _).symm, .refl⟩
  · rename_i row search
    split at committed
    · obtain ⟨rfl, rfl⟩ := Prod.mk.inj (pure_eq_ok.mp committed)
      exact ⟨[], (List.append_nil _).symm, .refl⟩
    · simp only [bind_eq_ok, exists_unit, pure_eq_ok, Prod.mk.injEq] at committed
      obtain ⟨_, -, -, -, claim, hands, rfl, rfl⟩ := committed
      have found := List.find?_some search
      simp only [ScheduleTables.pendingOf, decide_eq_true_eq] at found
      have issues := claimed_issues hands rfl
      refine ⟨[claim], rfl, .single (.recovered (List.mem_of_find?_eq_some search) found.2
        ?_ ?_ ?_ ?_ issues rfl rfl)⟩
      · exact ⟨rfl, rfl, rfl⟩
      · rfl
      · rfl
      · rfl

theorem ScheduleMoves.trans {issued more : List ClaimedSchedule}
    (first : ScheduleMoves settings t issued t') (second : ScheduleMoves settings t' more t'') :
    ScheduleMoves settings t (issued ++ more) t'' := by
  induction second with
  | refl => rwa [List.append_nil]
  | tail before move ih =>
    rw [← List.append_assoc]
    exact ih.tail move

theorem recoverAll_moves {reference : Timestamp} {maxAttempts : Nat}
    {candidates : List (TaskSchedule × Timestamp)} {result claims : List ClaimedSchedule}
    (committed : recoverAll settings worker reference maxAttempts result candidates t =
      .ok (claims, t')) :
    ∃ issued, claims = result ++ issued ∧ ScheduleMoves settings t issued t' := by
  induction candidates generalizing result t with
  | nil =>
    obtain ⟨rfl, rfl⟩ := Prod.mk.inj (pure_eq_ok.mp committed)
    exact ⟨[], (List.append_nil _).symm, .refl⟩
  | cons candidate rest ih =>
    obtain ⟨schedule, start⟩ := candidate
    simp only [recoverAll, bind_eq_ok, Prod.exists] at committed
    obtain ⟨between, next, one, others⟩ := committed
    obtain ⟨issued, rfl, moves⟩ := recoverOne_moves one
    obtain ⟨more, rfl, later⟩ := ih others
    exact ⟨issued ++ more, List.append_assoc _ _ _, moves.trans later⟩

theorem claimRecoverable_moves {limit maxAttempts : Nat}
    {skipped : List Uuid} {reference last : Timestamp} {starts : List Timestamp}
    {claims : List ClaimedSchedule}
    (committed : claimRecoverable settings t worker limit maxAttempts skipped reference starts
      last = .ok (claims, t')) : ScheduleMoves settings t claims t' := by
  simp only [claimRecoverable, bind_eq_ok, exists_unit, pure_eq_ok, Prod.exists,
    Prod.mk.injEq] at committed
  obtain ⟨-, -, -, _, _, recovers, -, rfl, rfl⟩ := committed
  obtain ⟨issued, rfl, moves⟩ := recoverAll_moves recovers
  exact moves

/-- What the holder of a claim has locked. -/
structure Holds (settings : ScheduleSettings) (t : ScheduleTables) (claim : ClaimedSchedule)
    (locked : LockedScheduleOccurrence) : Prop where
  schedule : locked.schedule ∈ t.schedules
  occurrence : locked.occurrence ∈ t.occurrences
  place : locked.occurrence.scheduleId = locked.schedule.id
  issues : Issues settings claim locked.occurrence

theorem requireFence_issues {row : TaskScheduleOccurrence}
    {pendingWrite : Bool} (id : row.id = claim.occurrenceId)
    (fence : requireFence settings row claim now pendingWrite = .ok ()) :
    Issues settings claim row := by
  obtain ⟨worker, generation, expiry, token, -⟩ := require_eq_ok.mp fence
  exact ⟨id.symm, generation.symm, worker.symm, token.symm, expiry.symm⟩

theorem lockClaim_holds
    {locked : LockedScheduleOccurrence} (locks : lockClaim settings t claim now = .ok locked) :
    Holds settings t claim locked := by
  simp only [lockClaim, bind_eq_ok, orFault_eq_ok, exists_unit, pure_eq_ok] at locks
  obtain ⟨schedule, found, row, search, -, _, -, -, fence, rfl⟩ := locks
  obtain ⟨known, same⟩ := requireRow_known found
  have place := List.find?_some search
  simp only [decide_eq_true_eq] at place
  exact ⟨known, List.mem_of_find?_eq_some search, place.2.trans same.symm,
    requireFence_issues place.1 fence⟩

theorem summarized_counts (schedule : TaskSchedule) (row : TaskScheduleOccurrence)
    (result : ScheduleTriggerResult) : (schedule.summarized row result).id = schedule.id ∧
      (schedule.summarized row result).runCount =
        schedule.runCount + result.runId.isSome.toNat ∧
      Later schedule.lastRunAt (schedule.summarized row result).lastRunAt ∧
      (schedule.summarized row result).definition = schedule.definition := by
  have counted : (if result.runId.isSome then schedule.runCount + 1 else schedule.runCount) =
      schedule.runCount + result.runId.isSome.toNat := by
    cases result.runId <;> rfl
  unfold TaskSchedule.summarized
  dsimp only
  split
  · rename_i newer
    exact ⟨rfl, counted, fun instant mem => ⟨_, rfl, Nat.le_of_lt (newer instant mem)⟩, rfl⟩
  · exact ⟨rfl, counted, fun instant mem => ⟨instant, mem, Nat.le_refl _⟩, rfl⟩

theorem concluded_same (schedule : TaskSchedule) (claim : ClaimedSchedule)
    (result : ScheduleTriggerResult) : (schedule.concluded claim result).id = schedule.id ∧
      (schedule.concluded claim result).runCount = schedule.runCount ∧
      (schedule.concluded claim result).lastRunAt = schedule.lastRunAt ∧
      (schedule.concluded claim result).definition = schedule.definition := by
  have closed (status : ScheduleStatus) :
      (if status = .active then schedule else { schedule with status, nextRunAt := none }).id =
        schedule.id ∧
      (if status = .active then schedule
        else { schedule with status, nextRunAt := none }).runCount = schedule.runCount ∧
      (if status = .active then schedule
        else { schedule with status, nextRunAt := none }).lastRunAt = schedule.lastRunAt ∧
      (if status = .active then schedule
        else { schedule with status, nextRunAt := none }).definition = schedule.definition := by
    split <;> exact ⟨rfl, rfl, rfl, rfl⟩
  exact closed _

theorem recordOutcome_moves {result given : ScheduleTriggerResult}
    {lockNow reference last : Timestamp}
    (committed : recordOutcome settings t claim result lockNow reference last =
      .ok (given, t')) : ScheduleMoves settings t [] t' ∧
      ∃ row ∈ t'.occurrences, row.id = claim.occurrenceId ∧ row.status = .settled := by
  simp only [recordOutcome, bind_eq_ok, exists_unit] at committed
  obtain ⟨⟨schedule, row⟩, locks, -, rest⟩ := committed
  have holds := lockClaim_holds locks
  split at rest
  · rename_i ended
    simp only [bind_eq_ok, exists_unit, pure_eq_ok, Prod.mk.injEq] at rest
    obtain ⟨_, -, -, -, rfl⟩ := rest
    exact ⟨.refl, row, holds.occurrence, holds.issues.occurrence.symm, ended⟩
  · rename_i unsettled
    have pending : row.status = .pending := by
      cases status : row.status with
      | pending => rfl
      | settled => exact absurd status unsettled
    obtain ⟨id, count, later, limits⟩ := summarized_counts schedule row result
    obtain ⟨id', count', later', limits'⟩ :=
      concluded_same (schedule.summarized row result) claim result
    have finish {concluded : TaskSchedule} (same : concluded.id = schedule.id ∧
          concluded.runCount = schedule.runCount + result.runId.isSome.toNat ∧
          Later schedule.lastRunAt concluded.lastRunAt ∧
          concluded.definition = schedule.definition)
        {bumped : TaskSchedule} (bumps : bump concluded reference = .ok bumped)
        (written : (t.putOccurrence
          { row with
            status := .settled
            outcome := some result.outcome
            runId := result.runId
            detail := result.detail
            settledAt := some reference
            updatedAt := reference }).putSchedule bumped = t') :
        ScheduleMoves settings t [] t' ∧
          ∃ row ∈ t'.occurrences, row.id = claim.occurrenceId ∧ row.status = .settled := by
      obtain ⟨bumpedId, bumpedCount, bumpedLast, bumpedLimits⟩ := bump_same bumps
      subst written
      refine ⟨?_, _, mem_replaceRow_self holds.occurrence rfl, holds.issues.occurrence.symm, rfl⟩
      refine .single (.settled holds.schedule holds.occurrence holds.place pending ?_ ?_ ?_ ?_ ?_
        ?_ (bumpedId.trans same.1) (bumpedCount.trans same.2.1) ?_
        (bumpedLimits.trans same.2.2.2) rfl rfl)
      · exact ⟨rfl, rfl, rfl⟩
      · rfl
      · rfl
      · rfl
      · rfl
      · rfl
      · rw [bumpedLast]
        exact same.2.2.1
    have ended {unchanged : Prop} [Decidable unchanged] :
        (if unchanged then (schedule.summarized row result).concluded claim result
          else schedule.summarized row result).id = schedule.id ∧
        (if unchanged then (schedule.summarized row result).concluded claim result
          else schedule.summarized row result).runCount =
            schedule.runCount + result.runId.isSome.toNat ∧
        Later schedule.lastRunAt
          (if unchanged then (schedule.summarized row result).concluded claim result
            else schedule.summarized row result).lastRunAt ∧
        (if unchanged then (schedule.summarized row result).concluded claim result
          else schedule.summarized row result).definition = schedule.definition := by
      split
      · rw [later']
        exact ⟨id'.trans id, count'.trans count, later, limits'.trans limits⟩
      · exact ⟨id, count, later, limits⟩
    have ending : ∃ concluded bumped, (concluded.id = schedule.id ∧
          concluded.runCount = schedule.runCount + result.runId.isSome.toNat ∧
          Later schedule.lastRunAt concluded.lastRunAt ∧
          concluded.definition = schedule.definition) ∧
        bump concluded reference = .ok bumped ∧
        (t.putOccurrence
          { row with
            status := .settled
            outcome := some result.outcome
            runId := result.runId
            detail := result.detail
            settledAt := some reference
            updatedAt := reference }).putSchedule bumped = t' := by
      split at rest
      · simp only [bind_eq_ok, exists_unit, pure_eq_ok, Prod.mk.injEq] at rest
        obtain ⟨_, -, _, -, -, -, -, bumped, bumps, -, -, written⟩ := rest
        exact ⟨_, bumped, ended, bumps, written⟩
      · simp only [bind_eq_ok, exists_unit, pure_eq_ok, Prod.mk.injEq] at rest
        obtain ⟨-, -, bumped, bumps, -, -, written⟩ := rest
        exact ⟨_, bumped, ended, bumps, written⟩
    obtain ⟨concluded, bumped, same, bumps, written⟩ := ending
    exact finish same bumps written

theorem completeCreation_moves {runId : Uuid} {times : CreationTimes}
    (completes : completeCreation settings t claim runId times = .ok t') :
    ScheduleMoves settings t [] t' ∧
      ∃ row ∈ t'.occurrences, row.id = claim.occurrenceId ∧ row.status = .settled := by
  simp only [completeCreation, bind_eq_ok, pure_eq_ok, Prod.exists] at completes
  obtain ⟨given, settled, records, rfl⟩ := completes
  exact recordOutcome_moves records

theorem insertRun_moves {run : CreatedRun} (inserts : insertRun t run = .ok t') :
    ScheduleMoves settings t [] t' := by
  simp only [insertRun, bind_eq_ok, exists_unit, pure_eq_ok] at inserts
  obtain ⟨-, rfl⟩ := inserts
  exact .single (.runs rfl rfl)

variable {intent : TaskRunIntent} {idempotencyKey : String}

theorem authorizeCreation_holds {owner : Except Fault Unit}
    (authorized : authorizeCreation settings t claim owner intent idempotencyKey now = .ok ()) :
    ∃ locked, Holds settings t claim locked := by
  simp only [authorizeCreation, bind_eq_ok, exists_unit] at authorized
  obtain ⟨-, locked, locks, -⟩ := authorized
  exact ⟨locked, lockClaim_holds locks⟩

theorem createScheduledRun_moves {owner task : Except Fault Unit}
    {runId : Uuid} {times : CreationTimes}
    {answer : CreationAnswer}
    (committed : createScheduledRun settings t claim owner intent idempotencyKey task runId
      times = .ok (answer, t')) :
    (∃ locked, Holds settings t claim locked) ∧ ScheduleMoves settings t [] t' ∧
      (answer.replayed = false →
        (∃ row ∈ t.occurrences, row.id = claim.occurrenceId ∧ row.status = .pending) ∧
        ∃ row ∈ t'.occurrences, row.id = claim.occurrenceId ∧ row.status = .settled) := by
  simp only [createScheduledRun, bind_eq_ok, exists_unit] at committed
  obtain ⟨authorized, replay, -, rest⟩ := committed
  refine ⟨authorizeCreation_holds authorized, ?_⟩
  split at rest
  · simp only [bind_eq_ok, pure_eq_ok, Prod.mk.injEq] at rest
    obtain ⟨settled, completes, rfl, rfl⟩ := rest
    exact ⟨(completeCreation_moves completes).1, fun new => absurd new (by simp)⟩
  · simp only [beforeCreate, bind_eq_ok, exists_unit, require_eq_ok, pure_eq_ok,
      Prod.mk.injEq] at rest
    obtain ⟨⟨locked, locks, pending, -⟩, -, created, inserts, settled, completes, -, rfl⟩ := rest
    have holds := lockClaim_holds locks
    obtain ⟨moves, ended⟩ := completeCreation_moves completes
    exact ⟨(insertRun_moves inserts).trans moves, fun _ =>
      ⟨⟨locked.occurrence, holds.occurrence, holds.issues.occurrence.symm, pending⟩, ended⟩⟩

theorem findScheduledRun_moves {owner : Except Fault Unit}
    {times : CreationTimes}
    {answer : Option CreationAnswer}
    (committed : findScheduledRun settings t claim owner intent idempotencyKey times =
      .ok (answer, t')) :
    (∃ locked, Holds settings t claim locked) ∧ ScheduleMoves settings t [] t' := by
  simp only [findScheduledRun, bind_eq_ok, exists_unit] at committed
  obtain ⟨authorized, replay, -, rest⟩ := committed
  refine ⟨authorizeCreation_holds authorized, ?_⟩
  split at rest
  · simp only [bind_eq_ok, pure_eq_ok, Prod.mk.injEq] at rest
    obtain ⟨settled, completes, -, rfl⟩ := rest
    exact (completeCreation_moves completes).1
  · obtain ⟨-, rfl⟩ := Prod.mk.inj (pure_eq_ok.mp rest)
    exact .refl

theorem createUserRun_moves {access task : Except Fault Unit}
    {runId : Uuid} {answer : CreationAnswer}
    (committed : createUserRun t access intent idempotencyKey task runId = .ok (answer, t')) :
    ScheduleMoves settings t [] t' := by
  simp only [createUserRun, bind_eq_ok, exists_unit] at committed
  obtain ⟨-, replay, -, rest⟩ := committed
  split at rest
  · obtain ⟨-, rfl⟩ := Prod.mk.inj (pure_eq_ok.mp rest)
    exact .refl
  · simp only [bind_eq_ok, exists_unit, pure_eq_ok, Prod.mk.injEq] at rest
    obtain ⟨-, -, created, inserts, -, rfl⟩ := rest
    exact insertRun_moves inserts

/-- The claims an answer hands out. -/
def ScheduleAnswer.issued : ScheduleAnswer → List ClaimedSchedule
  | .claims handed => handed
  | _ => []

def ScheduleAction.presents : ScheduleAction → Option ClaimedSchedule
  | .recordOutcome claim .. => some claim
  | .createScheduledRun claim .. => some claim
  | .findScheduledRun claim .. => some claim
  | _ => none

theorem execSchedule_moves {action : ScheduleAction} {answer : ScheduleAnswer}
    (committed : execSchedule settings action t = .ok (answer, t')) :
    ScheduleMoves settings t answer.issued t' := by
  cases action with
  | create command scheduleId now =>
    obtain ⟨row, creates, rfl⟩ := answering_eq_ok.mp committed
    exact create_moves creates
  | updateDefinition command now =>
    obtain ⟨row, updates, rfl⟩ := answering_eq_ok.mp committed
    exact updateDefinition_moves updates
  | setStatus projectId scheduleId status nextRunAt expectedRowVersion lastError now =>
    obtain ⟨row, sets, rfl⟩ := answering_eq_ok.mp committed
    exact setStatus_moves sets
  | claimDue record worker occurrenceId reference leaseStart last =>
    simp only [execSchedule, answering_eq_ok] at committed
    obtain ⟨claim, claims, rfl⟩ := committed
    exact claimDue_moves claims
  | claimRecoverable worker limit maxAttempts skipped reference starts last =>
    obtain ⟨claims, recovers, rfl⟩ := answering_eq_ok.mp committed
    exact claimRecoverable_moves recovers
  | recordOutcome claim result lockNow reference last =>
    obtain ⟨given, records, rfl⟩ := answering_eq_ok.mp committed
    exact (recordOutcome_moves records).1
  | createScheduledRun claim owner intent idempotencyKey task runId times =>
    simp only [execSchedule, answering_eq_ok] at committed
    obtain ⟨given, creates, rfl⟩ := committed
    exact (createScheduledRun_moves creates).2.1
  | findScheduledRun claim owner intent idempotencyKey times =>
    obtain ⟨given, finds, rfl⟩ := answering_eq_ok.mp committed
    exact (findScheduledRun_moves finds).2
  | createUserRun access intent idempotencyKey task runId =>
    simp only [execSchedule, answering_eq_ok] at committed
    obtain ⟨given, creates, rfl⟩ := committed
    exact createUserRun_moves creates
  | moveRun runId terminal =>
    obtain ⟨rfl, rfl⟩ := Prod.mk.inj (Except.ok.inj committed)
    exact .single (.runs rfl rfl)

theorem execSchedule_holds {action : ScheduleAction} {answer : ScheduleAnswer}
    (presents : action.presents = some claim)
    (committed : execSchedule settings action t = .ok (answer, t')) :
    ∃ locked, Holds settings t claim locked := by
  cases action with
  | recordOutcome claim' result lockNow reference last =>
    obtain rfl := Option.some.inj presents
    obtain ⟨given, records, rfl⟩ := answering_eq_ok.mp committed
    simp only [recordOutcome, bind_eq_ok] at records
    obtain ⟨locked, locks, -⟩ := records
    exact ⟨locked, lockClaim_holds locks⟩
  | createScheduledRun claim' owner intent idempotencyKey task runId times =>
    obtain rfl := Option.some.inj presents
    simp only [execSchedule, answering_eq_ok] at committed
    obtain ⟨given, creates, rfl⟩ := committed
    exact (createScheduledRun_moves creates).1
  | findScheduledRun claim' owner intent idempotencyKey times =>
    obtain rfl := Option.some.inj presents
    obtain ⟨given, finds, rfl⟩ := answering_eq_ok.mp committed
    exact (findScheduledRun_moves finds).1
  | _ => cases presents

end SkillMind.Schedules
