import SkillMind.Library.Fencing
import SkillMind.Schedules.Accounting

/-!
# Claims of an occurrence

The claims that were handed out fence the occurrences: a recovery takes the next generation, and
only the holder of the current one may create a Run or settle. A new Run settles its occurrence in
the same transaction, so no second one is created for it.
-/

namespace SkillMind.Schedules

open Library
open Runs (Uuid Timestamp)

/-- How occurrences and their claims are fenced: by the worker, its token and the expiry. -/
def occurrenceFencing (settings : ScheduleSettings) :
    Fencing TaskScheduleOccurrence ClaimedSchedule Uuid (String × String × Timestamp) where
  key := TaskScheduleOccurrence.id
  counter := TaskScheduleOccurrence.leaseGeneration
  sealed row := some (row.workerId, row.leaseTokenHash, row.leaseExpiresAt)
  target := ClaimedSchedule.occurrenceId
  number := ClaimedSchedule.leaseGeneration
  sealOf claim :=
    (claim.workerId, settings.leaseTokenHash claim.leaseToken, claim.leaseExpiresAt)

variable {settings : ScheduleSettings} {t t' : ScheduleTables}
  {claims issued : List ClaimedSchedule}

theorem Issues.sealed {claim : ClaimedSchedule} {row : TaskScheduleOccurrence}
    (issues : Issues settings claim row) :
    (occurrenceFencing settings).sealed row = some ((occurrenceFencing settings).sealOf claim) := by
  show some (row.workerId, row.leaseTokenHash, row.leaseExpiresAt) = _
  rw [← issues.worker, ← issues.token, ← issues.expiry]
  rfl

theorem kept_refl (row : TaskScheduleOccurrence) : (occurrenceFencing settings).Kept row row :=
  ⟨rfl, rfl, Or.inl rfl⟩

theorem ScheduleMove.fenced (move : ScheduleMove settings t t' issued) (accounted : Accounted t)
    (fenced : Fenced (occurrenceFencing settings) claims t.occurrences) :
    Fenced (occurrenceFencing settings) (claims ++ issued) t'.occurrences := by
  have keyed : Keyed (occurrenceFencing settings).key t.occurrences := accounted.occurrences
  cases move with
  | scheduleCreated fresh count schedules occurrences =>
    rw [List.append_nil, occurrences]
    exact fenced
  | scheduleWritten known id count last bounded schedules occurrences =>
    rw [List.append_nil, occurrences]
    exact fenced
  | @claimed schedule schedule' row claim known id count last limits free room fresh place pending
      unset first issues schedules occurrences =>
      rw [occurrences]
      exact fenced.enter (fun other member => (fresh other member).1) issues.occurrence
        issues.generation issues.sealed
  | @recovered row row' claim known pending same status unset next issues schedules occurrences =>
    rw [occurrences]
    exact fenced.claim keyed known (issues.occurrence.trans same.id) same.id
      (issues.generation.trans next) issues.generation.symm issues.sealed
  | @settled schedule schedule' row row' known member place pending same ended generation worker
      token expiry id count last limits schedules occurrences =>
      rw [List.append_nil, occurrences]
      refine fenced.evolve (Evolves.replace keyed kept_refl member same.id.symm ?_)
      refine ⟨same.id, generation, Or.inl ?_⟩
      show some (row'.workerId, row'.leaseTokenHash, row'.leaseExpiresAt) = _
      rw [worker, token, expiry]
      rfl
  | runs schedules occurrences =>
    rw [List.append_nil, occurrences]
    exact fenced

def issuedClaims (log : List (ScheduleAction × ScheduleAnswer)) : List ClaimedSchedule :=
  log.flatMap fun entry => entry.2.issued

theorem ScheduleMoves.fenced (moves : ScheduleMoves settings t issued t')
    (accounted : Accounted t)
    (fenced : Fenced (occurrenceFencing settings) claims t.occurrences) :
    Fenced (occurrenceFencing settings) (claims ++ issued) t'.occurrences := by
  induction moves with
  | refl => rwa [List.append_nil]
  | tail before move ih =>
    rw [← List.append_assoc]
    exact move.fenced (before.accounted accounted).1 ih

theorem claims_fenced (actions : List ScheduleAction) :
    Accounted ((scheduleStore settings).run ScheduleTables.empty actions) ∧
      Fenced (occurrenceFencing settings)
        (issuedClaims ((scheduleStore settings).answers ScheduleTables.empty actions))
        ((scheduleStore settings).run ScheduleTables.empty actions).occurrences := by
  have nothing : Accounted ScheduleTables.empty ∧ Fenced (occurrenceFencing settings)
      (issuedClaims []) ScheduleTables.empty.occurrences :=
    ⟨accounted_empty, Fenced.empty fun _ member => (nomatch member)⟩
  have keeps : ∀ log s action answer s',
      (Accounted s ∧ Fenced (occurrenceFencing settings) (issuedClaims log) s.occurrences) →
      (scheduleStore settings).exec action s = .ok (answer, s') →
      Accounted s' ∧ Fenced (occurrenceFencing settings)
        (issuedClaims (log ++ [(action, answer)])) s'.occurrences := by
    intro log s action answer s' holds committed
    have moves := execSchedule_moves committed
    have claims : issuedClaims (log ++ [(action, answer)]) = issuedClaims log ++ answer.issued := by
      simp [issuedClaims]
    rw [claims]
    exact ⟨(moves.accounted holds.1).1, moves.fenced holds.1 holds.2⟩
  exact TransactionSystem.history keeps nothing actions

def creates (occurrenceId : Uuid) : ScheduleAction × ScheduleAnswer → Bool
  | (.createScheduledRun claim .., .run (some answer)) =>
    claim.occurrenceId = occurrenceId ∧ answer.replayed = false
  | _ => false

def SettledAt (occurrenceId : Uuid) (t : ScheduleTables) : Prop :=
  ∃ row ∈ t.occurrences, row.id = occurrenceId ∧ row.status = .settled

theorem created_once (occurrenceId : Uuid) (actions : List ScheduleAction) :
    ((scheduleStore settings).answers ScheduleTables.empty actions).countP
      (creates occurrenceId) ≤ 1 := by
  have stays : ∀ s action answer s', Accounted s →
      (scheduleStore settings).exec action s = .ok (answer, s') →
      SettledAt occurrenceId s → SettledAt occurrenceId s' := by
    rintro s action answer s' accounted committed ⟨row, member, id, ended⟩
    have onward := ((execSchedule_moves committed).accounted accounted).2
    exact ⟨row, onward.settled row member ended, id, ended⟩
  have spends : ∀ s action answer s', Accounted s →
      (scheduleStore settings).exec action s = .ok (answer, s') →
      creates occurrenceId (action, answer) = true →
      ¬ SettledAt occurrenceId s ∧ SettledAt occurrenceId s' := by
    intro s action answer s' accounted committed new
    unfold creates at new
    split at new
    · rename_i claim owner intent idempotencyKey task runId times given pair
      obtain ⟨rfl, rfl⟩ := Prod.mk.inj pair
      obtain ⟨same, first⟩ := of_decide_eq_true new
      have running : execSchedule settings (.createScheduledRun claim owner intent idempotencyKey
        task runId times) s = .ok (.run (some given), s') := committed
      simp only [execSchedule, answering_eq_ok] at running
      obtain ⟨result, run, isResult⟩ := running
      obtain rfl : given = result := by simpa using isResult
      obtain ⟨-, -, settles⟩ := createScheduledRun_moves run
      obtain ⟨⟨row, member, id, pending⟩, after⟩ := settles first
      refine ⟨?_, same ▸ after⟩
      rintro ⟨other, otherMem, otherId, ended⟩
      have one := accounted.occurrences.eq_of_key otherMem member
        (otherId.trans (same.symm.trans id.symm))
      rw [one, pending] at ended
      cases ended
    · cases new
  exact TransactionSystem.answered_once accounted_invariant stays spends accounted_empty
    actions

/-- **The claims of an occurrence fence it** in every run of any number of schedulers.  Once a
claim was handed out, every transaction that presents a claim of an earlier generation fails and
leaves the tables as they are; of the claims that were handed out for an occurrence only one is
accepted at a time, and no generation is handed out twice; and at most one Run is created for an
occurrence. -/
theorem occurrence_claims_fenced (actions : List ScheduleAction) :
    let t := (scheduleStore settings).run ScheduleTables.empty actions
    let log := (scheduleStore settings).answers ScheduleTables.empty actions
    (∀ issued ∈ issuedClaims log, ∀ action claim, action.presents = some claim →
      claim.occurrenceId = issued.occurrenceId →
      claim.leaseGeneration < issued.leaseGeneration →
      (∃ fault, (scheduleStore settings).exec action t = .error fault) ∧
        (scheduleStore settings).step t action = t) ∧
    (∀ first ∈ issuedClaims log, ∀ second ∈ issuedClaims log,
      first.occurrenceId = second.occurrenceId →
      (∃ now locked, lockClaim settings t first now = .ok locked) →
      (∃ now locked, lockClaim settings t second now = .ok locked) → first = second) ∧
    (∀ occurrenceId generation, (issuedClaims log).countP (fun claim =>
      claim.occurrenceId = occurrenceId ∧ claim.leaseGeneration = generation) ≤ 1) ∧
    ∀ occurrenceId, log.countP (creates occurrenceId) ≤ 1 := by
  intro t log
  have reached : Accounted t ∧ Fenced (occurrenceFencing settings) (issuedClaims log)
      t.occurrences := claims_fenced actions
  obtain ⟨accounted, fenced⟩ := reached
  have keyed : Keyed (occurrenceFencing settings).key t.occurrences := accounted.occurrences
  refine ⟨?_, ?_, fenced.once, fun occurrenceId => created_once occurrenceId actions⟩
  · intro issued given action claim presents same older
    cases outcome : (scheduleStore settings).exec action t with
    | error fault => exact ⟨⟨fault, rfl⟩, (scheduleStore settings).step_of_fault outcome⟩
    | ok result =>
      obtain ⟨answer, t'⟩ := result
      obtain ⟨locked, holds⟩ := execSchedule_holds presents outcome
      obtain ⟨row, member, key, below⟩ := fenced.counted issued given
      have one : row = locked.occurrence := keyed.eq_of_key member holds.occurrence
        (key.trans (same.symm.trans holds.issues.occurrence))
      have current := holds.issues.generation
      rw [one] at below
      have below : issued.leaseGeneration ≤ locked.occurrence.leaseGeneration := below
      omega
  · rintro first firstMem second secondMem same ⟨now, locked, locks⟩ ⟨now', locked', locks'⟩
    have holds := lockClaim_holds locks
    have holds' := lockClaim_holds locks'
    have one : locked.occurrence = locked'.occurrence := keyed.eq_of_key holds.occurrence
      holds'.occurrence
      (holds.issues.occurrence.symm.trans (same.trans holds'.issues.occurrence))
    have number : first.leaseGeneration = second.leaseGeneration := by
      rw [holds.issues.generation, holds'.issues.generation, one]
    exact fenced.unique firstMem secondMem same number

end SkillMind.Schedules
