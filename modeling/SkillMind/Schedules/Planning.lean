import Mathlib.Data.Set.Card
import SkillMind.Schedules.NextOccurrence

/-!
# Planning

What a claimed occurrence is followed by: the next instant of the definition behind the present
one, and the number of instants that have passed since the claimed one.  Nothing is lost
(`plan_exact`), and a planned instant passes the test of the claim that meets it
(`planned_claimable`).

Instants are seconds, as in the search; the instants of a definition are whole minutes.
-/

namespace SkillMind.Schedules

open Library

/-- The time rules of a `ScheduleDefinition`. -/
structure TimeRules where
  kind : ScheduleKind
  timezone : TimeZone
  cronExpression : Option (List Char)
  runAt : Option Int
  endAt : Option Int
  maxRuns : Option Nat

/-- An `OccurrencePlan`. -/
structure RulesPlan where
  nextRunAt : Option Int
  missed : Nat
  exhausted : Bool

/-! ## The plan of an occurrence -/

section Plan

variable (tables : DigitTables) (definition : TimeRules)

def TimeRules.ends (time : Int) : Bool := definition.endAt.all fun stop => decide (time ≤ stop)

def occurrences (after : Int) (count : Nat) : Except CronFault (List Int) :=
  match definition.kind with
  | .once =>
    match definition.runAt with
    | none => .ok []
    | some instant =>
      if instant ≤ after then .ok []
      else if definition.ends instant = false then .ok []
      else .ok [instant]
  | .cron => do
    let expression ← parseCron tables (definition.cronExpression.getD [])
    let limit := match definition.maxRuns with
      | some most => min count most
      | none => count
    let candidates := upcomingOccurrences expression definition.timezone limit after
    return candidates.filter definition.ends

def nextFromDefinition (after : Int) : Except CronFault (Option Int) := do
  let candidates ← occurrences tables definition after 1
  return candidates.head?

/-- The loop of `_count_missed`; the number is what is left of its limit. -/
def countPassed (expression : CronExpression) (last : Int) : Nat → Int → Nat
  | 0, _ => 0
  | left + 1, cursor =>
    match nextOccurrence expression definition.timezone cursor with
    | none => 0
    | some upcoming =>
      if last < upcoming ∨ definition.ends upcoming = false then 0
      else countPassed expression last left upcoming + 1

def countMissed (start last : Int) : Except CronFault Nat :=
  match definition.kind with
  | .once => .ok 0
  | .cron => do
    let expression ← parseCron tables (definition.cronExpression.getD [])
    return countPassed definition expression last 1000 start

def planOccurrence (occurrence now : Int) : Except CronFault RulesPlan := do
  let following ← nextFromDefinition tables definition now
  let missed ← countMissed tables definition occurrence now
  let exhausted := definition.kind = .once || following.all fun time => !definition.ends time
  return ⟨following, missed, exhausted⟩

/-! ## What a plan has to be -/

/-- An instant of the definition. -/
def TimeRules.Fires (time : Int) : Prop :=
  definition.ends time = true ∧
    match definition.kind with
    | .once => definition.runAt = some time
    | .cron => ∃ expression, parseCron tables (definition.cronExpression.getD []) = .ok expression ∧
        Occurs expression definition.timezone time

/-- What `build_definition` checks of the rules. -/
structure TimeRules.Valid : Prop where
  parsed : definition.kind = .cron → ∃ expression,
    parseCron tables (definition.cronExpression.getD []) = .ok expression
  runs : definition.maxRuns ≠ some 0

/-- The least of the instants, if there is one. -/
def IsNext (instants : Set Int) : Option Int → Prop
  | some time => IsLeast instants time
  | none => instants = ∅

/-- The search finds what is behind both instants, and behind every occurrence between them. -/
def TimeRules.Reaches (first last : Int) : Prop :=
  ∀ expression, definition.kind = .cron →
    parseCron tables (definition.cronExpression.getD []) = .ok expression →
    Reached expression definition.timezone first ∧ Reached expression definition.timezone last ∧
      ∀ time ∈ later expression definition.timezone first, time ≤ last →
        Reached expression definition.timezone time

/-- The search from an instant meets an occurrence before it reads a local time with seconds. -/
def TimeRules.Sharp (start : Int) : Prop :=
  ∀ expression, definition.kind = .cron →
    parseCron tables (definition.cronExpression.getD []) = .ok expression →
    Unblurred expression definition.timezone start

end Plan

variable {tables : DigitTables} {definition : TimeRules} {expression : CronExpression}

theorem ends_mono {time other : Int} (ends : definition.ends time = true) (below : other ≤ time) :
    definition.ends other = true := by
  unfold TimeRules.ends at *
  cases stop : definition.endAt with
  | none => rfl
  | some last =>
    rw [stop] at ends
    exact decide_eq_true (below.trans (of_decide_eq_true ends))

theorem fires_cron (cron : definition.kind = .cron)
    (parsed : parseCron tables (definition.cronExpression.getD []) = .ok expression) {time : Int} :
    definition.Fires tables time ↔
      definition.ends time = true ∧ Occurs expression definition.timezone time := by
  rw [TimeRules.Fires, cron, parsed]
  simp

theorem nextFromDefinition_cron (runs : definition.maxRuns ≠ some 0)
    (cron : definition.kind = .cron)
    (parsed : parseCron tables (definition.cronExpression.getD []) = .ok expression) (after : Int) :
    nextFromDefinition tables definition after =
      .ok ((nextOccurrence expression definition.timezone after).filter definition.ends) := by
  have limit : (match definition.maxRuns with
      | some most => min 1 most
      | none => 1) = 1 := by
    cases most : definition.maxRuns with
    | none => rfl
    | some most' =>
      have positive : most' ≠ 0 := fun zero => runs (most.trans (congrArg some zero))
      simp only
      omega
  have listed : nextFromDefinition tables definition after =
      .ok ((upcomingOccurrences expression definition.timezone 1 after).filter
        definition.ends).head? := by
    rw [nextFromDefinition, occurrences, cron]
    simp only [parsed, ok_bind, limit]
    rfl
  rw [listed]
  cases next : nextOccurrence expression definition.timezone after with
  | none =>
    simp only [upcomingOccurrences, next, List.filter_nil, List.head?_nil, Option.filter_none]
  | some time =>
    cases ends : definition.ends time <;>
      simp [upcomingOccurrences, next, ends, Option.filter]

/-! ## The count of the passed instants -/

/-- The occurrences behind the cursor that have passed. -/
def passed (definition : TimeRules) (expression : CronExpression) (last cursor : Int) : Set Int :=
  {time | time ∈ later expression definition.timezone cursor ∧ time ≤ last ∧
    definition.ends time = true}

theorem passed_finite (last cursor : Int) : (passed definition expression last cursor).Finite :=
  (Set.finite_Ioc cursor last).subset fun _ mem => ⟨mem.1.2, mem.2.1⟩

theorem passed_least {last cursor time : Int}
    (least : IsLeast (later expression definition.timezone cursor) time) (inside : time ≤ last)
    (ends : definition.ends time = true) :
    passed definition expression last cursor =
      insert time (passed definition expression last time) := by
  ext other
  constructor
  · rintro ⟨mem, before, endsOther⟩
    rcases eq_or_lt_of_le (least.2 mem) with rfl | above
    · exact .inl rfl
    · exact .inr ⟨⟨mem.1, above⟩, before, endsOther⟩
  · rintro (rfl | ⟨mem, before, endsOther⟩)
    · exact ⟨least.1, inside, ends⟩
    · exact ⟨⟨mem.1, least.1.2.trans mem.2⟩, before, endsOther⟩

/-- **The loop counts the passed occurrences**, up to its limit. -/
theorem countPassed_eq (timed : expression.Timed) {last : Int} (left : Nat) :
    ∀ {cursor : Int}, Reached expression definition.timezone cursor →
      (∀ time ∈ later expression definition.timezone cursor, time ≤ last →
        Reached expression definition.timezone time) →
      countPassed definition expression last left cursor =
        min left (passed definition expression last cursor).ncard := by
  induction left with
  | zero => exact fun _ _ => (Nat.zero_min _).symm
  | succ left ih =>
    intro cursor reached later
    have exact := (reached_iff timed).mpr reached
    rw [countPassed]
    cases next : nextOccurrence expression definition.timezone cursor with
    | none =>
      have none : passed definition expression last cursor = ∅ :=
        Set.eq_empty_of_forall_notMem fun time mem => by
          have inside := mem.1
          rw [exact.2.mp next] at inside
          exact inside
      rw [none, Set.ncard_empty, Nat.min_zero]
    | some time =>
      have least := (exact.1 time).mp next
      simp only
      split_ifs with beyond
      · have none : passed definition expression last cursor = ∅ := by
          refine Set.eq_empty_of_forall_notMem fun other mem => ?_
          have above := least.2 mem.1
          rcases beyond with after | ended
          · exact absurd mem.2.1 (not_le_of_gt (after.trans_le above))
          · rw [ends_mono mem.2.2 above] at ended
            cases ended
        rw [none, Set.ncard_empty, Nat.min_zero]
      · obtain ⟨inside, ends⟩ := not_or.mp beyond
        have fresh : time ∉ passed definition expression last time :=
          fun mem => lt_irrefl _ mem.1.2
        rw [passed_least least (not_lt.mp inside) (Bool.eq_true_of_not_eq_false ends),
          Set.ncard_insert_of_notMem fresh (passed_finite last time),
          ih (later time least.1 (not_lt.mp inside)) fun other mem before =>
            later other ⟨mem.1, least.1.2.trans mem.2⟩ before]
        omega

/-! ## The plan -/

theorem fires_later (cron : definition.kind = .cron)
    (parsed : parseCron tables (definition.cronExpression.getD []) = .ok expression)
    {start time : Int} : definition.Fires tables time ∧ start < time ↔
      definition.ends time = true ∧ time ∈ later expression definition.timezone start := by
  rw [fires_cron cron parsed, and_assoc]
  rfl

theorem nextFromDefinition_once (once : definition.kind = .once) (after : Int) :
    nextFromDefinition tables definition after =
      .ok (definition.runAt.filter fun time =>
        decide (after < time) && definition.ends time) := by
  rw [nextFromDefinition, occurrences, once]
  cases definition.runAt with
  | none => rfl
  | some time =>
    by_cases behind : time ≤ after
    · simp [behind, not_lt_of_ge behind, Option.filter]
    · cases ends : definition.ends time <;> simp [behind, ends, not_le.mp behind, Option.filter]

/-- A condition that the least instant meets wherever another one does. -/
theorem IsNext.filter {instants : Set Int} {next : Option Int} {p : Int → Bool}
    (isNext : IsNext instants next)
    (down : ∀ first ∈ next, ∀ time ∈ instants, p time = true → p first = true) :
    IsNext {time | p time = true ∧ time ∈ instants} (next.filter p) := by
  cases next with
  | none =>
    refine Set.eq_empty_of_forall_notMem fun time mem => ?_
    exact (Set.eq_empty_iff_forall_notMem.mp isNext) time mem.2
  | some first =>
    rw [Option.filter_some]
    split_ifs with holds
    · exact ⟨⟨holds, isNext.1⟩, fun time mem => isNext.2 mem.2⟩
    · exact Set.eq_empty_of_forall_notMem fun time mem => holds (down first rfl time mem.2 mem.1)

theorem isNext_only (instant : Option Int) : IsNext {time | instant = some time} instant := by
  cases instant with
  | none => exact Set.eq_empty_of_forall_notMem fun time => nofun
  | some only => exact ⟨rfl, fun time same => (Option.some.inj same).le⟩

theorem NextExact.isNext {zone : TimeZone} {after : Int} (exact : NextExact expression zone after) :
    IsNext (later expression zone after) (nextOccurrence expression zone after) := by
  cases next : nextOccurrence expression zone after with
  | none => exact exact.2.mp next
  | some time => exact (exact.1 time).mp next

theorem nextFromDefinition_isNext (valid : definition.Valid tables) {start after : Int}
    (reaches : definition.Reaches tables start after) :
    ∃ next, nextFromDefinition tables definition after = .ok next ∧
      IsNext {time | definition.Fires tables time ∧ after < time} next := by
  cases kind : definition.kind with
  | once =>
    have instants : {time | definition.Fires tables time ∧ after < time} =
        {time | (decide (after < time) && definition.ends time) = true ∧
          time ∈ {time | definition.runAt = some time}} := by
      ext time
      simp only [TimeRules.Fires, kind, Bool.and_eq_true_iff, decide_eq_true_eq]
      exact and_comm.trans and_assoc.symm
    refine ⟨_, nextFromDefinition_once kind after, instants ▸ (isNext_only _).filter ?_⟩
    intro first run time same holds
    obtain rfl := Option.some.inj (run.symm.trans same)
    exact holds
  | cron =>
    obtain ⟨expression, parsed⟩ := valid.parsed kind
    have exact := (reached_iff (parseCron_timed parsed)).mpr (reaches expression kind parsed).2.1
    have instants : {time | definition.Fires tables time ∧ after < time} =
        {time | definition.ends time = true ∧
          time ∈ later expression definition.timezone after} :=
      Set.ext fun time => fires_later kind parsed
    refine ⟨_, nextFromDefinition_cron valid.runs kind parsed after,
      instants ▸ exact.isNext.filter ?_⟩
    intro first next time mem ends
    exact ends_mono ends (((exact.1 first).mp next).2 mem)

theorem countMissed_eq (valid : definition.Valid tables) {start last : Int}
    (reaches : definition.Reaches tables start last) :
    ∃ missed, countMissed tables definition start last = .ok missed ∧
      (definition.kind = .once → missed = 0) ∧
      (definition.kind = .cron → missed = min 1000
        {time | definition.Fires tables time ∧ start < time ∧ time ≤ last}.ncard) := by
  cases kind : definition.kind with
  | once => exact ⟨0, by rw [countMissed, kind], fun _ => rfl, nofun⟩
  | cron =>
    obtain ⟨expression, parsed⟩ := valid.parsed kind
    refine ⟨_, by simp only [countMissed, kind, parsed, ok_bind]; rfl, nofun, fun _ => ?_⟩
    obtain ⟨found, -, between⟩ := reaches expression kind parsed
    rw [countPassed_eq (parseCron_timed parsed) 1000 found between]
    congr 2
    ext time
    have fires : definition.Fires tables time ∧ start < time ↔ definition.ends time = true ∧
        time ∈ later expression definition.timezone start := fires_later kind parsed
    constructor
    · rintro ⟨mem, before, ends⟩
      obtain ⟨fired, behind⟩ := fires.mpr ⟨ends, mem⟩
      exact ⟨fired, behind, before⟩
    · rintro ⟨fired, behind, before⟩
      obtain ⟨ends, mem⟩ := fires.mp ⟨fired, behind⟩
      exact ⟨mem, before, ends⟩

/-- **A plan loses no instant**: the next one is the least behind the present, and the passed ones
are counted, up to the limit of the count. -/
theorem plan_exact (valid : definition.Valid tables) {occurrence now : Int}
    (reaches : definition.Reaches tables occurrence now) :
    ∃ plan, planOccurrence tables definition occurrence now = .ok plan ∧
      IsNext {time | definition.Fires tables time ∧ now < time} plan.nextRunAt ∧
      (definition.kind = .once → plan.missed = 0) ∧
      (definition.kind = .cron → plan.missed = min 1000
        {time | definition.Fires tables time ∧ occurrence < time ∧ time ≤ now}.ncard) ∧
      (plan.exhausted = true ↔ definition.kind = .once ∨
        ∀ time, definition.Fires tables time → time ≤ now) := by
  obtain ⟨next, following, isNext⟩ := nextFromDefinition_isNext valid reaches
  obtain ⟨missed, counted, once, cron⟩ := countMissed_eq valid reaches
  refine ⟨_, by simp only [planOccurrence, following, counted, ok_bind]; rfl, isNext, once, cron,
    ?_⟩
  rw [Bool.or_eq_true_iff, decide_eq_true_eq]
  refine or_congr_right ?_
  cases next with
  | none =>
    refine iff_of_true rfl fun time fired => not_lt.mp fun behind => ?_
    exact (Set.eq_empty_iff_forall_notMem.mp isNext) time ⟨fired, behind⟩
  | some time =>
    obtain ⟨⟨fired, behind⟩, -⟩ := isNext
    refine iff_of_false ?_ fun all => absurd (all time fired) (not_le_of_gt behind)
    rw [Option.all_some, fired.1]
    exact Bool.false_ne_true

/-! ## A rule for every minute -/

def everyMinute : CronExpression :=
  expressionOf [['*'], ['*'], ['*'], ['*'], ['*']]
    [Finset.range 60, Finset.range 24, Finset.Icc 1 31, Finset.Icc 1 12, Finset.range 8]

theorem everyMinute_parsed : parseCron asciiDigits "* * * * *".toList = .ok everyMinute := by
  decide +kernel

def minuteRules : TimeRules := ⟨.cron, .fixed 0, some "* * * * *".toList, none, none, none⟩

theorem minuteRules_valid : minuteRules.Valid asciiDigits where
  parsed _ := ⟨everyMinute, everyMinute_parsed⟩
  runs := nofun

theorem minute_occurs {time : Int} (mem : time ∈ [(60 : Int), 120, 180]) :
    Occurs everyMinute (.fixed 0) time := by
  have matching : MatchesWall everyMinute time := by
    rcases List.mem_cons.mp mem with rfl | mem
    · exact ⟨by decide, by decide, by decide, by decide⟩
    rcases List.mem_cons.mp mem with rfl | mem
    · exact ⟨by decide, by decide, by decide, by decide⟩
    rw [List.mem_singleton.mp mem]
    exact ⟨by decide, by decide, by decide, by decide⟩
  have wall (other : Int) : (TimeZone.fixed 0).wall other = other := Int.add_zero other
  refine ⟨matching.whole, (wall time).symm ▸ matching, fun other same => ?_⟩
  rw [wall, wall] at same
  exact same.ge

theorem minute_unblurred (start : Int) : Unblurred everyMinute (.fixed 0) start :=
  unblurred_of_whole fun _ => rfl

theorem minute_found {start : Int} (time : Int) (mem : time ∈ [(60 : Int), 120, 180])
    (next : start < time) (near : time ≤ start + 60) : Found everyMinute (.fixed 0) start := by
  refine (found_iff (TimeZone.fixed_ordered 0)).mpr fun first least => ?_
  have early := least.2 ⟨minute_occurs mem, next⟩
  simp only [dayOf, TimeZone.wall, TimeZone.fixed, maxSearchDays]
  omega

/-- The minute that has passed since the claimed one is counted. -/
theorem plan_exact_minutes : ∃ plan, planOccurrence asciiDigits minuteRules 60 120 = .ok plan ∧
    plan.missed = min 1000
      {time | minuteRules.Fires asciiDigits time ∧ 60 < time ∧ time ≤ 120}.ncard := by
  have reaches : minuteRules.Reaches asciiDigits 60 120 := by
    intro expression _ parsed
    obtain rfl := Except.ok.inj (everyMinute_parsed.symm.trans parsed)
    refine ⟨.inl ⟨minute_unblurred 60, minute_found 120 (by decide) (by decide) (by decide)⟩,
      .inl ⟨minute_unblurred 120, minute_found 180 (by decide) (by decide) (by decide)⟩,
      fun time mem before => ?_⟩
    have whole := mem.1.whole
    have behind := mem.2
    obtain rfl : time = 120 := by omega
    exact .inl ⟨minute_unblurred 120, minute_found 180 (by decide) (by decide) (by decide)⟩
  obtain ⟨plan, made, -, -, counted, -⟩ := plan_exact minuteRules_valid reaches
  exact ⟨plan, made, counted rfl⟩

/-! ## The claim that meets a planned instant -/

theorem maxSearchDays_long : 4 ≤ maxSearchDays := by
  unfold maxSearchDays
  omega

/-- **A planned instant passes the test of its claim**: the search from a minute before finds it
again. -/
theorem planned_claimable (valid : definition.Valid tables) (ordered : definition.timezone.Ordered)
    (bounded : ∀ time, |definition.timezone.offset time| < 86400)
    {after time : Int} (sharp : definition.Sharp tables after)
    (sharp' : definition.Sharp tables (time - 60))
    (planned : nextFromDefinition tables definition after = .ok (some time)) :
    after < time ∧ definition.Fires tables time ∧
      nextFromDefinition tables definition (time - 60) = .ok (some time) := by
  cases kind : definition.kind with
  | once =>
    rw [nextFromDefinition_once kind] at planned ⊢
    obtain ⟨run, comes⟩ := Option.filter_eq_some_iff.mp (Except.ok.inj planned)
    obtain ⟨behind, ends⟩ := Bool.and_eq_true_iff.mp comes
    refine ⟨of_decide_eq_true behind, ?_, ?_⟩
    · rw [TimeRules.Fires, kind]
      exact ⟨ends, run⟩
    · rw [run, Option.filter_some, ends, Bool.and_true, if_pos (decide_eq_true (by omega))]
  | cron =>
    obtain ⟨expression, parsed⟩ := valid.parsed kind
    have timed := parseCron_timed parsed
    rw [nextFromDefinition_cron valid.runs kind parsed] at planned ⊢
    obtain ⟨found, ends⟩ := Option.filter_eq_some_iff.mp (Except.ok.inj planned)
    obtain ⟨occurs, behind⟩ :=
      ((nextOccurrence_eq_some timed (sharp expression kind parsed)).mp found).1
    have least : IsLeast (later expression definition.timezone (time - 60)) time := by
      refine ⟨⟨occurs, by omega⟩, fun other mem => ?_⟩
      have whole := occurs.whole
      have whole' := mem.1.whole
      have above := mem.2
      omega
    have near : Found expression definition.timezone (time - 60) := by
      refine (found_iff ordered).mpr fun first isLeast => ?_
      obtain rfl := isLeast.unique least
      have here := abs_lt.mp (bounded first)
      have before := abs_lt.mp (bounded (first - 60))
      have long := maxSearchDays_long
      simp only [dayOf, TimeZone.wall]
      omega
    have again := ((nextExact_iff timed (sharp' expression kind parsed)).mpr near).1 time
    refine ⟨behind, (fires_cron kind parsed).mpr ⟨ends, occurs⟩, ?_⟩
    rw [again.mpr least, Option.filter_some, if_pos ends]

/-- The second minute is planned behind the first one, and found again. -/
theorem planned_claimable_minutes :
    nextFromDefinition asciiDigits minuteRules 60 = .ok (some 120) := by
  have near : Found everyMinute (.fixed 0) 90 :=
    minute_found 120 (by decide) (by decide) (by decide)
  have least : IsLeast (later everyMinute (.fixed 0) 90) 120 := by
    refine ⟨⟨minute_occurs (by decide), by decide⟩, fun other mem => ?_⟩
    have whole := mem.1.whole
    have behind := mem.2
    omega
  have exact := (nextExact_iff (parseCron_timed everyMinute_parsed) (minute_unblurred 90)).mpr near
  have planned : nextFromDefinition asciiDigits minuteRules 90 = .ok (some 120) := by
    rw [nextFromDefinition_cron minuteRules_valid.runs rfl everyMinute_parsed]
    exact congrArg (fun next => Except.ok (next.filter minuteRules.ends)) ((exact.1 120).mpr least)
  have sharp (start : Int) : minuteRules.Sharp asciiDigits start := by
    intro expression _ parsed
    obtain rfl := Except.ok.inj (everyMinute_parsed.symm.trans parsed)
    exact minute_unblurred start
  exact (planned_claimable minuteRules_valid (TimeZone.fixed_ordered 0)
    (fun _ => (by decide : |(0 : Int)| < 86400)) (sharp 90) (sharp (120 - 60)) planned).2.2

end SkillMind.Schedules
