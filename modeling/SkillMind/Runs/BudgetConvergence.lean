import SkillMind.Library.Watermark
import SkillMind.Runs.BudgetReceipts

/-!
# Cumulative reports in any order

The reports of one cumulative counter form a series. A dimension of the row is a meter: its
watermark and its consumption. An accepted report moves the meter to the join with its reading, a
report of the series is never refused, and a repeated one changes nothing. So however the reports
are delivered, the row and the account end at the values of the largest watermark.
-/

namespace SkillMind.Runs

open Library

/-- The reading of a dimension: the watermark of the report and the value it counts. -/
def UsagePayload.reading (report : UsagePayload) (d : Dimension) : Option (Int × Int) :=
  report.watermark.bind fun watermark => (report.value d).map fun value => (watermark, value)

/-- Where a row stands in a dimension. -/
def RunBudgetReservation.meter (row : RunBudgetReservation) (d : Dimension) : Int × Int :=
  (row.watermark d, (row.held d).consumed)

def readings (reports : List BudgetUsageReport) (d : Dimension) : List (Int × Int) :=
  reports.filterMap fun report => report.reading d

theorem mem_readings {reports : List BudgetUsageReport} {d : Dimension} {reading : Int × Int} :
    reading ∈ readings reports d ↔
      ∃ report ∈ reports, report.watermark = some reading.1 ∧ report.value d = some reading.2 := by
  obtain ⟨watermark, value⟩ := reading
  simp only [readings, List.mem_filterMap, UsagePayload.reading, Option.bind_eq_some_iff,
    Option.map_eq_some_iff, Prod.mk.injEq]
  constructor
  · rintro ⟨report, mem, w, hasMark, v, hasValue, rfl, rfl⟩
    exact ⟨report, mem, hasMark, hasValue⟩
  · rintro ⟨report, mem, hasMark, hasValue⟩
    exact ⟨report, mem, watermark, hasMark, value, hasValue, rfl, rfl⟩

def freshMeter : Int × Int := (-1, 0)

/-- The reports of one cumulative counter: reports of the metering identity of the policy under
keys of their own, whose readings never fall as the watermark grows, with the final reports at
the largest watermark. -/
structure CumulativeSeries (policy : BudgetPolicy) (reports : List BudgetUsageReport) : Prop where
  cumulative : policy.mode = .cumulative
  identity : ∀ report ∈ reports, report.source = policy.source ∧
    report.meteringVersion = policy.meteringVersion ∧ report.mode = policy.mode
  keys : ∀ report ∈ reports, ∀ other ∈ reports, report.reportKey = other.reportKey →
    report = other
  monotone : ∀ d, Series {reading | reading ∈ readings reports d}
  final : ∀ last ∈ reports, last.final = true → ∀ other ∈ reports,
    ∀ watermark ∈ last.watermark, ∀ earlier ∈ other.watermark, earlier ≤ watermark

theorem CumulativeSeries.extended {policy : BudgetPolicy} {reports : List BudgetUsageReport}
    (series : CumulativeSeries policy reports) (d : Dimension) :
    Series (insert freshMeter {reading | reading ∈ readings reports d}) := by
  refine (series.monotone d).insert fun reading mem => ?_
  obtain ⟨report, isReport, mark, value⟩ := mem_readings.mp mem
  have mark_nonneg := (report.watermark_units reading.1 mark).1
  simp only [Bool.false_eq_true, if_false] at mark_nonneg
  have value_nonneg := report.value_nonneg value
  refine ⟨?_, value_nonneg⟩
  show (-1 : Int) < reading.1
  omega

/-- The delta of a cumulative value. -/
def growth (row : RunBudgetReservation) (d : Dimension) (value : Int) : Int :=
  max 0 (value - (row.held d).consumed)

/-- The deltas of a valid report. -/
def growths (report : UsagePayload) (row : RunBudgetReservation) (dimensions : List Dimension) :
    List (Dimension × Int) :=
  dimensions.filterMap fun d => (report.value d).map fun value => (d, growth row d value)

variable {report : UsagePayload} {row : RunBudgetReservation}

theorem mem_growths
    {dimensions : List Dimension} {delta : Dimension × Int} :
    delta ∈ growths report row dimensions ↔
      delta.1 ∈ dimensions ∧ ∃ value, report.value delta.1 = some value ∧
        delta.2 = growth row delta.1 value := by
  obtain ⟨d, amount⟩ := delta
  simp only [growths, List.mem_filterMap, Option.map_eq_some_iff, Prod.mk.injEq]
  constructor
  · rintro ⟨e, mem, value, has, rfl, rfl⟩
    exact ⟨mem, value, has, rfl⟩
  · rintro ⟨mem, value, has, rfl⟩
    exact ⟨d, mem, value, has, rfl, rfl⟩

theorem usageDeltas_of_series
    {watermark : Int} (cumulative : report.mode = .cumulative)
    (mark : report.watermark = some watermark) {dimensions : List Dimension}
    (columns : ∀ d ∈ dimensions, (row.hold d).isSome = true)
    (fits : ∀ d ∈ dimensions, ∀ value ∈ report.value d,
      ¬ Contradicts (row.meter d) (watermark, value) ∧
        ¬ (report.final = true ∧ watermark < row.watermark d)) :
    usageDeltas report row none dimensions = .ok (none, growths report row dimensions) := by
  unfold growths
  induction dimensions with
  | nil => rfl
  | cons d rest ih =>
    have later := ih (fun e mem => columns e (List.mem_cons_of_mem d mem))
      (fun e mem => fits e (List.mem_cons_of_mem d mem))
    obtain ⟨hold, hasHold⟩ := Option.isSome_iff_exists.mp (columns d List.mem_cons_self)
    cases has : report.value d with
    | none =>
      simp only [usageDeltas, has, later]
      rw [List.filterMap_cons_none (by rw [has]; rfl)]
    | some value =>
      obtain ⟨agrees, current⟩ := fits d List.mem_cons_self value has
      have agrees : ¬ ((row.watermark d ≤ watermark ∧ value < hold.consumed) ∨
          (watermark ≤ row.watermark d ∧ hold.consumed < value)) := by
        simpa only [Contradicts, RunBudgetReservation.meter, held_of_hold hasHold] using agrees
      have one : usageDelta report row d value = .ok (none, growth row d value) := by
        simp only [usageDelta, hasHold, orFault, ok_bind, cumulative, mark, if_neg agrees,
          if_neg current, growth, held_of_hold hasHold]
        rfl
      simp only [usageDeltas, has, one, ok_bind, Option.none_or, later]
      rw [List.filterMap_cons_some (by rw [has]; rfl)]
      rfl

theorem deltaIn_growths
    {dimensions : List Dimension} {d : Dimension} :
    deltaIn (growths report row dimensions) d =
      if d ∈ dimensions then (report.value d).map (growth row d) else none := by
  cases counted : deltaIn (growths report row dimensions) d with
  | some amount =>
    obtain ⟨mem, value, has, grown⟩ := mem_growths.mp (deltaIn_mem counted)
    simp only at mem has grown
    rw [if_pos mem, has, Option.map_some, grown]
  | none =>
    have absent := deltaIn_eq_none.mp counted
    split
    · rename_i mem
      cases has : report.value d with
      | none => rfl
      | some value =>
        exact absurd (List.mem_map_of_mem (mem_growths.mpr
          (⟨mem, value, has, rfl⟩ : (d, growth row d value).1 ∈ dimensions ∧ _))) absent
    · rfl

theorem drawn_meter {row' : RunBudgetReservation} {d : Dimension}
    {watermark : Int} (mark : report.watermark = some watermark)
    (consumed : (row'.held d).consumed =
      (drawnBy (row.held d) ((report.value d).map (growth row d))).consumed)
    (raised : row'.watermark d =
      raisedBy (row.watermark d) report ((report.value d).map (growth row d))) :
    row'.meter d = absorbAll (row.meter d) (report.reading d).toList := by
  simp only [RunBudgetReservation.meter, consumed, raised, UsagePayload.reading, mark,
    Option.bind_some]
  cases report.value d with
  | none => rfl
  | some value =>
    have grown : (row.held d).consumed + growth row d value =
        max (row.held d).consumed value := by
      unfold growth
      omega
    simp [drawnBy, raisedBy, mark, grown]

theorem enterReport_spec {now : Timestamp} {account account' : RunBudgetAccount}
    {row' : RunBudgetReservation} {deltas : List (Dimension × Int)}
    {disposition : Disposition} (distinct : (deltas.map Prod.fst).Nodup)
    (entered : enterReport now account row report deltas = .ok (account', row', disposition)) :
    (∀ d, (row'.held d).consumed = (drawnBy (row.held d) (deltaIn deltas d)).consumed) ∧
      (∀ d, row'.watermark d = raisedBy (row.watermark d) report (deltaIn deltas d)) ∧
      row'.stopConfirmedAt = row.stopConfirmedAt ∧
      (row'.finalUsageAt ≠ none ↔ row.finalUsageAt ≠ none ∨
        (report.final = true ∧ ∀ d ∈ account.policy.dimensions, report.value d ≠ none)) ∧
      ((∀ d ∈ deltas.map Prod.fst,
          (drawnBy (row.held d) (deltaIn deltas d)).consumed ≤ (row.held d).granted) →
        (row.finalUsageAt ≠ none → ∀ delta ∈ deltas, delta.2 = 0) →
        account'.blockCode = account.blockCode) := by
  obtain ⟨entry, reported, spec, mark, final, settled, -⟩ := enterReport_parts distinct entered
  have held : ∀ d, reported.held d = entry.row.held d := fun d => by
    simp only [RunBudgetReservation.held, mark.hold]
  have stop : reported.stopConfirmedAt = row.stopConfirmedAt :=
    mark.stopConfirmedAt.trans (core_fields spec.row_core).2.2.2.2.2.2.1
  have unblocked : (∀ d ∈ deltas.map Prod.fst,
        (drawnBy (row.held d) (deltaIn deltas d)).consumed ≤ (row.held d).granted) →
      (row.finalUsageAt ≠ none → ∀ delta ∈ deltas, delta.2 = 0) →
      (if entry.overspent then entry.account.block .budgetOverspent
        else entry.account).blockCode = account.blockCode := by
    intro within quiet
    have calm : entry.overspent = false := by
      by_contra ended
      rcases spec.overspent.mp (by simpa using ended) with before | ⟨d, counted, beyond⟩
      · cases before
      · have grant : (entry.row.held d).granted = (row.held d).granted := by
          rw [spec.held]
          cases deltaIn deltas d <;> rfl
        rw [grant, spec.held] at beyond
        exact absurd (within d counted) (not_le.mpr beyond)
    have early : ¬ (row.finalUsageAt ≠ none ∧ ∃ delta ∈ deltas, delta.2 ≠ 0) := by
      rintro ⟨reportedBefore, delta, mem, moved⟩
      exact moved (quiet reportedBefore delta mem)
    rw [calm, if_neg Bool.false_ne_true, spec.blockCode, if_neg early]
  rcases settleIfConfirmed_spec settled with
    ⟨stopped, isFinal, released, release, rfl⟩ | ⟨-, rfl, rfl⟩
  · obtain ⟨-, -, -, -, -, -, releasedStop, releasedFinal⟩ := core_fields release.row_core
    refine ⟨fun d => ?_, fun d => ?_, releasedStop.trans stop, ?_, fun within quiet => ?_⟩
    · have kept : (({ released with status := .settled } : RunBudgetReservation).held d) =
          (reported.held d).release := release.held d
      rw [kept, held, spec.held]
      rfl
    · exact (release.watermark d).trans ((mark.watermark d).trans (spec.watermark d))
    · rw [← final]
      exact iff_of_true (fun none => isFinal (releasedFinal.symm.trans none)) isFinal
    · rw [release.blockCode]
      exact unblocked within quiet
  · refine ⟨fun d => ?_, fun d => ?_, stop, final, unblocked⟩
    · rw [held, spec.held]
    · exact (mark.watermark d).trans (spec.watermark d)

/-! ## Deliveries -/

section Store

variable {digests : Digests}

/-- A delivery of a report of the series, or a renewal of the lease it is delivered under. -/
def Delivers (reports : List BudgetUsageReport) (row : RunBudgetReservation)
    (operation : BudgetOperation) : Prop :=
  (∃ claim, ∃ report ∈ reports, claim.reservationId = row.id ∧
      operation = .recordUsage claim report) ∨
    ∃ projectId runId key workerId token seconds,
      operation = .claimReconciliation projectId runId key workerId token seconds

def ReportsFinally (policy : BudgetPolicy) (reports : List BudgetUsageReport) : Prop :=
  ∃ report ∈ reports, report.final = true ∧ ∀ d ∈ policy.dimensions, report.value d ≠ none

instance (policy : BudgetPolicy) (reports : List BudgetUsageReport) :
    Decidable (ReportsFinally policy reports) :=
  inferInstanceAs (Decidable (∃ report ∈ reports, report.final = true ∧ _))

/-- The state of the ledger after some reports of the series were delivered to a row that had
seen none of them. -/
structure Tracked (digests : Digests) (start : RunBudgetAccount) (fresh : RunBudgetReservation)
    (reports delivered : List BudgetUsageReport) (ledger : Ledger) (account : RunBudgetAccount)
    (row : RunBudgetReservation) : Prop where
  sound : LedgerSound ledger account
  receipts : ReceiptsSound digests ledger
  mem : row ∈ ledger.reservations
  id : row.id = fresh.id
  policy : account.policy = start.policy
  started : row.startIntentAt ≠ none
  stop : row.stopConfirmedAt = fresh.stopConfirmedAt
  subset : ∀ report ∈ delivered, report ∈ reports
  meter : ∀ d, start.policy.enabled d = true →
    row.meter d = absorbAll freshMeter (readings delivered d)
  disabled : ∀ d, start.policy.enabled d = false → (row.held d).consumed = 0
  final : row.finalUsageAt ≠ none ↔ ReportsFinally start.policy delivered
  granted : ∀ d, (row.held d).granted = (fresh.held d).granted
  consumed_mirrored : ∀ d, (account.pooled d).consumed - (start.pooled d).consumed =
    (row.held d).consumed - (fresh.held d).consumed
  reserved_mirrored : ∀ d, (account.pooled d).reserved - (start.pooled d).reserved =
    (row.held d).reserved - (fresh.held d).reserved
  stored : ∀ report ∈ delivered, ∃ receipt, receiptOf ledger row report.reportKey = some receipt ∧
    receipt.payloadChecksum =
      digests.budgetChecksum (.receipt .usage (.usage report.toUsagePayload))
  unknown : ∀ report ∈ reports, report ∉ delivered →
    receiptOf ledger row report.reportKey = none
  block : (∀ d, ∀ reading ∈ readings reports d, start.policy.enabled d = true →
    reading.2 ≤ (fresh.held d).granted) → account.blockCode = start.blockCode

theorem mem_dimensions {policy : BudgetPolicy} {d : Dimension} :
    d ∈ policy.dimensions ↔ policy.enabled d = true := by
  unfold BudgetPolicy.dimensions
  cases d <;> cases has : policy.maxCostNanos <;> simp [BudgetPolicy.enabled, has]

theorem readings_append (delivered : List BudgetUsageReport) (report : BudgetUsageReport)
    (d : Dimension) :
    readings (delivered ++ [report]) d = readings delivered d ++ (report.reading d).toList := by
  simp only [readings, List.filterMap_append, List.filterMap_cons, List.filterMap_nil]
  cases report.reading d <;> rfl

theorem receiptOf_append {ledger ledger' : Ledger} {row row' : RunBudgetReservation}
    {receipt : RunBudgetReceipt} (id : row'.id = row.id)
    (appended : ledger'.receipts = ledger.receipts ++ [receipt]) (key : String) :
    receiptOf ledger' row' key = (receiptOf ledger row key).or
      (if receipt.reservationId = row.id ∧ receipt.receiptKey = key then some receipt
        else none) := by
  unfold receiptOf
  rw [appended, List.find?_append, id]
  congr 1
  by_cases same : receipt.reservationId = row.id ∧ receipt.receiptKey = key
  · simp [same]
  · rw [if_neg same, List.find?_cons_of_neg (by simpa using same)]
    rfl

namespace Tracked

variable {start account account' : RunBudgetAccount} {fresh row : RunBudgetReservation}
  {reports delivered : List BudgetUsageReport} {ledger ledger' : Ledger}

theorem meter_mem (tracked : Tracked digests start fresh reports delivered ledger account row)
    (series : CumulativeSeries start.policy reports) {d : Dimension}
    (enabled : start.policy.enabled d = true) :
    row.meter d ∈ insert freshMeter {reading | reading ∈ readings reports d} := by
  rw [tracked.meter d enabled]
  refine (series.extended d).absorbAll_mem (Set.mem_insert _ _) fun reading mem => ?_
  obtain ⟨report, isDelivered, mark, value⟩ := mem_readings.mp mem
  exact Set.mem_insert_of_mem _
    (mem_readings.mpr ⟨report, tracked.subset report isDelivered, mark, value⟩)

theorem again (tracked : Tracked digests start fresh reports delivered ledger account row)
    {report : BudgetUsageReport} (known : report ∈ delivered) :
    Tracked digests start fresh reports (delivered ++ [report]) ledger account row := by
  have same : ∀ other, other ∈ delivered ++ [report] ↔ other ∈ delivered := by
    intro other
    rw [List.mem_append, List.mem_singleton]
    exact or_iff_left_of_imp fun eq => eq ▸ known
  refine { tracked with
    subset := fun other mem => tracked.subset other ((same other).mp mem)
    meter := fun d enabled => ?_
    final := ?_
    stored := fun other mem => tracked.stored other ((same other).mp mem)
    unknown := fun other mem absent =>
      tracked.unknown other mem fun isDelivered => absent ((same other).mpr isDelivered) }
  · rw [tracked.meter d enabled]
    refine absorbAll_congr fun reading => ?_
    simp only [mem_readings, same]
  · rw [tracked.final]
    simp only [ReportsFinally, same]

variable {report : BudgetUsageReport}

theorem fits (tracked : Tracked digests start fresh reports delivered ledger account row)
    (series : CumulativeSeries start.policy reports)
    (isReport : report ∈ reports) {watermark : Int} (mark : report.watermark = some watermark)
    {d : Dimension} (enabled : start.policy.enabled d = true) {value : Int}
    (has : report.value d = some value) :
    ¬ Contradicts (row.meter d) (watermark, value) ∧
      ¬ (report.final = true ∧ watermark < row.watermark d) := by
  have reading : (watermark, value) ∈ readings reports d :=
    mem_readings.mpr ⟨report, isReport, mark, has⟩
  have stands := tracked.meter_mem series enabled
  refine ⟨(series.extended d).not_contradicts stands (Set.mem_insert_of_mem _ reading), ?_⟩
  rintro ⟨isFinal, stale⟩
  rcases stands with base | earlier
  · have position : row.watermark d = -1 := congrArg Prod.fst base
    have mark_nonneg := (report.watermark_units watermark mark).1
    simp only [Bool.false_eq_true, if_false] at mark_nonneg
    omega
  · obtain ⟨other, isOther, otherMark, -⟩ := mem_readings.mp earlier
    have bound := series.final report isReport isFinal other isOther watermark mark _ otherMark
    exact absurd stale (not_lt.mpr bound)

theorem settled_growth (tracked : Tracked digests start fresh reports delivered ledger account row)
    (series : CumulativeSeries start.policy reports)
    (isReport : report ∈ reports) {watermark : Int} (mark : report.watermark = some watermark)
    (reported : row.finalUsageAt ≠ none) {d : Dimension}
    (enabled : start.policy.enabled d = true) {value : Int} (has : report.value d = some value) :
    growth row d value = 0 := by
  obtain ⟨last, isLast, isFinal, complete⟩ := tracked.final.mp reported
  obtain ⟨top, hasTop⟩ := Option.ne_none_iff_exists'.mp (complete d (mem_dimensions.mpr enabled))
  obtain ⟨lastMark, hasMark⟩ : ∃ w, last.watermark = some w :=
    Option.ne_none_iff_exists'.mp (last.watermark_mode.mp
      ((series.identity last (tracked.subset last isLast)).2.2.trans series.cumulative))
  have order := series.final last (tracked.subset last isLast) isFinal report isReport lastMark
    hasMark watermark mark
  have below : value ≤ top := series.monotone d (watermark, value)
    (mem_readings.mpr ⟨report, isReport, mark, has⟩) (lastMark, top)
    (mem_readings.mpr ⟨last, tracked.subset last isLast, hasMark, hasTop⟩) order
  have reached : (lastMark, top) ≤ row.meter d := by
    rw [tracked.meter d enabled]
    exact le_absorbAll (mem_readings.mpr ⟨last, isLast, hasMark, hasTop⟩)
  have counted : top ≤ (row.held d).consumed := reached.2
  unfold growth
  omega

theorem accept {now : Timestamp} {claim : BudgetReconciliationClaim}
    {row' : RunBudgetReservation} {disposition : Disposition} {watermark : Int}
    (tracked : Tracked digests start fresh reports delivered ledger account row)
    (series : CumulativeSeries start.policy reports) (isReport : report ∈ reports)
    (mark : report.watermark = some watermark)
    (unknown : receiptOf ledger row report.reportKey = none)
    (valid : usageDeltas report.toUsagePayload row none account.policy.dimensions =
      .ok (none, growths report.toUsagePayload row account.policy.dimensions))
    (entered : enterReport now account row report.toUsagePayload
      (growths report.toUsagePayload row account.policy.dimensions) =
        .ok (account', row', disposition)) :
    Tracked digests start fresh reports (delivered ++ [report])
      (recordReceipt digests account' row' claim report.reportKey .usage
        (.usage report.toUsagePayload) disposition ledger).2 account'.touch row' := by
  have rowSound := tracked.sound.rows row tracked.mem
  obtain ⟨distinct, nonneg, -⟩ := usageDeltas_spec (dimensions_nodup _) valid
  have change := enterReport_change rowSound tracked.started distinct nonneg entered
  obtain ⟨consumed, raised, stop, final, block⟩ := enterReport_spec distinct entered
  have policy : account'.policy = account.policy := policy_of_core change.account_core
  have counts : ∀ d, start.policy.enabled d = true →
      deltaIn (growths report.toUsagePayload row account.policy.dimensions) d =
        (report.value d).map (growth row d) := by
    intro d enabled
    rw [deltaIn_growths, if_pos (mem_dimensions.mpr (tracked.policy ▸ enabled))]
  have moved : ∀ d, start.policy.enabled d = true →
      row'.meter d = absorbAll freshMeter (readings (delivered ++ [report]) d) := by
    intro d enabled
    have joined : row'.meter d = absorbAll (row.meter d) (report.reading d).toList :=
      drawn_meter mark (counts d enabled ▸ consumed d) (counts d enabled ▸ raised d)
    rw [joined, tracked.meter d enabled, readings_append, absorbAll_append]
  have subset : ∀ other ∈ delivered ++ [report], other ∈ reports := by
    intro other mem
    rcases List.mem_append.mp mem with old | new
    · exact tracked.subset other old
    · exact List.mem_singleton.mp new ▸ isReport
  refine ⟨change.touch.sound_ledger tracked.sound tracked.mem rfl rfl,
    (recordReceipt_receipted unknown change.id).sound tracked.receipts,
    mem_replaceRow_self tracked.mem change.id.symm, change.id.trans tracked.id,
    policy.trans tracked.policy, change.started_stays tracked.started, stop.trans tracked.stop,
    subset, moved, ?_, ?_, fun d => (change.granted d).trans (tracked.granted d), ?_, ?_, ?_, ?_,
    ?_⟩
  · intro d off
    have absent :
        deltaIn (growths report.toUsagePayload row account.policy.dimensions) d = none := by
      rw [deltaIn_growths, if_neg]
      rw [mem_dimensions, tracked.policy, off]
      simp
    rw [consumed, absent]
    exact tracked.disabled d off
  · rw [final, tracked.final, tracked.policy]
    simp only [ReportsFinally, List.mem_append, List.mem_singleton, or_and_right, exists_or,
      exists_eq_left]
  · intro d
    have step := change.touch.consumed_mirrored d
    have before := tracked.consumed_mirrored d
    omega
  · intro d
    have step := change.touch.reserved_mirrored d
    have before := tracked.reserved_mirrored d
    omega
  · intro other mem
    rcases List.mem_append.mp mem with old | new
    · obtain ⟨receipt, stored, checksum⟩ := tracked.stored other old
      refine ⟨receipt, ?_, checksum⟩
      rw [receiptOf_append change.id rfl, stored, Option.some_or]
    · obtain rfl := List.mem_singleton.mp new
      refine ⟨⟨row'.id, other.reportKey, .usage, .usage other.toUsagePayload,
        digests.budgetChecksum (.receipt .usage (.usage other.toUsagePayload)), claim.workerId,
        disposition⟩, ?_, rfl⟩
      rw [receiptOf_append change.id rfl, unknown, Option.none_or, if_pos ⟨change.id, rfl⟩]
  · intro other mem absent
    have notReport : other ≠ report := by
      rintro rfl
      exact absent (List.mem_append_right _ (List.mem_singleton.mpr rfl))
    have before := tracked.unknown other mem fun old => absent (List.mem_append_left _ old)
    rw [receiptOf_append change.id rfl, before, Option.none_or, if_neg]
    rintro ⟨-, sameKey⟩
    exact notReport (series.keys report isReport other mem sameKey).symm
  · intro within
    rw [blockCode_touch, block ?_ ?_]
    · exact tracked.block within
    · intro d counted
      obtain ⟨⟨e, amount⟩, mem, rfl⟩ := List.mem_map.mp counted
      have enabled : start.policy.enabled e = true :=
        tracked.policy ▸ mem_dimensions.mp (mem_growths.mp mem).1
      rw [← consumed]
      have stands : row'.meter e ∈ insert freshMeter {reading | reading ∈ readings reports e} := by
        rw [moved e enabled]
        refine (series.extended e).absorbAll_mem (Set.mem_insert _ _) fun reading arrived => ?_
        obtain ⟨other, isOther, hasMark, value⟩ := mem_readings.mp arrived
        exact Set.mem_insert_of_mem _
          (mem_readings.mpr ⟨other, subset other isOther, hasMark, value⟩)
      rcases stands with base | reading
      · have zero : (row'.held e).consumed = 0 := congrArg Prod.snd base
        obtain ⟨reserved, bounded, -⟩ := rowSound.sound e
        exact zero.trans_le (reserved.trans bounded)
      · exact (within e _ reading enabled).trans_eq (tracked.granted e).symm
    · intro reported delta mem
      obtain ⟨isDimension, value, has, amount⟩ := mem_growths.mp mem
      rw [amount]
      exact tracked.settled_growth series isReport mark reported
        (tracked.policy ▸ mem_dimensions.mp isDimension) has

theorem deliver {now : Timestamp} {claim : BudgetReconciliationClaim}
    (tracked : Tracked digests start fresh reports delivered ledger account row)
    (series : CumulativeSeries start.policy reports) (isReport : report ∈ reports)
    (outcome : UsageOutcome digests now claim report account row ledger ledger') :
    ∃ account' row', Tracked digests start fresh reports (delivered ++ [report]) ledger' account'
      row' := by
  have rowSound := tracked.sound.rows row tracked.mem
  by_cases known : report ∈ delivered
  · obtain ⟨receipt, stored, checksum⟩ := tracked.stored report known
    cases outcome with
    | invalid unknown => exact absurd (unknown.symm.trans stored) (by simp)
    | accepted unknown => exact absurd (unknown.symm.trans stored) (by simp)
    | replayed replayed =>
      have same := ((replay_stored tracked.sound.ids tracked.mem stored replayed).1 checksum).1
      exact ⟨account, row, same ▸ tracked.again known⟩
  · have unknown := tracked.unknown report isReport known
    obtain ⟨source, version, mode⟩ := series.identity report isReport
    have cumulative := mode.trans series.cumulative
    obtain ⟨watermark, mark⟩ : ∃ w, report.watermark = some w :=
      Option.ne_none_iff_exists'.mp (report.watermark_mode.mp cumulative)
    have matched : reportMismatch account.policy row report.toUsagePayload = none := by
      have notFresh : ¬ (row.status = .reserved ∨ row.status = .released) :=
        mt rowSound.started.mpr tracked.started
      simp [reportMismatch, notFresh, tracked.policy, source, version, mode]
    have valid : usageDeltas report.toUsagePayload row none account.policy.dimensions =
        .ok (none, growths report.toUsagePayload row account.policy.dimensions) := by
      refine usageDeltas_of_series cumulative mark (fun d mem => ?_) fun d mem value has => ?_
      · exact (tracked.sound.row_columns row tracked.mem d).trans (mem_dimensions.mp mem)
      · exact tracked.fits series isReport mark (tracked.policy ▸ mem_dimensions.mp mem) has
    cases outcome with
    | replayed replayed =>
      exact absurd (replayed.symm.trans (replay_eq_none.mpr unknown)) (by simp)
    | invalid _ verdict =>
      rw [matched, valid] at verdict
      cases verdict
    | accepted _ verdict entered written =>
      rw [matched, valid] at verdict
      obtain ⟨-, rfl⟩ := Prod.mk.inj (Except.ok.inj verdict)
      rw [written]
      exact ⟨_, _, tracked.accept series isReport mark unknown valid entered⟩

theorem renew (tracked : Tracked digests start fresh reports delivered ledger account row)
    {other : RunBudgetReservation} (isOther : other ∈ ledger.reservations)
    (worker hash : Option String) (expiry : Option Timestamp) :
    ∃ row', Tracked digests start fresh reports delivered
      (ledger.save account
        { other with
          reconcileWorkerId := worker
          reconcileTokenHash := hash
          reconcileExpiresAt := expiry }) account row' := by
  have change : Change account other account
      { other with
        reconcileWorkerId := worker
        reconcileTokenHash := hash
        reconcileExpiresAt := expiry } :=
    lease_change (tracked.sound.rows other isOther) worker hash expiry
  have sound : LedgerSound (ledger.save account
      { other with
        reconcileWorkerId := worker
        reconcileTokenHash := hash
        reconcileExpiresAt := expiry }) account :=
    change.sound_ledger tracked.sound isOther rfl rfl
  have receipts : ReceiptsSound digests (ledger.save account
      { other with
        reconcileWorkerId := worker
        reconcileTokenHash := hash
        reconcileExpiresAt := expiry }) := ⟨tracked.receipts.keys, tracked.receipts.checksums⟩
  by_cases same : row.id = other.id
  · obtain rfl := tracked.sound.ids.eq_of_key tracked.mem isOther same
    have held : ∀ d, ({ row with
        reconcileWorkerId := worker
        reconcileTokenHash := hash
        reconcileExpiresAt := expiry } : RunBudgetReservation).held d = row.held d :=
      fun d => by cases d <;> rfl
    refine ⟨_, sound, receipts, mem_replaceRow_self tracked.mem rfl, tracked.id, tracked.policy,
      tracked.started, tracked.stop, tracked.subset, fun d enabled => ?_, fun d off => ?_,
      tracked.final, fun d => ?_, fun d => ?_, fun d => ?_, tracked.stored, tracked.unknown,
      tracked.block⟩
    · rw [← tracked.meter d enabled]
      cases d <;> rfl
    · rw [held]
      exact tracked.disabled d off
    · rw [held]
      exact tracked.granted d
    · rw [held]
      exact tracked.consumed_mirrored d
    · rw [held]
      exact tracked.reserved_mirrored d
  · exact ⟨row, { tracked with
      sound := sound
      receipts := receipts
      mem := mem_replaceRow_of_ne tracked.mem same
      stored := tracked.stored
      unknown := tracked.unknown }⟩

theorem run (series : CumulativeSeries start.policy reports) {calls : List BudgetCall}
    (delivers : ∀ call ∈ calls, Delivers reports fresh call.operation)
    (tracked : Tracked digests start fresh reports delivered ledger account row) :
    ∃ delivered' account' row',
      Tracked digests start fresh reports delivered' ((budgetStore digests).run ledger calls)
        account' row' ∧
      (∀ report ∈ delivered, report ∈ delivered') ∧
      ∀ entry ∈ (budgetStore digests).answers ledger calls, ∀ claim report,
        entry.1.operation = .recordUsage claim report → report ∈ delivered' := by
  induction calls generalizing delivered ledger account row with
  | nil => exact ⟨delivered, account, row, tracked, fun _ mem => mem, by
      simp [TransactionSystem.answers]⟩
  | cons call rest ih =>
    have later := fun other mem => delivers other (List.mem_cons_of_mem call mem)
    cases outcome : (budgetStore digests).exec call ledger with
    | error fault =>
      rw [TransactionSystem.run_cons, TransactionSystem.step_of_fault _ outcome,
        TransactionSystem.answers_cons_fault _ rest outcome]
      exact ih later tracked
    | ok result =>
      obtain ⟨answer, ledger'⟩ := result
      rw [TransactionSystem.run_cons, TransactionSystem.step_of_commit _ outcome,
        TransactionSystem.answers_cons_commit _ rest outcome]
      obtain ⟨tables, now, freshIds, operation⟩ := call
      rcases delivers _ List.mem_cons_self with
        ⟨claim, report, isReport, target, rfl⟩ |
          ⟨projectId, runId, key, workerId, token, seconds, rfl⟩
      · obtain ⟨_, recorded, -⟩ := answering_eq_ok.mp outcome
        obtain ⟨found, isRow, id, usage⟩ := recordUsage_spec tracked.sound recorded
        obtain rfl := tracked.sound.ids.eq_of_key isRow tracked.mem
          (id.trans (target.trans tracked.id.symm))
        obtain ⟨account', row', next⟩ := tracked.deliver series isReport usage
        obtain ⟨delivered', account'', row'', done, kept, counted⟩ := ih later next
        refine ⟨delivered', account'', row'', done,
          fun other mem => kept other (List.mem_append_left _ mem), ?_⟩
        intro entry mem claim' report' operated
        rcases List.mem_cons.mp mem with rfl | isLater
        · obtain ⟨-, rfl⟩ := BudgetOperation.recordUsage.inj operated
          exact kept _ (List.mem_append_right _ (List.mem_singleton.mpr rfl))
        · exact counted entry isLater claim' report' operated
      · obtain ⟨_, claimed, -⟩ := answering_eq_ok.mp outcome
        have next : ∃ row', Tracked digests start fresh reports delivered ledger' account
            row' := by
          rcases claimReconciliation_spec tracked.sound claimed with
            rfl | ⟨other, isOther, worker, hash, expiry, rfl⟩
          · exact ⟨row, tracked⟩
          · exact tracked.renew isOther worker hash expiry
        obtain ⟨row', next⟩ := next
        obtain ⟨delivered', account'', row'', done, kept, counted⟩ := ih later next
        refine ⟨delivered', account'', row'', done, kept, ?_⟩
        intro entry mem claim' report' operated
        rcases List.mem_cons.mp mem with rfl | isLater
        · cases operated
        · exact counted entry isLater claim' report' operated

end Tracked

/-- Where a dimension of the row ends: everything up to the largest watermark is consumed, and
the rest of the grant is held until the stop and the final usage are both known. -/
def convergedHold (policy : BudgetPolicy) (row : RunBudgetReservation)
    (reports : List BudgetUsageReport) (d : Dimension) : Hold Int :=
  let consumed := if policy.enabled d then (absorbAll freshMeter (readings reports d)).2 else 0
  ⟨(row.held d).granted,
    if row.stopConfirmedAt ≠ none ∧ ReportsFinally policy reports then 0
    else max 0 ((row.held d).granted - consumed),
    consumed⟩

/-- The account follows the row. -/
def convergedPool (policy : BudgetPolicy) (account : RunBudgetAccount)
    (row : RunBudgetReservation) (reports : List BudgetUsageReport) (d : Dimension) : Pool Int :=
  ⟨(account.pooled d).consumed +
      ((convergedHold policy row reports d).consumed - (row.held d).consumed),
    (account.pooled d).reserved +
      ((convergedHold policy row reports d).reserved - (row.held d).reserved)⟩

theorem convergedHold_consumed {policy : BudgetPolicy} {row : RunBudgetReservation}
    {reports : List BudgetUsageReport} (series : CumulativeSeries policy reports) {d : Dimension}
    (enabled : policy.enabled d = true) {top : Int × Int} (reported : top ∈ readings reports d)
    (largest : ∀ reading ∈ readings reports d, reading.1 ≤ top.1) :
    (convergedHold policy row reports d).consumed = top.2 := by
  have below : ∀ reading ∈ readings reports d, reading ≤ top := fun reading mem =>
    ⟨largest reading mem, series.monotone d reading mem top reported (largest reading mem)⟩
  have base : freshMeter ≤ top := by
    obtain ⟨report, -, mark, value⟩ := mem_readings.mp reported
    have mark_nonneg := (report.watermark_units top.1 mark).1
    simp only [Bool.false_eq_true, if_false] at mark_nonneg
    exact ⟨(by decide : (-1 : Int) ≤ 0).trans mark_nonneg, report.value_nonneg value⟩
  simp only [convergedHold, enabled, if_true, absorbAll_eq_greatest base below reported]

theorem Tracked.converged {start account : RunBudgetAccount} {fresh row : RunBudgetReservation}
    {reports delivered : List BudgetUsageReport} {ledger : Ledger}
    (tracked : Tracked digests start fresh reports delivered ledger account row)
    (complete : ∀ report ∈ reports, report ∈ delivered) (d : Dimension) :
    row.held d = convergedHold start.policy fresh reports d := by
  have same : ∀ report, report ∈ delivered ↔ report ∈ reports := fun report =>
    ⟨tracked.subset report, complete report⟩
  have consumed :
      (row.held d).consumed = (convergedHold start.policy fresh reports d).consumed := by
    cases enabled : start.policy.enabled d with
    | false =>
      rw [tracked.disabled d enabled]
      simp [convergedHold, enabled]
    | true =>
      have stands := congrArg Prod.snd (tracked.meter d enabled)
      have reached : absorbAll freshMeter (readings delivered d) =
          absorbAll freshMeter (readings reports d) :=
        absorbAll_congr fun reading => by simp only [mem_readings, same]
      rw [reached] at stands
      simp only [convergedHold, enabled, if_true]
      exact stands
  have final : row.finalUsageAt ≠ none ↔ ReportsFinally start.policy reports := by
    rw [tracked.final]
    simp only [ReportsFinally, same]
  have rowSound := tracked.sound.rows row tracked.mem
  have settled := rowSound.settled tracked.started
  rw [tracked.stop, final] at settled
  have reserved :
      (row.held d).reserved = (convergedHold start.policy fresh reports d).reserved := by
    by_cases closed : row.status = .settled
    · rw [rowSound.closed (Or.inl closed) d]
      simp only [convergedHold]
      rw [if_pos (settled.mp closed)]
    · have notReleased : row.status ≠ .released := fun released =>
        tracked.started (rowSound.started.mpr (Or.inr released))
      have tight : (row.held d).reserved = max 0 ((row.held d).granted - (row.held d).consumed) :=
        rowSound.tight (fun h => h.elim closed notReleased) d
      rw [tight, consumed, tracked.granted]
      simp only [convergedHold]
      rw [if_neg (mt settled.mpr closed)]
  calc row.held d
      = ⟨(row.held d).granted, (row.held d).reserved, (row.held d).consumed⟩ := rfl
    _ = convergedHold start.policy fresh reports d := by
        rw [tracked.granted, reserved, consumed]
        rfl

/-- **Cumulative reports are order-insensitive.**  In any reachable state, take a started
reservation that has counted nothing yet and a series of reports it has not seen.  However the
reports are delivered, in any order, with repetitions, renewed leases and refused attempts, as
long as each arrives, the row and the account end at the same values; the consumption is the
value at the largest watermark, and no block is set unless it exceeds the grant. -/
theorem usage_converges {run : Run} {policy : BudgetPolicy} {account current : RunBudgetAccount}
    {ledger : Ledger} {row : RunBudgetReservation} {reports : List BudgetUsageReport}
    (opened : newBudgetAccount digests run policy = .ok account)
    (reached : (budgetStore digests).Reachable (Ledger.opened account) ledger)
    (stored : ledger.account = some current) (mem : row ∈ ledger.reservations)
    (started : row.status = .startIntent)
    (unreported : row.finalUsageAt = none ∧ ∀ d, row.meter d = freshMeter)
    (series : CumulativeSeries current.policy reports)
    (undelivered : ∀ report ∈ reports, ∀ receipt ∈ ledger.receipts,
      receipt.reservationId = row.id → receipt.receiptKey ≠ report.reportKey) :
    (∀ d, current.policy.enabled d = true → ∀ top ∈ readings reports d,
      (∀ reading ∈ readings reports d, reading.1 ≤ top.1) →
        (convergedHold current.policy row reports d).consumed = top.2) ∧
    ∀ calls : List BudgetCall, (∀ call ∈ calls, Delivers reports row call.operation) →
      (∀ report ∈ reports, ∃ entry ∈ (budgetStore digests).answers ledger calls, ∃ claim,
        entry.1.operation = .recordUsage claim report) →
      ∃ account' row', ((budgetStore digests).run ledger calls).account = some account' ∧
        row' ∈ ((budgetStore digests).run ledger calls).reservations ∧ row'.id = row.id ∧
        (∀ d, row'.held d = convergedHold current.policy row reports d ∧
          account'.pooled d = convergedPool current.policy current row reports d) ∧
        ((∀ d, (convergedHold current.policy row reports d).consumed ≤ (row.held d).granted) →
          account'.blockCode = current.blockCode) := by
  refine ⟨fun d enabled top reported largest => convergedHold_consumed series enabled reported
    largest, fun calls delivers complete => ?_⟩
  obtain ⟨⟨found, sound, -⟩, receipts⟩ := receipts_reachable_sound opened reached
  obtain rfl : current = found := Option.some.inj (stored.symm.trans sound.stored)
  have notStarted : row.startIntentAt ≠ none := fun none => by
    rcases (sound.rows row mem).started.mp none with reserved | released
    · rw [reserved] at started
      cases started
    · rw [released] at started
      cases started
  have before : Tracked digests current row reports [] ledger current row := by
    refine ⟨sound, receipts, mem, rfl, rfl, notStarted, rfl, by simp, fun d _ => unreported.2 d,
      fun d _ => congrArg Prod.snd (unreported.2 d), ?_, fun _ => rfl,
      fun _ => by rw [sub_self, sub_self], fun _ => by rw [sub_self, sub_self], by simp,
      fun report isReport _ => ?_, fun _ => rfl⟩
    · simp [unreported.1, ReportsFinally]
    · refine List.find?_eq_none.mpr fun receipt isReceipt => ?_
      have other := undelivered report isReport receipt isReceipt
      simpa using other
  obtain ⟨delivered, account', row', tracked, -, counted⟩ := before.run series delivers
  have all : ∀ report ∈ reports, report ∈ delivered := by
    intro report isReport
    obtain ⟨entry, answered, claim, operated⟩ := complete report isReport
    exact counted entry answered claim report operated
  have held := tracked.converged all
  refine ⟨account', row', tracked.sound.stored, tracked.mem, tracked.id, fun d => ⟨held d, ?_⟩, ?_⟩
  · have consumed := tracked.consumed_mirrored d
    have reserved := tracked.reserved_mirrored d
    rw [held] at consumed reserved
    calc account'.pooled d
        = ⟨(account'.pooled d).consumed, (account'.pooled d).reserved⟩ := rfl
      _ = convergedPool current.policy current row reports d := by
          unfold convergedPool
          congr 1 <;> omega
  · intro within
    refine tracked.block fun d reading reported enabled => ?_
    have reachedBy : reading ≤ absorbAll freshMeter (readings reports d) := le_absorbAll reported
    have limit := within d
    simp only [convergedHold, enabled, if_true] at limit
    exact reachedBy.2.trans limit

end Store

def sampleRow : RunBudgetReservation where
  id := 7
  runId := 1
  runSegmentId := some 3
  runAttemptId := 4
  executionKey := "primary:4"
  groupKey := "primary:4"
  groupChecksum := sampleDigests.budgetChecksum (.startOwner "")
  requestChecksum := sampleDigests.budgetChecksum (.startOwner "")
  parentReservationId := none
  executionLeaseHash := "sha256:token"
  invocationId := some 20
  invocationJson := some sampleInvocation
  invocationChecksum := some (sampleDigests.budgetChecksum (.invocation sampleInvocation))
  invocationStartOwnerHash :=
    some ("sha256:" ++ sampleDigests.budgetChecksum (.startOwner sampleOwner))
  status := .startIntent
  turns := ⟨10, 10, 0⟩
  cost := some ⟨1000, 1000, 0⟩
  turnsWatermark := -1
  costWatermark := -1
  startIntentAt := some 20
  stopConfirmedAt := none
  finalUsageAt := none
  reconcileWorkerId := some "reconciler"
  reconcileTokenHash := some "sha256:lease"
  reconcileExpiresAt := some 120

/-- The final report, which counts more turns than `sampleReport false`. -/
def sampleFinal : BudgetUsageReport where
  source := "claude"
  meteringVersion := "v1"
  mode := .cumulative
  turns := some 6
  costNanos := some 500
  watermark := some 2
  final := true
  reportKey := "report/2"
  reportKey_key := by decide
  source_key := sampleSource_key
  meteringVersion_key := sampleVersion_key
  turns_units := by decide
  costNanos_units := by decide
  present := by decide
  watermark_mode := by decide
  watermark_units := by decide

def sampleUsage (report : BudgetUsageReport) : BudgetCall :=
  sampleCall [] (.recordUsage sampleClaim report)

theorem sampleSeries : CumulativeSeries samplePolicy [sampleReport false, sampleFinal] := by
  refine ⟨rfl, by decide, by decide, fun d => ?_, by decide⟩
  cases d with
  | turns =>
    have values : readings [sampleReport false, sampleFinal] .turns = [(1, 4), (2, 6)] := rfl
    rw [values]
    rintro p pMem q qMem order
    simp only [Set.mem_ofPred_eq, List.mem_cons, List.not_mem_nil, or_false] at pMem qMem
    rcases pMem with rfl | rfl <;> rcases qMem with rfl | rfl <;> simp at order ⊢
  | costNanos =>
    have values : readings [sampleReport false, sampleFinal] .costNanos =
        [(1, 300), (2, 500)] := rfl
    rw [values]
    rintro p pMem q qMem order
    simp only [Set.mem_ofPred_eq, List.mem_cons, List.not_mem_nil, or_false] at pMem qMem
    rcases pMem with rfl | rfl <;> rcases qMem with rfl | rfl <;> simp at order ⊢

/-- The final report first, then the earlier one, then the final one again. -/
theorem usage_converges_sample :
    ∃ row ∈ ((budgetStore sampleDigests).run sampleLedger
        [sampleUsage sampleFinal, sampleUsage (sampleReport false),
          sampleUsage sampleFinal]).reservations,
      (row.held .turns).consumed = 6 := by
  have opened : newBudgetAccount sampleDigests sampleRun samplePolicy = .ok sampleAccount := rfl
  have reached : (budgetStore sampleDigests).Reachable (Ledger.opened sampleAccount)
      sampleLedger := ⟨sampleCalls, rfl⟩
  obtain ⟨_, stored, policy⟩ : ∃ current, sampleLedger.account = some current ∧
      current.policy = samplePolicy :=
    ⟨⟨1, samplePolicy, sampleAccount.policyChecksum, sampleAccount.limitsChecksum, ⟨0, 10⟩,
      some ⟨0, 1000⟩, none, 3⟩, by decide, rfl⟩
  have series := policy ▸ sampleSeries
  obtain ⟨top, converges⟩ := usage_converges opened reached stored
    (show sampleRow ∈ sampleLedger.reservations by decide) rfl
    ⟨rfl, fun d => by cases d <;> rfl⟩ series (by decide)
  obtain ⟨_, row, -, mem, -, held, -⟩ := converges
    [sampleUsage sampleFinal, sampleUsage (sampleReport false), sampleUsage sampleFinal]
    (by
      intro call mem
      simp only [List.mem_cons, List.not_mem_nil, or_false] at mem
      rcases mem with rfl | rfl | rfl
      · exact Or.inl ⟨sampleClaim, sampleFinal, by simp, rfl, rfl⟩
      · exact Or.inl ⟨sampleClaim, sampleReport false, by simp, rfl, rfl⟩
      · exact Or.inl ⟨sampleClaim, sampleFinal, by simp, rfl, rfl⟩)
    (by
      intro report isReport
      simp only [List.mem_cons, List.not_mem_nil, or_false] at isReport
      rcases isReport with rfl | rfl
      · obtain ⟨⟨answer, next⟩, commit⟩ : ∃ result, (budgetStore sampleDigests).exec
            (sampleUsage (sampleReport false)) ((budgetStore sampleDigests).run sampleLedger
              [sampleUsage sampleFinal]) = .ok result := exists_ok (by decide +kernel)
        exact ⟨_, TransactionSystem.mem_answers _ commit, sampleClaim, rfl⟩
      · obtain ⟨⟨answer, next⟩, commit⟩ : ∃ result, (budgetStore sampleDigests).exec
            (sampleUsage sampleFinal) ((budgetStore sampleDigests).run sampleLedger []) =
              .ok result := exists_ok (by decide)
        exact ⟨_, TransactionSystem.mem_answers _ commit, sampleClaim, rfl⟩)
  refine ⟨row, mem, ?_⟩
  rw [(held .turns).1]
  exact top .turns (by rw [policy]; rfl) (2, 6) (by decide) (by decide)

end SkillMind.Runs
