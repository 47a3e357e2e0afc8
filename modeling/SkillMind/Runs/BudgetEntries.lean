import SkillMind.Runs.BudgetSettlement

/-!
# What an entry does to the columns

The balances of a row and of the account, read by dimension with a disabled dimension as zero.
Entering a delta draws it from the row and mirrors it in the account, releasing empties the
reservation on both sides, and neither touches anything else.
-/

namespace SkillMind.Runs

open Library

/-! ## Balances by dimension -/

namespace RunBudgetReservation

/-- The hold of a dimension, empty where the dimension is disabled. -/
def held (row : RunBudgetReservation) (dimension : Dimension) : Hold Int :=
  (row.hold dimension).getD ⟨0, 0, 0⟩

/-- The row without its balances. -/
def core (row : RunBudgetReservation) : RunBudgetReservation :=
  { row with turns := ⟨0, 0, 0⟩, cost := none, turnsWatermark := -1, costWatermark := -1 }

end RunBudgetReservation

namespace RunBudgetAccount

/-- The pool of a dimension, empty where the dimension is disabled. -/
def pooled (account : RunBudgetAccount) (dimension : Dimension) : Pool Int :=
  (account.pool dimension).getD Pool.empty

/-- The account without its balances. -/
def core (account : RunBudgetAccount) : RunBudgetAccount :=
  { account with turns := Pool.empty, cost := none, blockCode := none, rowVersion := 0 }

end RunBudgetAccount

section Accessors

variable (row : RunBudgetReservation) (account : RunBudgetAccount)

@[simp] theorem hold_setHold (d e : Dimension) (h : Hold Int) :
    (row.setHold d h).hold e = if e = d then some h else row.hold e := by
  cases d <;> cases e <;> rfl

@[simp] theorem held_setHold (d e : Dimension) (h : Hold Int) :
    (row.setHold d h).held e = if e = d then h else row.held e := by
  cases d <;> cases e <;> rfl

@[simp] theorem watermark_setHold (d e : Dimension) (h : Hold Int) :
    (row.setHold d h).watermark e = row.watermark e := by
  cases d <;> cases e <;> rfl

@[simp] theorem core_setHold (d : Dimension) (h : Hold Int) :
    (row.setHold d h).core = row.core := by
  cases d <;> rfl

@[simp] theorem hold_setWatermark (d e : Dimension) (w : Int) :
    (row.setWatermark d w).hold e = row.hold e := by
  cases d <;> cases e <;> rfl

@[simp] theorem held_setWatermark (d e : Dimension) (w : Int) :
    (row.setWatermark d w).held e = row.held e := by
  cases d <;> cases e <;> rfl

@[simp] theorem watermark_setWatermark (d e : Dimension) (w : Int) :
    (row.setWatermark d w).watermark e = if e = d then w else row.watermark e := by
  cases d <;> cases e <;> rfl

@[simp] theorem core_setWatermark (d : Dimension) (w : Int) :
    (row.setWatermark d w).core = row.core := by
  cases d <;> rfl

@[simp] theorem pool_setPool (d e : Dimension) (p : Pool Int) :
    (account.setPool d p).pool e = if e = d then some p else account.pool e := by
  cases d <;> cases e <;> rfl

@[simp] theorem pooled_setPool (d e : Dimension) (p : Pool Int) :
    (account.setPool d p).pooled e = if e = d then p else account.pooled e := by
  cases d <;> cases e <;> rfl

@[simp] theorem core_setPool (d : Dimension) (p : Pool Int) :
    (account.setPool d p).core = account.core := by
  cases d <;> rfl

@[simp] theorem blockCode_setPool (d : Dimension) (p : Pool Int) :
    (account.setPool d p).blockCode = account.blockCode := by
  cases d <;> rfl

@[simp] theorem pool_block (d : Dimension) (code : BlockCode) :
    (account.block code).pool d = account.pool d := by
  cases d <;> rfl

@[simp] theorem pooled_block (d : Dimension) (code : BlockCode) :
    (account.block code).pooled d = account.pooled d := by
  cases d <;> rfl

@[simp] theorem core_block (code : BlockCode) : (account.block code).core = account.core := rfl

@[simp] theorem blockCode_block (code : BlockCode) :
    (account.block code).blockCode = some code := rfl

@[simp] theorem pool_touch (d : Dimension) : account.touch.pool d = account.pool d := by
  cases d <;> rfl

@[simp] theorem pooled_touch (d : Dimension) : account.touch.pooled d = account.pooled d := by
  cases d <;> rfl

@[simp] theorem core_touch : account.touch.core = account.core := rfl

@[simp] theorem blockCode_touch : account.touch.blockCode = account.blockCode := rfl

theorem policy_of_core {a b : RunBudgetAccount} (same : a.core = b.core) :
    a.policy = b.policy := by
  have := congrArg RunBudgetAccount.policy same
  exact this

theorem held_of_hold {row : RunBudgetReservation} {d : Dimension} {h : Hold Int}
    (has : row.hold d = some h) : row.held d = h := by
  simp [RunBudgetReservation.held, has]

theorem pooled_of_pool {account : RunBudgetAccount} {d : Dimension} {p : Pool Int}
    (has : account.pool d = some p) : account.pooled d = p := by
  simp [RunBudgetAccount.pooled, has]

end Accessors

@[simp] theorem storedUnits_eq_ok {value : Option Int} {units : Int} :
    storedUnits value = .ok units ↔ value = some units ∧ 0 ≤ units := by
  cases value with
  | none => simp [storedUnits]
  | some v =>
    simp only [storedUnits, bind_eq_ok, require_eq_ok, pure_eq_ok, exists_const,
      Option.some.injEq]
    constructor
    · rintro ⟨nonneg, rfl⟩
      exact ⟨rfl, nonneg⟩
    · rintro ⟨rfl, nonneg⟩
      exact ⟨nonneg, rfl⟩

/-! ## Entering deltas -/

/-- The hold after an optional draw. -/
def drawnBy (hold : Hold Int) : Option Int → Hold Int
  | none => hold
  | some delta => hold.draw delta

/-- The pool that mirrors an optional draw from a hold. -/
def mirroredBy (pool : Pool Int) (hold : Hold Int) : Option Int → Pool Int
  | none => pool
  | some delta => ⟨pool.consumed + delta, pool.reserved - hold.transfer delta⟩

/-- The watermark after a report that counts in the dimension. -/
def raisedBy (watermark : Int) (report : UsagePayload) : Option Int → Int
  | none => watermark
  | some _ => max watermark (report.watermark.getD watermark)

def deltaIn : List (Dimension × Int) → Dimension → Option Int
  | [], _ => none
  | (entered, delta) :: rest, dimension =>
    if dimension = entered then some delta else deltaIn rest dimension

@[simp] theorem deltaIn_nil (d : Dimension) : deltaIn [] d = none := rfl

@[simp] theorem deltaIn_cons (e d : Dimension) (delta : Int) (rest : List (Dimension × Int)) :
    deltaIn ((e, delta) :: rest) d = if d = e then some delta else deltaIn rest d := rfl

theorem deltaIn_eq_none {deltas : List (Dimension × Int)} {d : Dimension} :
    deltaIn deltas d = none ↔ d ∉ deltas.map Prod.fst := by
  induction deltas with
  | nil => simp
  | cons first rest ih =>
    obtain ⟨e, delta⟩ := first
    by_cases same : d = e <;> simp [same, ih]

/-- What entering a list of deltas amounts to, column by column. -/
structure EntrySpec (report : UsagePayload) (deltas : List (Dimension × Int))
    (entry result : Entry) : Prop where
  held : ∀ d, result.row.held d = drawnBy (entry.row.held d) (deltaIn deltas d)
  watermark : ∀ d, result.row.watermark d =
    raisedBy (entry.row.watermark d) report (deltaIn deltas d)
  pooled : ∀ d, result.account.pooled d =
    mirroredBy (entry.account.pooled d) (entry.row.held d) (deltaIn deltas d)
  row_columns : ∀ d, (result.row.hold d).isSome = (entry.row.hold d).isSome
  account_columns : ∀ d, (result.account.pool d).isSome = (entry.account.pool d).isSome
  row_core : result.row.core = entry.row.core
  account_core : result.account.core = entry.account.core
  overspent : result.overspent = true ↔ entry.overspent = true ∨
    ∃ d ∈ deltas.map Prod.fst, (result.row.held d).granted < (result.row.held d).consumed
  blockCode : result.account.blockCode =
    if entry.row.finalUsageAt ≠ none ∧ ∃ delta ∈ deltas, delta.2 ≠ 0 then
      some .usageAfterFinalReport
    else entry.account.blockCode

theorem enterDelta_spec {report : UsagePayload} {entry result : Entry} {dimension : Dimension}
    {delta : Int} (entered : enterDelta report entry dimension delta = .ok result) :
    EntrySpec report [(dimension, delta)] entry result := by
  simp only [enterDelta, bind_eq_ok, orFault_eq_ok, storedUnits_eq_ok, pure_eq_ok] at entered
  obtain ⟨hold, hasHold, pool, hasPool, held, ⟨heldEq, -⟩, consumed, ⟨consumedEq, -⟩, reserved,
    ⟨reservedEq, -⟩, rfl⟩ := entered
  simp only [Option.some.injEq] at heldEq consumedEq reservedEq
  subst heldEq consumedEq reservedEq
  have isHeld := held_of_hold hasHold
  have isPooled := pooled_of_pool hasPool
  constructor
  · intro d
    by_cases same : d = dimension
    · subst same
      cases report.watermark <;> simp [drawnBy, isHeld]
    · cases report.watermark <;> simp [drawnBy, same]
  · intro d
    by_cases same : d = dimension
    · subst same
      cases mark : report.watermark <;> simp [raisedBy, mark]
    · cases report.watermark <;> simp [raisedBy, same]
  · intro d
    by_cases same : d = dimension
    · subst same
      split <;> simp [mirroredBy, isHeld, isPooled]
    · split <;> simp [mirroredBy, same]
  · intro d
    by_cases same : d = dimension
    · subst same
      cases report.watermark <;> simp [hasHold]
    · cases report.watermark <;> simp [same]
  · intro d
    by_cases same : d = dimension
    · subst same
      split <;> simp [hasPool]
    · split <;> simp [same]
  · cases report.watermark <;> simp
  · split <;> simp
  · have ended : (entry.overspent || decide ((hold.draw delta).granted <
        (hold.draw delta).consumed)) = true ↔
        entry.overspent = true ∨ (hold.draw delta).granted < (hold.draw delta).consumed := by
      rw [Bool.or_eq_true, decide_eq_true_iff]
    cases report.watermark <;> simpa using ended
  · split <;> simp_all

theorem enterDeltas_spec {report : UsagePayload} {deltas : List (Dimension × Int)}
    (distinct : (deltas.map Prod.fst).Nodup) {entry result : Entry}
    (entered : enterDeltas report entry deltas = .ok result) :
    EntrySpec report deltas entry result := by
  induction deltas generalizing entry with
  | nil =>
    simp only [enterDeltas, pure_eq_ok] at entered
    subst entered
    constructor <;> simp [drawnBy, raisedBy, mirroredBy]
  | cons first rest ih =>
    obtain ⟨dimension, delta⟩ := first
    simp only [enterDeltas, bind_eq_ok] at entered
    obtain ⟨middle, head, tail⟩ := entered
    obtain ⟨fresh, distinctRest⟩ := List.nodup_cons.mp distinct
    have one := enterDelta_spec head
    have more := ih distinctRest tail
    have absent : deltaIn rest dimension = none := deltaIn_eq_none.mpr fresh
    have final : middle.row.finalUsageAt = entry.row.finalUsageAt := by
      have := congrArg RunBudgetReservation.finalUsageAt one.row_core
      exact this
    constructor
    · intro d
      rw [more.held, one.held]
      by_cases same : d = dimension
      · subst same
        simp [absent, drawnBy]
      · simp [same, drawnBy]
    · intro d
      rw [more.watermark, one.watermark]
      by_cases same : d = dimension
      · subst same
        simp [absent, raisedBy]
      · simp [same, raisedBy]
    · intro d
      rw [more.pooled, one.pooled, one.held]
      by_cases same : d = dimension
      · subst same
        simp [absent, mirroredBy]
      · simp [same, mirroredBy, drawnBy]
    · intro d
      rw [more.row_columns, one.row_columns]
    · intro d
      rw [more.account_columns, one.account_columns]
    · rw [more.row_core, one.row_core]
    · rw [more.account_core, one.account_core]
    · have kept : result.row.held dimension = middle.row.held dimension := by
        rw [more.held, absent, drawnBy]
      rw [more.overspent, one.overspent]
      simp [kept, or_assoc]
    · rw [more.blockCode, one.blockCode, final]
      by_cases reported : entry.row.finalUsageAt = none
      · simp [reported]
      · by_cases later : ∃ entered ∈ rest, entered.2 ≠ 0
        · simp [reported, later]
        · by_cases now : delta = 0 <;> simp [reported, later, now]
/-- What `_release` amounts to: both sides give up what the row still reserved. -/
structure ReleaseSpec (account : RunBudgetAccount) (row : RunBudgetReservation)
    (account' : RunBudgetAccount) (row' : RunBudgetReservation) : Prop where
  held : ∀ d, row'.held d = (row.held d).release
  watermark : ∀ d, row'.watermark d = row.watermark d
  pooled : ∀ d, account'.pooled d =
    ⟨(account.pooled d).consumed, (account.pooled d).reserved - (row.held d).reserved⟩
  row_columns : ∀ d, (row'.hold d).isSome = (row.hold d).isSome
  account_columns : ∀ d, (account'.pool d).isSome = (account.pool d).isSome
  row_core : row'.core = row.core
  account_core : account'.core = account.core
  blockCode : account'.blockCode = account.blockCode

theorem releaseDimension_spec {account account' : RunBudgetAccount}
    {row row' : RunBudgetReservation} {dimension : Dimension}
    (released : releaseDimension account row dimension = .ok (account', row')) :
    (∀ d, row'.held d = if d = dimension then (row.held d).release else row.held d) ∧
      (∀ d, row'.watermark d = row.watermark d) ∧
      (∀ d, account'.pooled d =
        if d = dimension then
          ⟨(account.pooled d).consumed, (account.pooled d).reserved - (row.held d).reserved⟩
        else account.pooled d) ∧
      (∀ d, (row'.hold d).isSome = (row.hold d).isSome) ∧
      (∀ d, (account'.pool d).isSome = (account.pool d).isSome) ∧
      row'.core = row.core ∧ account'.core = account.core ∧
      account'.blockCode = account.blockCode := by
  unfold releaseDimension at released
  cases has : row.hold dimension with
  | none =>
    simp only [has, pure_eq_ok, Prod.mk.injEq] at released
    obtain ⟨rfl, rfl⟩ := released
    have zero : row.held dimension = ⟨0, 0, 0⟩ := by
      simp [RunBudgetReservation.held, has]
    refine ⟨?_, fun _ => rfl, ?_, fun _ => rfl, fun _ => rfl, rfl, rfl, rfl⟩
    · intro d
      by_cases same : d = dimension
      · subst same
        simp [zero, Hold.release]
      · simp [same]
    · intro d
      by_cases same : d = dimension
      · subst same
        simp [zero]
      · simp [same]
  | some hold =>
    simp only [has, bind_eq_ok, orFault_eq_ok, storedUnits_eq_ok, pure_eq_ok,
      Prod.mk.injEq] at released
    obtain ⟨pool, hasPool, reserved, ⟨reservedEq, -⟩, held, ⟨heldEq, -⟩, rfl, rfl⟩ := released
    simp only [Option.some.injEq] at reservedEq heldEq
    subst reservedEq heldEq
    have isHeld := held_of_hold has
    have isPooled := pooled_of_pool hasPool
    refine ⟨?_, by simp, ?_, ?_, ?_, by simp, by simp, by simp⟩
    · intro d
      by_cases same : d = dimension
      · subst same
        simp [isHeld]
      · simp [same]
    · intro d
      by_cases same : d = dimension
      · subst same
        simp [isHeld, isPooled]
      · simp [same]
    · intro d
      by_cases same : d = dimension
      · subst same
        simp [has]
      · simp [same]
    · intro d
      by_cases same : d = dimension
      · subst same
        simp [hasPool]
      · simp [same]

theorem release_spec {account account' : RunBudgetAccount} {row row' : RunBudgetReservation}
    (released : release account row = .ok (account', row')) :
    ReleaseSpec account row account' row' := by
  simp only [release, bind_eq_ok, Prod.exists] at released
  obtain ⟨middle, middleRow, turns, cost⟩ := released
  obtain ⟨held₁, mark₁, pooled₁, rowCols₁, accCols₁, core₁, acore₁, block₁⟩ :=
    releaseDimension_spec turns
  obtain ⟨held₂, mark₂, pooled₂, rowCols₂, accCols₂, core₂, acore₂, block₂⟩ :=
    releaseDimension_spec cost
  constructor
  · intro d
    cases d <;> simp [held₁, held₂]
  · intro d
    rw [mark₂, mark₁]
  · intro d
    cases d <;> simp [pooled₁, pooled₂, held₁]
  · intro d
    rw [rowCols₂, rowCols₁]
  · intro d
    rw [accCols₂, accCols₁]
  · rw [core₂, core₁]
  · rw [acore₂, acore₁]
  · rw [block₂, block₁]

theorem settleIfConfirmed_spec {account account' : RunBudgetAccount}
    {row row' : RunBudgetReservation}
    (settled : settleIfConfirmed account row = .ok (account', row')) :
    (row.stopConfirmedAt ≠ none ∧ row.finalUsageAt ≠ none ∧
        ∃ released, ReleaseSpec account row account' released ∧
          row' = { released with status := .settled }) ∨
      (¬ (row.stopConfirmedAt ≠ none ∧ row.finalUsageAt ≠ none) ∧ account' = account ∧
        row' = row) := by
  unfold settleIfConfirmed at settled
  split at settled
  · rename_i confirmed
    simp only [bind_eq_ok, Prod.exists, pure_eq_ok, Prod.mk.injEq] at settled
    obtain ⟨middle, released, spec, rfl, rfl⟩ := settled
    exact Or.inl ⟨confirmed.1, confirmed.2, released, release_spec spec, rfl⟩
  · rename_i open'
    simp only [pure_eq_ok, Prod.mk.injEq] at settled
    obtain ⟨rfl, rfl⟩ := settled
    exact Or.inr ⟨open', rfl, rfl⟩

end SkillMind.Runs
