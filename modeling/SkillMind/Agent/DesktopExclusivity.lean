import SkillMind.Agent.McpLease

/-!
# One operation on a desktop

A lease that has a pending operation changes in one of four ways only: the operation is confirmed,
observed to have ended, reconciled, or a cancel request of the same Run that names it takes its
place. Until then the lease stays as it is, and nothing else begins on the desktop. A lease goes
to another Run when the Run that had it is over and nothing is pending.
-/

namespace SkillMind.Agent

open Library Reconciliation
open Runs (Uuid RunStatus)

variable {t t' : DesktopTables} {action : DesktopAction} {answer : DesktopAnswer}
  {e : McpEffect}

def McpEffect.lease (e : McpEffect) : McpDesktopLease := ⟨e.endpointHash, e.runId, some e.id⟩

def HeldBy (t : DesktopTables) (e : McpEffect) : Prop := e.lease ∈ t.leases

/-- The end of the operation is confirmed by its own attempt, by a lookup, or by a
reconciliation. -/
def confirmsEnd (e : McpEffect) : DesktopAction → Bool
  | .confirm effectId => decide (effectId = e.id)
  | .release key owner pending =>
    decide (key = e.endpointHash ∧ owner = e.runId ∧ pending = e.id)
  | .reconcile target status =>
    decide (target.command.runId = e.runId ∧ target.command.effectId = e.id ∧
      target.command.commandClass = .mcpOperation ∧ status = .confirmed)
  | _ => false

/-- `request` is to cancel the effect, in its Run and on its desktop. -/
structure Cancels (request e : McpEffect) : Prop where
  other : request.id ≠ e.id
  target : request.cancelTarget = some e.id
  run : request.runId = e.runId
  integration : request.integrationId = e.integrationId
  endpoint : request.endpointHash = e.endpointHash

/-- A cancel request that names the effect begins. -/
def TakesOver (t : DesktopTables) (e : McpEffect) : DesktopAction → Prop
  | .begin effectId attemptNo => 1 ≤ attemptNo ∧
      ∃ request ∈ t.effects, request.id = effectId ∧ Cancels request e
  | _ => False

def Ends (e : McpEffect) (t : DesktopTables) (action : DesktopAction) : Prop :=
  confirmsEnd e action = true ∨ TakesOver t e action

/-- What the tables of every run have. -/
structure Tidy (t : DesktopTables) : Prop where
  leases : Keyed McpDesktopLease.endpointHash t.leases
  effects : Keyed McpEffect.id t.effects
  started : ∀ effectId ∈ t.started, ∃ effect ∈ t.effects, effect.id = effectId

variable {leases : List McpDesktopLease} {key : String}

theorem findLease_known {lease : McpDesktopLease}
    (found : findLease leases key = some lease) : lease ∈ leases ∧ lease.endpointHash = key :=
  find_key found

theorem finished_eq_ok {outcome : Except Fault DesktopTables}
    (commit : finished outcome = .ok (answer, t')) : outcome = .ok t' := by
  simp only [finished, bind_eq_ok, pure_eq_ok, Prod.mk.injEq] at commit
  obtain ⟨_, written, -, rfl⟩ := commit
  exact written

/-- One lease is written, of the leases that may have a new one among them. -/
structure Writes (t t' : DesktopTables) (leases : List McpDesktopLease)
    (old new : McpDesktopLease) : Prop where
  inserted : leases = t.leases ∨
    leases = t.leases ++ [old] ∧ ∀ lease ∈ t.leases, lease.endpointHash ≠ old.endpointHash
  known : old ∈ leases
  key : new.endpointHash = old.endpointHash
  written : t'.leases = replaceRow McpDesktopLease.endpointHash new leases

theorem Writes.keyed {leases : List McpDesktopLease} {old new : McpDesktopLease}
    (writes : Writes t t' leases old new)
    (keyed : Keyed McpDesktopLease.endpointHash t.leases) :
    Keyed McpDesktopLease.endpointHash leases := by
  rcases writes.inserted with rfl | ⟨rfl, fresh⟩
  · exact keyed
  · exact keyed.add fun lease member => (fresh lease member).symm

theorem Writes.kept {old new lease : McpDesktopLease}
    (writes : Writes t t' leases old new) (keyed : Keyed McpDesktopLease.endpointHash t.leases)
    (known : lease ∈ t.leases) (spared : lease = old → new = old) : lease ∈ t'.leases := by
  have member : lease ∈ leases := by
    rcases writes.inserted with rfl | ⟨rfl, -⟩
    · exact known
    · exact List.mem_append_left _ known
  rw [writes.written]
  by_cases hit : lease.endpointHash = new.endpointHash
  · have same := (writes.keyed keyed).eq_of_key member writes.known (hit.trans writes.key)
    rw [same.trans (spared same).symm]
    exact mem_replaceRow_self member hit
  · exact mem_replaceRow_of_ne member hit

/-- What `acquire` checks and writes. -/
structure Acquires (t t' : DesktopTables) (key : String) (runId : Uuid)
    (beginEffect cancelTarget : Option Uuid) (leases : List McpDesktopLease)
    (old : McpDesktopLease) : Prop where
  writes : Writes t t' leases old
    { old with
      runId := runId
      pendingEffectId := beginEffect.or old.pendingEffectId }
  key : old.endpointHash = key
  free : old.runId ≠ runId → old.pendingEffectId = none ∧ runEnded t old.runId = true
  admitted : beginEffect ≠ none → old.pendingEffectId ∈ [none, beginEffect, cancelTarget]
  frame : t' = { t with leases := t'.leases }

theorem acquire_eq_ok {runId : Uuid} {begins cancelTarget : Option Uuid}
    {hold : DesktopHold} (acquires : acquire t key runId begins cancelTarget = .ok (hold, t')) :
    ∃ leases old, Acquires t t' key runId begins cancelTarget leases old := by
  simp only [acquire, bind_eq_ok, orFault_eq_ok, require_eq_ok, exists_unit, pure_eq_ok,
    Prod.mk.injEq] at acquires
  obtain ⟨old, found, free, admitted, -, rfl⟩ := acquires
  obtain ⟨known, key'⟩ := findLease_known found
  refine ⟨_, old, ⟨?_, known, rfl, rfl⟩, key', free, admitted, rfl⟩
  split
  · exact Or.inl rfl
  · rename_i absent
    have missing : ∀ lease ∈ t.leases, lease.endpointHash ≠ key := by
      simpa [findLease] using absent
    have new : old = ⟨key, runId, none⟩ := by
      rw [if_neg absent] at known
      rcases List.mem_append.mp known with there | added
      · exact absurd key' (missing old there)
      · exact List.mem_singleton.mp added
    refine Or.inr ⟨by rw [new], fun lease member => ?_⟩
    rw [key']
    exact missing lease member

theorem beginEffect_eq_ok {effectId : Uuid} {attemptNo : Nat} {hold : DesktopHold}
    (begins : beginEffect t effectId attemptNo = .ok (hold, t')) :
    1 ≤ attemptNo ∧ ∃ effect ∈ t.effects, effect.id = effectId ∧
      (∀ target, effect.cancelTarget = some target → ∃ original ∈ t.effects,
        original.id = target ∧ original.runId = effect.runId ∧
          original.integrationId = effect.integrationId) ∧
      ∃ leases old, Acquires t { t' with started := t.started } effect.endpointHash effect.runId
          (some effectId) effect.cancelTarget leases old ∧
        t'.started = if attemptNo = 1 then effectId :: t.started else t.started := by
  simp only [beginEffect, knownEffect, requireOriginalEffect, bind_eq_ok, orFault_eq_ok,
    require_eq_ok, exists_unit, Prod.exists, pure_eq_ok, Prod.mk.injEq] at begins
  obtain ⟨counted, effect, found, original, hold, written, acquires, -, rfl⟩ := begins
  obtain ⟨known, id⟩ := find_key found
  obtain ⟨leases, old, acquired⟩ := acquire_eq_ok acquires
  have frame := acquired.frame
  refine ⟨counted, effect, known, id, original, leases, old, ?_, ?_⟩
  · rw [frame] at acquired ⊢
    exact acquired
  · rw [frame]

/-! ## What one transaction does to the leases -/

/-- A lease that is released was held by an effect whose end is confirmed. -/
structure Releases (t t' : DesktopTables) (action : DesktopAction) : Prop where
  kept : ∀ e : McpEffect, HeldBy t e → confirmsEnd e action = false → HeldBy t' e
  source : ∀ lease' ∈ t'.leases, ∃ lease ∈ t.leases,
    lease.endpointHash = lease'.endpointHash ∧ lease.runId = lease'.runId

/-- What a transaction does to the leases and the effects that have begun. -/
inductive DesktopMove (t : DesktopTables) (action : DesktopAction) (t' : DesktopTables) : Prop
  | same (leases : t'.leases = t.leases) (started : t'.started = t.started)
      (quiet : ∀ effectId attemptNo, action ≠ .begin effectId attemptNo)
  | released (releases : Releases t t' action)
      (keyed : t'.leases.map McpDesktopLease.endpointHash =
        t.leases.map McpDesktopLease.endpointHash) (started : t'.started = t.started)
      (quiet : ∀ effectId attemptNo, action ≠ .begin effectId attemptNo)
  | read (key : String) (runId : Uuid) (leases : List McpDesktopLease) (old : McpDesktopLease)
      (acquires : Acquires t t' key runId none none leases old)
      (quiet : ∀ effectId attemptNo, action ≠ .begin effectId attemptNo)
  | begins (effect : McpEffect) (attemptNo : Nat) (leases : List McpDesktopLease)
      (old : McpDesktopLease) (known : effect ∈ t.effects)
      (acts : action = .begin effect.id attemptNo) (counted : 1 ≤ attemptNo)
      (original : ∀ target, effect.cancelTarget = some target → ∃ original ∈ t.effects,
        original.id = target ∧ original.runId = effect.runId ∧
          original.integrationId = effect.integrationId)
      (acquires : Acquires t { t' with started := t.started } effect.endpointHash effect.runId
        (some effect.id) effect.cancelTarget leases old)
      (started : t'.started = if attemptNo = 1 then effect.id :: t.started else t.started)
  | purged (runId : Uuid) (ended : runEnded t runId = true)
      (free : ∀ lease ∈ t.leases, lease.runId = runId → lease.pendingEffectId = none)
      (leases : t'.leases = t.leases.filter fun lease => decide (lease.runId ≠ runId))
      (started : t'.started = t.started)
      (quiet : ∀ effectId attemptNo, action ≠ .begin effectId attemptNo)

theorem releases_replaceRow {old : McpDesktopLease}
    (keyed : Keyed McpDesktopLease.endpointHash t.leases) (known : old ∈ t.leases)
    (ends : ∀ e : McpEffect, e.lease = old → confirmsEnd e action = true)
    (written : t'.leases = replaceRow McpDesktopLease.endpointHash
      { old with pendingEffectId := none } t.leases) : Releases t t' action := by
  constructor
  · intro e held open_
    rw [HeldBy, written]
    by_cases hit : e.lease.endpointHash = old.endpointHash
    · rw [ends e (keyed.eq_of_key held known hit)] at open_
      cases open_
    · exact mem_replaceRow_of_ne held hit
  · intro lease' member
    rw [written] at member
    rcases mem_replaceRow member with ⟨rfl, -⟩ | ⟨there, -⟩
    · exact ⟨old, known, rfl, rfl⟩
    · exact ⟨lease', there, rfl, rfl⟩

theorem execDesktop_moves (tidy : Tidy t)
    (commit : desktopStore.exec action t = .ok (answer, t')) : DesktopMove t action t' := by
  cases action with
  | moveRun run =>
    have moves := finished_eq_ok commit
    simp only [moveRun, bind_eq_ok, require_eq_ok, exists_unit] at moves
    obtain ⟨-, moves⟩ := moves
    split at moves
    all_goals
      obtain rfl := pure_eq_ok.mp moves
      exact .same rfl rfl (by simp)
  | insertEffect effect =>
    have inserts := finished_eq_ok commit
    simp only [insertEffect, bind_eq_ok, require_eq_ok, exists_unit, pure_eq_ok] at inserts
    obtain ⟨-, rfl⟩ := inserts
    exact .same rfl rfl (by simp)
  | observe key runId begins cancelTarget =>
    obtain ⟨-, rfl⟩ := Prod.mk.inj (pure_eq_ok.mp commit)
    exact .same rfl rfl (by simp)
  | release key owner pending =>
    have releases := finished_eq_ok commit
    simp only [releaseEnded, bind_eq_ok, orFault_eq_ok] at releases
    obtain ⟨lease, found, releases⟩ := releases
    split at releases
    · rename_i holds
      obtain rfl := pure_eq_ok.mp releases
      obtain ⟨known, key'⟩ := findLease_known found
      refine .released (releases_replaceRow tidy.leases known (fun e same => ?_) rfl)
        (map_key_replaceRow _ _) rfl (by simp)
      subst same
      exact decide_eq_true ⟨key'.symm, holds.1.symm, (Option.some.inj holds.2).symm⟩
    · obtain rfl := pure_eq_ok.mp releases
      exact .same rfl rfl (by simp)
  | read key runId =>
    obtain ⟨_, reads, -⟩ := answering_eq_ok.mp commit
    obtain ⟨leases, old, acquires⟩ := acquire_eq_ok reads
    exact .read key runId leases old acquires (by simp)
  | begin effectId attemptNo =>
    obtain ⟨_, begins, -⟩ := answering_eq_ok.mp commit
    obtain ⟨counted, effect, known, rfl, original, leases, old, acquires, started⟩ :=
      beginEffect_eq_ok begins
    exact .begins effect attemptNo leases old known rfl counted original acquires started
  | send effectId =>
    have sends := finished_eq_ok commit
    simp only [sendCall, bind_eq_ok, require_eq_ok, exists_unit, pure_eq_ok] at sends
    obtain ⟨-, rfl⟩ := sends
    exact .same rfl rfl (by simp)
  | confirm effectId =>
    have confirms := finished_eq_ok commit
    simp only [confirmEffect, Agent.confirm, bind_eq_ok, orFault_eq_ok, require_eq_ok,
      exists_unit, pure_eq_ok] at confirms
    obtain ⟨_, -, lease, found, holds, rfl⟩ := confirms
    refine .released (releases_replaceRow tidy.leases (findLease_known found).1
      (fun e same => ?_) rfl) (map_key_replaceRow _ _) rfl (by simp)
    subst same
    exact decide_eq_true (Option.some.inj holds.2).symm
  | reconcile target status =>
    have reconciles := finished_eq_ok commit
    unfold reconcileEffect at reconciles
    split at reconciles
    · rename_i leases releases
      obtain rfl := Except.ok.inj reconciles
      unfold releaseDesktop at releases
      dsimp only at releases
      split at releases
      · rename_i confirmed
        simp only [bind_eq_ok, require_eq_ok, exists_unit, pure_eq_ok] at releases
        obtain ⟨-, rfl⟩ := releases
        refine .released ⟨?_, ?_⟩ ?_ rfl (by simp)
        · intro e held open_
          refine List.mem_map.mpr ⟨e.lease, held, if_neg fun waits => ?_⟩
          obtain ⟨run, pending⟩ := of_decide_eq_true waits
          exact of_decide_eq_false open_ ⟨run.symm, (Option.some.inj pending).symm, confirmed⟩
        · intro lease' member
          obtain ⟨lease, there, rfl⟩ := List.mem_map.mp member
          refine ⟨lease, there, ?_⟩
          split <;> exact ⟨rfl, rfl⟩
        · dsimp only
          rw [List.map_map]
          refine List.map_congr_left fun lease _ => ?_
          dsimp only [Function.comp_apply]
          split <;> rfl
      · obtain rfl := pure_eq_ok.mp releases
        exact .same rfl rfl (by simp)
    · cases reconciles
  | purge runId =>
    have purges := finished_eq_ok commit
    simp only [purgeRun, bind_eq_ok, require_eq_ok, exists_unit, pure_eq_ok] at purges
    obtain ⟨⟨ended, free⟩, rfl⟩ := purges
    exact .purged runId ended free rfl rfl (by simp)

theorem releaseEnded_effects {owner pending : Uuid}
    (releases : releaseEnded t key owner pending = .ok t') : t'.effects = t.effects := by
  simp only [releaseEnded, bind_eq_ok, orFault_eq_ok] at releases
  obtain ⟨lease, -, releases⟩ := releases
  split at releases
  all_goals
    obtain rfl := pure_eq_ok.mp releases
    rfl

theorem reconcileEffect_effects {target : EffectReconciliationTarget} {status : ObservationStatus}
    (reconciles : reconcileEffect t target status = .ok t') : t'.effects = t.effects := by
  unfold reconcileEffect at reconciles
  split at reconciles
  · obtain rfl := Except.ok.inj reconciles
    rfl
  · cases reconciles

theorem execDesktop_effects (commit : desktopStore.exec action t = .ok (answer, t')) :
    t'.effects = t.effects ∨ ∃ effect, (∀ other ∈ t.effects, other.id ≠ effect.id) ∧
      t'.effects = t.effects ++ [effect] := by
  cases action with
  | moveRun run =>
    have moves := finished_eq_ok commit
    simp only [moveRun, bind_eq_ok, require_eq_ok, exists_unit] at moves
    obtain ⟨-, moves⟩ := moves
    split at moves
    all_goals
      obtain rfl := pure_eq_ok.mp moves
      exact Or.inl rfl
  | insertEffect effect =>
    have inserts := finished_eq_ok commit
    simp only [insertEffect, bind_eq_ok, require_eq_ok, exists_unit, pure_eq_ok] at inserts
    obtain ⟨fresh, rfl⟩ := inserts
    exact Or.inr ⟨effect, fresh, rfl⟩
  | observe key runId begins cancelTarget =>
    obtain ⟨-, rfl⟩ := Prod.mk.inj (pure_eq_ok.mp commit)
    exact Or.inl rfl
  | release key owner pending => exact Or.inl (releaseEnded_effects (finished_eq_ok commit))
  | read key runId =>
    obtain ⟨_, reads, -⟩ := answering_eq_ok.mp commit
    obtain ⟨leases, old, acquires⟩ := acquire_eq_ok reads
    exact Or.inl (congrArg DesktopTables.effects acquires.frame :)
  | begin effectId attemptNo =>
    obtain ⟨_, begins, -⟩ := answering_eq_ok.mp commit
    obtain ⟨-, _, -, -, -, _, _, acquires, -⟩ := beginEffect_eq_ok begins
    exact Or.inl (congrArg DesktopTables.effects acquires.frame :)
  | send effectId =>
    have sends := finished_eq_ok commit
    simp only [sendCall, bind_eq_ok, require_eq_ok, exists_unit, pure_eq_ok] at sends
    obtain ⟨-, rfl⟩ := sends
    exact Or.inl rfl
  | confirm effectId =>
    have confirms := finished_eq_ok commit
    simp only [confirmEffect, Agent.confirm, bind_eq_ok, orFault_eq_ok, require_eq_ok,
      exists_unit, pure_eq_ok] at confirms
    obtain ⟨_, -, _, -, -, rfl⟩ := confirms
    exact Or.inl rfl
  | reconcile target status => exact Or.inl (reconcileEffect_effects (finished_eq_ok commit))
  | purge runId =>
    have purges := finished_eq_ok commit
    simp only [purgeRun, bind_eq_ok, require_eq_ok, exists_unit, pure_eq_ok] at purges
    obtain ⟨-, rfl⟩ := purges
    exact Or.inl rfl

theorem mem_effects (commit : desktopStore.exec action t = .ok (answer, t'))
    (known : e ∈ t.effects) : e ∈ t'.effects := by
  rcases execDesktop_effects commit with same | ⟨effect, -, added⟩
  · exact same ▸ known
  · exact added ▸ List.mem_append_left _ known

theorem mem_effects_invariant (e : McpEffect) :
    desktopStore.Invariant fun t => e ∈ t.effects :=
  fun _ _ _ _ known commit => mem_effects commit known

theorem DesktopMove.keyed (move : DesktopMove t action t')
    (keyed : Keyed McpDesktopLease.endpointHash t.leases) :
    Keyed McpDesktopLease.endpointHash t'.leases := by
  cases move with
  | same leases => exact leases ▸ keyed
  | released releases same => exact (congrArg List.Nodup same).mpr keyed
  | read key runId leases old acquires =>
    rw [acquires.writes.written]
    exact (acquires.writes.keyed keyed).replaceRow _
  | begins effect attemptNo leases old known acts counted original acquires =>
    have written : t'.leases = _ := acquires.writes.written
    rw [written]
    exact (acquires.writes.keyed keyed).replaceRow _
  | purged runId ended free leases =>
    rw [leases]
    exact List.Nodup.sublist (List.filter_sublist.map _) keyed

theorem DesktopMove.mem_started (move : DesktopMove t action t') {effectId : Uuid}
    (begun : effectId ∈ t'.started) :
    effectId ∈ t.started ∨ ∃ effect ∈ t.effects, effect.id = effectId ∧
      ∃ attemptNo, action = .begin effectId attemptNo := by
  cases move with
  | same leases started => exact Or.inl (started ▸ begun)
  | released releases keyed started => exact Or.inl (started ▸ begun)
  | read key runId leases old acquires =>
    have started : t'.started = t.started := (congrArg DesktopTables.started acquires.frame :)
    exact Or.inl (started ▸ begun)
  | begins effect attemptNo leases old known acts counted original acquires started =>
    rw [started] at begun
    split at begun
    · rcases List.mem_cons.mp begun with rfl | before
      · exact Or.inr ⟨effect, known, rfl, attemptNo, acts⟩
      · exact Or.inl before
    · exact Or.inl begun
  | purged runId ended free leases started => exact Or.inl (started ▸ begun)

theorem tidy_invariant : desktopStore.Invariant Tidy := by
  intro t action answer t' tidy commit
  have move := execDesktop_moves tidy commit
  refine ⟨move.keyed tidy.leases, ?_, ?_⟩
  · rcases execDesktop_effects commit with same | ⟨effect, fresh, added⟩
    · exact same ▸ tidy.effects
    · exact added ▸ tidy.effects.add fun other member => (fresh other member).symm
  · intro effectId begun
    rcases move.mem_started begun with before | ⟨effect, known, id, -⟩
    · obtain ⟨effect, known, id⟩ := tidy.started effectId before
      exact ⟨effect, mem_effects commit known, id⟩
    · exact ⟨effect, mem_effects commit known, id⟩

theorem tidy_empty : Tidy DesktopTables.empty :=
  ⟨List.nodup_nil, List.nodup_nil, fun _ begun => absurd begun List.not_mem_nil⟩

/-! ## The window -/

theorem Acquires.pending {runId effectId : Uuid} {cancelTarget : Option Uuid}
    {old : McpDesktopLease}
    (acquires : Acquires t t' key runId (some effectId) cancelTarget leases old)
    (held : old = e.lease) : runId = e.runId ∧ (effectId = e.id ∨ cancelTarget = some e.id) := by
  subst held
  constructor
  · by_contra other
    cases (acquires.free (Ne.symm other)).1
  · have admitted := acquires.admitted (by simp)
    simp only [McpEffect.lease, List.mem_cons, List.not_mem_nil, or_false, reduceCtorEq,
      Option.some.injEq, false_or] at admitted
    exact admitted.imp Eq.symm Eq.symm

theorem Acquires.finds {runId : Uuid} {begins cancelTarget : Option Uuid}
    {old lease : McpDesktopLease}
    (acquires : Acquires t t' key runId begins cancelTarget leases old)
    (keyed : Keyed McpDesktopLease.endpointHash t.leases) (known : lease ∈ t.leases)
    (same : lease.endpointHash = key) : old = lease := by
  have member : lease ∈ leases := by
    rcases acquires.writes.inserted with rfl | ⟨rfl, -⟩
    · exact known
    · exact List.mem_append_left _ known
  exact (acquires.writes.keyed keyed).eq_of_key acquires.writes.known member
    (acquires.key.trans same.symm)

theorem cancels_of_named (tidy : Tidy t) (member : e ∈ t.effects) {request : McpEffect}
    (original : ∀ target, request.cancelTarget = some target → ∃ original ∈ t.effects,
      original.id = target ∧ original.runId = request.runId ∧
        original.integrationId = request.integrationId)
    (named : request.cancelTarget = some e.id) (other : request.id ≠ e.id)
    (endpoint : request.endpointHash = e.endpointHash) : Cancels request e := by
  obtain ⟨row, known, id, run, integration⟩ := original e.id named
  obtain rfl := tidy.effects.eq_of_key known member id
  exact ⟨other, named, run.symm, integration.symm, endpoint⟩

theorem heldBy_kept (tidy : Tidy t) (member : e ∈ t.effects) (held : HeldBy t e)
    (move : DesktopMove t action t') (open_ : ¬ Ends e t action) : HeldBy t' e := by
  cases move with
  | same leases =>
    unfold HeldBy
    rw [leases]
    exact held
  | released releases =>
    exact releases.kept e held (Bool.eq_false_iff.mpr fun ends => open_ (Or.inl ends))
  | read key runId leases old acquires =>
    refine acquires.writes.kept tidy.leases held fun found => ?_
    subst found
    have same : e.runId = runId := by
      by_contra other
      cases (acquires.free other).1
    rw [← same]
    rfl
  | begins effect attemptNo leases old known acts counted original acquires =>
    refine acquires.writes.kept tidy.leases held fun found => ?_
    obtain ⟨run, same | cancels⟩ := acquires.pending found.symm
    · rw [← found, run, same]
      rfl
    · by_cases same : effect.id = e.id
      · rw [← found, run, same]
        rfl
      · subst acts
        have cancels' := cancels_of_named tidy member original cancels same
          (acquires.key.symm.trans (congrArg McpDesktopLease.endpointHash found.symm))
        exact absurd (Or.inr ⟨counted, effect, known, rfl, cancels'⟩) open_
  | purged runId ended free leases =>
    unfold HeldBy
    rw [leases]
    refine List.mem_filter.mpr ⟨held, decide_eq_true fun same => ?_⟩
    cases free e.lease held same

theorem begins_only (tidy : Tidy t) (known : e ∈ t.effects) (held : HeldBy t e) {f : McpEffect}
    (other : f ∈ t.effects) (distinct : f ≠ e) (same : f.endpointHash = e.endpointHash)
    {attemptNo : Nat} (commit : desktopStore.exec (.begin f.id attemptNo) t = .ok (answer, t')) :
    f.cancelTarget = some e.id ∧ f.runId = e.runId := by
  obtain ⟨_, begins, -⟩ := answering_eq_ok.mp commit
  obtain ⟨-, effect, member, id, -, leases, old, acquires, -⟩ := beginEffect_eq_ok begins
  obtain rfl := tidy.effects.eq_of_key member other id
  have found := acquires.finds tidy.leases held same.symm
  obtain ⟨run, own | cancels⟩ := acquires.pending found
  · exact absurd (tidy.effects.eq_of_key member known own) distinct
  · exact ⟨cancels, run⟩

theorem Acquires.stays_or_free {runId : Uuid} {begins cancelTarget : Option Uuid}
    {old lease : McpDesktopLease}
    (acquires : Acquires t t' key runId begins cancelTarget leases old)
    (keyed : Keyed McpDesktopLease.endpointHash t.leases) (known : lease ∈ t.leases) :
    (∃ later ∈ t'.leases, later.endpointHash = lease.endpointHash ∧ later.runId = lease.runId) ∨
      (lease.pendingEffectId = none ∧ runEnded t lease.runId = true) := by
  by_cases hit : lease.endpointHash = key
  · obtain rfl := acquires.finds keyed known hit
    by_cases same : old.runId = runId
    · refine Or.inl ⟨{ old with
        runId := runId
        pendingEffectId := begins.or old.pendingEffectId }, ?_, rfl, same.symm⟩
      rw [acquires.writes.written]
      exact mem_replaceRow_self acquires.writes.known rfl
    · exact Or.inr (acquires.free same)
  · refine Or.inl ⟨lease, acquires.writes.kept keyed known fun found => ?_, rfl, rfl⟩
    exact absurd (found ▸ acquires.key) hit

theorem stays_or_free (tidy : Tidy t) (move : DesktopMove t action t') {lease : McpDesktopLease}
    (known : lease ∈ t.leases) :
    (∃ later ∈ t'.leases, later.endpointHash = lease.endpointHash ∧ later.runId = lease.runId) ∨
      (lease.pendingEffectId = none ∧ runEnded t lease.runId = true) := by
  cases move with
  | same leases => exact Or.inl ⟨lease, leases ▸ known, rfl, rfl⟩
  | released releases keyed =>
    have listed : lease.endpointHash ∈ t'.leases.map McpDesktopLease.endpointHash :=
      keyed ▸ List.mem_map_of_mem known
    obtain ⟨later, member, key⟩ := List.mem_map.mp listed
    obtain ⟨before, there, sameKey, run⟩ := releases.source later member
    rw [tidy.leases.eq_of_key there known (sameKey.trans key)] at run
    exact Or.inl ⟨later, member, key, run.symm⟩
  | read key runId leases old acquires => exact acquires.stays_or_free tidy.leases known
  | begins effect attemptNo leases old member acts counted original acquires =>
    exact acquires.stays_or_free tidy.leases known
  | purged runId ended free leases =>
    by_cases mine : lease.runId = runId
    · exact Or.inr ⟨free lease known mine, mine ▸ ended⟩
    · refine Or.inl ⟨lease, ?_, rfl, rfl⟩
      rw [leases]
      exact List.mem_filter.mpr ⟨known, decide_eq_true mine⟩

/-- The window of an operation, with the effects on its desktop that had begun before it. -/
structure Window (e : McpEffect) (begun : List Uuid) (t : DesktopTables) : Prop where
  tidy : Tidy t
  known : e ∈ t.effects
  held : HeldBy t e
  before : ∀ f ∈ t.effects, f ≠ e → f.endpointHash = e.endpointHash → f.id ∈ t.started →
    f.id ∈ begun

theorem Window.kept {begun : List Uuid} (window : Window e begun t)
    (open_ : ¬ Ends e t action) (commit : desktopStore.exec action t = .ok (answer, t')) :
    Window e begun t' := by
  have move := execDesktop_moves window.tidy commit
  refine ⟨tidy_invariant _ _ _ _ window.tidy commit, mem_effects commit window.known,
    heldBy_kept window.tidy window.known window.held move open_, ?_⟩
  intro f member distinct same started
  rcases move.mem_started started with was | ⟨effect, known, id, attemptNo, rfl⟩
  · obtain ⟨effect, known, id⟩ := window.tidy.started f.id was
    have tidy' := tidy_invariant _ _ _ _ window.tidy commit
    rw [← tidy'.effects.eq_of_key (mem_effects commit known) member id] at was distinct same ⊢
    exact window.before effect known distinct same was
  · have tidy' := tidy_invariant _ _ _ _ window.tidy commit
    obtain rfl := tidy'.effects.eq_of_key (mem_effects commit known) member id
    obtain ⟨cancels, -⟩ := begins_only window.tidy window.known window.held known distinct same
      commit
    obtain ⟨_, begins, -⟩ := answering_eq_ok.mp commit
    obtain ⟨counted, request, there, named, original, -⟩ := beginEffect_eq_ok begins
    obtain rfl := window.tidy.effects.eq_of_key there known named
    refine absurd (Or.inr ⟨counted, request, known, rfl, ?_⟩) open_
    refine cancels_of_named window.tidy window.known original cancels (fun own => ?_) same
    exact distinct (window.tidy.effects.eq_of_key known window.known own)

theorem window_opened (tidy : Tidy t) (known : e ∈ t.effects) {attemptNo : Nat}
    (commit : desktopStore.exec (.begin e.id attemptNo) t = .ok (answer, t')) :
    Window e t.started t' ∧ ∀ f ∈ t.effects, f ≠ e → f.endpointHash = e.endpointHash →
      HeldBy t f → e.cancelTarget = some f.id := by
  obtain ⟨_, begins, -⟩ := answering_eq_ok.mp commit
  obtain ⟨-, effect, member, id, -, leases, old, acquires, started⟩ := beginEffect_eq_ok begins
  obtain rfl := tidy.effects.eq_of_key member known id
  refine ⟨⟨tidy_invariant _ _ _ _ tidy commit, mem_effects commit known, ?_, ?_⟩, ?_⟩
  · have written : t'.leases = _ := acquires.writes.written
    unfold HeldBy
    rw [written]
    have shape : effect.lease = { old with
        runId := effect.runId
        pendingEffectId := (some effect.id).or old.pendingEffectId } := by
      rw [McpEffect.lease, ← acquires.key]
      rfl
    rw [shape]
    exact mem_replaceRow_self acquires.writes.known rfl
  · intro f later distinct same begun
    rw [started] at begun
    split at begun
    · rcases List.mem_cons.mp begun with own | before
      · have tidy' := tidy_invariant _ _ _ _ tidy commit
        exact absurd (tidy'.effects.eq_of_key later (mem_effects commit known) own) distinct
      · exact before
    · exact begun
  · intro f other distinct same held
    obtain ⟨-, own | cancels⟩ := acquires.pending (acquires.finds tidy.leases held same)
    · exact absurd (tidy.effects.eq_of_key other known own.symm) distinct
    · exact cancels

/-- **A desktop has one operation at a time, and passes on when its Run is over**, in every run of
the effects and reads of any number of Runs.  In the window of an operation nothing else begins
there but a cancel request of the same Run that names it, which takes its place; another call that
is sent in the window is a late one, of an effect that had begun before, and whose operation was no
longer pending, unless this one was to cancel it. -/
theorem desktop_exclusive (before middle : List DesktopAction) :
    let t := desktopStore.run DesktopTables.empty before
    (∀ e ∈ t.effects, ∀ attemptNo answer t₁,
      desktopStore.exec (.begin e.id attemptNo) t = .ok (answer, t₁) →
      desktopStore.Along (fun s action => ¬ Ends e s action) t₁ middle →
      let s := desktopStore.run t₁ middle
      HeldBy s e ∧
      ∀ f ∈ s.effects, f ≠ e → f.endpointHash = e.endpointHash →
        (∀ attempt answer s', desktopStore.exec (.begin f.id attempt) s = .ok (answer, s') →
          f.cancelTarget = some e.id ∧ f.runId = e.runId) ∧
        (∀ answer s', desktopStore.exec (.send f.id) s = .ok (answer, s') →
          f.id ∈ t.started ∧ (HeldBy t f → e.cancelTarget = some f.id))) ∧
    (∀ action answer t', desktopStore.exec action t = .ok (answer, t') →
      ∀ lease ∈ t.leases, ∀ later ∈ t'.leases, later.endpointHash = lease.endpointHash →
        later.runId ≠ lease.runId →
        lease.pendingEffectId = none ∧ runEnded t lease.runId = true) := by
  intro t
  have tidy : Tidy t := tidy_invariant.run tidy_empty before
  refine ⟨fun e known attemptNo answer t₁ commit along => ?_, ?_⟩
  · obtain ⟨opened, taken⟩ := window_opened tidy known commit
    have window : Window e t.started (desktopStore.run t₁ middle) :=
      TransactionSystem.run_of_along (fun _ _ _ _ window open_ => window.kept open_) opened along
    refine ⟨window.held, fun f member distinct same => ⟨fun attempt answer s' begins => ?_,
      fun answer s' sends => ?_⟩⟩
    · exact begins_only window.tidy window.known window.held member distinct same begins
    · have sent := finished_eq_ok sends
      simp only [sendCall, bind_eq_ok, require_eq_ok, exists_unit] at sent
      have begun := window.before f member distinct same sent.1.1
      refine ⟨begun, fun held => ?_⟩
      obtain ⟨effect, there, id⟩ := tidy.started f.id begun
      have later := (mem_effects_invariant effect).run (mem_effects commit there) middle
      obtain rfl := window.tidy.effects.eq_of_key later member id
      exact taken effect there distinct same held
  · intro action answer t' commit lease known later member key passed
    have tidy' := tidy_invariant _ _ _ _ tidy commit
    rcases stays_or_free tidy (execDesktop_moves tidy commit) known with
      ⟨stays, there, same, run⟩ | free
    · rw [tidy'.leases.eq_of_key member there (key.trans same.symm)] at passed
      exact absurd run passed
    · exact free

def sampleEffect : McpEffect := ⟨11, 1, 5, "desktop", none⟩

def sampleCancel : McpEffect := ⟨12, 1, 5, "desktop", some 11⟩

def sampleNext : McpEffect := ⟨13, 1, 5, "desktop", none⟩

def sampleBefore : List DesktopAction :=
  [.moveRun ⟨1, .running⟩, .insertEffect sampleEffect, .insertEffect sampleCancel,
    .insertEffect sampleNext]

/-- The request is confirmed, and the next operation begins; the end of the first is not. -/
def sampleMiddle : List DesktopAction :=
  [.send 11, .begin 12 1, .send 12, .confirm 12, .begin 13 1]

/-- The call of another effect is sent although the end of the operation is not confirmed: once the
request to cancel it is confirmed the next effect begins, and while the request is pending the
effect that it cancels may still send its own call. -/
theorem desktop_shared_sample :
    (¬ ∀ before middle : List DesktopAction,
      let t := desktopStore.run DesktopTables.empty before
      ∀ e ∈ t.effects, ∀ f ∈ t.effects, ∀ answer t₁, f.endpointHash = e.endpointHash →
        desktopStore.exec (.begin e.id 1) t = .ok (answer, t₁) →
        desktopStore.Along (fun _ action => confirmsEnd e action = false) t₁ middle →
        ∀ answer s', desktopStore.exec (.send f.id) (desktopStore.run t₁ middle) =
          .ok (answer, s') → f = e ∨ (f.cancelTarget = some e.id ∧ f.runId = e.runId)) ∧
    ∃ answer t₁ sent s', desktopStore.exec (.begin 12 1)
        (desktopStore.run DesktopTables.empty (sampleBefore ++ [.begin 11 1])) = .ok (answer, t₁) ∧
      desktopStore.exec (.send 11) t₁ = .ok (sent, s') := by
  refine ⟨fun exclusive => ?_, _, _, _, _, rfl, rfl⟩
  have shared := exclusive sampleBefore sampleMiddle sampleEffect (by decide) sampleNext (by decide)
    (.held ⟨"desktop", 1, true⟩) _ rfl rfl ⟨rfl, rfl, rfl, rfl, rfl, trivial⟩ .done _ rfl
  revert shared
  decide

end SkillMind.Agent
