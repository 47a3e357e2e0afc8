import SkillMind.Documents.Binding
import SkillMind.Runs.EffectFencing
import SkillMind.Runs.RepositoryInputs

/-!
# A receipt is sealed once

Every call either leaves the receipts as they are, starts the one preparation of the Run, or
completes it. A Run therefore has at most one receipt, whose files are written once, under the
lease of the attempt that started it, and every receipt in the store is one the reader accepts, in
whatever state its Run is by then.
-/

namespace SkillMind.Runs

open Library SkillMind.Core

variable {settings : InputSettings} {s s' : InputTables} {run : Run} {claim : InputClaim}
  {row : RunInputSnapshot}

theorem recordOf_frozen {later : Run} (same : later.frozen = run.frozen) :
    recordOf settings row later = recordOf settings row run := by
  have sameId : later.id = run.id := (congrArg Run.id same :)
  have sameProject : later.projectId = run.projectId := (congrArg Run.projectId same :)
  unfold recordOf runSourceChecksum
  rw [sameId, sameProject]

variable {record : InputSnapshotRecord settings.unicode}

theorem recordOf_eq_ok :
    recordOf settings row run = .ok record ↔
      (row.projectId = run.projectId ∧ row.sourceChecksum = runSourceChecksum settings run) ∧
      ∃ files, parseInputFiles settings.unicode row.filesJson = .ok files ∧
        (row.totalFiles = files.length ∧
          row.totalBytes = (files.map InputFileSeal.size).sum) ∧
        checkStage settings row files = .ok () ∧
        ⟨row.id, row.projectId, row.runId, row.preparedByAttemptId, row.sourceChecksum,
          row.status, files, row.treeChecksum, row.completedAt⟩ = record := by
  simp only [recordOf, bind_eq_ok, require_eq_ok, exists_unit, pure_eq_ok]

theorem recordOf_newSnapshot (id : Uuid) (now : Timestamp) :
    ∃ record, recordOf settings (newSnapshot settings run claim id now) run = .ok record := by
  refine ⟨_, recordOf_eq_ok.mpr ⟨⟨rfl, rfl⟩, [], rfl, ⟨rfl, rfl⟩, ?_, rfl⟩⟩
  exact require_of ⟨rfl, rfl, rfl⟩

variable {files : List (InputFileSeal settings.unicode)}

theorem recordOf_files
    (recorded : recordOf settings row run = .ok record)
    (stored : row.filesJson = serializeFiles files) : record.files = files := by
  obtain ⟨-, read, parsed, -, -, rfl⟩ := recordOf_eq_ok.mp recorded
  rw [stored, parseInputFiles_serialized] at parsed
  exact parsed.1

/-- What a call is checked for before it reads or writes a receipt. -/
structure Authorized (settings : InputSettings) (s : InputTables) (claim : InputClaim)
    (now : Timestamp) (run : Run) : Prop where
  found : s.runs.run = some run
  leased : ∃ attempt ∈ s.runs.attempts, attempt.id = claim.claimed.runAttemptId ∧
    validateClaimedLease settings.runs.leaseTokenHash attempt claim.claimed now = .ok ()
  calm : isCancellationRequested s.runs = false
  status : run.status = .preparing ∨ run.status = .running

theorem authorizeInputs_eq_ok {now : Timestamp}
    (authorized : authorizeInputs settings s claim now = .ok run) :
    Authorized settings s claim now run := by
  simp only [authorizeInputs, bind_eq_ok, Prod.exists, mapError_eq_ok, require_eq_ok, exists_unit,
    pure_eq_ok] at authorized
  obtain ⟨run, _, attempt, locked, calm, valid, ⟨-, status⟩, -, rfl⟩ := authorized
  obtain ⟨found, member, same, -⟩ := lockClaimedExecution_eq_ok claim.issued.named locked
  exact ⟨found, ⟨attempt, member, same, valid⟩, calm, status⟩

theorem ownSnapshot_eq_ok {snapshotId : Uuid} {message : String}
    (owned : ownSnapshot s run claim snapshotId message = .ok row) :
    row ∈ s.snapshots ∧ row.runId = run.id ∧ row.id = snapshotId ∧
      row.preparedByAttemptId = claim.claimed.runAttemptId := by
  simp only [ownSnapshot, orFault_eq_ok, Option.filter_eq_some_iff, decide_eq_true_eq] at owned
  obtain ⟨found, same, own⟩ := owned
  obtain ⟨member, ofRun⟩ := find_key found
  exact ⟨member, ofRun, same, own⟩

/-- The seal of a receipt: a call of the attempt that started it writes the files, under the
lease of the attempt and before any cancellation. -/
structure Sealed (settings : InputSettings) (action : InputAction settings) (s : InputTables)
    (row row' : RunInputSnapshot) : Prop where
  preparing : row.status = .preparing
  sealed : ∃ claim files now completed fate,
    action = .complete claim row.id files now completed fate ∧
    row' = completedSnapshot settings row files completed ∧
    row.preparedByAttemptId = claim.claimed.runAttemptId ∧
    ∃ run, Authorized settings s claim now run

inductive ReceiptMove (settings : InputSettings) (action : InputAction settings)
    (s : InputTables) : InputTables → Prop where
  | none : ReceiptMove settings action s s
  | run {runs : RunTables} (moves : Moves (fun _ => True) s.runs runs) :
      ReceiptMove settings action s { s with runs }
  | begun {run : Run} {claim : InputClaim} {now : Timestamp} (id : Uuid) (created : Timestamp)
      (authorized : Authorized settings s claim now run)
      (absent : ∀ row ∈ s.snapshots, row.runId ≠ run.id) :
      ReceiptMove settings action s
        { s with snapshots := s.snapshots ++ [newSnapshot settings run claim id created] }
  | completed {run : Run} {row row' : RunInputSnapshot} (found : s.runs.run = some run)
      (member : row ∈ s.snapshots) (ofRun : row.runId = run.id)
      (sealing : Sealed settings action s row row')
      (accepted : ∃ record, recordOf settings row' run = .ok record) :
      ReceiptMove settings action s
        { s with snapshots := replaceRow RunInputSnapshot.id row' s.snapshots }

variable {action : InputAction settings}

theorem beginInputs_move {id : Uuid} {now created : Timestamp}
    {claimed : Bool}
    (committed : beginInputs settings s claim id now created = .ok ((record, claimed), s')) :
    ReceiptMove settings action s s' := by
  simp only [beginInputs, bind_eq_ok] at committed
  obtain ⟨run, authorized, committed⟩ := committed
  split at committed
  · simp only [bind_eq_ok, pure_eq_ok, Prod.mk.injEq] at committed
    obtain ⟨_, -, -, rfl⟩ := committed
    exact .none
  · rename_i absent
    simp only [bind_eq_ok, pure_eq_ok, Prod.mk.injEq] at committed
    obtain ⟨_, -, -, rfl⟩ := committed
    exact .begun id created (authorizeInputs_eq_ok authorized) (by simpa [snapshotOf] using absent)

/-- What `complete` returns is committed with exactly the given files. -/
structure Completes (settings : InputSettings) (s' : InputTables) (claim : InputClaim)
    (snapshotId : Uuid) (files : List (InputFileSeal settings.unicode))
    (record : InputSnapshotRecord settings.unicode) : Prop where
  files : record.files = files
  committed : ∃ row ∈ s'.snapshots, row.id = snapshotId ∧
    row.preparedByAttemptId = claim.claimed.runAttemptId ∧ row.status = .ready ∧
    ∃ run, s'.runs.run = some run ∧ row.runId = run.id ∧ recordOf settings row run = .ok record

theorem completeInputs_move {snapshotId : Uuid}
    {now completed : Timestamp}
    (fate : CommitFate)
    (committed : completeInputs settings s claim snapshotId files now completed =
      .ok (record, s')) :
    ReceiptMove settings (.complete claim snapshotId files now completed fate) s s' ∧
      Completes settings s' claim snapshotId files record := by
  simp only [completeInputs, bind_eq_ok, mapError_eq_ok] at committed
  obtain ⟨run, authorized, row, owned, stored, recorded, read, parsed, committed⟩ := committed
  obtain rfl : files = read := (parseInputFiles_serialized.mp parsed).1.symm
  obtain ⟨member, ofRun, same, own⟩ := ownSnapshot_eq_ok owned
  have allowed := authorizeInputs_eq_ok authorized
  have status : stored.status = row.status := by
    obtain ⟨-, _, -, -, -, rfl⟩ := recordOf_eq_ok.mp recorded
    rfl
  split at committed
  · rename_i isReady
    simp only [bind_eq_ok, require_eq_ok, exists_unit, pure_eq_ok, Prod.mk.injEq] at committed
    obtain ⟨⟨sameFiles, -⟩, rfl, rfl⟩ := committed
    exact ⟨.none, sameFiles, row, member, same, own, status ▸ isReady, run, allowed.found, ofRun,
      recorded⟩
  · rename_i notReady
    have preparing : row.status = .preparing := by
      rw [status] at notReady
      cases isReady : row.status with
      | preparing => rfl
      | ready => exact absurd isReady notReady
    simp only [bind_eq_ok, require_eq_ok, exists_unit, mapError_eq_ok, pure_eq_ok,
      Prod.mk.injEq] at committed
    obtain ⟨-, _, written, rfl, rfl⟩ := committed
    have sealing : Sealed settings (.complete claim snapshotId files now completed fate) s row
        (completedSnapshot settings row files completed) :=
      ⟨preparing, claim, files, now, completed, fate, by rw [same], rfl, own, run, allowed⟩
    refine ⟨.completed allowed.found member ofRun sealing ⟨_, written⟩, ?_, ?_⟩
    · exact recordOf_files written rfl
    · exact ⟨_, mem_replaceRow_self member rfl, same, own, rfl, run, allowed.found, ofRun, written⟩

theorem confirmCompleted_completes {snapshotId : Uuid}
    {now : Timestamp}
    (confirmed : confirmCompleted settings s claim snapshotId files now = .ok record) :
    Completes settings s claim snapshotId files record := by
  simp only [confirmCompleted, bind_eq_ok, mapError_eq_ok, require_eq_ok, exists_unit,
    pure_eq_ok] at confirmed
  obtain ⟨run, authorized, row, owned, _, recorded, ⟨isReady, sameFiles, -⟩, rfl⟩ := confirmed
  obtain ⟨member, ofRun, same, own⟩ := ownSnapshot_eq_ok owned
  have status := isReady
  obtain ⟨-, _, -, -, -, rfl⟩ := recordOf_eq_ok.mp recorded
  exact ⟨sameFiles, row, member, same, own, status, run,
    (authorizeInputs_eq_ok authorized).found, ofRun, recorded⟩

theorem execInputs_move {answer : InputAnswer settings}
    (kept : WellKept s.runs) (committed : execInputs settings action s = .ok (answer, s')) :
    ReceiptMove settings action s s' := by
  cases action with
  | run action =>
    simp only [execInputs, map_eq_ok, mapError_eq_ok, Prod.exists, Prod.mk.injEq]
      at committed
    obtain ⟨_, runs, executed, -, rfl⟩ := committed
    exact .run (execRun_moves kept (fun _ _ => trivial) executed)
  | begin claim id now created fate =>
    obtain ⟨⟨value, after⟩, settled, ended⟩ := map_eq_ok.mp committed
    obtain ⟨-, rfl⟩ := Prod.mk.inj ended
    rcases fate.settle_cases settled with ⟨⟨record, claimed⟩, begun⟩ | ⟨-, rfl⟩
    · exact beginInputs_move begun
    · exact .none
  | complete claim snapshotId files now completed fate =>
    obtain ⟨⟨value, after⟩, settled, ended⟩ := map_eq_ok.mp committed
    obtain ⟨-, rfl⟩ := Prod.mk.inj ended
    rcases fate.settle_cases settled with ⟨record, written⟩ | ⟨-, rfl⟩
    · exact (completeInputs_move fate written).1
    · exact .none
  | confirmCompleted claim snapshotId files now =>
    simp only [execInputs, map_eq_ok, Prod.mk.injEq] at committed
    obtain ⟨_, -, -, rfl⟩ := committed
    exact .none

structure ReceiptsKept (settings : InputSettings) (s : InputTables) : Prop where
  kept : WellKept s.runs
  single : s.snapshots.length ≤ 1
  recorded : ∀ row ∈ s.snapshots, ∃ run, s.runs.run = some run ∧ row.runId = run.id ∧
    ∃ record, recordOf settings row run = .ok record

theorem receiptsKept_empty : ReceiptsKept settings InputTables.empty :=
  ⟨wellKept_empty, Nat.zero_le _, fun _ mem => nomatch mem⟩

theorem ReceiptMove.kept (move : ReceiptMove settings action s s')
    (before : ReceiptsKept settings s) :
    ReceiptsKept settings s' := by
  cases move with
  | none => exact before
  | run moves =>
    refine ⟨moves.wellKept before.kept, before.single, fun row mem => ?_⟩
    obtain ⟨run, found, ofRun, record, recorded⟩ := before.recorded row mem
    obtain ⟨later, foundLater, same⟩ := (moves.frame before.kept).run run found
    refine ⟨later, foundLater, ?_, record, ?_⟩
    · exact ofRun.trans (congrArg Run.id same :).symm
    · rw [recordOf_frozen same]
      exact recorded
  | begun id created authorized absent =>
    have nothing : s.snapshots = [] := by
      rw [List.eq_nil_iff_forall_not_mem]
      intro row mem
      obtain ⟨run, found, ofRun, -⟩ := before.recorded row mem
      obtain rfl := Option.some.inj (found.symm.trans authorized.found)
      exact absent row mem ofRun
    refine ⟨before.kept, by simp [nothing], fun row mem => ?_⟩
    rw [nothing, List.nil_append, List.mem_singleton] at mem
    subst mem
    exact ⟨_, authorized.found, rfl, recordOf_newSnapshot id created⟩
  | @completed run row row' found member ofRun sealing accepted =>
    refine ⟨before.kept, by simpa using before.single, fun other mem => ?_⟩
    rcases mem_replaceRow mem with ⟨rfl, -⟩ | ⟨old, -⟩
    · obtain ⟨-, _, _, _, _, _, -, rfl, -⟩ := sealing
      exact ⟨run, found, ofRun, accepted⟩
    · exact before.recorded other old

theorem receiptsKept_invariant : (inputStore settings).Invariant (ReceiptsKept settings) :=
  fun _ _ _ _ before committed => (execInputs_move before.kept committed).kept before

theorem ReceiptMove.forward (move : ReceiptMove settings action s s')
    (before : ReceiptsKept settings s) (mem : row ∈ s.snapshots) :
    ∃ row' ∈ s'.snapshots, row'.id = row.id ∧ (row' = row ∨ Sealed settings action s row row') := by
  cases move with
  | none => exact ⟨row, mem, rfl, .inl rfl⟩
  | run => exact ⟨row, mem, rfl, .inl rfl⟩
  | begun => exact ⟨row, List.mem_append_left _ mem, rfl, .inl rfl⟩
  | @completed run old row' found member ofRun sealing accepted =>
    obtain rfl : row = old := by
      have single := before.single
      match s.snapshots, single, mem, member with
      | [only], _, mem, member =>
        rw [List.mem_singleton.mp mem, List.mem_singleton.mp member]
    refine ⟨row', mem_replaceRow_self member ?_, ?_, .inr sealing⟩ <;>
      obtain ⟨-, _, _, _, _, _, -, rfl, -⟩ := sealing <;> rfl

theorem ready_invariant (isReady : row.status = .ready) :
    (inputStore settings).Invariant fun s => ReceiptsKept settings s ∧ row ∈ s.snapshots := by
  rintro s action answer s' ⟨before, mem⟩ committed
  have move := execInputs_move before.kept committed
  refine ⟨move.kept before, ?_⟩
  obtain ⟨row', mem', -, same | sealing⟩ := move.forward before mem
  · exact same ▸ mem'
  · exact absurd (isReady.symm.trans sealing.preparing) (by decide)

theorem completeThroughStore_completes {snapshotId : Uuid}
    {now completed later : Timestamp}
    {fate : CommitFate} {meanwhile : List (InputAction settings)}
    (returned : completeThroughStore settings s claim snapshotId files now completed later fate
      meanwhile = .ok (record, s')) : Completes settings s' claim snapshotId files record := by
  simp only [completeThroughStore, bind_eq_ok, Prod.exists] at returned
  obtain ⟨answer, written, settled, returned⟩ := returned
  cases answer with
  | some own =>
    obtain ⟨rfl, rfl⟩ := Prod.mk.inj (Except.ok.inj returned)
    exact (completeInputs_move fate (fate.settle_some settled)).2
  | none =>
    simp only [bind_eq_ok, pure_eq_ok, Prod.mk.injEq] at returned
    obtain ⟨_, confirmed, rfl, rfl⟩ := returned
    exact confirmCompleted_completes confirmed

/-- **Input receipts are sealed once.**  In every state of every run: the Run has at most one
receipt, and the reader accepts it; a call keeps each receipt or seals it, and only for the
attempt that started it, under its lease and before a cancellation; a sealed receipt never
changes; `complete` returns only when the committed receipt has exactly the given files; and a
refused call changes no row. -/
theorem input_receipts_sealed (settings : InputSettings) (actions : List (InputAction settings)) :
    let store := inputStore settings
    let s := store.run InputTables.empty actions
    s.snapshots.length ≤ 1 ∧
    (∀ row ∈ s.snapshots, ∃ run, s.runs.run = some run ∧ row.runId = run.id ∧
      ∃ record, recordOf settings row run = .ok record) ∧
    (∀ action, ∀ row ∈ s.snapshots, ∃ row' ∈ (store.step s action).snapshots,
      row'.id = row.id ∧ (row' = row ∨ Sealed settings action s row row')) ∧
    (∀ row ∈ s.snapshots, row.status = .ready →
      ∀ later, row ∈ (store.run s later).snapshots) ∧
    (∀ claim snapshotId files now completed later fate meanwhile record s',
      completeThroughStore settings s claim snapshotId files now completed later fate meanwhile =
        .ok (record, s') → Completes settings s' claim snapshotId files record) ∧
    (∀ action fault, store.exec action s = .error fault → store.step s action = s) := by
  intro store s
  have before : ReceiptsKept settings s := receiptsKept_invariant.run receiptsKept_empty actions
  refine ⟨before.single, before.recorded, fun action row mem => ?_, ?_,
    fun _ _ _ _ _ _ _ _ _ _ => completeThroughStore_completes, fun _ _ => store.step_of_fault⟩
  · cases outcome : store.exec action s with
    | error fault =>
      rw [store.step_of_fault outcome]
      exact ⟨row, mem, rfl, .inl rfl⟩
    | ok result =>
      obtain ⟨answer, s'⟩ := result
      rw [store.step_of_commit outcome]
      exact (execInputs_move before.kept outcome).forward before mem
  · intro row mem isReady later
    exact ((ready_invariant isReady).run ⟨before, mem⟩ later).2

end SkillMind.Runs
