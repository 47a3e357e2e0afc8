import SkillMind.Runs.CreationReplay

/-!
# A key makes one Run

A Run that was made for a request keeps what the request is checked against, whatever happens to
it later, so that its key returns it to the same request and to no other.  A key whose Run was
deleted makes no Run again.
-/

namespace SkillMind.Runs.Creation

open Library SkillMind.Core
open Documents (UnicodeTables member)
open Effects (uuidText textAt sha256Hex objectColumn objectColumn_dumps)
open Evaluations (NoCollision)

variable {library : StandardLibrary} {tables : UnicodeTables}
  {deriveTaskId : Uuid → String → Uuid}

theorem sha256Hex_inj {first second : String}
    (same : sha256Hex library first = sha256Hex library second) :
    library.sha256 first = library.sha256 second :=
  Evaluations.digest_ext (String.ofList_injective same)

theorem fingerprint_eq_iff {first second : TaskRunIntent}
    (formed : first.toJson.wellFormed = true) (formed' : second.toJson.wellFormed = true)
    (apart : NoCollision library first.toJson second.toJson) :
    first.fingerprint library = second.fingerprint library ↔ first.toJson.Same second.toJson := by
  rw [← canonicalJson_eq_iff formed formed']
  constructor
  · exact fun same => apart (sha256Hex_inj same)
  · intro same
    rw [TaskRunIntent.fingerprint, TaskRunIntent.fingerprint, same]

namespace PreparedCommand

variable (p : PreparedCommand tables deriveTaskId)

theorem formed : p.intent.toJson.wellFormed = true :=
  TaskRunIntent.toJson_wellFormed (p.input ▸ p.inputFormed) p.distinct

theorem read : TaskRunIntent.fromJson tables p.intent.toJson = .ok p.intent :=
  TaskRunIntent.fromJson_toJson p.made

theorem key_eq : p.command.key =
    (p.intent.projectId, deriveTaskId p.intent.skillVersionId p.intent.taskKey,
      p.command.idempotencyKey) := by
  rw [CreateRunCommand.key, p.project, p.task]

theorem requestHash_eq {command : CreateRunCommand}
    (project : command.projectId = p.command.projectId) (task : command.taskId = p.command.taskId)
    (input : command.input = p.command.input)
    (snapshot : command.taskSnapshot = p.command.taskSnapshot)
    (permission : command.permissionSnapshot = p.command.permissionSnapshot) :
    requestHash library tables deriveTaskId command = .ok (p.intent.fingerprint library) := by
  have fits : p.intent.projectId = command.projectId ∧
      deriveTaskId p.intent.skillVersionId p.intent.taskKey = command.taskId ∧
      textAt command.taskSnapshot "skill_version_id" =
        some (uuidText p.intent.skillVersionId) ∧
      textAt command.taskSnapshot "task_key" = some p.intent.taskKey ∧
      textAt command.permissionSnapshot "actor_id" = some (uuidText p.intent.actorId) ∧
      canonicalJson (.object command.input) = canonicalJson (.object p.intent.input) := by
    rw [project, task, input, snapshot, permission, p.project, p.task, p.input]
    exact ⟨rfl, rfl, p.version, p.taskKey, p.actor, rfl⟩
  rw [requestHash, snapshot, p.request]
  simp only [p.read, ok_bind]
  rw [← snapshot, require_of fits]
  rfl

end PreparedCommand

/-- The Run was made for this command: its columns are those of the command, but for the sources,
which the bindings of the Run are written into. -/
structure Records (library : StandardLibrary) (p : PreparedCommand tables deriveTaskId)
    (row : RunRow) : Prop where
  key : row.key = p.command.key
  hash : row.requestHash = p.intent.fingerprint library
  input : row.input = dumps (.object p.command.input)
  task : row.taskSnapshot = dumps (.object p.command.taskSnapshot)
  permission : row.permissionSnapshot = dumps (.object p.command.permissionSnapshot)
  limits : row.limitsSnapshot = dumps (.object p.command.limitsSnapshot)
  selected : ∃ fields, (Json.object fields).wellFormed = true ∧
    row.selectedSources = dumps (.object fields)

variable {p q : PreparedCommand tables deriveTaskId} {row : RunRow} {t t' : CreationTables}

theorem Records.stored (records : Records library p row) :
    storedCreationIntent library tables deriveTaskId row = .ok p.intent := by
  obtain ⟨fields, formed, selected⟩ := records.selected
  obtain ⟨skills, skillsAt⟩ := p.skills
  have key := records.key
  simp only [RunRow.key, CreateRunCommand.key, Prod.mk.injEq] at key
  obtain ⟨project, task, -⟩ := key
  have place : p.intent.projectId = row.projectId ∧
      deriveTaskId p.intent.skillVersionId p.intent.taskKey = row.taskId := by
    rw [project, task, p.project, p.task]
    exact ⟨rfl, rfl⟩
  simp only [storedCreationIntent, storedCommand, originalIntent, mapError_eq_ok, records.task,
    records.input, records.permission, records.limits, selected, objectColumn_dumps p.taskFormed,
    objectColumn_dumps p.inputFormed, objectColumn_dumps p.permissionFormed,
    objectColumn_dumps formed, objectColumn_dumps p.limitsFormed, skillsAt, orFault_some, ok_bind,
    pure_bind, p.request, p.read, require_of place]
  have hash (sources : List (String × Json)) :
      requestHash library tables deriveTaskId
        { projectId := row.projectId, taskId := row.taskId,
          idempotencyKey := row.idempotencyKey, input := p.command.input,
          taskSnapshot := p.command.taskSnapshot,
          permissionSnapshot := p.command.permissionSnapshot, selectedSources := sources,
          limitsSnapshot := p.command.limitsSnapshot, skillSnapshots := skills,
          budgetPolicy := none } = .ok (p.intent.fingerprint library) :=
    p.requestHash_eq project task rfl rfl rfl
  rw [hash, ok_bind, require_of records.hash.symm]
  rfl

theorem Records.validated (records : Records library p row)
    (apart : NoCollision library p.intent.toJson q.intent.toJson) :
    (p.intent.toJson.Same q.intent.toJson →
      validateCreationReplay library tables deriveTaskId row q.intent = .ok ()) ∧
    (¬ p.intent.toJson.Same q.intent.toJson →
      validateCreationReplay library tables deriveTaskId row q.intent =
        .error differentRequest) := by
  have same := fingerprint_eq_iff p.formed q.formed apart
  rw [validateCreationReplay, records.stored, ok_bind]
  constructor
  · exact fun alike => require_of (same.mpr alike)
  · intro other
    rw [require, if_neg (fun found => other (same.mp found))]

theorem records_inserted (runId : Uuid) (now : Timestamp) :
    Records library p
      (insertedRun p.command (p.intent.fingerprint library) runId now) :=
  ⟨rfl, rfl, rfl, rfl, rfl, rfl, _, p.selectedFormed, rfl⟩

theorem loadByIdempotency_eq_some {key : CreationKey}
    (found : loadByIdempotency t key = some row) : row ∈ t.runs ∧ row.key = key := by
  have matched := List.find?_some found
  exact ⟨List.mem_of_find?_eq_some found, of_decide_eq_true matched⟩

theorem loadByIdempotency_eq_none {key : CreationKey} :
    loadByIdempotency t key = none ↔ ∀ row ∈ t.runs, row.key ≠ key := by
  simp [loadByIdempotency]

theorem createIdempotent_eq_ok {known : Bool} {runId : Uuid} {now : Timestamp}
    {answer : CreatedRun} :
    createIdempotent library tables deriveTaskId known runId now p.command t = .ok (answer, t') ↔
      (∀ audit ∈ t.deletions, audit.key ≠ p.command.key) ∧
      ((∃ row, loadByIdempotency t p.command.key = some row ∧
          validateCreationReplay library tables deriveTaskId row p.intent = .ok () ∧
          row.created true = answer ∧ t = t') ∨
        (loadByIdempotency t p.command.key = none ∧ known = true ∧
          (∀ policy ∈ p.command.budgetPolicy, Effects.sameValue
            (member p.command.limitsSnapshot "budget_policy") (some (.object policy)) = true) ∧
          (insertedRun p.command (p.intent.fingerprint library) runId now).created false =
            answer ∧
          { t with runs := t.runs ++
              [insertedRun p.command (p.intent.fingerprint library) runId now] } = t')) := by
  rw [createIdempotent, p.requestHash_eq rfl rfl rfl rfl rfl]
  cases found : loadByIdempotency t p.command.key with
  | none =>
    simp only [bind_eq_ok, require_eq_ok, exists_unit, ok_bind, pure_eq_ok, Prod.mk.injEq,
      reduceCtorEq, false_and, exists_false, false_or, true_and]
  | some existing =>
    simp only [p.request, p.read, bind_eq_ok, require_eq_ok, exists_unit, ok_bind, pure_eq_ok,
      Prod.mk.injEq, reduceCtorEq, false_and, or_false, Option.some.injEq, exists_eq_left']

/-! ## What a transaction does -/

/-- What one transaction does to the Runs and their audits. -/
inductive CreationMove (library : StandardLibrary) (tables : UnicodeTables)
    (deriveTaskId : Uuid → String → Uuid) (t : CreationTables) : CreationTables → Prop where
  | same : CreationMove library tables deriveTaskId t t
  | inserted (row : RunRow) (unused : ∀ other ∈ t.runs, other.key ≠ row.key)
      (undeleted : ∀ audit ∈ t.deletions, audit.key ≠ row.key) :
      CreationMove library tables deriveTaskId t { t with runs := t.runs ++ [row] }
  | wrote (runId : Uuid) (write : RunRow → RunRow) (key : ∀ row, (write row).key = row.key)
      (id : ∀ row, (write row).id = row.id)
      (records : ∀ (p : PreparedCommand tables deriveTaskId) (row : RunRow),
        Records library p row → Records library p (write row)) :
      CreationMove library tables deriveTaskId t (writeRun runId write t)
  | purged (runId : Uuid) : CreationMove library tables deriveTaskId t (purgeRun runId t)

theorem execCreation_moves {action : CreationAction tables deriveTaskId}
    {answer : Option CreatedRun}
    (commit : execCreation library tables deriveTaskId action t = .ok (answer, t')) :
    CreationMove library tables deriveTaskId t t' := by
  cases action with
  | create known runId now prepared =>
    simp only [execCreation, bind_eq_ok, pure_eq_ok, Prod.exists, Prod.mk.injEq] at commit
    obtain ⟨created, state, made, -, rfl⟩ := commit
    obtain ⟨undeleted, ⟨row, -, -, -, rfl⟩ | ⟨unused, -, -, -, rfl⟩⟩ :=
      createIdempotent_eq_ok.mp made
    · exact .same
    · exact .inserted _ (loadByIdempotency_eq_none.mp unused) undeleted
  | find intent key =>
    simp only [execCreation, bind_eq_ok, pure_eq_ok, Prod.mk.injEq] at commit
    obtain ⟨-, -, -, rfl⟩ := commit
    exact .same
  | bind runId sources =>
    simp only [execCreation, replaceInitialSelectedSources, bind_eq_ok, pure_eq_ok,
      Prod.mk.injEq, require_eq_ok, exists_unit, orFault_eq_ok] at commit
    obtain ⟨_, ⟨-, -, -, rfl⟩, -, rfl⟩ := commit
    refine .wrote runId _ (fun _ => rfl) (fun _ => rfl) fun p row records => ?_
    exact { records with selected := ⟨sources.val, sources.property, rfl⟩ }
  | advance runId status version trashed =>
    cases commit
    refine .wrote runId _ (fun _ => rfl) (fun _ => rfl) fun p row records => ?_
    exact ⟨records.key, records.hash, records.input, records.task, records.permission,
      records.limits, records.selected⟩
  | purge runId =>
    cases commit
    exact .purged runId

structure OnePerKey (t : CreationTables) : Prop where
  keys : ∀ row ∈ t.runs, ∀ other ∈ t.runs, row.key = other.key → row = other
  gone : ∀ audit ∈ t.deletions, ∀ row ∈ t.runs, row.key ≠ audit.key

theorem mem_writeRun {runId : Uuid} {write : RunRow → RunRow}
    (mem : row ∈ (writeRun runId write t).runs) :
    ∃ before ∈ t.runs, row = if before.id = runId then write before else before := by
  obtain ⟨before, inside, rfl⟩ := List.mem_map.mp mem
  exact ⟨before, inside, rfl⟩

theorem OnePerKey.moved (sound : OnePerKey t)
    (move : CreationMove library tables deriveTaskId t t') : OnePerKey t' := by
  cases move with
  | same => exact sound
  | inserted row unused undeleted =>
    constructor
    · intro first mem second mem' same
      rcases List.mem_append.mp mem with old | new <;>
        rcases List.mem_append.mp mem' with old' | new'
      · exact sound.keys first old second old' same
      · rw [List.mem_singleton.mp new'] at same
        exact absurd same (unused first old)
      · rw [List.mem_singleton.mp new] at same
        exact absurd same.symm (unused second old')
      · rw [List.mem_singleton.mp new, List.mem_singleton.mp new']
    · intro audit deleted other mem
      rcases List.mem_append.mp mem with old | new
      · exact sound.gone audit deleted other old
      · rw [List.mem_singleton.mp new]
        exact (undeleted audit deleted).symm
  | wrote runId write key id records =>
    have kept (row : RunRow) : (if row.id = runId then write row else row).key = row.key := by
      split
      · exact key row
      · rfl
    constructor
    · intro first mem second mem' same
      obtain ⟨before, inside, rfl⟩ := mem_writeRun mem
      obtain ⟨before', inside', rfl⟩ := mem_writeRun mem'
      rw [kept, kept] at same
      rw [sound.keys before inside before' inside' same]
    · intro audit deleted other mem
      obtain ⟨before, inside, rfl⟩ := mem_writeRun mem
      rw [kept]
      exact sound.gone audit deleted before inside
  | purged runId =>
    constructor
    · intro first mem second mem'
      exact sound.keys first (List.mem_of_mem_filter mem) second (List.mem_of_mem_filter mem')
    · intro audit deleted other mem same
      have inside := List.mem_of_mem_filter mem
      have stays : other.id ≠ runId := of_decide_eq_true (List.mem_filter.mp mem).2
      rcases List.mem_append.mp deleted with earlier | now
      · exact sound.gone audit earlier other inside same
      · obtain ⟨removed, mem', rfl⟩ := List.mem_map.mp now
        have alike := sound.keys other inside removed (List.mem_of_mem_filter mem') same
        exact stays (alike ▸ of_decide_eq_true (List.mem_filter.mp mem').2)

/-- The Run of the command is there, or it was deleted. -/
def Lives (library : StandardLibrary) (p : PreparedCommand tables deriveTaskId) (runId : Uuid)
    (t : CreationTables) : Prop :=
  (∃ audit ∈ t.deletions, audit.key = p.command.key) ∨
    ∃ row ∈ t.runs, Records library p row ∧ row.id = runId

theorem Lives.moved {runId : Uuid} (lives : Lives library p runId t)
    (move : CreationMove library tables deriveTaskId t t') : Lives library p runId t' := by
  rcases lives with ⟨audit, deleted, key⟩ | ⟨row, mem, records, rfl⟩
  · left
    cases move with
    | same => exact ⟨audit, deleted, key⟩
    | inserted => exact ⟨audit, deleted, key⟩
    | wrote => exact ⟨audit, deleted, key⟩
    | purged => exact ⟨audit, List.mem_append_left _ deleted, key⟩
  · cases move with
    | same => exact .inr ⟨row, mem, records, rfl⟩
    | inserted => exact .inr ⟨row, List.mem_append_left _ mem, records, rfl⟩
    | wrote other write key id kept =>
      right
      refine ⟨_, List.mem_map.mpr ⟨row, mem, rfl⟩, ?_⟩
      split
      · exact ⟨kept p row records, id row⟩
      · exact ⟨records, rfl⟩
    | purged other =>
      by_cases named : row.id = other
      · left
        refine ⟨_, List.mem_append_right _ (List.mem_map.mpr
          ⟨row, List.mem_filter.mpr ⟨mem, decide_eq_true named⟩, rfl⟩), records.key⟩
      · exact .inr ⟨row, List.mem_filter.mpr ⟨mem, decide_eq_true named⟩, records, rfl⟩

theorem onePerKey_invariant :
    (creationStore library tables deriveTaskId).Invariant OnePerKey :=
  fun _ _ _ _ sound commit => sound.moved (execCreation_moves commit)

theorem lives_invariant (runId : Uuid) :
    (creationStore library tables deriveTaskId).Invariant (Lives library p runId) :=
  fun _ _ _ _ lives commit => lives.moved (execCreation_moves commit)

theorem onePerKey_empty : OnePerKey .empty :=
  ⟨fun _ mem => (nomatch mem), fun _ mem => (nomatch mem)⟩

theorem OnePerKey.load (sound : OnePerKey t) (mem : row ∈ t.runs) :
    loadByIdempotency t row.key = some row := by
  cases found : loadByIdempotency t row.key with
  | none => exact absurd rfl (loadByIdempotency_eq_none.mp found row mem)
  | some other =>
    obtain ⟨inside, key⟩ := loadByIdempotency_eq_some found
    rw [sound.keys other inside row mem key]

theorem findTaskRunReplay_eq {key : String} (used : key = q.command.idempotencyKey) :
    findTaskRunReplay library tables deriveTaskId q.intent key t =
      match loadByIdempotency t q.command.key with
      | none => .ok none
      | some existing =>
        validateCreationReplay library tables deriveTaskId existing q.intent >>=
          fun _ => .ok (some (existing.created true)) := by
  rw [findTaskRunReplay, q.key_eq, used]
  rfl

theorem validateCreationReplay_intact {requested : TaskRunIntent}
    (valid : validateCreationReplay library tables deriveTaskId row requested = .ok ()) :
    ∃ command, storedCommand row = .ok command ∧
      requestHash library tables deriveTaskId command = .ok row.requestHash := by
  simp only [validateCreationReplay, storedCreationIntent, bind_eq_ok, mapError_eq_ok,
    require_eq_ok, exists_unit, pure_eq_ok] at valid
  obtain ⟨_, ⟨command, stored, _, -, -, hash, hashed, same, -⟩, -⟩ := valid
  exact ⟨command, stored, same ▸ hashed⟩

/-- What the key of a Run answers to a request. -/
structure Answers (library : StandardLibrary) (row : RunRow) (t : CreationTables)
    (p q : PreparedCommand tables deriveTaskId) : Prop where
  same : p.intent.toJson.Same q.intent.toJson →
    findTaskRunReplay library tables deriveTaskId q.intent q.command.idempotencyKey t =
        .ok (some (row.created true)) ∧
      ∀ known runId now, createIdempotent library tables deriveTaskId known runId now q.command t =
        .ok (row.created true, t)
  different : ¬ p.intent.toJson.Same q.intent.toJson →
    findTaskRunReplay library tables deriveTaskId q.intent q.command.idempotencyKey t =
        .error differentRequest ∧
      ∀ known runId now, createIdempotent library tables deriveTaskId known runId now q.command t =
        .error differentRequest

theorem OnePerKey.answers (sound : OnePerKey t) (mem : row ∈ t.runs)
    (records : Records library p row) (key : q.command.key = p.command.key)
    (apart : NoCollision library p.intent.toJson q.intent.toJson) :
    Answers library row t p q := by
  have load : loadByIdempotency t q.command.key = some row := by
    rw [key, ← records.key]
    exact sound.load mem
  have undeleted : ∀ audit ∈ t.deletions, audit.key ≠ q.command.key := by
    intro audit deleted same
    exact sound.gone audit deleted row mem (records.key.trans (key.symm.trans same.symm))
  have valid := records.validated apart
  constructor
  · intro alike
    constructor
    · rw [findTaskRunReplay_eq rfl, load]
      simp only [valid.1 alike, ok_bind]
    · exact fun known runId now => createIdempotent_eq_ok.mpr
        ⟨undeleted, .inl ⟨row, load, valid.1 alike, rfl, rfl⟩⟩
  · intro other
    constructor
    · rw [findTaskRunReplay_eq rfl, load]
      simp only [valid.2 other]
      rfl
    · intro known runId now
      rw [createIdempotent, q.requestHash_eq rfl rfl rfl rfl rfl, require_of undeleted]
      simp only [ok_bind, load, q.request, q.read, valid.2 other]
      rfl

/-- **A key makes one Run.**  After a call has made a Run, no later call on its key makes another:
as long as the Run is there, the same request is answered with it and a different one with a
conflict, and when it was deleted, a creation is refused and an inquiry finds nothing.  A Run whose
columns no longer have the stored hash answers no request. -/
theorem creations_idempotent {s s₁ s₂ : CreationTables} {known : Bool} {runId : Uuid}
    {now : Timestamp} {answer : CreatedRun}
    (reached : (creationStore library tables deriveTaskId).Reachable .empty s)
    (created : createIdempotent library tables deriveTaskId known runId now p.command s =
      .ok (answer, s₁))
    (first : answer.idempotentReplay = false)
    (later : (creationStore library tables deriveTaskId).Reachable s₁ s₂) :
    ((∃ row ∈ s₂.runs, row.id = runId ∧ row.key = p.command.key ∧
        (∀ other ∈ s₂.runs, other.key = p.command.key → other = row) ∧
        ∀ q : PreparedCommand tables deriveTaskId, q.command.key = p.command.key →
          NoCollision library p.intent.toJson q.intent.toJson → Answers library row s₂ p q) ∨
      ((∃ audit ∈ s₂.deletions, audit.key = p.command.key) ∧
        (∀ row ∈ s₂.runs, row.key ≠ p.command.key) ∧
        ∀ q : PreparedCommand tables deriveTaskId, q.command.key = p.command.key →
          (∀ known runId now,
            createIdempotent library tables deriveTaskId known runId now q.command s₂ =
              .error permanentlyDeleted) ∧
          findTaskRunReplay library tables deriveTaskId q.intent q.command.idempotencyKey s₂ =
            .ok none)) ∧
    (∀ (q : PreparedCommand tables deriveTaskId) (known : Bool) (runId : Uuid) (now : Timestamp)
        (answer : CreatedRun) (s₃ : CreationTables), q.command.key = p.command.key →
      createIdempotent library tables deriveTaskId known runId now q.command s₂ =
        .ok (answer, s₃) → answer.idempotentReplay = true ∧ s₃ = s₂) ∧
    ∀ (t : CreationTables) (q : PreparedCommand tables deriveTaskId) (found : CreatedRun),
      (findTaskRunReplay library tables deriveTaskId q.intent q.command.idempotencyKey t =
          .ok (some found) ∨
        found.idempotentReplay = true ∧ ∃ known runId now t',
          createIdempotent library tables deriveTaskId known runId now q.command t =
            .ok (found, t')) →
      ∃ row ∈ t.runs, found = row.created true ∧ ∃ command, storedCommand row = .ok command ∧
        requestHash library tables deriveTaskId command = .ok row.requestHash := by
  have sound := onePerKey_invariant.reachable onePerKey_empty reached
  have commit : execCreation library tables deriveTaskId (.create known runId now p) s =
      .ok (some answer, s₁) := by
    simp only [execCreation, created, ok_bind]
    rfl
  have sound₂ := onePerKey_invariant.reachable (sound.moved (execCreation_moves commit)) later
  have lives : Lives library p runId s₁ := by
    obtain ⟨-, ⟨row, -, -, rfl, -⟩ | ⟨-, -, -, -, rfl⟩⟩ := createIdempotent_eq_ok.mp created
    · cases first
    · exact .inr ⟨_, List.mem_append_right _ (List.mem_singleton.mpr rfl),
        records_inserted runId now, rfl⟩
  have lives₂ := (lives_invariant runId).reachable lives later
  refine ⟨?_, ?_, ?_⟩
  · rcases lives₂ with ⟨audit, deleted, key⟩ | ⟨row, mem, records, rfl⟩
    · right
      have absent : ∀ row ∈ s₂.runs, row.key ≠ p.command.key := fun row mem same =>
        sound₂.gone audit deleted row mem (same.trans key.symm)
      refine ⟨⟨audit, deleted, key⟩, absent, fun q used => ⟨fun known runId now => ?_, ?_⟩⟩
      · rw [createIdempotent, require, if_neg]
        · rfl
        · exact fun undeleted => undeleted audit deleted (key.trans used.symm)
      · rw [findTaskRunReplay_eq rfl, used, loadByIdempotency_eq_none.mpr absent]
    · left
      refine ⟨row, mem, rfl, records.key, fun other inside same => ?_, fun q used apart => ?_⟩
      · exact sound₂.keys other inside row mem (same.trans records.key.symm)
      · exact sound₂.answers mem records used apart
  · intro q known runId' now answer s₃ used again
    obtain ⟨undeleted, ⟨row, -, -, rfl, rfl⟩ | ⟨unused, -⟩⟩ := createIdempotent_eq_ok.mp again
    · exact ⟨rfl, rfl⟩
    · rcases lives₂ with ⟨audit, deleted, key⟩ | ⟨row, mem, records, -⟩
      · exact absurd (key.trans used.symm) (undeleted audit deleted)
      · exact absurd (records.key.trans used.symm)
          (loadByIdempotency_eq_none.mp unused row mem)
  · rintro t q found (inquiry | ⟨replay, known, runId, now, t', creation⟩)
    · rw [findTaskRunReplay_eq rfl] at inquiry
      cases load : loadByIdempotency t q.command.key with
      | none =>
        rw [load] at inquiry
        cases inquiry
      | some row =>
        rw [load] at inquiry
        obtain ⟨⟨⟩, valid, answered⟩ := bind_eq_ok.mp inquiry
        cases answered
        exact ⟨row, (loadByIdempotency_eq_some load).1, rfl,
          validateCreationReplay_intact valid⟩
    · obtain ⟨-, ⟨row, load, valid, rfl, -⟩ | ⟨-, -, -, rfl, -⟩⟩ :=
        createIdempotent_eq_ok.mp creation
      · exact ⟨row, (loadByIdempotency_eq_some load).1, rfl,
          validateCreationReplay_intact valid⟩
      · cases replay

def reportTaskId (_ : Uuid) (_ : String) : Uuid := 9

def reportIntent : TaskRunIntent :=
  { projectId := 5, skillVersionId := 6, taskKey := "report", actorId := 7,
    input := [("topic", .string "sales")], sources := [("input", "project-documents:all")],
    autoApprove := true, autoApproveGit := false, autoApproveMcp := false }

def reportCommand : CreateRunCommand :=
  { projectId := 5, taskId := 9, idempotencyKey := "report-1", input := reportIntent.input,
    taskSnapshot :=
      [ (creationRequestField, reportIntent.toJson), ("task_key", .string "report")
      , ("skill_version_id", .string (uuidText 6)), ("skill_snapshots", .array []) ]
    permissionSnapshot := [("actor_id", .string (uuidText 7))]
    selectedSources := [], limitsSnapshot := [], skillSnapshots := [], budgetPolicy := none }

def reportRequest : PreparedCommand Documents.asciiTables reportTaskId where
  intent := reportIntent
  command := reportCommand
  made := TaskRunIntent.checked_eq_ok.mpr
    ⟨by decide, by decide, by decide, by decide, _, rfl, rfl⟩
  distinct := by decide
  request := rfl
  project := rfl
  task := rfl
  version := rfl
  taskKey := rfl
  actor := rfl
  input := rfl
  skills := ⟨[], rfl⟩
  inputFormed := by decide
  taskFormed := by decide
  permissionFormed := by decide
  selectedFormed := by decide
  limitsFormed := by decide

def reportRow (library : StandardLibrary) : RunRow :=
  insertedRun reportCommand (reportIntent.fingerprint library) 1 100

theorem report_created (library : StandardLibrary) :
    createIdempotent library Documents.asciiTables reportTaskId true 1 100 reportCommand .empty =
      .ok ((reportRow library).created false, ⟨[reportRow library], []⟩) :=
  (createIdempotent_eq_ok (p := reportRequest)).mpr
    ⟨fun _ deleted => (nomatch deleted), .inr ⟨rfl, rfl, fun _ limited => (nomatch limited), rfl,
      rfl⟩⟩

/-- The report is asked for a second time. -/
theorem creations_idempotent_sample :
    ∃ answer s₁, createIdempotent Documents.zeroLibrary Documents.asciiTables reportTaskId true 1
        100 reportCommand .empty = .ok (answer, s₁) ∧
      findTaskRunReplay Documents.zeroLibrary Documents.asciiTables reportTaskId reportIntent
        "report-1" s₁ = .ok (some { answer with idempotentReplay := true }) := by
  refine ⟨_, _, report_created Documents.zeroLibrary, ?_⟩
  have answered := creations_idempotent (p := reportRequest)
    (TransactionSystem.Reachable.refl _ _) (report_created Documents.zeroLibrary) rfl
    (TransactionSystem.Reachable.refl _ _)
  rcases answered.1 with ⟨row, mem, -, -, -, answers⟩ | ⟨⟨audit, deleted, -⟩, -⟩
  · have again := (answers reportRequest rfl fun _ => rfl).same (Json.Same.refl _)
    rw [List.mem_singleton.mp mem] at again
    exact again.1
  · cases deleted

/-- An inquiry about a deleted Run finds nothing. -/
theorem deleted_creation_unknown :
    ∃ s, (creationStore Documents.zeroLibrary Documents.asciiTables reportTaskId).Reachable .empty
        s ∧
      (∃ audit ∈ s.deletions, audit.key = reportCommand.key) ∧
      findTaskRunReplay Documents.zeroLibrary Documents.asciiTables reportTaskId reportIntent
        "report-1" s = .ok none := by
  have created : (creationStore Documents.zeroLibrary Documents.asciiTables reportTaskId).exec
      (.create true 1 100 reportRequest) .empty =
        .ok (some ((reportRow Documents.zeroLibrary).created false),
          ⟨[reportRow Documents.zeroLibrary], []⟩) := by
    have first := report_created Documents.zeroLibrary
    simp only [creationStore, execCreation]
    rw [show reportRequest.command = reportCommand from rfl, first]
    rfl
  have purged : (creationStore Documents.zeroLibrary Documents.asciiTables reportTaskId).exec
      (.purge 1) ⟨[reportRow Documents.zeroLibrary], []⟩ =
        .ok (none, ⟨[], [⟨5, 1, 9, "report-1"⟩]⟩) := rfl
  refine ⟨_, ((TransactionSystem.Reachable.refl _ _).commit _ created).commit _ purged, ?_, ?_⟩
  · exact ⟨_, List.mem_singleton.mpr rfl, rfl⟩
  · rfl

end SkillMind.Runs.Creation
