import Mathlib.Data.Prod.Lex
import SkillMind.Library.Paging
import SkillMind.Evaluations.Repository

/-!
# The evaluations of a Result over any run of calls

A call that adds an evaluation leaves its row in an open transaction, and the row enters the
table when that transaction commits.  Between the two, other transactions may look for the same
submission and find nothing; then the unique constraint lets one of them commit.

Every row of the table, and every row of an open transaction, can be read in the Result it belongs
to, so no read of a Result ever fails on a row.
-/

namespace SkillMind.Evaluations

open Library SkillMind.Core
open Runs (Uuid Timestamp)

/-- The table and the rows that were flushed in transactions that are open or were given up. -/
structure History where
  evaluations : List (Evaluation (List Char))
  opened : List (Evaluation (List Char))

inductive Call where
  | create (command : CreateEvaluationCommand) (id : Uuid) (now : Timestamp)
  | submit (command : CreateEvaluationCommand) (submissionKey resultId id : Uuid)
      (now : Timestamp)
  | commit (row : Evaluation (List Char))
  | getSubmission (projectId runId userId submissionKey resultId : Uuid)
  | listForRun (projectId runId : Uuid)
  | listPage (projectId runId : Uuid) (limit : Nat) (after : Option Uuid)

inductive Answer where
  | evaluation (stored : StoredEvaluation)
  | submission (receipt : StoredEvaluationSubmission)
  | committed
  | evaluations (items : List StoredEvaluation)
  | page (page : StoredEvaluationPage)

/-- The constraints of the table: its key, `uq_evaluations_submission`, and no text with the
character NUL. -/
def Admissible (rows : List (Evaluation (List Char))) (row : Evaluation (List Char)) : Prop :=
  (∀ other ∈ rows, row.id ≠ other.id) ∧
    (∀ submissionKey ∈ row.submissionKey, ∀ other ∈ rows,
      other.submittedAs row.resultId row.userId submissionKey = false) ∧
    Char.ofNat 0 ∉ row.comment.toList

instance (rows : List (Evaluation (List Char))) (row : Evaluation (List Char)) :
    Decidable (Admissible rows row) := inferInstanceAs (Decidable (_ ∧ _ ∧ _))

section Calls

variable (library : StandardLibrary) (base : ResultTables)

def perform (call : Call) (history : History) : Except Fault (Answer × History) :=
  match call with
  | .create command id now => do
    let (stored, row) ← create library base command id now
    return (.evaluation stored, { history with opened := history.opened ++ [row] })
  | .submit command submissionKey resultId id now => do
    let (receipt, row) ← submit library base history.evaluations command submissionKey resultId
      id now
    return (.submission receipt, { history with opened := history.opened ++ row.toList })
  | .commit row => do
    require (row ∈ history.opened) ⟨.databaseError, "This transaction is closed"⟩
    require (Admissible history.evaluations row) ⟨.databaseError, "IntegrityError"⟩
    return (.committed, { history with evaluations := history.evaluations ++ [row] })
  | .getSubmission projectId runId userId submissionKey resultId => do
    let receipt ← getSubmission library base history.evaluations projectId runId userId
      submissionKey resultId
    return (.submission receipt, history)
  | .listForRun projectId runId => do
    let items ← listForRun library base history.evaluations projectId runId
    return (.evaluations items, history)
  | .listPage projectId runId limit after => do
    let page ← listPage library base history.evaluations projectId runId limit after
    return (.page page, history)

def evaluationSystem : TransactionSystem History Call Answer Fault where
  exec := perform library base

end Calls

variable {library : StandardLibrary} {base : ResultTables}

variable {projectId runId : Uuid} {result : RunResult}

theorem getResult_eq_ok {resultId : Option Uuid} :
    getResult base projectId runId resultId = .ok result ↔
      (∃ run ∈ base.runs, run.id = runId ∧ run.projectId = projectId) ∧
        (result ∈ base.results ∧ result.runId = runId) ∧
          ∀ wanted ∈ resultId, result.id = wanted := by
  simp only [getResult, bind_eq_ok, orFault_eq_ok, require_eq_ok, exists_unit, pure_eq_ok]
  have runs : (∃ run, base.runs.find? (fun run => decide (run.id = runId ∧
      run.projectId = projectId)) = some run) ↔
        ∃ run ∈ base.runs, run.id = runId ∧ run.projectId = projectId := by
    rw [← Option.isSome_iff_exists, List.find?_isSome]
    simp
  have results (result : RunResult) : base.results.find? (fun result =>
      decide (result.runId = runId)) = some result ↔
        result ∈ base.results ∧ result.runId = runId :=
    ⟨find_key, fun here => base.results_of_run.find_eq here.1 here.2⟩
  constructor
  · rintro ⟨run, known, other, found, wanted, rfl⟩
    exact ⟨runs.mp ⟨run, known⟩, (results other).mp found, wanted⟩
  · rintro ⟨known, found, wanted⟩
    obtain ⟨run, known⟩ := runs.mpr known
    exact ⟨run, known, result, (results result).mpr found, wanted, rfl⟩

theorem getResult_unique {projectId' runId' : Uuid}
    {resultId resultId' : Option Uuid} {result' : RunResult}
    (found : getResult base projectId runId resultId = .ok result)
    (found' : getResult base projectId' runId' resultId' = .ok result')
    (same : result.id = result'.id) :
    result = result' ∧ projectId = projectId' ∧ runId = runId' := by
  obtain ⟨⟨run, mem, id, project⟩, ⟨here, owner⟩, _⟩ := getResult_eq_ok.mp found
  obtain ⟨⟨run', mem', id', project'⟩, ⟨here', owner'⟩, _⟩ := getResult_eq_ok.mp found'
  have results := base.results_keyed.eq_of_key here here' same
  have runIds : runId = runId' := by rw [← owner, ← owner', results]
  have runs := base.runs_keyed.eq_of_key mem mem' (by rw [id, id', runIds])
  exact ⟨results, by rw [← project, ← project', runs], runIds⟩

/-! ## The invariant -/

/-- A row is read in the Result it belongs to. -/
def Readable (library : StandardLibrary) (base : ResultTables)
    (row : Evaluation (List Char)) : Prop :=
  ∃ projectId runId result stored, getResult base projectId runId none = .ok result ∧
    row.resultId = result.id ∧ storedRow library projectId result row = .ok stored

structure Sound (library : StandardLibrary) (base : ResultTables) (history : History) : Prop where
  keyed : Keyed Evaluation.id history.evaluations
  once : history.evaluations.Pairwise fun first second =>
    ∀ submissionKey ∈ second.submissionKey,
      first.submittedAs second.resultId second.userId submissionKey = false
  readable : ∀ row ∈ history.evaluations, Readable library base row
  opened : ∀ row ∈ history.opened, Readable library base row

theorem getResult_none {resultId : Uuid}
    (found : getResult base projectId runId (some resultId) = .ok result) :
    getResult base projectId runId none = .ok result ∧ result.id = resultId ∧
      result.runId = runId := by
  obtain ⟨run, here, wanted⟩ := getResult_eq_ok.mp found
  exact ⟨getResult_eq_ok.mpr ⟨run, here, by simp⟩, wanted resultId rfl, here.2⟩

variable {row : Evaluation (List Char)}

theorem readable_append {command : CreateEvaluationCommand}
    {submissionKey : Option Uuid} {id : Uuid} {now : Timestamp} {stored : StoredEvaluation}
    (found : getResult base command.projectId command.runId none = .ok result)
    (added : append library command result submissionKey id now = .ok (stored, row)) :
    Readable library base row := by
  have owner := (getResult_eq_ok.mp found).2.1.2
  obtain ⟨read, _⟩ := append_ok owner added
  exact ⟨_, _, result, stored, found, (storedRow_ok read).result_id, read⟩

theorem submit_ok {rows : List (Evaluation (List Char))} {command : CreateEvaluationCommand}
    {submissionKey resultId id : Uuid} {now : Timestamp} {receipt : StoredEvaluationSubmission}
    {added : Option (Evaluation (List Char))}
    (outcome : submit library base rows command submissionKey resultId id now =
      .ok (receipt, added)) :
    ∃ result, getResult base command.projectId command.runId none = .ok result ∧
      result.id = resultId ∧
      ((added = none ∧ receipt.idempotentReplay = true) ∨
        ∃ row stored, added = some row ∧
          receipt = ⟨command.projectId, command.runId, submissionKey, stored, false⟩ ∧
          append library command result (some submissionKey) id now = .ok (stored, row)) := by
  simp only [submit, bind_eq_ok, exists_unit] at outcome
  obtain ⟨_, requestHash, _, result, found, rest⟩ := outcome
  obtain ⟨known, same, _⟩ := getResult_none found
  refine ⟨result, known, same, ?_⟩
  cases lookup : findSubmission rows result.id command.userId submissionKey with
  | some original =>
    rw [lookup] at rest
    simp only [bind_eq_ok, require_eq_ok, exists_unit, pure_eq_ok, Prod.mk.injEq] at rest
    obtain ⟨stored, _, _, rfl, rfl⟩ := rest
    exact .inl ⟨rfl, rfl⟩
  | none =>
    rw [lookup] at rest
    simp only [bind_eq_ok, pure_eq_ok, Prod.exists, Prod.mk.injEq] at rest
    obtain ⟨stored, row, appended, rfl, rfl⟩ := rest
    exact .inr ⟨row, stored, rfl, rfl, appended⟩

theorem sound_empty : Sound library base ⟨[], []⟩ :=
  ⟨List.nodup_nil, List.Pairwise.nil, by simp, by simp⟩

variable {history : History}

theorem perform_ok {call : Call} {history' : History} {answer : Answer}
    (done : perform library base call history = .ok (answer, history')) :
    (history' = history) ∨
      (∃ row, Readable library base row ∧
        history' = { history with opened := history.opened ++ [row] }) ∨
      (∃ row ∈ history.opened, Admissible history.evaluations row ∧
        history' = { history with evaluations := history.evaluations ++ [row] }) := by
  cases call with
  | create command id now =>
    simp only [perform, create, bind_eq_ok, exists_unit, pure_eq_ok, Prod.exists,
      Prod.mk.injEq] at done
    obtain ⟨stored, row, ⟨_, result, found, added⟩, _, rfl⟩ := done
    exact .inr (.inl ⟨row, readable_append found added, rfl⟩)
  | submit command submissionKey resultId id now =>
    simp only [perform, bind_eq_ok, pure_eq_ok, Prod.exists, Prod.mk.injEq] at done
    obtain ⟨receipt, added, outcome, _, rfl⟩ := done
    obtain ⟨result, found, _, ⟨rfl, _⟩ | ⟨row, stored, rfl, _, appended⟩⟩ := submit_ok outcome
    · exact .inl (by simp)
    · exact .inr (.inl ⟨row, readable_append found appended, rfl⟩)
  | commit row =>
    simp only [perform, bind_eq_ok, require_eq_ok, exists_unit, pure_eq_ok,
      Prod.mk.injEq] at done
    obtain ⟨mem, admissible, _, rfl⟩ := done
    exact .inr (.inr ⟨row, mem, admissible, rfl⟩)
  | getSubmission projectId runId userId submissionKey resultId =>
    simp only [perform, bind_eq_ok, pure_eq_ok, Prod.mk.injEq] at done
    obtain ⟨_, _, _, rfl⟩ := done
    exact .inl rfl
  | listForRun projectId runId =>
    simp only [perform, bind_eq_ok, pure_eq_ok, Prod.mk.injEq] at done
    obtain ⟨_, _, _, rfl⟩ := done
    exact .inl rfl
  | listPage projectId runId limit after =>
    simp only [perform, bind_eq_ok, pure_eq_ok, Prod.mk.injEq] at done
    obtain ⟨_, _, _, rfl⟩ := done
    exact .inl rfl

theorem sound_invariant : (evaluationSystem library base).Invariant (Sound library base) := by
  intro history call answer history' sound done
  rcases perform_ok done with rfl | ⟨row, readable, rfl⟩ | ⟨row, mem, admissible, rfl⟩
  · exact sound
  · refine ⟨sound.keyed, sound.once, sound.readable, ?_⟩
    intro other otherMem
    rcases List.mem_append.mp otherMem with before | now
    · exact sound.opened other before
    · rw [List.mem_singleton.mp now]
      exact readable
  · obtain ⟨fresh, unsubmitted, _⟩ := admissible
    refine ⟨sound.keyed.add fresh, ?_, ?_, sound.opened⟩
    · refine List.pairwise_append.mpr ⟨sound.once, List.pairwise_singleton _ _, ?_⟩
      intro other otherMem row' rowMem submissionKey keyed
      rw [List.mem_singleton.mp rowMem] at keyed ⊢
      exact unsubmitted submissionKey keyed other otherMem
    · intro other otherMem
      rcases List.mem_append.mp otherMem with before | now
      · exact sound.readable other before
      · rw [List.mem_singleton.mp now]
        exact sound.opened row mem

theorem evaluations_grow {history' : History}
    (reached : (evaluationSystem library base).Reachable history history') :
    history.evaluations ⊆ history'.evaluations := by
  have inv : (evaluationSystem library base).Invariant fun other =>
      history.evaluations ⊆ other.evaluations := by
    intro before call answer after subset done
    rcases perform_ok done with rfl | ⟨row, _, rfl⟩ | ⟨row, _, _, rfl⟩
    · exact subset
    · exact subset
    · exact List.Subset.trans subset (List.subset_append_left _ _)
  exact inv.reachable (List.Subset.refl _) reached

theorem Sound.submitted_once (sound : Sound library base history)
    (resultId userId submissionKey : Uuid) :
    (history.evaluations.filter fun row =>
      row.submittedAs resultId userId submissionKey).length ≤ 1 := by
  have apart := sound.once.sublist (List.filter_sublist
    (p := fun row => row.submittedAs resultId userId submissionKey))
  have named : ∀ row ∈ history.evaluations.filter fun row =>
      row.submittedAs resultId userId submissionKey,
        row.submittedAs resultId userId submissionKey = true :=
    fun row mem => (List.mem_filter.mp mem).2
  generalize history.evaluations.filter (fun row =>
    row.submittedAs resultId userId submissionKey) = rows at apart named ⊢
  match rows with
  | [] => simp
  | [_] => simp
  | first :: second :: rest =>
    exfalso
    have hit := named first List.mem_cons_self
    have hit' := named second (List.mem_cons_of_mem first List.mem_cons_self)
    simp only [Evaluation.submittedAs, decide_eq_true_eq] at hit'
    have miss := (List.pairwise_cons.mp apart).1 second List.mem_cons_self submissionKey hit'.2.2
    rw [hit'.1, hit'.2.1, hit] at miss
    cases miss

theorem eq_of_length_le_one {α : Type} {xs : List α} (short : xs.length ≤ 1) {x y : α}
    (mem : x ∈ xs) (mem' : y ∈ xs) : x = y := by
  match xs with
  | [] => cases mem
  | [_] => rw [List.mem_singleton.mp mem, List.mem_singleton.mp mem']
  | _ :: _ :: _ => simp at short

theorem Sound.findSubmission_eq (sound : Sound library base history)
    (mem : row ∈ history.evaluations)
    {resultId userId submissionKey : Uuid}
    (named : row.submittedAs resultId userId submissionKey = true) :
    findSubmission history.evaluations resultId userId submissionKey = some row := by
  have single := sound.submitted_once resultId userId submissionKey
  have inside : row ∈ history.evaluations.filter fun row =>
      row.submittedAs resultId userId submissionKey := List.mem_filter.mpr ⟨mem, named⟩
  cases found : findSubmission history.evaluations resultId userId submissionKey with
  | none => exact absurd named (List.find?_eq_none.mp found row mem)
  | some other =>
    have hit : other.submittedAs resultId userId submissionKey = true :=
      List.find?_some (p := fun row : Evaluation (List Char) =>
        row.submittedAs resultId userId submissionKey) found
    have inside' : other ∈ history.evaluations.filter fun row =>
        row.submittedAs resultId userId submissionKey :=
      List.mem_filter.mpr ⟨List.mem_of_find?_eq_some found, hit⟩
    rw [eq_of_length_le_one single inside inside']

theorem Sound.stored_of_owner (sound : Sound library base history)
    (mem : row ∈ history.evaluations)
    (found : getResult base projectId runId none = .ok result)
    (bound : row.resultId = result.id) :
    ∃ stored, storedRow library projectId result row = .ok stored := by
  obtain ⟨projectId', runId', result', stored, found', bound', read⟩ := sound.readable row mem
  obtain ⟨rfl, rfl, _⟩ := getResult_unique found' found (bound'.symm.trans bound)
  exact ⟨stored, read⟩

theorem Sound.submit_again (sound : Sound library base history)
    {original : Evaluation (List Char)} (mem : original ∈ history.evaluations)
    {command : CreateEvaluationCommand} {submissionKey : Uuid} (id : Uuid) (now : Timestamp)
    (found : getResult base command.projectId command.runId (some result.id) = .ok result)
    {requestHash : String}
    (hashed : evaluationRequestHash library command result.id submissionKey = .ok requestHash)
    (named : original.submittedAs result.id command.userId submissionKey = true) :
    ∃ stored, storedRow library command.projectId result original = .ok stored ∧
      ((stored.command command.projectId).SameContent command →
        submit library base history.evaluations command submissionKey result.id id now =
          .ok (⟨command.projectId, command.runId, submissionKey, stored, true⟩, none)) ∧
      (NoCollision library
          (submissionContent (stored.command command.projectId) result.id submissionKey)
          (submissionContent command result.id submissionKey) →
        ¬ (stored.command command.projectId).SameContent command →
          submit library base history.evaluations command submissionKey result.id id now =
            .error ⟨.evaluationSubmissionConflictError,
              "Evaluation submission content conflicts"⟩) := by
  have identity := named
  simp only [Evaluation.submittedAs, decide_eq_true_eq] at identity
  obtain ⟨known, _, run⟩ := getResult_none found
  obtain ⟨stored, read⟩ := sound.stored_of_owner mem known identity.1
  have as := storedRow_ok read
  obtain ⟨keyed, hash, present, rehashed⟩ := as.hash submissionKey identity.2.2
  have lookup := sound.findSubmission_eq mem named
  have owner : (stored.command command.projectId).runId = command.runId := as.run.trans run
  have author : (stored.command command.projectId).userId = command.userId :=
    as.user.trans identity.2.1
  have key : requireEvaluationUuid submissionKey = .ok () := require_of keyed
  have outcome : submit library base history.evaluations command submissionKey result.id id now =
      (require (original.requestHash = some requestHash)
        ⟨.evaluationSubmissionConflictError, "Evaluation submission content conflicts"⟩ >>=
          fun _ => pure
            (⟨command.projectId, command.runId, submissionKey, stored, true⟩, none)) := by
    simp only [submit, key, hashed, found, lookup, read, ok_bind]
  refine ⟨stored, read, ?_, ?_⟩
  · intro same
    have alike : hash = requestHash := by
      obtain ⟨_, rfl⟩ := evaluationRequestHash_eq_ok rehashed
      obtain ⟨valid, rfl⟩ := evaluationRequestHash_eq_ok hashed
      have contents := (same_submissionContent (validateEvaluationCommand_ok as.valid).1
        (validateEvaluationCommand_ok valid).1 rfl owner author result.id submissionKey).mpr same
      rw [canonicalJson, canonicalJson, canonicalChars_of_same contents]
    rw [outcome, require_of (by rw [present, alike]), ok_bind]
    rfl
  · intro collisionFree different
    have unlike : original.requestHash ≠ some requestHash := by
      rw [present]
      intro same
      exact different ((evaluationRequestHash_eq_iff rehashed hashed rfl owner author
        collisionFree).mp (Option.some.inj same))
    rw [outcome, require, if_neg unlike]
    rfl

theorem Sound.getSubmission_eq (sound : Sound library base history)
    (mem : row ∈ history.evaluations)
    (found : getResult base projectId runId none = .ok result)
    {stored : StoredEvaluation} (read : storedRow library projectId result row = .ok stored)
    {submissionKey : Uuid} (keyed : row.submissionKey = some submissionKey) :
    getSubmission library base history.evaluations projectId runId row.userId submissionKey
      result.id = .ok ⟨projectId, runId, submissionKey, stored, true⟩ := by
  have as := storedRow_ok read
  obtain ⟨present, _⟩ := as.hash submissionKey keyed
  have valid := as.valid
  simp only [validateEvaluationCommand, requireEvaluationUuid, bind_eq_ok, require_eq_ok,
    exists_unit] at valid
  obtain ⟨project, run, user, _⟩ := valid
  obtain ⟨here, ⟨mine, owner⟩, _⟩ := getResult_eq_ok.mp found
  have exact : getResult base projectId runId (some result.id) = .ok result :=
    getResult_eq_ok.mpr ⟨here, ⟨mine, owner⟩, by simp⟩
  have lookup : findSubmission history.evaluations result.id row.userId submissionKey =
      some row := by
    apply sound.findSubmission_eq mem
    simp [Evaluation.submittedAs, as.result_id, keyed]
  have identities : [projectId, runId, row.userId, submissionKey, result.id].forM
      requireEvaluationUuid = .ok ⟨⟩ := by
    rw [forM_eq_ok]
    intro value member
    refine require_of ?_
    simp only [List.mem_cons, List.not_mem_nil, or_false] at member
    rcases member with rfl | rfl | rfl | rfl | rfl
    · exact project
    · exact fun none => run (by rw [StoredEvaluation.command, as.run, owner, none])
    · exact fun none => user (by rw [StoredEvaluation.command, as.user, none])
    · exact present
    · exact as.result_id ▸ as.result_identified
  simp only [getSubmission, identities, exact, lookup, read, orFault_some, ok_bind]
  rfl

/-! ## Lists and pages -/

def place (row : Evaluation (List Char)) : Nat ×ₗ Nat := toLex (row.createdAt, row.id)

def ownRows (rows : List (Evaluation (List Char))) (result : RunResult) :
    List (Evaluation (List Char)) :=
  rows.filter fun row => decide (row.resultId = result.id)

theorem precedes_iff (first second : Evaluation (List Char)) :
    precedes first second ↔ place first ≤ place second := by
  simp [precedes, place, Prod.Lex.toLex_le_toLex]

theorem behind_iff (anchor row : Evaluation (List Char)) :
    behind anchor row ↔ place anchor < place row := by
  simp [behind, place, Prod.Lex.toLex_lt_toLex]

theorem insertionSort_precedes (rows : List (Evaluation (List Char))) :
    rows.insertionSort precedes =
      rows.insertionSort fun first second => place first ≤ place second := by
  have sorted := List.map_insertionSort (r := precedes)
    (s := fun first second : Evaluation (List Char) => place first ≤ place second) id rows
    (fun first _ second _ => precedes_iff first second)
  simpa using sorted

theorem resultRows_eq (rows : List (Evaluation (List Char))) (result : RunResult) :
    resultRows rows result.id = rowsBehind place (ownRows rows result) none := by
  rw [resultRows, rowsBehind, insertionSort_precedes]
  simp [ownRows]

theorem resultRows_behind (rows : List (Evaluation (List Char))) (result : RunResult)
    (anchor : Evaluation (List Char)) :
    resultRows (rows.filter fun row => decide (behind anchor row)) result.id =
      rowsBehind place (ownRows rows result) (some (place anchor)) := by
  rw [resultRows, rowsBehind, insertionSort_precedes, ownRows, List.filter_filter,
    List.filter_filter]
  congr 1
  apply List.filter_congr
  intro row _
  simp [behind_iff, Bool.and_comm]

theorem place_injective {rows : List (Evaluation (List Char))} (keyed : Keyed Evaluation.id rows) :
    (rows.map place).Nodup := by
  apply List.Nodup.of_map (fun spot : Nat ×ₗ Nat => (ofLex spot).2)
  rw [List.map_map]
  exact keyed

theorem Sound.ownRows_distinct (sound : Sound library base history)
    (result : RunResult) : ((ownRows history.evaluations result).map place).Nodup :=
  (place_injective sound.keyed).sublist (List.filter_sublist.map place)

theorem mem_ownRows {rows : List (Evaluation (List Char))} :
    row ∈ ownRows rows result ↔ row ∈ rows ∧ row.resultId = result.id := by
  simp [ownRows]

theorem Sound.mapM_isOk (sound : Sound library base history)
    (found : getResult base projectId runId none = .ok result)
    {rows : List (Evaluation (List Char))}
    (own : ∀ row ∈ rows, row ∈ ownRows history.evaluations result) :
    ∃ items, rows.mapM (storedRow library projectId result) = .ok items := by
  apply Library.mapM_isOk
  intro row mem
  obtain ⟨here, bound⟩ := mem_ownRows.mp (own row mem)
  exact sound.stored_of_owner here found bound

theorem Sound.listForRun_ok (sound : Sound library base history)
    (found : getResult base projectId runId none = .ok result) :
    ∃ items, listForRun library base history.evaluations projectId runId = .ok items ∧
      List.Forall₂ (fun row item => storedRow library projectId result row = .ok item)
        (rowsBehind place (ownRows history.evaluations result) none) items := by
  have own : ∀ row ∈ rowsBehind place (ownRows history.evaluations result) none,
      row ∈ ownRows history.evaluations result := fun row mem => (mem_rowsBehind.mp mem).1
  obtain ⟨items, read⟩ := sound.mapM_isOk found own
  refine ⟨items, ?_, mapM_eq_ok_iff.mp read⟩
  simp only [listForRun, found, resultRows_eq, read, ok_bind]

inductive Anchored (rows : List (Evaluation (List Char))) : Option Uuid → Option (Nat ×ₗ Nat) → Prop
  | start : Anchored rows none none
  | row {anchor : Evaluation (List Char)} (mem : anchor ∈ rows) :
      Anchored rows (some anchor.id) (some (place anchor))

variable {after : Option Uuid}

theorem afterAnchor_ok {rows : List (Evaluation (List Char))}
    {selected : List (Evaluation (List Char))}
    (read : afterAnchor library rows projectId result after = .ok selected) :
    ∃ spot, Anchored (ownRows rows result) after spot ∧
      resultRows selected result.id = rowsBehind place (ownRows rows result) spot := by
  cases after with
  | none =>
    rw [afterAnchor, pure_eq_ok] at read
    exact ⟨none, .start, read ▸ resultRows_eq rows result⟩
  | some after =>
    simp only [afterAnchor, bind_eq_ok, orFault_eq_ok, pure_eq_ok] at read
    obtain ⟨anchor, lookup, _, _, rfl⟩ := read
    have is := List.find?_some lookup
    simp only [decide_eq_true_eq] at is
    obtain ⟨rfl, bound⟩ := is
    have mem : anchor ∈ ownRows rows result :=
      mem_ownRows.mpr ⟨List.mem_of_find?_eq_some lookup, bound⟩
    exact ⟨_, .row mem, resultRows_behind rows result anchor⟩

variable {spot : Option (Nat ×ₗ Nat)}

theorem Sound.afterAnchor_isOk (sound : Sound library base history)
    (found : getResult base projectId runId none = .ok result)
    (anchored : Anchored (ownRows history.evaluations result) after spot) :
    ∃ selected, afterAnchor library history.evaluations projectId result after = .ok selected := by
  cases anchored with
  | start => exact ⟨_, rfl⟩
  | @row anchor mem =>
    obtain ⟨here, bound⟩ := mem_ownRows.mp mem
    obtain ⟨stored, read⟩ := sound.stored_of_owner here found bound
    have lookup : history.evaluations.find? (fun row =>
        decide (row.id = anchor.id ∧ row.resultId = result.id)) = some anchor :=
      sound.keyed.find_of here (by simp [bound])
        fun other named => (of_decide_eq_true named).1
    refine ⟨history.evaluations.filter fun row => decide (behind anchor row), ?_⟩
    simp only [afterAnchor, lookup, read, orFault_some, ok_bind]
    rfl

variable {items : List StoredEvaluation}

theorem exists_row {rows : List (Evaluation (List Char))}
    (read : List.Forall₂ (fun row item => storedRow library projectId result row = .ok item)
      rows items) {item : StoredEvaluation} (mem : item ∈ items) :
    ∃ row ∈ rows, storedRow library projectId result row = .ok item := by
  induction read with
  | nil => cases mem
  | @cons row first rows items head tail ih =>
    rcases List.mem_cons.mp mem with rfl | later
    · exact ⟨row, List.mem_cons_self, head⟩
    · obtain ⟨row', mem', read'⟩ := ih later
      exact ⟨row', List.mem_cons_of_mem row mem', read'⟩

theorem exists_item {rows : List (Evaluation (List Char))}
    (read : List.Forall₂ (fun row item => storedRow library projectId result row = .ok item)
      rows items) (mem : row ∈ rows) :
    ∃ item ∈ items, storedRow library projectId result row = .ok item := by
  induction read with
  | nil => cases mem
  | @cons first item rows items head tail ih =>
    rcases List.mem_cons.mp mem with rfl | later
    · exact ⟨item, List.mem_cons_self, head⟩
    · obtain ⟨item', mem', read'⟩ := ih later
      exact ⟨item', List.mem_cons_of_mem item mem', read'⟩

theorem map_evaluationId
    {rows : List (Evaluation (List Char))}
    (read : List.Forall₂ (fun row item => storedRow library projectId result row = .ok item)
      rows items) : items.map StoredEvaluation.evaluationId = rows.map Evaluation.id := by
  induction read with
  | nil => rfl
  | cons head _ ih => rw [List.map_cons, List.map_cons, ih, (storedRow_ok head).id]

theorem listPage_ok {rows : List (Evaluation (List Char))} {limit : Nat}
    {page : StoredEvaluationPage}
    (read : listPage library base rows projectId runId limit after = .ok page) :
    ∃ result spot, getResult base projectId runId none = .ok result ∧ 0 < limit ∧
      Anchored (ownRows rows result) after spot ∧
      List.Forall₂ (fun row item => storedRow library projectId result row = .ok item)
        (pageRows place (ownRows rows result) limit spot) page.items ∧
      Anchored (ownRows rows result) page.nextCursor
        (pageCursor place (ownRows rows result) limit spot) := by
  simp only [listPage, bind_eq_ok, require_eq_ok, exists_unit, pure_eq_ok] at read
  obtain ⟨⟨positive, _⟩, _, result, found, selected, anchor, checked, items, rfl⟩ := read
  obtain ⟨spot, anchored, window⟩ := afterAnchor_ok anchor
  rw [window] at items
  have all := mapM_eq_ok_iff.mp items
  have shown : List.Forall₂ (fun row item => storedRow library projectId result row = .ok item)
      (pageRows place (ownRows rows result) limit spot) (checked.take limit) := by
    have firsts := List.forall₂_take limit all
    rwa [List.take_take, Nat.min_eq_left (Nat.le_succ limit)] at firsts
  refine ⟨result, spot, found, positive, anchored, shown, ?_⟩
  have longer : limit < checked.length ↔
      limit < (rowsBehind place (ownRows rows result) spot).length := by
    rw [← all.length_eq, List.length_take]
    omega
  by_cases more : limit < (rowsBehind place (ownRows rows result) spot).length
  · have filled : 0 < (pageRows place (ownRows rows result) limit spot).length := by
      rw [pageRows, List.length_take]
      omega
    obtain ⟨last, isLast⟩ : ∃ last,
        (pageRows place (ownRows rows result) limit spot).getLast? = some last :=
      ⟨_, List.getLast?_eq_some_getLast (List.ne_nil_of_length_pos filled)⟩
    have named : (checked.take limit).getLast?.map StoredEvaluation.evaluationId =
        some last.id := by
      rw [← List.getLast?_map, map_evaluationId shown, List.getLast?_map, isLast]
      rfl
    rw [pageCursor, if_pos more, if_pos (longer.mpr more), named, isLast]
    exact .row (mem_pageRows (List.mem_of_getLast? isLast)).1
  · rw [pageCursor, if_neg more, if_neg (fun long => more (longer.mp long))]
    exact .start

theorem Sound.listPage_isOk (sound : Sound library base history)
    (found : getResult base projectId runId none = .ok result) {limit : Nat}
    (allowed : 1 ≤ limit ∧ limit ≤ 100)
    (anchored : Anchored (ownRows history.evaluations result) after spot) :
    ∃ page, listPage library base history.evaluations projectId runId limit after = .ok page := by
  obtain ⟨selected, anchor⟩ := sound.afterAnchor_isOk found anchored
  obtain ⟨spot', _, window⟩ := afterAnchor_ok anchor
  have own : ∀ row ∈ (rowsBehind place (ownRows history.evaluations result) spot').take
      (limit + 1), row ∈ ownRows history.evaluations result :=
    fun row mem => (mem_rowsBehind.mp (List.mem_of_mem_take mem)).1
  obtain ⟨checked, items⟩ := sound.mapM_isOk found own
  have identified : after ≠ some 0 := by
    cases anchored with
    | start => exact fun same => by cases same
    | @row anchor mem =>
      obtain ⟨here, bound⟩ := mem_ownRows.mp mem
      obtain ⟨stored, read⟩ := sound.stored_of_owner here found bound
      exact fun same => (storedRow_ok read).identified (Option.some.inj same)
  have body : ∃ page, (do
      let checked ← ((resultRows selected result.id).take (limit + 1)).mapM
        (storedRow library projectId result)
      pure (StoredEvaluationPage.mk projectId runId result.id (checked.take limit)
        (if limit < checked.length then
          (checked.take limit).getLast?.map StoredEvaluation.evaluationId
        else none)) : Except Fault StoredEvaluationPage) = .ok page := by
    rw [window, items, ok_bind]
    exact ⟨_, rfl⟩
  obtain ⟨page, made⟩ := body
  refine ⟨page, ?_⟩
  simp only [listPage, require_of allowed, require_of identified, found, anchor, ok_bind]
  exact made

/-! ## Walks -/

/-- A walk through the pages of a Result while other calls go on: where it began, the
evaluations it was shown, the cursor it goes on with, and where its last page was read. -/
inductive PageWalk (library : StandardLibrary) (base : ResultTables) (projectId runId : Uuid)
    (start : History) : List StoredEvaluation → Option Uuid → History → Prop
  | first {limit : Nat} {page : StoredEvaluationPage}
      (read : listPage library base start.evaluations projectId runId limit none = .ok page) :
      PageWalk library base projectId runId start page.items page.nextCursor start
  | next {visited : List StoredEvaluation} {cursor : Uuid} {history history' : History}
      {limit : Nat} {page : StoredEvaluationPage}
      (walk : PageWalk library base projectId runId start visited (some cursor) history)
      (meanwhile : (evaluationSystem library base).Reachable history history')
      (read : listPage library base history'.evaluations projectId runId limit (some cursor) =
        .ok page) :
      PageWalk library base projectId runId start (visited ++ page.items) page.nextCursor history'

theorem ownRows_subset {rows rows' : List (Evaluation (List Char))} (grown : rows ⊆ rows')
    (result : RunResult) : ownRows rows result ⊆ ownRows rows' result := by
  intro row mem
  obtain ⟨here, bound⟩ := mem_ownRows.mp mem
  exact mem_ownRows.mpr ⟨grown here, bound⟩

theorem Anchored.unique (sound : Sound library base history)
    {spot' : Option (Nat ×ₗ Nat)}
    (anchored : Anchored (ownRows history.evaluations result) after spot)
    (anchored' : Anchored (ownRows history.evaluations result) after spot') : spot = spot' := by
  cases anchored with
  | start =>
    cases anchored'
    rfl
  | @row anchor mem =>
    generalize named : some anchor.id = cursor at anchored'
    cases anchored' with
    | start => cases named
    | @row anchor' mem' =>
      have same := sound.keyed.eq_of_key (mem_ownRows.mp mem).1 (mem_ownRows.mp mem').1
        (Option.some.inj named)
      rw [same]

theorem Anchored.grow {rows rows' : List (Evaluation (List Char))} (grown : rows ⊆ rows')
    (anchored : Anchored rows after spot) :
    Anchored rows' after spot := by
  cases anchored with
  | start => exact .start
  | row mem => exact .row (grown mem)

theorem PageWalk.rows {projectId runId : Uuid} {result : RunResult}
    (found : getResult base projectId runId none = .ok result) {start history : History}
    {visited : List StoredEvaluation} {next : Option Uuid} (sound : Sound library base start)
    (walk : PageWalk library base projectId runId start visited next history) :
    ∃ rows spot, Walk place (ownRows start.evaluations result) rows spot
        (ownRows history.evaluations result) ∧
      Sound library base history ∧ Anchored (ownRows history.evaluations result) next spot ∧
      List.Forall₂ (fun row item => storedRow library projectId result row = .ok item)
        rows visited := by
  induction walk with
  | first read =>
    obtain ⟨result', spot, found', positive, anchored, shown, next⟩ := listPage_ok read
    cases found.symm.trans found'
    cases anchored
    exact ⟨_, _, .first (sound.ownRows_distinct result) positive, sound, next, shown⟩
  | @next visited cursor history history' limit page walk meanwhile read ih =>
    obtain ⟨rows, spot, rowWalk, here, anchored, before⟩ := ih
    have sound' := sound_invariant.reachable here meanwhile
    have grown := ownRows_subset (evaluations_grow meanwhile) result
    obtain ⟨result', spot', found', positive, anchored', shown, next⟩ := listPage_ok read
    cases found.symm.trans found'
    cases Anchored.unique sound' (anchored.grow grown) anchored'
    cases anchored' with
    | row mem =>
      exact ⟨_, _, .next rowWalk grown (sound'.ownRows_distinct result) positive, sound', next,
        List.rel_append before shown⟩

def shownBefore (first second : StoredEvaluation) : Prop :=
  first.createdAt < second.createdAt ∨
    first.createdAt = second.createdAt ∧ first.evaluationId < second.evaluationId

theorem shown_increasing
    {rows : List (Evaluation (List Char))}
    (read : List.Forall₂ (fun row item => storedRow library projectId result row = .ok item)
      rows items)
    (increasing : rows.Pairwise fun first second => place first < place second) :
    items.Pairwise shownBefore := by
  induction read with
  | nil => exact List.Pairwise.nil
  | @cons row item rows items head tail ih =>
    rw [List.pairwise_cons] at increasing ⊢
    refine ⟨?_, ih increasing.2⟩
    intro other mem
    obtain ⟨row', mem', read'⟩ := exists_row tail mem
    have before := (behind_iff row row').mpr (increasing.1 row' mem')
    rw [shownBefore, (storedRow_ok head).created, (storedRow_ok head).id,
      (storedRow_ok read').created, (storedRow_ok read').id]
    exact before

theorem shownBefore_iff
    {row' : Evaluation (List Char)} {item item' : StoredEvaluation}
    (read : storedRow library projectId result row = .ok item)
    (read' : storedRow library projectId result row' = .ok item') :
    shownBefore item item' ↔ place row < place row' := by
  rw [← behind_iff, shownBefore, behind, (storedRow_ok read).created, (storedRow_ok read).id,
    (storedRow_ok read').created, (storedRow_ok read').id]

/-- A Result is read as a whole: the list has every evaluation of it, and a page has exactly
those behind the cursor up to the next cursor. -/
structure ReadWhole (library : StandardLibrary) (base : ResultTables) (projectId runId : Uuid)
    (result : RunResult) (history : History) (items : List StoredEvaluation) : Prop where
  listed : listForRun library base history.evaluations projectId runId = .ok items
  ordered : items.Pairwise shownBefore
  whole : ∀ row ∈ history.evaluations, row.resultId = result.id →
    ∃ item ∈ items, storedRow library projectId result row = .ok item
  page : ∀ limit, 1 ≤ limit ∧ limit ≤ 100 → ∀ cursor : Option StoredEvaluation,
    (∀ item ∈ cursor, item ∈ items) →
      ∃ (page : StoredEvaluationPage) (next : Option StoredEvaluation),
      listPage library base history.evaluations projectId runId limit
        (cursor.map StoredEvaluation.evaluationId) = .ok page ∧
      page.nextCursor = next.map StoredEvaluation.evaluationId ∧ (∀ item ∈ next, item ∈ items) ∧
      ∀ item, item ∈ page.items ↔
        item ∈ items ∧ (∀ first ∈ cursor, shownBefore first item) ∧
          ∀ last ∈ next, ¬ shownBefore last item

theorem exists_anchor
    {rows : List (Evaluation (List Char))}
    (read : List.Forall₂ (fun row item => storedRow library projectId result row = .ok item)
      (rowsBehind place rows none) items) {cursor : Option StoredEvaluation}
    (mine : ∀ item ∈ cursor, item ∈ items) :
    ∃ spot, Anchored rows (cursor.map StoredEvaluation.evaluationId) spot ∧
      ∀ row item, storedRow library projectId result row = .ok item →
        ((∀ first ∈ cursor, shownBefore first item) ↔ ∀ here ∈ spot, here < place row) := by
  cases cursor with
  | none => exact ⟨none, .start, by simp⟩
  | some first =>
    obtain ⟨anchor, mem, readFirst⟩ := exists_row read (mine first rfl)
    refine ⟨some (place anchor), ?_, ?_⟩
    · rw [Option.map_some, (storedRow_ok readFirst).id]
      exact .row (mem_rowsBehind.mp mem).1
    · intro row item readItem
      simp [shownBefore_iff readFirst readItem]

theorem Sound.readWhole (sound : Sound library base history)
    (found : getResult base projectId runId none = .ok result) :
    ∃ items, ReadWhole library base projectId runId result history items := by
  obtain ⟨items, listed, read⟩ := sound.listForRun_ok found
  have distinct := sound.ownRows_distinct result
  refine ⟨items, listed, shown_increasing read (rowsBehind_increasing distinct none), ?_, ?_⟩
  · intro row mem bound
    exact exists_item read (mem_rowsBehind.mpr ⟨mem_ownRows.mpr ⟨mem, bound⟩, by simp⟩)
  · intro limit allowed cursor mine
    obtain ⟨spot, anchored, behindCursor⟩ := exists_anchor read mine
    obtain ⟨page, paged⟩ := sound.listPage_isOk found allowed anchored
    obtain ⟨result', spot', found', positive, anchored', shown, next⟩ := listPage_ok paged
    cases found.symm.trans found'
    cases Anchored.unique sound anchored anchored'
    obtain ⟨last, lastMine, lastNamed, lastPlace⟩ : ∃ last : Option StoredEvaluation,
        (∀ item ∈ last, item ∈ items) ∧
          page.nextCursor = last.map StoredEvaluation.evaluationId ∧
          ∀ row item, storedRow library projectId result row = .ok item →
            ((∀ final ∈ last, ¬ shownBefore final item) ↔
              ∀ here ∈ pageCursor place (ownRows history.evaluations result) limit spot,
                place row ≤ here) := by
      generalize page.nextCursor = named at next
      generalize pageCursor place (ownRows history.evaluations result) limit spot = final at next
      cases next with
      | start => exact ⟨none, by simp, rfl, by simp⟩
      | @row anchor mem =>
        obtain ⟨item, itemMem, readItem⟩ := exists_item read
          (mem_rowsBehind.mpr ⟨mem, by simp⟩)
        refine ⟨some item, ?_, ?_, ?_⟩
        · intro other same
          cases same
          exact itemMem
        · rw [Option.map_some, (storedRow_ok readItem).id]
        · intro row other readOther
          simp [shownBefore_iff readItem readOther]
    refine ⟨page, last, paged, lastNamed, lastMine, ?_⟩
    intro item
    constructor
    · intro mem
      obtain ⟨row, inPage, readItem⟩ := exists_row shown mem
      obtain ⟨own, later⟩ := mem_pageRows inPage
      obtain ⟨other, otherMem, readOther⟩ := exists_item read (mem_rowsBehind.mpr ⟨own, by simp⟩)
      cases readItem.symm.trans readOther
      exact ⟨otherMem, (behindCursor row item readItem).mpr later,
        (lastPlace row item readItem).mpr fun here final => pageRows_le distinct final inPage⟩
    · rintro ⟨mem, later, reached⟩
      obtain ⟨row, inList, readItem⟩ := exists_row read mem
      have inPage := pageRows_covers distinct positive (mem_rowsBehind.mp inList).1
        ((behindCursor row item readItem).mp later) ((lastPlace row item readItem).mp reached)
      obtain ⟨other, otherMem, readOther⟩ := exists_item shown inPage
      cases readItem.symm.trans readOther
      exact otherMem

/-- What was answered to an accepted command is read from then on, once its transaction is
committed. -/
structure Kept (library : StandardLibrary) (base : ResultTables) (projectId runId : Uuid)
    (result : RunResult) (row : Evaluation (List Char)) (stored : StoredEvaluation)
    (later : History) : Prop where
  confirmed : ∀ submissionKey, row.submissionKey = some submissionKey →
    getSubmission library base later.evaluations projectId runId row.userId submissionKey
      result.id = .ok ⟨projectId, runId, submissionKey, stored, true⟩
  listed : ∃ items, ReadWhole library base projectId runId result later items ∧ stored ∈ items

theorem Sound.kept {later : History} (sound : Sound library base later)
    (found : getResult base projectId runId none = .ok result)
    {stored : StoredEvaluation} (read : storedRow library projectId result row = .ok stored)
    (mem : row ∈ later.evaluations) :
    Kept library base projectId runId result row stored later := by
  refine ⟨fun submissionKey keyed => sound.getSubmission_eq mem found read keyed, ?_⟩
  obtain ⟨items, whole⟩ := sound.readWhole found
  obtain ⟨item, itemMem, readItem⟩ := whole.whole row mem (storedRow_ok read).result_id
  cases read.symm.trans readItem
  exact ⟨items, whole, itemMem⟩

theorem PageWalk.complete
    (found : getResult base projectId runId none = .ok result) {start : History}
    {visited : List StoredEvaluation} {next : Option Uuid} (sound : Sound library base start)
    (walk : PageWalk library base projectId runId start visited next history) :
    visited.Pairwise shownBefore ∧
      ∀ row ∈ start.evaluations, row.resultId = result.id →
        (∀ anchor ∈ history.evaluations, next = some anchor.id → ¬ behind anchor row) →
          ∃ item ∈ visited, storedRow library projectId result row = .ok item := by
  obtain ⟨rows, spot, rowWalk, _, anchored, shown⟩ := walk.rows found sound
  refine ⟨shown_increasing shown rowWalk.increasing, ?_⟩
  intro row mem bound reached
  apply exists_item shown
  apply rowWalk.covers row (mem_ownRows.mpr ⟨mem, bound⟩)
  intro here at_here
  cases anchored with
  | start => cases at_here
  | @row anchor anchorMem =>
    cases at_here
    have free := reached anchor (mem_ownRows.mp anchorMem).1 rfl
    rw [behind_iff, not_lt] at free
    exact free

/-- The evaluations of a Result over every run of calls.  A submission is stored at most once;
a repeated one is answered with what is stored when its content is equal and refused when it is
not, and adds nothing.  What an accepted command was answered shows the command and the values
of the Result, and every read from its commit on shows the same.  A walk along the cursors
shows every evaluation that was there when it began exactly once, in order. -/
theorem evaluations_submitted_once {history : History}
    (reached : (evaluationSystem library base).Reachable ⟨[], []⟩ history)
    {projectId runId : Uuid} {result : RunResult}
    (found : getResult base projectId runId none = .ok result) :
    (∀ userId submissionKey, (history.evaluations.filter fun row =>
      row.submittedAs result.id userId submissionKey).length ≤ 1) ∧
    (∀ original ∈ history.evaluations, ∀ command submissionKey id now requestHash,
      command.projectId = projectId → command.runId = runId →
      original.submittedAs result.id command.userId submissionKey = true →
      evaluationRequestHash library command result.id submissionKey = .ok requestHash →
      ∃ stored, storedRow library projectId result original = .ok stored ∧
        ((stored.command projectId).SameContent command →
          perform library base (.submit command submissionKey result.id id now) history =
            .ok (.submission ⟨projectId, runId, submissionKey, stored, true⟩, history)) ∧
        (NoCollision library
            (submissionContent (stored.command projectId) result.id submissionKey)
            (submissionContent command result.id submissionKey) →
          ¬ (stored.command projectId).SameContent command →
            perform library base (.submit command submissionKey result.id id now) history =
              .error ⟨.evaluationSubmissionConflictError,
                "Evaluation submission content conflicts"⟩)) ∧
    (∀ command submissionKey id now receipt history',
      command.projectId = projectId → command.runId = runId →
      perform library base (.submit command submissionKey result.id id now) history =
        .ok (.submission receipt, history') → receipt.idempotentReplay = false →
      receipt.evaluation.Shows command result ∧ ∃ row,
        history' = { history with opened := history.opened ++ [row] } ∧
        row.submittedAs result.id command.userId submissionKey = true ∧
        ∀ later, (evaluationSystem library base).Reachable history' later →
          row ∈ later.evaluations →
            Kept library base projectId runId result row receipt.evaluation later) ∧
    (∀ command id now stored history',
      command.projectId = projectId → command.runId = runId →
      perform library base (.create command id now) history =
        .ok (.evaluation stored, history') →
      stored.Shows command result ∧ ∃ row,
        history' = { history with opened := history.opened ++ [row] } ∧
        ∀ later, (evaluationSystem library base).Reachable history' later →
          row ∈ later.evaluations →
            Kept library base projectId runId result row stored later) ∧
    (∃ items, ReadWhole library base projectId runId result history items) ∧
    ∀ visited next later, PageWalk library base projectId runId history visited next later →
      visited.Pairwise shownBefore ∧
        ∀ row ∈ history.evaluations, row.resultId = result.id →
          (∀ anchor ∈ later.evaluations, next = some anchor.id → ¬ behind anchor row) →
            ∃ item ∈ visited, storedRow library projectId result row = .ok item := by
  have sound := sound_invariant.reachable sound_empty reached
  have named : getResult base projectId runId (some result.id) = .ok result := by
    obtain ⟨run, here, _⟩ := getResult_eq_ok.mp found
    exact getResult_eq_ok.mpr ⟨run, here, by simp⟩
  refine ⟨sound.submitted_once result.id, ?_, ?_, ?_, sound.readWhole found,
    fun visited next later walk => walk.complete found sound⟩
  · rintro original mem command submissionKey id now requestHash rfl rfl submitted hashed
    obtain ⟨stored, read, again, conflict⟩ :=
      sound.submit_again mem id now named hashed submitted
    refine ⟨stored, read, ?_, ?_⟩
    · intro same
      simp only [perform, again same, ok_bind, Option.toList_none, List.append_nil]
      rfl
    · intro collisionFree different
      simp only [perform, conflict collisionFree different]
      rfl
  · rintro command submissionKey id now receipt history' rfl rfl done fresh
    have next := TransactionSystem.Reachable.commit (evaluationSystem library base)
      (a := .submit command submissionKey result.id id now) reached done
    simp only [perform, bind_eq_ok, pure_eq_ok, Prod.exists, Prod.mk.injEq,
      Answer.submission.injEq] at done
    obtain ⟨_, added, outcome, rfl, rfl⟩ := done
    obtain ⟨result', found', _, ⟨rfl, replayed⟩ | ⟨row, stored, rfl, rfl, appended⟩⟩ :=
      submit_ok outcome
    · rw [replayed] at fresh
      cases fresh
    · cases found.symm.trans found'
      obtain ⟨read, shows, _, keyed⟩ := append_ok (getResult_eq_ok.mp found).2.1.2 appended
      have author : row.userId = command.userId := by
        rw [← (storedRow_ok read).user]
        exact congrArg CreateEvaluationCommand.userId shows.1
      refine ⟨shows, row, rfl, ?_, ?_⟩
      · simp [Evaluation.submittedAs, (storedRow_ok read).result_id, author, keyed]
      · intro later follows mem
        exact (sound_invariant.reachable (sound_invariant.reachable sound_empty next)
          follows).kept found read mem
  · rintro command id now stored history' rfl rfl done
    have next := TransactionSystem.Reachable.commit (evaluationSystem library base)
      (a := .create command id now) reached done
    simp only [perform, create, bind_eq_ok, exists_unit, pure_eq_ok, Prod.exists, Prod.mk.injEq,
      Answer.evaluation.injEq] at done
    obtain ⟨stored', row, ⟨_, result', found', appended⟩, rfl, rfl⟩ := done
    cases found.symm.trans found'
    obtain ⟨read, shows, _, _⟩ := append_ok (getResult_eq_ok.mp found).2.1.2 appended
    refine ⟨shows, row, rfl, ?_⟩
    intro later follows mem
    exact (sound_invariant.reachable (sound_invariant.reachable sound_empty next)
      follows).kept found read mem

/-- The digests of the two contents below; the first letter of the comment tells them apart. -/
def sampleSha256 (text : String) : HexDigest :=
  if text.toUTF8.data.toList[12]? = some 0x6f then
    .ofNat 0x0aac934d4aed244109beffdc5cd800db16e4e5d5e053ca6432f4ce542e2e2398
  else
    .ofNat 0x1f53df37f12bb4aa033912d2ab22c79824dfb7984169f6c96cd106c7d49f8696

def sampleLibrary : StandardLibrary where
  isalnum c := c.isAlphanum
  sha256 := sampleSha256

def sampleResult : RunResult := ⟨3, 2, ⟨.object [("title", .string "x")], by decide⟩⟩

def sampleBase : ResultTables :=
  ⟨[⟨2, 1⟩], [sampleResult], List.nodup_singleton _, List.nodup_singleton _,
    List.nodup_singleton _⟩

def sampleCommand : CreateEvaluationCommand :=
  ⟨1, 2, 4, 3, .accurate, "ok", [⟨"/title", .string "y", "typo"⟩]⟩

def conflictingCommand : CreateEvaluationCommand :=
  { sampleCommand with rating := 2, comment := "brief" }

/-- The history behind an evaluation without a key and a submission, and their commits. -/
def sampleHistory : History :=
  let system := evaluationSystem sampleLibrary sampleBase
  let flushed := system.run ⟨[], []⟩ [.create sampleCommand 6 7, .submit sampleCommand 9 3 8 7]
  system.run flushed (flushed.opened.map Call.commit)

def unkeyedRow : Evaluation (List Char) :=
  ⟨6, 3, 4, 3, "accurate", "ok",
    dumps (.array [revisionObject "/title" (.string "x") (.string "y") "typo"]), none, none, 7⟩

def sampleRow : Evaluation (List Char) :=
  ⟨8, 3, 4, 3, "accurate", "ok",
    dumps (.array [revisionObject "/title" (.string "x") (.string "y") "typo"]), some 9,
    some "sha256:0aac934d4aed244109beffdc5cd800db16e4e5d5e053ca6432f4ce542e2e2398", 7⟩

theorem sampleHistory_reached :
    (evaluationSystem sampleLibrary sampleBase).Reachable ⟨[], []⟩ sampleHistory :=
  (TransactionSystem.Reachable.refl _ _).run _ _ |>.run _ _

theorem sampleHistory_rows : sampleHistory.evaluations = [unkeyedRow, sampleRow] := by
  decide +kernel

theorem sampleRow_read : ∃ stored,
    storedRow sampleLibrary 1 sampleResult sampleRow = .ok stored ∧
      stored.command 1 = sampleCommand := by
  have adds : (append sampleLibrary sampleCommand sampleResult (some 9) 8 7).toOption.map
      Prod.snd = some sampleRow := by decide +kernel
  obtain ⟨⟨stored, row⟩, added, same⟩ := exists_ok_of_map adds
  obtain ⟨read, shows, -⟩ := append_ok rfl added
  have same : row = sampleRow := same
  exact ⟨stored, same ▸ read, shows.1⟩

def pageShown (page : StoredEvaluationPage) : List Uuid × Option Uuid :=
  (page.items.map StoredEvaluation.evaluationId, page.nextCursor)

/-- Two pages with one evaluation each. -/
theorem sample_walk : ∃ visited,
    PageWalk sampleLibrary sampleBase 1 2 sampleHistory visited none sampleHistory ∧
      visited.map StoredEvaluation.evaluationId = [6, 8] := by
  have reads : (listPage sampleLibrary sampleBase [unkeyedRow, sampleRow] 1 2 1
      none).toOption.map pageShown = some ([6], some 6) := by decide +kernel
  have goesOn : (listPage sampleLibrary sampleBase [unkeyedRow, sampleRow] 1 2 1
      (some 6)).toOption.map pageShown = some ([8], none) := by decide +kernel
  rw [← sampleHistory_rows] at reads goesOn
  obtain ⟨first, readFirst, shownFirst⟩ := exists_ok_of_map reads
  obtain ⟨second, readSecond, shownSecond⟩ := exists_ok_of_map goesOn
  obtain ⟨itemsFirst, cursor⟩ := Prod.mk.inj shownFirst
  obtain ⟨itemsSecond, ends⟩ := Prod.mk.inj shownSecond
  have start := PageWalk.first readFirst
  rw [cursor] at start
  have walk := PageWalk.next start (.refl _ _) readSecond
  rw [ends] at walk
  exact ⟨_, walk, by rw [List.map_append, itemsFirst, itemsSecond]; rfl⟩

theorem evaluations_submitted_once_sample :
    (sampleHistory.evaluations.filter fun row => row.submittedAs 3 4 9).length ≤ 1 ∧
      (∃ stored, perform sampleLibrary sampleBase (.submit sampleCommand 9 3 10 8) sampleHistory =
        .ok (.submission ⟨1, 2, 9, stored, true⟩, sampleHistory)) ∧
      perform sampleLibrary sampleBase (.submit conflictingCommand 9 3 11 8) sampleHistory =
        .error ⟨.evaluationSubmissionConflictError,
          "Evaluation submission content conflicts"⟩ ∧
      (∃ visited,
        PageWalk sampleLibrary sampleBase 1 2 sampleHistory visited none sampleHistory ∧
          visited.map StoredEvaluation.evaluationId = [6, 8] ∧ visited.Pairwise shownBefore) ∧
      ∃ items, ReadWhole sampleLibrary sampleBase 1 2 sampleResult sampleHistory items := by
  obtain ⟨once, again, -, -, whole, walks⟩ :=
    evaluations_submitted_once sampleHistory_reached
      (show getResult sampleBase 1 2 none = .ok sampleResult from rfl)
  obtain ⟨stored, read, shows⟩ := sampleRow_read
  have mem : sampleRow ∈ sampleHistory.evaluations := by simp [sampleHistory_rows]
  obtain ⟨hash, repeats⟩ : ∃ hash,
      evaluationRequestHash sampleLibrary sampleCommand 3 9 = .ok hash :=
    exists_ok (by decide +kernel)
  obtain ⟨other, differs⟩ : ∃ hash,
      evaluationRequestHash sampleLibrary conflictingCommand 3 9 = .ok hash :=
    exists_ok (by decide +kernel)
  refine ⟨once 4 9, ?_, ?_, ?_, whole⟩
  · obtain ⟨stored', read', same, -⟩ :=
      again sampleRow mem sampleCommand 9 10 8 hash rfl rfl (by decide) repeats
    cases read.symm.trans read'
    have equal : (stored.command 1).SameContent sampleCommand := by
      rw [shows]
      exact ⟨rfl, rfl, rfl, .cons ⟨rfl, .refl _, rfl⟩ .nil⟩
    exact ⟨stored, same equal⟩
  · obtain ⟨stored', read', -, conflict⟩ :=
      again sampleRow mem conflictingCommand 9 11 8 other rfl rfl (by decide) differs
    cases read.symm.trans read'
    rw [shows] at conflict
    have apart :
        (sampleLibrary.sha256 (canonicalJson (submissionContent sampleCommand 3 9))).digits ≠
          (sampleLibrary.sha256
            (canonicalJson (submissionContent conflictingCommand 3 9))).digits := by
      decide +kernel
    exact conflict (fun same => absurd (congrArg HexDigest.digits same) apart)
      fun same => absurd same.rating (by decide)
  · obtain ⟨visited, walk, shown⟩ := sample_walk
    exact ⟨visited, walk, shown, (walks visited none _ walk).1⟩

end SkillMind.Evaluations
