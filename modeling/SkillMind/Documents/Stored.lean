import SkillMind.Documents.Namespace
import SkillMind.Documents.Paths

/-!
# What every stored document is

Whatever the uploads, the publications of effects, the moves and the recycle bin do, a document
keeps a path that the upload checks leave as it is, a media type, a size and a content hash, and
no two active documents of a project share a folder and a name.

The last needs less than the separation of files and folders: each way to a path looks for an
active document that is on it.
-/

namespace SkillMind.Documents

open Library SkillMind.Core
open Runs (Uuid Timestamp)

/-- `f"sha256:{…}"` of some bytes. -/
def taggedHash (contentHash : List UInt8 → HexDigest) (content : List UInt8) : String :=
  String.ofList ("sha256:".toList ++ (contentHash content).digits)

def programSettings (tables : UnicodeTables) (contentHash : List UInt8 → HexDigest)
    (settings : DocumentSettings) : DocumentSettings :=
  { settings with
    uploads := { settings.uploads with
      canonicalPath := pathIsCanonical tables
      validChecksum := isTaggedSha256 }
    effects := { settings.effects with
      contentChecksum := taggedHash contentHash
      canonicalPath := pathIsCanonical tables
      validChecksum := isTaggedSha256 }
    checkPath := fun projectId folder name =>
      require (pathIsCanonical tables projectId folder name = true)
        ⟨.uploadRejectedError, "The path is not canonical"⟩ }

theorem isTaggedSha256_taggedHash (contentHash : List UInt8 → HexDigest) (content : List UInt8) :
    isTaggedSha256 (taggedHash contentHash content) = true := by
  have chars : (taggedHash contentHash content).toList =
      "sha256:".toList ++ (contentHash content).digits := String.toList_ofList
  simp only [isTaggedSha256, chars, List.take_left', List.drop_left',
    (contentHash content).length_eq, (contentHash content).hexadecimal, beq_self_eq_true,
    Bool.and_self]

/-! ## The invariant -/

structure Storable (tables : UnicodeTables) (row : ProjectDocument) : Prop where
  path : pathIsCanonical tables row.projectId row.folder row.name = true
  mime : row.mime ≠ ""
  size : 0 ≤ row.size
  checksum : isTaggedSha256 row.checksum = true

/-- Two active documents of one project on one path. -/
def Clashing (d d' : ProjectDocument) : Prop :=
  d.projectId = d'.projectId ∧ d.deletedAt = none ∧ d'.deletedAt = none ∧ d.folder = d'.folder ∧
    d.name = d'.name

structure Shelved (tables : UnicodeTables) (documents : List ProjectDocument) : Prop where
  keyed : Keyed ProjectDocument.id documents
  distinct : ∀ d ∈ documents, ∀ d' ∈ documents, Clashing d d' → d = d'
  storable : ∀ d ∈ documents, Storable tables d

variable {tables : UnicodeTables} {documents : List ProjectDocument}

theorem Clashing.symm {d d' : ProjectDocument} (clash : Clashing d d') : Clashing d' d :=
  ⟨clash.1.symm, clash.2.2.1, clash.2.1, clash.2.2.2.1.symm, clash.2.2.2.2.symm⟩

theorem Shelved.add (shelved : Shelved tables documents) {row : ProjectDocument}
    (storable : Storable tables row) (fresh : ∀ d ∈ documents, d.id ≠ row.id)
    (free : ∀ d ∈ documents, ¬ Clashing d row) : Shelved tables (documents ++ [row]) where
  keyed := shelved.keyed.add fun d mem => (fresh d mem).symm
  distinct := by
    intro d mem d' mem' clash
    rcases List.mem_append.mp mem with old | new <;> rcases List.mem_append.mp mem' with old' | new'
    · exact shelved.distinct d old d' old' clash
    · exact absurd (List.mem_singleton.mp new' ▸ clash) (free d old)
    · exact absurd (List.mem_singleton.mp new ▸ clash.symm) (free d' old')
    · rw [List.mem_singleton.mp new, List.mem_singleton.mp new']
  storable := by
    intro d mem
    rcases List.mem_append.mp mem with old | new
    · exact shelved.storable d old
    · rw [List.mem_singleton.mp new]
      exact storable

/-- The same document, seen from its path and its content. -/
structure SameFile (d d' : ProjectDocument) : Prop where
  project : d'.projectId = d.projectId
  folder : d'.folder = d.folder
  name : d'.name = d.name
  mime : d'.mime = d.mime
  size : d'.size = d.size
  checksum : d'.checksum = d.checksum

theorem Storable.same {d d' : ProjectDocument} (storable : Storable tables d)
    (same : SameFile d d') : Storable tables d' :=
  ⟨by rw [same.project, same.folder, same.name]; exact storable.path,
    by rw [same.mime]; exact storable.mime, by rw [same.size]; exact storable.size,
    by rw [same.checksum]; exact storable.checksum⟩

theorem Shelved.recycled (shelved : Shelved tables documents) {change : ProjectDocument →
    ProjectDocument} (ids : ∀ d, (change d).id = d.id) (same : ∀ d, SameFile d (change d))
    (fewer : ∀ d, (change d).deletedAt = none → change d = d) :
    Shelved tables (documents.map change) where
  keyed := shelved.keyed.map ids
  distinct := by
    intro d mem d' mem' clash
    obtain ⟨old, oldMem, rfl⟩ := List.mem_map.mp mem
    obtain ⟨old', oldMem', rfl⟩ := List.mem_map.mp mem'
    have kept := fewer old clash.2.1
    have kept' := fewer old' clash.2.2.1
    rw [kept, kept'] at clash ⊢
    exact shelved.distinct old oldMem old' oldMem' clash
  storable := by
    intro d mem
    obtain ⟨old, oldMem, rfl⟩ := List.mem_map.mp mem
    exact (shelved.storable old oldMem).same (same old)

theorem Shelved.recycle (shelved : Shelved tables documents) (documentId actorId : Uuid)
    (now : Timestamp) : Shelved tables (recycle documentId now actorId documents) := by
  apply shelved.recycled
  · intro d
    split <;> rfl
  · intro d
    split <;> exact ⟨rfl, rfl, rfl, rfl, rfl, rfl⟩
  · intro d active
    split at active
    · cases active
    · rename_i other
      rw [if_neg other]

theorem free_of_pathConflicts_active {t : DocumentTables} {projectId : Uuid} {folder : Folder}
    {name : String} {excluding : Option Uuid}
    (free : ¬ pathConflicts t projectId folder name excluding = true) :
    ∀ d ∈ t.documents, some d.id ≠ excluding → ¬ (d.projectId = projectId ∧ d.deletedAt = none ∧
      d.folder = folder ∧ d.name = name) := by
  rintro d mem other ⟨project, active, rfl, rfl⟩
  apply free
  simp only [pathConflicts, Bool.or_eq_true, List.any_eq_true, Bool.and_eq_true,
    decide_eq_true_eq]
  exact .inr ⟨d, mem, ⟨⟨project, by simp [active]⟩, other⟩, .inl (.inl rfl)⟩

variable {t t' : DocumentTables} {projectId : Uuid}

theorem trashOne_shelved {actorId : Uuid} {now : Timestamp} {change : RecycleChange}
    (shelved : Shelved tables t.documents)
    (trashed : trashOne projectId actorId now t change = .ok t') :
    Shelved tables t'.documents := by
  simp only [trashOne, recycledDocument, bind_eq_ok, orFault_eq_ok, require_eq_ok, exists_unit,
    pure_eq_ok] at trashed
  obtain ⟨_, ⟨row, found, -, rfl⟩, rest⟩ := trashed
  have known := List.mem_of_find?_eq_some found
  split at rest
  · simp only [bind_eq_ok, exists_unit, pure_eq_ok] at rest
    obtain ⟨-, rfl⟩ := rest
    have same : ∀ d ∈ t.documents, (if d.id = row.id then
        { row with deletedAt := some now, deletedBy := some actorId } else d) =
          if d.id = row.id then { d with deletedAt := some now, deletedBy := some actorId }
          else d := by
      intro d mem
      split
      · rename_i hit
        rw [shelved.keyed.eq_of_key mem known hit]
      · rfl
    show Shelved tables (replaceRow ProjectDocument.id _ t.documents)
    rw [replaceRow, List.map_congr_left same]
    exact shelved.recycle row.id actorId now
  · rw [pure_eq_ok] at rest
    exact rest ▸ shelved

theorem restoreOne_shelved {change : RecycleChange} (shelved : Shelved tables t.documents)
    (restored : restoreOne projectId t change = .ok t') : Shelved tables t'.documents := by
  simp only [restoreOne, recycledDocument, bind_eq_ok, orFault_eq_ok, require_eq_ok, exists_unit,
    pure_eq_ok] at restored
  obtain ⟨_, ⟨row, found, -, rfl⟩, unused, rfl⟩ := restored
  have known := List.mem_of_find?_eq_some found
  have free := free_of_pathConflicts_active (fun hit => unused (.inl hit))
  refine ⟨shelved.keyed.replaceRow _, ?_, ?_⟩
  · intro d mem d' mem' clash
    rcases mem_replaceRow mem with ⟨rfl, -⟩ | ⟨old, other⟩ <;>
      rcases mem_replaceRow mem' with ⟨rfl, -⟩ | ⟨old', other'⟩
    · rfl
    · exact absurd ⟨clash.1.symm, clash.2.2.1, clash.2.2.2.1.symm, clash.2.2.2.2.symm⟩
        (free d' old' (fun hit => other' (Option.some.inj hit)))
    · exact absurd ⟨clash.1, clash.2.1, clash.2.2.2.1, clash.2.2.2.2⟩
        (free d old (fun hit => other (Option.some.inj hit)))
    · exact shelved.distinct d old d' old' clash
  · intro d mem
    rcases mem_replaceRow mem with ⟨rfl, -⟩ | ⟨old, -⟩
    · exact (shelved.storable row known).same ⟨rfl, rfl, rfl, rfl, rfl, rfl⟩
    · exact shelved.storable d old

section Moves

variable {checkPath : Uuid → Folder → String → Except Fault Unit}
  {moved : List (Uuid × Folder × String)}

theorem planned_checked {changes : List FileChange}
    (planned : changes.foldlM (planMove checkPath t projectId) [] = .ok moved) :
    ∀ entry ∈ moved, checkPath projectId entry.2.1 entry.2.2 = .ok () := by
  refine foldlM_keeps (P := fun plan : List (Uuid × Folder × String) =>
    ∀ entry ∈ plan, checkPath projectId entry.2.1 entry.2.2 = .ok ()) ?_ (by simp) planned
  intro plan change plan' checked step
  simp only [planMove, bind_eq_ok, orFault_eq_ok, require_eq_ok, exists_unit, pure_eq_ok] at step
  obtain ⟨row, -, -, valid, -, rfl⟩ := step
  intro entry mem
  rcases List.mem_append.mp mem with before | now
  · exact checked entry before
  · rw [List.mem_singleton.mp now]
    exact valid

theorem shelved_of_destinations {directories : List Folder} {u : Unit}
    (shelved : Shelved tables t.documents)
    (checked : checkDestinations t projectId moved directories = .ok u)
    (canonical : ∀ entry ∈ moved, pathIsCanonical tables projectId entry.2.1 entry.2.2 = true) :
    Shelved tables (relocateAll projectId moved t.documents) where
  keyed := by
    unfold Keyed
    rw [relocateAll_ids]
    exact shelved.keyed
  distinct := by
    intro d mem d' mem' clash
    have nodup := (checkDestinations_eq_ok checked).1
    rcases mem_relocateAll mem rfl clash.2.1 with ⟨here, moving⟩ | ⟨away, stays⟩ <;>
      rcases mem_relocateAll mem' rfl clash.2.2.1 with ⟨here', moving'⟩ | ⟨away', stays'⟩
    · exact List.inj_on_of_nodup_map nodup moving moving'
        (by rw [clash.2.2.2.1, clash.2.2.2.2])
    · exact absurd (clash.1.symm.trans here) away'
    · exact absurd (clash.1.trans here') away
    · exact shelved.distinct d (mem_activeDocuments.mp stays).1 d'
        (mem_activeDocuments.mp stays').1 clash
  storable := by
    intro d mem
    obtain ⟨old, oldMem, rfl⟩ := List.mem_map.mp mem
    have storable := shelved.storable old oldMem
    split
    · rename_i active
      unfold relocate
      split
      · rename_i id folder name hit
        have entry := List.mem_of_find?_eq_some hit
        have project : old.projectId = projectId :=
          (mem_activeDocuments.mp (List.mem_filter.mpr ⟨oldMem, active⟩)).2.1
        exact ⟨project ▸ canonical _ entry, storable.mime, storable.size, storable.checksum⟩
      · exact storable
    · exact storable

end Moves

theorem created_shelved {command : UploadDocumentCommand} {now : Timestamp}
    {created : List ProjectDocument} (shelved : Shelved tables t.documents)
    (storable : Storable tables (uploadedDocument command now))
    (creates : create t command now = .ok created)
    (admits : admitsDocument created (uploadedDocument command now) = true) :
    Shelved tables (created ++ [uploadedDocument command now]) := by
  have before : Shelved tables created := by
    unfold create at creates
    split at creates
    · cases creates
      exact shelved
    · simp only [bind_eq_ok, pure_eq_ok] at creates
      obtain ⟨_, -, rfl⟩ := creates
      exact shelved.recycle _ _ now
  apply before.add storable
  · intro d mem
    have admitted := List.all_eq_true.mp admits d mem
    simp only [Bool.and_eq_true, decide_eq_true_eq] at admitted
    exact admitted.1
  · intro d mem clash
    have admitted := List.all_eq_true.mp admits d mem
    simp [clash.1, clash.2.1, clash.2.2.2.1, clash.2.2.2.2] at admitted

theorem complete_shelved {settings : UploadSettings} {limits : UploadLimits}
    {session : UploadSession} {request : UploadRequest} {admitted : StoredUploadIntent}
    {storage : Except Fault Unit} {closureId : Uuid} {now closeNow : Timestamp}
    {answer : Completion} (shelved : Shelved tables t.documents)
    (paths : settings.canonicalPath = pathIsCanonical tables)
    (checksums : settings.validChecksum = isTaggedSha256)
    (committed : complete settings limits t session request admitted storage closureId now
      closeNow = .ok (answer, t')) : Shelved tables t'.documents := by
  simp only [complete, bind_eq_ok, require_eq_ok, exists_unit] at committed
  obtain ⟨-, original, -, -, -, usage, -, -, -, rest⟩ := committed
  split at rest
  · simp only [bind_eq_ok, require_eq_ok, exists_unit, pure_eq_ok, Prod.mk.injEq] at rest
    obtain ⟨-, ⟨closed, _⟩, closes, -, -, rfl⟩ := rest
    obtain ⟨-, documents, -⟩ := closePublication_moves closes
    rw [documents]
    exact shelved
  · rename_i created creates
    simp only [bind_eq_ok, require_eq_ok, exists_unit, pure_eq_ok, Prod.mk.injEq] at rest
    obtain ⟨published, publishes, admits, -, -, rfl⟩ := rest
    obtain ⟨row, row', -, rfl, moved, -, -, stored, -, -, -⟩ := publishUpload_moves publishes
    refine created_shelved shelved ?_ creates admits
    have same : row'.folder = row.folder ∧ row'.name = row.name ∧ row'.mime = row.mime ∧
        row'.size = row.size ∧ row'.checksum = row.checksum ∧ row'.projectId = row.projectId := by
      cases moved <;> exact ⟨rfl, rfl, rfl, rfl, rfl, rfl⟩
    obtain ⟨folder, name, mime, size, checksum, project⟩ := same
    simp only [ProjectDocumentUpload.original, Bool.and_eq_true, decide_eq_true_eq, paths,
      checksums, folder, name, mime, size, checksum, project, and_assoc] at stored
    obtain ⟨-, positive, -, -, -, -, -, typed, -, hashed, -, -, -, canonical, -⟩ := stored
    refine ⟨canonical, ?_, le_of_lt positive, hashed⟩
    intro empty
    have none : row.mime = "" := empty
    rw [none] at typed
    exact absurd typed (by decide)

theorem requireUpload_ok {settings : EffectUploadSettings} {command : ObjectWriteCommand}
    {row : ProjectDocumentEffectUpload} {now : Timestamp}
    (paths : settings.canonicalPath = pathIsCanonical tables)
    (checksums : ∀ content, isTaggedSha256 (settings.contentChecksum content) = true)
    (required : requireUpload settings t command = .ok row) :
    Storable tables (publishedDocument row now) := by
  simp only [requireUpload, ObjectWriteCommand.validate, validate, bind_eq_ok, require_eq_ok,
    exists_unit, orFault_eq_ok, pure_eq_ok] at required
  obtain ⟨⟨⟨-, -, -, -, -, typed, -⟩, -, -, canonical, -, -, -⟩, _, -, ⟨-, -, -, -, described, -⟩,
    rfl⟩ := required
  simp only [ProjectDocumentEffectUpload.describes, Bool.and_eq_true, decide_eq_true_eq,
    and_assoc] at described
  obtain ⟨-, project, -, -, -, -, -, -, size, mime, checksum, -, path, -, -⟩ := described
  obtain ⟨folder, name⟩ := documentPath_inj.mp path
  refine ⟨?_, ?_, ?_, ?_⟩
  · rw [publishedDocument, project, folder, name, ← paths]
    exact canonical
  · intro empty
    have none : command.contentType = "" := mime ▸ empty
    rw [none] at typed
    exact absurd typed (by decide)
  · rw [publishedDocument, size]
    exact Int.natCast_nonneg _
  · rw [publishedDocument, checksum]
    exact checksums command.content

theorem publish_shelved {settings : EffectUploadSettings} {command : ObjectWriteCommand}
    {now : Timestamp} {document : StoredDocument} (shelved : Shelved tables t.documents)
    (paths : settings.canonicalPath = pathIsCanonical tables)
    (checksums : ∀ content, isTaggedSha256 (settings.contentChecksum content) = true)
    (committed : publish settings t command now = .ok (document, t')) :
    Shelved tables t'.documents := by
  simp only [publish, bind_eq_ok] at committed
  obtain ⟨row, required, rest⟩ := committed
  split at rest
  · simp only [bind_eq_ok, pure_eq_ok, Prod.mk.injEq] at rest
    obtain ⟨-, -, -, rfl⟩ := rest
    exact shelved
  · simp only [bind_eq_ok, require_eq_ok, exists_unit, pure_eq_ok, Prod.mk.injEq] at rest
    obtain ⟨-, -, -, trashed, trashes, unused, -, fresh, -, -, -, rfl⟩ := rest
    have before : Shelved tables trashed.documents := by
      unfold trashReplaced at trashes
      split at trashes
      · cases trashes
        exact shelved
      · simp only [bind_eq_ok, require_eq_ok, exists_unit, orFault_eq_ok, pure_eq_ok] at trashes
        obtain ⟨current, -, -, previous, -, -, rfl⟩ := trashes
        exact shelved.recycle _ _ now
    refine before.add (requireUpload_ok paths checksums required) fresh ?_
    intro d mem clash
    exact free_of_pathConflicts_active unused d mem (by simp)
      ⟨clash.1, clash.2.1, clash.2.2.2.1, clash.2.2.2.2⟩

variable {contentHash : List UInt8 → HexDigest} {settings : DocumentSettings}

theorem apply_shelved {checkPath : Uuid → Folder → String → Except Fault Unit} {actorId : Uuid}
    {action : FileAction} {now : Timestamp} (shelved : Shelved tables t.documents)
    (paths : ∀ projectId folder name, checkPath projectId folder name = .ok () →
      pathIsCanonical tables projectId folder name = true)
    (applied : apply checkPath t projectId actorId action now = .ok t') :
    Shelved tables t'.documents := by
  cases action with
  | createFolder target =>
    simp only [apply, createFolder, bind_eq_ok, require_eq_ok, exists_unit, pure_eq_ok] at applied
    obtain ⟨-, -, -, rfl⟩ := applied
    exact shelved
  | move changes =>
    simp only [apply, move, bind_eq_ok, exists_unit, pure_eq_ok] at applied
    obtain ⟨moved, planned, checked, rfl⟩ := applied
    exact shelved_of_destinations shelved checked fun entry mem =>
      paths _ _ _ (planned_checked planned entry mem)
  | moveFolder source target =>
    simp only [apply, moveFolder, folderPath, bind_eq_ok, require_eq_ok, exists_unit,
      pure_eq_ok] at applied
    obtain ⟨-, -, -, -, -, moved, planned, checked, -, rfl⟩ := applied
    exact shelved_of_destinations shelved checked fun entry mem =>
      paths _ _ _ (planned_checked planned entry mem)
  | deleteFolder source =>
    simp only [apply, deleteFolder, bind_eq_ok, require_eq_ok, exists_unit, pure_eq_ok] at applied
    obtain ⟨-, -, -, -, rfl⟩ := applied
    exact shelved
  | trash changes =>
    exact foldlM_keeps (P := fun other : DocumentTables => Shelved tables other.documents)
      (fun _ _ _ holds trashed => trashOne_shelved holds trashed) shelved applied
  | restore changes =>
    exact foldlM_keeps (P := fun other : DocumentTables => Shelved tables other.documents)
      (fun _ _ _ holds restored => restoreOne_shelved holds restored) shelved applied

theorem shelved_invariant :
    (documentStore (programSettings tables contentHash settings)).Invariant
      fun t => Shelved tables t.documents := by
  intro t action u t' shelved committed
  have checksums : ∀ content, isTaggedSha256
      ((programSettings tables contentHash settings).effects.contentChecksum content) = true :=
    isTaggedSha256_taggedHash contentHash
  cases action with
  | manage before projectId actorId action now =>
    simp only [documentStore, execProject, bind_eq_ok, pure_eq_ok, Prod.mk.injEq] at committed
    obtain ⟨_, -, managed, applied, -, rfl⟩ := committed
    refine apply_shelved shelved (fun _ _ _ checked => ?_) applied
    exact require_eq_ok.mp checked
  | admitRequest session request documentId intentId storage now =>
    simp only [documentStore, execProject, written, answering_eq_ok] at committed
    obtain ⟨answer, admitted, -⟩ := committed
    rw [(admit_documents admitted).1]
    exact shelved
  | complete session request admitted storage closureId now closeNow =>
    simp only [documentStore, execProject, written, answering_eq_ok] at committed
    obtain ⟨answer, completes, -⟩ := committed
    exact complete_shelved shelved rfl rfl completes
  | close session projectId uploadKey closureId now =>
    simp only [documentStore, execProject, written, answering_eq_ok] at committed
    obtain ⟨closed, closes, -⟩ := committed
    simp only [closeUpload, bind_eq_ok, require_eq_ok, exists_unit, orFault_eq_ok, pure_eq_ok,
      Prod.mk.injEq] at closes
    obtain ⟨-, -, found, -, original, -, ⟨stored, _⟩, publication, -, -, rfl⟩ := closes
    obtain ⟨-, documents, -⟩ := closePublication_moves publication
    rw [documents]
    exact shelved
  | reserve command asked =>
    simp only [documentStore, execProject, written, answering_eq_ok] at committed
    obtain ⟨row, reserves, -⟩ := committed
    rw [(reserve_documents reserves).1]
    exact shelved
  | startOnce command ownerId now =>
    simp only [documentStore, execProject, written, answering_eq_ok] at committed
    obtain ⟨sends, starts, -⟩ := committed
    rw [(startOnce_documents starts).1]
    exact shelved
  | recordVerified command receipt now =>
    simp only [documentStore, execProject, written, answering_eq_ok] at committed
    obtain ⟨_, records, -⟩ := committed
    rw [(recordVerified_documents records).1]
    exact shelved
  | publish command now =>
    simp only [documentStore, execProject, written, answering_eq_ok] at committed
    obtain ⟨document, publishes, -⟩ := committed
    exact publish_shelved shelved rfl checksums publishes
  | closeConflicted effectId projectId runId now =>
    cases committed
    rw [(closeConflicted_documents t effectId projectId runId now).1]
    exact shelved

theorem shelved_empty : Shelved tables DocumentTables.empty.documents :=
  ⟨List.nodup_nil, by simp [DocumentTables.empty], by simp [DocumentTables.empty]⟩

theorem shelved_reachable {t : DocumentTables}
    (reached : (documentStore (programSettings tables contentHash settings)).Reachable
      DocumentTables.empty t) : Shelved tables t.documents :=
  shelved_invariant.reachable shelved_empty reached

end SkillMind.Documents
