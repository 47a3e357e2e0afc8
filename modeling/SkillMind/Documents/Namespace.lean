import SkillMind.Documents.EffectUploads
import SkillMind.Documents.Management
import SkillMind.Documents.Uploads

/-!
# Files and folders in one namespace

The active documents of a project have different paths, and none of them is a folder. Most
transactions test this in full before they write. Two do not: the publication of a user's upload,
which trusts the reservation of its path, and the move of a folder without documents, which does
not look at what is above its target.
-/

namespace SkillMind.Documents

open Library
open Runs (Uuid Timestamp)

variable {t t' : DocumentTables} {projectId : Uuid} {row : ProjectDocument}

theorem mem_parents {path folder : Folder} :
    path ∈ parents folder ↔ path ≠ [] ∧ path <+: folder := by
  cases folder with
  | nil =>
    simp only [parents, List.inits, List.tail_cons, List.not_mem_nil, List.prefix_nil, false_iff]
    rintro ⟨ne, rfl⟩
    exact ne rfl
  | cons head rest =>
    rw [← List.mem_inits]
    cases path with
    | nil => simp [parents, List.inits]
    | cons first more => simp [parents, List.inits]

theorem path_ne_nil (row : ProjectDocument) : row.path ≠ [] := by
  simp [ProjectDocument.path, documentPath]

theorem path_mem_parents {folder : Folder} : row.path ∈ parents folder ↔ row.path <+: folder := by
  rw [mem_parents]
  exact and_iff_right (path_ne_nil row)

theorem documentPath_mem_parents {home folder : Folder} {name : String} :
    documentPath home name ∈ parents folder ↔ documentPath home name <+: folder := by
  rw [mem_parents]
  exact and_iff_right (by simp [documentPath])

theorem documentPath_inj {folder folder' : Folder} {name name' : String} :
    documentPath folder name = documentPath folder' name' ↔ folder = folder' ∧ name = name' := by
  simp [documentPath]

theorem not_path_prefix_self (row : ProjectDocument) : ¬ row.path <+: row.folder := by
  intro above
  have longer := above.length_le
  simp only [ProjectDocument.path, documentPath, List.length_append, List.length_singleton]
    at longer
  omega

/-! ## The namespace -/

theorem mem_activeDocuments : row ∈ activeDocuments t projectId ↔
    row ∈ t.documents ∧ row.projectId = projectId ∧ row.deletedAt = none := by
  simp [activeDocuments, ProjectDocument.activeIn]

theorem mem_projectFolders {folder : Folder} : folder ∈ projectFolders t projectId ↔
    ∃ directory ∈ t.folders, directory.projectId = projectId ∧ directory.path = folder := by
  simp [projectFolders, and_assoc]

/-- No two active documents share a path, and no active document is a folder of the project:
an explicit one, the folder of a document, or a folder above one of these. -/
structure Separated (t : DocumentTables) (projectId : Uuid) : Prop where
  distinct : ∀ d ∈ activeDocuments t projectId, ∀ d' ∈ activeDocuments t projectId,
    d.path = d'.path → d = d'
  homes : ∀ d ∈ activeDocuments t projectId, ∀ d' ∈ activeDocuments t projectId,
    ¬ d.path <+: d'.folder
  explicit : ∀ d ∈ activeDocuments t projectId, ∀ folder ∈ projectFolders t projectId,
    ¬ d.path <+: folder

/-- The namespaces of all projects. -/
structure Separate (t : DocumentTables) : Prop where
  keyed : Keyed ProjectDocument.id t.documents
  projects : ∀ projectId, Separated t projectId

theorem Separated.fewer (separated : Separated t projectId)
    (documents : ∀ d ∈ activeDocuments t' projectId, d ∈ activeDocuments t projectId)
    (folders : ∀ folder ∈ projectFolders t' projectId, folder ∈ projectFolders t projectId) :
    Separated t' projectId where
  distinct := fun d mem d' mem' => separated.distinct d (documents d mem) d' (documents d' mem')
  homes := fun d mem d' mem' => separated.homes d (documents d mem) d' (documents d' mem')
  explicit := fun d mem folder mem' =>
    separated.explicit d (documents d mem) folder (folders folder mem')

/-- The path of the row is free of every other document and of every folder. -/
structure Free (t : DocumentTables) (projectId : Uuid) (kept : ProjectDocument → Prop)
    (folder : Folder) (name : String) : Prop where
  explicit : ∀ directory ∈ projectFolders t projectId, ¬ documentPath folder name <+: directory
  others : ∀ d ∈ activeDocuments t projectId, kept d →
    d.path ≠ documentPath folder name ∧ ¬ d.path <+: folder ∧
      ¬ documentPath folder name <+: d.folder

theorem Separated.write {kept : ProjectDocument → Prop} (separated : Separated t projectId)
    (free : Free t projectId kept row.folder row.name)
    (documents : ∀ d ∈ activeDocuments t' projectId, d = row ∨
      (d ∈ activeDocuments t projectId ∧ kept d))
    (folders : ∀ folder ∈ projectFolders t' projectId, folder ∈ projectFolders t projectId) :
    Separated t' projectId := by
  constructor
  · intro d mem d' mem' same
    rcases documents d mem with rfl | ⟨old, isKept⟩ <;>
      rcases documents d' mem' with rfl | ⟨old', isKept'⟩
    · rfl
    · exact absurd same.symm (free.others d' old' isKept').1
    · exact absurd same (free.others d old isKept).1
    · exact separated.distinct d old d' old' same
  · intro d mem d' mem'
    rcases documents d mem with rfl | ⟨old, isKept⟩ <;>
      rcases documents d' mem' with rfl | ⟨old', isKept'⟩
    · exact not_path_prefix_self d'
    · exact (free.others d' old' isKept').2.2
    · exact (free.others d old isKept).2.1
    · exact separated.homes d old d' old'
  · intro d mem folder known
    rcases documents d mem with rfl | ⟨old, -⟩
    · exact free.explicit folder (folders folder known)
    · exact separated.explicit d old folder (folders folder known)

theorem free_of_pathConflicts {folder : Folder} {name : String} {excluding : Option Uuid}
    (unused : ¬ pathConflicts t projectId folder name excluding = true) :
    Free t projectId (fun d => some d.id ≠ excluding) folder name := by
  rw [pathConflicts, Bool.or_eq_true, not_or] at unused
  obtain ⟨noFolder, noDocument⟩ := unused
  constructor
  · intro directory known above
    obtain ⟨row, mem, project, rfl⟩ := mem_projectFolders.mp known
    refine noFolder (List.any_eq_true.mpr ⟨row, mem, ?_⟩)
    simp [project, documentPath_mem_parents.mpr above]
  · intro d known kept
    obtain ⟨mem, project, active⟩ := mem_activeDocuments.mp known
    have apart : ¬ (d.path = documentPath folder name ∨ d.path ∈ parents folder ∨
        documentPath folder name ∈ parents d.folder) := by
      intro clash
      refine noDocument (List.any_eq_true.mpr ⟨d, mem, ?_⟩)
      simpa [project, active, kept, or_assoc] using clash
    rw [path_mem_parents, documentPath_mem_parents, not_or, not_or] at apart
    exact apart

theorem mem_recycle_active {documentId actorId : Uuid} {now : Timestamp}
    {documents : List ProjectDocument} (mem : row ∈ recycle documentId now actorId documents)
    (active : row.deletedAt = none) : row ∈ documents ∧ row.id ≠ documentId := by
  obtain ⟨old, oldMem, same⟩ := List.mem_map.mp mem
  split at same
  · rw [← same] at active
    cases active
  · rename_i other
    exact ⟨same ▸ oldMem, same ▸ other⟩

theorem recycle_ids (documentId actorId : Uuid) (now : Timestamp)
    (documents : List ProjectDocument) :
    (recycle documentId now actorId documents).map ProjectDocument.id =
      documents.map ProjectDocument.id := by
  unfold recycle
  rw [List.map_map]
  apply List.map_congr_left
  intro document _
  rw [Function.comp_apply]
  split <;> rfl

theorem Separate.add {kept : ProjectDocument → Prop} (separate : Separate t)
    (row : ProjectDocument) (keyed : Keyed ProjectDocument.id t'.documents)
    (free : Free t row.projectId kept row.folder row.name)
    (documents : ∀ d ∈ t'.documents, d.deletedAt = none → d = row ∨ (d ∈ t.documents ∧ kept d))
    (folders : t'.folders = t.folders) : Separate t' := by
  refine ⟨keyed, fun project => ?_⟩
  have same : ∀ folder ∈ projectFolders t' project, folder ∈ projectFolders t project := by
    intro folder known
    rwa [projectFolders, folders] at known
  by_cases here : project = row.projectId
  · subst here
    refine (separate.projects row.projectId).write free (fun d mem => ?_) same
    obtain ⟨known, project, active⟩ := mem_activeDocuments.mp mem
    rcases documents d known active with rfl | ⟨old, isKept⟩
    · exact Or.inl rfl
    · exact Or.inr ⟨mem_activeDocuments.mpr ⟨old, project, active⟩, isKept⟩
  · refine (separate.projects project).fewer (fun d mem => ?_) same
    obtain ⟨known, inProject, active⟩ := mem_activeDocuments.mp mem
    rcases documents d known active with rfl | ⟨old, -⟩
    · exact absurd inProject.symm here
    · exact mem_activeDocuments.mpr ⟨old, inProject, active⟩

theorem Separate.fewer (separate : Separate t) (keyed : Keyed ProjectDocument.id t'.documents)
    (documents : ∀ d ∈ t'.documents, d.deletedAt = none → d ∈ t.documents)
    (folders : ∀ directory ∈ t'.folders, directory ∈ t.folders) : Separate t' := by
  refine ⟨keyed, fun project => (separate.projects project).fewer ?_ ?_⟩
  · intro d mem
    obtain ⟨known, rest⟩ := mem_activeDocuments.mp mem
    exact mem_activeDocuments.mpr ⟨documents d known rest.2, rest⟩
  · intro folder mem
    obtain ⟨directory, known, rest⟩ := mem_projectFolders.mp mem
    exact mem_projectFolders.mpr ⟨directory, folders directory known, rest⟩

theorem Separate.same (separate : Separate t) (documents : t'.documents = t.documents)
    (folders : t'.folders = t.folders) : Separate t' :=
  separate.fewer (documents ▸ separate.keyed) (fun _ mem _ => documents ▸ mem)
    fun _ mem => folders ▸ mem

theorem mem_replaceRow_document {documents : List ProjectDocument} {d : ProjectDocument}
    (mem : d ∈ replaceRow ProjectDocument.id row documents) :
    d = row ∨ (d ∈ documents ∧ d.id ≠ row.id) := by
  rcases mem_replaceRow mem with ⟨same, -⟩ | kept
  · exact Or.inl same
  · exact Or.inr kept

theorem trashOne_separate {actorId : Uuid} {now : Timestamp} {change : RecycleChange}
    (separate : Separate t) (trashed : trashOne projectId actorId now t change = .ok t') :
    Separate t' := by
  simp only [trashOne, bind_eq_ok] at trashed
  obtain ⟨row, found, rest⟩ := trashed
  split at rest
  · simp only [bind_eq_ok, exists_unit, pure_eq_ok] at rest
    obtain ⟨-, rfl⟩ := rest
    refine separate.fewer (separate.keyed.replaceRow _) (fun d mem active => ?_)
      fun directory known => known
    rcases mem_replaceRow_document mem with rfl | ⟨old, -⟩
    · cases active
    · exact old
  · exact pure_eq_ok.mp rest ▸ separate

theorem restoreOne_separate {change : RecycleChange} (separate : Separate t)
    (restored : restoreOne projectId t change = .ok t') : Separate t' := by
  simp only [restoreOne, bind_eq_ok, require_eq_ok, exists_unit, pure_eq_ok] at restored
  obtain ⟨row, found, unused, rfl⟩ := restored
  rw [not_or] at unused
  refine separate.add { row with deletedAt := none, deletedBy := none }
    (separate.keyed.replaceRow _) (free_of_pathConflicts unused.1) (fun d mem active => ?_) rfl
  rcases mem_replaceRow_document mem with same | ⟨old, other⟩
  · exact Or.inl same
  · exact Or.inr ⟨old, fun hit => other (Option.some.inj hit)⟩

theorem foldlM_keeps {α σ : Type} {P : σ → Prop} {change : σ → α → Except Fault σ}
    (keeps : ∀ s a s', P s → change s a = .ok s' → P s') {changes : List α} {s s' : σ}
    (holds : P s) (folded : changes.foldlM change s = .ok s') : P s' := by
  induction changes generalizing s with
  | nil =>
    rw [List.foldlM_nil, pure_eq_ok] at folded
    exact folded ▸ holds
  | cons a rest ih =>
    rw [List.foldlM_cons, bind_eq_ok] at folded
    obtain ⟨next, first, later⟩ := folded
    exact ih (keeps s a next holds first) later

section Folders

variable {checkPath : Uuid → Folder → String → Except Fault Unit}

theorem createFolder_separate {target : Folder} (separate : Separate t)
    (created : createFolder checkPath t projectId target = .ok t') : Separate t' := by
  simp only [createFolder, bind_eq_ok, require_eq_ok, exists_unit, pure_eq_ok] at created
  obtain ⟨-, -, ⟨-, below⟩, rfl⟩ := created
  refine ⟨separate.keyed, fun project => ?_⟩
  have old := separate.projects project
  refine ⟨old.distinct, old.homes, fun d mem folder known => ?_⟩
  obtain ⟨directory, present, inProject, rfl⟩ := mem_projectFolders.mp known
  rcases List.mem_append.mp present with before | added
  · exact old.explicit d mem _ (mem_projectFolders.mpr ⟨directory, before, inProject, rfl⟩)
  · rw [List.mem_singleton.mp added] at inProject ⊢
    subst inProject
    exact fun above => below d mem (path_mem_parents.mpr above)

theorem deleteFolder_separate {source : Folder} (separate : Separate t)
    (deleted : deleteFolder checkPath t projectId source = .ok t') : Separate t' := by
  simp only [deleteFolder, bind_eq_ok, require_eq_ok, exists_unit, pure_eq_ok] at deleted
  obtain ⟨-, -, -, -, rfl⟩ := deleted
  exact separate.fewer separate.keyed (fun d mem _ => mem)
    fun directory known => (List.mem_filter.mp known).1

variable {moved : List (Uuid × Folder × String)}

theorem relocate_keeps (moved : List (Uuid × Folder × String)) (row : ProjectDocument) :
    (relocate moved row).id = row.id ∧ (relocate moved row).projectId = row.projectId ∧
      (relocate moved row).deletedAt = row.deletedAt := by
  unfold relocate
  split <;> exact ⟨rfl, rfl, rfl⟩

theorem relocateAll_ids (projectId : Uuid) (moved : List (Uuid × Folder × String))
    (documents : List ProjectDocument) :
    (relocateAll projectId moved documents).map ProjectDocument.id =
      documents.map ProjectDocument.id := by
  unfold relocateAll
  rw [List.map_map]
  apply List.map_congr_left
  intro document _
  rw [Function.comp_apply]
  split
  · exact (relocate_keeps moved document).1
  · rfl

theorem mem_relocateAll {d : ProjectDocument} {project : Uuid}
    (mem : d ∈ relocateAll projectId moved t.documents) (inProject : d.projectId = project)
    (active : d.deletedAt = none) :
    (project = projectId ∧ d ∈ (activeDocuments t projectId).map (relocate moved)) ∨
      (project ≠ projectId ∧ d ∈ activeDocuments t project) := by
  obtain ⟨old, oldMem, same⟩ := List.mem_map.mp mem
  obtain ⟨-, keptProject, keptBin⟩ := relocate_keeps moved old
  split at same
  · rename_i isActive
    have known : old ∈ activeDocuments t projectId := List.mem_filter.mpr ⟨oldMem, isActive⟩
    obtain ⟨-, oldProject, -⟩ := mem_activeDocuments.mp known
    refine Or.inl ⟨?_, List.mem_map.mpr ⟨old, known, same⟩⟩
    rw [← inProject, ← same, keptProject, oldProject]
  · rename_i inactive
    subst same
    refine Or.inr ⟨?_, mem_activeDocuments.mpr ⟨oldMem, inProject, active⟩⟩
    rintro rfl
    exact inactive (by simp [ProjectDocument.activeIn, inProject, active])

theorem checkDestinations_eq_ok {directories : List Folder} {u : Unit}
    (checked : checkDestinations t projectId moved directories = .ok u) :
    (((activeDocuments t projectId).map (relocate moved)).map
        fun document => (document.folder, document.name)).Nodup ∧
      ∀ d ∈ (activeDocuments t projectId).map (relocate moved),
        d.path ∉ directories ∧
          ∀ d' ∈ (activeDocuments t projectId).map (relocate moved), ¬ d.path <+: d'.folder := by
  simp only [checkDestinations, bind_eq_ok, require_eq_ok, exists_unit] at checked
  obtain ⟨-, distinct, apart, -⟩ := checked
  refine ⟨distinct, fun d mem => ?_⟩
  have outside := apart d mem
  rw [List.mem_append, not_or] at outside
  refine ⟨outside.1, fun d' mem' above => outside.2 ?_⟩
  exact List.mem_flatMap.mpr ⟨d', mem', path_mem_parents.mpr above⟩

theorem separate_of_destinations {directories : List Folder} {u : Unit} (separate : Separate t)
    (checked : checkDestinations t projectId moved directories = .ok u)
    (documents : t'.documents = relocateAll projectId moved t.documents)
    (elsewhere : ∀ project, project ≠ projectId →
      ∀ folder ∈ projectFolders t' project, folder ∈ projectFolders t project)
    (covered : ∀ d ∈ (activeDocuments t projectId).map (relocate moved),
      d.path ∉ directories → ∀ folder ∈ projectFolders t' projectId, ¬ d.path <+: folder) :
    Separate t' := by
  obtain ⟨distinct, apart⟩ := checkDestinations_eq_ok checked
  have keyed : Keyed ProjectDocument.id t'.documents := by
    unfold Keyed
    rw [documents, relocateAll_ids]
    exact separate.keyed
  refine ⟨keyed, fun project => ?_⟩
  have places : ∀ d ∈ activeDocuments t' project,
      (project = projectId ∧ d ∈ (activeDocuments t projectId).map (relocate moved)) ∨
        (project ≠ projectId ∧ d ∈ activeDocuments t project) := by
    intro d mem
    obtain ⟨known, inProject, active⟩ := mem_activeDocuments.mp mem
    exact mem_relocateAll (documents ▸ known) inProject active
  by_cases here : project = projectId
  · subst here
    have placed : ∀ d ∈ activeDocuments t' project,
        d ∈ (activeDocuments t project).map (relocate moved) := by
      intro d mem
      rcases places d mem with ⟨-, known⟩ | ⟨other, -⟩
      · exact known
      · exact absurd rfl other
    refine ⟨?_, ?_, ?_⟩
    · intro d mem d' mem' same
      obtain ⟨folder, name⟩ := documentPath_inj.mp same
      exact List.inj_on_of_nodup_map distinct (placed d mem) (placed d' mem')
        (Prod.ext folder name)
    · exact fun d mem d' mem' => (apart d (placed d mem)).2 d' (placed d' mem')
    · exact fun d mem folder known =>
        covered d (placed d mem) (apart d (placed d mem)).1 folder known
  · refine (separate.projects project).fewer (fun d mem => ?_) (elsewhere project here)
    rcases places d mem with ⟨same, -⟩ | ⟨-, known⟩
    · exact absurd same here
    · exact known

theorem explicit_known {folder above : Folder} (explicit : folder ∈ projectFolders t projectId)
    (parent : above ∈ parents folder) : above ∈ knownFolders t projectId :=
  List.mem_flatMap.mpr ⟨folder, List.mem_append_left _ explicit, parent⟩

theorem move_separate {changes : List FileChange} (separate : Separate t)
    (moves : move checkPath t projectId changes = .ok t') : Separate t' := by
  simp only [move, bind_eq_ok, exists_unit, pure_eq_ok] at moves
  obtain ⟨moved, -, checked, rfl⟩ := moves
  refine separate_of_destinations separate checked rfl (fun _ _ _ known => known) ?_
  intro d mem outside folder explicit above
  exact outside (explicit_known explicit (path_mem_parents.mpr above))

/-! ## Moved folders -/

theorem planMove_eq_ok {change : FileChange} {plan plan' : List (Uuid × Folder × String)}
    (planned : planMove checkPath t projectId plan change = .ok plan') :
    change.documentId ∉ plan.map Prod.fst ∧
      plan' = plan ++ [(change.documentId, change.folder, change.name)] := by
  simp only [planMove, bind_eq_ok, orFault_eq_ok, require_eq_ok, exists_unit,
    pure_eq_ok] at planned
  obtain ⟨row, found, ⟨fresh, -⟩, -, -, rfl⟩ := planned
  have same : row.id = change.documentId := by simpa using List.find?_some found
  rw [same] at fresh ⊢
  exact ⟨fresh, rfl⟩

theorem planned_find {changes : List FileChange} {plan : List (Uuid × Folder × String)}
    (planned : changes.foldlM (planMove checkPath t projectId) plan = .ok moved) :
    (∀ id place, plan.find? (fun entry => decide (entry.1 = id)) = some place →
      moved.find? (fun entry => decide (entry.1 = id)) = some place) ∧
    ∀ change ∈ changes, moved.find? (fun entry => decide (entry.1 = change.documentId)) =
      some (change.documentId, change.folder, change.name) := by
  induction changes generalizing plan with
  | nil =>
    rw [List.foldlM_nil, pure_eq_ok] at planned
    subst planned
    exact ⟨fun _ _ found => found, fun _ mem => nomatch mem⟩
  | cons change rest ih =>
    rw [List.foldlM_cons, bind_eq_ok] at planned
    obtain ⟨next, first, later⟩ := planned
    obtain ⟨fresh, rfl⟩ := planMove_eq_ok first
    obtain ⟨kept, placed⟩ := ih later
    have unplaced : plan.find? (fun entry => decide (entry.1 = change.documentId)) = none := by
      refine List.find?_eq_none.mpr fun entry mem hit => fresh ?_
      exact List.mem_map.mpr ⟨entry, mem, of_decide_eq_true hit⟩
    constructor
    · intro id place found
      exact kept id place (by rw [List.find?_append, found]; rfl)
    · intro other mem
      rcases List.mem_cons.mp mem with rfl | more
      · exact kept _ _ (by rw [List.find?_append, unplaced]; simp)
      · exact placed other more

theorem relocate_member {source target : Folder} {d : ProjectDocument}
    (planned : (folderChanges t projectId source target).foldlM
      (planMove checkPath t projectId) [] = .ok moved)
    (known : d ∈ activeDocuments t projectId) (member : inside source d.folder = true) :
    target <+: (relocate moved d).folder := by
  have change := (planned_find planned).2
    ⟨d.id, d.folder, d.name, rebase source target d.folder, d.name⟩
    (List.mem_map.mpr ⟨d, List.mem_filter.mpr ⟨known, member⟩, rfl⟩)
  unfold relocate
  rw [change]
  show target <+: rebase source target d.folder
  rw [rebase, if_pos member]
  exact List.prefix_append _ _

theorem inside_iff {source path : Folder} : inside source path = true ↔ source <+: path := by
  simp [inside]

theorem above_rebase {source target folder path : Folder} (named : source ≠ [])
    (pathNe : path ≠ []) (above : path <+: rebase source target folder) :
    path <+: target ∨ ∃ old ∈ parents folder, rebase source target old = path := by
  unfold rebase at above
  split at above
  · rename_i isInside
    obtain ⟨rest, rfl⟩ := inside_iff.mp isInside
    rw [List.drop_left] at above
    rcases List.prefix_or_prefix_of_prefix above (List.prefix_append target rest) with short | long
    · exact Or.inl short
    · obtain ⟨more, rfl⟩ := long
      refine Or.inr ⟨source ++ more, mem_parents.mpr ⟨by simp [named], ?_⟩, ?_⟩
      · exact (List.prefix_append_right_inj source).mpr
          ((List.prefix_append_right_inj target).mp above)
      · rw [rebase, if_pos (inside_iff.mpr (List.prefix_append _ _)), List.drop_left]
  · rename_i outside
    refine Or.inr ⟨path, mem_parents.mpr ⟨pathNe, above⟩, ?_⟩
    rw [rebase, if_neg]
    exact fun isInside => outside (inside_iff.mpr ((inside_iff.mp isInside).trans above))

theorem mem_rebaseFolders {source target : Folder} {directory : ProjectDocumentFolder}
    (mem : directory ∈ rebaseFolders projectId source target t.folders) :
    (directory.projectId = projectId ∧ (directory.path = target ∨
        ∃ old ∈ projectFolders t projectId, directory.path = rebase source target old)) ∨
      (directory.projectId ≠ projectId ∧ directory ∈ t.folders) := by
  have renamed : directory ∈ t.folders.map (fun row => if row.projectId = projectId then
        { row with path := rebase source target row.path } else row) →
      (directory.projectId = projectId ∧ (directory.path = target ∨
        ∃ old ∈ projectFolders t projectId, directory.path = rebase source target old)) ∨
      (directory.projectId ≠ projectId ∧ directory ∈ t.folders) := by
    intro there
    obtain ⟨old, oldMem, same⟩ := List.mem_map.mp there
    split at same
    · rename_i inProject
      subst same
      exact Or.inl ⟨inProject, Or.inr ⟨old.path,
        mem_projectFolders.mpr ⟨old, oldMem, inProject, rfl⟩, rfl⟩⟩
    · rename_i elsewhere
      subst same
      exact Or.inr ⟨elsewhere, oldMem⟩
  unfold rebaseFolders at mem
  dsimp only at mem
  split at mem
  · rcases List.mem_append.mp mem with there | added
    · exact renamed there
    · rw [List.mem_singleton.mp added]
      exact Or.inl ⟨rfl, Or.inl rfl⟩
  · exact renamed mem

/-- What a move of a folder is tested for before its documents are looked at. -/
structure MovableFolder (checkPath : Uuid → Folder → String → Except Fault Unit)
    (t : DocumentTables) (projectId : Uuid) (source target : Folder) : Prop where
  named : folderPath checkPath projectId source = .ok ()
  known : source ∈ knownFolders t projectId
  unreserved : ∀ value ∈ pendingPaths t projectId, inside source value = false
  canonical : folderPath checkPath projectId target = .ok ()
  free : ¬ (inside source target = true ∨ target ∈ knownFolders t projectId ∨
    ∃ value ∈ pendingPaths t projectId, value ∈ parents target ∨ target <+: value)

/-- A folder without documents is moved to a place that no document is above. -/
def TestedTarget (t : DocumentTables) (projectId : Uuid) (source target : Folder) : Prop :=
  (∀ d ∈ activeDocuments t projectId, inside source d.folder = false) →
    ∀ d ∈ activeDocuments t projectId, ¬ d.path <+: target

theorem movable_of_moveFolder {source target : Folder}
    (moves : moveFolder checkPath t projectId source target = .ok t') :
    MovableFolder checkPath t projectId source target := by
  simp only [moveFolder, bind_eq_ok, require_eq_ok, exists_unit] at moves
  obtain ⟨named, known, unreserved, canonical, free, -⟩ := moves
  exact ⟨named, known, unreserved, canonical, free⟩

theorem moveFolder_separate {source target : Folder} (separate : Separate t)
    (tested : TestedTarget t projectId source target)
    (moves : moveFolder checkPath t projectId source target = .ok t') : Separate t' := by
  simp only [moveFolder, folderPath, bind_eq_ok, require_eq_ok, exists_unit, pure_eq_ok] at moves
  obtain ⟨⟨-, named, -⟩, -, -, -, -, moved, planned, checked, -, rfl⟩ := moves
  -- The documents of the folder carry the test of the target, if there are any.
  have clear : ∀ d ∈ (activeDocuments t projectId).map (relocate moved), ¬ d.path <+: target := by
    intro d mem above
    by_cases members : ∃ m ∈ activeDocuments t projectId, inside source m.folder = true
    · obtain ⟨m, known, member⟩ := members
      exact ((checkDestinations_eq_ok checked).2 d mem).2 _ (List.mem_map_of_mem known)
        (above.trans (relocate_member planned known member))
    · have empty : ∀ m ∈ activeDocuments t projectId, inside source m.folder = false :=
        fun m known => Bool.eq_false_iff.mpr fun member => members ⟨m, known, member⟩
      have stay : folderChanges t projectId source target = [] := by
        rw [folderChanges, List.map_eq_nil_iff, List.filter_eq_nil_iff]
        exact fun m known => Bool.eq_false_iff.mp (empty m known)
      rw [stay, List.foldlM_nil, pure_eq_ok] at planned
      subst planned
      obtain ⟨old, known, rfl⟩ := List.mem_map.mp mem
      exact tested empty old known above
  refine separate_of_destinations separate checked rfl ?_ ?_
  · intro project other folder known
    obtain ⟨directory, there, inProject, rfl⟩ := mem_projectFolders.mp known
    rcases mem_rebaseFolders there with ⟨here, -⟩ | ⟨-, old⟩
    · exact absurd (inProject.symm.trans here) other
    · exact mem_projectFolders.mpr ⟨directory, old, inProject, rfl⟩
  · intro d mem outside folder known above
    rw [List.mem_append, not_or] at outside
    obtain ⟨directory, there, inProject, rfl⟩ := mem_projectFolders.mp known
    rcases mem_rebaseFolders there with ⟨-, same | ⟨old, explicit, same⟩⟩ | ⟨elsewhere, -⟩
    · exact clear d mem (same ▸ above)
    · rcases above_rebase named (path_ne_nil d) (same ▸ above) with short | ⟨parent, isParent, is⟩
      · exact clear d mem short
      · exact outside.1 (List.mem_map.mpr ⟨parent, explicit_known explicit isParent, is⟩)
    · exact elsewhere inProject

end Folders

section Uploads

variable {settings : UploadSettings} {limits : UploadLimits}

theorem admit_documents {session : UploadSession} {request : UploadRequest}
    {documentId intentId : Uuid} {storage : Except Fault StorageNamespace} {now : Timestamp}
    {answer : Admission}
    (committed : admitRequest settings limits t session request documentId intentId storage now =
      .ok (answer, t')) : t'.documents = t.documents ∧ t'.folders = t.folders := by
  simp only [admitRequest, bind_eq_ok, require_eq_ok, exists_unit] at committed
  obtain ⟨-, -, -, found, -, rest⟩ := committed
  split at rest
  · simp only [bind_eq_ok, exists_unit, pure_eq_ok, Prod.mk.injEq] at rest
    obtain ⟨document, -, -, -, rfl⟩ := rest
    exact ⟨rfl, rfl⟩
  · simp only [bind_eq_ok, require_eq_ok, exists_unit, pure_eq_ok, Prod.mk.injEq] at rest
    obtain ⟨-, -, storageNamespace, -, usage, -, -, ⟨intent, reserved⟩, reserves, -, -,
      rfl⟩ := rest
    simp only [reserveUpload, bind_eq_ok, require_eq_ok, exists_unit, pure_eq_ok,
      Prod.mk.injEq] at reserves
    obtain ⟨_, -, -, -, rfl⟩ := reserves
    exact ⟨rfl, rfl⟩

/-- The guards that a publication of an upload without a replacement meets. -/
structure Publishable (settings : UploadSettings) (limits : UploadLimits) (t : DocumentTables)
    (session : UploadSession) (request : UploadRequest) (admitted : StoredUploadIntent)
    (storage : Except Fault Unit) (now : Timestamp) : Prop where
  before : session.before = .ok ()
  found : find settings t (request.key session) = .ok (some admitted)
  isOpen : admitted.publicationClosedAt = none
  pending : admitted.receipt.state = .pending
  same : session.sessionId = admitted.originalSessionId
  usage : ∃ usage, projectUsageBytes t request.projectId = .ok usage ∧
    usage ≤ limits.projectQuotaBytes
  stored : storage = .ok ()
  admits : admitsDocument t.documents (uploadedDocument admitted.command now) = true
  after : session.after = .ok ()

/-- The publication of an upload without a replacement finds its path free. -/
def TestedUpload (t : DocumentTables) (command : UploadDocumentCommand) : Prop :=
  command.replacesDocumentId = none →
    ¬ pathExists t command.projectId command.folder command.name = true

theorem requireReplacement_eq_ok {documentId : Uuid} {folder : Folder} {name : String}
    {checksum : Option String} {previous : ProjectDocument}
    (required : requireReplacement t projectId documentId folder name checksum = .ok previous) :
    previous ∈ activeDocuments t projectId ∧ previous.id = documentId ∧
      previous.folder = folder ∧ previous.name = name := by
  simp only [requireReplacement, bind_eq_ok, orFault_eq_ok, require_eq_ok, exists_unit,
    pure_eq_ok] at required
  obtain ⟨row, found, inProject, ⟨active, home, called, -⟩, rfl⟩ := required
  exact ⟨mem_activeDocuments.mpr ⟨List.mem_of_find?_eq_some found, inProject, active⟩,
    by simpa using List.find?_some found, home, called⟩

theorem created_separate {command : UploadDocumentCommand} {now : Timestamp}
    {documents : List ProjectDocument} (separate : Separate t)
    (tested : TestedUpload t command) (creates : create t command now = .ok documents)
    (admits : admitsDocument documents (uploadedDocument command now) = true)
    (written : t'.documents = documents ++ [uploadedDocument command now])
    (folders : t'.folders = t.folders) : Separate t' := by
  have fresh : ∀ d ∈ documents, d.id ≠ command.documentId := by
    intro d mem
    have admitted := List.all_eq_true.mp admits d mem
    simp only [Bool.and_eq_true, decide_eq_true_eq] at admitted
    exact admitted.1
  have added : ∀ d ∈ t'.documents, d = uploadedDocument command now ∨ d ∈ documents := by
    intro d mem
    rw [written] at mem
    rcases List.mem_append.mp mem with old | new
    · exact Or.inr old
    · exact Or.inl (List.mem_singleton.mp new)
  have keyed : Keyed ProjectDocument.id documents → Keyed ProjectDocument.id t'.documents := by
    intro old
    rw [written]
    exact old.add fun other mem => (fresh other mem).symm
  unfold create at creates
  split at creates
  · rename_i direct
    cases creates
    refine separate.add (uploadedDocument command now) (keyed separate.keyed)
      (free_of_pathConflicts (tested direct)) (fun d mem active => ?_) folders
    rcases added d mem with same | old
    · exact Or.inl same
    · exact Or.inr ⟨old, by simp⟩
  · rename_i documentId replaces
    simp only [bind_eq_ok, pure_eq_ok] at creates
    obtain ⟨previous, required, rfl⟩ := creates
    obtain ⟨known, id, home, called⟩ := requireReplacement_eq_ok required
    have separated := separate.projects command.projectId
    have path : previous.path = documentPath command.folder command.name := by
      rw [ProjectDocument.path, home, called]
    have recycledKeyed : Keyed ProjectDocument.id
        (recycle documentId now command.uploadedBy t.documents) := by
      unfold Keyed
      rw [recycle_ids]
      exact separate.keyed
    have free : Free t command.projectId (fun d => d.id ≠ documentId) command.folder
        command.name := by
      constructor
      · intro directory explicit above
        exact separated.explicit previous known directory explicit (path ▸ above)
      · intro d active other
        refine ⟨fun same => other ?_, fun above => ?_, fun above => ?_⟩
        · rw [separated.distinct d active previous known (same.trans path.symm), id]
        · exact separated.homes d active previous known (home ▸ above)
        · exact separated.homes previous known d active (path ▸ above)
    refine separate.add (uploadedDocument command now) (keyed recycledKeyed) free
      (fun d mem active => ?_) folders
    rcases added d mem with same | old
    · exact Or.inl same
    · exact Or.inr (mem_recycle_active old active)

theorem create_direct {command : UploadDocumentCommand} {now : Timestamp}
    {documents : List ProjectDocument} (direct : command.replacesDocumentId = none)
    (creates : create t command now = .ok documents) : documents = t.documents := by
  rw [create, direct] at creates
  exact (Except.ok.inj creates).symm

theorem publishUpload_pending {intent : StoredUploadIntent} {document : StoredDocument}
    (published : publishUpload settings t intent document = .ok t') :
    intent.receipt.state = .pending := by
  simp only [publishUpload, bind_eq_ok, require_eq_ok, exists_unit] at published
  obtain ⟨_, -, _, -, _, -, -, ⟨-, pending⟩, -⟩ := published
  exact pending

theorem complete_separate {session : UploadSession} {request : UploadRequest}
    {admitted : StoredUploadIntent} {storage : Except Fault Unit} {closureId : Uuid}
    {now closeNow : Timestamp} {answer : Completion} (separate : Separate t)
    (tested : Publishable settings limits t session request admitted storage now →
      TestedUpload t admitted.command)
    (committed : complete settings limits t session request admitted storage closureId now
      closeNow = .ok (answer, t')) : Separate t' := by
  simp only [complete, bind_eq_ok, require_eq_ok, exists_unit] at committed
  obtain ⟨before, original, found, isOpen, ⟨rfl, same⟩, usage, used, within, stored, rest⟩ :=
    committed
  split at rest
  · simp only [bind_eq_ok, require_eq_ok, exists_unit, pure_eq_ok, Prod.mk.injEq] at rest
    obtain ⟨-, ⟨closed, _⟩, closes, -, -, rfl⟩ := rest
    obtain ⟨-, documents, folders⟩ := closePublication_moves closes
    exact separate.same documents folders
  · rename_i documents creates
    simp only [bind_eq_ok, require_eq_ok, exists_unit, pure_eq_ok, Prod.mk.injEq] at rest
    obtain ⟨published, publishes, admits, after, -, rfl⟩ := rest
    have testedUpload : TestedUpload t admitted.command := fun direct =>
      tested ⟨before, found, isOpen admitted rfl, publishUpload_pending publishes, same,
        ⟨usage, used, within⟩, stored, create_direct direct creates ▸ admits, after⟩ direct
    obtain ⟨row, row', -, -, -, -, -, -, -, -, rfl⟩ := publishUpload_moves publishes
    exact created_separate separate testedUpload creates admits rfl rfl

end Uploads

section Effects

variable {settings : EffectUploadSettings} {command : ObjectWriteCommand}

theorem reserve_documents {asked : Reservation} {answer : ProjectDocumentEffectUpload}
    (committed : reserve settings t command asked = .ok (answer, t')) :
    t'.documents = t.documents ∧ t'.folders = t.folders := by
  simp only [reserve, bind_eq_ok, require_eq_ok, exists_unit] at committed
  obtain ⟨-, -, rest⟩ := committed
  split at rest
  · simp only [bind_eq_ok, require_eq_ok, exists_unit, pure_eq_ok, Prod.mk.injEq] at rest
    obtain ⟨-, -, -, -, -, rfl⟩ := rest
    exact ⟨rfl, rfl⟩
  · simp only [bind_eq_ok, require_eq_ok, exists_unit, pure_eq_ok, Prod.mk.injEq] at rest
    obtain ⟨-, -, replaces, -, -, usage, -, -, -, -, -, rfl⟩ := rest
    exact ⟨rfl, rfl⟩

theorem startOnce_documents {ownerId : Uuid} {now : Timestamp} {sends : Bool}
    (committed : startOnce settings t command ownerId now = .ok (sends, t')) :
    t'.documents = t.documents ∧ t'.folders = t.folders := by
  rcases startOnce_moves committed with ⟨-, rfl⟩ | ⟨-, _, -, -, -, _, -, -, -, rfl⟩
  · exact ⟨rfl, rfl⟩
  · exact ⟨rfl, rfl⟩

theorem recordVerified_documents {receipt : ObjectWriteReceipt} {now : Timestamp} {u : Unit}
    (committed : recordVerified settings t command receipt now = .ok (u, t')) :
    t'.documents = t.documents ∧ t'.folders = t.folders := by
  simp only [recordVerified, bind_eq_ok, require_eq_ok, exists_unit] at committed
  obtain ⟨row, -, -, -, -, -, rest⟩ := committed
  split at rest
  · simp only [bind_eq_ok, require_eq_ok, exists_unit, pure_eq_ok, Prod.mk.injEq] at rest
    obtain ⟨-, -, rfl⟩ := rest
    exact ⟨rfl, rfl⟩
  · simp only [bind_eq_ok, require_eq_ok, exists_unit, pure_eq_ok, Prod.mk.injEq] at rest
    obtain ⟨-, -, -, rfl⟩ := rest
    exact ⟨rfl, rfl⟩

theorem closeConflicted_documents (t : DocumentTables) (effectId projectId runId : Uuid)
    (now : Timestamp) :
    (closeConflicted t effectId projectId runId now).documents = t.documents ∧
      (closeConflicted t effectId projectId runId now).folders = t.folders := by
  unfold closeConflicted
  split
  · exact ⟨rfl, rfl⟩
  · split <;> exact ⟨rfl, rfl⟩

theorem trashReplaced_separate {effect : ProjectDocumentEffectUpload} {now : Timestamp}
    {trashed : DocumentTables} (separate : Separate t)
    (trashes : trashReplaced settings t effect command now = .ok trashed) :
    Separate trashed := by
  unfold trashReplaced at trashes
  split at trashes
  · cases trashes
    exact separate
  · simp only [bind_eq_ok, require_eq_ok, exists_unit, orFault_eq_ok, pure_eq_ok] at trashes
    obtain ⟨current, -, -, previous, -, -, rfl⟩ := trashes
    refine separate.fewer ?_ (fun d mem active => (mem_recycle_active mem active).1)
      fun directory known => known
    unfold Keyed
    show (recycle _ _ _ _).map _ |>.Nodup
    rw [recycle_ids]
    exact separate.keyed

theorem publish_separate {now : Timestamp} {document : StoredDocument} (separate : Separate t)
    (committed : publish settings t command now = .ok (document, t')) : Separate t' := by
  simp only [publish, bind_eq_ok] at committed
  obtain ⟨row, -, rest⟩ := committed
  split at rest
  · simp only [bind_eq_ok, pure_eq_ok, Prod.mk.injEq] at rest
    obtain ⟨-, -, -, rfl⟩ := rest
    exact separate
  · simp only [bind_eq_ok, require_eq_ok, exists_unit, pure_eq_ok, Prod.mk.injEq] at rest
    obtain ⟨-, -, -, trashed, trashes, unused, -, fresh, -, -, -, rfl⟩ := rest
    have recycled := trashReplaced_separate separate trashes
    refine recycled.add (publishedDocument row now) ?_ (free_of_pathConflicts unused)
      (fun d mem active => ?_) rfl
    · exact recycled.keyed.add fun other mem => (fresh other mem).symm
    · rcases List.mem_append.mp mem with old | new
      · exact Or.inr ⟨old, by simp⟩
      · exact Or.inl (List.mem_singleton.mp new)

end Effects

section Runs

variable {settings : DocumentSettings}

/-- The two tests that the code leaves out, where its own ones are passed. -/
def Tested (settings : DocumentSettings) (t : DocumentTables) : DocumentAction → Prop
  | .manage before projectId _ (.moveFolder source target) _ => before = .ok () →
      MovableFolder settings.checkPath t projectId source target →
        TestedTarget t projectId source target
  | .complete session request admitted storage _ now _ =>
      Publishable settings.uploads settings.limits t session request admitted storage now →
        TestedUpload t admitted.command
  | _ => True

theorem apply_separate {checkPath : Uuid → Folder → String → Except Fault Unit}
    {actorId : Uuid} {action : FileAction} {now : Timestamp} (separate : Separate t)
    (tested : ∀ source target, action = .moveFolder source target →
      MovableFolder checkPath t projectId source target →
        TestedTarget t projectId source target)
    (applied : apply checkPath t projectId actorId action now = .ok t') : Separate t' := by
  cases action with
  | createFolder target => exact createFolder_separate separate applied
  | move changes => exact move_separate separate applied
  | moveFolder source target =>
    exact moveFolder_separate separate
      (tested source target rfl (movable_of_moveFolder applied)) applied
  | deleteFolder source => exact deleteFolder_separate separate applied
  | trash changes =>
    exact foldlM_keeps (fun _ _ _ holds trashed => trashOne_separate holds trashed) separate
      applied
  | restore changes =>
    exact foldlM_keeps (fun _ _ _ holds restored => restoreOne_separate holds restored) separate
      applied

theorem execProject_separate {action : DocumentAction} {u : Unit} (separate : Separate t)
    (tested : Tested settings t action)
    (committed : (documentStore settings).exec action t = .ok (u, t')) : Separate t' := by
  cases action with
  | manage before projectId actorId action now =>
    simp only [documentStore, execProject, bind_eq_ok, pure_eq_ok, Prod.mk.injEq] at committed
    obtain ⟨_, admits, managed, applied, -, rfl⟩ := committed
    refine apply_separate separate (fun source target same => ?_) applied
    subst same
    exact tested admits
  | admitRequest session request documentId intentId storage now =>
    simp only [documentStore, execProject, written, answering_eq_ok] at committed
    obtain ⟨answer, admitted, -⟩ := committed
    exact separate.same (admit_documents admitted).1 (admit_documents admitted).2
  | complete session request admitted storage closureId now closeNow =>
    simp only [documentStore, execProject, written, answering_eq_ok] at committed
    obtain ⟨answer, completes, -⟩ := committed
    exact complete_separate separate tested completes
  | close session projectId uploadKey closureId now =>
    simp only [documentStore, execProject, written, answering_eq_ok] at committed
    obtain ⟨closed, closes, -⟩ := committed
    simp only [closeUpload, bind_eq_ok, require_eq_ok, exists_unit, orFault_eq_ok, pure_eq_ok,
      Prod.mk.injEq] at closes
    obtain ⟨-, -, found, -, original, -, ⟨stored, _⟩, publication, -, -, rfl⟩ := closes
    obtain ⟨-, documents, folders⟩ := closePublication_moves publication
    exact separate.same documents folders
  | reserve command asked =>
    simp only [documentStore, execProject, written, answering_eq_ok] at committed
    obtain ⟨row, reserves, -⟩ := committed
    exact separate.same (reserve_documents reserves).1 (reserve_documents reserves).2
  | startOnce command ownerId now =>
    simp only [documentStore, execProject, written, answering_eq_ok] at committed
    obtain ⟨sends, starts, -⟩ := committed
    exact separate.same (startOnce_documents starts).1 (startOnce_documents starts).2
  | recordVerified command receipt now =>
    simp only [documentStore, execProject, written, answering_eq_ok] at committed
    obtain ⟨_, records, -⟩ := committed
    exact separate.same (recordVerified_documents records).1 (recordVerified_documents records).2
  | publish command now =>
    simp only [documentStore, execProject, written, answering_eq_ok] at committed
    obtain ⟨document, publishes, -⟩ := committed
    exact publish_separate separate publishes
  | closeConflicted effectId projectId runId now =>
    cases committed
    exact separate.same (closeConflicted_documents t effectId projectId runId now).1
      (closeConflicted_documents t effectId projectId runId now).2

theorem separate_empty : Separate DocumentTables.empty :=
  ⟨List.nodup_nil, fun _ => ⟨fun _ mem => (nomatch mem), fun _ mem => (nomatch mem),
    fun _ mem => (nomatch mem)⟩⟩

/-- Files and folders of a project do not share a path: the paths of its active documents are
pairwise different, and none of them is an explicit folder, the folder of an active document or
a folder above one of these. -/
structure Namespace (t : DocumentTables) (projectId : Uuid) : Prop where
  distinct : ((activeDocuments t projectId).map ProjectDocument.path).Nodup
  folders : ∀ d ∈ activeDocuments t projectId, ∀ folder ∈ projectFolders t projectId,
    d.path ∉ parents folder
  homes : ∀ d ∈ activeDocuments t projectId, ∀ d' ∈ activeDocuments t projectId,
    d.path ∉ parents d'.folder

theorem Separate.namespace (separate : Separate t) (projectId : Uuid) :
    Namespace t projectId where
  distinct := by
    have rows : (activeDocuments t projectId).Nodup :=
      (List.Nodup.of_map _ separate.keyed).filter _
    refine rows.map_on fun d mem d' mem' same => ?_
    exact (separate.projects projectId).distinct d mem d' mem' same
  folders := fun d mem folder known above =>
    (separate.projects projectId).explicit d mem folder known (path_mem_parents.mp above)
  homes := fun d mem d' mem' above =>
    (separate.projects projectId).homes d mem d' mem' (path_mem_parents.mp above)

/-- **Files and folders keep apart** along every run in which the publications of uploads and the
moves of folders without documents, where they are not refused, find their paths free. -/
theorem namespaces_kept (settings : DocumentSettings) (actions : List DocumentAction)
    (tested : (documentStore settings).Along (Tested settings) DocumentTables.empty actions)
    (projectId : Uuid) :
    Namespace ((documentStore settings).run DocumentTables.empty actions) projectId := by
  have separate : Separate ((documentStore settings).run DocumentTables.empty actions) :=
    TransactionSystem.run_of_along
      (fun _ _ _ _ holds isTested committed => execProject_separate holds isTested committed)
      separate_empty tested
  exact separate.namespace projectId

/-! ## A folder below a file -/

/-- A project in which the stored forms are short and every form is valid. -/
def sampleSettings : DocumentSettings where
  uploads :=
    { contentChecksum := fun _ => "content"
      requestChecksum := fun descriptor => descriptor.name
      closureChecksum := fun _ _ _ _ => "closure"
      documentStorageKey := fun _ documentId name => name ++ toString documentId
      canonicalPath := fun _ _ _ => true
      normalizeContentType := fun contentType => contentType
      validChecksum := fun _ => true }
  limits := ⟨100, 1000, ["application/pdf"], fun _ => false⟩
  effects :=
    { contentChecksum := fun _ => "content"
      commandChecksum := fun _ => "command"
      commandKey := fun _ => "key"
      stateRevision := fun _ => "revision"
      documentId := fun effectId => effectId
      canonicalPath := fun _ _ _ => true
      exactKey := fun _ => true
      validUtf8 := fun _ => true
      validChecksum := fun _ => true }
  checkPath := fun _ _ _ => .ok ()

def sampleSession : UploadSession := ⟨1, 2, 3, 4, .ok (), .ok ()⟩

def sampleStorage : StorageNamespace := ⟨8, "storage", true⟩

def sampleRequest (uploadKey : Uuid) (folder : Folder) (name : String) : UploadRequest :=
  ⟨5, uploadKey, folder, name, [7], "application/pdf", none, none⟩

def sampleIntent (request : UploadRequest) (documentId intentId : Uuid) : StoredUploadIntent :=
  { intentId := intentId, organizationId := 1, actorId := 2, originalRequestId := 3,
    originalSessionId := 4, requestChecksum := request.name,
    command :=
      request.command sampleSettings.uploads sampleSession documentId intentId sampleStorage,
    receipt := ⟨request.uploadKey, 5, .pending, 11, none⟩, cleanupRequestedAt := none,
    publicationClosedAt := none }

def sampleReserve (request : UploadRequest) (documentId intentId : Uuid) : DocumentAction :=
  .admitRequest sampleSession request documentId intentId (.ok sampleStorage) 11

def samplePublish (request : UploadRequest) (documentId intentId : Uuid) : DocumentAction :=
  .complete sampleSession request (sampleIntent request documentId intentId) (.ok ()) 12 13 14

/-- The file `a` is uploaded, and the empty folder `f` is made and moved to the target. -/
def sampleMove (target : Folder) : List DocumentAction :=
  [sampleReserve (sampleRequest 6 [] "a") 20 30, samplePublish (sampleRequest 6 [] "a") 20 30,
    .manage (.ok ()) 5 2 (.createFolder ["f"]) 15,
    .manage (.ok ()) 5 2 (.moveFolder ["f"] target) 16]

/-- The files `a` and `a/b` are both reserved, and then both published. -/
def sampleNested : List DocumentAction :=
  [sampleReserve (sampleRequest 6 [] "a") 20 30, sampleReserve (sampleRequest 7 ["a"] "b") 21 31,
    samplePublish (sampleRequest 6 [] "a") 20 30, samplePublish (sampleRequest 7 ["a"] "b") 21 31]

/-- An empty folder comes to lie below a file, and a file below another file. -/
theorem namespaces_broken :
    ¬ Namespace ((documentStore sampleSettings).run .empty (sampleMove ["a", "f"])) 5 ∧
      ¬ Namespace ((documentStore sampleSettings).run .empty sampleNested) 5 := by
  constructor
  · intro kept
    have apart := kept.folders
    revert apart
    decide +kernel
  · intro kept
    have apart := kept.homes
    revert apart
    decide +kernel

/-- The same folder may be moved beside the file. -/
theorem namespaces_kept_sample :
    Namespace ((documentStore sampleSettings).run .empty (sampleMove ["g"])) 5 := by
  refine namespaces_kept sampleSettings (sampleMove ["g"]) ⟨trivial, ?_, trivial, ?_, trivial⟩ 5
  · intro _ _
    decide +kernel
  · intro _ _ _
    decide +kernel

end Runs

end SkillMind.Documents
