import SkillMind.Documents.Frozen

/-!
# Which selections are frozen

A selection of stored documents is frozen exactly when its token names what it may name and no
document it names lies on a path that the reader of snapshots reserves.  The uploads and the moves
let such paths pass, and one document there keeps every selection of its whole project from being
frozen.
-/

namespace SkillMind.Documents

open Library SkillMind.Core
open Runs (Uuid Timestamp)
open Effects (uuidText)

/-! ## Tokens -/

/-- What the reader of tokens asks of the identifiers of one. -/
structure Listing (mode : DocumentSelectionMode) (ids : List Uuid) : Prop where
  partly : mode ≠ .all
  distinct : ids.Nodup
  bounded : 1 ≤ ids.length ∧ ids.length ≤ maxSelectedDocuments
  counts : ¬ (mode = .single ∧ ids.length ≠ 1) ∧ ¬ (mode = .set ∧ ids.length < 2)

variable {tables : UnicodeTables}

theorem tokenIds_ok {token : String} {mode : DocumentSelectionMode} {ids : List Uuid}
    (parsed : tokenIds tables token = .ok (mode, ids)) : Listing mode ids := by
  simp only [tokenIds, bind_eq_ok, require_eq_ok, exists_unit, orFault_eq_ok, pure_eq_ok,
    Prod.mk.injEq] at parsed
  obtain ⟨⟨kind, rawIds⟩, -, known, bounded, read, each, ⟨distinct, one⟩, several, rfl, rfl⟩ :=
    parsed
  have counted : (pieces rawIds).length = read.length := (mapM_eq_ok_iff.mp each).length_eq
  rw [counted] at bounded
  by_cases single : kind = "document".toList
  · rw [if_pos single]
    exact ⟨by decide, distinct, bounded, fun both => one ⟨single, both.2⟩, fun both =>
      absurd both.1 (by decide)⟩
  · rw [if_neg single]
    have set : kind = "documents".toList := known.resolve_left single
    exact ⟨by decide, distinct, bounded, fun both => absurd both.1 (by decide), fun both =>
      several ⟨set, both.2⟩⟩

theorem tokenIds_all {answer : DocumentSelectionMode × List Uuid} :
    tokenIds tables "project-documents:all" ≠ .ok answer := by
  intro parsed
  have split : partitionColon "project-documents:all".toList =
      some ("project-documents".toList, "all".toList) := by decide
  have kinds : ¬ ("project-documents".toList = "document".toList ∨
      "project-documents".toList = "documents".toList) := by decide
  rw [tokenIds, split, orFault_some, ok_bind] at parsed
  simp only [bind_eq_ok, require_eq_ok, exists_unit] at parsed
  exact kinds parsed.1

theorem parseDocumentSelection_ok {token : String} {selection : DocumentSelection}
    (parsed : parseDocumentSelection tables token = .ok selection) :
    (token = "project-documents:all" ∧ selection = ⟨.all, []⟩) ∨
      ∃ mode ids, tokenIds tables token = .ok (mode, ids) ∧ selection = ⟨mode, sortedIds ids⟩ := by
  rw [parseDocumentSelection] at parsed
  split at parsed
  · rename_i all
    exact .inl ⟨all, (pure_eq_ok.mp parsed).symm⟩
  · simp only [bind_eq_ok, pure_eq_ok] at parsed
    obtain ⟨⟨mode, ids⟩, read, rfl⟩ := parsed
    exact .inr ⟨mode, ids, read, rfl⟩

theorem perm_sortedIds (ids : List Uuid) : (sortedIds ids).Perm ids :=
  List.perm_insertionSort _ ids

theorem sortedIds_of_perm {first second : List Uuid} (same : first.Perm second) :
    sortedIds first = sortedIds second := by
  refine List.Perm.eq_of_pairwise (fun m n _ _ up down => ?_)
    (List.pairwise_insertionSort (· ≤ ·) first) (List.pairwise_insertionSort (· ≤ ·) second) ?_
  · exact Nat.le_antisymm up down
  · exact (perm_sortedIds first).trans (same.trans (perm_sortedIds second).symm)

theorem Listing.sorted {mode : DocumentSelectionMode} {ids : List Uuid}
    (listing : Listing mode ids) : Listing mode (sortedIds ids) := by
  have perm := perm_sortedIds ids
  refine ⟨listing.partly, perm.nodup_iff.mpr listing.distinct, ?_, ?_⟩
  · rw [perm.length_eq]
    exact listing.bounded
  · rw [perm.length_eq]
    exact listing.counts

theorem selection_listing {token : String} {selection : DocumentSelection}
    (parsed : parseDocumentSelection tables token = .ok selection)
    (some : selection.mode ≠ .all) : Listing selection.mode selection.documentIds := by
  rcases parseDocumentSelection_ok parsed with ⟨-, rfl⟩ | ⟨mode, ids, read, rfl⟩
  · exact absurd rfl some
  · exact (tokenIds_ok read).sorted

theorem selection_sorted {token : String} {selection : DocumentSelection}
    (parsed : parseDocumentSelection tables token = .ok selection) :
    selection.documentIds.Pairwise (· ≤ ·) := by
  rcases parseDocumentSelection_ok parsed with ⟨-, rfl⟩ | ⟨mode, ids, read, rfl⟩
  · exact List.Pairwise.nil
  · exact List.pairwise_insertionSort _ ids

variable {t : DocumentTables} {projectId : Uuid} {listed documents : List StoredDocument}
  {selection : DocumentSelection}

/-- The active documents of the project that the selection names. -/
def namedRows (t : DocumentTables) (projectId : Uuid) (selection : DocumentSelection) :
    List ProjectDocument :=
  (activeDocuments t projectId).filter fun row =>
    decide (selection.mode = .all ∨ row.id ∈ selection.documentIds)

theorem mem_namedRows {row : ProjectDocument} : row ∈ namedRows t projectId selection ↔
    row ∈ activeDocuments t projectId ∧
      (selection.mode = .all ∨ row.id ∈ selection.documentIds) := by
  rw [namedRows, List.mem_filter, decide_eq_true_iff]

theorem namedRows_all (all : selection.mode = .all) :
    namedRows t projectId selection = activeDocuments t projectId := by
  rw [namedRows, List.filter_eq_self]
  intro row _
  exact decide_eq_true (.inl all)

theorem namedRows_ids (keyed : Keyed ProjectDocument.id t.documents) :
    ((namedRows t projectId selection).map ProjectDocument.id).Nodup := by
  have within : (namedRows t projectId selection).Sublist t.documents :=
    List.filter_sublist.trans List.filter_sublist
  exact keyed.sublist (within.map ProjectDocument.id)

theorem getDocument_ok_iff (keyed : Keyed ProjectDocument.id t.documents) {documentId : Uuid}
    {item : StoredDocument} : getDocument t projectId documentId = .ok item ↔
      ∃ row ∈ activeDocuments t projectId, row.id = documentId ∧ item = row.stored := by
  simp only [getDocument, bind_eq_ok, require_eq_ok, exists_unit, orFault_eq_ok, pure_eq_ok]
  constructor
  · rintro ⟨row, found, active, rfl⟩
    have holds := List.find?_some found
    rw [decide_eq_true_iff] at holds
    exact ⟨row, mem_activeDocuments.mpr ⟨List.mem_of_find?_eq_some found, holds.2, active⟩,
      holds.1, rfl⟩
  · rintro ⟨row, mem, rfl, rfl⟩
    obtain ⟨stored, project, active⟩ := mem_activeDocuments.mp mem
    refine ⟨row, ?_, active, rfl⟩
    apply keyed.find_of stored
    · exact decide_eq_true ⟨rfl, project⟩
    · intro other same
      exact (of_decide_eq_true same).1

theorem getDocuments_ok (keyed : Keyed ProjectDocument.id t.documents) {ids : List Uuid}
    (each : List.Forall₂ (fun id item => getDocument t projectId id = .ok item) ids documents) :
    documents.map StoredDocument.documentId = ids ∧
      ∀ item ∈ documents, ∃ row ∈ activeDocuments t projectId, item = row.stored := by
  induction each with
  | nil => exact ⟨rfl, fun _ mem => (nomatch mem)⟩
  | cons head _ ih =>
    obtain ⟨row, active, rfl, rfl⟩ := (getDocument_ok_iff keyed).mp head
    refine ⟨by rw [List.map_cons, ih.1]; rfl, ?_⟩
    intro item mem
    rcases List.mem_cons.mp mem with rfl | later
    · exact ⟨row, active, rfl⟩
    · exact ih.2 item later

theorem selectedDocuments_perm (keyed : Keyed ProjectDocument.id t.documents)
    (listing : listed.Perm ((activeDocuments t projectId).map ProjectDocument.stored))
    (distinct : selection.mode ≠ .all → selection.documentIds.Nodup)
    (read : selectedDocuments t listed projectId selection = .ok documents) :
    documents.Perm ((namedRows t projectId selection).map ProjectDocument.stored) ∧
      (selection.mode ≠ .all →
        documents.map StoredDocument.documentId = selection.documentIds) := by
  rw [selectedDocuments] at read
  split at read
  · rename_i all
    cases read
    rw [namedRows_all all]
    exact ⟨listing, fun some => absurd all some⟩
  · rename_i some
    obtain ⟨ids, rows⟩ := getDocuments_ok keyed (mapM_eq_ok_iff.mp read)
    refine ⟨?_, fun _ => ids⟩
    have named : ((namedRows t projectId selection).map ProjectDocument.id).Nodup :=
      namedRows_ids keyed
    rw [List.perm_ext_iff_of_nodup]
    · intro item
      constructor
      · intro mem
        obtain ⟨row, active, rfl⟩ := rows item mem
        have asked : row.id ∈ selection.documentIds := by
          rw [← ids]
          exact List.mem_map_of_mem mem
        exact List.mem_map_of_mem (mem_namedRows.mpr ⟨active, .inr asked⟩)
      · intro mem
        obtain ⟨row, named, rfl⟩ := List.mem_map.mp mem
        obtain ⟨active, all | asked⟩ := mem_namedRows.mp named
        · exact absurd all some
        · rw [← ids] at asked
          obtain ⟨item, source, same⟩ := List.mem_map.mp asked
          obtain ⟨other, otherActive, rfl⟩ := rows item source
          have one : other = row := keyed.eq_of_key (mem_activeDocuments.mp otherActive).1
            (mem_activeDocuments.mp active).1 same
          exact one ▸ source
    · exact List.Nodup.of_map StoredDocument.documentId (ids ▸ distinct some)
    · apply List.Nodup.of_map StoredDocument.documentId
      rw [List.map_map]
      exact named

theorem selectedDocuments_isOk (keyed : Keyed ProjectDocument.id t.documents)
    (known : selection.mode ≠ .all → ∀ id ∈ selection.documentIds,
      ∃ row ∈ activeDocuments t projectId, row.id = id) :
    ∃ documents, selectedDocuments t listed projectId selection = .ok documents := by
  rw [selectedDocuments]
  split
  · exact ⟨listed, rfl⟩
  · rename_i some
    have each : ∀ id ∈ selection.documentIds, ∃ item, getDocument t projectId id = .ok item := by
      intro id mem
      obtain ⟨row, active, same⟩ := known some id mem
      exact ⟨row.stored, (getDocument_ok_iff keyed).mpr ⟨row, active, same, rfl⟩⟩
    exact mapM_isOk each

/-! ## The frozen selection -/

theorem perm_sortedDocuments (documents : List StoredDocument) :
    (sortedDocuments documents).Perm documents :=
  List.perm_insertionSort _ documents

theorem sortedDocuments_ordered (documents : List StoredDocument) :
    (sortedDocuments documents).Pairwise fun first second =>
      first.documentId ≤ second.documentId := by
  have total : Std.Total fun first second : StoredDocument =>
      first.documentId ≤ second.documentId :=
    ⟨fun first second => Nat.le_total first.documentId second.documentId⟩
  have chain : IsTrans StoredDocument fun first second =>
      first.documentId ≤ second.documentId :=
    ⟨fun _ _ _ left right => Nat.le_trans left right⟩
  exact List.pairwise_insertionSort _ documents

theorem sortedDocuments_of_perm {first second : List StoredDocument} (same : first.Perm second)
    (distinct : (second.map StoredDocument.documentId).Nodup) :
    sortedDocuments first = sortedDocuments second := by
  have left := perm_sortedDocuments first
  have right := perm_sortedDocuments second
  refine List.Perm.eq_of_pairwise (fun m n mem mem' up down => ?_)
    (sortedDocuments_ordered first) (sortedDocuments_ordered second) ?_
  · have here : m ∈ second := same.subset (left.subset mem)
    exact List.inj_on_of_nodup_map distinct here (right.subset mem') (Nat.le_antisymm up down)
  · exact left.trans (same.trans right.symm)

def frozenSelection (t : DocumentTables) (projectId : Uuid) (requirementKey : String)
    (selection : DocumentSelection) : DocumentSnapshot :=
  ⟨projectId, requirementKey, selection.mode,
    (sortedDocuments ((namedRows t projectId selection).map ProjectDocument.stored)).map
      frozenDocument⟩

variable {requirementKey : String}

theorem mem_frozenSelection {document : FrozenDocument} :
    document ∈ (frozenSelection t projectId requirementKey selection).documents ↔
      ∃ row ∈ namedRows t projectId selection, document = frozenDocument row.stored := by
  simp only [frozenSelection, List.mem_map, (perm_sortedDocuments _).mem_iff]
  constructor
  · rintro ⟨_, ⟨row, named, rfl⟩, rfl⟩
    exact ⟨row, named, rfl⟩
  · rintro ⟨row, named, rfl⟩
    exact ⟨row.stored, ⟨row, named, rfl⟩, rfl⟩

theorem length_frozenSelection :
    (frozenSelection t projectId requirementKey selection).documents.length =
      (namedRows t projectId selection).length := by
  rw [frozenSelection, List.length_map, (perm_sortedDocuments _).length_eq, List.length_map]

theorem frozenSelection_ordered (keyed : Keyed ProjectDocument.id t.documents) :
    ((frozenSelection t projectId requirementKey selection).documents.map
      FrozenDocument.documentId).Pairwise (· < ·) := by
  have ids : ((namedRows t projectId selection).map ProjectDocument.id).Nodup :=
    namedRows_ids keyed
  have ordered := sortedDocuments_ordered
    ((namedRows t projectId selection).map ProjectDocument.stored)
  have distinct : ((sortedDocuments ((namedRows t projectId selection).map
      ProjectDocument.stored)).map StoredDocument.documentId).Nodup := by
    rw [((perm_sortedDocuments _).map _).nodup_iff, List.map_map]
    exact ids
  rw [frozenSelection, List.map_map]
  rw [List.Nodup, List.pairwise_map] at distinct
  rw [List.pairwise_map]
  exact ordered.imp₂ (fun _ _ below other => Nat.lt_of_le_of_ne below other) distinct

theorem frozen_path_injective {row other : ProjectDocument} (storable : Storable tables row)
    (storable' : Storable tables other)
    (same : (frozenDocument row.stored).path = (frozenDocument other.stored).path) :
    row.folder = other.folder ∧ row.name = other.name := by
  obtain ⟨named, free⟩ := canonical_parts storable.path
  obtain ⟨named', free'⟩ := canonical_parts storable'.path
  have parts := segments_path named free row.id row.mime row.checksum row.size
  have parts' := segments_path named' free' other.id other.mime other.checksum other.size
  have joint : (documentPath row.folder row.name).map String.toList =
      (documentPath other.folder other.name).map String.toList := by
    rw [← parts, ← parts']
    exact congrArg (fun path : String => Skills.segments path.toList) same
  have one := List.map_injective_iff.mpr (fun _ _ => String.toList_injective) joint
  obtain ⟨folder, name⟩ := List.append_inj' one rfl
  exact ⟨folder, List.singleton_inj.mp name⟩

theorem frozenSelection_paths (shelved : Shelved tables t.documents) :
    ((frozenSelection t projectId requirementKey selection).documents.map
      FrozenDocument.path).Nodup := by
  have rows : (namedRows t projectId selection).Nodup :=
    List.Nodup.of_map _ (namedRows_ids shelved.keyed)
  rw [frozenSelection, ((((perm_sortedDocuments _).map frozenDocument).map
    FrozenDocument.path)).nodup_iff, List.map_map, List.map_map]
  refine rows.map_on fun row mem other mem' same => ?_
  obtain ⟨stored, project, active⟩ := mem_activeDocuments.mp (mem_namedRows.mp mem).1
  obtain ⟨stored', project', active'⟩ := mem_activeDocuments.mp (mem_namedRows.mp mem').1
  obtain ⟨folder, name⟩ := frozen_path_injective (shelved.storable row stored)
    (shelved.storable other stored') same
  exact shelved.distinct row stored other stored'
    ⟨project.trans project'.symm, active, active', folder, name⟩

theorem coherent_frozenSelection (shelved : Shelved tables t.documents)
    (identifiers : ∀ row ∈ t.documents, row.id < 2 ^ 128)
    (bounded : 1 ≤ (namedRows t projectId selection).length ∧
      (namedRows t projectId selection).length ≤ maxSelectedDocuments)
    (counts : ¬ (selection.mode = .single ∧ (namedRows t projectId selection).length ≠ 1) ∧
      ¬ (selection.mode = .set ∧ (namedRows t projectId selection).length < 2))
    (plain : ∀ row ∈ namedRows t projectId selection, ¬ ReservedPath row.folder row.name) :
    Coherent tables (frozenSelection t projectId requirementKey selection) where
  bounded := by
    rw [length_frozenSelection]
    exact bounded
  readable := by
    intro document mem
    obtain ⟨row, named, rfl⟩ := mem_frozenSelection.mp mem
    have stored := (mem_activeDocuments.mp (mem_namedRows.mp named).1).1
    have storable := shelved.storable row stored
    refine ⟨identifiers row stored, ?_, storable.mime, storable.size, storable.checksum, ?_⟩
    · intro empty
      have present := (pathIsCanonical_safe storable.path).1.present
      have chars : row.name.toList = [] := by
        rw [show row.name = "" from empty]
        rfl
      exact present chars
    · exact (pathAllowed_iff storable.path).mpr (plain row named)
  ordered := frozenSelection_ordered shelved.keyed
  paths := frozenSelection_paths shelved
  mode := by
    rw [length_frozenSelection]
    exact counts

section Freezing

variable {library : StandardLibrary} {snapshot read : DocumentSnapshot}

theorem parseDocument_toJson_allowed {document read : FrozenDocument}
    (parsed : parseDocument tables document.toJson = .ok read) :
    pathAllowed tables document.folder document.name := by
  rw [FrozenDocument.toJson] at parsed
  simp only [parseDocument, bind_eq_ok, require_eq_ok, exists_unit, pure_eq_ok, member_cons,
    String.reduceEq, if_false, if_true, textOf] at parsed
  obtain ⟨-, _, -, _, -, folder, rfl, name, rfl, _, -, _, -, _, -, -, allowed, -⟩ := parsed
  exact allowed

theorem parseDocumentSnapshot_toJson_allowed
    (parsed : parseDocumentSnapshot tables library (snapshot.toJson library) projectId
      requirementKey = .ok read) :
    ∀ document ∈ snapshot.documents, pathAllowed tables document.folder document.name := by
  have form : snapshot.toJson library = .object (snapshot.fields
      (taggedSha256 library (canonicalJson (.object snapshot.payload)))) := rfl
  obtain ⟨-, -, -, -, members⟩ := member_fields snapshot
    (taggedSha256 library (canonicalJson (.object snapshot.payload)))
  rw [form] at parsed
  generalize snapshot.fields (taggedSha256 library (canonicalJson (.object snapshot.payload))) =
    fields at parsed members
  simp only [parseDocumentSnapshot, bind_eq_ok, require_eq_ok, exists_unit, members,
    entriesOf, pure_eq_ok] at parsed
  obtain ⟨_, -, _, -, _, -, -, _, -, _, -, _, ⟨-, rfl⟩, read, each, -⟩ := parsed
  intro document mem
  obtain ⟨found, -, one⟩ := mapM_ok_mem each document.toJson (List.mem_map_of_mem mem)
  exact parseDocument_toJson_allowed one

theorem counts_of_chosen
    (chosen : documents.Perm ((namedRows t projectId selection).map ProjectDocument.stored))
    (asked : selection.mode ≠ .all → Listing selection.mode selection.documentIds ∧
      documents.map StoredDocument.documentId = selection.documentIds) :
    ¬ (selection.mode = .single ∧ (namedRows t projectId selection).length ≠ 1) ∧
      ¬ (selection.mode = .set ∧ (namedRows t projectId selection).length < 2) := by
  by_cases all : selection.mode = .all
  · rw [all]
    exact ⟨fun both => (nomatch both.1), fun both => (nomatch both.1)⟩
  · obtain ⟨listing, listed⟩ := asked all
    have counted : (namedRows t projectId selection).length = selection.documentIds.length := by
      rw [← listed, List.length_map, chosen.length_eq, List.length_map]
    rw [counted]
    exact listing.counts

theorem freezeDocumentSnapshot_ok_iff (shelved : Shelved tables t.documents)
    (identifiers : ∀ row ∈ t.documents, row.id < 2 ^ 128)
    (chosen : documents.Perm ((namedRows t projectId selection).map ProjectDocument.stored))
    (sorted : selection.documentIds.Pairwise (· ≤ ·))
    (asked : selection.mode ≠ .all → Listing selection.mode selection.documentIds ∧
      documents.map StoredDocument.documentId = selection.documentIds) :
    freezeDocumentSnapshot tables library projectId requirementKey selection documents =
        .ok snapshot ↔
      (1 ≤ (namedRows t projectId selection).length ∧
        (namedRows t projectId selection).length ≤ maxSelectedDocuments) ∧
      (∀ row ∈ namedRows t projectId selection, ¬ ReservedPath row.folder row.name) ∧
      snapshot = frozenSelection t projectId requirementKey selection := by
  have ids : ((namedRows t projectId selection).map ProjectDocument.id).Nodup :=
    namedRows_ids shelved.keyed
  have counted : documents.length = (namedRows t projectId selection).length := by
    rw [chosen.length_eq, List.length_map]
  have order : sortedDocuments documents =
      sortedDocuments ((namedRows t projectId selection).map ProjectDocument.stored) := by
    apply sortedDocuments_of_perm chosen
    rw [List.map_map]
    exact ids
  have form : (⟨projectId, requirementKey, selection.mode,
      (sortedDocuments documents).map frozenDocument⟩ : DocumentSnapshot) =
        frozenSelection t projectId requirementKey selection := by
    rw [order, frozenSelection]
  have nonempty : documents ≠ [] ↔ 1 ≤ (namedRows t projectId selection).length := by
    rw [← counted, ← List.length_pos_iff]
    exact Iff.rfl
  have member : ∀ item ∈ documents, item.projectId = projectId := by
    intro item mem
    obtain ⟨row, named, rfl⟩ := List.mem_map.mp (chosen.subset mem)
    exact (mem_activeDocuments.mp (mem_namedRows.mp named).1).2.1
  have same : selection.mode ≠ .all → ((sortedDocuments documents).map frozenDocument).map
      FrozenDocument.documentId = selection.documentIds := by
    intro some
    obtain ⟨-, listed⟩ := asked some
    have already : sortedDocuments documents = documents := by
      apply List.Pairwise.insertionSort_eq
      rw [← listed, List.pairwise_map] at sorted
      exact sorted
    rw [already, List.map_map, ← listed]
    rfl
  have counts := counts_of_chosen chosen asked
  simp only [freezeDocumentSnapshot, bind_eq_ok, require_eq_ok, exists_unit, form, nonempty,
    counted]
  constructor
  · rintro ⟨bounded, -, -, parsed⟩
    have plain : ∀ row ∈ namedRows t projectId selection,
        ¬ ReservedPath row.folder row.name := by
      intro row named
      have stored := (mem_activeDocuments.mp (mem_namedRows.mp named).1).1
      exact (pathAllowed_iff (shelved.storable row stored).path).mp
        (parseDocumentSnapshot_toJson_allowed parsed _
          (mem_frozenSelection.mpr ⟨row, named, rfl⟩))
    have coherent : Coherent tables (frozenSelection t projectId requirementKey selection) :=
      coherent_frozenSelection shelved identifiers bounded counts plain
    have expected := parseDocumentSnapshot_toJson library coherent
    exact ⟨bounded, plain, Except.ok.inj (parsed.symm.trans expected)⟩
  · rintro ⟨bounded, plain, rfl⟩
    have coherent : Coherent tables (frozenSelection t projectId requirementKey selection) :=
      coherent_frozenSelection shelved identifiers bounded counts plain
    exact ⟨bounded, member, same, parseDocumentSnapshot_toJson library coherent⟩

end Freezing

/-! ## Bindings -/

section Bindings

/-- What a selection may name: all documents of a project that has some and not too many, or
active documents of the project. -/
def Available (t : DocumentTables) (projectId : Uuid) (selection : DocumentSelection) : Prop :=
  (selection.mode = .all → 1 ≤ (activeDocuments t projectId).length ∧
    (activeDocuments t projectId).length ≤ maxSelectedDocuments) ∧
  ∀ id ∈ selection.documentIds, ∃ row ∈ activeDocuments t projectId, row.id = id

/-- The token parses and names what it may name. -/
def Eligible (tables : UnicodeTables) (t : DocumentTables) (projectId : Uuid) (token : String) :
    Prop :=
  ∃ selection, parseDocumentSelection tables token = .ok selection ∧
    Available t projectId selection

/-- The token names this active document of the project. -/
def Names (tables : UnicodeTables) (t : DocumentTables) (projectId : Uuid) (token : String)
    (row : ProjectDocument) : Prop :=
  ∃ selection, parseDocumentSelection tables token = .ok selection ∧
    row ∈ namedRows t projectId selection

def SameTokens (tables : UnicodeTables) (token token' : String) : Prop :=
  token' = token ∨ ∃ mode ids ids', tokenIds tables token = .ok (mode, ids) ∧
    tokenIds tables token' = .ok (mode, ids') ∧ ids'.Perm ids

/-- An answer of `list_for_project`: the active documents of the project in some order. -/
def Lists (t : DocumentTables) (projectId : Uuid) (listed : List StoredDocument) : Prop :=
  listed.Perm ((activeDocuments t projectId).map ProjectDocument.stored)

variable {library : StandardLibrary} {requirementKey token capability : String}
  {deferContent : Bool} {snapshot : DocumentSnapshot} {binding : Json}

theorem bounded_of_chosen (parsed : parseDocumentSelection tables token = .ok selection)
    (available : Available t projectId selection)
    (chosen : documents.Perm ((namedRows t projectId selection).map ProjectDocument.stored))
    (ids : selection.mode ≠ .all →
      documents.map StoredDocument.documentId = selection.documentIds) :
    1 ≤ (namedRows t projectId selection).length ∧
      (namedRows t projectId selection).length ≤ maxSelectedDocuments := by
  by_cases all : selection.mode = .all
  · rw [namedRows_all all]
    exact available.1 all
  · have counted : (namedRows t projectId selection).length = selection.documentIds.length := by
      rw [← ids all, List.length_map, chosen.length_eq, List.length_map]
    rw [counted]
    exact (selection_listing parsed all).bounded

theorem selection_nodup (parsed : parseDocumentSelection tables token = .ok selection) :
    selection.mode ≠ .all → selection.documentIds.Nodup :=
  fun some => (selection_listing parsed some).distinct

theorem documentIds_all (parsed : parseDocumentSelection tables token = .ok selection)
    (all : selection.mode = .all) : selection.documentIds = [] := by
  rcases parseDocumentSelection_ok parsed with ⟨-, rfl⟩ | ⟨mode, ids, read, rfl⟩
  · rfl
  · exact absurd all (tokenIds_ok read).partly

theorem resolveDocumentBinding_ok_iff (shelved : Shelved tables t.documents)
    (identifiers : ∀ row ∈ t.documents, row.id < 2 ^ 128) (listing : Lists t projectId listed)
    (capable : capability ∈ documentCapabilities) :
    (∃ binding, resolveDocumentBinding tables library t listed projectId requirementKey token
        capability deferContent = .ok (snapshot, binding)) ↔
      ∃ selection, parseDocumentSelection tables token = .ok selection ∧
        Available t projectId selection ∧
        (∀ row ∈ namedRows t projectId selection, ¬ ReservedPath row.folder row.name) ∧
        snapshot = frozenSelection t projectId requirementKey selection := by
  simp only [resolveDocumentBinding, bind_eq_ok, require_eq_ok, exists_unit, pure_eq_ok,
    Prod.mk.injEq]
  constructor
  · rintro ⟨_, -, selection, parsed, documents, read, frozen, freezes, rfl, -⟩
    obtain ⟨chosen, ids⟩ := selectedDocuments_perm shelved.keyed listing
      (selection_nodup parsed) read
    obtain ⟨bounded, plain, same⟩ := (freezeDocumentSnapshot_ok_iff shelved identifiers chosen
      (selection_sorted parsed) fun some => ⟨selection_listing parsed some, ids some⟩).mp freezes
    refine ⟨selection, parsed, ⟨?_, ?_⟩, plain, same⟩
    · intro all
      rw [← namedRows_all all]
      exact bounded
    · intro id asked
      by_cases all : selection.mode = .all
      · rw [documentIds_all parsed all] at asked
        cases asked
      · rw [← ids all] at asked
        obtain ⟨item, mem, rfl⟩ := List.mem_map.mp asked
        obtain ⟨row, named, rfl⟩ := List.mem_map.mp (chosen.subset mem)
        exact ⟨row, (mem_namedRows.mp named).1, rfl⟩
  · rintro ⟨selection, parsed, available, plain, rfl⟩
    obtain ⟨documents, read⟩ : ∃ documents,
        selectedDocuments t listed projectId selection = .ok documents :=
      selectedDocuments_isOk shelved.keyed fun _ => available.2
    obtain ⟨chosen, ids⟩ := selectedDocuments_perm shelved.keyed listing
      (selection_nodup parsed) read
    have freezes : freezeDocumentSnapshot tables library projectId requirementKey selection
        documents = .ok (frozenSelection t projectId requirementKey selection) :=
      (freezeDocumentSnapshot_ok_iff shelved identifiers chosen (selection_sorted parsed)
        fun some => ⟨selection_listing parsed some, ids some⟩).mpr
          ⟨bounded_of_chosen parsed available chosen ids, plain, rfl⟩
    exact ⟨_, capable, selection, parsed, documents, read, _, freezes, rfl, rfl⟩

/-- What is frozen for a token: the documents it names, each once and in the order of their
identifiers, in a form that is read as the snapshot and that no other value shares with it. -/
structure FrozenAs (tables : UnicodeTables) (library : StandardLibrary) (t : DocumentTables)
    (projectId : Uuid) (requirementKey token : String) (snapshot : DocumentSnapshot)
    (binding : Json) : Prop where
  owner : snapshot.projectId = projectId ∧ snapshot.requirementKey = requirementKey
  members : ∀ document, document ∈ snapshot.documents ↔
    ∃ row, Names tables t projectId token row ∧ document = frozenDocument row.stored
  once : (snapshot.documents.map FrozenDocument.documentId).Pairwise (· < ·)
  bound : ∃ fields, binding = .object fields ∧
    member fields "document_snapshot" = some (snapshot.toJson library)
  kept : loads (dumps (snapshot.toJson library)) = some (snapshot.toJson library)
  readBack : parseDocumentSnapshot tables library (snapshot.toJson library) projectId
    requirementKey = .ok snapshot
  only : ∀ value, value.wellFormed = true →
    parseDocumentSnapshot tables library value projectId requirementKey = .ok snapshot →
      value.Same (snapshot.toJson library)

/-- A token can be selected and frozen: it is resolved when it may be, faithfully, and to the
same snapshot for every listing and every token for the same documents. -/
structure Freezes (tables : UnicodeTables) (library : StandardLibrary) (t : DocumentTables)
    (projectId : Uuid) (requirementKey token capability : String) (deferContent : Bool) :
    Prop where
  accepted : ∀ listed, Lists t projectId listed →
    ((∃ frozen, resolveDocumentBinding tables library t listed projectId requirementKey token
      capability deferContent = .ok frozen) ↔ Eligible tables t projectId token)
  faithful : ∀ listed, Lists t projectId listed → ∀ snapshot binding,
    resolveDocumentBinding tables library t listed projectId requirementKey token capability
      deferContent = .ok (snapshot, binding) →
        FrozenAs tables library t projectId requirementKey token snapshot binding
  independent : ∀ listed listed' token' snapshot binding, Lists t projectId listed →
    Lists t projectId listed' → SameTokens tables token token' →
      resolveDocumentBinding tables library t listed projectId requirementKey token capability
        deferContent = .ok (snapshot, binding) →
          ∃ binding', resolveDocumentBinding tables library t listed' projectId requirementKey
            token' capability deferContent = .ok (snapshot, binding')

theorem binding_snapshot {listed : List StoredDocument}
    (resolved : resolveDocumentBinding tables library t listed projectId requirementKey token
      capability deferContent = .ok (snapshot, binding)) :
    ∃ fields, binding = .object fields ∧
      member fields "document_snapshot" = some (snapshot.toJson library) := by
  simp only [resolveDocumentBinding, bind_eq_ok, require_eq_ok, exists_unit, pure_eq_ok,
    Prod.mk.injEq] at resolved
  obtain ⟨-, selection, -, documents, -, frozen, -, rfl, rfl⟩ := resolved
  refine ⟨_, rfl, ?_⟩
  generalize frozen.toJson library = form
  simp only [List.cons_append, member_cons, String.reduceEq, if_false, if_true]

theorem coherent_of_available (shelved : Shelved tables t.documents)
    (identifiers : ∀ row ∈ t.documents, row.id < 2 ^ 128)
    (parsed : parseDocumentSelection tables token = .ok selection)
    (available : Available t projectId selection)
    (plain : ∀ row ∈ namedRows t projectId selection, ¬ ReservedPath row.folder row.name) :
    Coherent tables (frozenSelection t projectId requirementKey selection) := by
  have listing : Lists t projectId
      ((activeDocuments t projectId).map ProjectDocument.stored) := List.Perm.refl _
  obtain ⟨documents, read⟩ := selectedDocuments_isOk shelved.keyed fun _ => available.2
  obtain ⟨chosen, ids⟩ := selectedDocuments_perm shelved.keyed listing (selection_nodup parsed)
    read
  exact coherent_frozenSelection shelved identifiers
    (bounded_of_chosen parsed available chosen ids)
    (counts_of_chosen chosen fun some => ⟨selection_listing parsed some, ids some⟩) plain

theorem frozenAs_frozenSelection (shelved : Shelved tables t.documents)
    (parsed : parseDocumentSelection tables token = .ok selection)
    (coherent : Coherent tables (frozenSelection t projectId requirementKey selection))
    (bound : ∃ fields, binding = .object fields ∧ member fields "document_snapshot" =
      some ((frozenSelection t projectId requirementKey selection).toJson library)) :
    FrozenAs tables library t projectId requirementKey token
      (frozenSelection t projectId requirementKey selection) binding := by
  have formed : ((frozenSelection t projectId requirementKey selection).toJson
      library).wellFormed = true := by
    apply wellFormed_snapshot
    intro document mem
    obtain ⟨row, named, rfl⟩ := mem_frozenSelection.mp mem
    exact (shelved.storable row (mem_activeDocuments.mp (mem_namedRows.mp named).1).1).size
  refine ⟨⟨rfl, rfl⟩, ?_, coherent.ordered, bound, loads_dumps formed,
    parseDocumentSnapshot_toJson library coherent, ?_⟩
  · intro document
    rw [mem_frozenSelection]
    constructor
    · rintro ⟨row, named, rfl⟩
      exact ⟨row, ⟨selection, parsed, named⟩, rfl⟩
    · rintro ⟨row, ⟨other, parsed', named⟩, rfl⟩
      rw [Except.ok.inj (parsed'.symm.trans parsed)] at named
      exact ⟨row, named, rfl⟩
  · intro value valid read
    exact (same_of_canonicalChars formed valid (parseDocumentSnapshot_ok read).2.2.2).symm

theorem parseDocumentSelection_same {token' : String} (same : SameTokens tables token token')
    (parsed : parseDocumentSelection tables token = .ok selection) :
    parseDocumentSelection tables token' = .ok selection := by
  rcases same with rfl | ⟨mode, ids, ids', read, read', perm⟩
  · exact parsed
  · have some : token ≠ "project-documents:all" := by
      rintro rfl
      exact tokenIds_all read
    have some' : token' ≠ "project-documents:all" := by
      rintro rfl
      exact tokenIds_all read'
    rw [parseDocumentSelection, if_neg some, read] at parsed
    rw [parseDocumentSelection, if_neg some', read']
    rw [← parsed]
    show Except.ok _ = Except.ok _
    rw [sortedIds_of_perm perm]

/-- **A selection of stored documents is resolved as it should be exactly when no document it
names lies on a reserved path**: below a folder that is a dot, or below or at a name that the
reader of snapshots keeps for itself.  The documents are those of any state that the uploads,
the publications of effects, the folder operations and the recycle bin lead to. -/
theorem stored_documents_frozen {contentHash : List UInt8 → HexDigest}
    {settings : DocumentSettings} (library : StandardLibrary)
    (reached : (documentStore (programSettings tables contentHash settings)).Reachable
      DocumentTables.empty t) (identifiers : ∀ row ∈ t.documents, row.id < 2 ^ 128)
    (capable : capability ∈ documentCapabilities) (projectId : Uuid)
    (requirementKey token : String) (deferContent : Bool) :
    Freezes tables library t projectId requirementKey token capability deferContent ↔
      (Eligible tables t projectId token → ∀ row, Names tables t projectId token row →
        ¬ ReservedPath row.folder row.name) := by
  have shelved := shelved_reachable reached
  constructor
  · rintro freezes eligible row ⟨selection, parsed, named⟩
    have listing : Lists t projectId
        ((activeDocuments t projectId).map ProjectDocument.stored) := List.Perm.refl _
    obtain ⟨⟨snapshot, binding⟩, resolved⟩ := (freezes.accepted _ listing).mpr eligible
    obtain ⟨other, parsed', -, plain, -⟩ := (resolveDocumentBinding_ok_iff shelved identifiers
      listing capable).mp ⟨binding, resolved⟩
    rw [Except.ok.inj (parsed.symm.trans parsed')] at named
    exact plain row named
  · intro plain
    constructor
    · intro listed listing
      constructor
      · rintro ⟨⟨snapshot, binding⟩, resolved⟩
        obtain ⟨selection, parsed, available, -, -⟩ := (resolveDocumentBinding_ok_iff shelved
          identifiers listing capable).mp ⟨binding, resolved⟩
        exact ⟨selection, parsed, available⟩
      · rintro ⟨selection, parsed, available⟩
        obtain ⟨binding, resolved⟩ := (resolveDocumentBinding_ok_iff shelved identifiers listing
          capable).mpr ⟨selection, parsed, available, fun row named =>
            plain ⟨selection, parsed, available⟩ row ⟨selection, parsed, named⟩, rfl⟩
        exact ⟨_, resolved⟩
    · intro listed listing snapshot binding resolved
      have bound := binding_snapshot resolved
      obtain ⟨selection, parsed, available, free, rfl⟩ := (resolveDocumentBinding_ok_iff shelved
        identifiers listing capable).mp ⟨binding, resolved⟩
      exact frozenAs_frozenSelection shelved parsed
        (coherent_of_available shelved identifiers parsed available free) bound
    · intro listed listed' token' snapshot binding listing listing' same resolved
      obtain ⟨selection, parsed, rest⟩ := (resolveDocumentBinding_ok_iff shelved
        identifiers listing capable).mp ⟨binding, resolved⟩
      exact (resolveDocumentBinding_ok_iff shelved identifiers listing' capable).mpr
        ⟨selection, parseDocumentSelection_same same parsed, rest⟩

end Bindings

def asciiTables : UnicodeTables where
  isprintable c := decide (' ' ≤ c ∧ c ≤ '~')
  slash := by decide
  decimal := fun _ => none

def zeroDigest : HexDigest := ⟨List.replicate 64 '0', by decide, by decide⟩

/-- A library under which every text has one hash. -/
def zeroLibrary : StandardLibrary := ⟨fun _ => false, fun _ => zeroDigest⟩

def checkedSettings : DocumentSettings :=
  programSettings asciiTables (fun _ => zeroDigest)
    { sampleSettings with
      uploads := { sampleSettings.uploads with
        contentChecksum := taggedHash fun _ => zeroDigest } }

/-- A file is reserved and published. -/
def uploadFile (uploadKey documentId intentId : Uuid) (folder : Folder) (name : String) :
    List DocumentAction :=
  let request := sampleRequest uploadKey folder name
  let intent : StoredUploadIntent :=
    { sampleIntent request documentId intentId with
      command :=
        request.command checkedSettings.uploads sampleSession documentId intentId sampleStorage }
  [sampleReserve request documentId intentId,
    .complete sampleSession request intent (.ok ()) 12 13 14]

/-- One file is uploaded to the root of the project. -/
def sampleUpload (name : String) : List DocumentAction := uploadFile 6 20 30 [] name

/-- A file of the reserved name can be uploaded, and then not all documents of its project can
be selected. -/
theorem stored_documents_unfrozen :
    (documentStore checkedSettings).Reachable .empty
        ((documentStore checkedSettings).run .empty (sampleUpload ".skillmind")) ∧
      ¬ Freezes asciiTables zeroLibrary
        ((documentStore checkedSettings).run .empty (sampleUpload ".skillmind")) 5 "input"
        "project-documents:all" "document.read/v1" false := by
  have reached : (documentStore checkedSettings).Reachable .empty
      ((documentStore checkedSettings).run .empty (sampleUpload ".skillmind")) := ⟨_, rfl⟩
  refine ⟨reached, fun freezes => ?_⟩
  have shelved := shelved_reachable reached
  have stored : (∃ row ∈ activeDocuments
      ((documentStore checkedSettings).run .empty (sampleUpload ".skillmind")) 5,
        ReservedPath row.folder row.name) ∧
      (activeDocuments
        ((documentStore checkedSettings).run .empty (sampleUpload ".skillmind")) 5).length = 1 ∧
      ∀ row ∈ ((documentStore checkedSettings).run .empty (sampleUpload ".skillmind")).documents,
        row.id < 2 ^ 128 := by decide +kernel
  generalize (documentStore checkedSettings).run .empty (sampleUpload ".skillmind") = t at *
  obtain ⟨hidden, counted, identifiers⟩ := stored
  have eligible : Eligible asciiTables t 5 "project-documents:all" := by
    refine ⟨⟨.all, []⟩, rfl, fun _ => ?_, fun _ mem => (nomatch mem)⟩
    rw [counted]
    decide
  have listing : Lists t 5 ((activeDocuments t 5).map ProjectDocument.stored) :=
    List.Perm.refl _
  obtain ⟨⟨snapshot, binding⟩, resolved⟩ := (freezes.accepted _ listing).mpr eligible
  obtain ⟨selection, parsed, -, plain, -⟩ := (resolveDocumentBinding_ok_iff shelved identifiers
    listing (by decide)).mp ⟨binding, resolved⟩
  cases parsed
  obtain ⟨row, active, reserved⟩ := hidden
  exact plain row (mem_namedRows.mpr ⟨active, .inl rfl⟩) reserved

/-- Two files, the second in a folder. -/
def sampleShelf : DocumentTables :=
  (documentStore checkedSettings).run .empty
    (sampleUpload "report" ++ uploadFile 7 21 31 ["plans"] "budget")

/-- The two files, the second of them first and the first without its hyphens. -/
def sampleToken : String :=
  "documents:00000000-0000-0000-0000-000000000015,\x7b00000000000000000000000000000014\x7d"

/-- Files of other names can be frozen, all of a project and a set of them. -/
theorem stored_documents_frozen_sample :
    (Freezes asciiTables zeroLibrary sampleShelf 5 "input" "project-documents:all"
        "document.read/v1" false ∧
      ∃ frozen, resolveDocumentBinding asciiTables zeroLibrary sampleShelf
        ((activeDocuments sampleShelf 5).map ProjectDocument.stored) 5 "input"
        "project-documents:all" "document.read/v1" false = .ok frozen) ∧
    Freezes asciiTables zeroLibrary sampleShelf 5 "input" sampleToken "document.read/v1" false ∧
      ∃ frozen, resolveDocumentBinding asciiTables zeroLibrary sampleShelf
        ((activeDocuments sampleShelf 5).map ProjectDocument.stored) 5 "input" sampleToken
        "document.read/v1" false = .ok frozen := by
  have reached : (documentStore checkedSettings).Reachable .empty sampleShelf := ⟨_, rfl⟩
  obtain ⟨identifiers, shelf, plain⟩ : (∀ row ∈ sampleShelf.documents, row.id < 2 ^ 128) ∧
      (activeDocuments sampleShelf 5).map ProjectDocument.id = [20, 21] ∧
      ∀ row ∈ activeDocuments sampleShelf 5, ¬ ReservedPath row.folder row.name := by
    decide +kernel
  have freezes (token : String) := (stored_documents_frozen zeroLibrary reached identifiers
    (by decide : "document.read/v1" ∈ documentCapabilities) 5 "input" token false).mpr
      fun _ row ⟨_, _, mem⟩ => plain row (mem_namedRows.mp mem).1
  refine ⟨⟨freezes _, ((freezes _).accepted _ (List.Perm.refl _)).mpr ?_⟩,
    freezes _, ((freezes _).accepted _ (List.Perm.refl _)).mpr ?_⟩
  · refine ⟨⟨.all, []⟩, rfl, fun _ => ?_, fun _ mem => (nomatch mem)⟩
    rw [← List.length_map (f := ProjectDocument.id), shelf]
    decide
  · obtain ⟨⟨mode, ids⟩, parsed, same⟩ := exists_ok_of_map
      (show (parseDocumentSelection asciiTables sampleToken).toOption.map
        (fun selection => (selection.mode, selection.documentIds)) = some (.set, [20, 21]) by
          decide)
    obtain ⟨rfl, rfl⟩ := Prod.mk.inj same
    refine ⟨_, parsed, fun all => (nomatch all), fun id mem => ?_⟩
    exact List.mem_map.mp (shelf ▸ mem)

end SkillMind.Documents
