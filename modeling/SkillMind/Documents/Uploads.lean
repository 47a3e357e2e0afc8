import SkillMind.Documents.UploadService

/-!
# An upload key publishes at most one document

A transaction reserves one intent, publishes one, closes one, asks for the cleanup of one, or
leaves the intents as they are. A published intent keeps its document and a closed one is never
published, so the key answers the same from then on.
-/

namespace SkillMind.Documents

open Library
open Runs (Uuid Timestamp)

variable {settings : UploadSettings} {limits : UploadLimits} {t t' : DocumentTables}
  {row row' : ProjectDocumentUpload}

/-! ## Moves of one intent -/

inductive IntentMove : ProjectDocumentUpload → ProjectDocumentUpload → Prop
  | publishes {row : ProjectDocumentUpload} {now : Timestamp} (pending : row.state = .pending)
      (unclosed : row.publicationClosedAt = none) :
      IntentMove row { row with state := .published, publishedAt := some now }
  | closes {row : ProjectDocumentUpload} {now : Timestamp} (pending : row.state = .pending)
      (unclosed : row.publicationClosedAt = none) :
      IntentMove row { row with publicationClosedAt := some now }
  | requests {row : ProjectDocumentUpload} {now : Timestamp}
      (published : row.state = .published) :
      IntentMove row { row with
        cleanupRequestedAt := some (row.cleanupRequestedAt.getD now) }

/-- The columns of the original request. -/
def ProjectDocumentUpload.frozen (row : ProjectDocumentUpload) : ProjectDocumentUpload :=
  { row with
    state := .pending, publishedAt := none, cleanupRequestedAt := none,
    publicationClosedAt := none }

/-- The intent keeps its request, and its publication or its closure once it has one. -/
structure IntentForward (row row' : ProjectDocumentUpload) : Prop where
  frozen : row'.frozen = row.frozen
  published : row.state = .published →
    row'.state = .published ∧ row'.publishedAt = row.publishedAt
  closed : row.publicationClosedAt.isSome = true → row' = row

theorem IntentForward.refl (row : ProjectDocumentUpload) : IntentForward row row :=
  ⟨rfl, fun published => ⟨published, rfl⟩, fun _ => rfl⟩

theorem stage_closed (stage : row.stage = true) (isClosed : row.publicationClosedAt.isSome = true) :
    row.state = .pending := by
  obtain ⟨closedAt, same⟩ := Option.isSome_iff_exists.mp isClosed
  simp only [ProjectDocumentUpload.stage, same, Option.all_some, Bool.and_eq_true,
    decide_eq_true_eq] at stage
  exact stage.1.1.2

theorem stage_published (stage : row.stage = true) (published : row.state = .published) :
    row.publicationClosedAt = none ∧ ∃ publishedAt, row.publishedAt = some publishedAt := by
  constructor
  · cases closedAt : row.publicationClosedAt with
    | none => rfl
    | some value =>
      have pending := stage_closed stage (by rw [closedAt]; rfl)
      rw [pending] at published
      cases published
  · have second := (Bool.and_eq_true_iff.mp stage).2
    simp only [published] at second
    split at second
    · cases second
    · rename_i publishedAt same
      exact ⟨publishedAt, same⟩

theorem IntentMove.frozen (move : IntentMove row row') : row'.frozen = row.frozen := by
  cases move <;> rfl

theorem IntentMove.forward (move : IntentMove row row') (stage : row.stage = true) :
    IntentForward row row' := by
  refine ⟨move.frozen, ?_, ?_⟩
  · intro published
    cases move with
    | publishes pending =>
      rw [pending] at published
      cases published
    | closes pending =>
      rw [pending] at published
      cases published
    | requests already => exact ⟨already, rfl⟩
  · intro isClosed
    cases move with
    | publishes pending unclosed =>
      rw [unclosed] at isClosed
      cases isClosed
    | closes pending unclosed =>
      rw [unclosed] at isClosed
      cases isClosed
    | requests published =>
      rw [stage_closed stage isClosed] at published
      cases published

theorem frozen_id (same : row'.frozen = row.frozen) : row'.id = row.id :=
  (congrArg ProjectDocumentUpload.id same :)

theorem frozen_key (same : row'.frozen = row.frozen) : row'.key = row.key :=
  (congrArg ProjectDocumentUpload.key same :)

theorem frozen_documentId (same : row'.frozen = row.frozen) : row'.documentId = row.documentId :=
  (congrArg ProjectDocumentUpload.documentId same :)

theorem frozen_command (same : row'.frozen = row.frozen) : row'.command = row.command :=
  (congrArg ProjectDocumentUpload.command same :)

theorem frozen_organization (same : row'.frozen = row.frozen) :
    row'.organizationId = row.organizationId :=
  (congrArg ProjectDocumentUpload.organizationId same :)

theorem IntentForward.document (forward : IntentForward row row')
    (published : row.state = .published) : row'.document = row.document := by
  obtain ⟨still, same⟩ := forward.published published
  rw [ProjectDocumentUpload.document, ProjectDocumentUpload.document, if_pos still,
    if_pos published, same, frozen_command forward.frozen]

/-- What one transaction does to the intents, and to the documents that come from them. -/
inductive IntentsMove (settings : UploadSettings) (t t' : DocumentTables) : Prop
  | quiet (uploads : t'.uploads = t.uploads) (closures : t'.closures = t.closures)
      (links : (uploadLinks t'.documents).Sublist (uploadLinks t.documents))
  | adds (row : ProjectDocumentUpload) (uploads : t'.uploads = t.uploads ++ [row])
      (closures : t'.closures = t.closures) (links : t'.documents = t.documents)
      (pending : row.state = .pending) (original : row.original settings = true)
      (stage : row.stage = true) (fresh : admitsIntent t row = true)
  | writes (row row' : ProjectDocumentUpload) (known : row ∈ t.uploads)
      (uploads : t'.uploads = replaceRow ProjectDocumentUpload.id row' t.uploads)
      (closures : t'.closures = t.closures ∨ row'.publicationClosedAt.isSome = true ∧
        ∃ closure, t'.closures = t.closures ++ [closure] ∧ closure.uploadIntentId = row.id)
      (links : uploadLinks t'.documents = uploadLinks t.documents ++
        (if row.state = .pending ∧ row'.state = .published then [(row.id, row.documentId)]
          else []))
      (move : IntentMove row row') (original : row'.original settings = true)
      (stage : row'.stage = true)

/-! ## The calls -/

variable {intent : StoredUploadIntent}

theorem toIntent_eq_ok :
    toIntent settings row = .ok intent ↔
      (row.original settings = true ∧ row.stage = true) ∧ row.intent = intent := by
  simp only [toIntent, bind_eq_ok, require_eq_ok, exists_unit, pure_eq_ok]

variable {key : UploadKey}

theorem findUpload_known (found : findUpload t key = some row) :
    row ∈ t.uploads ∧ row.key = key :=
  ⟨List.mem_of_find?_eq_some found, by simpa using List.find?_some found⟩

theorem rowOf_known {intentId : Uuid} (found : rowOf t intentId = some row) :
    row ∈ t.uploads ∧ row.id = intentId :=
  ⟨List.mem_of_find?_eq_some found, by simpa using List.find?_some found⟩

theorem find_none (found : find settings t key = .ok none) :
    findUpload t key = none := by
  unfold find at found
  split at found
  · assumption
  · simp only [bind_eq_ok, pure_eq_ok] at found
    obtain ⟨_, -, _, -, impossible⟩ := found
    cases impossible

theorem find_some
    (found : find settings t key = .ok (some intent)) :
    ∃ row, findUpload t key = some row ∧ row.intent = intent ∧
      (intent.publicationClosedAt = none → getClosure settings t intent = .ok none) := by
  unfold find at found
  split at found
  · cases found
  · rename_i row search
    simp only [bind_eq_ok, pure_eq_ok, toIntent_eq_ok] at found
    obtain ⟨_, ⟨-, rfl⟩, closure, read, same⟩ := found
    cases same
    refine ⟨row, search, rfl, fun unclosed => ?_⟩
    unfold getClosure at read ⊢
    split at read
    · simp [unclosed]
      rfl
    · rename_i stored _
      simp only [bind_eq_ok, toClosure, require_eq_ok, exists_unit, pure_eq_ok] at read
      obtain ⟨_, ⟨-, -, -, ⟨marked, -⟩, -⟩, -⟩ := read
      rw [unclosed] at marked
      cases marked

variable {now : Timestamp}

theorem create_links {command : UploadDocumentCommand}
    {documents : List ProjectDocument} (creates : create t command now = .ok documents) :
    uploadLinks documents = uploadLinks t.documents := by
  unfold create at creates
  split at creates
  · cases creates
    rfl
  · simp only [bind_eq_ok, pure_eq_ok] at creates
    obtain ⟨previous, -, rfl⟩ := creates
    exact filterMap_recycle (fun _ _ _ => rfl) _ _ _ _

theorem reserveUpload_moves {requestId sessionId : Uuid}
    {command : UploadDocumentCommand}
    (committed : reserveUpload settings t key requestId sessionId command now =
      .ok (intent, t')) :
    IntentsMove settings t t' ∧ ∃ row ∈ t'.uploads, row.intent = intent ∧
      row.key = ⟨key.organizationId, command.projectId, command.uploadedBy, key.uploadKey⟩ ∧
      row.command = command ∧ row.organizationId = key.organizationId := by
  simp only [reserveUpload, bind_eq_ok, toIntent_eq_ok, require_eq_ok, exists_unit, pure_eq_ok,
    Prod.mk.injEq] at committed
  obtain ⟨_, ⟨⟨original, stage⟩, shown⟩, fresh, same, rfl⟩ := committed
  refine ⟨.adds _ rfl rfl rfl rfl original stage fresh, _,
    List.mem_append_right _ (List.mem_singleton_self _), shown.trans same, rfl, ?_, rfl⟩
  cases command
  rfl

theorem publishUpload_moves {document : StoredDocument}
    (published : publishUpload settings t intent document = .ok t') :
    ∃ row row', row ∈ t.uploads ∧ row.intent = intent ∧ IntentMove row row' ∧
      row.state = .pending ∧ row'.state = .published ∧ row'.original settings = true ∧
      row'.stage = true ∧ row'.document = some document ∧ t' = putUpload t row' := by
  simp only [publishUpload, bind_eq_ok, orFault_eq_ok, toIntent_eq_ok, require_eq_ok,
    exists_unit, pure_eq_ok] at published
  obtain ⟨row, found, _, ⟨-, rfl⟩, closure, -, unclosed, ⟨rfl, pending⟩, shape, _,
    ⟨⟨original, stage⟩, -⟩, rfl⟩ := published
  refine ⟨row, _, (rowOf_known found).1, rfl, .publishes pending unclosed, pending, rfl, original,
    stage, ?_, rfl⟩
  rw [shape]
  rfl

theorem closePublication_moves {actor : DocumentCleanupActor}
    {closureId : Uuid} {answer : StoredDocumentUploadClosure × Bool}
    (committed : closePublication settings t intent actor closureId now = .ok (answer, t')) :
    IntentsMove settings t t' ∧ t'.documents = t.documents ∧ t'.folders = t.folders := by
  simp only [closePublication, bind_eq_ok, orFault_eq_ok, toIntent_eq_ok, require_eq_ok,
    exists_unit] at committed
  obtain ⟨-, -, row, found, _, ⟨-, rfl⟩, -, previous, read, unpublished, rest⟩ := committed
  split at rest
  · obtain ⟨-, rfl⟩ := Prod.mk.inj (pure_eq_ok.mp rest)
    exact ⟨.quiet rfl rfl (List.Sublist.refl _), rfl, rfl⟩
  · simp only [bind_eq_ok, toIntent_eq_ok, require_eq_ok, exists_unit, pure_eq_ok,
      Prod.mk.injEq] at rest
    obtain ⟨_, ⟨⟨original, stage⟩, rfl⟩, stored, -, -, -, rfl⟩ := rest
    have pending : row.state = .pending := by
      cases state : row.state with
      | pending => rfl
      | published => exact absurd state unpublished
    have unclosed : row.publicationClosedAt = none := by
      unfold getClosure at read
      split at read
      · simp only [bind_eq_ok, require_eq_ok, exists_unit] at read
        exact read.1
      · simp only [bind_eq_ok, pure_eq_ok] at read
        obtain ⟨_, -, impossible⟩ := read
        cases impossible
    refine ⟨.writes row _ (rowOf_known found).1 rfl (Or.inr ⟨rfl, _, rfl, rfl⟩) ?_
      (.closes pending unclosed) original stage, rfl, rfl⟩
    simp [putUpload, pending]

theorem requestCleanup_moves {intentId : Uuid} {document : StoredDocument} {storageKey : String}
    {storageNamespace : StorageNamespace}
    (requested : requestCleanup settings t intentId document storageKey storageNamespace now =
      .ok t') : IntentsMove settings t t' := by
  simp only [requestCleanup, bind_eq_ok, orFault_eq_ok, toIntent_eq_ok, require_eq_ok,
    exists_unit, pure_eq_ok] at requested
  obtain ⟨row, found, _, ⟨-, rfl⟩, closure, -, original, -, ⟨published, -⟩, _,
    ⟨⟨kept, stage⟩, -⟩, rfl⟩ := requested
  have published : row.state = .published := published
  refine .writes row _ (rowOf_known found).1 rfl (Or.inl rfl) ?_ (.requests published) kept stage
  simp [putUpload, published]

theorem intent_key (same : row'.intent = row.intent) : row'.key = row.key := by
  have read : ∀ r : ProjectDocumentUpload, r.key = ⟨r.intent.organizationId,
      r.intent.receipt.projectId, r.intent.actorId, r.intent.receipt.uploadKey⟩ := fun _ => rfl
  rw [read row', read row, same]

theorem replay_eq_ok {requestChecksum : String}
    {document : StoredDocument} : replay intent requestChecksum = .ok document ↔
      intent.requestChecksum = requestChecksum ∧ intent.publicationClosedAt = none ∧
        intent.receipt.state ≠ .pending ∧ intent.receipt.document = some document := by
  simp only [replay, bind_eq_ok, require_eq_ok, exists_unit, orFault_eq_ok]

variable {session : UploadSession} {request : UploadRequest}

theorem admit_moves
    {documentId intentId : Uuid} {storage : Except Fault StorageNamespace}
    {answer : Admission}
    (committed : admitRequest settings limits t session request documentId intentId storage now =
      .ok (answer, t')) :
    (∃ row document, findUpload t (request.key session) = some row ∧
      answer = .original document ∧ t' = t ∧
      row.requestChecksum = settings.requestChecksum (request.descriptor settings session) ∧
      row.state = .published ∧ row.document = some document) ∨
    (∃ intent, answer = .admitted intent ∧ findUpload t (request.key session) = none ∧
      IntentsMove settings t t' ∧ ∃ row ∈ t'.uploads, row.key = request.key session ∧
        row.command.descriptor row.organizationId = request.descriptor settings session) := by
  simp only [admitRequest, bind_eq_ok, require_eq_ok, exists_unit] at committed
  obtain ⟨-, -, -, found, search, rest⟩ := committed
  split at rest
  · rename_i original
    simp only [bind_eq_ok, exists_unit, replay_eq_ok, pure_eq_ok, Prod.mk.injEq] at rest
    obtain ⟨document, ⟨checksum, -, state, stored⟩, -, rfl, rfl⟩ := rest
    obtain ⟨row, known, rfl, -⟩ := find_some search
    refine Or.inl ⟨row, document, known, rfl, rfl, checksum, ?_, stored⟩
    cases place : row.state with
    | pending => exact absurd place state
    | published => rfl
  · simp only [bind_eq_ok, require_eq_ok, exists_unit, pure_eq_ok, Prod.mk.injEq] at rest
    obtain ⟨-, -, storageNamespace, -, usage, -, -, ⟨intent, reserved⟩, reserves, -, rfl,
      rfl⟩ := rest
    obtain ⟨move, row, known, -, key, command, organization⟩ := reserveUpload_moves reserves
    refine Or.inr ⟨intent, rfl, find_none search, move, row, known, key, ?_⟩
    rw [command, organization]
    rfl

theorem complete_moves
    {admitted : StoredUploadIntent} {storage : Except Fault Unit} {closureId : Uuid}
    {closeNow : Timestamp} {answer : Completion}
    (committed : complete settings limits t session request admitted storage closureId now
      closeNow = .ok (answer, t')) :
    IntentsMove settings t t' ∧ ∀ document, answer = .created document →
      ∃ row row', row ∈ t.uploads ∧ row.key = request.key session ∧ row.state = .pending ∧
        row' ∈ t'.uploads ∧ row'.frozen = row.frozen ∧ row'.state = .published ∧
        row'.document = some document := by
  simp only [complete, bind_eq_ok, require_eq_ok, exists_unit] at committed
  obtain ⟨-, original, search, -, ⟨rfl, -⟩, usage, -, -, -, rest⟩ := committed
  obtain ⟨first, known, shown, -⟩ := find_some search
  split at rest
  · simp only [bind_eq_ok, require_eq_ok, exists_unit, pure_eq_ok, Prod.mk.injEq] at rest
    obtain ⟨-, ⟨closed, written⟩, closes, -, rfl, rfl⟩ := rest
    exact ⟨(closePublication_moves closes).1, fun _ created => absurd created (by simp)⟩
  · rename_i documents creates
    simp only [bind_eq_ok, require_eq_ok, exists_unit, pure_eq_ok, Prod.mk.injEq] at rest
    obtain ⟨published, publishes, -, -, rfl, rfl⟩ := rest
    obtain ⟨row, row', rowKnown, same, move, pending, state, original, stage, document,
      rfl⟩ := publishUpload_moves publishes
    refine ⟨.writes row row' rowKnown rfl (Or.inl rfl) ?_ move original stage, ?_⟩
    · show uploadLinks (documents ++ [uploadedDocument admitted.command now]) = _
      rw [if_pos ⟨pending, state⟩, uploadLinks, List.filterMap_append]
      show uploadLinks documents ++ _ = _
      rw [create_links creates, ← same]
      rfl
    · rintro shownDocument created
      cases created
      refine ⟨row, row', rowKnown, ?_, pending, ?_, move.frozen, state, document⟩
      · exact (intent_key (same.trans shown.symm)).trans (findUpload_known known).2
      · exact mem_replaceRow_self rowKnown (frozen_id move.frozen).symm

theorem execDocument_moves {action : UploadAction} {answer : UploadOutcome}
    (committed : (uploadStore settings limits).exec action t = .ok (answer, t')) :
    IntentsMove settings t t' := by
  cases action with
  | admitRequest session request documentId intentId storage now =>
    obtain ⟨admission, admits, -⟩ := answering_eq_ok.mp committed
    rcases admit_moves admits with ⟨_, _, -, -, rfl, -⟩ | ⟨_, -, -, move, -⟩
    · exact .quiet rfl rfl (List.Sublist.refl _)
    · exact move
  | complete session request admitted storage closureId now closeNow =>
    obtain ⟨completion, completes, -⟩ := answering_eq_ok.mp committed
    exact (complete_moves completes).1
  | close session projectId uploadKey closureId now =>
    simp only [uploadStore, execDocument, answering_eq_ok] at committed
    obtain ⟨closed, closes, -⟩ := committed
    simp only [closeUpload, bind_eq_ok, require_eq_ok, exists_unit, orFault_eq_ok, pure_eq_ok,
      Prod.mk.injEq] at closes
    obtain ⟨-, -, found, -, original, -, ⟨stored, written⟩, publication, -, -, rfl⟩ := closes
    exact (closePublication_moves publication).1
  | get session projectId uploadKey =>
    obtain ⟨receipt, reads, -⟩ := answering_eq_ok.mp committed
    simp only [getUpload, bind_eq_ok, require_eq_ok, exists_unit, orFault_eq_ok, pure_eq_ok,
      Prod.mk.injEq] at reads
    obtain ⟨-, -, found, -, original, -, -, -, rfl⟩ := reads
    exact .quiet rfl rfl (List.Sublist.refl _)
  | cleanup intentId document storageKey storageNamespace now =>
    simp only [uploadStore, execDocument, bind_eq_ok, pure_eq_ok, Prod.mk.injEq] at committed
    obtain ⟨requested, requests, -, rfl⟩ := committed
    exact requestCleanup_moves requests
  | others documents effectUploads folders cleanups =>
    simp only [uploadStore, execDocument, answering_eq_ok] at committed
    obtain ⟨u, writes, -⟩ := committed
    simp only [writeDocuments, bind_eq_ok, require_eq_ok, exists_unit, pure_eq_ok,
      Prod.mk.injEq] at writes
    obtain ⟨links, -, rfl⟩ := writes
    exact .quiet rfl rfl links

/-- The intents of a project, with the documents and the closures that belong to them. -/
structure Recorded (settings : UploadSettings) (t : DocumentTables) : Prop where
  keyed : Keyed ProjectDocumentUpload.id t.uploads
  keys : Keyed ProjectDocumentUpload.key t.uploads
  originals : ∀ row ∈ t.uploads, row.original settings = true
  stages : ∀ row ∈ t.uploads, row.stage = true
  marked : ∀ closure ∈ t.closures, ∃ row ∈ t.uploads, row.id = closure.uploadIntentId ∧
    row.publicationClosedAt.isSome = true
  only : ∀ link ∈ uploadLinks t.documents, ∃ row ∈ t.uploads, row.state = .published ∧
    link = (row.id, row.documentId)
  once : (uploadLinks t.documents).Nodup

theorem admitsIntent_fresh (fresh : admitsIntent t row = true) :
    ∀ other ∈ t.uploads, other.id ≠ row.id ∧ other.key ≠ row.key := by
  intro other mem
  have admits := List.all_eq_true.mp fresh other mem
  simp only [Bool.and_eq_true, decide_eq_true_eq] at admits
  exact ⟨admits.1.1.1.1, admits.1.1.1.2⟩

theorem IntentsMove.forward (recorded : Recorded settings t) (move : IntentsMove settings t t')
    (known : row ∈ t.uploads) : ∃ row' ∈ t'.uploads, IntentForward row row' := by
  cases move with
  | quiet uploads => exact ⟨row, uploads ▸ known, IntentForward.refl row⟩
  | adds added uploads =>
    exact ⟨row, uploads ▸ List.mem_append_left _ known, IntentForward.refl row⟩
  | writes old written oldKnown uploads closures links move =>
    rw [uploads]
    by_cases hit : row.id = written.id
    · have same := recorded.keyed.eq_of_key known oldKnown (hit.trans (frozen_id move.frozen))
      refine ⟨written, mem_replaceRow_self known hit, ?_⟩
      rw [same]
      exact move.forward (recorded.stages old oldKnown)
    · exact ⟨row, mem_replaceRow_of_ne known hit, IntentForward.refl row⟩

theorem Recorded.kept (recorded : Recorded settings t) (move : IntentsMove settings t t') :
    Recorded settings t' := by
  have forward : ∀ row ∈ t.uploads, ∃ row' ∈ t'.uploads, IntentForward row row' :=
    fun row known => move.forward recorded known
  have marked : ∀ closure ∈ t.closures, ∃ row ∈ t'.uploads, row.id = closure.uploadIntentId ∧
      row.publicationClosedAt.isSome = true := by
    intro closure mem
    obtain ⟨row, known, id, isClosed⟩ := recorded.marked closure mem
    obtain ⟨row', known', later⟩ := forward row known
    rw [later.closed isClosed] at known'
    exact ⟨row, known', id, isClosed⟩
  have only : ∀ link ∈ uploadLinks t.documents, ∃ row ∈ t'.uploads, row.state = .published ∧
      link = (row.id, row.documentId) := by
    intro link mem
    obtain ⟨row, known, published, same⟩ := recorded.only link mem
    obtain ⟨row', known', later⟩ := forward row known
    refine ⟨row', known', (later.published published).1, ?_⟩
    rw [frozen_id later.frozen, frozen_documentId later.frozen, same]
  cases move with
  | quiet uploads closures links =>
    refine ⟨?_, ?_, ?_, ?_, ?_, ?_, recorded.once.sublist links⟩
    · exact uploads ▸ recorded.keyed
    · exact uploads ▸ recorded.keys
    · exact uploads ▸ recorded.originals
    · exact uploads ▸ recorded.stages
    · exact closures ▸ marked
    · exact fun link mem => only link (links.subset mem)
  | adds row uploads closures links pending original stage fresh =>
    have unused := admitsIntent_fresh fresh
    refine ⟨?_, ?_, ?_, ?_, closures ▸ marked, links ▸ only, links ▸ recorded.once⟩
    · rw [uploads]
      exact recorded.keyed.add fun other mem => (unused other mem).1.symm
    · rw [uploads]
      exact recorded.keys.add fun other mem => (unused other mem).2.symm
    · rw [uploads]
      exact List.forall_mem_append.mpr
        ⟨recorded.originals, fun other mem => List.mem_singleton.mp mem ▸ original⟩
    · rw [uploads]
      exact List.forall_mem_append.mpr
        ⟨recorded.stages, fun other mem => List.mem_singleton.mp mem ▸ stage⟩
  | writes row row' known uploads closures links move original stage =>
    have id := frozen_id move.frozen
    have written : row' ∈ t'.uploads := by
      rw [uploads]
      exact mem_replaceRow_self known id.symm
    refine ⟨?_, ?_, ?_, ?_, ?_, ?_, ?_⟩
    · rw [uploads]
      exact recorded.keyed.replaceRow _
    · unfold Keyed
      rw [uploads, map_column_replaceRow recorded.keyed known id.symm (frozen_key move.frozen)]
      exact recorded.keys
    · intro other mem
      rw [uploads] at mem
      rcases mem_replaceRow mem with ⟨rfl, -⟩ | ⟨before, -⟩
      · exact original
      · exact recorded.originals other before
    · intro other mem
      rw [uploads] at mem
      rcases mem_replaceRow mem with ⟨rfl, -⟩ | ⟨before, -⟩
      · exact stage
      · exact recorded.stages other before
    · rcases closures with same | ⟨isClosed, closure, same, belongs⟩
      · exact same ▸ marked
      · rw [same]
        refine List.forall_mem_append.mpr ⟨marked, fun other mem => ?_⟩
        rw [List.mem_singleton.mp mem]
        exact ⟨row', written, id.trans belongs.symm, isClosed⟩
    · intro link mem
      rw [links] at mem
      rcases List.mem_append.mp mem with before | added
      · exact only link before
      · split at added
        · rename_i publishes
          refine ⟨row', written, publishes.2, ?_⟩
          rw [List.mem_singleton.mp added, id, frozen_documentId move.frozen]
        · cases added
    · rw [links]
      refine List.nodup_append.mpr ⟨recorded.once, ?_, ?_⟩
      · split
        · exact List.nodup_singleton _
        · exact List.nodup_nil
      · intro link before added mem same
        split at mem
        · rename_i publishes
          obtain ⟨other, otherKnown, published, is⟩ := recorded.only link before
          have pair := (is.symm.trans same).trans (List.mem_singleton.mp mem)
          rw [recorded.keyed.eq_of_key otherKnown known (Prod.mk.inj pair).1,
            publishes.1] at published
          cases published
        · cases mem

theorem recorded_start (settings : UploadSettings) (start : DocumentTables) :
    Recorded settings start.withoutUploads := by
  have links : uploadLinks start.withoutUploads.documents = [] := by
    refine List.filterMap_eq_nil_iff.mpr fun document mem => ?_
    have unlinked : document.uploadIntentId.isNone = true := (List.mem_filter.mp mem).2
    simp [Option.isNone_iff_eq_none.mp unlinked]
  refine ⟨List.nodup_nil, List.nodup_nil, fun _ mem => (nomatch mem), fun _ mem => (nomatch mem),
    fun _ mem => (nomatch mem), ?_, ?_⟩
  · intro link mem
    rw [links] at mem
    cases mem
  · rw [links]
    exact List.nodup_nil

theorem recorded_invariant : (uploadStore settings limits).Invariant (Recorded settings) :=
  fun _ _ _ _ recorded committed => recorded.kept (execDocument_moves committed)

/-- The answer after which a worker sends the bytes of the key. -/
def admitsKey (key : UploadKey) : UploadAction × UploadOutcome → Bool
  | (.admitRequest session request _ _ _ _, .admission (.admitted _)) =>
    decide (request.key session = key)
  | _ => false

/-- The answer of a publication that made the document of the key. -/
def createsKey (key : UploadKey) : UploadAction × UploadOutcome → Bool
  | (.complete session request _ _ _ _ _, .completion (.created _)) =>
    decide (request.key session = key)
  | _ => false

def Reserved (key : UploadKey) (t : DocumentTables) : Prop :=
  ∃ row ∈ t.uploads, row.key = key

def Published (key : UploadKey) (t : DocumentTables) : Prop :=
  ∃ row ∈ t.uploads, row.key = key ∧ row.state = .published

section Answers

variable {action : UploadAction} {answer : UploadOutcome} {key : UploadKey}

theorem reserved_stays (recorded : Recorded settings t) (move : IntentsMove settings t t')
    (reserved : Reserved key t) : Reserved key t' := by
  obtain ⟨row, known, same⟩ := reserved
  obtain ⟨row', known', forward⟩ := move.forward recorded known
  exact ⟨row', known', (frozen_key forward.frozen).trans same⟩

theorem published_stays (recorded : Recorded settings t) (move : IntentsMove settings t t')
    (published : Published key t) : Published key t' := by
  obtain ⟨row, known, same, state⟩ := published
  obtain ⟨row', known', forward⟩ := move.forward recorded known
  exact ⟨row', known', (frozen_key forward.frozen).trans same, (forward.published state).1⟩

theorem admits_once (committed : (uploadStore settings limits).exec action t = .ok (answer, t'))
    (admits : admitsKey key (action, answer) = true) : ¬ Reserved key t ∧ Reserved key t' := by
  unfold admitsKey at admits
  split at admits
  · rename_i session request documentId intentId storage now intent acts
    obtain ⟨rfl, rfl⟩ := Prod.mk.inj acts
    have same := of_decide_eq_true admits
    obtain ⟨admission, reserves, shown⟩ := answering_eq_ok.mp committed
    cases shown
    rcases admit_moves reserves with ⟨_, _, -, original, -⟩ | ⟨_, -, absent, -, row, known, is, -⟩
    · cases original
    · refine ⟨?_, row, known, is.trans same⟩
      rintro ⟨other, otherKnown, otherKey⟩
      have miss := List.find?_eq_none.mp absent other otherKnown
      rw [same] at miss
      exact miss (decide_eq_true otherKey)
  · cases admits

theorem creates_once (recorded : Recorded settings t)
    (committed : (uploadStore settings limits).exec action t = .ok (answer, t'))
    (creates : createsKey key (action, answer) = true) :
    ¬ Published key t ∧ Published key t' := by
  unfold createsKey at creates
  split at creates
  · rename_i session request admitted storage closureId now closeNow document acts
    obtain ⟨rfl, rfl⟩ := Prod.mk.inj acts
    have same := of_decide_eq_true creates
    obtain ⟨completion, completes, shown⟩ := answering_eq_ok.mp committed
    cases shown
    obtain ⟨-, made⟩ := complete_moves completes
    obtain ⟨row, row', known, is, pending, known', frozen, state, -⟩ := made document rfl
    constructor
    · rintro ⟨other, otherKnown, otherKey, published⟩
      rw [recorded.keys.eq_of_key otherKnown known (otherKey.trans (same.symm.trans is.symm)),
        pending] at published
      cases published
    · exact ⟨row', known', (frozen_key frozen).trans (is.trans same), state⟩
  · cases creates

theorem admitted_at_most_once (settings : UploadSettings) (limits : UploadLimits)
    (start : DocumentTables) (key : UploadKey) (actions : List UploadAction) :
    ((uploadStore settings limits).answers start.withoutUploads actions).countP
      (admitsKey key) ≤ 1 := by
  exact TransactionSystem.answered_once recorded_invariant
    (fun _ _ _ _ recorded committed reserved =>
      reserved_stays recorded (execDocument_moves committed) reserved)
    (fun _ _ _ _ _ committed admits => admits_once committed admits)
    (recorded_start settings start) actions

theorem created_at_most_once (settings : UploadSettings) (limits : UploadLimits)
    (start : DocumentTables) (key : UploadKey) (actions : List UploadAction) :
    ((uploadStore settings limits).answers start.withoutUploads actions).countP
      (createsKey key) ≤ 1 := by
  exact TransactionSystem.answered_once recorded_invariant
    (fun _ _ _ _ recorded committed published =>
      published_stays recorded (execDocument_moves committed) published)
    (fun _ _ _ _ recorded committed creates => creates_once recorded committed creates)
    (recorded_start settings start) actions

end Answers

/-- What the answers so far say of the intents: an admission has its intent, and a publication
has its document. -/
structure Given (settings : UploadSettings) (log : List (UploadAction × UploadOutcome))
    (t : DocumentTables) : Prop where
  admitted : ∀ session request documentId intentId storage now intent,
    (UploadAction.admitRequest session request documentId intentId storage now,
      UploadOutcome.admission (.admitted intent)) ∈ log →
    ∃ row ∈ t.uploads, row.key = request.key session ∧
      row.command.descriptor row.organizationId = request.descriptor settings session
  created : ∀ session request admitted storage closureId now closeNow document,
    (UploadAction.complete session request admitted storage closureId now closeNow,
      UploadOutcome.completion (.created document)) ∈ log →
    ∃ row ∈ t.uploads, row.key = request.key session ∧ row.state = .published ∧
      row.document = some document

theorem Given.kept {log : List (UploadAction × UploadOutcome)} {action : UploadAction}
    {answer : UploadOutcome} (recorded : Recorded settings t) (given : Given settings log t)
    (committed : (uploadStore settings limits).exec action t = .ok (answer, t')) :
    Given settings (log ++ [(action, answer)]) t' := by
  have move := execDocument_moves committed
  constructor
  · intro session request documentId intentId storage now intent mem
    rcases List.mem_append.mp mem with before | last
    · obtain ⟨row, known, key, descriptor⟩ :=
        given.admitted session request documentId intentId storage now intent before
      obtain ⟨row', known', forward⟩ := move.forward recorded known
      refine ⟨row', known', (frozen_key forward.frozen).trans key, ?_⟩
      rw [frozen_command forward.frozen, frozen_organization forward.frozen, descriptor]
    · obtain ⟨rfl, rfl⟩ := Prod.mk.inj (List.mem_singleton.mp last)
      obtain ⟨admission, admits, shown⟩ := answering_eq_ok.mp committed
      cases shown
      rcases admit_moves admits with ⟨_, _, -, original, -⟩ | ⟨_, -, -, -, row, known, key, same⟩
      · cases original
      · exact ⟨row, known, key, same⟩
  · intro session request admitted storage closureId now closeNow document mem
    rcases List.mem_append.mp mem with before | last
    · obtain ⟨row, known, key, published, stored⟩ :=
        given.created session request admitted storage closureId now closeNow document before
      obtain ⟨row', known', forward⟩ := move.forward recorded known
      exact ⟨row', known', (frozen_key forward.frozen).trans key,
        (forward.published published).1, (forward.document published).trans stored⟩
    · obtain ⟨rfl, rfl⟩ := Prod.mk.inj (List.mem_singleton.mp last)
      obtain ⟨completion, completes, shown⟩ := answering_eq_ok.mp committed
      cases shown
      obtain ⟨-, made⟩ := complete_moves completes
      obtain ⟨row, row', -, key, -, known', frozen, state, stored⟩ := made document rfl
      exact ⟨row', known', (frozen_key frozen).trans key, state, stored⟩

theorem findUpload_eq (recorded : Recorded settings t) (known : row ∈ t.uploads)
    (same : row.key = key) : findUpload t key = some row :=
  recorded.keys.find_eq known same

theorem find_published (recorded : Recorded settings t) (known : row ∈ t.uploads)
    (published : row.state = .published) : find settings t row.key = .ok (some row.intent) := by
  have stage := recorded.stages row known
  obtain ⟨unclosed, -⟩ := stage_published stage published
  have unmarked : t.closures.find? (fun closure =>
      decide (closure.uploadIntentId = row.intent.intentId)) = none := by
    refine List.find?_eq_none.mpr fun closure mem belongs => ?_
    obtain ⟨other, otherKnown, id, isClosed⟩ := recorded.marked closure mem
    rw [recorded.keyed.eq_of_key otherKnown known (id.trans (of_decide_eq_true belongs)),
      unclosed] at isClosed
    cases isClosed
  have free : row.intent.publicationClosedAt = none := unclosed
  unfold find
  rw [findUpload_eq recorded known rfl]
  simp only [toIntent, require_of (And.intro (recorded.originals row known) stage), getClosure,
    unmarked, require_of free, pure, Except.pure, ok_bind]

theorem admit_published (recorded : Recorded settings t) (known : row ∈ t.uploads)
    (published : row.state = .published)
    {documentId intentId : Uuid} {storage : Except Fault StorageNamespace}
    (key : row.key = request.key session) (nonNil : request.uploadKey ≠ 0)
    (accepted : limits.validate request.mime request.data 0 = .ok ())
    (before : session.before = .ok ()) (after : session.after = .ok ())
    (checksum : row.requestChecksum =
      settings.requestChecksum (request.descriptor settings session)) :
    ∃ document, row.document = some document ∧
      admitRequest settings limits t session request documentId intentId storage now =
        .ok (.original document, t) := by
  obtain ⟨unclosed, publishedAt, stamped⟩ :=
    stage_published (recorded.stages row known) published
  have document : row.document = some (publishedUpload row.command publishedAt) := by
    rw [ProjectDocumentUpload.document, if_pos published, stamped]
    rfl
  refine ⟨_, document, ?_⟩
  have replays : replay row.intent
      (settings.requestChecksum (request.descriptor settings session)) =
        .ok (publishedUpload row.command publishedAt) := by
    refine replay_eq_ok.mpr ⟨checksum, unclosed, ?_, document⟩
    show row.state ≠ .pending
    rw [published]
    decide
  unfold admitRequest
  rw [require_of nonNil, ← key, find_published recorded known published]
  simp only [ok_bind, accepted, before, after, replays]
  rfl

/-- What a request under the key of an intent is answered.  Contents are told apart by the
checksum of the request. -/
structure KeyAnswers (settings : UploadSettings) (limits : UploadLimits) (t : DocumentTables)
    (row : ProjectDocumentUpload) (session : UploadSession) (request : UploadRequest)
    (action : UploadAction) : Prop where
  /-- After the publication every answer is the original document, and no row changes. -/
  original : row.state = .published → ∀ answer t',
    (uploadStore settings limits).exec action t = .ok (answer, t') →
    t' = t ∧ ∃ document, row.document = some document ∧ answer = .admission (.original document)
  /-- The same content is answered whenever the checks of the caller pass. -/
  answered : row.state = .published → request.uploadKey ≠ 0 →
    limits.validate request.mime request.data 0 = .ok () → session.before = .ok () →
    session.after = .ok () →
    row.requestChecksum = settings.requestChecksum (request.descriptor settings session) →
    ∃ document, row.document = some document ∧
      (uploadStore settings limits).exec action t = .ok (.admission (.original document), t)
  /-- Different content fails. -/
  different : settings.requestChecksum (request.descriptor settings session) ≠
      settings.requestChecksum (row.command.descriptor row.organizationId) →
    ∃ fault, (uploadStore settings limits).exec action t = .error fault

theorem original_checksum (original : row.original settings = true) :
    row.requestChecksum =
      settings.requestChecksum (row.command.descriptor row.organizationId) := by
  simp only [ProjectDocumentUpload.original, Bool.and_eq_true, decide_eq_true_eq] at original
  exact original.2

theorem keyAnswers (recorded : Recorded settings t) (known : row ∈ t.uploads)
    {documentId intentId : Uuid}
    {storage : Except Fault StorageNamespace}
    (key : row.key = request.key session) : KeyAnswers settings limits t row session request
      (.admitRequest session request documentId intentId storage now) := by
  have found := findUpload_eq recorded known key
  constructor
  · intro published answer t' committed
    obtain ⟨admission, admits, rfl⟩ := answering_eq_ok.mp committed
    rcases admit_moves admits with ⟨other, document, search, rfl, rfl, -, -, stored⟩ |
      ⟨_, -, absent, -⟩
    · cases found.symm.trans search
      exact ⟨rfl, document, stored, rfl⟩
    · rw [found] at absent
      cases absent
  · intro published nonNil accepted before after checksum
    obtain ⟨document, stored, admits⟩ :=
      admit_published recorded known published key nonNil accepted before after checksum
    exact ⟨document, stored, answering_eq_ok.mpr ⟨_, admits, rfl⟩⟩
  · intro different
    cases outcome : (uploadStore settings limits).exec
        (.admitRequest session request documentId intentId storage now) t with
    | error fault => exact ⟨fault, rfl⟩
    | ok result =>
      obtain ⟨answer, t'⟩ := result
      obtain ⟨admission, admits, -⟩ := answering_eq_ok.mp outcome
      rcases admit_moves admits with ⟨other, document, search, -, -, checksum, -⟩ |
        ⟨_, -, absent, -⟩
      · cases found.symm.trans search
        rw [original_checksum (recorded.originals row known)] at checksum
        exact absurd checksum.symm different
      · rw [found] at absent
        cases absent

/-- **An upload key publishes at most one document**, over every run of uploads, retries,
closures and other transactions of the project.  At most one PUT is started for a key and at
most one document is made from it; a published intent is not closed, and neither the
publication nor the closure is ever undone.  A request under the key is answered by the
original publication, or fails. -/
theorem upload_key_once (settings : UploadSettings) (limits : UploadLimits)
    (start : DocumentTables) (actions : List UploadAction) :
    let store := uploadStore settings limits
    let t := store.run start.withoutUploads actions
    let log := store.answers start.withoutUploads actions
    (∀ key, log.countP (admitsKey key) ≤ 1 ∧ log.countP (createsKey key) ≤ 1) ∧
    Recorded settings t ∧
    (∀ row ∈ t.uploads, row.state = .published → row.publicationClosedAt = none) ∧
    Given settings log t ∧
    (∀ row ∈ t.uploads, ∀ session request documentId intentId storage now,
      row.key = request.key session → KeyAnswers settings limits t row session request
        (.admitRequest session request documentId intentId storage now)) ∧
    ∀ action,
      (∀ row ∈ t.uploads, ∃ row' ∈ (store.step t action).uploads, IntentForward row row') ∧
      ∀ fault, store.exec action t = .error fault → store.step t action = t := by
  intro store t log
  have both := TransactionSystem.history
    (P := fun log t => Recorded settings t ∧ Given settings log t) (M := store)
    (fun log s action answer s' holds committed =>
      ⟨recorded_invariant s action answer s' holds.1 committed, holds.2.kept holds.1 committed⟩)
    ⟨recorded_start settings start, fun _ _ _ _ _ _ _ mem => (nomatch mem),
      fun _ _ _ _ _ _ _ _ mem => (nomatch mem)⟩ actions
  obtain ⟨recorded, given⟩ := both
  refine ⟨fun key => ⟨admitted_at_most_once settings limits start key actions,
    created_at_most_once settings limits start key actions⟩, recorded, ?_, given, ?_, ?_⟩
  · exact fun row known published =>
      (stage_published (recorded.stages row known) published).1
  · intro row known session request documentId intentId storage now key
    exact keyAnswers recorded known key
  · intro action
    refine ⟨fun row known => ?_, fun fault raised => store.step_of_fault raised⟩
    cases outcome : store.exec action t with
    | error fault =>
      rw [store.step_of_fault outcome]
      exact ⟨row, known, IntentForward.refl row⟩
    | ok result =>
      obtain ⟨answer, next⟩ := result
      rw [store.step_of_commit outcome]
      exact (execDocument_moves outcome).forward recorded known

end SkillMind.Documents
