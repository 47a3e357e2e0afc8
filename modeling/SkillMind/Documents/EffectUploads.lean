import Mathlib
import SkillMind.Documents.EffectRepository

/-!
# Uploads of effects move forward once

A call writes one upload at most, and takes it one place further or closes it. The documents gain
one row when an upload is published and none otherwise.
-/

namespace SkillMind.Documents

open Library
open Runs (Uuid Timestamp)

variable {settings : EffectUploadSettings} {t t' : DocumentTables}
  {row row' : ProjectDocumentEffectUpload} {command : ObjectWriteCommand}

/-- The columns of a reservation that are never written again. -/
def ProjectDocumentEffectUpload.frozen (row : ProjectDocumentEffectUpload) :
    ProjectDocumentEffectUpload :=
  { row with
    state := .reserved, sentAt := none, verifiedAt := none, publishedAt := none,
    putOwnerId := none, etag := none, versionId := none, publicationClosedAt := none }

inductive UploadMove : ProjectDocumentEffectUpload → ProjectDocumentEffectUpload → Prop
  | sends {row : ProjectDocumentEffectUpload} {ownerId : Uuid} {now : Timestamp}
      (reserved : row.state = .reserved) (unclosed : row.publicationClosedAt = none) :
      UploadMove row { row with
        state := .sent, sentAt := some now, putOwnerId := some ownerId }
  | verifies {row : ProjectDocumentEffectUpload} {etag : String} {version : Option String}
      {now : Timestamp} (sent : row.state = .sent) (unclosed : row.publicationClosedAt = none) :
      UploadMove row { row with
        state := .verified, verifiedAt := some now, etag := some etag, versionId := version }
  | publishes {row : ProjectDocumentEffectUpload} {now : Timestamp}
      (verified : row.state = .verified) (unclosed : row.publicationClosedAt = none) :
      UploadMove row { row with state := .published, publishedAt := some now }
  | closes {row : ProjectDocumentEffectUpload} {now : Timestamp}
      (unpublished : row.state ≠ .published) :
      UploadMove row { row with
        publicationClosedAt := some (row.publicationClosedAt.getD now) }

def WrittenOnce {α : Type} (value value' : Option α) : Prop :=
  ∀ a, value = some a → value' = some a

/-- The upload has gone forward, or stayed where it was. -/
structure Forward (row row' : ProjectDocumentEffectUpload) : Prop where
  frozen : row'.frozen = row.frozen
  state : row.state.rank ≤ row'.state.rank
  sentAt : WrittenOnce row.sentAt row'.sentAt
  verifiedAt : WrittenOnce row.verifiedAt row'.verifiedAt
  publishedAt : WrittenOnce row.publishedAt row'.publishedAt
  publicationClosedAt : WrittenOnce row.publicationClosedAt row'.publicationClosedAt
  final : row.state = .published → row' = row
  closed : row.publicationClosedAt.isSome = true → row' = row

theorem Forward.refl (row : ProjectDocumentEffectUpload) : Forward row row :=
  ⟨rfl, Nat.le_refl _, fun _ h => h, fun _ h => h, fun _ h => h, fun _ h => h, fun _ => rfl,
    fun _ => rfl⟩

theorem Forward.trans {row'' : ProjectDocumentEffectUpload} (first : Forward row row')
    (second : Forward row' row'') : Forward row row'' where
  frozen := second.frozen.trans first.frozen
  state := first.state.trans second.state
  sentAt := fun a h => second.sentAt a (first.sentAt a h)
  verifiedAt := fun a h => second.verifiedAt a (first.verifiedAt a h)
  publishedAt := fun a h => second.publishedAt a (first.publishedAt a h)
  publicationClosedAt := fun a h => second.publicationClosedAt a (first.publicationClosedAt a h)
  final := fun published => by
    have same := first.final published
    rw [same] at second
    exact second.final published
  closed := fun isClosed => by
    have same := first.closed isClosed
    rw [same] at second
    exact second.closed isClosed

theorem staged_iff : row.staged = true ↔
    ordered row.createdAt
      [(row.sentAt, decide (row.state ≠ .reserved)),
        (row.verifiedAt, decide (row.state ∈ [.verified, .published])),
        (row.publishedAt, decide (row.state = .published))] = true ∧
    (row.state = .reserved ↔ row.putOwnerId = none) ∧
    (if row.state ∈ [.reserved, .sent] then row.etag.isNone && row.versionId.isNone
      else row.etag.isSome) = true := by
  simp only [ProjectDocumentEffectUpload.staged, Bool.and_eq_true, decide_eq_true_eq, and_assoc]

theorem staged_times (staged : row.staged = true) :
    (row.state = .reserved → row.sentAt = none) ∧
    (row.state.rank ≤ 1 → row.verifiedAt = none) ∧
    (row.state.rank ≤ 2 → row.publishedAt = none) ∧
    (1 ≤ row.state.rank → ∃ sentAt, row.sentAt = some sentAt ∧ row.createdAt ≤ sentAt) ∧
    (2 ≤ row.state.rank → ∃ sentAt verifiedAt, row.sentAt = some sentAt ∧
      row.verifiedAt = some verifiedAt ∧ sentAt ≤ verifiedAt) ∧
    (3 ≤ row.state.rank → ∃ verifiedAt publishedAt, row.verifiedAt = some verifiedAt ∧
      row.publishedAt = some publishedAt ∧ verifiedAt ≤ publishedAt) := by
  have stages := (staged_iff.mp staged).1
  revert stages
  cases row.state <;> cases row.sentAt <;> cases row.verifiedAt <;> cases row.publishedAt <;>
    simp [ordered, EffectUploadState.rank]

theorem UploadMove.forward (move : UploadMove row row') (staged : row.staged = true) :
    Forward row row' := by
  obtain ⟨noSent, noVerified, noPublished, -⟩ := staged_times staged
  cases move with
  | sends reserved unclosed =>
    refine ⟨rfl, ?_, ?_, fun _ h => h, fun _ h => h, fun _ h => h, ?_, ?_⟩
    · simp [reserved, EffectUploadState.rank]
    · simp [WrittenOnce, noSent reserved]
    · simp [reserved]
    · simp [unclosed]
  | verifies sent unclosed =>
    refine ⟨rfl, ?_, fun _ h => h, ?_, fun _ h => h, fun _ h => h, ?_, ?_⟩
    · simp [sent, EffectUploadState.rank]
    · simp [WrittenOnce, noVerified (by simp [sent, EffectUploadState.rank])]
    · simp [sent]
    · simp [unclosed]
  | publishes verified unclosed =>
    refine ⟨rfl, ?_, fun _ h => h, fun _ h => h, ?_, fun _ h => h, ?_, ?_⟩
    · simp [verified, EffectUploadState.rank]
    · simp [WrittenOnce, noPublished (by simp [verified, EffectUploadState.rank])]
    · simp [verified]
    · simp [unclosed]
  | closes unpublished =>
    refine ⟨rfl, Nat.le_refl _, fun _ h => h, fun _ h => h, fun _ h => h, ?_, ?_, ?_⟩
    · intro a h
      rw [h]
      rfl
    · exact fun published => absurd published unpublished
    · intro isClosed
      obtain ⟨closedAt, same⟩ := Option.isSome_iff_exists.mp isClosed
      cases row
      cases same
      rfl

/-- What one call does to the uploads and to the documents that come from them. -/
inductive CallMove (t t' : DocumentTables) : Prop
  | quiet (uploads : t'.effectUploads = t.effectUploads)
      (links : effectLinks t'.documents = effectLinks t.documents)
  | adds (row : ProjectDocumentEffectUpload)
      (uploads : t'.effectUploads = t.effectUploads ++ [row])
      (links : effectLinks t'.documents = effectLinks t.documents)
      (reserved : row.state = .reserved) (unclosed : row.publicationClosedAt = none)
      (staged : row.staged = true) (fresh : admitsUpload t row = true)
  | writes (row row' : ProjectDocumentEffectUpload) (known : row ∈ t.effectUploads)
      (uploads : t'.effectUploads = replaceRow ProjectDocumentEffectUpload.id row'
        t.effectUploads)
      (links : effectLinks t'.documents = effectLinks t.documents ++
        (if row'.state = .published then [(row.id, row.documentId)] else []))
      (move : UploadMove row row') (staged : row.staged = true → row'.staged = true)

/-! ## The calls -/

theorem findEffectUpload_known {effectId : Uuid}
    (found : findEffectUpload t effectId = some row) :
    row ∈ t.effectUploads ∧ row.effectId = effectId :=
  ⟨List.mem_of_find?_eq_some found, by simpa using List.find?_some found⟩

theorem validate_staged (valid : validate settings row command = .ok ()) :
    row.staged = true := by
  rw [validate, require_eq_ok] at valid
  exact valid.2.2.2.2.2.1

theorem requireUpload_known (required : requireUpload settings t command = .ok row) :
    row ∈ t.effectUploads ∧ row.effectId = command.effectId ∧
      findEffectUpload t command.effectId = some row := by
  simp only [requireUpload, bind_eq_ok, exists_unit, orFault_eq_ok, pure_eq_ok] at required
  obtain ⟨-, found, search, -, rfl⟩ := required
  exact ⟨(findEffectUpload_known search).1, (findEffectUpload_known search).2, search⟩

theorem reserve_moves {asked : Reservation} {answer : ProjectDocumentEffectUpload}
    (committed : reserve settings t command asked = .ok (answer, t')) : CallMove t t' := by
  simp only [reserve, bind_eq_ok, require_eq_ok, exists_unit] at committed
  obtain ⟨-, -, rest⟩ := committed
  split at rest
  · simp only [bind_eq_ok, require_eq_ok, exists_unit, pure_eq_ok, Prod.mk.injEq] at rest
    obtain ⟨-, -, -, -, -, rfl⟩ := rest
    exact .quiet rfl rfl
  · simp only [bind_eq_ok, require_eq_ok, exists_unit, pure_eq_ok, Prod.mk.injEq] at rest
    obtain ⟨-, -, replaces, -, -, usage, -, -, valid, fresh, -, rfl⟩ := rest
    exact .adds _ rfl rfl rfl rfl (validate_staged valid) fresh

theorem startOnce_moves {ownerId : Uuid} {now : Timestamp} {sends : Bool}
    (committed : startOnce settings t command ownerId now = .ok (sends, t')) :
    (sends = false ∧ t' = t) ∨
      (sends = true ∧ ∃ row, findEffectUpload t command.effectId = some row ∧
        row.state = .reserved ∧ row.publicationClosedAt = none ∧
        ∃ sent, UploadMove row sent ∧ sent.state = .sent ∧ sent.staged = true ∧
          t' = putEffectUpload t sent) := by
  simp only [startOnce, bind_eq_ok, require_eq_ok, exists_unit] at committed
  obtain ⟨row, required, unclosed, -, -, rest⟩ := committed
  split at rest
  · obtain ⟨rfl, rfl⟩ := Prod.mk.inj (pure_eq_ok.mp rest)
    exact Or.inl ⟨rfl, rfl⟩
  · rename_i reserved
    have reserved := not_not.mp reserved
    simp only [bind_eq_ok, exists_unit, pure_eq_ok, Prod.mk.injEq] at rest
    obtain ⟨valid, rfl, rfl⟩ := rest
    exact Or.inr ⟨rfl, row, (requireUpload_known required).2.2, reserved, unclosed, _,
      .sends reserved unclosed, rfl, validate_staged valid, rfl⟩

theorem recordVerified_moves {receipt : ObjectWriteReceipt} {now : Timestamp} {u : Unit}
    (committed : recordVerified settings t command receipt now = .ok (u, t')) :
    CallMove t t' := by
  simp only [recordVerified, bind_eq_ok, require_eq_ok, exists_unit] at committed
  obtain ⟨row, required, unclosed, -, -, -, rest⟩ := committed
  split at rest
  · simp only [bind_eq_ok, require_eq_ok, exists_unit, pure_eq_ok, Prod.mk.injEq] at rest
    obtain ⟨-, -, rfl⟩ := rest
    exact .quiet rfl rfl
  · simp only [bind_eq_ok, require_eq_ok, exists_unit, pure_eq_ok, Prod.mk.injEq] at rest
    obtain ⟨sent, valid, -, rfl⟩ := rest
    exact .writes row _ (requireUpload_known required).1 rfl (List.append_nil _).symm
      (.verifies sent unclosed) fun _ => validate_staged valid

theorem effectLinks_append (documents added : List ProjectDocument) :
    effectLinks (documents ++ added) = effectLinks documents ++ effectLinks added :=
  List.filterMap_append

theorem trashReplaced_keeps {now : Timestamp} {trashed : DocumentTables}
    (trashes : trashReplaced settings t row command now = .ok trashed) :
    trashed.effectUploads = t.effectUploads ∧
      effectLinks trashed.documents = effectLinks t.documents := by
  unfold trashReplaced at trashes
  split at trashes
  · cases trashes
    exact ⟨rfl, rfl⟩
  · simp only [bind_eq_ok, require_eq_ok, exists_unit, orFault_eq_ok, pure_eq_ok] at trashes
    obtain ⟨current, -, -, previous, -, -, rfl⟩ := trashes
    exact ⟨rfl, filterMap_recycle (fun _ _ _ => rfl) _ _ _ _⟩

theorem publish_moves {now : Timestamp} {document : StoredDocument}
    (committed : publish settings t command now = .ok (document, t')) :
    (t' = t ∧ ∃ row, findEffectUpload t command.effectId = some row ∧
      row.state = .published ∧ storedDocument row = .ok document) ∨
    ∃ row published, row ∈ t.effectUploads ∧ row.effectId = command.effectId ∧
      UploadMove row published ∧ published.state = .published ∧ published.staged = true ∧
      published.frozen = row.frozen ∧ storedDocument published = .ok document ∧
      t'.effectUploads = replaceRow ProjectDocumentEffectUpload.id published t.effectUploads ∧
      effectLinks t'.documents = effectLinks t.documents ++ [(row.id, row.documentId)] := by
  simp only [publish, bind_eq_ok] at committed
  obtain ⟨row, required, rest⟩ := committed
  split at rest
  · rename_i published
    simp only [bind_eq_ok, pure_eq_ok, Prod.mk.injEq] at rest
    obtain ⟨shown, stored, rfl, rfl⟩ := rest
    exact Or.inl ⟨rfl, row, (requireUpload_known required).2.2, published, stored⟩
  · simp only [bind_eq_ok, require_eq_ok, exists_unit, pure_eq_ok, Prod.mk.injEq] at rest
    obtain ⟨unclosed, -, ⟨verified, -⟩, trashed, trashes, -, valid, -, shown, stored, rfl,
      rfl⟩ := rest
    obtain ⟨uploads, links⟩ := trashReplaced_keeps trashes
    refine Or.inr ⟨row, _, (requireUpload_known required).1, (requireUpload_known required).2.1,
      .publishes verified unclosed, rfl, validate_staged valid, rfl, stored, ?_, ?_⟩
    · show replaceRow _ _ trashed.effectUploads = _
      rw [uploads]
    · show effectLinks (trashed.documents ++ [publishedDocument row now]) = _
      rw [effectLinks_append, links]
      rfl

theorem closeConflicted_moves (t : DocumentTables) (effectId projectId runId : Uuid)
    (now : Timestamp) : CallMove t (closeConflicted t effectId projectId runId now) := by
  unfold closeConflicted
  split
  · exact .quiet rfl rfl
  · rename_i row found
    split
    · rename_i open_
      refine .writes row _ (List.mem_of_find?_eq_some found) rfl ?_ (.closes open_.2) fun h => h
      simp [putEffectUpload, open_.2]
    · exact .quiet rfl rfl

theorem execUpload_moves {call : UploadCall} {answer : UploadAnswer}
    (committed : (effectUploadStore settings).exec call t = .ok (answer, t')) :
    CallMove t t' := by
  cases call with
  | authorize outcome =>
    simp only [effectUploadStore, execUpload, bind_eq_ok, pure_eq_ok, Prod.mk.injEq] at committed
    obtain ⟨-, -, -, rfl⟩ := committed
    exact .quiet rfl rfl
  | reserve command asked =>
    obtain ⟨row, reserved, -⟩ := answering_eq_ok.mp committed
    exact reserve_moves reserved
  | startOnce command ownerId now =>
    obtain ⟨sends, started, -⟩ := answering_eq_ok.mp committed
    rcases startOnce_moves started with ⟨-, rfl⟩ | ⟨-, row, found, reserved, -, sent, move,
      state, staged, rfl⟩
    · exact .quiet rfl rfl
    · refine .writes row sent (findEffectUpload_known found).1 rfl ?_ move fun _ => staged
      simp [putEffectUpload, state]
  | recordVerified command receipt now =>
    simp only [effectUploadStore, execUpload, answering_eq_ok] at committed
    obtain ⟨u, recorded, -⟩ := committed
    exact recordVerified_moves recorded
  | publish command now =>
    obtain ⟨document, publishes, -⟩ := answering_eq_ok.mp committed
    rcases publish_moves publishes with ⟨rfl, -⟩ | ⟨row, published, known, -, move, state,
      staged, frozen, -, uploads, links⟩
    · exact .quiet rfl rfl
    · refine .writes row published known uploads ?_ move fun _ => staged
      rw [links, if_pos state]
  | verifiedReceipt command =>
    simp only [effectUploadStore, execUpload, answering_eq_ok, verifiedReceipt, bind_eq_ok,
      pure_eq_ok, Prod.mk.injEq] at committed
    obtain ⟨-, ⟨-, -, -, rfl⟩, -⟩ := committed
    exact .quiet rfl rfl
  | close effectId projectId runId now =>
    cases committed
    exact closeConflicted_moves t effectId projectId runId now
  | others documents uploads closures folders cleanups =>
    simp only [effectUploadStore, execUpload, answering_eq_ok] at committed
    obtain ⟨u, writes, -⟩ := committed
    simp only [writeOthers, bind_eq_ok, require_eq_ok, exists_unit, pure_eq_ok,
      Prod.mk.injEq] at writes
    obtain ⟨links, -, rfl⟩ := writes
    exact .quiet rfl links

/-! ## The uploads of every run -/

/-- The uploads of a project, and the documents that come from them. -/
structure Consistent (t : DocumentTables) : Prop where
  keyed : Keyed ProjectDocumentEffectUpload.id t.effectUploads
  effects : Keyed ProjectDocumentEffectUpload.effectId t.effectUploads
  staged : ∀ row ∈ t.effectUploads, row.staged = true
  closed : ∀ row ∈ t.effectUploads, row.publicationClosedAt.isSome = true →
    row.state ≠ .published
  linked : ∀ row ∈ t.effectUploads, row.state = .published →
    (row.id, row.documentId) ∈ effectLinks t.documents
  only : ∀ link ∈ effectLinks t.documents, ∃ row ∈ t.effectUploads, row.state = .published ∧
    link = (row.id, row.documentId)
  once : (effectLinks t.documents).Nodup

theorem admitsUpload_fresh (fresh : admitsUpload t row = true) :
    ∀ other ∈ t.effectUploads, other.id ≠ row.id ∧ other.effectId ≠ row.effectId := by
  intro other mem
  have admits := List.all_eq_true.mp fresh other mem
  simp only [Bool.and_eq_true, decide_eq_true_eq] at admits
  exact ⟨admits.1.1.1, admits.1.1.2⟩

theorem UploadMove.unpublished (move : UploadMove row row') : row.state ≠ .published := by
  cases move with
  | sends reserved => simp [reserved]
  | verifies sent => simp [sent]
  | publishes verified => simp [verified]
  | closes unpublished => exact unpublished

theorem UploadMove.published (move : UploadMove row row') (published : row'.state = .published) :
    row'.publicationClosedAt = none := by
  cases move with
  | sends => cases published
  | verifies => cases published
  | publishes verified unclosed => exact unclosed
  | closes unpublished => exact absurd published unpublished

theorem UploadMove.frozen (move : UploadMove row row') : row'.frozen = row.frozen := by
  cases move <;> rfl

theorem UploadMove.id (move : UploadMove row row') : row'.id = row.id :=
  (congrArg ProjectDocumentEffectUpload.id move.frozen :)

theorem UploadMove.effectId (move : UploadMove row row') : row'.effectId = row.effectId :=
  (congrArg ProjectDocumentEffectUpload.effectId move.frozen :)

theorem UploadMove.documentId (move : UploadMove row row') : row'.documentId = row.documentId :=
  (congrArg ProjectDocumentEffectUpload.documentId move.frozen :)

theorem Keyed.writtenEffects (effects : Keyed ProjectDocumentEffectUpload.effectId
    t.effectUploads) (keyed : Keyed ProjectDocumentEffectUpload.id t.effectUploads)
    (known : row ∈ t.effectUploads) (move : UploadMove row row') :
    Keyed ProjectDocumentEffectUpload.effectId
      (replaceRow ProjectDocumentEffectUpload.id row' t.effectUploads) := by
  unfold Keyed
  rw [map_column_replaceRow keyed known move.id.symm move.effectId]
  exact effects

theorem Consistent.kept (consistent : Consistent t) (move : CallMove t t') : Consistent t' := by
  cases move with
  | quiet uploads links =>
    obtain ⟨keyed, effects, staged, closed, linked, only, once⟩ := consistent
    constructor <;> simp only [uploads, links] <;> assumption
  | adds row uploads links reserved unclosed staged fresh =>
    have unused := admitsUpload_fresh fresh
    have old : ∀ other ∈ t'.effectUploads, other ∈ t.effectUploads ∨ other = row := by
      intro other mem
      rw [uploads] at mem
      rcases List.mem_append.mp mem with before | added
      · exact Or.inl before
      · exact Or.inr (List.mem_singleton.mp added)
    constructor
    · rw [uploads]
      exact consistent.keyed.add fun other mem => (unused other mem).1.symm
    · rw [uploads]
      exact consistent.effects.add fun other mem => (unused other mem).2.symm
    · intro other mem
      rcases old other mem with before | rfl
      · exact consistent.staged other before
      · exact staged
    · intro other mem isClosed
      rcases old other mem with before | rfl
      · exact consistent.closed other before isClosed
      · rw [unclosed] at isClosed
        cases isClosed
    · intro other mem published
      rw [links]
      rcases old other mem with before | rfl
      · exact consistent.linked other before published
      · rw [reserved] at published
        cases published
    · intro link mem
      rw [links] at mem
      obtain ⟨other, known, rest⟩ := consistent.only link mem
      exact ⟨other, uploads ▸ List.mem_append_left _ known, rest⟩
    · rw [links]
      exact consistent.once
  | writes row row' known uploads links move staged =>
    have old : ∀ other ∈ t'.effectUploads, other = row' ∨
        (other ∈ t.effectUploads ∧ other.id ≠ row'.id) := by
      intro other mem
      rw [uploads] at mem
      rcases mem_replaceRow mem with ⟨same, -⟩ | kept
      · exact Or.inl same
      · exact Or.inr kept
    have written : row' ∈ t'.effectUploads := by
      rw [uploads]
      exact mem_replaceRow_self known move.id.symm
    constructor
    · rw [uploads]
      exact consistent.keyed.replaceRow _
    · rw [uploads]
      exact Keyed.writtenEffects consistent.effects consistent.keyed known move
    · intro other mem
      rcases old other mem with rfl | ⟨before, -⟩
      · exact staged (consistent.staged row known)
      · exact consistent.staged other before
    · intro other mem isClosed published
      rcases old other mem with rfl | ⟨before, -⟩
      · rw [move.published published] at isClosed
        cases isClosed
      · exact consistent.closed other before isClosed published
    · intro other mem published
      rw [links]
      rcases old other mem with rfl | ⟨before, -⟩
      · rw [if_pos published, move.id, move.documentId]
        exact List.mem_append_right _ (List.mem_singleton_self _)
      · exact List.mem_append_left _ (consistent.linked other before published)
    · intro link mem
      rw [links] at mem
      rcases List.mem_append.mp mem with before | added
      · obtain ⟨other, otherKnown, published, same⟩ := consistent.only link before
        refine ⟨other, ?_, published, same⟩
        rw [uploads]
        refine mem_replaceRow_of_ne otherKnown fun hit => move.unpublished ?_
        rw [← consistent.keyed.eq_of_key otherKnown known (hit.trans move.id)]
        exact published
      · split at added
        · rename_i published
          refine ⟨row', written, published, ?_⟩
          rw [List.mem_singleton.mp added, move.id, move.documentId]
        · cases added
    · rw [links]
      refine List.nodup_append.mpr ⟨consistent.once, ?_, ?_⟩
      · split
        · exact List.nodup_singleton _
        · exact List.nodup_nil
      · intro link before added mem same
        split at mem
        · obtain ⟨other, otherKnown, published, is⟩ := consistent.only link before
          have ids : other.id = row.id := by
            have pair := (is.symm.trans same).trans (List.mem_singleton.mp mem)
            exact (Prod.mk.inj pair).1
          exact move.unpublished
            (consistent.keyed.eq_of_key otherKnown known ids ▸ published)
        · cases mem

theorem consistent_start (start : DocumentTables) : Consistent start.withoutEffects := by
  have links : effectLinks start.withoutEffects.documents = [] := by
    refine List.filterMap_eq_nil_iff.mpr fun document mem => ?_
    have unlinked : document.effectUploadId.isNone = true := (List.mem_filter.mp mem).2
    simp [Option.isNone_iff_eq_none.mp unlinked]
  refine ⟨List.nodup_nil, List.nodup_nil, ?_, ?_, ?_, ?_, ?_⟩
  · exact fun _ mem => nomatch mem
  · exact fun _ mem => nomatch mem
  · exact fun _ mem => nomatch mem
  · intro link mem
    rw [links] at mem
    cases mem
  · rw [links]
    exact List.nodup_nil

theorem consistent_invariant : (effectUploadStore settings).Invariant Consistent :=
  fun _ _ _ _ consistent committed => consistent.kept (execUpload_moves committed)

theorem CallMove.forward (consistent : Consistent t) (move : CallMove t t')
    (known : row ∈ t.effectUploads) : ∃ row' ∈ t'.effectUploads, Forward row row' := by
  cases move with
  | quiet uploads links => exact ⟨row, uploads ▸ known, Forward.refl row⟩
  | adds added uploads =>
    exact ⟨row, uploads ▸ List.mem_append_left _ known, Forward.refl row⟩
  | writes old written oldKnown uploads links move staged =>
    rw [uploads]
    by_cases hit : row.id = written.id
    · have same := consistent.keyed.eq_of_key known oldKnown (hit.trans move.id)
      refine ⟨written, mem_replaceRow_self known hit, ?_⟩
      rw [same]
      exact move.forward (consistent.staged old oldKnown)
    · exact ⟨row, mem_replaceRow_of_ne known hit, Forward.refl row⟩

theorem run_forward (consistent : Consistent t) (calls : List UploadCall)
    (known : row ∈ t.effectUploads) :
    ∃ row' ∈ ((effectUploadStore settings).run t calls).effectUploads, Forward row row' := by
  induction calls generalizing t row with
  | nil => exact ⟨row, known, Forward.refl row⟩
  | cons call rest ih =>
    rw [TransactionSystem.run_cons]
    cases outcome : (effectUploadStore settings).exec call t with
    | error fault =>
      rw [TransactionSystem.step_of_fault _ outcome]
      exact ih consistent known
    | ok result =>
      obtain ⟨answer, next⟩ := result
      rw [TransactionSystem.step_of_commit _ outcome]
      have move := execUpload_moves outcome
      obtain ⟨middle, middleKnown, first⟩ := move.forward consistent known
      obtain ⟨last, lastKnown, second⟩ := ih (consistent.kept move) middleKnown
      exact ⟨last, lastKnown, first.trans second⟩

def sendsEffect (effectId : Uuid) : UploadCall × UploadAnswer → Bool
  | (.startOnce command _ _, .started true) => decide (command.effectId = effectId)
  | _ => false

/-- The PUT of the effect has been handed out. -/
def Sent (effectId : Uuid) (t : DocumentTables) : Prop :=
  ∃ row ∈ t.effectUploads, row.effectId = effectId ∧ row.state ≠ .reserved

theorem sent_stays {effectId : Uuid} (consistent : Consistent t) (move : CallMove t t')
    (sent : Sent effectId t) : Sent effectId t' := by
  obtain ⟨row, known, effect, unreserved⟩ := sent
  obtain ⟨row', known', forward⟩ := move.forward consistent known
  refine ⟨row', known', ?_, fun reserved => unreserved ?_⟩
  · exact (congrArg ProjectDocumentEffectUpload.effectId forward.frozen :).trans effect
  · have rank := forward.state
    rw [reserved] at rank
    revert rank
    cases row.state <;> decide

theorem sends_once {effectId : Uuid} {call : UploadCall} {answer : UploadAnswer}
    (consistent : Consistent t)
    (committed : (effectUploadStore settings).exec call t = .ok (answer, t'))
    (sends : sendsEffect effectId (call, answer) = true) :
    ¬ Sent effectId t ∧ Sent effectId t' := by
  unfold sendsEffect at sends
  split at sends
  · rename_i command ownerId now acts
    obtain ⟨rfl, rfl⟩ := Prod.mk.inj acts
    have effect := of_decide_eq_true sends
    obtain ⟨sends, started, shown⟩ := answering_eq_ok.mp committed
    cases shown
    rcases startOnce_moves started with ⟨lost, -⟩ | ⟨-, row, found, reserved, -, sent, move,
      state, -, rfl⟩
    · cases lost
    · obtain ⟨known, same⟩ := findEffectUpload_known found
      constructor
      · rintro ⟨other, otherKnown, otherEffect, unreserved⟩
        have one := consistent.effects.eq_of_key otherKnown known
          (otherEffect.trans (effect.symm.trans same.symm))
        exact unreserved (one ▸ reserved)
      · refine ⟨sent, mem_replaceRow_self known move.id.symm, ?_, by simp [state]⟩
        exact move.effectId.trans (same.trans effect)
  · cases sends

/-- **`start_once` answers `True` at most once for an effect.** -/
theorem sent_at_most_once (settings : EffectUploadSettings) (effectId : Uuid)
    (start : DocumentTables) (calls : List UploadCall) :
    ((effectUploadStore settings).answers start.withoutEffects calls).countP
      (sendsEffect effectId) ≤ 1 := by
  have stays : ∀ s call answer s', Consistent s →
      (effectUploadStore settings).exec call s = .ok (answer, s') →
      Sent effectId s → Sent effectId s' :=
    fun s call answer s' consistent committed sent =>
      sent_stays consistent (execUpload_moves committed) sent
  exact TransactionSystem.answered_once consistent_invariant stays
    (fun s call answer s' consistent committed sends =>
      sends_once consistent committed sends)
    (consistent_start start) calls

/-- Every answer of a publication is the document of the published upload. -/
def Answered (log : List (UploadCall × UploadAnswer)) (t : DocumentTables) : Prop :=
  ∀ command now document, (UploadCall.publish command now, .published document) ∈ log →
    ∃ row ∈ t.effectUploads, row.effectId = command.effectId ∧ row.state = .published ∧
      storedDocument row = .ok document

theorem answered_kept {log : List (UploadCall × UploadAnswer)} {call : UploadCall}
    {answer : UploadAnswer} (consistent : Consistent t) (answered : Answered log t)
    (committed : (effectUploadStore settings).exec call t = .ok (answer, t')) :
    Answered (log ++ [(call, answer)]) t' := by
  intro command now document mem
  rcases List.mem_append.mp mem with before | last
  · obtain ⟨row, known, effect, published, stored⟩ := answered command now document before
    obtain ⟨row', known', forward⟩ := (execUpload_moves committed).forward consistent known
    exact ⟨row, forward.final published ▸ known', effect, published, stored⟩
  · obtain ⟨rfl, rfl⟩ := Prod.mk.inj (List.mem_singleton.mp last)
    obtain ⟨shown, publishes, same⟩ := answering_eq_ok.mp committed
    cases same
    rcases publish_moves publishes with ⟨rfl, row, found, published, stored⟩ |
      ⟨row, published, known, effect, move, state, -, -, stored, uploads, -⟩
    · obtain ⟨known, effect⟩ := findEffectUpload_known found
      exact ⟨row, known, effect, published, stored⟩
    · refine ⟨published, ?_, move.effectId.trans effect, state, stored⟩
      rw [uploads]
      exact mem_replaceRow_self known move.id.symm

theorem run_answered (settings : EffectUploadSettings) (start : DocumentTables)
    (calls : List UploadCall) :
    Answered ((effectUploadStore settings).answers start.withoutEffects calls)
      ((effectUploadStore settings).run start.withoutEffects calls) := by
  have both := TransactionSystem.history
    (P := fun log t => Consistent t ∧ Answered log t)
    (M := effectUploadStore settings)
    (fun log s call answer s' holds committed =>
      ⟨consistent_invariant s call answer s' holds.1 committed,
        answered_kept holds.1 holds.2 committed⟩)
    ⟨consistent_start start, fun _ _ _ mem => nomatch mem⟩ calls
  exact both.2

def ProjectDocumentEffectUpload.times (row : ProjectDocumentEffectUpload) : List Timestamp :=
  [some row.createdAt, row.sentAt, row.verifiedAt, row.publishedAt].reduceOption

theorem staged_pairwise (staged : row.staged = true) : row.times.Pairwise (· ≤ ·) := by
  have stages := (staged_iff.mp staged).1
  revert stages
  unfold ProjectDocumentEffectUpload.times
  cases row.state <;> cases row.sentAt <;> cases row.verifiedAt <;> cases row.publishedAt <;>
    simp [ordered, List.reduceOption]
  all_goals
    intros
    grind

/-- **The uploads of effects move forward once**, over every run of transactions of any workers,
each a list of calls.  The tables stay consistent: an upload that is published has its one
document, an upload that is closed is not published, and the times of an upload are in order.
`start_once` answers `True` at most once for an effect, and every publication of an effect
answers the same document.  A further transaction only takes uploads forward, and one that
raises changes nothing. -/
theorem effect_uploads_forward (settings : EffectUploadSettings) (start : DocumentTables)
    (transactions : List (List UploadCall)) :
    let store := (effectUploadStore settings).batch
    let t := store.run start.withoutEffects transactions
    let log := TransactionSystem.calls (store.answers start.withoutEffects transactions)
    Consistent t ∧
    (∀ row ∈ t.effectUploads, row.times.Pairwise (· ≤ ·)) ∧
    (∀ effectId, log.countP (sendsEffect effectId) ≤ 1) ∧
    (∀ command now document, (UploadCall.publish command now, .published document) ∈ log →
      (∃ row ∈ t.effectUploads, row.effectId = command.effectId ∧ row.state = .published ∧
        storedDocument row = .ok document) ∧
      ∀ command' now' document',
        (UploadCall.publish command' now', .published document') ∈ log →
        command'.effectId = command.effectId → document' = document) ∧
    ∀ transaction,
      (∀ row ∈ t.effectUploads,
        ∃ row' ∈ (store.step t transaction).effectUploads, Forward row row') ∧
      ∀ fault, store.exec transaction t = .error fault → store.step t transaction = t := by
  intro store t log
  obtain ⟨made, ran, answered⟩ :=
    (effectUploadStore settings).batch_serial start.withoutEffects transactions
  have consistent : Consistent t := by
    have runs : Consistent ((effectUploadStore settings).run start.withoutEffects made) :=
      consistent_invariant.run (consistent_start start) made
    rwa [ran] at runs
  have given : Answered log t := by
    have answers := run_answered settings start made
    rwa [ran, answered] at answers
  refine ⟨consistent, fun row mem => staged_pairwise (consistent.staged row mem), ?_, ?_, ?_⟩
  · intro effectId
    have once := sent_at_most_once settings effectId start made
    rwa [answered] at once
  · intro command now document mem
    obtain ⟨row, known, effect, published, stored⟩ := given command now document mem
    refine ⟨⟨row, known, effect, published, stored⟩, ?_⟩
    intro command' now' document' mem' same
    obtain ⟨row', known', effect', -, stored'⟩ := given command' now' document' mem'
    have one := consistent.effects.eq_of_key known' known
      (effect'.trans (same.trans effect.symm))
    rw [one] at stored'
    exact Except.ok.inj (stored'.symm.trans stored)
  · intro transaction
    refine ⟨?_, fun fault raised => store.step_of_fault raised⟩
    intro row known
    obtain ⟨more, further⟩ := (effectUploadStore settings).batch_step_serial t transaction
    rw [← further]
    exact run_forward consistent more known

end SkillMind.Documents
