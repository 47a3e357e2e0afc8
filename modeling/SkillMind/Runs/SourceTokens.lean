import SkillMind.Documents.Binding
import SkillMind.Runs.SourceSelection

/-!
# Choices before and after their normalization

A Run keeps its choices in one spelling: the identifiers of documents in their order, and every
identifier as it is printed.  A choice that is normalized selects what it selected before, and a
choice that is not normalized selects nothing.
-/

namespace SkillMind.Runs

open Library SkillMind.Core
open Documents (UnicodeTables DocumentSelection DocumentSelectionMode uuid tokenIds pieces
  parseDocumentSelection partitionColon Listing)
open Effects (uuidText)

variable {tables : UnicodeTables}

/-! ## Identifiers in a token -/

theorem uuid_small {text : String} {id : Uuid} (read : uuid tables text = some id) :
    id < 2 ^ 128 := by
  unfold uuid at read
  dsimp only at read
  split at read
  · split at read
    · rename_i number _
      split at read
      · rename_i within
        cases read
        exact (Int.toNat_lt within.1).mpr (by exact_mod_cast within.2)
      · cases read
    · cases read
  · cases read

theorem pieces_free {text : List Char} (free : ',' ∉ text) : pieces text = [text] := by
  induction text with
  | nil => rfl
  | cons c rest ih =>
    rw [List.mem_cons, not_or] at free
    rw [pieces, if_neg (fun same => free.1 same.symm), ih free.2]

theorem pieces_append {text : List Char} (free : ',' ∉ text) (rest : List Char) :
    pieces (text ++ ',' :: rest) = text :: pieces rest := by
  induction text with
  | nil => rw [List.nil_append, pieces, if_pos rfl]
  | cons c more ih =>
    rw [List.mem_cons, not_or] at free
    rw [List.cons_append, pieces, if_neg (fun same => free.1 same.symm), ih free.2]

theorem pieces_intercalate {parts : List (List Char)} (present : parts ≠ [])
    (free : ∀ part ∈ parts, ',' ∉ part) : pieces ([','].intercalate parts) = parts := by
  induction parts with
  | nil => exact absurd rfl present
  | cons part rest ih =>
    have clean := free part List.mem_cons_self
    cases rest with
    | nil => simpa [List.intercalate] using pieces_free clean
    | cons next more =>
      have tail := ih (by simp) fun other mem => free other (List.mem_cons_of_mem part mem)
      rw [List.intercalate_cons_cons, List.append_assoc, List.singleton_append,
        pieces_append clean, tail]

theorem partitionColon_append {kind : List Char} (free : ':' ∉ kind) (rest : List Char) :
    partitionColon (kind ++ ':' :: rest) = some (kind, rest) := by
  have plain : ∀ c ∈ kind, (c != ':') = true := by
    intro c mem
    rw [bne_iff_ne]
    rintro rfl
    exact free mem
  rw [partitionColon, List.dropWhile_append_of_pos plain, List.takeWhile_append_of_pos plain]
  simp

theorem partitionColon_some {token kind rest : List Char}
    (split : partitionColon token = some (kind, rest)) : token = kind ++ ':' :: rest := by
  rw [partitionColon] at split
  cases behind : token.dropWhile (· != ':') with
  | nil => rw [behind] at split; cases split
  | cons c more =>
    rw [behind] at split
    cases split
    have colon : (c != ':') = false := by
      have head := List.head?_dropWhile_not (p := (· != ':')) token
      rw [behind] at head
      simpa using head
    have same : c = ':' := by simpa using colon
    have whole := List.takeWhile_append_dropWhile (p := (· != ':')) (l := token)
    rw [behind] at whole
    rw [← same]
    rw [same] at whole ⊢
    exact whole.symm

theorem uuidText_free (id : Uuid) : ',' ∉ (uuidText id).toList := by
  intro mem
  rcases Documents.uuidText_chars ',' mem with same | digit
  · cases same
  · cases digit

variable {token : String} {mode : DocumentSelectionMode}

theorem tokenIds_small {ids : List Uuid}
    (parsed : tokenIds tables token = .ok (mode, ids)) : ∀ id ∈ ids, id < 2 ^ 128 := by
  simp only [tokenIds, bind_eq_ok, require_eq_ok, exists_unit, orFault_eq_ok, pure_eq_ok,
    Prod.mk.injEq] at parsed
  obtain ⟨_, -, -, -, read, each, -, -, -, rfl⟩ := parsed
  intro id mem
  obtain ⟨text, -, found⟩ := mapM_ok_image each id mem
  exact uuid_small (orFault_eq_ok.mp found)

theorem tokenIds_shape {ids : List Uuid}
    (parsed : tokenIds tables token = .ok (mode, ids)) :
    startsWith "document:" token = true ∨ startsWith "documents:" token = true := by
  simp only [tokenIds, bind_eq_ok, require_eq_ok, exists_unit, orFault_eq_ok] at parsed
  obtain ⟨⟨kind, rest⟩, split, known, -⟩ := parsed
  have whole := partitionColon_some split
  simp only [startsWith, List.isPrefixOf_iff_prefix, whole]
  have kinds : kind = "document".toList ∨ kind = "documents".toList := known
  rcases kinds with rfl | rfl
  · exact .inl ⟨rest, rfl⟩
  · exact .inr ⟨rest, rfl⟩

def kindOf (mode : DocumentSelectionMode) : String :=
  if mode = .single then "document" else "documents"

theorem tokenIds_spelled {ids : List Uuid}
    (listing : Listing mode ids) (small : ∀ id ∈ ids, id < 2 ^ 128) :
    tokenIds tables (spelled (kindOf mode) ids) = .ok (mode, ids) := by
  have colonless : ':' ∉ (kindOf mode).toList := by
    cases mode <;> decide
  have split : partitionColon (spelled (kindOf mode) ids).toList = some ((kindOf mode).toList,
      [','].intercalate (ids.map fun id => (uuidText id).toList)) := by
    rw [spelled, String.toList_ofList]
    exact partitionColon_append colonless _
  have parts : pieces ([','].intercalate (ids.map fun id => (uuidText id).toList)) =
      ids.map fun id => (uuidText id).toList := by
    apply pieces_intercalate
    · intro empty
      have none : ids = [] := List.map_eq_nil_iff.mp empty
      have some := listing.bounded.1
      rw [none] at some
      cases some
    · intro part mem
      obtain ⟨id, -, rfl⟩ := List.mem_map.mp mem
      exact uuidText_free id
  have each : (ids.map fun id => (uuidText id).toList).mapM (fun value =>
      orFault (⟨"Document selection contains an invalid identity"⟩ :
        Documents.DocumentSnapshotError) (uuid tables (String.ofList value))) = .ok ids := by
    rw [mapM_eq_ok_iff, List.forall₂_map_left_iff, List.forall₂_same]
    intro id mem
    rw [String.ofList_toList, Documents.uuid_uuidText (small id mem)]
    rfl
  have bounded : 1 ≤ (ids.map fun id => (uuidText id).toList).length ∧
      (ids.map fun id => (uuidText id).toList).length ≤ Documents.maxSelectedDocuments := by
    rw [List.length_map]
    exact listing.bounded
  have other : "documents".toList ≠ "document".toList := by decide
  rw [tokenIds, split, orFault_some, ok_bind]
  simp only [parts, require_of bounded, ok_bind, each]
  cases mode with
  | all => exact absurd rfl listing.partly
  | single =>
    have one : ids.length = 1 := by
      have counts := listing.counts.1
      simpa using counts
    have known : (kindOf .single).toList = "document".toList ∨
        (kindOf .single).toList = "documents".toList := .inl rfl
    have unexpected : ids.Nodup ∧
        ¬ ((kindOf .single).toList = "document".toList ∧ ids.length ≠ 1) :=
      ⟨listing.distinct, fun both => both.2 one⟩
    have unset : ¬ ((kindOf .single).toList = "documents".toList ∧ ids.length < 2) :=
      fun both => other both.1.symm
    rw [require_of known, require_of unexpected, require_of unset]
    rfl
  | set =>
    have several : ¬ ids.length < 2 := by
      have counts := listing.counts.2
      simpa using counts
    have known : (kindOf .set).toList = "document".toList ∨
        (kindOf .set).toList = "documents".toList := .inr rfl
    have unexpected : ids.Nodup ∧
        ¬ ((kindOf .set).toList = "document".toList ∧ ids.length ≠ 1) :=
      ⟨listing.distinct, fun both => other both.1⟩
    have unset : ¬ ((kindOf .set).toList = "documents".toList ∧ ids.length < 2) :=
      fun both => several both.2
    rw [require_of known, require_of unexpected, require_of unset]
    rfl

/-! ## Normalized choices -/

/-- Two tokens that select the same, for whatever requirement. -/
structure Alike (tables : UnicodeTables) (token token' : String) : Prop where
  library : token = "project-library:documents" ↔ token' = "project-library:documents"
  documents : ∀ selection, parseDocumentSelection tables token = .ok selection ↔
    parseDocumentSelection tables token' = .ok selection
  integration : ∀ key id, identifyIntegration tables key token = .ok id ↔
    identifyIntegration tables key token' = .ok id

theorem Alike.refl (token : String) : Alike tables token token :=
  ⟨Iff.rfl, fun _ => Iff.rfl, fun _ _ => Iff.rfl⟩

theorem Alike.symm {token' : String} (alike : Alike tables token token') :
    Alike tables token' token :=
  ⟨alike.library.symm, fun selection => (alike.documents selection).symm,
    fun key id => (alike.integration key id).symm⟩

theorem startsWith_head {pre text : String} {c : Char} (first : pre.toList.head? = some c)
    (starts : startsWith pre text = true) : text.toList.head? = some c := by
  rw [startsWith, List.isPrefixOf_iff_prefix] at starts
  obtain ⟨rest, whole⟩ := starts
  rw [← whole, List.head?_append_of_ne_nil, first]
  rintro empty
  rw [empty] at first
  cases first

theorem parseDocumentSelection_shape {selection : DocumentSelection}
    (parsed : parseDocumentSelection tables token = .ok selection) :
    token = "project-documents:all" ∨ startsWith "document:" token = true ∨
      startsWith "documents:" token = true := by
  rcases Documents.parseDocumentSelection_ok parsed with ⟨all, -⟩ | ⟨mode, ids, read, -⟩
  · exact .inl all
  · exact .inr (tokenIds_shape read)

theorem documentLike_head (like : token = "project-documents:all" ∨
    startsWith "document:" token = true ∨ startsWith "documents:" token = true) :
    token = "project-documents:all" ∨ token.toList.head? = some 'd' := by
  rcases like with all | one | several
  · exact .inl all
  · exact .inr (startsWith_head (by decide) one)
  · exact .inr (startsWith_head (by decide) several)

theorem identifyIntegration_ok_iff {key : String} {id : Uuid} :
    identifyIntegration tables key token = .ok id ↔
      startsWith "integration:" token = true ∧
        uuid tables (withoutPrefix "integration:" token) = some id := by
  simp only [identifyIntegration, bind_eq_ok, require_eq_ok, exists_unit, orFault_eq_ok]

theorem not_documentLike (starts : startsWith "integration:" token = true) :
    ¬ (token = "project-documents:all" ∨ startsWith "document:" token = true ∨
      startsWith "documents:" token = true) := by
  intro like
  have head : token.toList.head? = some 'i' := startsWith_head (by decide) starts
  rcases documentLike_head like with rfl | other
  · cases head
  · rw [head] at other
    cases other

theorem alike_spelled {ids : List Uuid}
    (read : tokenIds tables token = .ok (mode, ids)) :
    Alike tables token (spelled (kindOf mode) (Documents.sortedIds ids)) := by
  have listing := Documents.tokenIds_ok read
  have small : ∀ id ∈ Documents.sortedIds ids, id < 2 ^ 128 := fun id mem =>
    tokenIds_small read id ((Documents.perm_sortedIds ids).mem_iff.mp mem)
  have read' : tokenIds tables (spelled (kindOf mode) (Documents.sortedIds ids)) =
      .ok (mode, Documents.sortedIds ids) := tokenIds_spelled listing.sorted small
  have plain : ∀ text answer, tokenIds tables text = .ok answer →
      text ≠ "project-library:documents" ∧ ¬ startsWith "integration:" text = true := by
    intro text answer found
    refine ⟨?_, fun starts => not_documentLike starts (.inr (tokenIds_shape found))⟩
    rintro rfl
    exact absurd (tokenIds_shape found) (by decide)
  have parsed : parseDocumentSelection tables token = .ok ⟨mode, Documents.sortedIds ids⟩ := by
    rw [parseDocumentSelection, if_neg, read]
    · rfl
    · rintro rfl
      exact Documents.tokenIds_all read
  have parsed' : parseDocumentSelection tables (spelled (kindOf mode) (Documents.sortedIds ids)) =
      .ok ⟨mode, Documents.sortedIds ids⟩ := by
    exact Documents.parseDocumentSelection_same (.inr ⟨mode, ids, Documents.sortedIds ids, read,
      read', Documents.perm_sortedIds ids⟩) parsed
  refine ⟨?_, ?_, ?_⟩
  · exact ⟨fun same => absurd same (plain _ _ read).1,
      fun same => absurd same (plain _ _ read').1⟩
  · intro selection
    rw [parsed, parsed']
  · intro key id
    rw [identifyIntegration_ok_iff, identifyIntegration_ok_iff]
    exact ⟨fun found => absurd found.1 (plain _ _ read).2,
      fun found => absurd found.1 (plain _ _ read').2⟩

theorem alike_integration {id : Uuid}
    (starts : startsWith "integration:" token = true)
    (read : uuid tables (withoutPrefix "integration:" token) = some id) :
    Alike tables token ("integration:" ++ uuidText id) := by
  have starts' : startsWith "integration:" ("integration:" ++ uuidText id) = true := by
    rw [startsWith, List.isPrefixOf_iff_prefix, String.toList_append]
    exact List.prefix_append _ _
  have behind : withoutPrefix "integration:" ("integration:" ++ uuidText id) = uuidText id := by
    rw [withoutPrefix, String.toList_append, List.drop_left, String.ofList_toList]
  have read' : uuid tables (withoutPrefix "integration:" ("integration:" ++ uuidText id)) =
      some id := by
    rw [behind]
    exact Documents.uuid_uuidText (uuid_small read)
  have plain : ∀ text, startsWith "integration:" text = true →
      text ≠ "project-library:documents" := by
    rintro _ found rfl
    exact absurd found (by decide)
  refine ⟨?_, ?_, ?_⟩
  · exact ⟨fun same => absurd same (plain _ starts), fun same => absurd same (plain _ starts')⟩
  · intro selection
    exact ⟨fun parsed => absurd (parseDocumentSelection_shape parsed) (not_documentLike starts),
      fun parsed => absurd (parseDocumentSelection_shape parsed) (not_documentLike starts')⟩
  · intro key other
    rw [identifyIntegration_ok_iff, identifyIntegration_ok_iff, read, read']
    exact ⟨fun found => ⟨starts', found.2⟩, fun found => ⟨starts, found.2⟩⟩

theorem normalizeToken_alike {token' : String}
    (normalized : normalizeToken tables token = .ok token') : Alike tables token token' := by
  rw [normalizeToken] at normalized
  split at normalized
  · simp only [bind_eq_ok, mapError_eq_ok] at normalized
    obtain ⟨selection, parsed, written⟩ := normalized
    rcases Documents.parseDocumentSelection_ok parsed with ⟨rfl, rfl⟩ | ⟨mode, ids, read, rfl⟩
    · cases written
      exact Alike.refl _
    · have same : spelled (kindOf mode) (Documents.sortedIds ids) = token' := by
        cases mode with
        | all => exact absurd rfl (Documents.tokenIds_ok read).partly
        | single => exact pure_eq_ok.mp written
        | set => exact pure_eq_ok.mp written
      exact same ▸ alike_spelled read
  · split at normalized
    · rename_i starts
      simp only [bind_eq_ok, orFault_eq_ok, pure_eq_ok] at normalized
      obtain ⟨id, read, rfl⟩ := normalized
      exact alike_integration starts read
    · cases normalized
      exact Alike.refl _

theorem normalizeToken_isOk
    (selects : token = "project-library:documents" ∨
      (∃ selection, parseDocumentSelection tables token = .ok selection) ∨
        ∃ key id, identifyIntegration tables key token = .ok id) :
    ∃ token', normalizeToken tables token = .ok token' := by
  rcases selects with rfl | ⟨selection, parsed⟩ | ⟨key, id, read⟩
  · refine ⟨"project-library:documents", ?_⟩
    rw [normalizeToken, if_neg (by decide), if_neg (by decide)]
    rfl
  · rw [normalizeToken, if_pos (parseDocumentSelection_shape parsed), parsed]
    cases mode : selection.mode <;> exact ⟨_, by simp only [Except.mapError, ok_bind, mode]; rfl⟩
  · obtain ⟨starts, found⟩ := identifyIntegration_ok_iff.mp read
    rw [normalizeToken, if_neg (not_documentLike starts), if_pos starts, found]
    exact ⟨_, rfl⟩

end SkillMind.Runs
