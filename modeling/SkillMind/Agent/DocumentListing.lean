import SkillMind.Documents.Binding
import SkillMind.Documents.DirectoryQuery

/-!
# Pages of a directory

A listing is read in pages of its candidates. The cursor of the next page holds the checksum of
what the listing is of, so that a walk along the cursors is one through a single list, and a
cursor of any other listing is rejected.
-/

namespace SkillMind.Agent.DocumentListing

open Library SkillMind.Core
open Documents hiding textOf
open Documents.Directory
open Runs (Uuid)
open Effects (uuidText)

/-! ## A page -/

def parametersToJson (parameters : Parameters) : Json :=
  .object
    [ ("directory", .string parameters.directory)
    , ("recursive", .bool parameters.recursive)
    , ("extensions", .array (parameters.extensions.map .string))
    , ("exclude_directories", .array (parameters.excludeDirectories.map .string))
    , ("exclude_name_prefixes", .array (parameters.excludeNamePrefixes.map .string))
    , ("modified_on", match parameters.modifiedOn with
        | none => .null
        | some (date, timezone, notAfter) => .object
          [("date", .string date), ("timezone", .string timezone),
            ("not_after", .string notAfter)]) ]

/-- What a page is read of: the Run, the query, the page width and the frozen documents. -/
structure Listing where
  runId : Uuid
  projectId : Uuid
  query : DirectoryQuery
  limit : Nat
  documents : List FrozenDocument
  limit_pos : 1 ≤ limit
  limit_le : limit ≤ 50
  ids : runId < 2 ^ 128 ∧ projectId < 2 ^ 128
  frozen : ∀ document ∈ documents, document.documentId < 2 ^ 128 ∧ 0 ≤ document.size

def Listing.payload (listing : Listing) : List (String × Json) :=
  [ ("version", .string "v1")
  , ("run_id", .string (uuidText listing.runId))
  , ("project_id", .string (uuidText listing.projectId))
  , ("query", parametersToJson listing.query.parameters)
  , ("limit", .number (toString (listing.limit : ℤ)))
  , ("documents", .array (listing.documents.map FrozenDocument.toJson)) ]

variable (library : StandardLibrary)

def Listing.text (listing : Listing) : String := canonicalJson (.object listing.payload)

def Listing.checksum (listing : Listing) : String := taggedSha256 library listing.text

def Listing.candidates (listing : Listing) : List FrozenDocument :=
  Directory.candidates listing.query.parameters listing.documents

/-- `arguments["cursor"]`. -/
inductive Cursor where
  | absent
  /-- Not an object of the two keys, or with values of other types. -/
  | invalid
  | given (queryChecksum : String) (offset : ℤ)

def pageStart (checksum : String) (count limit : Nat) : Cursor → Option Nat
  | .absent => some 0
  | .invalid => none
  | .given queryChecksum offset =>
    if queryChecksum = checksum ∧ 0 < offset ∧ offset < count ∧ offset % limit = 0 then
      some offset.toNat
    else none

inductive ListingFault where
  | invalidRequest
  | unavailable

/-- The entries of a page with `matches_filter`, and `next_cursor`. -/
structure Page where
  entries : List (FrozenDocument × Bool)
  nextCursor : Option (String × Nat)

-- When a document was modified, if it was observed as it is frozen.
variable (observe : FrozenDocument → Option ℤ)

def entry (query : DirectoryQuery) (document : FrozenDocument) :
    Except ListingFault (FrozenDocument × Bool) :=
  (orFault .unavailable (observe document)).map fun modified =>
    (document, query.matchesTime modified)

/-- `execute`. -/
def page (listing : Listing) (cursor : Cursor) : Except ListingFault Page := do
  let found := listing.candidates
  let start ← orFault .invalidRequest
    (pageStart (listing.checksum library) found.length listing.limit cursor)
  let stop := min (start + listing.limit) found.length
  let entries ← ((found.take stop).drop start).mapM (entry observe listing.query)
  .ok ⟨entries, if stop < found.length then some (listing.checksum library, stop) else none⟩

/-! ## Walks -/

/-- The pages from a cursor on, while the frozen set is unchanged. -/
inductive Pages (listing : Listing) : Cursor → List (List (FrozenDocument × Bool)) → Prop where
  | last {cursor : Cursor} {entries : List (FrozenDocument × Bool)}
      (read : page library observe listing cursor = .ok ⟨entries, none⟩) :
      Pages listing cursor [entries]
  | more {cursor : Cursor} {entries : List (FrozenDocument × Bool)} {checksum : String}
      {offset : Nat} {pages : List (List (FrozenDocument × Bool))}
      (read : page library observe listing cursor = .ok ⟨entries, some (checksum, offset)⟩)
      (rest : Pages listing (.given checksum offset) pages) :
      Pages listing cursor (entries :: pages)

def Follows (listing : Listing) (cursor next : Cursor) : Prop :=
  ∃ entries checksum offset, page library observe listing cursor =
    .ok ⟨entries, some (checksum, offset)⟩ ∧ next = .given checksum (offset : Nat)

/-- Two listings of the same Run and project, by the same query and width, of the same documents. -/
structure Alike (first second : Listing) : Prop where
  runId : first.runId = second.runId
  projectId : first.projectId = second.projectId
  query : first.query.parameters = second.query.parameters
  limit : first.limit = second.limit
  documents : first.documents = second.documents

/-- Pages cover the candidates once and in order, and only of the listing a cursor is of. -/
structure PagesExactly (listing : Listing) : Prop where
  whole : ∀ pages, Pages library observe listing .absent pages →
    pages.flatten.map Prod.fst = listing.candidates
  ends : ¬ ∃ cursors : Nat → Cursor,
    ∀ i, Follows library observe listing (cursors i) (cursors (i + 1))
  complete : (∀ document ∈ listing.candidates, (observe document).isSome = true) →
    ∃ pages, Pages library observe listing .absent pages
  rejects : ∀ other : Listing,
    (taggedSha256 library other.text = taggedSha256 library listing.text →
      other.text = listing.text) → ¬ Alike other listing →
    ∀ offset, page library observe listing (.given (other.checksum library) offset) =
      .error .invalidRequest

variable {library observe} {listing : Listing}

variable {cursor : Cursor}

theorem pageStart_lt {checksum : String} {count limit start : Nat}
    (found : pageStart checksum count limit cursor = some start) :
    (start = 0 ∨ start < count) ∧ limit ∣ start := by
  cases cursor with
  | absent =>
    cases found
    exact ⟨.inl rfl, dvd_zero _⟩
  | invalid => cases found
  | given queryChecksum offset =>
    rw [pageStart] at found
    split_ifs at found with accepted
    obtain rfl := Option.some.inj found
    obtain ⟨-, positive, small, multiple⟩ := accepted
    refine ⟨.inr (by omega), ?_⟩
    have whole : (limit : ℤ) ∣ offset := Int.dvd_of_emod_eq_zero multiple
    exact Int.natCast_dvd_natCast.mp (by rwa [Int.toNat_of_nonneg (le_of_lt positive)])

theorem pageStart_given {checksum : String} {count limit offset : Nat} (positive : 0 < offset)
    (small : offset < count) (multiple : limit ∣ offset) :
    pageStart checksum count limit (.given checksum offset) = some offset := by
  have zero : (offset : ℤ) % limit = 0 :=
    Int.emod_eq_zero_of_dvd (Int.natCast_dvd_natCast.mpr multiple)
  rw [pageStart, if_pos ⟨rfl, by omega, by omega, zero⟩, Int.toNat_natCast]

theorem mapM_entry {query : DirectoryQuery} {documents : List FrozenDocument}
    {entries : List (FrozenDocument × Bool)}
    (read : documents.mapM (entry observe query) = .ok entries) :
    entries.map Prod.fst = documents := by
  rw [mapM_eq_ok_iff] at read
  induction read with
  | nil => rfl
  | cons first _ ih =>
    rw [entry, map_eq_ok] at first
    obtain ⟨modified, -, rfl⟩ := first
    rw [List.map_cons, ih]

theorem page_ok {result : Page}
    (read : page library observe listing cursor = .ok result) :
    ∃ start, pageStart (listing.checksum library) listing.candidates.length listing.limit cursor =
        some start ∧
      result.entries.map Prod.fst =
        (listing.candidates.take (start + listing.limit)).drop start ∧
      result.nextCursor = if start + listing.limit < listing.candidates.length then
        some (listing.checksum library, start + listing.limit) else none := by
  simp only [page, bind_eq_ok, orFault_eq_ok, Except.ok.injEq] at read
  obtain ⟨start, begins, entries, observed, rfl⟩ := read
  refine ⟨start, begins, ?_, ?_⟩
  · rw [mapM_entry observed]
    rcases le_total (start + listing.limit) listing.candidates.length with short | long
    · rw [min_eq_left short]
    · rw [min_eq_right long, List.take_length, List.take_of_length_le long]
  · by_cases more : start + listing.limit < listing.candidates.length
    · rw [min_eq_left more.le]
    · rw [min_eq_right (not_lt.mp more), if_neg more, if_neg (lt_irrefl _)]

theorem page_next {entries : List (FrozenDocument × Bool)} {checksum : String}
    {offset : Nat} (read : page library observe listing cursor =
      .ok ⟨entries, some (checksum, offset)⟩) :
    ∃ start, pageStart (listing.checksum library) listing.candidates.length listing.limit cursor =
        some start ∧ offset = start + listing.limit ∧ offset < listing.candidates.length ∧
      pageStart (listing.checksum library) listing.candidates.length listing.limit
        (.given checksum offset) = some offset := by
  obtain ⟨start, begins, -, next⟩ := page_ok read
  have more : start + listing.limit < listing.candidates.length := by
    by_contra less
    rw [if_neg less] at next
    cases next
  rw [if_pos more] at next
  cases next
  have positive := listing.limit_pos
  exact ⟨start, begins, rfl, more, pageStart_given (by omega) more
    ((Nat.dvd_add_self_right).mpr (pageStart_lt begins).2)⟩

theorem pages_whole {pages : List (List (FrozenDocument × Bool))}
    (walk : Pages library observe listing cursor pages) {start : Nat}
    (begins : pageStart (listing.checksum library) listing.candidates.length listing.limit cursor =
      some start) : pages.flatten.map Prod.fst = listing.candidates.drop start := by
  induction walk generalizing start with
  | last read =>
    obtain ⟨start', begins', entries, next⟩ := page_ok read
    obtain rfl := Option.some.inj (begins.symm.trans begins')
    have end_ : ¬ start + listing.limit < listing.candidates.length := by
      intro more
      rw [if_pos more] at next
      cases next
    rw [List.flatten_singleton, entries, List.take_of_length_le (not_lt.mp end_)]
  | @more cursor entries checksum offset pages read rest ih =>
    obtain ⟨start', begins', listed, -⟩ := page_ok read
    obtain rfl := Option.some.inj (begins.symm.trans begins')
    obtain ⟨start', begins', rfl, -, again⟩ := page_next read
    obtain rfl := Option.some.inj (begins.symm.trans begins')
    have whole := ih again
    rw [List.flatten_cons, List.map_append, listed, whole]
    have split := List.take_append_drop listing.limit (listing.candidates.drop start)
    rw [List.drop_drop] at split
    rw [List.drop_take, Nat.add_sub_cancel_left]
    exact split

theorem page_of_start (observed : ∀ document ∈ listing.candidates, (observe document).isSome = true)
    {start : Nat}
    (begins : pageStart (listing.checksum library) listing.candidates.length listing.limit cursor =
      some start) :
    ∃ entries, page library observe listing cursor = .ok ⟨entries,
      if start + listing.limit < listing.candidates.length then
        some (listing.checksum library, start + listing.limit) else none⟩ := by
  have read : ∀ document ∈ (listing.candidates.take
      (min (start + listing.limit) listing.candidates.length)).drop start,
      ∃ one, entry observe listing.query document = .ok one := by
    intro document mem
    have among := List.mem_of_mem_take (List.mem_of_mem_drop mem)
    obtain ⟨modified, seen⟩ := Option.isSome_iff_exists.mp (observed document among)
    rw [entry, seen, orFault_some]
    exact ⟨_, rfl⟩
  obtain ⟨entries, listed⟩ := mapM_isOk read
  have result : page library observe listing cursor = .ok ⟨entries,
      if min (start + listing.limit) listing.candidates.length < listing.candidates.length then
        some (listing.checksum library, min (start + listing.limit) listing.candidates.length)
      else none⟩ := by
    rw [page, begins, orFault_some, ok_bind]
    dsimp only
    rw [listed, ok_bind]
  obtain ⟨start', begins', -, next⟩ := page_ok result
  obtain rfl := Option.some.inj (begins.symm.trans begins')
  exact ⟨entries, by rw [result, ← next]⟩

theorem exists_pages (observed : ∀ document ∈ listing.candidates, (observe document).isSome = true)
    (left : Nat) {start : Nat}
    (begins : pageStart (listing.checksum library) listing.candidates.length listing.limit cursor =
      some start) (room : listing.candidates.length ≤ start + left) :
    ∃ pages, Pages library observe listing cursor pages := by
  induction left generalizing cursor start with
  | zero =>
    obtain ⟨entries, read⟩ := page_of_start observed begins
    rw [if_neg (by omega)] at read
    exact ⟨_, .last read⟩
  | succ left ih =>
    obtain ⟨entries, read⟩ := page_of_start observed begins
    have positive := listing.limit_pos
    split_ifs at read with more
    · obtain ⟨pages, rest⟩ := ih (pageStart_given (by omega) more
        ((Nat.dvd_add_self_right).mpr (pageStart_lt begins).2)) (by omega)
      exact ⟨_, .more read rest⟩
    · exact ⟨_, .last read⟩

theorem follows_start {cursors : Nat → Cursor}
    (follows : ∀ i, Follows library observe listing (cursors i) (cursors (i + 1))) (i : Nat) :
    ∃ start, pageStart (listing.checksum library) listing.candidates.length listing.limit
      (cursors i) = some start ∧ i ≤ start ∧ start < listing.candidates.length := by
  induction i with
  | zero =>
    obtain ⟨entries, checksum, offset, read, -⟩ := follows 0
    obtain ⟨start, begins, rfl, more, -⟩ := page_next read
    exact ⟨start, begins, Nat.zero_le _, by omega⟩
  | succ i ih =>
    obtain ⟨start, begins, least, -⟩ := ih
    obtain ⟨entries, checksum, offset, read, goes⟩ := follows i
    obtain ⟨start', begins', rfl, more, again⟩ := page_next read
    obtain rfl := Option.some.inj (begins.symm.trans begins')
    have positive := listing.limit_pos
    exact ⟨start + listing.limit, by rw [goes, again], by omega, more⟩

/-! ## Another listing -/

theorem uuidText_injective {first second : Uuid} (small : first < 2 ^ 128)
    (small' : second < 2 ^ 128) (same : uuidText first = uuidText second) : first = second := by
  have read := @uuid_uuidText ⟨fun _ => true, rfl, fun _ => none⟩ first small
  rw [same, uuid_uuidText small'] at read
  exact (Option.some.inj read).symm

theorem toString_injective {first second : ℤ} (natural : 0 ≤ first) (natural' : 0 ≤ second)
    (same : toString first = toString second) : first = second := by
  have read := sizeOf_toString ⟨""⟩ natural
  rw [same, sizeOf_toString ⟨""⟩ natural'] at read
  exact (Except.ok.inj read).symm

theorem sortItems_strings (texts : List String) :
    sortItems (texts.map .string) = texts.map .string := by
  induction texts with
  | nil => rfl
  | cons text rest ih => rw [List.map_cons, sortItems, ih, sortMembers]; all_goals simp

theorem strings_injective {first second : List String}
    (same : first.map Json.string = second.map Json.string) : first = second :=
  List.map_injective_iff.mpr (fun _ _ equal => Json.string.inj equal) same

def documentMembers (document : FrozenDocument) : List (String × Json) :=
  [ ("document_id", .string (uuidText document.documentId))
  , ("folder", .string document.folder)
  , ("name", .string document.name)
  , ("mime", .string document.mime)
  , ("size", .number (toString document.size))
  , ("content_hash", .string document.contentHash) ]

theorem documentMembers_keys (document : FrozenDocument) :
    (documentMembers document).map Prod.fst = documentFields := rfl

theorem document_same {first second : FrozenDocument}
    (frozen : first.documentId < 2 ^ 128 ∧ 0 ≤ first.size)
    (frozen' : second.documentId < 2 ^ 128 ∧ 0 ≤ second.size)
    (same : first.toJson.Same second.toJson) : first = second := by
  have distinct : ((documentMembers first).map Prod.fst).Nodup := by
    rw [documentMembers_keys]
    decide
  have members : sortFields (documentMembers first) = sortFields (documentMembers second) :=
    (same_object_iff ((documentMembers_keys first).trans (documentMembers_keys second).symm)
      distinct).mp same
  simp only [documentMembers, sortFields, sortMembers, List.cons.injEq, Prod.mk.injEq,
    Json.string.injEq, Json.number.injEq, true_and, and_true] at members
  obtain ⟨id, folder, name, mime, size, hash⟩ := members
  have ids := uuidText_injective frozen.1 frozen'.1 id
  have sizes := toString_injective frozen.2 frozen'.2 size
  cases first
  cases second
  simp only [FrozenDocument.mk.injEq]
  exact ⟨ids, folder, name, mime, sizes, hash⟩

theorem documents_same {first second : List FrozenDocument}
    (frozen : ∀ document ∈ first, document.documentId < 2 ^ 128 ∧ 0 ≤ document.size)
    (frozen' : ∀ document ∈ second, document.documentId < 2 ^ 128 ∧ 0 ≤ document.size)
    (same : sortItems (first.map FrozenDocument.toJson) =
      sortItems (second.map FrozenDocument.toJson)) : first = second := by
  induction first generalizing second with
  | nil =>
    cases second with
    | nil => rfl
    | cons _ _ => cases same
  | cons document rest ih =>
    cases second with
    | nil => cases same
    | cons document' rest' =>
      rw [List.map_cons, List.map_cons, sortItems, sortItems, List.cons.injEq] at same
      rw [document_same (frozen _ List.mem_cons_self) (frozen' _ List.mem_cons_self) same.1,
        ih (fun one mem => frozen one (List.mem_cons_of_mem _ mem))
          (fun one mem => frozen' one (List.mem_cons_of_mem _ mem)) same.2]

def payloadFields : List String :=
  ["version", "run_id", "project_id", "query", "limit", "documents"]

def parameterFields : List String :=
  ["directory", "recursive", "extensions", "exclude_directories", "exclude_name_prefixes",
    "modified_on"]

theorem payload_keys (listing : Listing) : listing.payload.map Prod.fst = payloadFields := rfl

/-- The day of a query in its parameters. -/
def modifiedToJson : Option (String × String × String) → Json
  | none => .null
  | some (date, timezone, notAfter) => .object
    [("date", .string date), ("timezone", .string timezone), ("not_after", .string notAfter)]

def parameterMembers (parameters : Parameters) : List (String × Json) :=
  [ ("directory", .string parameters.directory)
  , ("recursive", .bool parameters.recursive)
  , ("extensions", .array (parameters.extensions.map .string))
  , ("exclude_directories", .array (parameters.excludeDirectories.map .string))
  , ("exclude_name_prefixes", .array (parameters.excludeNamePrefixes.map .string))
  , ("modified_on", modifiedToJson parameters.modifiedOn) ]

theorem parameterMembers_keys (parameters : Parameters) :
    (parameterMembers parameters).map Prod.fst = parameterFields := rfl

def dayMembers (date timezone notAfter : String) : List (String × Json) :=
  [("date", .string date), ("timezone", .string timezone), ("not_after", .string notAfter)]

theorem modified_same {first second : Option (String × String × String)}
    (same : (modifiedToJson first).Same (modifiedToJson second)) : first = second := by
  cases first with
  | none =>
    cases second with
    | none => rfl
    | some _ =>
      simp [modifiedToJson, Json.Same, sortMembers] at same
  | some one =>
    cases second with
    | none => simp [modifiedToJson, Json.Same, sortMembers] at same
    | some other =>
      obtain ⟨date, timezone, notAfter⟩ := one
      obtain ⟨date', timezone', notAfter'⟩ := other
      have keys : (dayMembers date timezone notAfter).map Prod.fst =
          (dayMembers date' timezone' notAfter').map Prod.fst := rfl
      have distinct : ((dayMembers date timezone notAfter).map Prod.fst).Nodup := by
        simp [dayMembers]
      have members := (same_object_iff keys distinct).mp same
      simp only [dayMembers, sortFields, sortMembers, List.cons.injEq, Prod.mk.injEq,
        Json.string.injEq, true_and, and_true] at members
      obtain ⟨rfl, rfl, rfl⟩ := members
      rfl

theorem wellFormed_strings (texts : List String) :
    itemsWellFormed (texts.map .string) = true := by
  rw [itemsWellFormed_iff]
  intro item mem
  obtain ⟨text, -, rfl⟩ := List.mem_map.mp mem
  rfl

theorem wellFormed_modified (modified : Option (String × String × String)) :
    (modifiedToJson modified).wellFormed = true := by
  cases modified with
  | none => rfl
  | some texts =>
    simp [modifiedToJson, Json.wellFormed, membersWellFormed]

theorem wellFormed_parameters (parameters : Parameters) :
    (parametersToJson parameters).wellFormed = true := by
  have whole : parametersToJson parameters = .object (parameterMembers parameters) := rfl
  have distinct : parameterFields.Nodup := by decide
  have modified : (modifiedToJson parameters.modifiedOn).wellFormed = true :=
    wellFormed_modified _
  rw [whole, Json.wellFormed, parameterMembers_keys, decide_eq_true distinct, Bool.true_and,
    membersWellFormed_iff]
  intro field mem
  simp only [parameterMembers, List.mem_cons, List.not_mem_nil, or_false] at mem
  rcases mem with rfl | rfl | rfl | rfl | rfl | rfl
  · rfl
  · rfl
  · exact wellFormed_strings _
  · exact wellFormed_strings _
  · exact wellFormed_strings _
  · exact modified

theorem wellFormed_payload (listing : Listing) :
    (Json.object listing.payload).wellFormed = true := by
  have distinct : payloadFields.Nodup := by decide
  rw [Json.wellFormed, payload_keys, decide_eq_true distinct, Bool.true_and,
    membersWellFormed_iff]
  intro field mem
  simp only [Listing.payload, List.mem_cons, List.not_mem_nil, or_false] at mem
  rcases mem with rfl | rfl | rfl | rfl | rfl | rfl
  · rfl
  · rfl
  · rfl
  · exact wellFormed_parameters _
  · exact isNumberToken_toString listing.limit
  · rw [Json.wellFormed, itemsWellFormed_iff]
    intro item inside
    obtain ⟨document, among, rfl⟩ := List.mem_map.mp inside
    exact wellFormed_document (listing.frozen document among).2

theorem parameters_same {first second : Parameters}
    (same : (parametersToJson first).Same (parametersToJson second)) : first = second := by
  have distinct : ((parameterMembers first).map Prod.fst).Nodup := by
    rw [parameterMembers_keys]
    decide
  have members : sortFields (parameterMembers first) = sortFields (parameterMembers second) :=
    (same_object_iff ((parameterMembers_keys first).trans (parameterMembers_keys second).symm)
      distinct).mp same
  simp only [parameterMembers, sortFields, List.cons.injEq, Prod.mk.injEq, true_and,
    and_true] at members
  obtain ⟨directory, recursive, extensions, excluded, prefixes, modified⟩ := members
  have texts : ∀ one other : List String, sortMembers (.array (one.map .string)) =
      sortMembers (.array (other.map .string)) → one = other := by
    intro one other equal
    rw [sortMembers, sortMembers, sortItems_strings, sortItems_strings] at equal
    exact strings_injective (Json.array.inj equal)
  obtain ⟨_, _, _, _, _, _, _⟩ := first
  obtain ⟨_, _, _, _, _, _, _⟩ := second
  simp only [Parameters.mk.injEq]
  exact ⟨Json.string.inj directory, Json.bool.inj recursive, texts _ _ extensions,
    texts _ _ excluded, texts _ _ prefixes, modified_same modified⟩

theorem alike_of_text {first second : Listing} (same : first.text = second.text) :
    Alike first second := by
  have whole := (canonicalJson_eq_iff (wellFormed_payload first) (wellFormed_payload second)).mp
    same
  have distinct : (first.payload.map Prod.fst).Nodup := by
    rw [payload_keys]
    decide
  have members : sortFields first.payload = sortFields second.payload :=
    (same_object_iff ((payload_keys first).trans (payload_keys second).symm) distinct).mp whole
  simp only [Listing.payload, sortFields, List.cons.injEq, Prod.mk.injEq, true_and,
    and_true] at members
  obtain ⟨run, project, query, limit, documents⟩ := members
  rw [sortMembers, sortMembers, Json.array.injEq] at documents
  have limits := toString_injective (Int.natCast_nonneg _) (Int.natCast_nonneg _)
    (Json.number.inj limit)
  exact ⟨uuidText_injective first.ids.1 second.ids.1 (Json.string.inj run),
    uuidText_injective first.ids.2 second.ids.2 (Json.string.inj project),
    parameters_same query, Int.ofNat.inj limits,
    documents_same first.frozen second.frozen documents⟩

theorem page_of_other {other : Listing}
    (free : taggedSha256 library other.text = taggedSha256 library listing.text →
      other.text = listing.text) (apart : ¬ Alike other listing) (offset : ℤ) :
    page library observe listing (.given (other.checksum library) offset) =
      .error .invalidRequest := by
  have refused : pageStart (listing.checksum library) listing.candidates.length listing.limit
      (.given (other.checksum library) offset) = none :=
    if_neg fun accepted => apart (alike_of_text (free accepted.1))
  rw [page, refused]
  rfl

theorem pagesExactly (library : StandardLibrary) (observe : FrozenDocument → Option ℤ)
    (listing : Listing) : PagesExactly library observe listing where
  whole _ walk := pages_whole walk rfl
  ends := by
    rintro ⟨cursors, follows⟩
    obtain ⟨start, -, far, near⟩ := follows_start follows listing.candidates.length
    omega
  complete observed := exists_pages observed listing.candidates.length rfl (by omega)
  rejects _ free apart := page_of_other free apart

/-- The candidates are the selected documents in path order, the day of a query is its local day up
to the cutoff, and the pages are the candidates. -/
structure ListsExactly (library : StandardLibrary) (observe : FrozenDocument → Option ℤ)
    (listing : Listing) (zone : Zone) (date : ℤ) : Prop where
  count : ∀ item, Selected listing.query.parameters item →
    listing.candidates.count item = listing.documents.count item
  only : ∀ item, ¬ Selected listing.query.parameters item → item ∉ listing.candidates
  ordered : listing.candidates.Pairwise fun first second => Skills.pathLe first.path second.path
  day : MatchesDay listing.query.parameters zone date
  pages : PagesExactly library observe listing

/-- **In a zone that never goes back to an earlier date, the selection is exact precisely where the
two midnights of the day are read as its ends.** -/
theorem listsExactly_iff (library : StandardLibrary) (observe : FrozenDocument → Option ℤ)
    (listing : Listing) {zone : Zone} (forward : zone.NeverBack) (date : ℤ) :
    ListsExactly library observe listing zone date ↔ DayRead zone date := by
  rw [← matchesDay_iff listing.query.parameters forward date]
  constructor
  · exact ListsExactly.day
  · intro day
    obtain ⟨count, only, ordered⟩ := candidates_exact listing.query.parameters listing.documents
    exact ⟨count, only, ordered, day, pagesExactly library observe listing⟩

/-! ## Two zones -/

/-- São Paulo, in microseconds from the UTC midnight of 4 November 2018: the clock was set forward
from the local midnight by an hour. -/
def saoPaulo : Zone where
  offset instant := if instant < 10800000000 then -10800000000 else -7200000000
  read time := if time < 3600000000 then time + 10800000000 else time + 7200000000
  bounded instant := by
    rw [dayLength]
    split_ifs <;> omega
  existing time instant shows := by
    split_ifs at * <;> omega
  missing time none := by
    refine ⟨10800000000, ?_⟩
    have before := none (time + 10800000000)
    have after := none (time + 7200000000)
    split_ifs at * <;> omega

theorem saoPaulo_forward : saoPaulo.NeverBack := by
  intro instant later le
  rw [Zone.localDate, Zone.localDate, Zone.wall_eq, Zone.wall_eq]
  refine Int.ediv_le_ediv (by decide) ?_
  simp only [saoPaulo]
  split_ifs <;> omega

theorem saoPaulo_read : DayRead saoPaulo 0 := by
  have here : saoPaulo.localDate 10800000000 = 0 := by decide
  have first : saoPaulo.First 0 10800000000 := ⟨by decide, by decide⟩
  have next : saoPaulo.First (0 + 1) 93600000000 := ⟨by decide, by decide⟩
  exact ⟨fun _ => ⟨(Zone.sharp_iff saoPaulo_forward first).mpr (by decide),
    (Zone.sharp_iff saoPaulo_forward next).mpr (by decide)⟩, fun none => absurd here (none _)⟩

theorem draft_named : ∀ path ∈ ["reports/drafts"], path ≠ "" := by decide

def reportParameters : Parameters :=
  ⟨"reports", true, [".pdf"], ["reports/drafts"], ["~"],
    some ("2018-11-04", "America/Sao_Paulo", "2018-11-05T12:00:00+00:00"), draft_named⟩

def report (id : Uuid) (folder name : String) : FrozenDocument :=
  ⟨id, folder, name, "application/pdf", 1, "sha256:"⟩

def reportDocuments : List FrozenDocument :=
  [ report 1 "reports" "a.pdf", report 2 "reports/2018" "b.PDF", report 3 "reports/2018/q4" "c.pdf"
  , report 4 "reports-old" "d.pdf", report 5 "reports/drafts" "e.pdf", report 6 "reports" "~f.pdf"
  , report 7 "reports" "g.txt" ]

theorem reports_frozen : ∀ document ∈ reportDocuments,
    document.documentId < 2 ^ 128 ∧ 0 ≤ document.size := by decide

theorem sample_ids : 1 < 2 ^ 128 ∧ 2 < 2 ^ 128 := by decide

theorem two_pos : 1 ≤ 2 := by decide

theorem two_le : 2 ≤ 50 := by decide

def reports : Listing where
  runId := 1
  projectId := 2
  query := .ofDay reportParameters saoPaulo 0 129600000000
  limit := 2
  documents := reportDocuments
  limit_pos := two_pos
  limit_le := two_le
  ids := sample_ids
  frozen := reports_frozen

/-- The first instants of the day and of the next one. -/
def reportModified (document : FrozenDocument) : Option ℤ :=
  some (if document.documentId = 1 then 93600000000 else 10800000000)

theorem listsExactly_reports :
    ListsExactly zeroLibrary reportModified reports saoPaulo 0 ∧
      Pages zeroLibrary reportModified reports .absent
        [[(report 2 "reports/2018" "b.PDF", true), (report 3 "reports/2018/q4" "c.pdf", true)],
          [(report 1 "reports" "a.pdf", false)]] :=
  ⟨(listsExactly_iff zeroLibrary reportModified reports saoPaulo_forward 0).mpr saoPaulo_read,
    .more rfl (.last rfl)⟩

/-- Toronto, in microseconds from the UTC midnight of 31 March 1919: half an hour before the local
midnight the clock was set forward by an hour. -/
def toronto : Zone where
  offset instant := if instant < 16200000000 then -18000000000 else -14400000000
  read time := if time < 1800000000 then time + 18000000000 else time + 14400000000
  bounded instant := by
    rw [dayLength]
    split_ifs <;> omega
  existing time instant shows := by
    split_ifs at * <;> omega
  missing time none := by
    refine ⟨16200000000, ?_⟩
    have before := none (time + 18000000000)
    have after := none (time + 14400000000)
    split_ifs at * <;> omega

theorem toronto_forward : toronto.NeverBack := by
  intro instant later le
  rw [Zone.localDate, Zone.localDate, Zone.wall_eq, Zone.wall_eq]
  refine Int.ediv_le_ediv (by decide) ?_
  simp only [toronto]
  split_ifs <;> omega

/-- **The half hour behind the gap is of the day, and is not accepted.** -/
theorem toronto_not_exact :
    toronto.NeverBack ∧ ¬ MatchesDay reportParameters toronto 0 := by
  refine ⟨toronto_forward, fun exact => ?_⟩
  have here := (exact 16200000000 16200000000).mpr ⟨by decide, le_rfl⟩
  have reads : toronto.read 0 = 18000000000 := by decide
  simp [DirectoryQuery.matchesTime, DirectoryQuery.ofDay, reads] at here

end SkillMind.Agent.DocumentListing
