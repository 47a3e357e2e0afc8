import SkillMind.Documents.Stored
import SkillMind.Library.Traced

/-!
# Conditional creation of objects

`create_once` sends one conditional PUT and decides from a GET whether the object of the command
is there; `lookup` only reads.  Whatever the server answers, the caller has to be told the truth:
a receipt, a conflict, or that the result is not known.

The server is any `Behaviour`: what it answers to the two requests, how a stream breaks off,
which authorizations are refused and how the client is closed.  The client may also raise what is
no `httpx.HTTPError`.  The parser of an error body is a parameter; it may raise its `ParseError` or
something else.
-/

namespace SkillMind.Storage

open Library SkillMind.Core
open Documents (EffectUploadSettings ObjectWriteCommand ObjectWriteReceipt StorageNamespace
  validArtifactRef validObjectEtag validObjectVersion taggedHash documentPath)
open Effects (uuidText)

/-! ## What a server can do -/

/-- The exceptions that `create_once` and `lookup` can end in. -/
inductive Raised where
  | httpError
  | osError
  | timeoutError
  | permissionError
  | valueError (message : String)
  | uncertain
  | conflict
  /-- An exception of the client that is no `httpx.HTTPError`. -/
  | client
  /-- An exception of the parser that is no `ParseError`. -/
  | parser
  deriving DecidableEq

inductive Failure where
  | http
  | os
  | timeout

def Failure.raised : Failure → Raised
  | .http => .httpError
  | .os => .osError
  | .timeout => .timeoutError

structure Response where
  status : Nat
  header : String → Option String
  chunks : List (List UInt8)
  /-- The stream may fail behind its chunks. -/
  broken : Option Failure

inductive Exchange where
  | failed (failure : Failure)
  /-- The client raises what is no `HTTPError`, as `InvalidURL` for the `Location` `mailto:x`. -/
  | raised
  | answered (response : Response)

/-- An authorization under the time limit is refused, or interrupted. -/
inductive Refusal where
  | permission
  | interrupted (failure : Failure)

def Refusal.raised : Refusal → Raised
  | .permission => .permissionError
  | .interrupted failure => failure.raised

/-- Everything that happens outside during one call. -/
structure Behaviour where
  /-- The first authorization, before anything is opened. -/
  admits : Bool
  refuses : Nat → Option Refusal
  date : String
  put : Exchange
  get : Exchange
  closing : Option Failure

structure Element where
  tag : String
  children : List (String × Option String)

/-- `ElementTree.fromstring`. -/
inductive Parsed where
  | element (root : Element)
  | parseError
  | raised

/-- The client, with the helper that signs and the parser that it uses. -/
structure ObjectWriteSource where
  endpoint : String
  host : String
  bucket : String
  storageNamespace : StorageNamespace
  /-- The `Authorization` header, unless it is no text. -/
  sign : String → String → List (String × String) → Option String
  fromstring : List UInt8 → Parsed

structure Request where
  method : String
  url : String
  headers : List (String × String)
  content : List UInt8

section Commands

variable (library : StandardLibrary) (contentHash : List UInt8 → HexDigest)

def logicalPath (command : ObjectWriteCommand) : String :=
  String.intercalate "/" (documentPath command.folder command.name)

/-- The object that `_checksum` hashes. -/
def checksumPayload (command : ObjectWriteCommand) : List (String × Json) :=
  [("protocol", .string s!"artifact-object-create/v{command.protocolVersion}"),
    ("effect_id", .string (uuidText command.effectId)),
    ("project_id", .string (uuidText command.projectId)),
    ("run_id", .string (uuidText command.runId)),
    ("artifact_ref", .string command.artifactRef),
    ("namespace_id", .string (uuidText command.storageNamespace.namespaceId)),
    ("descriptor_checksum", .string command.storageNamespace.descriptorChecksum),
    ("bucket", .string command.bucket), ("object_key", .string command.objectKey),
    ("content_type", .string command.contentType),
    ("size", .number (toString command.content.length)),
    ("content_checksum", .string (taggedHash contentHash command.content))] ++
  if command.protocolVersion = 2 then [("logical_path", .string (logicalPath command))] else []

/-- The checksums of the program; its other checks are those of the settings. -/
def objectSettings (settings : EffectUploadSettings) : EffectUploadSettings :=
  { settings with
    contentChecksum := taggedHash contentHash
    commandChecksum := fun command =>
      taggedSha256 library (canonicalJson (.object (checksumPayload contentHash command)))
    validChecksum := isTaggedSha256 }

end Commands

def originMetadata (settings : EffectUploadSettings) (command : ObjectWriteCommand) :
    List (String × String) :=
  [("skm-protocol", s!"artifact-object-create/v{command.protocolVersion}"),
    ("skm-effect-id", uuidText command.effectId),
    ("skm-request-checksum", command.requestChecksum),
    ("skm-content-checksum", settings.contentChecksum command.content)]

def upperHexDigit (value : Nat) : Char :=
  if value < 10 then Char.ofNat (0x30 + value) else Char.ofNat (0x37 + value)

def quote (safe : List Char) (text : String) : String :=
  String.ofList (text.toUTF8.toList.flatMap fun byte =>
    let c := Char.ofNat byte.toNat
    if byte < 0x80 ∧ (c.isAlphanum ∨ c ∈ ['_', '.', '-', '~'] ∨ c ∈ safe) then [c]
    else ['%', upperHexDigit (byte.toNat / 16), upperHexDigit (byte.toNat % 16)])

def maxErrorBytes : Nat := 8192

def readStream (limit : Nat) (broken : Option Failure) :
    List (List UInt8) → List UInt8 → Except Raised (List UInt8)
  | [], body =>
    match broken with
    | some failure => .error failure.raised
    | none => .ok body
  | chunk :: rest, body =>
    if limit < body.length + chunk.length then .error .uncertain
    else readStream limit broken rest (body ++ chunk)

def Exchange.received (maxBytes : Nat) : Exchange → Except Raised (Response × List UInt8)
  | .failed failure => .error failure.raised
  | .raised => .error .client
  | .answered response => do
    require ((response.header "Content-Encoding").getD "identity" = "identity") .uncertain
    let limit := if response.status = 200 then maxBytes else maxErrorBytes
    let body ← readStream limit response.broken response.chunks []
    return (response, body)

section Source

variable (settings : EffectUploadSettings) (source : ObjectWriteSource) (w : Behaviour)

def request (method : String) (command : ObjectWriteCommand) (headers : List (String × String))
    (maxBytes : Nat) (content : List UInt8) (versionId : Option String) (exchange : Exchange) :
    Traced Request Raised (Response × List UInt8) := do
  let url := source.endpoint ++ "/" ++ source.bucket ++ "/" ++ quote ['/'] command.objectKey ++
    (versionId.elim "" fun version => "?versionId=" ++ quote [] version)
  let signed := headers ++ [("Host", source.host), ("x-amz-date", w.date),
    ("x-amz-content-sha256",
      String.ofList ((settings.contentChecksum content).toList.drop "sha256:".length))]
  let authorization ← Traced.lift (orFault .uncertain (source.sign method url signed))
  Traced.after ⟨method, url, signed ++ [("Authorization", authorization)], content⟩
    (exchange.received maxBytes)

/-- `_etag`. -/
def etagOf (response : Response) : Except Raised String :=
  let etag := (response.header "ETag").getD ""
  if validObjectEtag etag = true then .ok etag else .error .uncertain

def namedVersion (response : Response) : Option String :=
  (response.header "x-amz-version-id").filter fun version => version != "null"

/-- `_version_id`. -/
def versionOf (response : Response) : Except Raised (Option String) :=
  if (namedVersion response).all validObjectVersion = true then .ok (namedVersion response)
  else .error .uncertain

/-! ## Error bodies -/

/-- `bytes.upper`. -/
def upperBytes (content : List UInt8) : List UInt8 :=
  content.map fun byte => if 0x61 ≤ byte ∧ byte ≤ 0x7a then byte - 0x20 else byte

def ascii (text : String) : List UInt8 := text.toList.map fun c => c.toNat.toUInt8

def contains (content : List UInt8) (fragment : String) : Bool :=
  content.tails.any (ascii fragment).isPrefixOf

/-- `rsplit("}", 1)[-1]`. -/
def localName (tag : String) : List Char := (tag.toList.reverse.takeWhile (· != '}')).reverse

/-- The texts of the `Code` elements. -/
def Element.codes (root : Element) : List (Option String) :=
  (root.children.filter fun child => localName child.1 == "Code".toList).map Prod.snd

def declares (content : List UInt8) : Bool :=
  contains (upperBytes content) "<!DOCTYPE" || contains (upperBytes content) "<!ENTITY"

def errorCode (content : List UInt8) : Except Raised (Option String) :=
  if declares content = true then .ok none
  else
    match source.fromstring content with
    | .parseError => .ok none
    | .raised => .error .parser
    | .element root =>
      if localName root.tag ≠ "Error".toList then .ok none
      else
        match root.codes with
        | [code] => .ok code
        | _ => .ok none

def missingCode (versionId : Option String) : String :=
  if versionId.isSome = true then "NoSuchVersion" else "NoSuchKey"

/-- The response and its body are of another object. -/
def differs (command : ObjectWriteCommand) (expectedEtag : Option String) (etag : String)
    (response : Response) (content : List UInt8) : Prop :=
  (∃ expected ∈ expectedEtag, etag ≠ expected) ∨
    response.header "Content-Type" ≠ some command.contentType ∨
    (∃ field ∈ originMetadata settings command,
      response.header ("x-amz-meta-" ++ field.1) ≠ some field.2) ∨
    content ≠ command.content

instance (command : ObjectWriteCommand) (expectedEtag : Option String) (etag : String)
    (response : Response) (content : List UInt8) :
    Decidable (differs settings command expectedEtag etag response content) := by
  unfold differs
  infer_instance

/-- What `_lookup` makes of the response to its GET. -/
def judge (command : ObjectWriteCommand) (versionId expectedEtag : Option String)
    (received : Response × List UInt8) : Except Raised (Option ObjectWriteReceipt) := do
  let (response, content) := received
  if response.status = 404 then
    let code ← errorCode source content
    require (code = some (missingCode versionId)) .uncertain
    return none
  else
    require (response.status = 200) .uncertain
    let actualVersion ← versionOf response
    let etag ← etagOf response
    require (∀ version ∈ versionId, actualVersion = some version) .uncertain
    require (¬ differs settings command expectedEtag etag response content) .conflict
    let receipt : ObjectWriteReceipt :=
      ⟨command.effectId, command.requestChecksum, command.objectKey,
        settings.contentChecksum command.content, content.length, command.contentType, etag,
        actualVersion⟩
    require (receipt.formed settings = true) (.valueError "Object receipt is invalid")
    return some receipt

/-- `_lookup`. -/
def lookupObject (command : ObjectWriteCommand) (versionId expectedEtag : Option String) :
    Traced Request Raised (Option ObjectWriteReceipt) := do
  let received ← request settings source w "GET" command [] command.content.length [] versionId
    w.get
  Traced.lift (judge settings source command versionId expectedEtag received)

/-! ## The two calls -/

/-- `_validate`. -/
def validateTarget (command : ObjectWriteCommand) : Except Raised Unit :=
  match command.validate settings with
  | .error fault => .error (.valueError fault.message)
  | .ok _ =>
    require (command.storageNamespace = source.storageNamespace ∧ command.bucket = source.bucket)
      (.valueError "Object effect storage namespace is unavailable")

/-- An authorization under the time limit. -/
def Behaviour.authorize (turn : Nat) : Except Raised Unit :=
  match w.refuses turn with
  | some refusal => .error refusal.raised
  | none => .ok ()

/-- The last clause of both calls. -/
def Raised.caught : Raised → Raised
  | .httpError | .osError | .timeoutError | .permissionError => .uncertain
  | raised => raised

/-- The client is closed, and what is known of the transport is not told. -/
def Behaviour.leave {α : Type} (result : Except Raised α) : Except Raised α :=
  match w.closing with
  | some failure => .error failure.raised.caught
  | none => result.mapError Raised.caught

/-- A conflict behind an acknowledged PUT is no conflict with another object. -/
def unlessWritten (status : Nat) (raised : Raised) : Raised :=
  if raised = .conflict ∧ status = 200 then .uncertain else raised

def putHeaders (command : ObjectWriteCommand) : List (String × String) :=
  [("If-None-Match", "*"), ("Content-Type", command.contentType)] ++
    (originMetadata settings command).map fun field => ("x-amz-meta-" ++ field.1, field.2)

/-- The entity tag and the version of an acknowledged PUT. -/
def written (response : Response) : Except Raised (Option String × Option String) := do
  require (response.status ∈ [200, 412]) .uncertain
  if response.status = 200 then
    let etag ← etagOf response
    let version ← versionOf response
    return (some etag, version)
  else return (none, none)

/-- What `create_once` does behind its PUT. -/
def confirm (command : ObjectWriteCommand) (response : Response) :
    Traced Request Raised ObjectWriteReceipt := do
  let validators ← Traced.lift (written response)
  Traced.lift (w.authorize 1)
  let found ← (lookupObject settings source w command validators.2 validators.1).andThen
    (Except.mapError (unlessWritten response.status))
  let receipt ← Traced.lift (orFault .uncertain found)
  Traced.lift (w.authorize 2)
  return receipt

def createOnce (command : ObjectWriteCommand) : Traced Request Raised ObjectWriteReceipt := do
  Traced.lift (validateTarget settings source command)
  Traced.lift (require (command.protocolVersion = 2)
    (.valueError "Legacy document objects are read-only"))
  Traced.lift (require (w.admits = true) .permissionError)
  Traced.andThen (do
    Traced.lift (w.authorize 0)
    let received ← request settings source w "PUT" command (putHeaders settings command)
      maxErrorBytes command.content none w.put
    confirm settings source w command received.1) w.leave

def lookup (command : ObjectWriteCommand) (versionId : Option String) :
    Traced Request Raised (Option ObjectWriteReceipt) := do
  Traced.lift (validateTarget settings source command)
  Traced.lift (require (w.admits = true) .permissionError)
  Traced.lift (require (versionId.all validObjectVersion = true) .uncertain)
  Traced.andThen (do
    let receipt ← lookupObject settings source w command versionId none
    Traced.lift (w.authorize 0)
    return receipt) w.leave

/-- The response shows the object of the command under the validators of the receipt. -/
structure Shows (command : ObjectWriteCommand) (response : Response)
    (receipt : ObjectWriteReceipt) : Prop where
  status : response.status = 200
  content : response.chunks.flatten = command.content
  contentType : response.header "Content-Type" = some command.contentType
  metadata : ∀ field ∈ originMetadata settings command,
    response.header ("x-amz-meta-" ++ field.1) = some field.2
  etag : response.header "ETag" = some receipt.etag
  version : namedVersion response = receipt.versionId
  identity : receipt.effectId = command.effectId ∧
    receipt.requestChecksum = command.requestChecksum ∧ receipt.objectKey = command.objectKey ∧
    receipt.contentChecksum = settings.contentChecksum command.content ∧
    receipt.size = command.content.length ∧ receipt.contentType = command.contentType

/-- The body is an error of the server with this one code. -/
def Marks (content : List UInt8) (code : String) : Prop :=
  ∃ root, source.fromstring content = .element root ∧ localName root.tag = "Error".toList ∧
    root.codes = [some code]

/-- `create_once` tells the truth about its write. -/
structure CreateTruthful (command : ObjectWriteCommand) : Prop where
  once : ((createOnce settings source w command).events.filter (·.method == "PUT")).length ≤ 1
  conditional : ∀ sent ∈ (createOnce settings source w command).events,
    sent.method = "PUT" → ("If-None-Match", "*") ∈ sent.headers
  receipt : ∀ receipt, (createOnce settings source w command).result = .ok receipt →
    ∃ response, w.get = .answered response ∧ Shows settings command response receipt ∧
      ∀ acknowledged, w.put = .answered acknowledged → acknowledged.status = 200 →
        acknowledged.header "ETag" = some receipt.etag ∧
          namedVersion acknowledged = receipt.versionId
  faults : ∀ raised, (createOnce settings source w command).result = .error raised →
    (∃ sent ∈ (createOnce settings source w command).events, sent.method = "PUT") →
      raised = .uncertain ∨
        raised = .conflict ∧ ∃ response, w.put = .answered response ∧ response.status = 412

/-- `lookup` tells the truth about what it reads. -/
structure LookupTruthful (command : ObjectWriteCommand) (versionId : Option String) : Prop where
  absent : (lookup settings source w command versionId).result = .ok none →
    ∃ response, w.get = .answered response ∧ response.status = 404 ∧
      Marks source response.chunks.flatten (missingCode versionId)
  receipt : ∀ receipt, (lookup settings source w command versionId).result = .ok (some receipt) →
    ∃ response, w.get = .answered response ∧ Shows settings command response receipt ∧
      ∀ version ∈ versionId, receipt.versionId = some version
  faults : ∀ raised, (lookup settings source w command versionId).result = .error raised →
    raised = .uncertain ∨ raised = .conflict ∨ raised = .permissionError

/-- What is read of the PUT. -/
def acknowledged (command : ObjectWriteCommand) : Except Raised (Response × List UInt8) :=
  (request settings source w "PUT" command (putHeaders settings command) maxErrorBytes
    command.content none w.put).result

/-- What is read of the GET. -/
def fetched (command : ObjectWriteCommand) (versionId : Option String) :
    Except Raised (Response × List UInt8) :=
  (request settings source w "GET" command [] command.content.length [] versionId w.get).result

/-- The GET is answered with 404 and a body at which the parser raises no `ParseError`. -/
def Undecipherable (command : ObjectWriteCommand) (versionId : Option String) : Prop :=
  ∃ response content, fetched settings source w command versionId = .ok (response, content) ∧
    response.status = 404 ∧ declares content = false ∧ source.fromstring content = .raised

/-- The GET ends in what no clause catches. -/
def Escapes (command : ObjectWriteCommand) (versionId : Option String) : Prop :=
  fetched settings source w command versionId = .error .client ∨
    Undecipherable settings source w command versionId

/-- The PUT ends in what no clause catches. -/
def PutEscapes (command : ObjectWriteCommand) : Prop :=
  command.protocolVersion = 2 ∧ w.admits = true ∧ w.authorize 0 = .ok () ∧
    acknowledged settings source w command = .error .client ∧ w.closing = none

/-- The GET shows the object of the command, with this entity tag, under a version. -/
def Versioned (command : ObjectWriteCommand) (etag : Option String) : Prop :=
  ∃ response content version found,
    fetched settings source w command none = .ok (response, content) ∧ response.status = 200 ∧
      versionOf response = .ok (some version) ∧ etagOf response = .ok found ∧
      ¬ differs settings command etag found response content

def ComesToGet (command : ObjectWriteCommand) (status : Nat) (etag version : Option String) :
    Prop :=
  command.protocolVersion = 2 ∧ w.admits = true ∧ w.authorize 0 = .ok () ∧
    (∃ response content, acknowledged settings source w command = .ok (response, content) ∧
      response.status = status ∧ written response = .ok (etag, version)) ∧
    w.authorize 1 = .ok () ∧ w.closing = none

/-! ## What each part ends in -/

variable {settings source w} {command : ObjectWriteCommand} {response : Response}

theorem readStream_ok {limit : Nat} {broken : Option Failure} {chunks : List (List UInt8)}
    {body content : List UInt8} (read : readStream limit broken chunks body = .ok content) :
    content = body ++ chunks.flatten := by
  induction chunks generalizing body with
  | nil =>
    cases broken with
    | none => rw [readStream, Except.ok.injEq] at read; simp [read]
    | some failure => cases read
  | cons chunk rest ih =>
    rw [readStream] at read
    split_ifs at read
    rw [ih read, List.flatten_cons, List.append_assoc]

theorem caught_failure (failure : Failure) : failure.raised.caught = .uncertain := by
  cases failure <;> rfl

theorem readStream_error {limit : Nat} {broken : Option Failure} {chunks : List (List UInt8)}
    {body : List UInt8} {raised : Raised}
    (read : readStream limit broken chunks body = .error raised) : raised.caught = .uncertain := by
  induction chunks generalizing body with
  | nil =>
    cases broken with
    | none => cases read
    | some failure => cases read; exact caught_failure failure
  | cons chunk rest ih =>
    rw [readStream] at read
    split_ifs at read with large
    · cases read; rfl
    · exact ih read

theorem received_ok {exchange : Exchange} {maxBytes : Nat} {content : List UInt8}
    (received : exchange.received maxBytes = .ok (response, content)) :
    exchange = .answered response ∧ content = response.chunks.flatten := by
  cases exchange with
  | failed failure => cases received
  | raised => cases received
  | answered answer =>
    simp only [Exchange.received, bind_eq_ok, pure_eq_ok, Prod.mk.injEq] at received
    obtain ⟨_, -, body, read, rfl, rfl⟩ := received
    exact ⟨rfl, readStream_ok read⟩

theorem received_error {exchange : Exchange} {maxBytes : Nat} {raised : Raised}
    (received : exchange.received maxBytes = .error raised) :
    raised.caught = .uncertain ∨ raised = .client := by
  cases exchange with
  | failed failure =>
    cases received
    exact .inl (caught_failure failure)
  | raised =>
    cases received
    exact .inr rfl
  | answered answer =>
    simp only [Exchange.received, bind_eq_error, require_eq_error] at received
    rcases received with ⟨-, rfl⟩ | ⟨_, -, read | ⟨_, -, done⟩⟩
    · exact .inl rfl
    · exact .inl (readStream_error read)
    · cases done

section Requests

variable {method : String} {headers : List (String × String)} {maxBytes : Nat}
  {body : List UInt8} {versionId : Option String} {exchange : Exchange}

theorem request_ok {received : Response × List UInt8}
    (done : (request settings source w method command headers maxBytes body versionId
      exchange).result = .ok received) : exchange.received maxBytes = .ok received := by
  simp only [request, Traced.result_bind, Traced.result_lift, Traced.result_after,
    bind_eq_ok] at done
  exact done.choose_spec.2

theorem request_error {raised : Raised}
    (failed : (request settings source w method command headers maxBytes body versionId
      exchange).result = .error raised) : raised.caught = .uncertain ∨ raised = .client := by
  simp only [request, Traced.result_bind, Traced.result_lift, Traced.result_after,
    bind_eq_error, orFault_eq_error] at failed
  rcases failed with ⟨-, rfl⟩ | ⟨_, -, received⟩
  · exact .inl rfl
  · exact received_error received

variable (settings source w command method headers maxBytes body versionId exchange) in
theorem request_events :
    ((request settings source w method command headers maxBytes body versionId exchange).events =
        [] ∧
      (request settings source w method command headers maxBytes body versionId exchange).result =
        .error .uncertain) ∨
      ∃ sent : Request, sent.method = method ∧ headers ⊆ sent.headers ∧
        (request settings source w method command headers maxBytes body versionId
          exchange).events = [sent] := by
  rw [request]
  generalize source.sign _ _ _ = signature
  cases signature with
  | none => exact .inl ⟨rfl, rfl⟩
  | some authorization =>
    refine .inr ⟨_, rfl, ?_, rfl⟩
    exact List.subset_append_of_subset_left _ (List.subset_append_left ..)

end Requests

theorem etagOf_ok {etag : String} :
    etagOf response = .ok etag ↔
      response.header "ETag" = some etag ∧ validObjectEtag etag = true := by
  have empty : validObjectEtag "" = false := rfl
  rw [etagOf]
  cases response.header "ETag" with
  | none => simp [empty]
  | some found =>
    rw [Option.getD_some, Option.some.injEq]
    constructor
    · intro read
      split_ifs at read with valid
      exact ⟨Except.ok.inj read, Except.ok.inj read ▸ valid⟩
    · rintro ⟨rfl, valid⟩
      exact if_pos valid

theorem etagOf_error {raised : Raised} (failed : etagOf response = .error raised) :
    raised = .uncertain := by
  rw [etagOf] at failed
  split_ifs at failed
  exact (Except.error.inj failed).symm

theorem versionOf_ok {version : Option String} :
    versionOf response = .ok version ↔
      namedVersion response = version ∧ version.all validObjectVersion = true := by
  rw [versionOf]
  split_ifs with valid
  · rw [Except.ok.injEq]
    constructor
    · rintro rfl; exact ⟨rfl, valid⟩
    · exact And.left
  · simp only [false_iff, not_and]
    rintro rfl
    exact valid

theorem versionOf_error {raised : Raised} (failed : versionOf response = .error raised) :
    raised = .uncertain := by
  rw [versionOf] at failed
  split_ifs at failed
  exact (Except.error.inj failed).symm

theorem errorCode_some {content : List UInt8} {code : String}
    (read : errorCode source content = .ok (some code)) : Marks source content code := by
  rw [errorCode] at read
  split_ifs at read with declared
  · cases read
  · cases parsed : source.fromstring content with
  | parseError => simp [parsed] at read
  | raised => simp [parsed] at read
  | element root =>
    rw [parsed] at read
    simp only at read
    by_cases named : localName root.tag ≠ "Error".toList
    · rw [if_pos named] at read
      cases read
    · rw [if_neg named] at read
      refine ⟨root, parsed, not_not.mp named, ?_⟩
      split at read
      · next codes => rw [codes, Except.ok.inj read]
      · cases read

theorem errorCode_error {content : List UInt8} {raised : Raised} :
    errorCode source content = .error raised ↔
      declares content = false ∧ source.fromstring content = .raised ∧ raised = .parser := by
  rw [errorCode]
  cases declared : declares content with
  | true => simp
  | false =>
    cases parsed : source.fromstring content with
    | parseError => simp
    | raised => simp [eq_comm]
    | element root =>
      simp only [Bool.false_eq_true, if_false, reduceCtorEq, false_and, and_false, iff_false]
      split_ifs
      · simp
      · split <;> simp

/-! ## The judgement of a GET -/

section Judgement

variable {versionId expectedEtag : Option String} {content : List UInt8}

theorem judge_none
    (judged : judge settings source command versionId expectedEtag (response, content) = .ok none) :
    response.status = 404 ∧ Marks source content (missingCode versionId) := by
  rw [judge] at judged
  split_ifs at judged with missing
  · simp only [bind_eq_ok, require_eq_ok] at judged
    obtain ⟨code, read, _, rfl, -⟩ := judged
    exact ⟨missing, errorCode_some read⟩
  · simp [pure, Except.pure] at judged

theorem judge_some {receipt : ObjectWriteReceipt}
    (judged : judge settings source command versionId expectedEtag (response, content) =
      .ok (some receipt)) (whole : content = response.chunks.flatten) :
    Shows settings command response receipt ∧
      (∀ version ∈ versionId, receipt.versionId = some version) ∧
      ∀ etag ∈ expectedEtag, etag = receipt.etag := by
  rw [judge] at judged
  split_ifs at judged with missing
  · simp [pure, Except.pure] at judged
  · simp only [bind_eq_ok, require_eq_ok, pure_eq_ok, Option.some.injEq] at judged
    obtain ⟨_, found, version, named, etag, tagged, _, asked, _, same, _, -, rfl⟩ := judged
    simp only [differs, not_or, not_exists, not_and, not_not] at same
    obtain ⟨expected, type, metadata, bytes⟩ := same
    refine ⟨⟨found, whole ▸ bytes, type, metadata, (etagOf_ok.mp tagged).1,
      (versionOf_ok.mp named).1, rfl, rfl, rfl, rfl, ?_, rfl⟩, asked, fun etag' among => ?_⟩
    · rw [bytes]
    · exact (expected etag' among).symm

variable (settings command) in
def Builds : Prop :=
  ∀ etag version, validObjectEtag etag = true → version.all validObjectVersion = true →
    ObjectWriteReceipt.formed settings
      ⟨command.effectId, command.requestChecksum, command.objectKey,
        settings.contentChecksum command.content, command.content.length, command.contentType,
        etag, version⟩ = true

theorem builds_of_validate {settings : EffectUploadSettings} {library : StandardLibrary}
    {contentHash : List UInt8 → HexDigest}
    (valid : command.validate (objectSettings library contentHash settings) = .ok ()) :
    Builds (objectSettings library contentHash settings) command := by
  intro etag version tagged named
  simp only [ObjectWriteCommand.validate, bind_eq_ok, require_eq_ok] at valid
  obtain ⟨_, ⟨effect, -, -, -, size, type, -⟩, _, key, _, -, _, -, _, -, _, -, checksum⟩ := valid
  have request : isTaggedSha256 command.requestChecksum = true :=
    checksum ▸ isTaggedSha256_tagged library _
  simp only [ObjectWriteReceipt.formed, Bool.and_eq_true, decide_eq_true_eq]
  exact ⟨⟨⟨⟨⟨⟨⟨⟨effect, Int.natCast_nonneg _⟩, Int.ofNat_le.mpr size⟩, type⟩, request⟩,
    Documents.isTaggedSha256_taggedHash contentHash command.content⟩, tagged⟩, named⟩, key⟩

theorem judge_error {raised : Raised} (builds : Builds settings command)
    (judged : judge settings source command versionId expectedEtag (response, content) =
      .error raised) :
    raised = .uncertain ∨ raised = .conflict ∨
      raised = .parser ∧ response.status = 404 ∧ declares content = false ∧
        source.fromstring content = .raised := by
  rw [judge] at judged
  split_ifs at judged with missing
  · simp only [bind_eq_error, require_eq_error] at judged
    rcases judged with failed | ⟨code, -, ⟨-, rfl⟩ | ⟨_, -, done⟩⟩
    · obtain ⟨plain, parsed, rfl⟩ := errorCode_error.mp failed
      exact .inr (.inr ⟨rfl, missing, plain, parsed⟩)
    · exact .inl rfl
    · cases done
  · simp only [bind_eq_error, require_eq_error, require_eq_ok] at judged
    rcases judged with ⟨-, rfl⟩ | ⟨_, -, failed | ⟨version, named, failed | ⟨etag, tagged,
      ⟨-, rfl⟩ | ⟨_, -, ⟨-, rfl⟩ | ⟨_, same, ⟨malformed, -⟩ | ⟨_, -, done⟩⟩⟩⟩⟩⟩
    · exact .inl rfl
    · exact .inl (versionOf_error failed)
    · exact .inl (etagOf_error failed)
    · exact .inl rfl
    · exact .inr (.inl rfl)
    · have bytes : content = command.content := by
        by_contra other
        exact same (.inr (.inr (.inr other)))
      rw [bytes] at malformed
      exact absurd (builds etag version (etagOf_ok.mp tagged).2 (versionOf_ok.mp named).2) malformed
    · cases done

theorem judge_undecipherable (missing : response.status = 404) (plain : declares content = false)
    (parsed : source.fromstring content = .raised) :
    judge settings source command versionId expectedEtag (response, content) = .error .parser := by
  rw [judge, if_pos missing, errorCode_error.mpr ⟨plain, parsed, rfl⟩]
  rfl

theorem judge_versioned {etag version : String} (builds : Builds settings command)
    (found : response.status = 200) (named : versionOf response = .ok (some version))
    (tagged : etagOf response = .ok etag)
    (same : ¬ differs settings command expectedEtag etag response content) :
    ∃ receipt : ObjectWriteReceipt, receipt.versionId = some version ∧
      judge settings source command none expectedEtag (response, content) = .ok (some receipt) := by
  have bytes : content = command.content := by
    by_contra other
    exact same (.inr (.inr (.inr other)))
  have formed := builds etag (some version) (etagOf_ok.mp tagged).2 (versionOf_ok.mp named).2
  refine ⟨⟨command.effectId, command.requestChecksum, command.objectKey,
    settings.contentChecksum command.content, content.length, command.contentType, etag,
    some version⟩, rfl, ?_⟩
  rw [judge, if_neg (by rw [found]; decide)]
  simp only [bind_eq_ok, require_eq_ok, pure_eq_ok]
  exact ⟨(), found, some version, named, etag, tagged, (), by simp, (), same, (),
    by rw [bytes]; exact formed, rfl⟩

end Judgement

section Lookups

variable {versionId expectedEtag : Option String}

theorem lookupObject_result :
    (lookupObject settings source w command versionId expectedEtag).result =
      fetched settings source w command versionId >>=
        judge settings source command versionId expectedEtag := by
  rw [lookupObject, Traced.result_bind]
  rfl

theorem fetched_ok {content : List UInt8}
    (fetch : fetched settings source w command versionId = .ok (response, content)) :
    w.get = .answered response ∧ content = response.chunks.flatten :=
  received_ok (request_ok fetch)

theorem lookupObject_error {raised : Raised} (builds : Builds settings command)
    (failed : (lookupObject settings source w command versionId expectedEtag).result =
      .error raised) :
    raised.caught = .uncertain ∨ raised = .conflict ∨
      Escapes settings source w command versionId := by
  rw [lookupObject_result, bind_eq_error] at failed
  rcases failed with failed | ⟨⟨response, content⟩, fetch, judged⟩
  · rcases request_error failed with caught | rfl
    · exact .inl caught
    · exact .inr (.inr (.inl failed))
  · rcases judge_error builds judged with rfl | rfl | ⟨rfl, missing, plain, parsed⟩
    · exact .inl rfl
    · exact .inr (.inl rfl)
    · exact .inr (.inr (.inr ⟨response, content, fetch, missing, plain, parsed⟩))

/-- The exceptions that no clause catches. -/
def Raised.Uncaught (raised : Raised) : Prop := raised = .client ∨ raised = .parser

theorem lookupObject_escapes (expectedEtag : Option String)
    (escapes : Escapes settings source w command versionId) :
    ∃ raised : Raised, raised.Uncaught ∧
      (lookupObject settings source w command versionId expectedEtag).result = .error raised := by
  rcases escapes with failed | ⟨response, content, fetch, missing, plain, parsed⟩
  · refine ⟨.client, .inl rfl, ?_⟩
    rw [lookupObject_result, failed]
    rfl
  · refine ⟨.parser, .inr rfl, ?_⟩
    rw [lookupObject_result, bind_eq_error]
    exact .inr ⟨(response, content), fetch, judge_undecipherable missing plain parsed⟩

theorem lookupObject_some {receipt : ObjectWriteReceipt}
    (found : (lookupObject settings source w command versionId expectedEtag).result =
      .ok (some receipt)) :
    ∃ response, w.get = .answered response ∧ Shows settings command response receipt ∧
      (∀ version ∈ versionId, receipt.versionId = some version) ∧
      ∀ etag ∈ expectedEtag, etag = receipt.etag := by
  rw [lookupObject_result, bind_eq_ok] at found
  obtain ⟨⟨response, content⟩, fetch, judged⟩ := found
  obtain ⟨answered, whole⟩ := fetched_ok fetch
  exact ⟨response, answered, judge_some judged whole⟩

end Lookups

theorem leave_ok {α : Type} {result : Except Raised α} {value : α} :
    w.leave result = .ok value ↔ w.closing = none ∧ result = .ok value := by
  rw [Behaviour.leave]
  cases w.closing with
  | some failure => simp
  | none => cases result <;> simp [Except.mapError]

theorem leave_error {α : Type} {result : Except Raised α} {raised : Raised}
    (left : w.leave result = .error raised) :
    raised = .uncertain ∨
      w.closing = none ∧ ∃ inner : Raised, result = .error inner ∧ inner.caught = raised := by
  rw [Behaviour.leave] at left
  cases closed : w.closing with
  | some failure =>
    rw [closed] at left
    exact .inl ((Except.error.inj left).symm.trans (caught_failure failure))
  | none =>
    rw [closed] at left
    cases result with
    | ok value => cases left
    | error inner => exact .inr ⟨rfl, inner, rfl, Except.error.inj left⟩

theorem authorize_error {turn : Nat} {raised : Raised}
    (refused : w.authorize turn = .error raised) : raised.caught = .uncertain := by
  rw [Behaviour.authorize] at refused
  cases refusal : w.refuses turn with
  | none => rw [refusal] at refused; cases refused
  | some refusal' =>
    rw [refusal] at refused
    cases refusal' with
    | permission => cases refused; rfl
    | interrupted failure => cases refused; exact caught_failure failure

theorem lookup_result {versionId : Option String}
    (valid : validateTarget settings source command = .ok ()) :
    (lookup settings source w command versionId).result =
      (do
        require (w.admits = true) .permissionError
        require (versionId.all validObjectVersion = true) .uncertain
        w.leave (do
          let receipt ← (lookupObject settings source w command versionId none).result
          w.authorize 0
          return receipt)) := by
  simp only [lookup, Traced.result_bind, Traced.result_lift, Traced.result_andThen,
    Traced.result_pure, valid]
  rfl

theorem lookupTruthful_iff {versionId : Option String} (builds : Builds settings command)
    (valid : validateTarget settings source command = .ok ()) :
    LookupTruthful settings source w command versionId ↔
      ¬ (w.admits = true ∧ versionId.all validObjectVersion = true ∧ w.closing = none ∧
        Escapes settings source w command versionId) := by
  constructor
  · rintro truthful ⟨admitted, version, closed, escapes⟩
    obtain ⟨raised, uncaught, ended⟩ := lookupObject_escapes none escapes
    have raises : (lookup settings source w command versionId).result = .error raised := by
      rw [lookup_result valid, ended, require_pos admitted, require_pos version, Behaviour.leave,
        closed]
      rcases uncaught with rfl | rfl <;> rfl
    rcases uncaught with rfl | rfl <;> rcases truthful.faults _ raises with same | same | same <;>
      cases same
  · intro caught
    refine ⟨fun missing => ?_, fun receipt found => ?_, fun raised failed => ?_⟩
    · rw [lookup_result valid] at missing
      simp only [bind_eq_ok, require_eq_ok, leave_ok, pure_eq_ok] at missing
      obtain ⟨_, -, _, -, -, _, absent, _, -, rfl⟩ := missing
      rw [lookupObject_result, bind_eq_ok] at absent
      obtain ⟨⟨response, content⟩, fetch, judged⟩ := absent
      obtain ⟨answered, rfl⟩ := fetched_ok fetch
      exact ⟨response, answered, judge_none judged⟩
    · rw [lookup_result valid] at found
      simp only [bind_eq_ok, require_eq_ok, leave_ok, pure_eq_ok] at found
      obtain ⟨_, -, _, -, -, _, found, _, -, rfl⟩ := found
      obtain ⟨response, answered, shown, asked, -⟩ := lookupObject_some found
      exact ⟨response, answered, shown, asked⟩
    · rw [lookup_result valid] at failed
      simp only [bind_eq_error, require_eq_error, require_eq_ok] at failed
      rcases failed with ⟨-, rfl⟩ | ⟨_, admitted, ⟨-, rfl⟩ | ⟨_, version, left⟩⟩
      · exact .inr (.inr rfl)
      · exact .inl rfl
      · rcases leave_error left with rfl | ⟨closed, inner, ended, rfl⟩
        · exact .inl rfl
        · simp only [bind_eq_error] at ended
          rcases ended with raised | ⟨_, -, refused | ⟨_, -, done⟩⟩
          · rcases lookupObject_error builds raised with uncertain | rfl | escapes
            · exact .inl uncertain
            · exact .inr (.inl rfl)
            · exact absurd ⟨admitted, version, closed, escapes⟩ caught
          · exact .inl (authorize_error refused)
          · cases done

/-! ## A creation -/

theorem confirm_result :
    (confirm settings source w command response).result =
      (do
        let validators ← written response
        w.authorize 1
        let found ←
          (lookupObject settings source w command validators.2 validators.1).result.mapError
            (unlessWritten response.status)
        let receipt ← orFault .uncertain found
        w.authorize 2
        return receipt) := by
  simp only [confirm, Traced.result_bind, Traced.result_lift, Traced.result_andThen,
    Traced.result_pure]
  rfl

theorem createOnce_result (valid : validateTarget settings source command = .ok ()) :
    (createOnce settings source w command).result =
      (do
        require (command.protocolVersion = 2) (.valueError "Legacy document objects are read-only")
        require (w.admits = true) .permissionError
        w.leave (do
          w.authorize 0
          let received ← acknowledged settings source w command
          (confirm settings source w command received.1).result)) := by
  simp only [createOnce, Traced.result_bind, Traced.result_lift, Traced.result_andThen, valid]
  rfl

theorem mapError_eq_ok {α : Type} {result : Except Raised α} {handle : Raised → Raised}
    {value : α} : result.mapError handle = .ok value ↔ result = .ok value := by
  cases result <;> simp [Except.mapError]

theorem mapError_eq_error {α : Type} {result : Except Raised α} {handle : Raised → Raised}
    {raised : Raised} :
    result.mapError handle = .error raised ↔ ∃ inner, result = .error inner ∧
      handle inner = raised := by
  cases result <;> simp [Except.mapError]

theorem written_ok {etag version : Option String} (done : written response = .ok (etag, version)) :
    (response.status = 200 ∧ response.header "ETag" = etag ∧ etag.isSome = true ∧
        namedVersion response = version) ∨
      (response.status = 412 ∧ etag = none ∧ version = none) := by
  simp only [written, bind_eq_ok, require_eq_ok, List.mem_cons, List.not_mem_nil, or_false] at done
  obtain ⟨_, status, done⟩ := done
  split_ifs at done with created
  · simp only [bind_eq_ok, pure_eq_ok, Prod.mk.injEq] at done
    obtain ⟨found, tagged, named, versioned, rfl, rfl⟩ := done
    exact .inl ⟨created, (etagOf_ok.mp tagged).1, rfl, (versionOf_ok.mp versioned).1⟩
  · rw [pure_eq_ok, Prod.mk.injEq] at done
    exact .inr ⟨status.resolve_left created, done.1.symm, done.2.symm⟩

theorem written_error {raised : Raised} (failed : written response = .error raised) :
    raised = .uncertain := by
  simp only [written, bind_eq_error, require_eq_error, require_eq_ok] at failed
  rcases failed with ⟨-, rfl⟩ | ⟨_, -, failed⟩
  · rfl
  · split_ifs at failed
    · simp only [bind_eq_error] at failed
      rcases failed with failed | ⟨etag, -, failed | ⟨version, -, done⟩⟩
      · exact etagOf_error failed
      · exact versionOf_error failed
      · cases done
    · cases failed

theorem confirm_error {raised : Raised} (builds : Builds settings command)
    (failed : (confirm settings source w command response).result = .error raised) :
    raised.caught = .uncertain ∨ (raised = .conflict ∧ response.status = 412) ∨
      ∃ etag version, written response = .ok (etag, version) ∧ w.authorize 1 = .ok () ∧
        Escapes settings source w command version := by
  rw [confirm_result] at failed
  simp only [bind_eq_error, orFault_eq_error] at failed
  rcases failed with failed | ⟨⟨etag, version⟩, done, refused | ⟨⟨⟩, authorized, failed |
    ⟨found, -, ⟨-, rfl⟩ | ⟨receipt, -, refused | ⟨_, -, returned⟩⟩⟩⟩⟩
  · rw [written_error failed]
    exact .inl rfl
  · exact .inl (authorize_error refused)
  · obtain ⟨inner, ended, rfl⟩ := mapError_eq_error.mp failed
    rcases lookupObject_error builds ended with caught | rfl | escapes
    · rw [unlessWritten]
      split_ifs
      · exact .inl rfl
      · exact .inl caught
    · rcases written_ok done with ⟨created, -⟩ | ⟨conditional, -⟩
      · rw [unlessWritten, if_pos ⟨rfl, created⟩]
        exact .inl rfl
      · rw [unlessWritten, if_neg (by rw [conditional]; decide)]
        exact .inr (.inl ⟨rfl, conditional⟩)
    · exact .inr (.inr ⟨etag, version, done, authorized, escapes⟩)
  · exact .inl rfl
  · exact .inl (authorize_error refused)
  · cases returned

theorem confirm_escapes {etag version : Option String}
    (done : written response = .ok (etag, version)) (authorized : w.authorize 1 = .ok ())
    (escapes : Escapes settings source w command version) :
    ∃ raised : Raised, raised.Uncaught ∧
      (confirm settings source w command response).result = .error raised := by
  obtain ⟨raised, uncaught, ended⟩ := lookupObject_escapes etag escapes
  refine ⟨raised, uncaught, ?_⟩
  rw [confirm_result, done, bind_eq_error]
  refine .inr ⟨_, rfl, ?_⟩
  rw [authorized, ended]
  rcases uncaught with rfl | rfl <;> rfl

theorem createOnce_ok {receipt : ObjectWriteReceipt}
    (valid : validateTarget settings source command = .ok ())
    (created : (createOnce settings source w command).result = .ok receipt) :
    ∃ response etag version, ComesToGet settings source w command response.status etag version ∧
      w.put = .answered response ∧ written response = .ok (etag, version) ∧
      w.authorize 2 = .ok () ∧
      (lookupObject settings source w command version etag).result = .ok (some receipt) := by
  rw [createOnce_result valid] at created
  simp only [bind_eq_ok, require_eq_ok, leave_ok] at created
  obtain ⟨_, current, _, admitted, closed, ⟨⟩, first, ⟨response, content⟩, sent, confirmed⟩ :=
    created
  rw [confirm_result] at confirmed
  simp only [bind_eq_ok, orFault_eq_ok, mapError_eq_ok, pure_eq_ok] at confirmed
  obtain ⟨⟨etag, version⟩, done, ⟨⟩, second, found, looked, _, rfl, ⟨⟩, third, rfl⟩ := confirmed
  exact ⟨response, etag, version,
    ⟨current, admitted, first, ⟨response, content, sent, rfl, done⟩, second, closed⟩,
    (received_ok (request_ok sent)).1, done, third, looked⟩

theorem createOnce_of_comesToGet {status : Nat} {etag version : Option String}
    (valid : validateTarget settings source command = .ok ())
    (comes : ComesToGet settings source w command status etag version) :
    ∃ response, w.put = .answered response ∧ response.status = status ∧
      written response = .ok (etag, version) ∧
      (createOnce settings source w command).result =
        (confirm settings source w command response).result.mapError Raised.caught := by
  obtain ⟨current, admitted, first, ⟨response, content, sent, rfl, done⟩, -, closed⟩ := comes
  refine ⟨response, (received_ok (request_ok sent)).1, rfl, done, ?_⟩
  rw [createOnce_result valid, first, sent, require_pos current, require_pos admitted,
    Behaviour.leave, closed]
  rfl

theorem createOnce_versioned {status : Nat} {etag : Option String}
    (builds : Builds settings command) (valid : validateTarget settings source command = .ok ())
    (comes : ComesToGet settings source w command status etag none)
    (authorized : w.authorize 2 = .ok ())
    (versioned : Versioned settings source w command etag) :
    ∃ receipt : ObjectWriteReceipt, receipt.versionId.isSome = true ∧
      (createOnce settings source w command).result = .ok receipt := by
  obtain ⟨response, content, version, found, fetch, status, named, tagged, same⟩ := versioned
  obtain ⟨receipt, under, judged⟩ : ∃ receipt : ObjectWriteReceipt,
      receipt.versionId = some version ∧ judge settings source command none etag
        (response, content) = .ok (some receipt) := judge_versioned builds status named tagged same
  obtain ⟨acknowledged, -, -, done, ends⟩ := createOnce_of_comesToGet valid comes
  refine ⟨receipt, by rw [under]; rfl, ?_⟩
  have looked : (lookupObject settings source w command none etag).result = .ok (some receipt) := by
    rw [lookupObject_result, bind_eq_ok]
    exact ⟨_, fetch, judged⟩
  rw [ends, mapError_eq_ok, confirm_result]
  simp only [bind_eq_ok, orFault_eq_ok, mapError_eq_ok, pure_eq_ok]
  exact ⟨(etag, none), done, (), comes.2.2.2.2.1, some receipt, looked, receipt, rfl, (),
    authorized, rfl⟩

theorem versioned_of_lookupObject {receipt : ObjectWriteReceipt} {etag : Option String}
    (looked : (lookupObject settings source w command none etag).result = .ok (some receipt))
    (under : receipt.versionId.isSome = true) : Versioned settings source w command etag := by
  rw [lookupObject_result, bind_eq_ok] at looked
  obtain ⟨⟨response, content⟩, fetch, judged⟩ := looked
  rw [judge] at judged
  split_ifs at judged
  · simp [pure, Except.pure] at judged
  · simp only [bind_eq_ok, require_eq_ok, pure_eq_ok, Option.some.injEq] at judged
    obtain ⟨_, status, version, named, found, tagged, _, -, _, same, _, -, rfl⟩ := judged
    obtain ⟨version, rfl⟩ := Option.isSome_iff_exists.mp under
    exact ⟨response, content, version, found, fetch, status, named, tagged, same⟩

theorem confirm_events :
    ∀ sent ∈ (confirm settings source w command response).events, sent.method = "GET" := by
  refine Traced.forall_events_bind (fun _ none => by cases none) fun validators _ => ?_
  refine Traced.forall_events_bind (fun _ none => by cases none) fun _ _ => ?_
  refine Traced.forall_events_bind ?_ fun found _ => ?_
  · refine Traced.forall_events_bind ?_ fun _ _ _ none => by cases none
    intro sent among
    rcases request_events settings source w command "GET" [] command.content.length []
        validators.2 w.get with ⟨none, -⟩ | ⟨request, method, -, same⟩
    · rw [none] at among
      cases among
    · rw [same, List.mem_singleton] at among
      exact among ▸ method
  · refine Traced.forall_events_bind (fun _ none => by cases none) fun _ _ => ?_
    exact Traced.forall_events_bind (fun _ none => by cases none) fun _ _ _ none => by cases none

variable (settings source w command) in
theorem createOnce_events :
    (createOnce settings source w command).events = [] ∨
      (command.protocolVersion = 2 ∧ w.admits = true) ∧
        ∃ (sent : Request) (reads : List Request), sent.method = "PUT" ∧
          ("If-None-Match", "*") ∈ sent.headers ∧ (∀ read ∈ reads, read.method = "GET") ∧
          (createOnce settings source w command).events = sent :: reads := by
  rw [createOnce]
  rcases Traced.events_lift_bind with none | ⟨_, -, same⟩
  · exact .inl none
  rw [same]
  rcases Traced.events_lift_bind with none | ⟨_, current, same⟩
  · exact .inl none
  rw [same]
  rcases Traced.events_lift_bind with none | ⟨_, admitted, same⟩
  · exact .inl none
  rw [same, Traced.events_andThen]
  rcases Traced.events_lift_bind with none | ⟨_, -, same⟩
  · exact .inl none
  rw [same]
  have checked := And.intro (require_eq_ok.mp current) (require_eq_ok.mp admitted)
  rcases Traced.events_bind (request settings source w "PUT" command (putHeaders settings command)
      maxErrorBytes command.content none w.put)
    (fun received => confirm settings source w command received.1)
    with alone | ⟨received, answered, followed⟩
  · rw [alone]
    rcases request_events settings source w command "PUT" (putHeaders settings command)
        maxErrorBytes command.content none w.put with ⟨none, -⟩ | ⟨sent, method, headers, one⟩
    · exact .inl none
    · exact .inr ⟨checked, sent, [], method, headers (List.mem_cons_self ..),
        fun _ none => (by cases none), one⟩
  · rw [followed]
    rcases request_events settings source w command "PUT" (putHeaders settings command)
        maxErrorBytes command.content none w.put with ⟨-, failed⟩ | ⟨sent, method, headers, one⟩
    · rw [failed] at answered
      cases answered
    · exact .inr ⟨checked, sent, _, method, headers (List.mem_cons_self ..), confirm_events,
        by rw [one]; rfl⟩

theorem put_sent (valid : validateTarget settings source command = .ok ())
    (current : command.protocolVersion = 2) (admitted : w.admits = true)
    (first : w.authorize 0 = .ok ())
    (answered : acknowledged settings source w command ≠ .error .uncertain) :
    ∃ sent ∈ (createOnce settings source w command).events, sent.method = "PUT" := by
  rw [createOnce, valid, Traced.events_ok_bind, require_pos current, Traced.events_ok_bind,
    require_pos admitted, Traced.events_ok_bind, Traced.events_andThen, first,
    Traced.events_ok_bind]
  rcases request_events settings source w command "PUT" (putHeaders settings command)
      maxErrorBytes command.content none w.put with ⟨-, failed⟩ | ⟨sent, method, -, one⟩
  · exact absurd failed answered
  · refine ⟨sent, ?_, method⟩
    rcases Traced.events_bind _ _ with same | ⟨_, -, same⟩
    · rw [same, one]
      exact List.mem_singleton_self sent
    · rw [same, one]
      exact List.mem_cons_self ..

theorem put_sent_of_comesToGet {status : Nat} {etag version : Option String}
    (valid : validateTarget settings source command = .ok ())
    (comes : ComesToGet settings source w command status etag version) :
    ∃ sent ∈ (createOnce settings source w command).events, sent.method = "PUT" := by
  obtain ⟨current, admitted, first, ⟨response, content, answered, -⟩, -⟩ := comes
  exact put_sent valid current admitted first (by rw [answered]; exact nofun)

theorem createOnce_of_putEscapes (valid : validateTarget settings source command = .ok ())
    (escapes : PutEscapes settings source w command) :
    (createOnce settings source w command).result = .error .client ∧
      ∃ sent ∈ (createOnce settings source w command).events, sent.method = "PUT" := by
  obtain ⟨current, admitted, first, raised, closed⟩ := escapes
  refine ⟨?_, put_sent valid current admitted first (by rw [raised]; exact nofun)⟩
  rw [createOnce_result valid, first, raised, require_pos current, require_pos admitted,
    Behaviour.leave, closed]
  rfl

theorem createTruthful_iff (builds : Builds settings command)
    (valid : validateTarget settings source command = .ok ()) :
    CreateTruthful settings source w command ↔
      ¬ PutEscapes settings source w command ∧
        ∀ status etag version, ComesToGet settings source w command status etag version →
          ¬ Escapes settings source w command version ∧
            ¬ (status = 200 ∧ version = none ∧ w.authorize 2 = .ok () ∧
              Versioned settings source w command etag) := by
  constructor
  · intro truthful
    refine ⟨fun escapes => ?_, fun status etag version comes => ?_⟩
    · obtain ⟨raised, sent⟩ := createOnce_of_putEscapes valid escapes
      rcases truthful.faults _ raised sent with same | ⟨same, -⟩ <;> cases same
    obtain ⟨response, answered, found, done, ends⟩ := createOnce_of_comesToGet valid comes
    refine ⟨fun escapes => ?_, ?_⟩
    · obtain ⟨raised, uncaught, confirmed⟩ := confirm_escapes done comes.2.2.2.2.1 escapes
      rw [confirmed] at ends
      have told := truthful.faults _ ends (put_sent_of_comesToGet valid comes)
      rcases uncaught with rfl | rfl <;> rcases told with same | ⟨same, -⟩ <;> cases same
    · rintro ⟨created, rfl, authorized, versioned⟩
      obtain ⟨receipt, under, ended⟩ :=
        createOnce_versioned builds valid comes authorized versioned
      obtain ⟨_, -, -, validators⟩ := truthful.receipt receipt ended
      have named := (validators response answered (found.trans created)).2
      rcases written_ok done with ⟨-, -, -, unnamed⟩ | ⟨conditional, -⟩
      · rw [← named, unnamed] at under
        cases under
      · rw [found, created] at conditional
        cases conditional
  · rintro ⟨answers, settled⟩
    refine ⟨?_, ?_, fun receipt created => ?_, fun raised failed sent => ?_⟩
    · rcases createOnce_events settings source w command with none |
        ⟨-, sent, reads, method, -, others, same⟩
      · rw [none]
        exact Nat.zero_le 1
      · have unread : reads.filter (·.method == "PUT") = [] := by
          rw [List.filter_eq_nil_iff]
          intro read among
          rw [others read among]
          decide
        rw [same, List.filter_cons, unread]
        split <;> simp
    · intro put among method
      rcases createOnce_events settings source w command with none |
        ⟨-, sent, reads, -, conditional, others, same⟩
      · rw [none] at among
        cases among
      · rw [same] at among
        rcases List.mem_cons.mp among with rfl | read
        · exact conditional
        · rw [others put read] at method
          exact absurd method (by decide)
    · obtain ⟨response, etag, version, comes, answered, done, authorized, looked⟩ :=
        createOnce_ok valid created
      obtain ⟨shown, got, shows, versioned, tagged⟩ := lookupObject_some looked
      refine ⟨shown, got, shows, fun acknowledged same created => ?_⟩
      obtain rfl := Exchange.answered.inj (answered.symm.trans same)
      rcases written_ok done with ⟨-, tag, present, named⟩ | ⟨conditional, -⟩
      · obtain ⟨etag, rfl⟩ := Option.isSome_iff_exists.mp present
        refine ⟨tag.trans (congrArg some (tagged etag rfl)), ?_⟩
        rw [named]
        cases version with
        | some version => exact (versioned version rfl).symm
        | none =>
          by_contra other
          refine (settled _ _ _ comes).2 ⟨created, rfl, authorized, ?_⟩
          refine versioned_of_lookupObject looked ?_
          rw [Option.isSome_iff_ne_none]
          exact fun unnamed => other unnamed.symm
      · rw [created] at conditional
        cases conditional
    · rw [createOnce_result valid] at failed
      have checked : command.protocolVersion = 2 ∧ w.admits = true := by
        rcases createOnce_events settings source w command with none | ⟨checked, -⟩
        · rw [none] at sent
          obtain ⟨_, none, -⟩ := sent
          cases none
        · exact checked
      rw [require_pos checked.1, require_pos checked.2] at failed
      rcases leave_error failed with rfl | ⟨closed, inner, ended, rfl⟩
      · exact .inl rfl
      · simp only [bind_eq_error] at ended
        rcases ended with refused | ⟨⟨⟩, first, failed | ⟨⟨response, content⟩, put, failed⟩⟩
        · exact .inl (authorize_error refused)
        · rcases request_error failed with caught | rfl
          · exact .inl caught
          · exact absurd ⟨checked.1, checked.2, first, failed, closed⟩ answers
        · rcases confirm_error builds failed with caught | ⟨rfl, conditional⟩ |
            ⟨etag, version, done, second, escapes⟩
          · exact .inl caught
          · exact .inr ⟨rfl, response, (received_ok (request_ok put)).1, conditional⟩
          · exact absurd escapes (settled response.status etag version
              ⟨checked.1, checked.2, first, ⟨response, content, put, rfl, done⟩, second,
                closed⟩).1

end Source

theorem validate_of_validateTarget {settings : EffectUploadSettings} {source : ObjectWriteSource}
    {command : ObjectWriteCommand} (valid : validateTarget settings source command = .ok ()) :
    command.validate settings = .ok () := by
  rw [validateTarget] at valid
  cases checked : command.validate settings with
  | error fault => rw [checked] at valid; cases valid
  | ok value => rfl

/-- For a valid command and any behaviour of the server, both calls tell the truth exactly when the
client raises nothing uncaught, the parser takes the error bodies that are reached, and no version
appears behind a PUT without one. -/
theorem objectEffects_truthful_iff (library : StandardLibrary)
    (contentHash : List UInt8 → HexDigest) (settings : EffectUploadSettings)
    (source : ObjectWriteSource) (w : Behaviour) (command : ObjectWriteCommand)
    (versionId : Option String)
    (valid : validateTarget (objectSettings library contentHash settings) source command =
      .ok ()) :
    (CreateTruthful (objectSettings library contentHash settings) source w command ∧
        LookupTruthful (objectSettings library contentHash settings) source w command versionId) ↔
      (¬ PutEscapes (objectSettings library contentHash settings) source w command ∧
        ∀ status etag version,
          ComesToGet (objectSettings library contentHash settings) source w command status etag
              version →
            ¬ Escapes (objectSettings library contentHash settings) source w command version ∧
              ¬ (status = 200 ∧ version = none ∧ w.authorize 2 = .ok () ∧
                Versioned (objectSettings library contentHash settings) source w command etag)) ∧
        ¬ (w.admits = true ∧ versionId.all validObjectVersion = true ∧ w.closing = none ∧
          Escapes (objectSettings library contentHash settings) source w command versionId) := by
  have builds := builds_of_validate (validate_of_validateTarget valid)
  exact and_congr (createTruthful_iff builds valid) (lookupTruthful_iff builds valid)

/-! ## A sample command -/

def sampleSettings : EffectUploadSettings where
  contentChecksum := fun _ => ""
  commandChecksum := fun _ => ""
  commandKey := fun command => command.objectKey
  stateRevision := fun _ => ""
  documentId := fun id => id
  canonicalPath := fun _ _ _ => true
  exactKey := fun _ => true
  validUtf8 := fun _ => true
  validChecksum := fun _ => true

theorem zeros_length : (List.replicate 64 '0').length = 64 := List.length_replicate

theorem zeros_hexadecimal : (List.replicate 64 '0').all isHexDigit = true := rfl

def sampleDigest : HexDigest := ⟨List.replicate 64 '0', zeros_length, zeros_hexadecimal⟩

def sampleLibrary : StandardLibrary := ⟨Char.isAlphanum, fun _ => sampleDigest⟩

def sampleHash : List UInt8 → HexDigest := fun _ => sampleDigest

def sampleCommand : ObjectWriteCommand where
  effectId := 1
  projectId := 2
  runId := 3
  artifactRef := "art_1"
  storageNamespace := ⟨4, "sha256:4", true⟩
  bucket := "documents"
  objectKey := "projects/2/documents/effects-v2/1/0"
  contentType := "text/plain"
  content := [104, 105]
  requestChecksum := taggedSha256 sampleLibrary ""
  protocolVersion := 2
  folder := []
  name := "a.txt"

def unknownEncoding : List UInt8 :=
  ascii "<?xml version=\"1.0\" encoding=\"xxx\"?><Error/>"

def sampleSource : ObjectWriteSource where
  endpoint := "https://storage.example"
  host := "storage.example"
  bucket := "documents"
  storageNamespace := ⟨4, "sha256:4", true⟩
  sign := fun _ _ _ => some "AWS4-HMAC-SHA256"
  fromstring := fun content => if content = unknownEncoding then .raised else .parseError

def answering (put get : Response) : Behaviour where
  admits := true
  refuses := fun _ => none
  date := "20260101T000000Z"
  put := .answered put
  get := .answered get
  closing := none

def sampleObject : Response where
  status := 200
  header := fun name => ([("ETag", "\"0\""), ("Content-Type", "text/plain")] ++
    (originMetadata (objectSettings sampleLibrary sampleHash sampleSettings) sampleCommand).map
      fun field => ("x-amz-meta-" ++ field.1, field.2)).lookup name
  chunks := [[104], [105]]
  broken := none

theorem sampleCommand_valid : validateTarget
    (objectSettings sampleLibrary sampleHash sampleSettings) sampleSource sampleCommand =
      .ok () := by
  have reference : validArtifactRef "art_1" = true := by decide +kernel
  have tagged : ∀ text, taggedSha256 sampleLibrary "" = taggedSha256 sampleLibrary text :=
    fun _ => rfl
  have small : sampleCommand.content.length ≤ Documents.maxArtifactBytes := by
    simp [sampleCommand, Documents.maxArtifactBytes]
  have valid : sampleCommand.validate
      (objectSettings sampleLibrary sampleHash sampleSettings) = .ok () := by
    simp only [ObjectWriteCommand.validate, bind_eq_ok, require_eq_ok]
    refine ⟨(), ⟨?_, ?_, ?_, ?_, small, ?_, reference⟩, (), rfl, (), ?_, (), rfl, (), rfl, (), rfl,
      tagged _⟩ <;> decide
  rw [validateTarget, valid]
  rfl

theorem objectEffects_truthful_of_written :
    CreateTruthful (objectSettings sampleLibrary sampleHash sampleSettings) sampleSource
        (answering sampleObject sampleObject) sampleCommand ∧
      LookupTruthful (objectSettings sampleLibrary sampleHash sampleSettings) sampleSource
        (answering sampleObject sampleObject) sampleCommand none := by
  have readable : ∀ version, ¬ Escapes
      (objectSettings sampleLibrary sampleHash sampleSettings) sampleSource
      (answering sampleObject sampleObject) sampleCommand version := by
    rintro version (raised | ⟨response, content, fetch, missing, -⟩)
    · cases raised
    · obtain rfl := Exchange.answered.inj (fetched_ok fetch).1
      cases missing
  have sent : ¬ PutEscapes (objectSettings sampleLibrary sampleHash sampleSettings) sampleSource
      (answering sampleObject sampleObject) sampleCommand := by
    rintro ⟨-, -, -, raised, -⟩
    cases raised
  refine (objectEffects_truthful_iff sampleLibrary sampleHash sampleSettings sampleSource
    (answering sampleObject sampleObject) sampleCommand none sampleCommand_valid).mpr
    ⟨⟨sent, fun status etag version _ => ⟨readable version, ?_⟩⟩,
      fun reached => readable none reached.2.2.2⟩
  rintro ⟨-, -, -, response, content, version, found, fetch, -, named, -⟩
  obtain rfl := Exchange.answered.inj (fetched_ok fetch).1
  cases (versionOf_ok.mp named).1

/-- A missing key that is reported in an unknown encoding leaves the classification after the
PUT. -/
theorem createOnce_raises_lookupError : ¬ CreateTruthful
    (objectSettings sampleLibrary sampleHash sampleSettings) sampleSource
    (answering { sampleObject with status := 412, chunks := [] }
      { sampleObject with status := 404, chunks := [unknownEncoding] }) sampleCommand := by
  intro truthful
  have settled := (createTruthful_iff
    (builds_of_validate (validate_of_validateTarget sampleCommand_valid))
    sampleCommand_valid).mp truthful
  have plain : declares unknownEncoding = false := by decide
  refine (settled.2 412 none none ⟨rfl, rfl, rfl, ⟨_, _, rfl, rfl, rfl⟩, rfl, rfl⟩).1 ?_
  exact .inr ⟨{ sampleObject with status := 404, chunks := [unknownEncoding] }, unknownEncoding,
    rfl, rfl, plain, by simp [sampleSource]⟩

end SkillMind.Storage
