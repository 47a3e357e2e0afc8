import SkillMind.Effects.Continuation

/-!
# What a database write returns

The provider of `database.write` reads its row before and after the change, in the transaction of
the change, and returns both with the checks it made. The row after the change holds every column
of the table, also those the write did not name, so that a default or a generated value comes back
with it.

Whether such a result may be shown therefore depends on the names of the columns.
-/

namespace SkillMind.Effects

open SkillMind.Core SkillMind.Runs

structure DatabaseWriteCommand where
  effectId : Uuid
  integrationId : Uuid
  table : String
  key : List (String × Json)
  checksum : String

/-- The rows of the original transaction. -/
structure DatabaseWriteReceipt where
  before : Option (List (String × Json))
  after : List (String × Json)
  replayed : Bool

def jsonRow : Option (List (String × Json)) → Json
  | none => .null
  | some row => .object row

/-- `quote` of `urllib` without safe characters. -/
def quotePath (text : String) : String :=
  String.ofList (text.toList.flatMap fun c =>
    if c.isAlphanum || "_.-~".toList.contains c then [c]
    else (String.utf8EncodeChar c).flatMap fun byte =>
      '%' :: (hexDigits byte.toNat 2).map Char.toUpper)

section Library

variable (library : StandardLibrary)

def databaseRowRevision : Option (List (String × Json)) → String
  | none => "absent"
  | some row => taggedSha256 library (canonicalJson (.object row))

/-- `_evidence` of the provider. -/
def databaseEvidence (command : DatabaseWriteCommand) (row : Option (List (String × Json)))
    (phase : String) : EffectEvidenceDraft where
  evidenceType := "database"
  sourceUri := "postgres://integration/" ++ uuidText command.integrationId ++ "/tables/" ++
    quotePath command.table
  sourceLocator :=
    [ ("integration_id", .string (uuidText command.integrationId))
    , ("table", .string command.table)
    , ("key", .object command.key)
    , ("effect_id", .string (uuidText command.effectId))
    , ("phase", .string phase) ]
  content := [("row", jsonRow row)]
  excerpt := none
  metadata :=
    [ ("provider", .string "postgres")
    , ("provider_version", .string "postgres-receipt/v1")
    , ("request_checksum", .string command.checksum)
    , ("original_transaction_receipt", .bool true) ]

/-- `_result` of the provider. -/
def databaseResult (command : DatabaseWriteCommand) (receipt : DatabaseWriteReceipt) :
    EffectProviderResult where
  before := databaseEvidence command receipt.before "before"
  after := databaseEvidence command (some receipt.after) "after"
  verification :=
    [ ("method", .string "READ_BACK")
    , ("matched_paths", .array [.string "/row"])
    , ("replayed", .bool receipt.replayed)
    , ("effect_id", .string (uuidText command.effectId))
    , ("request_checksum", .string command.checksum)
    , ("before_revision", .string (databaseRowRevision library receipt.before))
    , ("after_revision", .string (databaseRowRevision library (some receipt.after))) ]
  replayed := receipt.replayed

end Library

end SkillMind.Effects
