/-
# Delphi.Document.Serde -- events and commands as JSON values

What the derived `Serialize` and `Deserialize` of `events.rs` and `command.rs`
write and read.  A struct is written as the object of its members in field order,
a `None` with `skip_serializing_if` as no member at all, and an internally tagged
variant as its own members behind the tag.  A struct is read from an object, by
name and without regard to members it does not know, or from an array, by
position.

An `Option` is read from `null` as `None`, whatever its type.  So a patch whose
metadata is present and `null` comes back without metadata; `Shaped` is
what `validate_metadata_patch` leaves, and it excludes that patch only as one of
many.

How a timestamp is spelled is a matter of `chrono`, which enters as a pair of
functions inverse to each other (`TimestampText`).
-/
import Mathlib
import Delphi.Document.Fold
import Delphi.Document.Validation
import Delphi.Document.Worker

namespace Delphi.Document

set_option autoImplicit false

/-- The text of a timestamp, and the timestamp of a text. -/
structure TimestampText where
  print : Timestamp → String
  parse : String → Option Timestamp
  parse_print : ∀ ts, parse (print ts) = some ts

/-! ## Values -/

namespace Json

def ofNat (n : Nat) : Json := .number (toString n)

/-- An unsigned integer of a width; a literal that does not fit is an error. -/
def toUnsigned (width : Nat) : Json → Option Nat
  | .number literal => literal.toNat?.filter (· < 2 ^ width)
  | _ => none

def toText : Json → Option String
  | .string value => some value
  | _ => none

def toTexts : Json → Option (List String)
  | .array items => items.mapM toText
  | _ => none

/-- A variant without fields: its name, or an object that maps its name to `null`. -/
def toUnitVariant : Json → Option String
  | .string name => some name
  | .object [(name, .null)] => some name
  | _ => none

/-! ## Members -/

/-- `skip_serializing_if = "Option::is_none"` -/
def unlessNone {α : Type} (name : String) (toValue : α → Json) :
    Option α → List (String × Json)
  | none => []
  | some value => [(name, toValue value)]

/-- What a struct is read from. -/
inductive Content where
  | map (members : List (String × Json))
  | seq (items : List Json)

def content : Json → Option Content
  | .object members => some (.map members)
  | .array items => some (.seq items)
  | _ => none

/-- The name of an internally tagged variant, and what its fields are read from. -/
def tagged (tag : String) : Json → Option (String × Content)
  | .object members =>
      match members.lookup tag with
      | some (.string name) => some (name, .map (members.filter fun member => member.1 ≠ tag))
      | _ => none
  | .array (.string name :: rest) => some (name, .seq rest)
  | _ => none

/-- What the content has for a field. -/
abbrev Fields := String → Option Json

/-- By name, or by position; an array may be short of fields but not over. -/
def Content.fields (names : List String) : Content → Option Fields
  | .map members => some fun name => members.lookup name
  | .seq items =>
      if items.length ≤ names.length then some fun name => items[names.idxOf name]? else none

namespace Fields

variable {α : Type}

def required (fields : Fields) (name : String) (read : Json → Option α) : Option α :=
  (fields name).bind read

/-- An `Option` under `serde(default)`, from what its field has. -/
def ifPresent (read : Json → Option α) : Option Json → Option (Option α)
  | none => some none
  | some .null => some none
  | some value => (read value).map some

def optional (fields : Fields) (name : String) (read : Json → Option α) : Option (Option α) :=
  ifPresent read (fields name)

/-- `serde(default)` -/
def defaulted (fields : Fields) (name : String) (default : α) (read : Json → Option α) :
    Option α :=
  match fields name with
  | none => some default
  | some value => read value

end Fields

end Json

open Json

/-! ## Patches -/

namespace MetadataPatch

def members (patch : MetadataPatch) : List (String × Json) :=
  unlessNone "title" .string patch.title ++
  (unlessNone "tags" (fun tags => .array (tags.map .string)) patch.tags ++
  (unlessNone "description" .string patch.description ++
  unlessNone "metadata" id patch.metadata))

def toValue (patch : MetadataPatch) : Json := .object patch.members

def fromFields (fields : Fields) : Option MetadataPatch := do
  let title ← fields.optional "title" toText
  let tags ← fields.optional "tags" toTexts
  let description ← fields.optional "description" toText
  let metadata ← fields.optional "metadata" some
  return { title, tags, description, metadata }

def fromValue (value : Json) : Option MetadataPatch := do
  let content ← value.content
  fromFields (← content.fields ["title", "tags", "description", "metadata"])

end MetadataPatch

/-! ## Payloads -/

namespace DocumentCreated

def members (created : DocumentCreated) : List (String × Json) :=
  [("blob_ref", .string created.blobRef), ("filename", .string created.filename),
    ("content_type", .string created.contentType), ("byte_size", ofNat created.byteSize),
    ("checksum", .string created.checksum), ("patch", created.patch.toValue)]

def fromContent (content : Content) : Option DocumentCreated := do
  let fields ← content.fields
    ["blob_ref", "filename", "content_type", "byte_size", "checksum", "patch"]
  let blobRef ← fields.required "blob_ref" toText
  let filename ← fields.required "filename" toText
  let contentType ← fields.required "content_type" toText
  let byteSize ← fields.required "byte_size" (toUnsigned 64)
  let checksum ← fields.required "checksum" toText
  let patch ← fields.required "patch" MetadataPatch.fromValue
  return { blobRef, filename, contentType, byteSize, checksum, patch }

end DocumentCreated

namespace DocumentBlobValidated

def members (validated : DocumentBlobValidated) : List (String × Json) :=
  [("blob_ref", .string validated.blobRef), ("filename", .string validated.filename),
    ("content_type", .string validated.contentType), ("byte_size", ofNat validated.byteSize),
    ("checksum", .string validated.checksum), ("patch", validated.patch.toValue)] ++
  unlessNone "based_on_version" ofNat validated.basedOnVersion

def fromContent (content : Content) : Option DocumentBlobValidated := do
  let fields ← content.fields
    ["blob_ref", "filename", "content_type", "byte_size", "checksum", "patch", "based_on_version"]
  let blobRef ← fields.required "blob_ref" toText
  let filename ← fields.required "filename" toText
  let contentType ← fields.required "content_type" toText
  let byteSize ← fields.required "byte_size" (toUnsigned 64)
  let checksum ← fields.required "checksum" toText
  let patch ← fields.required "patch" MetadataPatch.fromValue
  let basedOnVersion ← fields.optional "based_on_version" (toUnsigned 64)
  return { blobRef, filename, contentType, byteSize, checksum, patch, basedOnVersion }

end DocumentBlobValidated

namespace DocumentTextExtracted

def members (extracted : DocumentTextExtracted) : List (String × Json) :=
  [("for_version", ofNat extracted.forVersion),
    ("extractor_version", .string extracted.extractorVersion),
    ("char_count", ofNat extracted.charCount), ("checksum", .string extracted.checksum)]

def fromContent (content : Content) : Option DocumentTextExtracted := do
  let fields ← content.fields ["for_version", "extractor_version", "char_count", "checksum"]
  let forVersion ← fields.required "for_version" (toUnsigned 64)
  let extractorVersion ← fields.required "extractor_version" toText
  let charCount ← fields.required "char_count" (toUnsigned 64)
  let checksum ← fields.required "checksum" toText
  return { forVersion, extractorVersion, charCount, checksum }

end DocumentTextExtracted

namespace DocumentIndexed

def members (indexed : DocumentIndexed) : List (String × Json) :=
  [("for_version", ofNat indexed.forVersion), ("vector_count", ofNat indexed.vectorCount),
    ("embedding_model", .string indexed.embeddingModel)]

def fromContent (content : Content) : Option DocumentIndexed := do
  let fields ← content.fields ["for_version", "vector_count", "embedding_model"]
  let forVersion ← fields.required "for_version" (toUnsigned 64)
  let vectorCount ← fields.required "vector_count" (toUnsigned 64)
  let embeddingModel ← fields.required "embedding_model" toText
  return { forVersion, vectorCount, embeddingModel }

end DocumentIndexed

namespace DocumentStageFailed

def members (failed : DocumentStageFailed) : List (String × Json) :=
  [("for_version", ofNat failed.forVersion), ("stage", .string failed.stage),
    ("reason", .string failed.reason), ("attempts", ofNat failed.attempts)]

def fromContent (content : Content) : Option DocumentStageFailed := do
  let fields ← content.fields ["for_version", "stage", "reason", "attempts"]
  let forVersion ← fields.required "for_version" (toUnsigned 64)
  let stage ← fields.required "stage" toText
  let reason ← fields.required "reason" toText
  let attempts ← fields.required "attempts" (toUnsigned 32)
  return { forVersion, stage, reason, attempts }

end DocumentStageFailed

namespace DocumentEventPayload

/-- The variant's name under `rename_all = "snake_case"`. -/
def tag : DocumentEventPayload → String
  | .documentCreated _ => "document_created"
  | .documentBlobValidated _ => "document_blob_validated"
  | .documentMetadataChanged _ => "document_metadata_changed"
  | .documentTextExtracted _ => "document_text_extracted"
  | .documentIndexed _ => "document_indexed"
  | .documentStageFailed _ => "document_stage_failed"
  | .documentReverted _ _ => "document_reverted"
  | .documentDeleted _ => "document_deleted"
  | .documentBlobPruned _ _ => "document_blob_pruned"

def members : DocumentEventPayload → List (String × Json)
  | .documentCreated created => created.members
  | .documentBlobValidated validated => validated.members
  | .documentMetadataChanged patch => [("patch", patch.toValue)]
  | .documentTextExtracted extracted => extracted.members
  | .documentIndexed indexed => indexed.members
  | .documentStageFailed failed => failed.members
  | .documentReverted revertedTo patch =>
      [("reverted_to", ofNat revertedTo), ("patch", patch.toValue)]
  | .documentDeleted reason => [("reason", .string reason)]
  | .documentBlobPruned blobRef reason =>
      [("blob_ref", .string blobRef), ("reason", .string reason)]

def toValue (payload : DocumentEventPayload) : Json :=
  .object (("type", .string payload.tag) :: payload.members)

def fromContent (name : String) (content : Content) : Option DocumentEventPayload :=
  if name = "document_created" then
    (DocumentCreated.fromContent content).map .documentCreated
  else if name = "document_blob_validated" then
    (DocumentBlobValidated.fromContent content).map .documentBlobValidated
  else if name = "document_metadata_changed" then do
    let fields ← content.fields ["patch"]
    let patch ← fields.required "patch" MetadataPatch.fromValue
    return .documentMetadataChanged patch
  else if name = "document_text_extracted" then
    (DocumentTextExtracted.fromContent content).map .documentTextExtracted
  else if name = "document_indexed" then
    (DocumentIndexed.fromContent content).map .documentIndexed
  else if name = "document_stage_failed" then
    (DocumentStageFailed.fromContent content).map .documentStageFailed
  else if name = "document_reverted" then do
    let fields ← content.fields ["reverted_to", "patch"]
    let revertedTo ← fields.required "reverted_to" (toUnsigned 64)
    let patch ← fields.required "patch" MetadataPatch.fromValue
    return .documentReverted revertedTo patch
  else if name = "document_deleted" then do
    let fields ← content.fields ["reason"]
    let reason ← fields.required "reason" toText
    return .documentDeleted reason
  else if name = "document_blob_pruned" then do
    let fields ← content.fields ["blob_ref", "reason"]
    let blobRef ← fields.required "blob_ref" toText
    let reason ← fields.required "reason" toText
    return .documentBlobPruned blobRef reason
  else none

def fromValue (value : Json) : Option DocumentEventPayload := do
  let (name, content) ← value.tagged "type"
  fromContent name content

end DocumentEventPayload

/-! ## Events -/

namespace Actor

def toValue : Actor → Json
  | .user userId => .object [("kind", .string "user"), ("user_id", .string userId)]
  | .system component => .object [("kind", .string "system"), ("component", .string component)]

def fromValue (value : Json) : Option Actor := do
  let (name, content) ← value.tagged "kind"
  if name = "user" then
    let fields ← content.fields ["user_id"]
    let userId ← fields.required "user_id" toText
    return .user userId
  else if name = "system" then
    let fields ← content.fields ["component"]
    let component ← fields.required "component" toText
    return .system component
  else none

end Actor

/-- A timestamp is a string. -/
def TimestampText.fromValue (chrono : TimestampText) (value : Json) : Option Timestamp :=
  value.toText.bind chrono.parse

namespace DocumentEvent

def toValue (chrono : TimestampText) (event : DocumentEvent) : Json :=
  .object [("v", ofNat event.v), ("event_id", .string event.eventId),
    ("tenant_id", .string event.tenantId), ("document_id", .string event.documentId),
    ("actor", event.actor.toValue), ("version", ofNat event.version),
    ("ts", .string (chrono.print event.ts)), ("payload", event.payload.toValue)]

def fromValue (chrono : TimestampText) (value : Json) : Option DocumentEvent := do
  let content ← value.content
  let fields ← content.fields
    ["v", "event_id", "tenant_id", "document_id", "actor", "version", "ts", "payload"]
  let v ← fields.required "v" (toUnsigned 16)
  let eventId ← fields.required "event_id" toText
  let tenantId ← fields.required "tenant_id" toText
  let documentId ← fields.required "document_id" toText
  let actor ← fields.required "actor" Actor.fromValue
  let version ← fields.required "version" (toUnsigned 64)
  let ts ← fields.required "ts" chrono.fromValue
  let payload ← fields.required "payload" DocumentEventPayload.fromValue
  return { v, eventId, tenantId, documentId, actor, version, ts, payload }

end DocumentEvent

/-! ## Commands -/

namespace ConflictPolicy

/-- `Default` -/
def default : ConflictPolicy := .supersede

def toValue : ConflictPolicy → Json
  | .supersede => .string "supersede"
  | .fail => .string "fail"

def fromValue (value : Json) : Option ConflictPolicy := do
  let name ← value.toUnitVariant
  if name = "supersede" then return .supersede
  else if name = "fail" then return .fail
  else none

end ConflictPolicy

namespace UploadMode

def toValue : UploadMode → Json
  | .create => .string "create"
  | .replace => .string "replace"

def fromValue (value : Json) : Option UploadMode := do
  let name ← value.toUnitVariant
  if name = "create" then return .create
  else if name = "replace" then return .replace
  else none

end UploadMode

/-- The command as it is queued, with what no step of the worker reads. -/
structure QueuedCommand extends UploadCompleted where
  v : Nat
  commandId : String
  ts : Timestamp

namespace QueuedCommand

def members (chrono : TimestampText) (command : QueuedCommand) : List (String × Json) :=
  [("v", ofNat command.v), ("command_id", .string command.commandId),
    ("tenant_id", .string command.tenantId), ("owner_user_id", .string command.ownerUserId),
    ("upload_id", .string command.uploadId), ("document_id", .string command.documentId),
    ("mode", command.mode.toValue), ("storage_key", .string command.storageKey),
    ("multipart_upload_id", .string command.multipartUploadId),
    ("filename", .string command.filename), ("content_type", .string command.contentType),
    ("declared_size", ofNat command.declaredSize)] ++
  (unlessNone "if_match" ofNat command.ifMatch ++
  [("on_conflict", command.onConflict.toValue), ("patch", command.patch.toValue),
    ("ts", .string (chrono.print command.ts))])

def toValue (chrono : TimestampText) (command : QueuedCommand) : Json :=
  .object (command.members chrono)

def fromFields (chrono : TimestampText) (fields : Fields) : Option QueuedCommand := do
  let v ← fields.required "v" (toUnsigned 16)
  let commandId ← fields.required "command_id" toText
  let tenantId ← fields.required "tenant_id" toText
  let ownerUserId ← fields.required "owner_user_id" toText
  let uploadId ← fields.required "upload_id" toText
  let documentId ← fields.required "document_id" toText
  let mode ← fields.required "mode" UploadMode.fromValue
  let storageKey ← fields.required "storage_key" toText
  let multipartUploadId ← fields.required "multipart_upload_id" toText
  let filename ← fields.required "filename" toText
  let contentType ← fields.required "content_type" toText
  let declaredSize ← fields.required "declared_size" (toUnsigned 64)
  let ifMatch ← fields.optional "if_match" (toUnsigned 64)
  let onConflict ← fields.defaulted "on_conflict" .default ConflictPolicy.fromValue
  let patch ← fields.defaulted "patch" {} MetadataPatch.fromValue
  let ts ← fields.required "ts" chrono.fromValue
  return { v, commandId, tenantId, ownerUserId, uploadId, documentId, mode, storageKey,
           multipartUploadId, filename, contentType, declaredSize, ifMatch, onConflict, patch, ts }

def fromValue (chrono : TimestampText) (value : Json) : Option QueuedCommand := do
  let content ← value.content
  fromFields chrono (← content.fields
    ["v", "command_id", "tenant_id", "owner_user_id", "upload_id", "document_id", "mode",
      "storage_key", "multipart_upload_id", "filename", "content_type", "declared_size",
      "if_match", "on_conflict", "patch", "ts"])

end QueuedCommand

/-! ## What the types hold -/

/-- Metadata is absent or an object. -/
def MetadataPatch.Shaped (patch : MetadataPatch) : Prop :=
  ∀ metadata, patch.metadata = some metadata → metadata.isObject = true

def FitsOption (width : Nat) (value : Option Nat) : Prop := ∀ n, value = some n → n < 2 ^ width

namespace DocumentEventPayload

/-- Every number is one its type holds. -/
def InRange : DocumentEventPayload → Prop
  | .documentCreated created => created.byteSize < 2 ^ 64
  | .documentBlobValidated validated =>
      validated.byteSize < 2 ^ 64 ∧ FitsOption 64 validated.basedOnVersion
  | .documentTextExtracted extracted => extracted.forVersion < 2 ^ 64 ∧ extracted.charCount < 2 ^ 64
  | .documentIndexed indexed => indexed.forVersion < 2 ^ 64 ∧ indexed.vectorCount < 2 ^ 64
  | .documentStageFailed failed => failed.forVersion < 2 ^ 64 ∧ failed.attempts < 2 ^ 32
  | .documentReverted revertedTo _ => revertedTo < 2 ^ 64
  | .documentMetadataChanged _ | .documentDeleted _ | .documentBlobPruned _ _ => True

end DocumentEventPayload

/-- An event the type holds, with metadata absent or an object. -/
structure DocumentEvent.Regular (event : DocumentEvent) : Prop where
  v : event.v < 2 ^ 16
  version : event.version < 2 ^ 64
  payload : event.payload.InRange
  patch : ∀ patch, event.payload.patch? = some patch → patch.Shaped

/-- A command the type holds, with metadata absent or an object. -/
structure QueuedCommand.Regular (command : QueuedCommand) : Prop where
  v : command.v < 2 ^ 16
  declaredSize : command.declaredSize < 2 ^ 64
  ifMatch : FitsOption 64 command.ifMatch
  patch : command.patch.Shaped

/-! ## Reading what was written -/

namespace Json

@[simp] theorem toUnsigned_ofNat {width n : Nat} (fits : n < 2 ^ width) :
    toUnsigned width (ofNat n) = some n := by
  simp [toUnsigned, ofNat, Option.filter, fits]

@[simp] theorem toText_string (value : String) : toText (.string value) = some value := rfl

@[simp] theorem toTexts_strings (values : List String) :
    toTexts (.array (values.map .string)) = some values := by
  induction values with
  | nil => rfl
  | cons value rest ih =>
      simp only [toTexts] at ih ⊢
      simp [ih]

theorem lookup_filter_ne (members : List (String × Json)) {tag name : String} (ne : name ≠ tag) :
    (members.filter fun member => member.1 ≠ tag).lookup name = members.lookup name := by
  induction members with
  | nil => rfl
  | cons member rest ih =>
      obtain ⟨key, value⟩ := member
      by_cases own : key = tag
      · have other : (name == key) = false := by simpa [own] using ne
        have skipped : (((key, value) :: rest).filter fun member => member.1 ≠ tag) =
            rest.filter fun member => member.1 ≠ tag := List.filter_cons_of_neg (by simpa using own)
        rw [skipped, ih, List.lookup_cons, other]
      · have kept : (((key, value) :: rest).filter fun member => member.1 ≠ tag) =
            (key, value) :: rest.filter fun member => member.1 ≠ tag :=
          List.filter_cons_of_pos (by simpa using own)
        rw [kept, List.lookup_cons, List.lookup_cons, ih]

theorem lookup_unlessNone {α : Type} (name field : String) (toValue : α → Json)
    (value : Option α) :
    (unlessNone name toValue value).lookup field =
      if field = name then value.map toValue else none := by
  cases value with
  | none => simp [unlessNone]
  | some value =>
      by_cases own : field = name
      · simp [unlessNone, own]
      · have other : (field == name) = false := by simpa using own
        simp [unlessNone, own, List.lookup, other]

/-- A value is read back from a member that is no `null`. -/
theorem ifPresent_map {α : Type} {read : Json → Option α} {toValue : α → Json} {value : Option α}
    (back : ∀ present, value = some present →
      toValue present ≠ .null ∧ read (toValue present) = some present) :
    Fields.ifPresent read (value.map toValue) = some value := by
  cases value with
  | none => rfl
  | some present =>
      obtain ⟨notNull, reads⟩ := back present rfl
      rw [Option.map_some]
      cases written : toValue present with
      | null => exact absurd written notNull
      | _ => simp only [Fields.ifPresent, ← written, reads, Option.map_some]

theorem ifPresent_ofNat {width : Nat} {value : Option Nat} (fits : FitsOption width value) :
    Fields.ifPresent (toUnsigned width) (value.map ofNat) = some value :=
  ifPresent_map fun n present => ⟨nofun, toUnsigned_ofNat (fits n present)⟩

theorem ifPresent_string (value : Option String) :
    Fields.ifPresent toText (value.map .string) = some value :=
  ifPresent_map fun text _ => ⟨nofun, toText_string text⟩

/-- An internally tagged variant, and its own members for every other name. -/
theorem tagged_object (tag name : String) (members : List (String × Json)) :
    ∃ others, tagged tag (.object ((tag, .string name) :: members)) = some (name, .map others) ∧
      ∀ field, field ≠ tag → others.lookup field = members.lookup field := by
  refine ⟨((tag, .string name) :: members).filter fun member => member.1 ≠ tag,
    by simp only [tagged, List.lookup_cons_self], ?_⟩
  intro field ne
  have other : (field == tag) = false := by simpa using ne
  rw [lookup_filter_ne _ ne, List.lookup_cons, other]

end Json

theorem MetadataPatch.fromValue_toValue {patch : MetadataPatch} (shaped : patch.Shaped) :
    MetadataPatch.fromValue patch.toValue = some patch := by
  have tags : Fields.ifPresent toTexts (patch.tags.map fun tags => .array (tags.map .string)) =
      some patch.tags :=
    ifPresent_map fun tags _ => ⟨nofun, toTexts_strings tags⟩
  have metadata : Fields.ifPresent some (patch.metadata.map id) = some patch.metadata := by
    refine ifPresent_map fun value present => ⟨?_, rfl⟩
    rintro rfl
    cases shaped _ present
  show fromFields (fun name => patch.members.lookup name) = some patch
  simp only [fromFields, Fields.optional, members, List.lookup_append, lookup_unlessNone,
    String.reduceEq, if_true, if_false, Option.or_none, Option.none_or, ifPresent_string, tags,
    metadata, Option.bind_eq_bind, Option.bind_some]
  rfl

theorem Actor.fromValue_toValue (actor : Actor) : Actor.fromValue actor.toValue = some actor := by
  cases actor with
  | user userId =>
      obtain ⟨others, read, agrees⟩ := tagged_object "kind" "user" [("user_id", .string userId)]
      simp [fromValue, toValue, read, Content.fields, Fields.required, agrees, List.lookup]
  | system component =>
      obtain ⟨others, read, agrees⟩ := tagged_object "kind" "system"
        [("component", .string component)]
      simp [fromValue, toValue, read, Content.fields, Fields.required, agrees, List.lookup]

/-! A variant's fields are read among the members behind the tag. -/

section Variants

variable {others : List (String × Json)}

theorem DocumentCreated.fromContent_members {created : DocumentCreated}
    (agrees : ∀ field, field ≠ "type" → others.lookup field = created.members.lookup field)
    (byteSize : created.byteSize < 2 ^ 64) (patch : created.patch.Shaped) :
    fromContent (.map others) = some created := by
  simp [fromContent, Content.fields, Fields.required, agrees, members, List.lookup,
    toUnsigned_ofNat byteSize, MetadataPatch.fromValue_toValue patch]

theorem DocumentBlobValidated.fromContent_members {validated : DocumentBlobValidated}
    (agrees : ∀ field, field ≠ "type" → others.lookup field = validated.members.lookup field)
    (byteSize : validated.byteSize < 2 ^ 64) (basedOn : FitsOption 64 validated.basedOnVersion)
    (patch : validated.patch.Shaped) : fromContent (.map others) = some validated := by
  simp [fromContent, Content.fields, Fields.required, Fields.optional, agrees, members,
    lookup_unlessNone, List.lookup, toUnsigned_ofNat byteSize, ifPresent_ofNat basedOn,
    MetadataPatch.fromValue_toValue patch]

theorem DocumentTextExtracted.fromContent_members {extracted : DocumentTextExtracted}
    (agrees : ∀ field, field ≠ "type" → others.lookup field = extracted.members.lookup field)
    (forVersion : extracted.forVersion < 2 ^ 64) (charCount : extracted.charCount < 2 ^ 64) :
    fromContent (.map others) = some extracted := by
  simp [fromContent, Content.fields, Fields.required, agrees, members, List.lookup,
    toUnsigned_ofNat forVersion, toUnsigned_ofNat charCount]

theorem DocumentIndexed.fromContent_members {indexed : DocumentIndexed}
    (agrees : ∀ field, field ≠ "type" → others.lookup field = indexed.members.lookup field)
    (forVersion : indexed.forVersion < 2 ^ 64) (vectorCount : indexed.vectorCount < 2 ^ 64) :
    fromContent (.map others) = some indexed := by
  simp [fromContent, Content.fields, Fields.required, agrees, members, List.lookup,
    toUnsigned_ofNat forVersion, toUnsigned_ofNat vectorCount]

theorem DocumentStageFailed.fromContent_members {failed : DocumentStageFailed}
    (agrees : ∀ field, field ≠ "type" → others.lookup field = failed.members.lookup field)
    (forVersion : failed.forVersion < 2 ^ 64) (attempts : failed.attempts < 2 ^ 32) :
    fromContent (.map others) = some failed := by
  simp [fromContent, Content.fields, Fields.required, agrees, members, List.lookup,
    toUnsigned_ofNat forVersion, toUnsigned_ofNat attempts]

end Variants

theorem DocumentEventPayload.fromValue_toValue {payload : DocumentEventPayload}
    (range : payload.InRange) (shaped : ∀ patch, payload.patch? = some patch → patch.Shaped) :
    DocumentEventPayload.fromValue payload.toValue = some payload := by
  obtain ⟨others, read, agrees⟩ := tagged_object "type" payload.tag payload.members
  unfold fromValue toValue
  rw [read]
  show fromContent payload.tag (.map others) = some payload
  cases payload with
  | documentCreated created =>
      simp [fromContent, tag,
        DocumentCreated.fromContent_members agrees range (shaped _ rfl)]
  | documentBlobValidated validated =>
      simp [fromContent, tag,
        DocumentBlobValidated.fromContent_members agrees range.1 range.2 (shaped _ rfl)]
  | documentMetadataChanged patch =>
      simp [fromContent, tag, Content.fields, Fields.required, agrees, members,
        MetadataPatch.fromValue_toValue (shaped patch rfl)]
  | documentTextExtracted extracted =>
      simp [fromContent, tag,
        DocumentTextExtracted.fromContent_members agrees range.1 range.2]
  | documentIndexed indexed =>
      simp [fromContent, tag, DocumentIndexed.fromContent_members agrees range.1 range.2]
  | documentStageFailed failed =>
      simp [fromContent, tag, DocumentStageFailed.fromContent_members agrees range.1 range.2]
  | documentReverted revertedTo patch =>
      simp [fromContent, tag, Content.fields, Fields.required, agrees, members, List.lookup,
        toUnsigned_ofNat range, MetadataPatch.fromValue_toValue (shaped patch rfl)]
  | documentDeleted reason =>
      simp [fromContent, tag, Content.fields, Fields.required, agrees, members]
  | documentBlobPruned blobRef reason =>
      simp [fromContent, tag, Content.fields, Fields.required, agrees, members, List.lookup]

section RoundTrips

variable {chrono : TimestampText}

@[simp] theorem TimestampText.fromValue_print (ts : Timestamp) :
    chrono.fromValue (.string (chrono.print ts)) = some ts := chrono.parse_print ts

theorem lookup_of_mem {members : List (String × Json)} (distinct : (members.map Prod.fst).Nodup)
    {name : String} {value : Json} (mem : (name, value) ∈ members) :
    members.lookup name = some value := by
  induction members with
  | nil => cases mem
  | cons member rest ih =>
      obtain ⟨key, found⟩ := member
      obtain ⟨fresh, distinct⟩ := List.nodup_cons.mp distinct
      rcases List.mem_cons.mp mem with here | later
      · cases here
        exact List.lookup_cons_self
      · have other : (name == key) = false := by
          simp only [beq_eq_false_iff_ne, ne_eq]
          rintro rfl
          exact fresh (List.mem_map.mpr ⟨_, later, rfl⟩)
        rw [List.lookup_cons, other, ih distinct later]

theorem DocumentEvent.fromValue_toValue {event : DocumentEvent} (regular : event.Regular) :
    DocumentEvent.fromValue chrono (event.toValue chrono) = some event := by
  simp only [fromValue, toValue, content, Content.fields, Option.bind_eq_bind, Option.bind_some]
  generalize shape : ([_, _, _, _, _, _, _, _] : List (String × Json)) = members
  have distinct : (members.map Prod.fst).Nodup := by simp [← shape]
  have written : ∀ name value, (name, value) ∈ members → members.lookup name = some value :=
    fun name value mem => lookup_of_mem distinct mem
  simp only [Fields.required, written "v" (ofNat event.v) (by simp [← shape]),
    written "event_id" (.string event.eventId) (by simp [← shape]),
    written "tenant_id" (.string event.tenantId) (by simp [← shape]),
    written "document_id" (.string event.documentId) (by simp [← shape]),
    written "actor" event.actor.toValue (by simp [← shape]),
    written "version" (ofNat event.version) (by simp [← shape]),
    written "ts" (.string (chrono.print event.ts)) (by simp [← shape]),
    written "payload" event.payload.toValue (by simp [← shape]),
    toText_string, TimestampText.fromValue_print, Option.bind_some,
    toUnsigned_ofNat regular.v, toUnsigned_ofNat regular.version, Actor.fromValue_toValue,
    DocumentEventPayload.fromValue_toValue regular.payload regular.patch]
  rfl

theorem ConflictPolicy.fromValue_toValue (policy : ConflictPolicy) :
    ConflictPolicy.fromValue policy.toValue = some policy := by
  cases policy <;> rfl

theorem UploadMode.fromValue_toValue (mode : UploadMode) :
    UploadMode.fromValue mode.toValue = some mode := by
  cases mode <;> rfl

theorem QueuedCommand.distinct_members (command : QueuedCommand) :
    ((command.members chrono).map Prod.fst).Nodup := by
  unfold members
  cases command.ifMatch <;> simp [unlessNone]

theorem QueuedCommand.ifPresent_ifMatch {command : QueuedCommand} (regular : command.Regular) :
    Fields.ifPresent (toUnsigned 64) ((command.members chrono).lookup "if_match") =
      some command.ifMatch := by
  have found : (command.members chrono).lookup "if_match" = command.ifMatch.map ofNat := by
    simp [members, List.lookup_append, lookup_unlessNone, List.lookup]
  rw [found, ifPresent_ofNat regular.ifMatch]

theorem QueuedCommand.fromValue_toValue {command : QueuedCommand} (regular : command.Regular) :
    QueuedCommand.fromValue chrono (command.toValue chrono) = some command := by
  obtain ⟨fields, read⟩ : ∃ fields : Fields,
      fields = fun name => (command.members chrono).lookup name := ⟨_, rfl⟩
  show fromFields chrono (fun name => (command.members chrono).lookup name) = some command
  rw [← read]
  have written : ∀ name value, (name, value) ∈ command.members chrono → fields name = some value := by
    intro name value mem
    rw [read]
    exact lookup_of_mem (distinct_members command) mem
  have ifMatch : Fields.ifPresent (toUnsigned 64) (fields "if_match") = some command.ifMatch := by
    rw [read]
    exact ifPresent_ifMatch regular
  simp only [fromFields, Fields.required, Fields.optional, Fields.defaulted, ifMatch,
    written "v" (ofNat command.v) (by simp [members]),
    written "command_id" (.string command.commandId) (by simp [members]),
    written "tenant_id" (.string command.tenantId) (by simp [members]),
    written "owner_user_id" (.string command.ownerUserId) (by simp [members]),
    written "upload_id" (.string command.uploadId) (by simp [members]),
    written "document_id" (.string command.documentId) (by simp [members]),
    written "mode" command.mode.toValue (by simp [members]),
    written "storage_key" (.string command.storageKey) (by simp [members]),
    written "multipart_upload_id" (.string command.multipartUploadId) (by simp [members]),
    written "filename" (.string command.filename) (by simp [members]),
    written "content_type" (.string command.contentType) (by simp [members]),
    written "declared_size" (ofNat command.declaredSize) (by simp [members]),
    written "on_conflict" command.onConflict.toValue (by simp [members]),
    written "patch" command.patch.toValue (by simp [members]),
    written "ts" (.string (chrono.print command.ts)) (by simp [members]),
    toText_string, TimestampText.fromValue_print, Option.bind_eq_bind, Option.bind_some,
    toUnsigned_ofNat regular.v, toUnsigned_ofNat regular.declaredSize,
    MetadataPatch.fromValue_toValue regular.patch, UploadMode.fromValue_toValue,
    ConflictPolicy.fromValue_toValue]
  rfl

end RoundTrips

/-- A patch that passed the check is one that survives the wire. -/
theorem MetadataPatch.shaped_of_valid {patch : MetadataPatch}
    (valid : validateMetadataPatch patch = .ok ()) : patch.Shaped := by
  intro metadata present
  obtain ⟨-, tags⟩ := ok_of_seq valid
  obtain ⟨-, description⟩ := ok_of_seq tags
  obtain ⟨-, checked⟩ := ok_of_seq description
  rw [present] at checked
  change validateMetadata metadata = .ok () at checked
  unfold validateMetadata at checked
  split at checked
  · cases checked
  · rename_i object
    simpa using object

/-! ## Logs -/

/-- A log as the stream holds it. -/
def encodeLog (chrono : TimestampText) (log : List Entry) : List (Nat × Json) :=
  log.map fun entry => (entry.1, entry.2.toValue chrono)

def decodeLog (chrono : TimestampText) (messages : List (Nat × Json)) : Option (List Entry) :=
  messages.mapM fun message =>
    (DocumentEvent.fromValue chrono message.2).map fun event => (message.1, event)

theorem decodeLog_encodeLog (chrono : TimestampText) {log : List Entry}
    (regular : ∀ entry ∈ log, entry.2.Regular) : decodeLog chrono (encodeLog chrono log) = some log := by
  induction log with
  | nil => rfl
  | cons entry rest ih =>
      have first := @DocumentEvent.fromValue_toValue chrono _ (regular entry List.mem_cons_self)
      have others := ih fun other mem => regular other (List.mem_cons_of_mem _ mem)
      simp only [decodeLog, encodeLog] at others ⊢
      simp [first, others]

/-- Every event and every command comes back from its encoding; distinct events are encoded
differently, and a decoded log folds as the log it was written from. -/
theorem codec_round_trip (chrono : TimestampText) :
    (∀ event : DocumentEvent, event.Regular →
      DocumentEvent.fromValue chrono (event.toValue chrono) = some event) ∧
    (∀ command : QueuedCommand, command.Regular →
      QueuedCommand.fromValue chrono (command.toValue chrono) = some command) ∧
    (∀ patch : MetadataPatch, validateMetadataPatch patch = .ok () → patch.Shaped) ∧
    (∀ event event' : DocumentEvent, event.Regular → event'.Regular → event ≠ event' →
      event.toValue chrono ≠ event'.toValue chrono) ∧
    ∀ (state : Option DocumentState) (log : List Entry), (∀ entry ∈ log, entry.2.Regular) →
      (decodeLog chrono (encodeLog chrono log)).map (foldFrom state) =
        some (foldFrom state log) := by
  refine ⟨fun _ => DocumentEvent.fromValue_toValue, fun _ => QueuedCommand.fromValue_toValue,
    fun _ => MetadataPatch.shaped_of_valid, ?_, ?_⟩
  · intro event event' regular regular' differ same
    have back : DocumentEvent.fromValue chrono (event.toValue chrono) = some event :=
      DocumentEvent.fromValue_toValue regular
    rw [same, DocumentEvent.fromValue_toValue regular'] at back
    exact differ (Option.some.inj back).symm
  · intro state log regular
    rw [decodeLog_encodeLog chrono regular]
    rfl

/-- The epoch as `chrono` prints it; any other time as its number behind a mark. -/
def epochText : TimestampText where
  print ts := if ts = 0 then "1970-01-01T00:00:00Z" else String.ofList ('@' :: ts.repr.toList)
  parse text :=
    match text.toList with
    | '@' :: rest => (String.ofList rest).toInt?
    | _ => if text = "1970-01-01T00:00:00Z" then some 0 else none
  parse_print ts := by
    by_cases epoch : ts = 0
    · simp [epoch]
    · simp [epoch, Int.toInt?_repr]

/-- A created document with an object for metadata, and the command it came from. -/
theorem codec_round_trip_created :
    let patch : MetadataPatch := { title := some "Report", metadata := some (.object [("k", .null)]) }
    let event : DocumentEvent := ⟨1, "e1", "acme", "d1", .user "u1", 1, 0,
      .documentCreated ⟨"b1", "f.pdf", "application/pdf", 10, "sha256:ab", patch⟩⟩
    let command : QueuedCommand := ⟨⟨"acme", "u1", "b1", "d1", .create, "acme/b1", "m1", "f.pdf",
      "application/pdf", 10, none, .supersede, patch⟩, 1, "upload-completed:acme:b1", 0⟩
    DocumentEvent.fromValue epochText (event.toValue epochText) = some event ∧
      QueuedCommand.fromValue epochText (command.toValue epochText) = some command ∧
      (decodeLog epochText (encodeLog epochText [(1, event)])).map (foldFrom none) =
        some (foldFrom none [(1, event)]) := by
  intro patch event command
  have shaped : patch.Shaped := by
    rintro metadata ⟨⟩
    rfl
  have regular : event.Regular := by
    refine ⟨by decide, by decide, show 10 < 2 ^ 64 by decide, ?_⟩
    rintro changes ⟨⟩
    exact shaped
  have accepted : command.Regular :=
    ⟨by decide, show 10 < 2 ^ 64 by decide, (by rintro n ⟨⟩), shaped⟩
  have all := codec_round_trip epochText
  refine ⟨all.1 event regular, all.2.1 command accepted, all.2.2.2.2 none [(1, event)] ?_⟩
  intro entry mem
  cases List.mem_singleton.mp mem
  exact regular

end Delphi.Document
