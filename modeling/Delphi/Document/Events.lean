/-
# Delphi.Document.Events -- the facts a document log holds

The event envelope and its nine payloads, as `document-domain/src/events.rs`
has them.  A log entry is a pair of the stream sequence it landed at and the
event.  Identifiers are strings, `u64` counters are naturals, and a timestamp is
its number of microseconds.

JSON documents (`serde_json::Value`) are kept as trees: an object is its list of
members in map order, and a number is the literal it is printed as.
-/
import Mathlib.Data.List.Basic

namespace Delphi.Document

set_option autoImplicit false

/-- Microseconds since the epoch. -/
abbrev Timestamp := Int

/-- A JSON value; a number is the literal it prints as. -/
inductive Json where
  | null
  | bool (value : Bool)
  | number (literal : String)
  | string (value : String)
  | array (items : List Json)
  | object (members : List (String × Json))

def documentContractVersion : Nat := 1

inductive Actor where
  | user (userId : String)
  | system (component : String)
deriving DecidableEq

namespace Actor

def userId : Actor → Option String
  | .user userId => some userId
  | .system _ => none

end Actor

/-- Only the fields present are written by the fold. -/
structure MetadataPatch where
  title : Option String := none
  tags : Option (List String) := none
  description : Option String := none
  metadata : Option Json := none

structure DocumentCreated where
  blobRef : String
  filename : String
  contentType : String
  byteSize : Nat
  checksum : String
  patch : MetadataPatch

structure DocumentBlobValidated where
  blobRef : String
  filename : String
  contentType : String
  byteSize : Nat
  checksum : String
  patch : MetadataPatch
  /-- Version the uploader was looking at. -/
  basedOnVersion : Option Nat

structure DocumentTextExtracted where
  forVersion : Nat
  extractorVersion : String
  charCount : Nat
  checksum : String

structure DocumentIndexed where
  forVersion : Nat
  vectorCount : Nat
  embeddingModel : String

structure DocumentStageFailed where
  forVersion : Nat
  stage : String
  reason : String
  attempts : Nat

/-- The stage token whose failure marks the index unusable. -/
def indexStage : String := "index"

inductive DocumentEventPayload where
  | documentCreated (created : DocumentCreated)
  | documentBlobValidated (validated : DocumentBlobValidated)
  | documentMetadataChanged (patch : MetadataPatch)
  | documentTextExtracted (extracted : DocumentTextExtracted)
  | documentIndexed (indexed : DocumentIndexed)
  | documentStageFailed (failed : DocumentStageFailed)
  | documentReverted (revertedTo : Nat) (patch : MetadataPatch)
  | documentDeleted (reason : String)
  | documentBlobPruned (blobRef : String) (reason : String)

namespace DocumentEventPayload

/-- Does the event advance the document version by one, or repeat it? -/
def advancesVersion : DocumentEventPayload → Bool
  | .documentCreated _ => true
  | .documentBlobValidated _ => true
  | .documentMetadataChanged _ => true
  | .documentReverted _ _ => true
  | .documentDeleted _ => true
  | .documentTextExtracted _ => false
  | .documentIndexed _ => false
  | .documentStageFailed _ => false
  | .documentBlobPruned _ _ => false

/-- The blob this event introduced. A pruned blob is one it removes. -/
def blobRef : DocumentEventPayload → Option String
  | .documentCreated created => some created.blobRef
  | .documentBlobValidated validated => some validated.blobRef
  | .documentBlobPruned _ _ => none
  | .documentMetadataChanged _ => none
  | .documentTextExtracted _ => none
  | .documentIndexed _ => none
  | .documentStageFailed _ => none
  | .documentReverted _ _ => none
  | .documentDeleted _ => none

/-- The metadata patch this event carries. -/
def patch? : DocumentEventPayload → Option MetadataPatch
  | .documentCreated created => some created.patch
  | .documentBlobValidated validated => some validated.patch
  | .documentMetadataChanged patch => some patch
  | .documentReverted _ patch => some patch
  | _ => none

def typeName : DocumentEventPayload → String
  | .documentCreated _ => "document_created"
  | .documentBlobValidated _ => "document_blob_validated"
  | .documentMetadataChanged _ => "document_metadata_changed"
  | .documentTextExtracted _ => "document_text_extracted"
  | .documentIndexed _ => "document_indexed"
  | .documentStageFailed _ => "document_stage_failed"
  | .documentReverted _ _ => "document_reverted"
  | .documentDeleted _ => "document_deleted"
  | .documentBlobPruned _ _ => "document_blob_pruned"

def isCreate : DocumentEventPayload → Bool
  | .documentCreated _ => true
  | _ => false

theorem advancesVersion_of_isCreate {payload : DocumentEventPayload}
    (create : payload.isCreate = true) : payload.advancesVersion = true := by
  cases payload <;> simp_all [isCreate, advancesVersion]

end DocumentEventPayload

/-- One durable fact about one document. -/
structure DocumentEvent where
  v : Nat
  eventId : String
  tenantId : String
  documentId : String
  actor : Actor
  /-- Document version after this event. -/
  version : Nat
  ts : Timestamp
  payload : DocumentEventPayload

/-- A log entry: the sequence it landed at, and the event. -/
abbrev Entry := Nat × DocumentEvent

namespace DocumentEvent

def advancesVersion (event : DocumentEvent) : Bool := event.payload.advancesVersion

/-- The event introduced this upload's bytes. -/
def Names (event : DocumentEvent) (uploadId : String) : Prop :=
  event.payload.blobRef = some uploadId

instance (event : DocumentEvent) (uploadId : String) : Decidable (event.Names uploadId) :=
  inferInstanceAs (Decidable (_ = _))

end DocumentEvent

end Delphi.Document
