/-
# Delphi.Document.Fields -- the fields of a document's state

A document's state is the family of its fields, one for each column of the
table.  Over that family every event is an overwriting update
(`overwrites_fields`): the one field it computes from state, the index state, is
computed from the version it has just stamped.
-/
import Delphi.Theory.Overwrite
import Delphi.Document.Projection

namespace Delphi.Document

open Delphi.Theory

set_option autoImplicit false

attribute [ext] DocumentState

inductive Column where
  | tenantId | documentId | ownerUserId | version | streamSeq | state | indexState
  | indexVersion | currentBlob | filename | contentType | byteSize | checksum | title | tags
  | description | metadata | createdAt | updatedAt

namespace Column

abbrev Field : Column → Type
  | .tenantId | .documentId | .ownerUserId => String
  | .version | .streamSeq => Nat
  | .state => DocState
  | .indexState => IndexState
  | .indexVersion | .byteSize => Option Nat
  | .currentBlob | .filename | .contentType | .checksum | .title | .description => Option String
  | .tags => List String
  | .metadata => Json
  | .createdAt | .updatedAt => Timestamp

/-- The field of a state that a column is for. -/
def field (column : Column) (state : DocumentState) : column.Field :=
  match column with
  | .tenantId => state.tenantId
  | .documentId => state.documentId
  | .ownerUserId => state.ownerUserId
  | .version => state.version
  | .streamSeq => state.streamSeq
  | .state => state.state
  | .indexState => state.indexState
  | .indexVersion => state.indexVersion
  | .currentBlob => state.currentBlob
  | .filename => state.filename
  | .contentType => state.contentType
  | .byteSize => state.byteSize
  | .checksum => state.checksum
  | .title => state.title
  | .tags => state.tags
  | .description => state.description
  | .metadata => state.metadata
  | .createdAt => state.createdAt
  | .updatedAt => state.updatedAt

end Column

/-- A state is its fields. -/
theorem eq_of_sameFields {state other : DocumentState}
    (same : SameFields Column.field state other) : state = other :=
  DocumentState.ext (same .tenantId) (same .documentId) (same .ownerUserId) (same .version)
    (same .streamSeq) (same .state) (same .indexState) (same .indexVersion) (same .currentBlob)
    (same .filename) (same .contentType) (same .byteSize) (same .checksum) (same .title)
    (same .tags) (same .description) (same .metadata) (same .createdAt) (same .updatedAt)

/-! ## Events overwrite -/

theorem overwrites_mergePatch (patch : MetadataPatch) :
    Overwrites (Column.field) (fun state => mergePatch state patch) := by
  intro column
  cases column with
  | title =>
      cases written : patch.title with
      | some title => exact .inl fun _ _ => by simp [Column.field, mergePatch, written]
      | none => exact .inr fun _ => by simp [Column.field, mergePatch, written]
  | tags =>
      cases written : patch.tags with
      | some tags => exact .inl fun _ _ => by simp [Column.field, mergePatch, written]
      | none => exact .inr fun _ => by simp [Column.field, mergePatch, written]
  | description =>
      cases written : patch.description with
      | some description =>
          exact .inl fun _ _ => by simp [Column.field, mergePatch, written]
      | none => exact .inr fun _ => by simp [Column.field, mergePatch, written]
  | metadata =>
      cases written : patch.metadata with
      | some metadata =>
          exact .inl fun _ _ => by simp [Column.field, mergePatch, written]
      | none => exact .inr fun _ => by simp [Column.field, mergePatch, written]
  | _ => exact .inr fun _ => rfl

/-- The version, sequence and time an event stamps. -/
theorem overwrites_stamp (version seq : Nat) (ts : Timestamp) :
    Overwrites (Column.field)
      (fun state => { state with version := version, streamSeq := seq, updatedAt := ts }) := by
  intro column
  cases column with
  | version => exact .inl fun _ _ => rfl
  | streamSeq => exact .inl fun _ _ => rfl
  | updatedAt => exact .inl fun _ _ => rfl
  | _ => exact .inr fun _ => rfl

theorem overwrites_content (validated : DocumentBlobValidated) :
    Overwrites (Column.field) (fun state =>
      { state with
        currentBlob := some validated.blobRef
        filename := some validated.filename
        contentType := some validated.contentType
        byteSize := some validated.byteSize
        checksum := some validated.checksum
        indexState := .pending }) := by
  intro column
  cases column with
  | currentBlob => exact .inl fun _ _ => rfl
  | filename => exact .inl fun _ _ => rfl
  | contentType => exact .inl fun _ _ => rfl
  | byteSize => exact .inl fun _ _ => rfl
  | checksum => exact .inl fun _ _ => rfl
  | indexState => exact .inl fun _ _ => rfl
  | _ => exact .inr fun _ => rfl

theorem overwrites_state (docState : DocState) :
    Overwrites (Column.field) (fun state => { state with state := docState }) := by
  intro column
  cases column with
  | state => exact .inl fun _ _ => rfl
  | _ => exact .inr fun _ => rfl

theorem overwrites_indexState (indexState : IndexState) :
    Overwrites (Column.field) (fun state => { state with indexState := indexState }) := by
  intro column
  cases column with
  | indexState => exact .inl fun _ _ => rfl
  | _ => exact .inr fun _ => rfl

theorem overwrites_indexVersion (indexVersion : Option Nat) :
    Overwrites (Column.field)
      (fun state => { state with indexVersion := indexVersion }) := by
  intro column
  cases column with
  | indexVersion => exact .inl fun _ _ => rfl
  | _ => exact .inr fun _ => rfl

/-- An event writes each field or leaves it, whatever the state: the only value
computed from state, the index state, is computed from the version the event
itself stamps. -/
theorem overwrites_fields (event : DocumentEvent) (seq : Nat) :
    Overwrites (Column.field) (event.act seq) := by
  have stamped := overwrites_stamp event.version seq event.ts
  unfold DocumentEvent.act
  cases event.payload with
  | documentCreated created =>
      cases event.actor with
      | user userId =>
          intro column
          cases column with
          | createdAt => exact .inr fun _ => rfl
          | _ => exact .inl fun _ _ => rfl
      | system component => exact .id
  | documentBlobValidated validated =>
      exact (overwrites_mergePatch validated.patch).comp
        ((overwrites_content validated).comp stamped)
  | documentMetadataChanged patch => exact (overwrites_mergePatch patch).comp stamped
  | documentReverted revertedTo patch => exact (overwrites_mergePatch patch).comp stamped
  | documentDeleted reason => exact (overwrites_state .deleted).comp stamped
  | documentIndexed indexed =>
      have marked := overwrites_indexState
        (if indexed.forVersion ≥ event.version then .current else .pending)
      exact marked.comp ((overwrites_indexVersion (some indexed.forVersion)).comp stamped)
  | documentStageFailed failed =>
      simp only [amend]
      split
      · exact (overwrites_indexState .failed).comp stamped
      · exact stamped
  | documentTextExtracted extracted => exact stamped
  | documentBlobPruned blobRef reason => exact stamped

end Delphi.Document
