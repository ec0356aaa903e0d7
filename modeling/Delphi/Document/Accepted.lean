/-
# Delphi.Document.Accepted -- what an accepted upload becomes in the log

An upload is accepted when preflight created its record and complete published
its work item.  The event the worker builds from it carries the request's
filename and content type, trimmed, and its patch, validated; identifiers have no
NUL by construction.

Trimming and validation leave a NUL where it is, so the row such an event
projects to is storable exactly when the request had none (`apply_built`).
-/
import Delphi.Document.Service

namespace Delphi.Document

open Delphi.Theory

set_option autoImplicit false

/-! ## Text without a NUL -/

@[simp] theorem textStorable_append (first second : String) :
    textStorable (first ++ second) = (textStorable first && textStorable second) := by
  rw [Bool.eq_iff_iff]
  simp [textStorable_iff]

theorem tagsToValue_storable {tags : List String} :
    (tagsToValue tags).storable = true ↔ ∀ tag ∈ tags, textStorable tag = true := by
  unfold tagsToValue
  rw [Json.storable]
  induction tags with
  | nil => simp [Json.storableItems]
  | cons tag rest ih => simp [Json.storableItems, Json.storable, ih]

namespace DocumentState

/-- The columns no metadata patch writes. -/
def contentStorable (state : DocumentState) : Bool :=
  textStorable state.tenantId && textStorable state.documentId && textStorable state.ownerUserId &&
  textStorable state.state.asStr && textStorable state.indexState.asStr &&
  state.currentBlob.all textStorable && state.filename.all textStorable &&
  state.contentType.all textStorable && state.checksum.all textStorable

theorem storable_iff {state : DocumentState} :
    state.storable = true ↔ state.contentStorable = true ∧ state.title.all textStorable = true ∧
      (tagsToValue state.tags).storable = true ∧ state.description.all textStorable = true ∧
      state.metadata.storable = true := by
  unfold storable contentStorable
  simp only [Bool.and_eq_true, and_assoc]

end DocumentState

theorem DocState.textStorable_asStr (state : DocState) : textStorable state.asStr = true := by
  cases state <;> decide

theorem IndexState.textStorable_asStr (state : IndexState) : textStorable state.asStr = true := by
  cases state <;> decide

namespace MetadataPatch

/-- No title, description, metadata string or metadata key has a NUL. -/
def plain (patch : MetadataPatch) : Bool :=
  patch.title.all textStorable && patch.description.all textStorable &&
  patch.metadata.all Json.storable

/-- Every tag is one a column takes. -/
def TagsStorable (patch : MetadataPatch) : Prop :=
  ∀ tags ∈ patch.tags, ∀ tag ∈ tags, textStorable tag = true

end MetadataPatch

theorem all_or_else {written old : Option String} (kept : old.all textStorable = true) :
    (written <|> old).all textStorable = written.all textStorable := by
  cases written with
  | none => simpa using kept
  | some text => rfl

/-- Over storable metadata, a patch with storable tags writes what it carries. -/
theorem mergePatch_storable {state : DocumentState} {patch : MetadataPatch}
    (title : state.title.all textStorable = true)
    (tags : (tagsToValue state.tags).storable = true)
    (description : state.description.all textStorable = true)
    (metadata : state.metadata.storable = true) (checked : patch.TagsStorable) :
    (mergePatch state patch).storable = true ↔
      state.contentStorable = true ∧ patch.plain = true := by
  have content : (mergePatch state patch).contentStorable = state.contentStorable := rfl
  have tagged : (tagsToValue (mergePatch state patch).tags).storable = true := by
    simp only [mergePatch]
    cases written : patch.tags with
    | none => exact tags
    | some values => exact tagsToValue_storable.mpr (checked values written)
  have object : (mergePatch state patch).metadata.storable = patch.metadata.all Json.storable := by
    simp only [mergePatch]
    cases patch.metadata with
    | none => simpa using metadata
    | some value => rfl
  rw [DocumentState.storable_iff, content, object]
  simp only [mergePatch, all_or_else title, all_or_else description, MetadataPatch.plain,
    Bool.and_eq_true]
  constructor
  · rintro ⟨contents, titled, -, described, meta_⟩
    exact ⟨contents, ⟨titled, described⟩, meta_⟩
  · rintro ⟨contents, ⟨titled, described⟩, meta_⟩
    exact ⟨contents, titled, tagged, described, meta_⟩

/-! ## Accepted uploads -/

open DocumentService

/-- An upload the API took: the run of preflight that created its record, and the
run of complete that published its work item. -/
structure AcceptedUpload where
  principal : Principal
  policy : UploadPolicy
  preflightRequest : PreflightRequest
  completeRequest : CompleteRequest
  created : UploadState
  command : UploadCompleted
  opened : Trace ServicePorts
  response : PreflightResponse
  preflighted : (preflight policy principal.tenantId principal.userId preflightRequest).Resumes
    opened (.ret (.ok response))
  identifiers : Facts generated opened
  creates : (⟨.createUpload created, .ok ()⟩ : Call ServicePorts) ∈ opened
  completing : Trace ServicePorts
  rest : Program ServicePorts (Except DocumentError Unit)
  completed : (complete principal.tenantId principal.userId created.uploadId
    completeRequest).Resumes completing rest
  publishes : (⟨.publishUploadCompleted command, .ok ()⟩ : Call ServicePorts) ∈ completing
  /-- Only the status of a record moves. -/
  kept : ∀ context, Loads context completing → created.SameUpload context

theorem UploadState.SameUpload.named {created context : UploadState}
    (same : created.SameUpload context) : context.documentId = created.documentId ∧
      context.filename = created.filename ∧ context.contentType = created.contentType := by
  unfold UploadState.SameUpload at same
  rw [← same]
  exact ⟨rfl, rfl, rfl⟩

namespace AcceptedUpload

/-- Nothing the request named has a NUL. Of its fields, only tags are checked. -/
def plain (upload : AcceptedUpload) : Bool :=
  textStorable upload.preflightRequest.filename &&
  upload.preflightRequest.contentType.all textStorable && upload.completeRequest.patch.plain

theorem created_fields (upload : AcceptedUpload) :
    upload.created.tenantId = upload.principal.tenantId ∧
    upload.created.ownerUserId = upload.principal.userId ∧
    isSafeSegment upload.created.uploadId = true ∧ isSafeSegment upload.created.documentId = true ∧
    upload.created.filename = trim upload.preflightRequest.filename ∧
    upload.created.contentType = contentTypeOf upload.preflightRequest.contentType := by
  obtain ⟨before, -, created⟩ :=
    (along_preflight _ _ _ _).issued upload.preflighted upload.identifiers upload.creates
  exact created

theorem published (upload : AcceptedUpload) :
    validateMetadataPatch upload.completeRequest.patch = .ok () ∧
    ∃ context, upload.created.SameUpload context ∧
      upload.command = uploadCompleted upload.principal.tenantId upload.principal.userId
        upload.created.uploadId context upload.completeRequest := by
  obtain ⟨before, earlier, valid, context, ⟨key, revision, read⟩, built⟩ :=
    (along_complete _ _ _ _).issued upload.completed (fun _ _ _ _ _ => trivial) upload.publishes
  exact ⟨valid, context, upload.kept context ⟨key, revision, earlier.subset read⟩, built⟩

theorem identifiers_safe (upload : AcceptedUpload) :
    isSafeSegment upload.command.tenantId = true ∧
    isSafeSegment upload.command.ownerUserId = true ∧
    isSafeSegment upload.command.uploadId = true ∧
    isSafeSegment upload.command.documentId = true := by
  obtain ⟨-, context, same, built⟩ := upload.published
  obtain ⟨-, -, uploadId, documentId, -⟩ := upload.created_fields
  rw [built]
  rw [← same.named.1] at documentId
  exact ⟨upload.principal.safeTenant, upload.principal.safeUser, uploadId, documentId⟩

theorem identifiers_plain (upload : AcceptedUpload) :
    textStorable upload.command.tenantId = true ∧ textStorable upload.command.ownerUserId = true ∧
    textStorable upload.command.uploadId = true ∧ textStorable upload.command.documentId = true := by
  obtain ⟨tenantId, userId, uploadId, documentId⟩ := upload.identifiers_safe
  exact ⟨textStorable_of_isSafeSegment tenantId, textStorable_of_isSafeSegment userId,
    textStorable_of_isSafeSegment uploadId, textStorable_of_isSafeSegment documentId⟩

theorem command_patch (upload : AcceptedUpload) :
    upload.command.patch = upload.completeRequest.patch ∧ upload.command.patch.TagsStorable := by
  obtain ⟨valid, context, -, built⟩ := upload.published
  rw [built]
  exact ⟨rfl, validateMetadataPatch_tags valid⟩

theorem textStorable_contentTypeOf (contentType : Option String) :
    textStorable (contentTypeOf contentType) = contentType.all textStorable := by
  cases contentType with
  | none => decide
  | some value =>
      by_cases blank : trim value = ""
      · have kept : textStorable value = true := by
          rw [← textStorable_trim, blank]
          decide
        simp only [contentTypeOf, blank, Option.map_some, Option.all_some, kept]
        decide
      · simp [contentTypeOf, blank, Option.filter_some, textStorable_trim]

/-- The worker is handed a NUL exactly where the request had one. -/
theorem plain_iff (upload : AcceptedUpload) :
    upload.plain = true ↔ (textStorable upload.command.filename = true ∧
      textStorable upload.command.contentType = true) ∧ upload.command.patch.plain = true := by
  obtain ⟨-, context, same, built⟩ := upload.published
  obtain ⟨-, -, -, -, filename, contentType⟩ := upload.created_fields
  have sameName : upload.command.filename = upload.created.filename := by
    rw [built]
    exact same.named.2.1
  have sameType : upload.command.contentType = upload.created.contentType := by
    rw [built]
    exact same.named.2.2
  rw [sameName, sameType, filename, contentType, textStorable_trim, textStorable_contentTypeOf,
    upload.command_patch.1, plain]
  simp only [Bool.and_eq_true]

end AcceptedUpload

/-! ## The event -/

section Event

variable (digest : String → String)

/-- The event the worker appends for a work item; the checksum is hexadecimal. -/
inductive Builds (command : UploadCompleted) : DocumentEvent → Prop where
  | created {sha256Hex : String} {ts : Timestamp} (mode : command.mode = .create)
      (hex : textStorable sha256Hex = true) :
      Builds command (UploadFinisher.createdEvent digest command sha256Hex ts)
  | replaced {sha256Hex : String} {ts : Timestamp} {version : Nat} (mode : command.mode = .replace)
      (hex : textStorable sha256Hex = true) :
      Builds command (UploadFinisher.replacedEvent digest command sha256Hex ts version)

variable {digest}

theorem Builds.streamKey {command : UploadCompleted} {event : DocumentEvent}
    (built : Builds digest command event) : event.streamKey = command.streamKey := by
  cases built <;> rfl

theorem checksum_storable {sha256Hex : String} (hex : textStorable sha256Hex = true) :
    textStorable (checksum sha256Hex) = true := by
  rw [checksum, textStorable_append, hex]
  decide

/-- A row of this document. -/
def RowOf (key : StreamKey) (prior : Option DocumentState) : Prop :=
  ∀ state, prior = some state → state.storable = true ∧ state.streamKey = key

theorem RowOf.checked {event : DocumentEvent} {prior : Option DocumentState}
    (row : RowOf event.streamKey prior) : checkDocument prior event = .ok () := by
  cases prior with
  | none => rfl
  | some state => exact checkDocument_some (congrArg Prod.snd (row state rfl).2)

theorem apply_createdEvent {upload : AcceptedUpload} {sha256Hex : String} {ts : Timestamp}
    (hex : textStorable sha256Hex = true) {prior : Option DocumentState}
    (row : RowOf upload.command.streamKey prior) (seq : Nat) :
    ∃ state, apply prior (UploadFinisher.createdEvent digest upload.command sha256Hex ts) seq =
        .ok state ∧ state.streamKey = upload.command.streamKey ∧
      (state.storable = true ↔ upload.plain = true) := by
  obtain ⟨tenantId, userId, uploadId, documentId⟩ := upload.identifiers_plain
  have checked : checkDocument prior
      (UploadFinisher.createdEvent digest upload.command sha256Hex ts) = .ok () := RowOf.checked row
  unfold apply
  rw [checked]
  refine ⟨_, rfl, rfl, ?_⟩
  simp only [UploadFinisher.createdEvent]
  rw [mergePatch_storable rfl rfl rfl rfl upload.command_patch.2, upload.plain_iff]
  simp [DocumentState.contentStorable, seed, tenantId, userId, uploadId, documentId,
    checksum_storable hex, DocState.textStorable_asStr, IndexState.textStorable_asStr]

theorem apply_replacedEvent {upload : AcceptedUpload} {sha256Hex : String} {ts : Timestamp}
    {version : Nat} (hex : textStorable sha256Hex = true) {prior : DocumentState}
    (storable : prior.storable = true) (keyed : prior.streamKey = upload.command.streamKey)
    (seq : Nat) :
    ∃ state, apply (some prior)
        (UploadFinisher.replacedEvent digest upload.command sha256Hex ts version) seq = .ok state ∧
      state.streamKey = upload.command.streamKey ∧ (state.storable = true ↔ upload.plain = true) := by
  obtain ⟨-, -, uploadId, -⟩ := upload.identifiers_plain
  obtain ⟨content, title, tags, description, metadata⟩ := DocumentState.storable_iff.mp storable
  have checked : checkDocument (some prior)
      (UploadFinisher.replacedEvent digest upload.command sha256Hex ts version) = .ok () :=
    checkDocument_some (congrArg Prod.snd keyed)
  unfold apply
  rw [checked]
  refine ⟨_, rfl, keyed, ?_⟩
  simp only [UploadFinisher.replacedEvent, amend]
  rw [mergePatch_storable ?_ ?_ ?_ ?_ upload.command_patch.2, upload.plain_iff]
  · simp only [DocumentState.contentStorable, Bool.and_eq_true, and_assoc] at content
    simp [DocumentState.contentStorable, content, uploadId, checksum_storable hex,
      IndexState.textStorable_asStr]
  · exact title
  · exact tags
  · exact description
  · exact metadata

/-- Over any row of its document an accepted upload's event is folded, and the row
it makes is storable exactly when the request had no NUL. A replace of a document
that has no row is the one event that is not folded. -/
theorem apply_built {upload : AcceptedUpload} {event : DocumentEvent}
    (built : Builds digest upload.command event) {prior : Option DocumentState}
    (row : RowOf event.streamKey prior) (seq : Nat) :
    (upload.command.mode = .replace ∧ prior = none ∧ apply prior event seq =
      .error (.noPriorState event.documentId "document_blob_validated")) ∨
    ∃ state, apply prior event seq = .ok state ∧ state.streamKey = event.streamKey ∧
      (state.storable = true ↔ upload.plain = true) := by
  cases built with
  | created mode hex => exact .inr (apply_createdEvent hex row seq)
  | replaced mode hex =>
      cases prior with
      | none => exact .inl ⟨mode, rfl, rfl⟩
      | some state =>
          obtain ⟨storable, keyed⟩ := row state rfl
          exact .inr (apply_replacedEvent hex storable keyed seq)

end Event

end Delphi.Document
