/-
# Delphi.Document.Fold -- folding a document's log into its state

`apply` of `document-domain/src/fold.rs`, with its three errors, and
`fold_history` of the worker, which folds a whole stream.

A folded event stamps its version and sequence on the state (`apply_stamp`), and
once a document has state only a system-authored create can fail on it
(`apply_some_ok`); the fold of a whole stream therefore ends at its last event
(`foldHistory_snoc`).
-/
import Delphi.Document.Events

namespace Delphi.Document

set_option autoImplicit false

inductive DocState where
  | active
  | deleted
deriving DecidableEq

inductive IndexState where
  | pending
  | current
  | failed
deriving DecidableEq

namespace DocState

def asStr : DocState → String
  | .active => "active"
  | .deleted => "deleted"

def parse (value : String) : Option DocState :=
  if value = "active" then some .active
  else if value = "deleted" then some .deleted
  else none

end DocState

namespace IndexState

def asStr : IndexState → String
  | .pending => "pending"
  | .current => "current"
  | .failed => "failed"

def parse (value : String) : Option IndexState :=
  if value = "pending" then some .pending
  else if value = "current" then some .current
  else if value = "failed" then some .failed
  else none

end IndexState

/-- The folded state of one document; a row of the `document` table. -/
structure DocumentState where
  tenantId : String
  documentId : String
  ownerUserId : String
  version : Nat
  /-- Sequence of the last event folded in. -/
  streamSeq : Nat
  state : DocState
  indexState : IndexState
  indexVersion : Option Nat
  currentBlob : Option String
  filename : Option String
  contentType : Option String
  byteSize : Option Nat
  checksum : Option String
  title : Option String
  tags : List String
  description : Option String
  metadata : Json
  createdAt : Timestamp
  updatedAt : Timestamp

inductive FoldError where
  | noPriorState (documentId eventType : String)
  | systemActorCreate (documentId : String)
  | documentMismatch (expected actual : String)

namespace FoldError

def display : FoldError → String
  | .noPriorState documentId eventType =>
      "event " ++ eventType ++ " for document " ++ documentId ++ " arrived with no prior state"
  | .systemActorCreate documentId =>
      "document " ++ documentId ++ " was created by a system actor; a create must name a user"
  | .documentMismatch expected actual =>
      "event for document " ++ actual ++ " folded into state for " ++ expected

end FoldError

def mergePatch (state : DocumentState) (patch : MetadataPatch) : DocumentState :=
  { state with
    title := patch.title <|> state.title
    tags := patch.tags.getD state.tags
    description := patch.description <|> state.description
    metadata := patch.metadata.getD state.metadata }

/-- What a create seeds, before its patch. -/
def seed (event : DocumentEvent) (created : DocumentCreated) (userId : String)
    (createdAt : Timestamp) (streamSeq : Nat) : DocumentState where
  tenantId := event.tenantId
  documentId := event.documentId
  ownerUserId := userId
  version := event.version
  streamSeq := streamSeq
  state := .active
  indexState := .pending
  indexVersion := none
  currentBlob := some created.blobRef
  filename := some created.filename
  contentType := some created.contentType
  byteSize := some created.byteSize
  checksum := some created.checksum
  title := none
  tags := []
  description := none
  metadata := .object []
  createdAt := createdAt
  updatedAt := event.ts

/-- What a non-create payload does to a state already stamped with the event's
version, sequence and time. A create is handled by `apply`. -/
def amend (next : DocumentState) : DocumentEventPayload → DocumentState
  | .documentCreated _ => next
  | .documentBlobValidated validated =>
      mergePatch
        { next with
          currentBlob := some validated.blobRef
          filename := some validated.filename
          contentType := some validated.contentType
          byteSize := some validated.byteSize
          checksum := some validated.checksum
          indexState := .pending }
        validated.patch
  | .documentMetadataChanged patch => mergePatch next patch
  | .documentReverted _ patch => mergePatch next patch
  | .documentDeleted _ => { next with state := .deleted }
  | .documentIndexed indexed =>
      { next with
        indexVersion := some indexed.forVersion
        indexState := if indexed.forVersion ≥ next.version then .current else .pending }
  | .documentStageFailed failed =>
      if failed.stage = indexStage then { next with indexState := .failed } else next
  | .documentTextExtracted _ => next
  | .documentBlobPruned _ _ => next

/-- State of one document never takes another document's event. -/
def checkDocument (state : Option DocumentState) (event : DocumentEvent) : Except FoldError Unit :=
  match state with
  | some existing =>
      if existing.documentId ≠ event.documentId then
        .error (.documentMismatch existing.documentId event.documentId)
      else .ok ()
  | none => .ok ()

/-- Fold one event into the state. -/
def apply (state : Option DocumentState) (event : DocumentEvent) (streamSeq : Nat) :
    Except FoldError DocumentState :=
  match checkDocument state event with
  | .error error => .error error
  | .ok () =>
      match event.payload with
      | .documentCreated created =>
          match event.actor with
          | .user userId =>
              -- A create onto existing state re-seeds it and keeps its birth time.
              let createdAt := (state.map (·.createdAt)).getD event.ts
              .ok (mergePatch (seed event created userId createdAt streamSeq) created.patch)
          | .system _ => .error (.systemActorCreate event.documentId)
      | payload =>
          match state with
          | none => .error (.noPriorState event.documentId payload.typeName)
          | some existing =>
              .ok (amend { existing with
                version := event.version, streamSeq := streamSeq, updatedAt := event.ts } payload)

/-- Fold a stream from a given state; the first failing event ends the fold. -/
def foldFrom : Option DocumentState → List Entry → Except FoldError (Option DocumentState)
  | state, [] => .ok state
  | state, (seq, event) :: rest =>
      match apply state event seq with
      | .ok next => foldFrom (some next) rest
      | .error error => .error error

def foldHistory (history : List Entry) : Except FoldError (Option DocumentState) :=
  foldFrom none history

/-! ## What a fold step keeps and sets -/

@[simp] theorem mergePatch_version (state : DocumentState) (patch : MetadataPatch) :
    (mergePatch state patch).version = state.version := rfl

@[simp] theorem mergePatch_streamSeq (state : DocumentState) (patch : MetadataPatch) :
    (mergePatch state patch).streamSeq = state.streamSeq := rfl

@[simp] theorem mergePatch_documentId (state : DocumentState) (patch : MetadataPatch) :
    (mergePatch state patch).documentId = state.documentId := rfl

@[simp] theorem mergePatch_tenantId (state : DocumentState) (patch : MetadataPatch) :
    (mergePatch state patch).tenantId = state.tenantId := rfl

theorem amend_stamp (next : DocumentState) (payload : DocumentEventPayload) :
    (amend next payload).version = next.version ∧ (amend next payload).streamSeq = next.streamSeq ∧
      (amend next payload).documentId = next.documentId ∧
      (amend next payload).tenantId = next.tenantId := by
  cases payload with
  | documentStageFailed failed =>
      simp only [amend]
      split <;> exact ⟨rfl, rfl, rfl, rfl⟩
  | _ => exact ⟨rfl, rfl, rfl, rfl⟩

@[simp] theorem checkDocument_none (event : DocumentEvent) :
    checkDocument none event = .ok () := rfl

theorem checkDocument_some {existing : DocumentState} {event : DocumentEvent}
    (same : existing.documentId = event.documentId) :
    checkDocument (some existing) event = .ok () := by
  simp [checkDocument, same]

/-- A folded event stamps its version, its sequence and its document. -/
theorem apply_stamp {state : Option DocumentState} {event : DocumentEvent} {seq : Nat}
    {next : DocumentState} (folded : apply state event seq = .ok next) :
    next.version = event.version ∧ next.streamSeq = seq ∧ next.documentId = event.documentId := by
  unfold apply at folded
  split at folded
  · cases folded
  rename_i checked
  split at folded
  · split at folded
    · cases folded
      exact ⟨rfl, rfl, rfl⟩
    · cases folded
  · split at folded
    · cases folded
    · rename_i existing
      cases folded
      have sameDocument : existing.documentId = event.documentId := by
        by_contra differs
        simp [checkDocument, differs] at checked
      obtain ⟨version, seq, document, -⟩ := amend_stamp
        { existing with version := event.version, streamSeq := seq, updatedAt := event.ts }
        event.payload
      exact ⟨version, seq, document.trans sameDocument⟩

/-- On existing state of the same document a non-create event always folds. -/
theorem apply_some_ok {existing : DocumentState} {event : DocumentEvent} (seq : Nat)
    (same : existing.documentId = event.documentId)
    (later : event.payload.isCreate = false) :
    ∃ next, apply (some existing) event seq = .ok next := by
  unfold apply
  simp only [checkDocument_some same]
  cases payload : event.payload <;> simp_all [DocumentEventPayload.isCreate]

/-- A user-authored create folds onto the empty state. -/
theorem apply_none_create {event : DocumentEvent} {userId : String} (seq : Nat)
    (first : event.payload.isCreate = true) (authored : event.actor = .user userId) :
    ∃ next, apply none event seq = .ok next := by
  unfold apply
  cases payload : event.payload <;> simp_all [DocumentEventPayload.isCreate]

theorem foldFrom_append (state : Option DocumentState) (front back : List Entry) :
    foldFrom state (front ++ back) =
      match foldFrom state front with
      | .ok reached => foldFrom reached back
      | .error error => .error error := by
  induction front generalizing state with
  | nil => rfl
  | cons entry rest ih =>
      obtain ⟨seq, event⟩ := entry
      simp only [List.cons_append, foldFrom]
      cases apply state event seq with
      | ok next => exact ih _
      | error error => rfl

/-- The fold of a stream carries the version and sequence of its last event. -/
theorem foldHistory_snoc {history : List Entry} {entry : Entry} {state : DocumentState}
    (folded : foldHistory (history ++ [entry]) = .ok (some state)) :
    state.version = entry.2.version ∧ state.streamSeq = entry.1 ∧
      state.documentId = entry.2.documentId := by
  obtain ⟨seq, event⟩ := entry
  unfold foldHistory at folded
  rw [foldFrom_append] at folded
  cases front : foldFrom none history with
  | error error => simp [front] at folded
  | ok reached =>
      simp only [front, foldFrom] at folded
      cases step : apply reached event seq with
      | error error => simp [step] at folded
      | ok next =>
          simp only [step, Except.ok.injEq, Option.some.injEq] at folded
          subst folded
          exact apply_stamp step

end Delphi.Document
