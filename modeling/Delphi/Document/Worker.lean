/-
# Delphi.Document.Worker -- finishing an upload

`worker.rs`, with the keys of `keys.rs` and the command of `command.rs`: one
work item drives assembling the multipart, validating, scanning and appending,
and every answer the ports can give is handled.  `run` is cut where the source
numbers its steps; each piece is a definition of its own and ends in the next.

SHA-256 is a package of its own.  It enters as `digest`, the lower-case hex of
the first sixteen bytes of the hash of a string; the digest of the object's
bytes is the scanner's answer.
-/
import Delphi.Document.Append
import Delphi.Document.Transition

namespace Delphi.Document

open Delphi.Theory

set_option autoImplicit false

/-! ## The command -/

inductive ConflictPolicy where
  | supersede
  | fail
deriving DecidableEq

structure UploadCompleted where
  tenantId : String
  ownerUserId : String
  uploadId : String
  documentId : String
  mode : UploadMode
  storageKey : String
  multipartUploadId : String
  filename : String
  contentType : String
  declaredSize : Nat
  ifMatch : Option Nat
  onConflict : ConflictPolicy
  patch : MetadataPatch

namespace UploadCompleted

def streamKey (command : UploadCompleted) : StreamKey := (command.tenantId, command.documentId)

/-- Where the upload's record lives. -/
def recordKey (command : UploadCompleted) : String :=
  UploadState.key command.tenantId command.ownerUserId command.uploadId

def declared (command : UploadCompleted) : DeclaredContent :=
  ⟨command.filename, command.contentType, command.declaredSize⟩

end UploadCompleted

inductive FinishOutcome where
  | accepted (documentId : String) (version : Nat) (superseded : Bool)
  | rejected (reason : String)
  | retry (error : String)
deriving DecidableEq

/-! ## Keys -/

namespace Keys

def objectKey (tenantId uploadId : String) : String :=
  "tenants/" ++ tenantId ++ "/blobs/" ++ uploadId ++ "/original"

section EventIds

variable (digest : String → String)

/-- Deterministic id for the event a completed upload produces. -/
def eventId (tenantId uploadId kind : String) : String :=
  digest (tenantId ++ "|" ++ uploadId ++ "|" ++ kind)

def createdEventId (tenantId uploadId : String) : String := eventId digest tenantId uploadId "created"

def blobValidatedEventId (tenantId uploadId : String) : String :=
  eventId digest tenantId uploadId "blob_validated"

end EventIds

end Keys

def checksum (sha256Hex : String) : String := "sha256:" ++ sha256Hex

/-- Did the uploader look at another version than the one this event replaced? -/
def basedElsewhere (basedOnVersion : Option Nat) (version : Nat) : Bool :=
  basedOnVersion.any fun based => based ≠ version - 1

def supersededFlag (event : DocumentEvent) : Bool :=
  match event.payload with
  | .documentBlobValidated validated => basedElsewhere validated.basedOnVersion event.version
  | _ => false

/-- The first entry of a history that introduced the upload's bytes. -/
def findApplied (history : List Entry) (uploadId : String) : Option Entry :=
  history.find? fun entry => entry.2.Names uploadId

theorem names_of_findApplied {history : List Entry} {uploadId : String} {entry : Entry}
    (found : findApplied history uploadId = some entry) : entry.2.Names uploadId := by
  simpa using List.find?_some found

/-- Turn a recorded terminal status back into the outcome the caller acts on. -/
def replay (command : UploadCompleted) : UploadStatus → FinishOutcome
  | .accepted version superseded => .accepted command.documentId version superseded
  | .rejected reason => .rejected reason
  | other => .retry ("replay called with the non-terminal status " ++ other.asStr)

namespace UploadFinisher

/-- How much of the object the content validator gets to sniff. -/
def prefixBytes : Nat := 512

/-! ## Outcomes -/

/-- Write the terminal answer to the record; every failure is a log line. -/
def record (command : UploadCompleted) (status : UploadStatus) : Program Ports Unit := do
  let now ← ask .now
  let _ ← Transition.setStatus command.tenantId command.ownerUserId command.uploadId status now
  return ()

/-- Give the bytes back. A failed abort or delete is a log line. -/
def reclaim (command : UploadCompleted) : Program Ports Unit := do
  let _ ← ask (.abortMultipart command.storageKey command.multipartUploadId)
  let _ ← ask (.delete command.storageKey)
  return ()

def accept (command : UploadCompleted) (version : Nat) (superseded : Bool) :
    Program Ports FinishOutcome := do
  record command (.accepted version superseded)
  return .accepted command.documentId version superseded

/-- Reclaim the bytes, record why, and stop. -/
def reject (command : UploadCompleted) (reason : String) : Program Ports FinishOutcome := do
  reclaim command
  record command (.rejected reason)
  return .rejected reason

/-! ## Append paths -/

section Append

variable (digest : String → String)

def createdEvent (command : UploadCompleted) (sha256Hex : String) (ts : Timestamp) :
    DocumentEvent where
  v := documentContractVersion
  eventId := Keys.createdEventId digest command.tenantId command.uploadId
  tenantId := command.tenantId
  documentId := command.documentId
  actor := .user command.ownerUserId
  version := 1
  ts := ts
  payload := .documentCreated
    { blobRef := command.uploadId
      filename := command.filename
      contentType := command.contentType
      byteSize := command.declaredSize
      checksum := checksum sha256Hex
      patch := command.patch }

def replacedEvent (command : UploadCompleted) (sha256Hex : String) (ts : Timestamp)
    (version : Nat) : DocumentEvent where
  v := documentContractVersion
  eventId := Keys.blobValidatedEventId digest command.tenantId command.uploadId
  tenantId := command.tenantId
  documentId := command.documentId
  actor := .user command.ownerUserId
  version := version
  ts := ts
  payload := .documentBlobValidated
    { blobRef := command.uploadId
      filename := command.filename
      contentType := command.contentType
      byteSize := command.declaredSize
      checksum := checksum sha256Hex
      patch := command.patch
      basedOnVersion := command.ifMatch }

def appendCreated (command : UploadCompleted) (sha256Hex : String) :
    Program Ports FinishOutcome := do
  let ts ← ask .now
  match ← appendCreate (createdEvent digest command sha256Hex ts) with
  | .ok appended => accept command appended.version false
  -- A previous delivery already created it.
  | .error .alreadyCreated =>
      match ← ask (.last command.tenantId command.documentId) with
      | .ok (some (version, _)) => accept command version false
      | .ok none => return .retry "create conflicted but the document has no events"
      | .error error => return .retry error.display
  | .error error => return .retry error.display

/-- The uploader asked to fail, and the document is not at the version it saw. -/
def refusesVersion (command : UploadCompleted) (currentVersion : Nat) : Bool :=
  command.ifMatch.any (fun expected => expected ≠ currentVersion) &&
    decide (command.onConflict = .fail)

/-- `append_replaced` once its history is read and the conflict policy met. -/
def appendOnto (command : UploadCompleted) (sha256Hex : String) : Program Ports FinishOutcome := do
  let now ← ask .now
  -- No client version: the supersede decision was made on the history.
  match ← appendUpdate command.tenantId command.documentId none
      (replacedEvent digest command sha256Hex now) with
  | .ok appended =>
      accept command appended.version (basedElsewhere command.ifMatch appended.version)
  | .error error => return .retry error.display

def appendReplaced (command : UploadCompleted) (sha256Hex : String) :
    Program Ports FinishOutcome := do
  match ← ask (.readStream command.tenantId command.documentId) with
  | .error error => return .retry error.display
  | .ok history =>
      -- Redelivery guard, over the whole history.
      match findApplied history command.uploadId with
      | some (_, applied) => accept command applied.version (supersededFlag applied)
      | none =>
          match foldHistory history with
          | .ok none => reject command RejectReason.multipartLost
          | .error _ => reject command RejectReason.corruptHistory
          | .ok (some state) =>
              if refusesVersion command state.version then
                reject command RejectReason.versionConflict
              else appendOnto digest command sha256Hex

/-! ## The pipeline -/

/-- Step 4 and 5: scan, then append. -/
def scanAndAppend (command : UploadCompleted) : Program Ports FinishOutcome := do
  match ← ask (.openRead command.storageKey) with
  | .error error => return .retry error.display
  | .ok reader =>
      match ← ask (.scan reader) with
      | .error error => return .retry error.display
      | .ok outcome =>
          match outcome.verdict with
          | .infected _ => reject command RejectReason.malwareDetected
          | .clean =>
              -- The object changed between HEAD and GET.
              if outcome.byteCount ≠ command.declaredSize then
                reject command RejectReason.sizeMismatch
              else
                match command.mode with
                | .create => appendCreated digest command outcome.sha256Hex
                | .replace => appendReplaced digest command outcome.sha256Hex

/-- Step 2 and 3: hold the object to its declared size, then sniff its head. -/
def inspect (command : UploadCompleted) (head : BlobHead) : Program Ports FinishOutcome := do
  if head.byteSize ≠ command.declaredSize then
    reject command RejectReason.sizeMismatch
  else do
    match ← ask (.readPrefix command.storageKey prefixBytes) with
    | .error error => return .retry error.display
    | .ok beginning =>
        match ← ask (.validate head beginning command.declared) with
        | .error error => return .retry error.display
        | .ok (.rejected _) => reject command RejectReason.contentRejected
        | .ok .ok => scanAndAppend digest command

/-- The object exists, with its head when one was already fetched, or the work
item is finished. -/
inductive Assembled where
  | ready (head : Option BlobHead)
  | terminal (outcome : FinishOutcome)

/-- One HEAD decides whether a multipart that is gone left an object. -/
def settleByHead (command : UploadCompleted) : Program Ports Assembled := do
  match ← ask (.head command.storageKey) with
  | .ok (some head) => return .ready (some head)
  | .ok none =>
      let outcome ← reject command RejectReason.multipartLost
      return .terminal outcome
  | .error error => return .terminal (.retry error.display)

def completedParts (parts : List UploadedPart) : List CompletedPart :=
  (parts.map fun part => CompletedPart.mk part.partNumber part.etag).mergeSort
    fun part other => part.partNumber ≤ other.partNumber

/-- Step 1: bring the object into existence, or explain why it cannot be. -/
def assemble (command : UploadCompleted) : Program Ports Assembled := do
  match ← ask (.listParts command.storageKey command.multipartUploadId) with
  | .ok none => settleByHead command
  | .error error => return .terminal (.retry error.display)
  | .ok (some []) =>
      let outcome ← reject command RejectReason.invalidParts
      return .terminal outcome
  | .ok (some (part :: parts)) =>
      match ← ask (.completeMultipart command.storageKey command.multipartUploadId
          (completedParts (part :: parts))) with
      | .ok () => return .ready none
      | .error error =>
          match error.kind with
          | .noSuchUpload => settleByHead command
          | .transient => return .terminal (.retry error.display)
          | .invalidParts | .notFound | .permanent =>
              let outcome ← reject command RejectReason.invalidParts
              return .terminal outcome

/-- Steps 1 to 5. -/
def pipeline (command : UploadCompleted) : Program Ports FinishOutcome := do
  match ← assemble command with
  | .terminal outcome => return outcome
  | .ready (some head) => inspect digest command head
  | .ready none =>
      match ← ask (.head command.storageKey) with
      | .ok (some head) => inspect digest command head
      | .ok none => reject command RejectReason.multipartLost
      | .error error => return .retry error.display

/-- The record expired before this work item ran: clean up and give up, unless
the log says the upload was applied. -/
def discardExpired (command : UploadCompleted) : Program Ports FinishOutcome := do
  match ← ask (.readStream command.tenantId command.documentId) with
  | .error error => return .retry error.display
  | .ok history =>
      match findApplied history command.uploadId with
      | some (_, applied) => return .accepted command.documentId applied.version false
      | none =>
          reclaim command
          return .rejected RejectReason.uploadExpired

def run (command : UploadCompleted) : Program Ports FinishOutcome := do
  match ← Transition.load command.tenantId command.ownerUserId command.uploadId with
  | .error error => return .retry error.display
  | .ok none => discardExpired command
  | .ok (some state) =>
      if state.status.isTerminal then return replay command state.status
      else pipeline digest command

/-- Run one work item to a terminal answer. On the final delivery a transient
error becomes a rejection. -/
def finish (command : UploadCompleted) (finalDelivery : Bool) : Program Ports FinishOutcome := do
  match ← run digest command with
  | .retry error =>
      if finalDelivery then reject command RejectReason.pipelineFailed
      else return .retry error
  | outcome => return outcome

end Append

end UploadFinisher

end Delphi.Document
