/-
# Delphi.Document.Service -- opening and completing an upload

`preflight` and `complete` of `document-app/src/service.rs`, over the ports of
the worker and the ones only the API calls.  What a request becomes on its way
into the log is read off their paths: the record preflight creates holds the
trimmed filename and content type (`along_preflight`), and the command complete
publishes carries the record's and a patch that passed validation
(`along_complete`).
-/
import Delphi.Document.Geometry
import Delphi.Document.Validation
import Delphi.Document.Worker

namespace Delphi.Document

open Delphi.Theory

set_option autoImplicit false

/-! ## Callers -/

def maxPrincipalChars : Nat := 128

def isSafeSegment (value : String) : Bool :=
  value ≠ "" && charCount value ≤ maxPrincipalChars &&
  value.toList.all fun c => c.isAlphanum || c == '-' || c == '_'

/-- An authenticated caller; construction is the check. -/
structure Principal where
  tenantId : String
  userId : String
  safeTenant : isSafeSegment tenantId = true
  safeUser : isSafeSegment userId = true

inductive PrincipalError where
  | tenant
  | user
deriving DecidableEq

namespace PrincipalError

def display : PrincipalError → String
  | .tenant => "tenant_id must be 1..=128 characters of [A-Za-z0-9_-]"
  | .user => "user_id must be 1..=128 characters of [A-Za-z0-9_-]"

end PrincipalError

def Principal.new (tenantId userId : String) : Except PrincipalError Principal :=
  if safeTenant : isSafeSegment tenantId = true then
    if safeUser : isSafeSegment userId = true then .ok ⟨tenantId, userId, safeTenant, safeUser⟩
    else .error .user
  else .error .tenant

theorem not_mem_of_isSafeSegment {value : String} {c : Char} (safe : isSafeSegment value = true)
    (special : (c.isAlphanum || c == '-' || c == '_') = false) : c ∉ value.toList := by
  unfold isSafeSegment at safe
  rw [Bool.and_eq_true, List.all_eq_true] at safe
  intro mem
  have plain := safe.2 c mem
  rw [special] at plain
  cases plain

theorem textStorable_of_isSafeSegment {value : String} (safe : isSafeSegment value = true) :
    textStorable value = true :=
  textStorable_iff.mpr (not_mem_of_isSafeSegment safe (by decide))

/-! ## Ports of the API -/

inductive ReadError where
  | unavailable (message : String)
  | payload (message : String)

def ReadError.display : ReadError → String
  | .unavailable message => "read model unavailable: " ++ message
  | .payload message => "read model payload error: " ++ message

inductive QueueError where
  | unavailable (message : String)
  | payload (message : String)

def QueueError.display : QueueError → String
  | .unavailable message => "work queue unavailable: " ++ message
  | .payload message => "work queue payload error: " ++ message

inductive ServiceCall where
  | port (op : PortCall)
  | beginMultipart (key contentType : String)
  | createUpload (state : UploadState)
  | deleteUpload (tenant user uploadId : String)
  | getDocument (tenant documentId : String)
  | publishUploadCompleted (command : UploadCompleted)
  | ulid

@[reducible] def ServiceCall.Ans : ServiceCall → Type
  | .port op => op.Ans
  | .beginMultipart _ _ => Except BlobError String
  | .createUpload _ => Except ContextError Unit
  | .deleteUpload _ _ _ => Except ContextError Unit
  | .getDocument _ _ => Except ReadError (Option DocumentState)
  | .publishUploadCompleted _ => Except QueueError Unit
  | .ulid => String

abbrev ServicePorts : Signature := ⟨ServiceCall, ServiceCall.Ans⟩

abbrev request (op : ServiceCall) : Program ServicePorts op.Ans :=
  Program.perform (S := ServicePorts) op

/-- A program over the shared ports, run by the API. -/
def viaPorts {α : Type} : Program Ports α → Program ServicePorts α
  | .ret value => .ret value
  | .call op next => .call (.port op) (fun answer => viaPorts (next answer))

namespace DocumentService

def defaultContentType : String := "application/octet-stream"

structure UploadPolicy where
  maxUploadBytes : Nat
  partSizeBytes : Nat

structure PreflightRequest where
  /-- Absent to create, present to replace. -/
  documentId : Option String
  filename : String
  size : Nat
  contentType : Option String

structure PreflightResponse where
  uploadId : String
  documentId : String
  key : String
  partSizeBytes : Nat
  partCount : Nat

structure CompleteRequest where
  ifMatch : Option Nat
  onConflict : ConflictPolicy
  patch : MetadataPatch

/-! ## Preflight -/

/-- Existence comes from the event store; the projection is asked only whether the
document is deleted. -/
def resolveReplaceTarget (tenantId documentId : String) :
    Program ServicePorts (Except DocumentError Unit) := do
  match ← request (.port (.last tenantId documentId)) with
  | .error error => return .error (.internalIn "event store" error.display)
  | .ok none => return .error .notFound
  | .ok (some _) =>
      match ← request (.getDocument tenantId documentId) with
      | .error error => return .error (.internalIn "read model" error.display)
      | .ok (some document) =>
          if document.state = .deleted then return .error .deleted else return .ok ()
      | .ok none => return .ok ()

/-- The document a request is for, and what it does to it. -/
def resolveTarget (tenantId : String) (documentId : Option String) :
    Program ServicePorts (Except DocumentError (String × UploadMode)) :=
  match documentId with
  | some documentId => do
      match ← resolveReplaceTarget tenantId documentId with
      | .error error => return .error error
      | .ok () => return .ok (documentId, .replace)
  | none => do
      let documentId ← request .ulid
      return .ok (documentId, .create)

/-- Trimmed, and the default when nothing is left. -/
def contentTypeOf (contentType : Option String) : String :=
  ((contentType.map trim).filter fun value => value ≠ "").getD defaultContentType

/-- Undo a failed preflight; neither failure is reported. -/
def unwindPreflight (state : UploadState) : Program ServicePorts Unit := do
  let _ ← request (.deleteUpload state.tenantId state.ownerUserId state.uploadId)
  let _ ← request (.port (.abortMultipart state.storageKey state.multipartUploadId))
  return ()

/-- The record of an upload whose multipart is open. -/
def uploadRecord (tenantId userId uploadId documentId : String) (mode : UploadMode)
    (multipartUploadId filename contentType : String) (size partSize partsTotal : Nat)
    (now : Timestamp) : UploadState where
  tenantId := tenantId
  ownerUserId := userId
  uploadId := uploadId
  documentId := documentId
  mode := mode
  storageKey := Keys.objectKey tenantId uploadId
  multipartUploadId := multipartUploadId
  filename := filename
  contentType := contentType
  declaredSize := size
  partSizeBytes := partSize
  partCount := partsTotal
  status := .uploading
  createdAt := now
  updatedAt := now

/-- The part of preflight that leaves something behind. -/
def openUpload (tenantId userId documentId : String) (mode : UploadMode)
    (filename contentType : String) (size partSize partsTotal : Nat) :
    Program ServicePorts (Except DocumentError PreflightResponse) := do
  let uploadId ← request .ulid
  match ← request (.beginMultipart (Keys.objectKey tenantId uploadId) contentType) with
  | .error error => return .error (.internalIn "begin multipart" error.display)
  | .ok multipartUploadId =>
      let now ← request (.port .now)
      let state := uploadRecord tenantId userId uploadId documentId mode multipartUploadId filename
        contentType size partSize partsTotal now
      match ← request (.createUpload state) with
      | .ok () =>
          return .ok ⟨uploadId, documentId, Keys.objectKey tenantId uploadId, partSize, partsTotal⟩
      | .error error => do
          unwindPreflight state
          return .error (.ofContextError error)

def preflight (policy : UploadPolicy) (tenantId userId : String) (preflightRequest : PreflightRequest) :
    Program ServicePorts (Except DocumentError PreflightResponse) :=
  let filename := trim preflightRequest.filename
  if filename = "" then return .error (.invalid "filename cannot be empty")
  else if preflightRequest.size > policy.maxUploadBytes then
    return .error (.tooLarge ("file is " ++ toString preflightRequest.size ++ " bytes, over the " ++
      toString policy.maxUploadBytes ++ " byte upload limit"))
  else
    match partSizeBytes preflightRequest.size policy.partSizeBytes with
    | .error error => return .error (.invalid error.display)
    | .ok partSize =>
        match partCount preflightRequest.size partSize with
        | .error error => return .error (.invalid error.display)
        | .ok partsTotal => do
            match ← resolveTarget tenantId preflightRequest.documentId with
            | .error error => return .error error
            | .ok (documentId, mode) =>
                openUpload tenantId userId documentId mode filename
                  (contentTypeOf preflightRequest.contentType) preflightRequest.size partSize
                  partsTotal

/-! ## Complete -/

def loadContext (tenantId userId uploadId : String) :
    Program ServicePorts (Except DocumentError UploadState) := do
  match ← viaPorts (Transition.load tenantId userId uploadId) with
  | .error error => return .error error
  | .ok none => return .error .notFound
  | .ok (some context) => return .ok context

/-- The work item of an upload: its record's parameters and the request's intent. -/
def uploadCompleted (tenantId userId uploadId : String) (context : UploadState)
    (completeRequest : CompleteRequest) : UploadCompleted where
  tenantId := tenantId
  ownerUserId := userId
  uploadId := uploadId
  documentId := context.documentId
  mode := context.mode
  storageKey := context.storageKey
  multipartUploadId := context.multipartUploadId
  filename := context.filename
  contentType := context.contentType
  declaredSize := context.declaredSize
  ifMatch := completeRequest.ifMatch
  onConflict := completeRequest.onConflict
  patch := completeRequest.patch

def complete (tenantId userId uploadId : String) (completeRequest : CompleteRequest) :
    Program ServicePorts (Except DocumentError Unit) :=
  match validateMetadataPatch completeRequest.patch with
  | .error error => return .error (.invalid error.display)
  | .ok () => do
      match ← loadContext tenantId userId uploadId with
      | .error error => return .error error
      | .ok context =>
          if completeRequest.ifMatch.isSome ∧ context.mode = .create then
            return .error (.invalid "if_match is not valid for a new document")
          else do
            let command := uploadCompleted tenantId userId uploadId context completeRequest
            -- The command's own timestamp, which nothing reads.
            let _ ← request (.port .now)
            match ← request (.publishUploadCompleted command) with
            | .error error => return .error (.internalIn "work queue" error.display)
            | .ok () =>
                -- Published first: the work item is the durable record of the intent.
                let now ← request (.port .now)
                match ← viaPorts (Transition.setStatus tenantId userId uploadId .scanning now) with
                | .error error => return .error error
                | .ok _ => return .ok ()

/-! ## What they issue -/

section Paths

/-- Any answer. -/
abbrev anyAnswer : Trace ServicePorts → (op : ServiceCall) → op.Ans → Prop := fun _ _ _ => True

theorem along_viaPorts {α : Type} {P : Trace ServicePorts → ServiceCall → Prop}
    {Q : Trace ServicePorts → α → Prop} (p : Program Ports α)
    (issued : ∀ trace op, P trace (.port op)) (returned : ∀ trace value, Q trace value)
    (trace : Trace ServicePorts) : Along anyAnswer P Q trace (viaPorts p) := by
  induction p generalizing trace with
  | ret value => exact returned trace value
  | call op next ih => exact ⟨issued trace op, fun answer _ => ih answer _⟩

/-- Identifiers come from the generator, or are those of a document that has a
log and was named by it. -/
def generated (_ : Trace ServicePorts) : (op : ServiceCall) → op.Ans → Prop
  | .ulid, id => isSafeSegment id = true
  | .port (.last _ documentId), .ok (some _) => isSafeSegment documentId = true
  | _, _ => True

/-- The records preflight creates. -/
def Creates (tenantId userId : String) (preflightRequest : PreflightRequest)
    (_ : Trace ServicePorts) : ServiceCall → Prop
  | .createUpload state => state.tenantId = tenantId ∧ state.ownerUserId = userId ∧
      isSafeSegment state.uploadId = true ∧ isSafeSegment state.documentId = true ∧
      state.filename = trim preflightRequest.filename ∧
      state.contentType = contentTypeOf preflightRequest.contentType
  | _ => True

theorem along_openUpload {preflightRequest : PreflightRequest} {tenantId userId documentId : String}
    {mode : UploadMode} {size partSize partsTotal : Nat} (plain : isSafeSegment documentId = true)
    (trace : Trace ServicePorts) :
    Along generated (Creates tenantId userId preflightRequest) (fun _ _ => True) trace
      (openUpload tenantId userId documentId mode (trim preflightRequest.filename)
        (contentTypeOf preflightRequest.contentType) size partSize partsTotal) := by
  refine along_perform trivial fun uploadId named => along_perform trivial fun answer _ => ?_
  cases answer with
  | error error => trivial
  | ok multipartUploadId =>
      refine along_perform trivial fun now _ =>
        along_perform ⟨rfl, rfl, named, plain, rfl, rfl⟩ fun answer _ => ?_
      cases answer with
      | ok _ => trivial
      | error error => exact ⟨trivial, fun _ _ => ⟨trivial, fun _ _ => trivial⟩⟩

theorem along_resolveTarget {P : Trace ServicePorts → ServiceCall → Prop}
    (issued : ∀ trace tenant documentId, P trace .ulid ∧ P trace (.port (.last tenant documentId)) ∧
      P trace (.getDocument tenant documentId))
    (tenantId : String) (documentId : Option String) (trace : Trace ServicePorts) :
    Along generated P (fun _ result => ∀ target mode, result = .ok (target, mode) →
      isSafeSegment target = true) trace (resolveTarget tenantId documentId) := by
  unfold resolveTarget
  cases documentId with
  | none =>
      refine along_perform (issued trace "" "").1 fun id plain => ?_
      rintro target mode ⟨⟩
      exact plain
  | some documentId =>
      refine Along.bind (Q := fun _ result => result = .ok () → isSafeSegment documentId = true) ?_ ?_
      · refine along_perform (issued trace _ _).2.1 fun answer plain => ?_
        match answer, plain with
        | .error error, _ => rintro ⟨⟩
        | .ok none, _ => rintro ⟨⟩
        | .ok (some last), plain =>
            refine along_perform (issued _ _ _).2.2 fun answer _ => ?_
            match answer with
            | .error error => rintro ⟨⟩
            | .ok none => exact fun _ => plain
            | .ok (some document) =>
                simp only
                split
                · rintro ⟨⟩
                · exact fun _ => plain
      · intro reached result plain
        cases result with
        | error error => rintro target mode ⟨⟩
        | ok _ =>
            rintro target mode ⟨⟩
            exact plain rfl

/-- The record preflight creates holds the trimmed names of its request. -/
theorem along_preflight (policy : UploadPolicy) (tenantId userId : String)
    (preflightRequest : PreflightRequest) :
    Along generated (Creates tenantId userId preflightRequest) (fun _ _ => True) []
      (preflight policy tenantId userId preflightRequest) := by
  unfold preflight
  simp only
  split
  · trivial
  split
  · trivial
  split
  · trivial
  split
  · trivial
  · refine Along.bind (along_resolveTarget (fun _ _ _ => ⟨trivial, trivial, trivial⟩) _ _ _) ?_
    intro reached result plain
    cases result with
    | error error => trivial
    | ok target => exact along_openUpload (plain _ _ rfl) reached

/-- The record was read at this call. -/
def Loads (context : UploadState) (trace : Trace ServicePorts) : Prop :=
  ∃ key revision,
    (⟨.port (.kvEntry key), .ok (some (.put context revision))⟩ : Call ServicePorts) ∈ trace

/-- The command complete publishes: the parameters of a record it read, and a
patch that passed validation. -/
def Publishes (tenantId userId uploadId : String) (completeRequest : CompleteRequest)
    (trace : Trace ServicePorts) : ServiceCall → Prop
  | .publishUploadCompleted command => validateMetadataPatch completeRequest.patch = .ok () ∧
      ∃ context, Loads context trace ∧
        command = uploadCompleted tenantId userId uploadId context completeRequest
  | _ => True

theorem along_loadContext {P : Trace ServicePorts → ServiceCall → Prop}
    (issued : ∀ trace op, P trace (.port op)) (tenantId userId uploadId : String)
    (trace : Trace ServicePorts) :
    Along anyAnswer P (fun reached result => ∀ context, result = .ok context → Loads context reached)
      trace (loadContext tenantId userId uploadId) := by
  refine ⟨issued _ _, fun answer _ => ?_⟩
  match answer with
  | .error (.read message) =>
      rintro context ⟨⟩
  | .error (.decode message) =>
      rintro context ⟨⟩
  | .ok none =>
      rintro context ⟨⟩
  | .ok (some (.marker revision)) =>
      rintro context ⟨⟩
  | .ok (some (.put state revision)) =>
      refine Along.bind (Q := fun reached found => ∀ context, found = .ok (some context) →
        Loads context reached) ?_ ?_
      · simp only [Program.bind, Program.pure_eq]
        split
        · rintro context ⟨⟩
        · rintro context ⟨⟩
          exact ⟨_, revision, List.mem_append_right _ (List.mem_singleton_self _)⟩
      · intro reached found loaded
        match found with
        | .error error => rintro context ⟨⟩
        | .ok none => rintro context ⟨⟩
        | .ok (some context) =>
            rintro _ ⟨⟩
            exact loaded context rfl

/-- `complete` publishes the parameters of the record it read, with a valid patch. -/
theorem along_complete (tenantId userId uploadId : String) (completeRequest : CompleteRequest) :
    Along anyAnswer (Publishes tenantId userId uploadId completeRequest) (fun _ _ => True) []
      (complete tenantId userId uploadId completeRequest) := by
  unfold complete
  split
  · trivial
  · rename_i valid
    refine Along.bind (along_loadContext (fun _ _ => trivial) tenantId userId uploadId []) ?_
    intro reached result loaded
    cases result with
    | error error => trivial
    | ok context =>
        simp only
        split
        · trivial
        · refine along_perform trivial fun _ _ => ?_
          have before := loaded context rfl
          refine along_perform ⟨valid, context, ?_, rfl⟩ fun answer _ => ?_
          · obtain ⟨key, revision, mem⟩ := before
            exact ⟨key, revision, List.mem_append_left _ mem⟩
          · cases answer with
            | error error => trivial
            | ok _ =>
                refine along_perform trivial fun now _ => ?_
                refine Along.bind (Q := fun _ _ => True) ?_ ?_
                · exact along_viaPorts _ (fun _ _ => trivial) (fun _ _ => trivial) _
                · intro reached result _
                  cases result <;> trivial

end Paths

end DocumentService

end Delphi.Document
