/-
# Delphi.Document.HttpApi -- the document routes, and tenants that share nothing

`documents.rs`: the handlers, over the service and its ports.  A handler builds the
caller's principal, which is where unsafe identifiers are refused, checks the role
where it writes, and turns what the service answers into a status and a body.

All tenants share one bucket, one log, one table, one blob store and one queue
(`Stores`).  What a request may read and write there is what its port calls name; that
these are the tenant's own is not said here but shown in `Delphi.Document.Tenants`.
-/
import Delphi.Auth.Verifier
import Delphi.Document.KeySpace
import Delphi.Document.Listing
import Delphi.Document.Parts
import Delphi.Document.UploadRecord
import Delphi.Theory.Erasure

namespace Delphi.Document

open Delphi.Theory
open Delphi.Auth (AuthContext)
open DocumentService (PartsCall PartsPorts)

set_option autoImplicit false

namespace HttpApi

/-! ## Ports -/

/-- The calls of the service with signing, and the listing. -/
inductive ApiCall where
  | parts (op : PartsCall)
  | list (tenant : String) (limit : Nat) (after : Option DocumentCursor)

@[reducible] def ApiCall.Ans : ApiCall → Type
  | .parts op => op.Ans
  | .list _ _ _ => Except ReadError (List DocumentState)

abbrev ApiPorts : Signature := ⟨ApiCall, ApiCall.Ans⟩

def viaParts {α : Type} : Program PartsPorts α → Program ApiPorts α
  | .ret value => .ret value
  | .call op next => .call (.parts op) (fun answer => viaParts (next answer))

def viaApi {α : Type} (program : Program ServicePorts α) : Program ApiPorts α :=
  viaParts (DocumentService.viaService program)

/-! ## Requests and responses -/

structure CreateUploadBody where
  documentId : Option String
  filename : String
  size : Nat
  contentType : Option String

structure RenewBody where
  fromPart : Option Nat
  count : Option Nat

structure CompleteBody where
  ifMatch : Option Nat
  onConflict : ConflictPolicy
  title : Option String
  tags : Option (List String)
  description : Option String
  metadata : Option Json

structure ListQuery where
  limit : Option Nat
  cursor : Option String

inductive Route where
  | createUpload (body : CreateUploadBody)
  | listUploadParts (uploadId : String)
  | renewUpload (uploadId : String) (body : Option RenewBody)
  | completeUpload (uploadId : String) (body : CompleteBody)
  | getUpload (uploadId : String)
  | getDocument (documentId : String)
  | listDocuments (query : ListQuery)

structure DocumentBody where
  documentId : String
  version : Nat
  state : String
  indexState : String
  filename : Option String
  contentType : Option String
  byteSize : Option Nat
  checksum : Option String
  title : Option String
  tags : List String
  description : Option String
  metadata : Json
  createdAt : Timestamp
  updatedAt : Timestamp

def toBody (document : DocumentState) : DocumentBody where
  documentId := document.documentId
  version := document.version
  state := document.state.asStr
  indexState := document.indexState.asStr
  filename := document.filename
  contentType := document.contentType
  byteSize := document.byteSize
  checksum := document.checksum
  title := document.title
  tags := document.tags
  description := document.description
  metadata := document.metadata
  createdAt := document.createdAt
  updatedAt := document.updatedAt

inductive ApiErrorCode where
  | notFound
  | forbidden
  | gone
  | invalidRequest
  | tooLarge
  | conflict
  | internal
deriving DecidableEq

inductive Body where
  | upload (response : DocumentService.PreflightResponse)
  | uploadedParts (response : DocumentService.UploadedPartsResponse)
  | presigned (parts : List DocumentService.PresignedPart)
  | scanning
  | uploadStatus (status : UploadStatus) (documentId : String)
  | document (body : DocumentBody)
  | documents (items : List DocumentBody) (next : Option String)
  | error (code : ApiErrorCode) (message : String)

structure Response where
  status : Nat
  etag : Option String
  body : Body

def answer (status : Nat) (body : Body) : Response := ⟨status, none, body⟩

/-- `ApiFailure::into_response`; what an internal error says is only logged. -/
def failure : DocumentError → Response
  | .notFound => answer 404 (.error .notFound "not found")
  | .forbidden => answer 403 (.error .forbidden "forbidden")
  | .gone => answer 410 (.error .gone "this upload has expired; start a new one")
  | .invalid message => answer 400 (.error .invalidRequest message)
  | .tooLarge message => answer 413 (.error .tooLarge message)
  | .conflict currentVersion => answer 409 (.error .conflict
      ("document has moved on to version " ++ toString currentVersion))
  | .deleted => answer 409 (.error .conflict "document is deleted")
  | .internal _ => answer 500 (.error .internal "internal error")

/-! ## Authorization -/

def writeRole : String := "ingester"

def authorizeRead (auth : AuthContext) : Except DocumentError Principal :=
  match Principal.new auth.tenantId auth.userId with
  | .ok principal => .ok principal
  | .error _ => .error .forbidden

def authorize (auth : AuthContext) : Except DocumentError Principal :=
  match authorizeRead auth with
  | .error error => .error error
  | .ok principal => if auth.hasRole writeRole then .ok principal else .error .forbidden

/-! ## Handlers -/

/-- A service deployment: its policy, and how long a part URL lives. -/
structure Deployment where
  policy : DocumentService.UploadPolicy
  partUrlTtl : Nat

def defaultListLimit : Nat := 50

section Handlers

/-- The service's answer, or the failure it is. -/
def respond {α : Type} (program : Program ApiPorts (Except DocumentError α))
    (success : α → Response) : Program ApiPorts Response := do
  match ← program with
  | .error error => return failure error
  | .ok value => return success value

variable (deployment : Deployment) (principal : Principal)

def createUpload (body : CreateUploadBody) : Program ApiPorts Response :=
  respond (viaApi (DocumentService.preflight deployment.policy principal.tenantId principal.userId
    ⟨body.documentId, body.filename, body.size, body.contentType⟩))
    fun response => answer 201 (.upload response)

def listUploadParts (uploadId : String) : Program ApiPorts Response :=
  respond (viaParts (DocumentService.uploadedParts principal.tenantId principal.userId uploadId))
    fun response => answer 200 (.uploadedParts response)

def renewUpload (uploadId : String) (body : Option RenewBody) : Program ApiPorts Response :=
  let body := body.getD ⟨none, none⟩
  respond (viaParts (DocumentService.renew deployment.partUrlTtl principal.tenantId principal.userId
    uploadId ⟨body.fromPart, body.count⟩))
    fun response => answer 200 (.presigned response.parts)

def completeUpload (uploadId : String) (body : CompleteBody) : Program ApiPorts Response :=
  respond (viaApi (DocumentService.complete principal.tenantId principal.userId uploadId
    ⟨body.ifMatch, body.onConflict, ⟨body.title, body.tags, body.description, body.metadata⟩⟩))
    fun _ => answer 202 .scanning

/-- `upload_state` loads the record just as `load_context` does. -/
def getUpload (uploadId : String) : Program ApiPorts Response :=
  respond (viaApi (DocumentService.loadContext principal.tenantId principal.userId uploadId))
    fun state => answer 200 (.uploadStatus state.status state.documentId)

/-- `DocumentService::get_document` -/
def readDocument (tenantId documentId : String) :
    Program ServicePorts (Except DocumentError DocumentState) := do
  match ← request (.getDocument tenantId documentId) with
  | .error error => return .error (.internalIn "read model" error.display)
  | .ok none => return .error .notFound
  | .ok (some document) => return .ok document

def getDocument (documentId : String) : Program ApiPorts Response :=
  respond (viaApi (readDocument principal.tenantId documentId)) fun document =>
    ⟨200, some ("\"" ++ toString document.version ++ "\""), .document (toBody document)⟩

/-- `DocumentService::list_documents` -/
def readPage (tenantId : String) (limit : Nat) (after : Option DocumentCursor) :
    Program ApiPorts (Except DocumentError DocumentPage) := do
  let limit := min (max limit 1) maxListLimit
  match ← (Program.perform (S := ApiPorts) (.list tenantId limit after) :
      Program ApiPorts (Except ReadError (List DocumentState))) with
  | .error error => return .error (.internalIn "read model" error.display)
  | .ok items => return .ok (documentPage limit items)

def listDocuments (query : ListQuery) : Program ApiPorts Response :=
  match query.cursor.map DocumentCursor.decode with
  | some none => return failure (.invalid "cursor is not valid")
  | none => page none
  | some (some after) => page (some after)
where
  page (after : Option DocumentCursor) : Program ApiPorts Response :=
    respond (readPage principal.tenantId (query.limit.getD defaultListLimit) after)
      fun page => answer 200 (.documents (page.items.map toBody) page.nextText)

end Handlers

def Route.writes : Route → Bool
  | .createUpload _ => true
  | .listUploadParts _ => true
  | .renewUpload _ _ => true
  | .completeUpload _ _ => true
  | .getUpload _ => false
  | .getDocument _ => false
  | .listDocuments _ => false

def handle (deployment : Deployment) (principal : Principal) : Route → Program ApiPorts Response
  | .createUpload body => createUpload deployment principal body
  | .listUploadParts uploadId => listUploadParts principal uploadId
  | .renewUpload uploadId body => renewUpload deployment principal uploadId body
  | .completeUpload uploadId body => completeUpload principal uploadId body
  | .getUpload uploadId => getUpload principal uploadId
  | .getDocument documentId => getDocument principal documentId
  | .listDocuments query => listDocuments principal query

structure HttpRequest where
  auth : AuthContext
  route : Route

def HttpRequest.principal (httpRequest : HttpRequest) : Except DocumentError Principal :=
  if httpRequest.route.writes then authorize httpRequest.auth else authorizeRead httpRequest.auth

def HttpRequest.serve (deployment : Deployment) (httpRequest : HttpRequest) :
    Program ApiPorts Response :=
  match httpRequest.principal with
  | .error error => return failure error
  | .ok principal => handle deployment principal httpRequest.route

/-! ## What is shared -/

/-- The stores behind the ports, each holding what all tenants have in it. -/
structure Stores where
  records : UploadBucket
  heads : StreamKey → Option (Nat × Nat)
  rows : List Row
  multiparts : String × String → Option (List UploadedPart)
  published : List UploadCompleted
  drawn : List String

/-- The first segment of a key. -/
def segment (chars : List Char) : String := String.ofList (chars.takeWhile fun c => c ≠ '/')

/-- The tenant in the key of an upload's record. -/
def recordTenant (key : String) : String := segment key.toList

def isRecordOf (tenant key : String) : Bool := recordTenant key = tenant

/-- The tenant in the key of an object. -/
def objectTenant (key : String) : String := segment (key.toList.drop "tenants/".toList.length)

/-- A record under its own key, naming its own object. -/
def Held (key : String) (state : UploadState) : Prop :=
  state.ownKey = key ∧ state.storageKey = Keys.objectKey state.tenantId state.uploadId

/-- The collation of the table, and how a part is signed at a time. -/
structure Infra where
  collation : LinearOrder String
  sign : Timestamp → String → String → Nat → Nat → DocumentService.PresignedPart

namespace Stores

/-- A multipart that is opened is new. -/
def opens (w : Stores) (key : String) : Except BlobError String → Stores → Prop
  | .ok id, w' => w.multiparts (key, id) = none ∧
      w' = { w with multiparts := Function.update w.multiparts (key, id) (some []) }
  | .error _, w' => w' = w

/-- A create lands or not, with or without an acknowledgement. -/
inductive Creates (w : Stores) (state : UploadState) :
    Except ContextError Unit → Stores → Prop where
  | landed {records : UploadBucket} (answer : Except ContextError Unit)
      (created : w.records.create state.ownKey state = some records) :
      Creates w state answer { w with records := records }
  | refused (error : ContextError) : Creates w state (.error error) w

/-- The ports of the worker that the service calls too. -/
def servesPort (w : Stores) : (op : PortCall) → op.Ans → Stores → Prop
  | .last tenant documentId, answer, w' => w' = w ∧
      (answer = .ok (w.heads (tenant, documentId)) ∨ ∃ error, answer = .error error)
  | .listParts key upload, answer, w' => w' = w ∧
      (answer = .ok (w.multiparts (key, upload)) ∨ ∃ error, answer = .error error)
  | .abortMultipart key upload, _, w' => w' = w ∨
      w' = { w with multiparts := Function.update w.multiparts (key, upload) none }
  | .kvEntry key, answer, w' => w' = w ∧
      (answer = .ok (w.records.entries key) ∨ ∃ error, answer = .error error)
  | .kvUpdate key state revision, answer, w' => ∃ records,
      UploadBucket.Swaps w.records key state revision answer records ∧
      w' = { w with records := records }
  | .now, _, w' => w' = w
  | _, _, _ => False

def servesService (w : Stores) : (op : ServiceCall) → op.Ans → Stores → Prop
  | .port op, answer, w' => w.servesPort op answer w'
  | .beginMultipart key _, answer, w' => w.opens key answer w'
  | .createUpload state, answer, w' => Creates w state answer w'
  | .deleteUpload tenant user uploadId, _, w' => w' = w ∨
      w' = { w with records := w.records.purge (UploadState.key tenant user uploadId) }
  | .getDocument tenant documentId, answer, w' => w' = w ∧
      (answer = .ok ((w.rows.find? fun row => row.key = (tenant, documentId)).map rowToDocument) ∨
        ∃ error, answer = .error error)
  | .publishUploadCompleted command, _, w' => w' = w ∨
      w' = { w with published := command :: w.published }
  | .ulid, id, w' => id ∉ w.drawn ∧ w' = { w with drawn := id :: w.drawn }

def serves (infra : Infra) (w : Stores) : (op : ApiCall) → op.Ans → Stores → Prop
  | .parts (.service op), answer, w' => w.servesService op answer w'
  | .parts (.presignPart key upload part ttl), answer, w' => w' = w ∧
      ((∃ now, answer = .ok (infra.sign now key upload part ttl)) ∨ ∃ error, answer = .error error)
  | .list tenant limit after, answer, w' => w' = w ∧
      (answer = .ok (PgDocumentReadModel.list infra.collation w.rows tenant limit after) ∨
        ∃ error, answer = .error error)

def Owned (w : Stores) : Prop := ∀ key state revision,
  w.records.entries key = some (.put state revision) → Held key state

/-- Only what is this tenant's has changed. -/
structure Touches (tenant : String) (w w' : Stores) : Prop where
  records : ∀ key, recordTenant key ≠ tenant → w'.records.entries key = w.records.entries key
  revision : w.records.lastRevision ≤ w'.records.lastRevision
  heads : ∀ key, key.1 ≠ tenant → w'.heads key = w.heads key
  rows : ∀ other, other ≠ tenant →
    w'.rows.filter (fun row => row.tenantId = other) = w.rows.filter fun row => row.tenantId = other
  multiparts : ∀ key, objectTenant key.1 ≠ tenant → w'.multiparts key = w.multiparts key
  published : ∀ other, other ≠ tenant →
    w'.published.filter (fun command => command.tenantId = other) =
      w.published.filter fun command => command.tenantId = other
  drawn : w.drawn ⊆ w'.drawn

/-- Nothing is written: only revisions and ids are used up. -/
structure Idles (w w' : Stores) : Prop where
  revision : w.records.lastRevision ≤ w'.records.lastRevision
  drawn : w.drawn ⊆ w'.drawn
  same : w' = { w with
    records := { w.records with lastRevision := w'.records.lastRevision }, drawn := w'.drawn }

/-- What is left of the stores for one tenant; counters and drawn ids are nobody's. -/
def ofTenant (tenant : String) (w : Stores) : Stores where
  records := w.records.only (isRecordOf tenant)
  heads key := if key.1 = tenant then w.heads key else none
  rows := w.rows.filter fun row => row.tenantId = tenant
  multiparts key := if objectTenant key.1 = tenant then w.multiparts key else none
  published := w.published.filter fun command => command.tenantId = tenant
  drawn := w.drawn

end Stores

/-- What else changes the data of each tenant: its workers, projections, expiry. It acts on what
is the tenant's by what is the tenant's, and keeps records owned. -/
structure Workers where
  acts : String → Stores → Stores → Prop
  touches : ∀ {tenant : String} {w w' : Stores}, acts tenant w w' → w.Touches tenant w'
  owned : ∀ {tenant : String} {w w' : Stores}, acts tenant w w' → w.Owned → w'.Owned
  sliced : ∀ {tenant : String} {w w' : Stores}, acts tenant w w' →
    acts tenant (w.ofTenant tenant) (w'.ofTenant tenant)

variable (infra : Infra) (deployment : Deployment) (workers : Workers)

/-- Requests of any callers, beside the workers of every tenant. -/
def documentApi : System ApiPorts Stores HttpRequest Response where
  main := HttpRequest.serve deployment
  admits _ _ := True
  serves _ op w answer w' := w.serves infra op answer w'
  environment w w' := ∃ tenant, workers.acts tenant w w'

/-- Requests of one tenant, beside its own workers; revisions and ids are still shared. -/
def aloneApi (tenant : String) : System ApiPorts Stores HttpRequest Response where
  main := HttpRequest.serve deployment
  admits _ httpRequest := httpRequest.auth.tenantId = tenant
  serves _ op w answer w' := w.serves infra op answer w'
  environment w w' := workers.acts tenant w w' ∨ w.Idles w'

end HttpApi

end Delphi.Document
