/-
# Delphi.Document.Ports -- everything the document services ask of the outside

One constructor of `PortCall` per port method the modelled use cases call, with
the type of its answer.  The upload-state bucket is taken one level lower, at
the key-value calls its adapter makes, because that adapter answers a lost
compare-and-swap with a second read (`KvUploadStateStore.update`).

Errors keep the texts the source prints, since a `Retry` carries one.
-/
import Delphi.Theory.Program
import Delphi.Theory.KvBucket
import Delphi.Document.EventStore
import Delphi.Document.Fold
import Delphi.Document.UploadState

namespace Delphi.Document

open Delphi.Theory

set_option autoImplicit false

/-! ## Errors -/

inductive BlobErrorKind where
  | noSuchUpload
  | invalidParts
  | notFound
  | transient
  | permanent
deriving DecidableEq

namespace BlobErrorKind

def debug : BlobErrorKind → String
  | .noSuchUpload => "NoSuchUpload"
  | .invalidParts => "InvalidParts"
  | .notFound => "NotFound"
  | .transient => "Transient"
  | .permanent => "Permanent"

end BlobErrorKind

structure BlobError where
  kind : BlobErrorKind
  message : String

def BlobError.display (error : BlobError) : String := error.kind.debug ++ ": " ++ error.message

inductive ScanError where
  | unavailable (message : String)
  | read (message : String)

def ScanError.display : ScanError → String
  | .unavailable message => "scanner unavailable: " ++ message
  | .read message => "scan read failed: " ++ message

inductive ValidateError where
  | unavailable (message : String)

def ValidateError.display : ValidateError → String
  | .unavailable message => "content validator unavailable: " ++ message

inductive ContextError where
  | alreadyExists
  | conflict
  | expired
  | unavailable (message : String)
  | payload (message : String)

def ContextError.display : ContextError → String
  | .alreadyExists => "upload state already exists"
  | .conflict => "upload state changed underneath this write"
  | .expired => "upload state has expired"
  | .unavailable message => "upload state store unavailable: " ++ message
  | .payload message => "upload state payload error: " ++ message

/-- The error every use case returns. -/
inductive DocumentError where
  | notFound
  | forbidden
  | gone
  | invalid (message : String)
  | tooLarge (message : String)
  | conflict (currentVersion : Nat)
  | deleted
  | internal (message : String)

namespace DocumentError

def display : DocumentError → String
  | .notFound => "not found"
  | .forbidden => "forbidden"
  | .gone => "gone"
  | .invalid message => "invalid request: " ++ message
  | .tooLarge message => "payload too large: " ++ message
  | .conflict currentVersion =>
      "version conflict; current version is " ++ toString currentVersion
  | .deleted => "document is deleted"
  | .internal message => "internal error: " ++ message

def internalIn (context error : String) : DocumentError := .internal (context ++ ": " ++ error)

def ofContextError : ContextError → DocumentError
  | .expired => .gone
  | other => internalIn "upload state" other.display

end DocumentError

inductive AppendError where
  | alreadyCreated
  | noSuchDocument
  | versionMismatch (client current : Nat)
  | conflictRetryExhausted
  | store (error : EventStoreError)

def AppendError.display : AppendError → String
  | .alreadyCreated => "document already created"
  | .noSuchDocument => "document does not exist"
  | .versionMismatch client current =>
      "client version " ++ toString client ++ " does not match current version " ++
        toString current
  | .conflictRetryExhausted => "gave up after repeated expected-sequence conflicts"
  | .store error => error.display

/-! ## Port data -/

structure UploadedPart where
  partNumber : Nat
  etag : String
  size : Nat

structure CompletedPart where
  partNumber : Nat
  etag : String

structure BlobHead where
  byteSize : Nat
  contentType : Option String
  lastModified : Timestamp

/-- A reader, as the bytes it will yield. -/
abbrev BoxAsyncRead := List UInt8

inductive ScanVerdict where
  | clean
  | infected (signature : String)

structure ScanOutcome where
  verdict : ScanVerdict
  sha256Hex : String
  byteCount : Nat

structure DeclaredContent where
  filename : String
  contentType : String
  byteSize : Nat

inductive ContentVerdict where
  | ok
  | rejected (reason : String)

/-- Why a bucket entry could not be had: the read failed, or its value did not
decode. -/
inductive EntryError where
  | read (message : String)
  | decode (message : String)

/-- Why a bucket update failed. -/
inductive UpdateError where
  | wrongLastRevision
  | other (message : String)

/-! ## The calls -/

inductive PortCall where
  -- event store
  | append (event : DocumentEvent) (expect : Expect)
  | last (tenant documentId : String)
  | readStream (tenant documentId : String)
  -- blob store
  | listParts (key upload : String)
  | completeMultipart (key upload : String) (parts : List CompletedPart)
  | abortMultipart (key upload : String)
  | head (key : String)
  | readPrefix (key : String) (len : Nat)
  | openRead (key : String)
  | delete (key : String)
  -- verification
  | validate (head : BlobHead) (beginning : List UInt8) (declared : DeclaredContent)
  | scan (blob : BoxAsyncRead)
  -- upload-state bucket
  | kvEntry (key : String)
  | kvUpdate (key : String) (state : UploadState) (revision : Nat)
  -- ambient
  | now

@[reducible] def PortCall.Ans : PortCall → Type
  | .append _ _ => Except EventStoreError Appended
  | .last _ _ => Except EventStoreError (Option (Nat × Nat))
  | .readStream _ _ => Except EventStoreError (List Entry)
  | .listParts _ _ => Except BlobError (Option (List UploadedPart))
  | .completeMultipart _ _ _ => Except BlobError Unit
  | .abortMultipart _ _ => Except BlobError Unit
  | .head _ => Except BlobError (Option BlobHead)
  | .readPrefix _ _ => Except BlobError (List UInt8)
  | .openRead _ => Except BlobError BoxAsyncRead
  | .delete _ => Except BlobError Unit
  | .validate _ _ _ => Except ValidateError ContentVerdict
  | .scan _ => Except ScanError ScanOutcome
  | .kvEntry _ => Except EntryError (Option (KvEntry UploadState))
  | .kvUpdate _ _ _ => Except UpdateError Nat
  | .now => Timestamp

/-- Every port out of service. -/
def PortCall.outage (message : String) : (op : PortCall) → op.Ans
  | .append _ _ => .error (.unavailable message)
  | .last _ _ => .error (.unavailable message)
  | .readStream _ _ => .error (.unavailable message)
  | .listParts _ _ => .error ⟨.transient, message⟩
  | .completeMultipart _ _ _ => .error ⟨.transient, message⟩
  | .abortMultipart _ _ => .error ⟨.transient, message⟩
  | .head _ => .error ⟨.transient, message⟩
  | .readPrefix _ _ => .error ⟨.transient, message⟩
  | .openRead _ => .error ⟨.transient, message⟩
  | .delete _ => .error ⟨.transient, message⟩
  | .validate _ _ _ => .error (.unavailable message)
  | .scan _ => .error (.unavailable message)
  | .kvEntry _ => .error (.read message)
  | .kvUpdate _ _ _ => .error (.other message)
  | .now => 0

abbrev Ports : Signature := ⟨PortCall, PortCall.Ans⟩

/-- Issue one port call. -/
abbrev ask (op : PortCall) : Program Ports op.Ans := Program.perform (S := Ports) op

end Delphi.Document
