/-
# Delphi.Document.UploadState -- the one record an upload has

`upload_state.rs`: the record preflight writes, the status it moves through, and
the key it lives under.  Only `status` and `updated_at` ever move
(`withStatus`); everything else is the same (`SameUpload`).
-/
import Delphi.Document.Events

namespace Delphi.Document

set_option autoImplicit false

inductive UploadMode where
  | create
  | replace
deriving DecidableEq

inductive UploadStatus where
  | uploading
  | scanning
  | accepted (version : Nat) (superseded : Bool)
  | rejected (reason : String)
deriving DecidableEq

namespace UploadStatus

def asStr : UploadStatus → String
  | .uploading => "uploading"
  | .scanning => "scanning"
  | .accepted _ _ => "accepted"
  | .rejected _ => "rejected"

/-- A terminal status is final. -/
def isTerminal : UploadStatus → Bool
  | .accepted _ _ => true
  | .rejected _ => true
  | _ => false

end UploadStatus

structure UploadState where
  tenantId : String
  ownerUserId : String
  uploadId : String
  documentId : String
  mode : UploadMode
  storageKey : String
  multipartUploadId : String
  filename : String
  contentType : String
  declaredSize : Nat
  partSizeBytes : Nat
  partCount : Nat
  status : UploadStatus
  createdAt : Timestamp
  updatedAt : Timestamp
deriving DecidableEq

namespace UploadState

/-- `<tenant_id>/<user_id>/<upload_id>`. -/
def key (tenantId userId uploadId : String) : String :=
  tenantId ++ "/" ++ userId ++ "/" ++ uploadId

def ownKey (state : UploadState) : String := key state.tenantId state.ownerUserId state.uploadId

def withStatus (state : UploadState) (status : UploadStatus) (now : Timestamp) : UploadState :=
  { state with status := status, updatedAt := now }

/-- A separator that occurs in neither front part splits a list in one way. -/
theorem append_cons_inj {α : Type} {x : α} {front front' back back' : List α}
    (free : x ∉ front) (free' : x ∉ front') (same : front ++ x :: back = front' ++ x :: back') :
    front = front' ∧ back = back' := by
  induction front generalizing front' with
  | nil =>
      cases front' with
      | nil => exact ⟨rfl, List.tail_eq_of_cons_eq same⟩
      | cons y rest => exact absurd (List.head_eq_of_cons_eq same) (List.ne_of_not_mem_cons free')
  | cons y rest ih =>
      cases front' with
      | nil => exact absurd (List.head_eq_of_cons_eq same).symm (List.ne_of_not_mem_cons free)
      | cons z rest' =>
          obtain ⟨rfl, more⟩ := List.cons_eq_cons.mp same
          obtain ⟨rfl, rest_eq⟩ := ih (List.not_mem_of_not_mem_cons free)
            (List.not_mem_of_not_mem_cons free') more
          exact ⟨rfl, rest_eq⟩

/-- The key of safe tenant and user segments determines all three. -/
theorem key_injective {tenant user upload tenant' user' upload' : String}
    (safe : '/' ∉ tenant.toList ∧ '/' ∉ user.toList)
    (safe' : '/' ∉ tenant'.toList ∧ '/' ∉ user'.toList)
    (same : key tenant user upload = key tenant' user' upload') :
    tenant = tenant' ∧ user = user' ∧ upload = upload' := by
  have chars : tenant.toList ++ '/' :: (user.toList ++ '/' :: upload.toList) =
      tenant'.toList ++ '/' :: (user'.toList ++ '/' :: upload'.toList) := by
    simpa [key, String.toList_append] using congrArg String.toList same
  obtain ⟨tenants, rest⟩ := append_cons_inj safe.1 safe'.1 chars
  obtain ⟨users, uploads⟩ := append_cons_inj safe.2 safe'.2 rest
  exact ⟨String.toList_injective tenants, String.toList_injective users,
    String.toList_injective uploads⟩

/-- Two records that agree on everything preflight decided. -/
def SameUpload (state other : UploadState) : Prop :=
  { other with status := state.status, updatedAt := state.updatedAt } = state

theorem SameUpload.refl (state : UploadState) : state.SameUpload state := rfl

theorem SameUpload.trans {first second third : UploadState} (later : second.SameUpload third)
    (earlier : first.SameUpload second) : first.SameUpload third := by
  unfold SameUpload at *
  rw [← earlier, ← later]

theorem SameUpload.withStatus {first state : UploadState} (same : first.SameUpload state)
    (status : UploadStatus) (now : Timestamp) : first.SameUpload (state.withStatus status now) :=
  same

@[simp] theorem withStatus_status (state : UploadState) (status : UploadStatus) (now : Timestamp) :
    (state.withStatus status now).status = status := rfl

@[simp] theorem withStatus_ownKey (state : UploadState) (status : UploadStatus) (now : Timestamp) :
    (state.withStatus status now).ownKey = state.ownKey := rfl

end UploadState

/-- A record together with the revision it was read at. -/
structure StoredUpload where
  state : UploadState
  revision : Nat
deriving DecidableEq

/-! ## Reject reasons -/

namespace RejectReason

def multipartLost : String := "multipart_lost"
def invalidParts : String := "invalid_parts"
def sizeMismatch : String := "size_mismatch"
def malwareDetected : String := "malware_detected"
def versionConflict : String := "version_conflict"
def contentRejected : String := "content_rejected"
def corruptHistory : String := "corrupt_history"
def pipelineFailed : String := "pipeline_failed"
def uploadExpired : String := "upload_expired"

end RejectReason

end Delphi.Document
