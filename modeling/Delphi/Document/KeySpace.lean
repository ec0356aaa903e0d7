/-
# Delphi.Document.KeySpace -- one caller's keys are no other caller's

The upload key, the object key and the event subject are plain concatenation, and
the last segment is whatever string a client sends.  What keeps tenants apart is
that a principal's own segments hold no separator (`isSafeSegment`): then the first
separator after a segment is the one the builder put there, and the rest of the key
is the id, with whatever separators of its own (`UploadState.append_cons_inj`).

The subject is read back by splitting at every dot, so there the id matters: it is
recovered exactly when it has no dot (`documentKeyFromSubject_eq`).
-/
import Delphi.Document.Service
import Delphi.Document.Subjects

namespace Delphi.Document

set_option autoImplicit false

/-! ## Object keys -/

theorem Keys.toList_objectKey (tenantId uploadId : String) :
    (Keys.objectKey tenantId uploadId).toList =
      "tenants/".toList ++ (tenantId.toList ++ '/' :: ("blobs/".toList ++
        (uploadId.toList ++ "/original".toList))) := by
  simp [Keys.objectKey, String.toList_append]

/-- The object key of a safe tenant determines tenant and id. -/
theorem Keys.objectKey_injective {tenant upload tenant' upload' : String}
    (safe : '/' ∉ tenant.toList) (safe' : '/' ∉ tenant'.toList)
    (same : Keys.objectKey tenant upload = Keys.objectKey tenant' upload') :
    tenant = tenant' ∧ upload = upload' := by
  have chars := congrArg String.toList same
  rw [Keys.toList_objectKey, Keys.toList_objectKey] at chars
  obtain ⟨tenants, rest⟩ := UploadState.append_cons_inj safe safe' (List.append_cancel_left chars)
  have uploads := List.append_cancel_right (List.append_cancel_left rest)
  exact ⟨String.toList_injective tenants, String.toList_injective uploads⟩

/-! ## Event subjects -/

section Subjects

variable (crc32 : String → Nat)

theorem toList_eventSubject (tenantId documentId : String) :
    (eventSubject crc32 tenantId documentId).toList =
      "documents".toList ++ '.' :: (tenantId.toList ++ '.' ::
        (twoDigits (crc32 documentId % eventPartitions) ++ '.' :: documentId.toList)) := by
  simp [eventSubject, List.intercalate]

/-- The subject of a safe tenant determines tenant and id, whatever the partition. -/
theorem eventSubject_injective {tenant document tenant' document' : String}
    (safe : '.' ∉ tenant.toList) (safe' : '.' ∉ tenant'.toList)
    (same : eventSubject crc32 tenant document = eventSubject crc32 tenant' document') :
    tenant = tenant' ∧ document = document' := by
  have chars := congrArg String.toList same
  rw [toList_eventSubject, toList_eventSubject] at chars
  have rest := List.tail_eq_of_cons_eq (List.append_cancel_left chars)
  obtain ⟨tenants, rest⟩ := UploadState.append_cons_inj safe safe' rest
  obtain ⟨-, documents⟩ := UploadState.append_cons_inj (dot_not_mem_twoDigits _)
    (dot_not_mem_twoDigits _) rest
  exact ⟨String.toList_injective tenants, String.toList_injective documents⟩

/-- The tokens of a subject: the three the builder writes, and those of the id. -/
theorem splitOn_eventSubject {tenant document : String} (safe : '.' ∉ tenant.toList) :
    (eventSubject crc32 tenant document).toList.splitOn '.' =
      "documents".toList :: tenant.toList ::
        twoDigits (crc32 document % eventPartitions) :: document.toList.splitOn '.' := by
  rw [toList_eventSubject, List.splitOn_append_cons_self_of_not_mem (by decide),
    List.splitOn_append_cons_self_of_not_mem safe,
    List.splitOn_append_cons_self_of_not_mem (dot_not_mem_twoDigits _)]

/-- A dotted id is more than one token. -/
theorem splitOn_of_mem {document : String} (dotted : '.' ∈ document.toList) :
    ∃ first second rest, document.toList.splitOn '.' = first :: second :: rest := by
  obtain ⟨front, back, split⟩ := List.append_of_mem dotted
  rw [split, List.splitOn_append_cons_self]
  cases front' : front.splitOn '.' with
  | nil => exact absurd front' (List.splitOn_ne_nil _ _)
  | cons first more =>
      cases back' : back.splitOn '.' with
      | nil => exact absurd back' (List.splitOn_ne_nil _ _)
      | cons last rest =>
          cases more with
          | nil => exact ⟨first, last, rest, rfl⟩
          | cons second more => exact ⟨first, second, more ++ last :: rest, rfl⟩

/-- The parser takes the builder's subject back when the id has no dot, and refuses it
when it has one. -/
theorem documentKeyFromSubject_eq {tenant : String} (safe : '.' ∉ tenant.toList)
    (document : String) :
    documentKeyFromSubject (eventSubject crc32 tenant document) =
      if '.' ∈ document.toList then none else some (tenant, document) := by
  split
  · rename_i dotted
    obtain ⟨first, second, rest, tokens⟩ := splitOn_of_mem dotted
    simp [documentKeyFromSubject, splitOn_eventSubject crc32 safe, tokens]
  · rename_i plain
    exact documentKeyFromSubject_eventSubject crc32 safe plain

end Subjects

/-! ## Callers -/

namespace Principal

/-- Construction is the check: `new` accepts exactly the principals there are. -/
theorem new_eq_ok {tenantId userId : String} {principal : Principal} :
    Principal.new tenantId userId = .ok principal ↔
      tenantId = principal.tenantId ∧ userId = principal.userId := by
  constructor
  · intro accepted
    unfold Principal.new at accepted
    split at accepted
    · split at accepted
      · cases accepted
        exact ⟨rfl, rfl⟩
      · cases accepted
    · cases accepted
  · rintro ⟨rfl, rfl⟩
    simp [Principal.new, principal.safeTenant, principal.safeUser]

theorem not_mem_tenantId (principal : Principal) {c : Char}
    (special : (c.isAlphanum || c == '-' || c == '_') = false) : c ∉ principal.tenantId.toList :=
  not_mem_of_isSafeSegment principal.safeTenant special

theorem not_mem_userId (principal : Principal) {c : Char}
    (special : (c.isAlphanum || c == '-' || c == '_') = false) : c ∉ principal.userId.toList :=
  not_mem_of_isSafeSegment principal.safeUser special

end Principal

/-- For any two callers and any ids: different callers have different upload keys,
different tenants different object keys and subjects; for one caller, and one tenant, the
key determines the id; and a subject is read back exactly when the id has no dot. -/
theorem key_spaces_isolated (crc32 : String → Nat) {tenant user tenant' user' : String}
    {caller caller' : Principal} (accepted : Principal.new tenant user = .ok caller)
    (accepted' : Principal.new tenant' user' = .ok caller') :
    (∀ upload upload', (tenant, user) ≠ (tenant', user') →
      UploadState.key tenant user upload ≠ UploadState.key tenant' user' upload') ∧
    (∀ id id', tenant ≠ tenant' → Keys.objectKey tenant id ≠ Keys.objectKey tenant' id' ∧
      eventSubject crc32 tenant id ≠ eventSubject crc32 tenant' id') ∧
    Function.Injective (UploadState.key tenant user) ∧
    Function.Injective (Keys.objectKey tenant) ∧
    Function.Injective (eventSubject crc32 tenant) ∧
    (∀ document, document ≠ "" → '.' ∉ document.toList →
      documentKeyFromSubject (eventSubject crc32 tenant document) = some (tenant, document)) ∧
    ∀ document, '.' ∈ document.toList →
      documentKeyFromSubject (eventSubject crc32 tenant document) = none := by
  obtain ⟨rfl, rfl⟩ := Principal.new_eq_ok.mp accepted
  obtain ⟨rfl, rfl⟩ := Principal.new_eq_ok.mp accepted'
  have slash : ∀ caller : Principal, '/' ∉ caller.tenantId.toList ∧ '/' ∉ caller.userId.toList :=
    fun caller => ⟨caller.not_mem_tenantId (by decide), caller.not_mem_userId (by decide)⟩
  have dot : ∀ caller : Principal, '.' ∉ caller.tenantId.toList :=
    fun caller => caller.not_mem_tenantId (by decide)
  refine ⟨fun upload upload' other same => ?_, fun id id' other => ⟨fun same => ?_, fun same => ?_⟩,
    fun upload upload' same => ?_, fun id id' same => ?_, fun id id' same => ?_,
    fun document _ plain => ?_, fun document dotted => ?_⟩
  · obtain ⟨tenants, users, -⟩ := UploadState.key_injective (slash caller) (slash caller') same
    exact other (by rw [tenants, users])
  · exact other (Keys.objectKey_injective (slash caller).1 (slash caller').1 same).1
  · exact other (eventSubject_injective crc32 (dot caller) (dot caller') same).1
  · exact (UploadState.key_injective (slash caller) (slash caller) same).2.2
  · exact (Keys.objectKey_injective (slash caller).1 (slash caller).1 same).2
  · exact (eventSubject_injective crc32 (dot caller) (dot caller) same).2
  · rw [documentKeyFromSubject_eq crc32 (dot caller), if_neg plain]
  · rw [documentKeyFromSubject_eq crc32 (dot caller), if_pos dotted]

/-- Two users of one tenant, with ids that try to climb out. -/
theorem key_spaces_isolated_slashes :
    UploadState.key "acme" "ann" "bob/../u1" ≠ UploadState.key "acme" "bob" "u1" ∧
      documentKeyFromSubject (eventSubject String.length "acme" "globex.00.d1") = none := by
  have ann : Principal.new "acme" "ann" =
      .ok ⟨"acme", "ann", by decide +kernel, by decide +kernel⟩ := Principal.new_eq_ok.mpr ⟨rfl, rfl⟩
  have bob : Principal.new "acme" "bob" =
      .ok ⟨"acme", "bob", by decide +kernel, by decide +kernel⟩ := Principal.new_eq_ok.mpr ⟨rfl, rfl⟩
  have isolated := key_spaces_isolated String.length ann bob
  exact ⟨isolated.1 _ _ (by decide), isolated.2.2.2.2.2.2 _ (by decide +kernel)⟩

end Delphi.Document
