/-
# Delphi.Document.Subjects -- the subject of a document's events

`event_subject` of `document-adapters/src/jetstream/mod.rs` and the way back,
`document_key_from_subject` of the projection.  The checksum that picks the
partition is a parameter: nothing depends on which partition it is.
-/
import Delphi.Document.EventStore

namespace Delphi.Document

set_option autoImplicit false

def eventPartitions : Nat := 16

/-- Two decimal digits, as `{partition:02}` prints a number below 100. -/
def twoDigits (n : Nat) : List Char :=
  [Nat.digitChar (n / 10 % 10), Nat.digitChar (n % 10)]

/-- `documents.<tenant_id>.<partition>.<document_id>` -/
def eventSubject (crc32 : String → Nat) (tenantId documentId : String) : String :=
  String.ofList (['.'].intercalate ["documents".toList, tenantId.toList,
    twoDigits (crc32 documentId % eventPartitions), documentId.toList])

def documentKeyFromSubject (subject : String) : Option StreamKey :=
  match subject.toList.splitOn '.' with
  | [root, tenant, _, documentId] =>
      if String.ofList root = "documents" then
        some (String.ofList tenant, String.ofList documentId)
      else none
  | _ => none

theorem dot_not_mem_twoDigits (n : Nat) : '.' ∉ twoDigits n := by
  have digit : ∀ d, d < 10 → Nat.digitChar d ≠ '.' := by decide
  simp only [twoDigits, List.mem_cons, List.not_mem_nil, or_false, not_or]
  exact ⟨(digit _ (Nat.mod_lt _ (by omega))).symm, (digit _ (Nat.mod_lt _ (by omega))).symm⟩

/-- A subject names the document it was made for. -/
theorem documentKeyFromSubject_eventSubject (crc32 : String → Nat) {tenantId documentId : String}
    (tenant : '.' ∉ tenantId.toList) (document : '.' ∉ documentId.toList) :
    documentKeyFromSubject (eventSubject crc32 tenantId documentId) =
      some (tenantId, documentId) := by
  have tokens : ∀ token ∈ ["documents".toList, tenantId.toList,
      twoDigits (crc32 documentId % eventPartitions), documentId.toList], '.' ∉ token := by
    intro token mem
    simp only [List.mem_cons, List.not_mem_nil, or_false] at mem
    rcases mem with rfl | rfl | rfl | rfl
    · decide
    · exact tenant
    · exact dot_not_mem_twoDigits _
    · exact document
  have split := List.splitOn_intercalate '.' tokens (by simp)
  simp only [documentKeyFromSubject, eventSubject, String.toList_ofList, split,
    String.ofList_toList, if_true]

example : documentKeyFromSubject "documents.acme.09.doc-1" = some ("acme", "doc-1") := by
  decide +kernel

end Delphi.Document
