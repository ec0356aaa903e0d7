/-
# Delphi.Document.LogShape -- the shape of a document's stream

A stream is well formed when it starts with its only create, authored by a user
at version 1, and every later event belongs to the document and carries the
version the `advances_version` rule gives it: one more than its predecessor's,
or the same.

Both sides of the program lean on this and check none of it: the append helpers
stamp `last + 1`, and the fold takes each version as it finds it.  A well-formed
stream folds, to a state that carries its last version and sequence
(`WellFormed.folds`).
-/
import Mathlib.Data.List.Induction
import Delphi.Document.EventStore
import Delphi.Document.Fold

namespace Delphi.Document

set_option autoImplicit false

/-- The version the next event of a stream must carry. -/
def nextVersion (stream : List Entry) (event : DocumentEvent) : Nat :=
  headVersion stream + if event.advancesVersion then 1 else 0

/-- An event that may open the stream of a document. -/
structure Opens (key : StreamKey) (event : DocumentEvent) : Prop where
  addressed : event.streamKey = key
  create : event.payload.isCreate = true
  authored : ∃ userId, event.actor = .user userId
  version : event.version = 1

/-- An event that may follow a stream of a document. -/
structure Continues (key : StreamKey) (stream : List Entry) (event : DocumentEvent) : Prop where
  addressed : event.streamKey = key
  later : event.payload.isCreate = false
  version : event.version = nextVersion stream event

inductive WellFormed (key : StreamKey) : List Entry → Prop where
  | empty : WellFormed key []
  | opened {seq : Nat} {event : DocumentEvent} (opens : Opens key event) :
      WellFormed key [(seq, event)]
  | continued {stream : List Entry} {seq : Nat} {event : DocumentEvent}
      (before : WellFormed key stream) (nonempty : stream ≠ [])
      (continues : Continues key stream event) : WellFormed key (stream ++ [(seq, event)])

namespace WellFormed

variable {key : StreamKey} {stream : List Entry}

/-- The first entry is the create, at version 1, and no other entry is one. -/
theorem first (formed : WellFormed key stream) (nonempty : stream ≠ []) :
    ∃ entry rest, stream = entry :: rest ∧ Opens key entry.2 ∧
      ∀ later ∈ rest, later.2.payload.isCreate = false := by
  induction formed with
  | empty => exact absurd rfl nonempty
  | opened opens => exact ⟨_, [], rfl, opens, by simp⟩
  | @continued stream seq event before before_ne continues ih =>
      obtain ⟨entry, rest, rfl, opens, others⟩ := ih before_ne
      refine ⟨entry, rest ++ [(seq, event)], rfl, opens, fun later mem => ?_⟩
      rcases List.mem_append.mp mem with old | new
      · exact others later old
      · obtain rfl := List.mem_singleton.mp new
        exact continues.later

theorem addressed (formed : WellFormed key stream) : ∀ entry ∈ stream, entry.2.streamKey = key := by
  induction formed with
  | empty => simp
  | opened opens => simpa using opens.addressed
  | continued _ _ continues ih =>
      intro entry mem
      rcases List.mem_append.mp mem with old | new
      · exact ih entry old
      · obtain rfl := List.mem_singleton.mp new
        exact continues.addressed

/-- In a stream of version-advancing events the `i`-th entry has version `i + 1`. -/
theorem version_of_advancing (formed : WellFormed key stream)
    (advancing : ∀ entry ∈ stream, entry.2.advancesVersion = true) :
    headVersion stream = stream.length ∧
      ∀ i entry, stream[i]? = some entry → entry.2.version = i + 1 := by
  induction formed with
  | empty => exact ⟨rfl, by simp⟩
  | @opened seq event opens =>
      refine ⟨by simp [headVersion, opens.version], fun i entry found => ?_⟩
      cases i with
      | zero =>
          obtain rfl : (seq, event) = entry := by simpa using found
          exact opens.version
      | succ i => simp at found
  | @continued stream seq event before before_ne continues ih =>
      obtain ⟨count, versions⟩ := ih fun entry mem => advancing entry (List.mem_append_left _ mem)
      have advances : event.advancesVersion = true := advancing (seq, event) (by simp)
      have version : event.version = stream.length + 1 := by
        rw [continues.version, nextVersion, count, advances, if_pos rfl]
      refine ⟨by simp [version], fun i entry found => ?_⟩
      rcases Nat.lt_trichotomy i stream.length with lt | rfl | gt
      · rw [List.getElem?_append_left lt] at found
        exact versions i entry found
      · obtain rfl : (seq, event) = entry := by simpa using found
        exact version
      · rw [List.getElem?_eq_none (by simpa using Nat.succ_le_of_lt gt)] at found
        cases found

/-- A well-formed stream folds, and the state carries the last version and
sequence. -/
theorem folds (formed : WellFormed key stream) (nonempty : stream ≠ []) :
    ∃ state, foldHistory stream = .ok (some state) ∧ state.version = headVersion stream ∧
      state.streamSeq = lastSeq stream ∧ state.documentId = key.2 := by
  induction formed with
  | empty => exact absurd rfl nonempty
  | @opened seq event opens =>
      obtain ⟨userId, authored⟩ := opens.authored
      obtain ⟨state, folded⟩ := apply_none_create seq opens.create authored
      obtain ⟨version, streamSeq, document⟩ := apply_stamp folded
      refine ⟨state, by simp [foldHistory, foldFrom, folded], ?_, ?_, ?_⟩
      · simpa [headVersion] using version
      · simpa [lastSeq] using streamSeq
      · rw [document, ← opens.addressed]
        rfl
  | @continued stream seq event before before_ne continues ih =>
      obtain ⟨state, folded, -, -, document⟩ := ih before_ne
      have same : state.documentId = event.documentId := by
        rw [document, ← continues.addressed]
        rfl
      obtain ⟨next, step⟩ := apply_some_ok seq same continues.later
      obtain ⟨version, streamSeq, document'⟩ := apply_stamp step
      have result : foldHistory (stream ++ [(seq, event)]) = .ok (some next) := by
        unfold foldHistory at folded ⊢
        simp [foldFrom_append, folded, foldFrom, step]
      refine ⟨next, result, by simpa using version, by simpa using streamSeq, ?_⟩
      rw [document', ← continues.addressed]
      rfl

end WellFormed

/-! ## The last version-advancing entry -/

/-- The stream's last version-advancing entry has this version. -/
def LastAdvance (stream : List Entry) (version : Nat) : Prop :=
  ∃ front entry back, stream = front ++ entry :: back ∧ entry.2.advancesVersion = true ∧
    entry.2.version = version ∧ ∀ later ∈ back, later.2.advancesVersion = false

namespace WellFormed

variable {key : StreamKey} {stream : List Entry}

theorem lastAdvance (formed : WellFormed key stream) (nonempty : stream ≠ []) :
    LastAdvance stream (headVersion stream) := by
  induction formed with
  | empty => exact absurd rfl nonempty
  | @opened seq event opens =>
      exact ⟨[], (seq, event), [], rfl, DocumentEventPayload.advancesVersion_of_isCreate opens.create, rfl, by simp⟩
  | @continued stream seq event before before_ne continues ih =>
      cases advances : event.advancesVersion with
      | true => exact ⟨stream, (seq, event), [], rfl, advances, by simp, by simp⟩
      | false =>
          obtain ⟨front, entry, back, rfl, advanced, version, quiet⟩ := ih before_ne
          refine ⟨front, entry, back ++ [(seq, event)], by simp, advanced, ?_, fun later mem => ?_⟩
          · rw [version, headVersion_snoc, continues.version, nextVersion, advances]
            simp
          · rcases List.mem_append.mp mem with old | new
            · exact quiet later old
            · obtain rfl := List.mem_singleton.mp new
              exact advances

/-- The entry at the end of a longer well-formed stream continues the rest. -/
theorem of_snoc {entry : Entry} (formed : WellFormed key (stream ++ [entry]))
    (nonempty : stream ≠ []) : WellFormed key stream ∧ Continues key stream entry.2 := by
  generalize shape : stream ++ [entry] = whole at formed
  cases formed with
  | empty => simp at shape
  | opened opens =>
      obtain ⟨rfl, -⟩ := List.append_inj' (shape.trans (List.nil_append _).symm) rfl
      exact absurd rfl nonempty
  | continued before before_ne continues =>
      obtain ⟨rfl, last⟩ := List.append_inj' shape rfl
      obtain rfl := List.singleton_inj.mp last
      exact ⟨before, continues⟩

/-- Entries that do not advance the version leave the head version alone. -/
theorem headVersion_of_quiet {more : List Entry} (formed : WellFormed key (stream ++ more))
    (nonempty : stream ≠ []) (quiet : ∀ later ∈ more, later.2.advancesVersion = false) :
    headVersion (stream ++ more) = headVersion stream := by
  induction more using List.reverseRecOn with
  | nil => simp
  | append_singleton more entry ih =>
      rw [← List.append_assoc] at formed ⊢
      obtain ⟨before, continues⟩ := formed.of_snoc (by simp [nonempty])
      have still := ih before fun later mem => quiet later (List.mem_append_left _ mem)
      rw [headVersion_snoc, continues.version, nextVersion, quiet entry (by simp), still]
      simp

end WellFormed

end Delphi.Document
