/-
# Delphi.Document.FoldSpec -- the fold against a last-writer specification

What a log says of a document, read off the log and not off `apply`: every field
is the last value some event gave it (`FoldSpec`).  One step of the fold keeps
the specification (`FoldSpec.step`), so the fold of every valid log meets it
(`fold_meets_spec`).

The index is the one field that is not a last writer: `DocumentIndexed` compares
itself with the version it finds, and only new bytes reset the answer.  So a
current index is never older than the bytes, and can be older than the version:
an event that advances the version without new bytes leaves it current
(`indexed_then_renamed_is_stale`).
-/
import Delphi.Document.LogShape

namespace Delphi.Document

set_option autoImplicit false

/-! ## Valid logs -/

/-- A user-authored create at version 1, then events of the same document that are no
creates, with the versions the `advances_version` rule gives them. -/
inductive ValidLog (documentId : String) : List Entry → Prop where
  | opened {seq : Nat} {event : DocumentEvent} {userId : String}
      (document : event.documentId = documentId) (create : event.payload.isCreate = true)
      (authored : event.actor = .user userId) (version : event.version = 1) :
      ValidLog documentId [(seq, event)]
  | continued {log : List Entry} {seq : Nat} {event : DocumentEvent}
      (before : ValidLog documentId log) (document : event.documentId = documentId)
      (later : event.payload.isCreate = false) (version : event.version = nextVersion log event) :
      ValidLog documentId (log ++ [(seq, event)])

/-! ## Last writers -/

section LastOf

variable {α : Type}

/-- The last value an event of the log gives. -/
def lastOf (given : DocumentEvent → Option α) (log : List Entry) : Option α :=
  (log.filterMap fun entry => given entry.2).getLast?

@[simp] theorem lastOf_nil (given : DocumentEvent → Option α) : lastOf given [] = none := rfl

theorem lastOf_snoc (given : DocumentEvent → Option α) (log : List Entry) (entry : Entry) :
    lastOf given (log ++ [entry]) = (given entry.2).or (lastOf given log) := by
  unfold lastOf
  rw [List.filterMap_append]
  cases value : given entry.2 with
  | none => simp [value]
  | some last => simp [value]

end LastOf

/-- The bytes an event introduces. -/
structure Introduced where
  blobRef : String
  filename : String
  contentType : String
  byteSize : Nat
  checksum : String
  version : Nat

namespace DocumentEvent

/-- A create or a validated blob. -/
def introduces (event : DocumentEvent) : Option Introduced :=
  match event.payload with
  | .documentCreated created =>
      some ⟨created.blobRef, created.filename, created.contentType, created.byteSize,
        created.checksum, event.version⟩
  | .documentBlobValidated validated =>
      some ⟨validated.blobRef, validated.filename, validated.contentType, validated.byteSize,
        validated.checksum, event.version⟩
  | _ => none

def indexedFor (event : DocumentEvent) : Option Nat :=
  match event.payload with
  | .documentIndexed indexed => some indexed.forVersion
  | _ => none

def isDelete (event : DocumentEvent) : Bool :=
  match event.payload with
  | .documentDeleted _ => true
  | _ => false

/-- The value an event's patch gives a field. -/
def patches {α : Type} (field : MetadataPatch → Option α) (event : DocumentEvent) : Option α :=
  event.payload.patch?.bind field

end DocumentEvent

theorem DocumentEvent.version_of_introduces {event : DocumentEvent} {bytes : Introduced}
    (named : event.introduces = some bytes) : bytes.version = event.version := by
  unfold introduces at named
  split at named
  · cases named
    rfl
  · cases named
    rfl
  · cases named

theorem DocumentEvent.introduces_of_isCreate {event : DocumentEvent}
    (create : event.payload.isCreate = true) : ∃ bytes, event.introduces = some bytes := by
  unfold introduces
  cases payload : event.payload with
  | documentCreated created => exact ⟨_, rfl⟩
  | _ => simp [payload, DocumentEventPayload.isCreate] at create

/-- What a log says of its document. -/
structure FoldSpec (log : List Entry) (state : DocumentState) : Prop where
  version : state.version = log.countP fun entry => entry.2.advancesVersion
  last : ∀ entry, log.getLast? = some entry →
    state.streamSeq = entry.1 ∧ state.updatedAt = entry.2.ts
  first : ∀ entry, log.head? = some entry →
    state.createdAt = entry.2.ts ∧ entry.2.actor = .user state.ownerUserId
  deleted : state.state = .deleted ↔ ∃ entry ∈ log, entry.2.isDelete = true
  currentBlob : state.currentBlob = (lastOf DocumentEvent.introduces log).map (·.blobRef)
  filename : state.filename = (lastOf DocumentEvent.introduces log).map (·.filename)
  contentType : state.contentType = (lastOf DocumentEvent.introduces log).map (·.contentType)
  byteSize : state.byteSize = (lastOf DocumentEvent.introduces log).map (·.byteSize)
  checksum : state.checksum = (lastOf DocumentEvent.introduces log).map (·.checksum)
  title : state.title = lastOf (DocumentEvent.patches (·.title)) log
  tags : state.tags = (lastOf (DocumentEvent.patches (·.tags)) log).getD []
  description : state.description = lastOf (DocumentEvent.patches (·.description)) log
  metadata : state.metadata = (lastOf (DocumentEvent.patches (·.metadata)) log).getD (.object [])
  indexVersion : state.indexVersion = lastOf DocumentEvent.indexedFor log
  indexState : state.indexState = .current → ∃ forVersion introduced,
    lastOf DocumentEvent.indexedFor log = some forVersion ∧
      lastOf DocumentEvent.introduces log = some introduced ∧ introduced.version ≤ forVersion

/-! ## One event -/

/-- A state stamped with an event's version, sequence and time. -/
def stamped (existing : DocumentState) (event : DocumentEvent) (seq : Nat) : DocumentState :=
  { existing with version := event.version, streamSeq := seq, updatedAt := event.ts }

theorem apply_later {existing : DocumentState} {event : DocumentEvent} (seq : Nat)
    (same : existing.documentId = event.documentId) (later : event.payload.isCreate = false) :
    apply (some existing) event seq = .ok (amend (stamped existing event seq) event.payload) := by
  unfold apply
  simp only [checkDocument_some same]
  cases payload : event.payload with
  | documentCreated created => simp [payload, DocumentEventPayload.isCreate] at later
  | _ => rfl

section Amend

variable (next : DocumentState) (event : DocumentEvent)

theorem amend_fixed : (amend next event.payload).createdAt = next.createdAt ∧
    (amend next event.payload).ownerUserId = next.ownerUserId ∧
    (amend next event.payload).updatedAt = next.updatedAt := by
  cases event.payload with
  | documentStageFailed failed =>
      simp only [amend]
      split <;> exact ⟨rfl, rfl, rfl⟩
  | _ => exact ⟨rfl, rfl, rfl⟩

theorem amend_state : (amend next event.payload).state =
    if event.isDelete then .deleted else next.state := by
  unfold DocumentEvent.isDelete
  cases event.payload with
  | documentStageFailed failed =>
      simp only [amend]
      split <;> rfl
  | _ => rfl

theorem amend_introduced (later : event.payload.isCreate = false) :
    (amend next event.payload).currentBlob =
      (event.introduces.map (·.blobRef)).or next.currentBlob ∧
    (amend next event.payload).filename = (event.introduces.map (·.filename)).or next.filename ∧
    (amend next event.payload).contentType =
      (event.introduces.map (·.contentType)).or next.contentType ∧
    (amend next event.payload).byteSize = (event.introduces.map (·.byteSize)).or next.byteSize ∧
    (amend next event.payload).checksum = (event.introduces.map (·.checksum)).or next.checksum := by
  unfold DocumentEvent.introduces
  cases payload : event.payload with
  | documentCreated created => simp [payload, DocumentEventPayload.isCreate] at later
  | documentStageFailed failed =>
      simp only [amend]
      split <;> exact ⟨rfl, rfl, rfl, rfl, rfl⟩
  | _ => exact ⟨rfl, rfl, rfl, rfl, rfl⟩

theorem mergePatch_fields (patch : MetadataPatch) :
    (mergePatch next patch).title = patch.title.or next.title ∧
    (mergePatch next patch).tags = patch.tags.getD next.tags ∧
    (mergePatch next patch).description = patch.description.or next.description ∧
    (mergePatch next patch).metadata = patch.metadata.getD next.metadata := by
  refine ⟨?_, rfl, ?_, rfl⟩
  · exact Option.orElse_eq_or
  · exact Option.orElse_eq_or

theorem amend_patched (later : event.payload.isCreate = false) :
    (amend next event.payload).title = (event.patches (·.title)).or next.title ∧
    (amend next event.payload).tags = (event.patches (·.tags)).getD next.tags ∧
    (amend next event.payload).description =
      (event.patches (·.description)).or next.description ∧
    (amend next event.payload).metadata = (event.patches (·.metadata)).getD next.metadata := by
  unfold DocumentEvent.patches
  cases payload : event.payload with
  | documentCreated created => simp [payload, DocumentEventPayload.isCreate] at later
  | documentStageFailed failed =>
      simp only [amend]
      split <;> exact ⟨rfl, rfl, rfl, rfl⟩
  | documentBlobValidated validated => exact mergePatch_fields _ validated.patch
  | documentMetadataChanged patch => exact mergePatch_fields next patch
  | documentReverted revertedTo patch => exact mergePatch_fields next patch
  | _ => exact ⟨rfl, rfl, rfl, rfl⟩

theorem amend_indexVersion :
    (amend next event.payload).indexVersion = event.indexedFor.or next.indexVersion := by
  unfold DocumentEvent.indexedFor
  cases event.payload with
  | documentStageFailed failed =>
      simp only [amend]
      split <;> rfl
  | _ => rfl

/-- A current index was just built for this version, or was current before and no new
bytes came. -/
theorem amend_current (later : event.payload.isCreate = false)
    (current : (amend next event.payload).indexState = .current) :
    (∃ forVersion, event.indexedFor = some forVersion ∧ next.version ≤ forVersion ∧
      event.introduces = none) ∨
    event.indexedFor = none ∧ event.introduces = none ∧ next.indexState = .current := by
  unfold DocumentEvent.indexedFor DocumentEvent.introduces
  cases payload : event.payload with
  | documentCreated created => simp [payload, DocumentEventPayload.isCreate] at later
  | documentBlobValidated validated =>
      rw [payload] at current
      cases current
  | documentIndexed indexed =>
      simp only [payload, amend] at current
      split at current
      · rename_i fresh
        exact .inl ⟨_, rfl, fresh, rfl⟩
      · cases current
  | documentStageFailed failed =>
      simp only [payload, amend] at current
      split at current
      · cases current
      · exact .inr ⟨rfl, rfl, current⟩
  | _ =>
      rw [payload] at current
      exact .inr ⟨rfl, rfl, current⟩

end Amend

/-! ## Facts of a valid log -/

namespace ValidLog

variable {documentId : String} {log : List Entry}

theorem nonempty (valid : ValidLog documentId log) : log ≠ [] := by
  cases valid <;> simp

theorem version_eq_countP (valid : ValidLog documentId log) :
    headVersion log = log.countP fun entry => entry.2.advancesVersion := by
  induction valid with
  | @opened seq event userId _ create _ version =>
      have advances : event.advancesVersion = true :=
        DocumentEventPayload.advancesVersion_of_isCreate create
      simp [headVersion, version, advances]
  | @continued log seq event before _ _ version ih =>
      rw [headVersion_snoc, List.countP_append, ← ih, version, nextVersion]
      simp [List.countP_singleton]

/-- The bytes of a document came with some event, at a version not after the last. -/
theorem introduced (valid : ValidLog documentId log) :
    ∃ bytes, lastOf DocumentEvent.introduces log = some bytes ∧ bytes.version ≤ headVersion log := by
  induction valid with
  | @opened seq event userId _ create _ version =>
      obtain ⟨bytes, named⟩ := DocumentEvent.introduces_of_isCreate create
      refine ⟨bytes, by simp [lastOf, named], ?_⟩
      rw [DocumentEvent.version_of_introduces named]
      simp [headVersion]
  | @continued log seq event before _ _ version ih =>
      obtain ⟨bytes, last, bound⟩ := ih
      rw [lastOf_snoc, headVersion_snoc]
      cases new : event.introduces with
      | none =>
          refine ⟨bytes, by simpa using last, ?_⟩
          rw [version, nextVersion]
          omega
      | some newer => exact ⟨newer, rfl, Nat.le_of_eq (DocumentEvent.version_of_introduces new)⟩

end ValidLog

/-! ## The fold meets the specification -/

/-- A user-authored create on no state, against a log of that event alone. -/
theorem foldSpec_opened {event : DocumentEvent} {userId : String} (seq : Nat)
    (create : event.payload.isCreate = true) (authored : event.actor = .user userId)
    (version : event.version = 1) :
    ∃ state, apply none event seq = .ok state ∧ FoldSpec [(seq, event)] state := by
  have advances : event.advancesVersion = true :=
    DocumentEventPayload.advancesVersion_of_isCreate create
  cases payload : event.payload with
  | documentCreated created =>
      refine ⟨mergePatch (seed event created userId event.ts seq) created.patch, ?_, ?_⟩
      · simp [apply, payload, authored]
      · obtain ⟨title, tags, description, metadata⟩ :=
          mergePatch_fields (seed event created userId event.ts seq) created.patch
        have bytes : lastOf DocumentEvent.introduces [(seq, event)] = some ⟨created.blobRef,
            created.filename, created.contentType, created.byteSize, created.checksum,
            event.version⟩ := by
          simp [lastOf, DocumentEvent.introduces, payload]
        have patched : ∀ {α : Type} (field : MetadataPatch → Option α),
            lastOf (DocumentEvent.patches field) [(seq, event)] = field created.patch := by
          intro α field
          have given : event.patches field = field created.patch := by
            simp [DocumentEvent.patches, payload, DocumentEventPayload.patch?]
          rw [← List.nil_append [(seq, event)], lastOf_snoc, given, lastOf_nil, Option.or_none]
        constructor
        · simp [advances, seed, version]
        · rintro entry ⟨⟩
          exact ⟨rfl, rfl⟩
        · rintro entry ⟨⟩
          exact ⟨rfl, authored⟩
        · simp [DocumentEvent.isDelete, payload, mergePatch, seed]
        · rw [bytes]
          rfl
        · rw [bytes]
          rfl
        · rw [bytes]
          rfl
        · rw [bytes]
          rfl
        · rw [bytes]
          rfl
        · rw [title, patched, seed, Option.or_none]
        · rw [tags, patched, seed]
        · rw [description, patched, seed, Option.or_none]
        · rw [metadata, patched, seed]
        · simp [lastOf, DocumentEvent.indexedFor, payload, mergePatch, seed]
        · intro current
          cases current
  | _ => simp [payload, DocumentEventPayload.isCreate] at create

/-- One event more. -/
theorem FoldSpec.step {documentId : String} {log : List Entry} {state : DocumentState} {seq : Nat}
    {event : DocumentEvent} (spec : FoldSpec log state) (before : ValidLog documentId log)
    (later : event.payload.isCreate = false) (version : event.version = nextVersion log event) :
    FoldSpec (log ++ [(seq, event)]) (amend (stamped state event seq) event.payload) := by
  obtain ⟨createdAt, owner, updatedAt⟩ := amend_fixed (stamped state event seq) event
  obtain ⟨stampedVersion, streamSeq, -, -⟩ := amend_stamp (stamped state event seq) event.payload
  obtain ⟨blob, filename, contentType, byteSize, checksum⟩ :=
    amend_introduced (stamped state event seq) event later
  obtain ⟨title, tags, description, metadata⟩ :=
    amend_patched (stamped state event seq) event later
  constructor
  · rw [stampedVersion, List.countP_append, ← before.version_eq_countP]
    simp [stamped, version, nextVersion, List.countP_singleton]
  · intro entry found
    obtain rfl : (seq, event) = entry := by simpa using found
    exact ⟨streamSeq, updatedAt⟩
  · intro entry found
    rw [List.head?_append_of_ne_nil _ before.nonempty] at found
    rw [createdAt, owner]
    exact spec.first entry found
  · rw [amend_state]
    by_cases deletes : event.isDelete = true
    · simp [deletes]
    · simp only [deletes, Bool.false_eq_true, if_false, List.mem_append, List.mem_singleton]
      constructor
      · intro already
        obtain ⟨entry, mem, gone⟩ := spec.deleted.mp already
        exact ⟨entry, .inl mem, gone⟩
      · rintro ⟨entry, old | rfl, gone⟩
        · exact spec.deleted.mpr ⟨entry, old, gone⟩
        · exact absurd gone deletes
  · rw [blob, lastOf_snoc, Option.map_or, ← spec.currentBlob]
    rfl
  · rw [filename, lastOf_snoc, Option.map_or, ← spec.filename]
    rfl
  · rw [contentType, lastOf_snoc, Option.map_or, ← spec.contentType]
    rfl
  · rw [byteSize, lastOf_snoc, Option.map_or, ← spec.byteSize]
    rfl
  · rw [checksum, lastOf_snoc, Option.map_or, ← spec.checksum]
    rfl
  · rw [title, lastOf_snoc, ← spec.title]
    rfl
  · rw [tags, lastOf_snoc, Option.getD_or, ← spec.tags]
    rfl
  · rw [description, lastOf_snoc, ← spec.description]
    rfl
  · rw [metadata, lastOf_snoc, Option.getD_or, ← spec.metadata]
    rfl
  · rw [amend_indexVersion, lastOf_snoc, ← spec.indexVersion]
    rfl
  · intro current
    rcases amend_current _ event later current with ⟨built, indexed, fresh, quiet⟩ | ⟨none, quiet, was⟩
    · -- The bytes are no newer than the version the index was just found fresh for.
      obtain ⟨bytes, last, bound⟩ := before.introduced
      refine ⟨built, bytes, ?_, ?_, ?_⟩
      · rw [lastOf_snoc, indexed]
        rfl
      · rw [lastOf_snoc, quiet]
        exact last
      · have stamp : (stamped state event seq).version = event.version := rfl
        rw [stamp, version, nextVersion] at fresh
        omega
    · obtain ⟨built, bytes, indexed, last, order⟩ := spec.indexState was
      refine ⟨built, bytes, ?_, ?_, order⟩
      · rw [lastOf_snoc, none]
        exact indexed
      · rw [lastOf_snoc, quiet]
        exact last

theorem foldHistory_snoc_ok {log : List Entry} {state next : DocumentState} {seq : Nat}
    {event : DocumentEvent} (folded : foldHistory log = .ok (some state))
    (step : apply (some state) event seq = .ok next) :
    foldHistory (log ++ [(seq, event)]) = .ok (some next) := by
  unfold foldHistory at folded ⊢
  simp [foldFrom_append, folded, foldFrom, step]

theorem ValidLog.folds {documentId : String} {log : List Entry} (valid : ValidLog documentId log) :
    ∃ state, foldHistory log = .ok (some state) ∧ state.documentId = documentId ∧
      FoldSpec log state := by
  induction valid with
  | @opened seq event userId document create authored version =>
      obtain ⟨state, applied, spec⟩ := foldSpec_opened seq create authored version
      refine ⟨state, by simp [foldHistory, foldFrom, applied], ?_, spec⟩
      rw [(apply_stamp applied).2.2, document]
  | @continued log seq event before document later version ih =>
      obtain ⟨state, folded, same, spec⟩ := ih
      have applied := apply_later seq (same.trans document.symm) later
      refine ⟨_, foldHistory_snoc_ok folded applied, ?_, spec.step before later version⟩
      rw [(apply_stamp applied).2.2, document]

/-- Every valid log folds, to what it says of its document. -/
theorem fold_meets_spec {documentId : String} {log : List Entry}
    (valid : ValidLog documentId log) :
    ∃ state, foldHistory log = .ok (some state) ∧ FoldSpec log state := by
  obtain ⟨state, folded, -, spec⟩ := valid.folds
  exact ⟨state, folded, spec⟩

namespace IndexAge

def event (version : Nat) (payload : DocumentEventPayload) : DocumentEvent :=
  ⟨1, "event", "acme", "doc-1", .user "user-1", version, 0, payload⟩

def created : DocumentEvent :=
  event 1 (.documentCreated ⟨"upload-1", "a.txt", "text/plain", 3, "00", ⟨none, none, none, none⟩⟩)

def indexed : DocumentEvent := event 1 (.documentIndexed ⟨1, 12, "m"⟩)

def renamed : DocumentEvent := event 2 (.documentMetadataChanged ⟨some "Report", none, none, none⟩)

theorem valid_indexed : ValidLog "doc-1" [(1, created), (2, indexed)] := by
  show ValidLog "doc-1" ([(1, created)] ++ [(2, indexed)])
  exact .continued (.opened rfl rfl rfl rfl) rfl rfl rfl

theorem valid_renamed : ValidLog "doc-1" [(1, created), (2, indexed), (3, renamed)] := by
  show ValidLog "doc-1" ([(1, created), (2, indexed)] ++ [(3, renamed)])
  exact .continued valid_indexed rfl rfl rfl

end IndexAge

/-- A created and indexed document. -/
theorem fold_meets_spec_indexed :
    ∃ state, foldHistory [(1, IndexAge.created), (2, IndexAge.indexed)] = .ok (some state) ∧
      FoldSpec [(1, IndexAge.created), (2, IndexAge.indexed)] state :=
  fold_meets_spec IndexAge.valid_indexed

/-! ## The age of the index -/

/-- A current index is one built for this version or a later one. -/
def IndexFresh (state : DocumentState) : Prop :=
  state.indexState = .current →
    ∃ forVersion, state.indexVersion = some forVersion ∧ state.version ≤ forVersion

/-- The version advances and the bytes stay. -/
def DocumentEvent.advancesWithoutBytes (event : DocumentEvent) : Bool :=
  match event.payload with
  | .documentMetadataChanged _ | .documentReverted _ _ | .documentDeleted _ => true
  | _ => false

/-- An event that keeps the bytes does not move the version past a current index. -/
def KeepsIndex (state : DocumentState) (event : DocumentEvent) : Prop :=
  event.advancesWithoutBytes = true → state.indexState = .current →
    ∀ forVersion, state.indexVersion = some forVersion → event.version ≤ forVersion

theorem ValidLog.of_snoc {documentId : String} {log : List Entry} {entry : Entry}
    (valid : ValidLog documentId (log ++ [entry])) (nonempty : log ≠ []) :
    ValidLog documentId log ∧ entry.2.documentId = documentId ∧
      entry.2.payload.isCreate = false ∧ entry.2.version = nextVersion log entry.2 := by
  generalize shape : log ++ [entry] = whole at valid
  cases valid with
  | opened =>
      obtain ⟨rfl, -⟩ := List.append_inj' (shape.trans (List.nil_append _).symm) rfl
      exact absurd rfl nonempty
  | continued before document later version =>
      obtain ⟨rfl, last⟩ := List.append_inj' shape rfl
      obtain rfl := List.singleton_inj.mp last
      exact ⟨before, document, later, version⟩

/-- The part of a valid log before some entry is valid. -/
theorem ValidLog.of_append {documentId : String} {front : List Entry} (back : List Entry)
    (valid : ValidLog documentId (front ++ back)) (nonempty : front ≠ []) :
    ValidLog documentId front := by
  induction back using List.reverseRecOn with
  | nil => simpa using valid
  | append_singleton back entry ih =>
      rw [← List.append_assoc] at valid
      exact ih (valid.of_snoc (by simp [nonempty])).1

theorem amend_keeps (state : DocumentState) {event : DocumentEvent} (seq : Nat)
    (keeps : event.advancesWithoutBytes = true) :
    (amend (stamped state event seq) event.payload).indexState = state.indexState ∧
      (amend (stamped state event seq) event.payload).indexVersion = state.indexVersion := by
  unfold DocumentEvent.advancesWithoutBytes at keeps
  cases payload : event.payload with
  | documentMetadataChanged patch => exact ⟨rfl, rfl⟩
  | documentReverted revertedTo patch => exact ⟨rfl, rfl⟩
  | documentDeleted reason => exact ⟨rfl, rfl⟩
  | _ => simp [payload] at keeps

/-- Whatever else an event does, it leaves the version as it was. -/
theorem version_of_not_advancing {log : List Entry} {event : DocumentEvent}
    (later : event.payload.isCreate = false) (version : event.version = nextVersion log event)
    (bytes : event.introduces = none) (keeps : event.advancesWithoutBytes = false) :
    event.version = headVersion log := by
  have still : event.advancesVersion = false := by
    unfold DocumentEvent.advancesVersion
    unfold DocumentEvent.introduces at bytes
    unfold DocumentEvent.advancesWithoutBytes at keeps
    cases payload : event.payload <;>
      simp_all [DocumentEventPayload.isCreate, DocumentEventPayload.advancesVersion]
  simp [version, nextVersion, still]

/-- One step keeps the index fresh exactly when it keeps the index. -/
theorem indexFresh_step_iff {log : List Entry} {state : DocumentState} {event : DocumentEvent}
    {seq : Nat} (fresh : IndexFresh state) (head : state.version = headVersion log)
    (later : event.payload.isCreate = false) (version : event.version = nextVersion log event) :
    IndexFresh (amend (stamped state event seq) event.payload) ↔ KeepsIndex state event := by
  obtain ⟨stampedVersion, -⟩ := amend_stamp (stamped state event seq) event.payload
  have newVersion : (amend (stamped state event seq) event.payload).version = event.version :=
    stampedVersion
  constructor
  · intro after keeps current forVersion built
    obtain ⟨sameState, sameVersion⟩ := amend_keeps state seq keeps
    obtain ⟨other, indexed, order⟩ := after (by rw [sameState, current])
    rw [sameVersion, built] at indexed
    cases indexed
    rwa [newVersion] at order
  · intro keeps current
    rw [newVersion, amend_indexVersion]
    rcases amend_current _ event later current with ⟨built, indexed, order, -⟩ | ⟨none, quiet, was⟩
    · exact ⟨built, by rw [indexed]; rfl, order⟩
    · obtain ⟨built, indexed, order⟩ := fresh was
      refine ⟨built, by rw [none]; exact indexed, ?_⟩
      cases outdates : event.advancesWithoutBytes with
      | true => exact keeps outdates was built indexed
      | false =>
          rw [version_of_not_advancing later version quiet outdates, ← head]
          exact order

/-- The state a valid log folds to, at the version and document of the log. -/
theorem ValidLog.folded {documentId : String} {log : List Entry} {state : DocumentState}
    (valid : ValidLog documentId log) (folded : foldHistory log = .ok (some state)) :
    FoldSpec log state ∧ state.documentId = documentId ∧ state.version = headVersion log := by
  obtain ⟨state', folded', document, spec⟩ := valid.folds
  obtain rfl : state = state' := by
    rw [folded] at folded'
    exact Option.some.inj (Except.ok.inj folded')
  exact ⟨spec, document, spec.version.trans valid.version_eq_countP.symm⟩

/-- A create alone has no index. -/
theorem indexFresh_opened {documentId : String} {entry : Entry} {state : DocumentState}
    (valid : ValidLog documentId [entry]) (folded : foldHistory [entry] = .ok (some state)) :
    IndexFresh state := by
  intro current
  obtain ⟨spec, -, -⟩ := valid.folded folded
  obtain ⟨built, bytes, indexed, introduced, -⟩ := spec.indexState current
  rw [← List.nil_append [entry], lastOf_snoc, lastOf_nil, Option.or_none] at indexed introduced
  unfold DocumentEvent.indexedFor at indexed
  unfold DocumentEvent.introduces at introduced
  cases payload : entry.2.payload <;> simp_all

/-- In every state a valid log passes through a current index is at least as new as the
version, exactly when no event that keeps the bytes moves the version past it. -/
theorem index_never_stale_iff {documentId : String} {log : List Entry}
    (valid : ValidLog documentId log) :
    (∀ front back state, log = front ++ back → foldHistory front = .ok (some state) →
      IndexFresh state) ↔
    ∀ front seq event back state, log = front ++ (seq, event) :: back →
      foldHistory front = .ok (some state) → KeepsIndex state event := by
  have inside : ∀ {front : List Entry} {entry : Entry} {back : List Entry} {state : DocumentState},
      log = front ++ entry :: back → foldHistory front = .ok (some state) →
      ValidLog documentId front ∧ entry.2.documentId = documentId ∧
        entry.2.payload.isCreate = false ∧ entry.2.version = nextVersion front entry.2 := by
    intro front entry back state shape folded
    have nonempty : front ≠ [] := by
      rintro rfl
      cases folded
    have longer : ValidLog documentId (front ++ [entry]) := by
      apply ValidLog.of_append back
      · simpa [shape] using valid
      · simp
    exact longer.of_snoc nonempty
  constructor
  · intro fresh front seq event back state shape folded
    obtain ⟨before, document, later, version⟩ := inside shape folded
    obtain ⟨-, same, head⟩ := before.folded folded
    have applied := apply_later seq (same.trans document.symm) later
    apply (indexFresh_step_iff (fresh front _ state shape folded) head later version).mp
    exact fresh (front ++ [(seq, event)]) back _ (by simp [shape])
      (foldHistory_snoc_ok folded applied)
  · intro keeps front
    induction front using List.reverseRecOn with
    | nil =>
        intro back state _ folded
        cases folded
    | append_singleton front entry ih =>
        intro back state shape folded
        by_cases nonempty : front = []
        · subst nonempty
          have opened : ValidLog documentId [entry] := by
            apply ValidLog.of_append back
            · simpa [shape] using valid
            · simp
          exact indexFresh_opened opened folded
        · obtain ⟨seq, event⟩ := entry
          have split : log = front ++ (seq, event) :: back := by simp [shape]
          have whole : ValidLog documentId front := by
            apply ValidLog.of_append ((seq, event) :: back)
            · simpa [split] using valid
            · exact nonempty
          obtain ⟨earlier, reached, -, -⟩ := whole.folds
          obtain ⟨before, document, later, version⟩ := inside split reached
          obtain ⟨-, same, head⟩ := before.folded reached
          have applied := apply_later seq (same.trans document.symm) later
          have result := foldHistory_snoc_ok reached applied
          rw [folded] at result
          obtain rfl := Option.some.inj (Except.ok.inj result)
          exact (indexFresh_step_iff (ih _ earlier split reached) head later version).mpr
            (keeps front seq event back earlier split reached)

/-- A document created and indexed: nothing moves its version past the index. -/
theorem index_never_stale_indexed :
    ValidLog "doc-1" [(1, IndexAge.created), (2, IndexAge.indexed)] ∧
    ∀ front back state, [(1, IndexAge.created), (2, IndexAge.indexed)] = front ++ back →
      foldHistory front = .ok (some state) → IndexFresh state := by
  refine ⟨IndexAge.valid_indexed, (index_never_stale_iff IndexAge.valid_indexed).mpr ?_⟩
  intro front seq event back state shape _ keeps
  have mem : (seq, event) ∈ [(1, IndexAge.created), (2, IndexAge.indexed)] := by
    rw [shape]
    exact List.mem_append_right _ List.mem_cons_self
  rcases List.mem_cons.mp mem with create | index
  · cases create
    cases keeps
  · cases List.mem_singleton.mp index
    cases keeps

/-- A new title after indexing: version 2, and the index of version 1 still current. -/
theorem indexed_then_renamed_is_stale :
    ValidLog "doc-1" [(1, IndexAge.created), (2, IndexAge.indexed), (3, IndexAge.renamed)] ∧
    ∃ state, foldHistory [(1, IndexAge.created), (2, IndexAge.indexed), (3, IndexAge.renamed)] =
        .ok (some state) ∧
      state.indexState = .current ∧ state.indexVersion = some 1 ∧ state.version = 2 ∧
      ¬ IndexFresh state := by
  refine ⟨IndexAge.valid_renamed, _, rfl, rfl, rfl, rfl, ?_⟩
  intro fresh
  obtain ⟨forVersion, built, order⟩ := fresh rfl
  obtain rfl : 1 = forVersion := Option.some.inj built
  exact absurd order (by decide)

end Delphi.Document
