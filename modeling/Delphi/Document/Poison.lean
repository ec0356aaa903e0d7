/-
# Delphi.Document.Poison -- a batch and the data of accepted uploads

One value that Postgres does not take fails a batch's whole transaction, on every
restart, for all documents.  A batch of events of accepted uploads whose requests
had no NUL binds only storable values, whatever rows it loads (`along_applyBatch`),
and a database that serves every statement it can commits it with its checkpoint
(`applied_commits`).

Accepted requests may have one, and then the batch of such an upload fails for
good (`nul_title_poisons`).
-/
import Delphi.Document.Accepted
import Delphi.Document.ProjectionStore

namespace Delphi.Document

open Delphi.Theory

set_option autoImplicit false

/-! ## Events without a NUL -/

namespace MetadataPatch

def storable (patch : MetadataPatch) : Bool :=
  patch.plain && patch.tags.all fun tags => tags.all textStorable

end MetadataPatch

namespace DocumentEventPayload

def storable : DocumentEventPayload → Bool
  | .documentCreated created => textStorable created.blobRef && textStorable created.filename &&
      textStorable created.contentType && textStorable created.checksum && created.patch.storable
  | .documentBlobValidated validated => textStorable validated.blobRef &&
      textStorable validated.filename && textStorable validated.contentType &&
      textStorable validated.checksum && validated.patch.storable
  | .documentMetadataChanged patch => patch.storable
  | .documentTextExtracted extracted =>
      textStorable extracted.extractorVersion && textStorable extracted.checksum
  | .documentIndexed indexed => textStorable indexed.embeddingModel
  | .documentStageFailed failed => textStorable failed.stage && textStorable failed.reason
  | .documentReverted _ patch => patch.storable
  | .documentDeleted reason => textStorable reason
  | .documentBlobPruned blobRef reason => textStorable blobRef && textStorable reason

end DocumentEventPayload

namespace DocumentEvent

/-- No string of the event has a NUL. -/
def storable (event : DocumentEvent) : Bool :=
  textStorable event.eventId && textStorable event.tenantId && textStorable event.documentId &&
  (match event.actor with
    | .user userId => textStorable userId
    | .system component => textStorable component) &&
  event.payload.storable

end DocumentEvent

/-- What is printed of an event has the strings of the event. -/
def Codec.Prints (codec : Codec) : Prop :=
  ∀ event value, codec.toValue event = some value → event.storable = true → value.storable = true

section Built

variable {digest : String → String}

theorem patch_storable (upload : AcceptedUpload) (plain : upload.plain = true) :
    upload.command.patch.storable = true := by
  obtain ⟨-, patch⟩ := upload.plain_iff.mp plain
  unfold MetadataPatch.storable
  rw [patch, Bool.true_and, Option.all_eq_true]
  intro tags present
  exact List.all_eq_true.mpr (upload.command_patch.2 tags present)

theorem Builds.storable {upload : AcceptedUpload} {event : DocumentEvent}
    (built : Builds digest upload.command event) (hex : ∀ text, textStorable (digest text) = true)
    (plain : upload.plain = true) : event.storable = true := by
  obtain ⟨tenantId, userId, uploadId, documentId⟩ := upload.identifiers_plain
  obtain ⟨⟨filename, contentType⟩, -⟩ := upload.plain_iff.mp plain
  have patch := patch_storable upload plain
  cases built with
  | created mode sum =>
      simp [DocumentEvent.storable, DocumentEventPayload.storable, UploadFinisher.createdEvent,
        Keys.createdEventId, Keys.eventId, hex, tenantId, userId, uploadId, documentId, filename,
        contentType, patch, checksum_storable sum]
  | replaced mode sum =>
      simp [DocumentEvent.storable, DocumentEventPayload.storable, UploadFinisher.replacedEvent,
        Keys.blobValidatedEventId, Keys.eventId, hex, tenantId, userId, uploadId, documentId,
        filename, contentType, patch, checksum_storable sum]

theorem noPriorState_storable {documentId eventType : String}
    (document : textStorable documentId = true) (type : textStorable eventType = true) :
    textStorable (FoldError.noPriorState documentId eventType).display = true := by
  have joined : ∀ {a b c : String}, textStorable a = true → textStorable b = true →
      textStorable c = true →
      textStorable (a ++ eventType ++ b ++ documentId ++ c) = true := by
    intro a b c first second third
    simp [first, second, third, document, type]
  exact joined (by decide +kernel) (by decide +kernel) (by decide +kernel)

theorem eventSubject_storable (crc32 : String → Nat) {tenantId documentId : String}
    (tenant : textStorable tenantId = true) (document : textStorable documentId = true) :
    textStorable (eventSubject crc32 tenantId documentId) = true := by
  have digit : ∀ d, d < 10 → Nat.digitChar d ≠ '\x00' := by decide
  rw [textStorable_iff] at tenant document ⊢
  simp [eventSubject, twoDigits, List.intercalate, tenant, document,
    (digit _ (Nat.mod_lt _ (by decide : 0 < 10))).symm]

end Built

/-! ## What a batch binds -/

namespace ProjectionCall

/-- Every value the call binds is one Postgres takes. -/
def storable : ProjectionCall → Bool
  | .readCheckpoint name => textStorable name
  | .loadDocument _ tenant documentId => textStorable tenant && textStorable documentId
  | .recordFailure _ name _ subject payload error =>
      textStorable name && textStorable subject && payload.storable && textStorable error
  | .upsertDocument _ state => state.storable
  | .writeCheckpoint _ name _ => textStorable name
  | _ => true

/-- The statement failed. -/
def failed : (op : ProjectionCall) → op.Ans → Bool
  | .begin, .error _ => true
  | .loadDocument _ _ _, .error _ => true
  | .recordFailure _ _ _ _ _ _, .error _ => true
  | .upsertDocument _ _, .error _ => true
  | .writeCheckpoint _ _ _, .error _ => true
  | .commit _, .error _ => true
  | _, _ => false

/-- A statement of session `tx` before its checkpoint. -/
def Within (tx : Nat) : ProjectionCall → Prop
  | .loadDocument session _ _ => session = tx
  | .recordFailure session _ _ _ _ _ => session = tx
  | .upsertDocument session _ => session = tx
  | _ => False

end ProjectionCall

/-- Some statement of the trace failed. -/
def Faulty (trace : Trace ProjectionPorts) : Prop :=
  ∃ op answer, (⟨op, answer⟩ : Call ProjectionPorts) ∈ trace ∧ op.failed answer = true

theorem Faulty.of_failed {trace : Trace ProjectionPorts} {op : ProjectionCall} {answer : op.Ans}
    (failed : op.failed answer = true) : Faulty (trace ++ [⟨op, answer⟩]) :=
  ⟨op, answer, by simp, failed⟩

/-- A row is loaded as the table holds it. -/
def storedLoads (_ : Trace ProjectionPorts) : (op : ProjectionCall) → op.Ans → Prop
  | .loadDocument _ tenant documentId, .ok (some row) =>
      (rowToDocument row).storable = true ∧ row.key = (tenant, documentId)
  | _, _ => True

section Batch

variable {codec : Codec} {crc32 : String → Nat} {digest : String → String}

/-- The message carries the event of an accepted upload whose request had no NUL. -/
def CarriesPlain (codec : Codec) (crc32 : String → Nat) (digest : String → String)
    (message : Message) : Prop :=
  ∃ (upload : AcceptedUpload) (event : DocumentEvent), upload.plain = true ∧
    Builds digest upload.command event ∧ decodeEvent codec message.payload = .event event ∧
    message.subject = eventSubject crc32 event.tenantId event.documentId

/-- The states a batch has folded so far. -/
def FoldedStorable (folded : Folded) : Prop := ∀ key, RowOf key (folded.lookup key)

theorem FoldedStorable.insert {folded : Folded} (stored : FoldedStorable folded)
    {state : DocumentState} (storable : state.storable = true) :
    FoldedStorable (folded.insert state.streamKey state) := by
  intro key found here
  by_cases same : key = state.streamKey
  · subst same
    rw [AList.lookup_insert] at here
    cases here
    exact ⟨storable, rfl⟩
  · rw [AList.lookup_insert_ne same] at here
    exact stored key found here

/-- What a plain message comes to, over any row of its document. -/
theorem CarriesPlain.projects {message : Message} (prints : codec.Prints)
    (hex : ∀ text, textStorable (digest text) = true)
    (carries : CarriesPlain codec crc32 digest message) :
    ∃ key : StreamKey, documentKeyFromSubject message.subject = some key ∧
      textStorable key.1 = true ∧ textStorable key.2 = true ∧
      textStorable message.subject = true ∧ ∀ prior, RowOf key prior →
      (∃ state, projectEvent codec prior message.payload message.sequence = .upsert state ∧
        state.storable = true) ∨
      ∃ payload error violation, projectEvent codec prior message.payload message.sequence =
        .failure payload error violation ∧ payload.storable = true ∧ textStorable error = true := by
  obtain ⟨upload, event, plain, built, decoded, subject⟩ := carries
  obtain ⟨safeTenant, -, -, safeDocument⟩ := upload.identifiers_safe
  have keyed : event.streamKey = (upload.command.tenantId, upload.command.documentId) :=
    built.streamKey
  have tenantId : event.tenantId = upload.command.tenantId := congrArg Prod.fst keyed
  have documentId : event.documentId = upload.command.documentId := congrArg Prod.snd keyed
  rw [← tenantId] at safeTenant
  rw [← documentId] at safeDocument
  have tenant := textStorable_of_isSafeSegment safeTenant
  have document := textStorable_of_isSafeSegment safeDocument
  refine ⟨event.streamKey, ?_, tenant, document, ?_, fun prior row => ?_⟩
  · rw [subject]
    exact documentKeyFromSubject_eventSubject crc32
      (not_mem_of_isSafeSegment safeTenant (by decide))
      (not_mem_of_isSafeSegment safeDocument (by decide))
  · rw [subject]
    exact eventSubject_storable crc32 tenant document
  · unfold projectEvent
    simp only [decoded]
    rcases apply_built built row message.sequence with
      ⟨-, -, failed⟩ | ⟨state, folded, -, storable⟩
    · refine .inr ⟨_, _, _, by rw [failed], ?_, noPriorState_storable document (by decide +kernel)⟩
      cases printed : codec.toValue event with
      | none => rfl
      | some value => exact prints event value printed (built.storable hex plain)
    · exact .inl ⟨state, by rw [folded], storable.mpr plain⟩

/-- A part of a batch ends well, or after a statement failed. -/
def EndsWell {α : Type} (good : α → Prop) (reached : Trace ProjectionPorts) :
    Except AdapterError α → Prop
  | .ok value => good value
  | .error _ => Faulty reached

variable {P : Trace ProjectionPorts → ProjectionCall → Prop} {tx : Nat} {loop : ProjectionLoop}

theorem along_loadPrior (issued : ∀ trace op, op.Within tx → op.storable = true → P trace op)
    {folded : Folded} (stored : FoldedStorable folded) {key : StreamKey}
    (tenant : textStorable key.1 = true) (document : textStorable key.2 = true)
    (trace : Trace ProjectionPorts) :
    Along storedLoads P (EndsWell (RowOf key)) trace
      (ProjectionLoop.loadPrior tx folded (some key)) := by
  unfold ProjectionLoop.loadPrior
  simp only
  split
  · rename_i state found
    exact found ▸ stored key
  · refine along_perform (issued _ _ rfl (by simp [ProjectionCall.storable, tenant, document])) ?_
    intro answer held
    match answer, held with
    | .error error, _ => exact Faulty.of_failed rfl
    | .ok none, _ => rintro state ⟨⟩
    | .ok (some row), held =>
        rintro state ⟨⟩
        exact held

/-- The induction over a batch: what is folded stays storable. -/
theorem along_foldBatch (prints : codec.Prints) (hex : ∀ text, textStorable (digest text) = true)
    (named : textStorable loop.name = true)
    (issued : ∀ trace op, op.Within tx → op.storable = true → P trace op) (batch : List Message)
    (plain : ∀ message ∈ batch, CarriesPlain codec crc32 digest message) {folded : Folded}
    (stored : FoldedStorable folded) (trace : Trace ProjectionPorts) :
    Along storedLoads P (EndsWell FoldedStorable) trace
      (ProjectionLoop.foldBatch codec loop tx folded batch) := by
  induction batch generalizing folded trace with
  | nil => exact stored
  | cons message rest ih =>
      obtain ⟨key, named', tenant, document, subject, projects⟩ :=
        (plain message (List.mem_cons_self ..)).projects prints hex
      have others : ∀ other ∈ rest, CarriesPlain codec crc32 digest other :=
        fun other mem => plain other (List.mem_cons_of_mem _ mem)
      unfold ProjectionLoop.foldBatch
      rw [named']
      refine Along.bind (along_loadPrior issued stored tenant document trace) ?_
      intro reached result prior
      cases result with
      | error error => exact prior
      | ok prior' =>
          rcases projects prior' prior with
            ⟨state, upserts, storable⟩ | ⟨payload, error, violation, fails, storable, printed⟩
          · simp only [upserts]
            exact ih others (stored.insert storable) reached
          · simp only [fails]
            refine along_perform (issued _ _ rfl ?_) fun answer _ => ?_
            · simp [ProjectionCall.storable, named, subject, storable, printed]
            · cases answer with
              | error error => exact Faulty.of_failed rfl
              | ok _ => exact ih others stored _

theorem along_upsertAll (issued : ∀ trace op, op.Within tx → op.storable = true → P trace op)
    (states : List DocumentState) (storable : ∀ state ∈ states, state.storable = true)
    (trace : Trace ProjectionPorts) :
    Along storedLoads P (EndsWell fun _ => True) trace (ProjectionLoop.upsertAll tx states) := by
  induction states generalizing trace with
  | nil => trivial
  | cons state rest ih =>
      refine along_perform (issued _ _ rfl (storable state (List.mem_cons_self ..))) ?_
      intro answer _
      cases answer with
      | error error => exact Faulty.of_failed rfl
      | ok _ => exact ih (fun other mem => storable other (List.mem_cons_of_mem _ mem)) _

theorem FoldedStorable.values {folded : Folded} (stored : FoldedStorable folded) :
    ∀ state ∈ loop.intoValues folded.values, state.storable = true := by
  intro state mem
  obtain ⟨key, found⟩ := Folded.mem_values ((loop.permutes _).mem_iff.mp mem)
  exact (stored key state found).1

theorem foldedStorable_empty : FoldedStorable ∅ := by
  rintro key state ⟨⟩

/-- Every value a batch of plain messages binds is storable, and it fails only if a
statement did. -/
theorem along_applyBatch (prints : codec.Prints) (hex : ∀ text, textStorable (digest text) = true)
    (named : textStorable loop.name = true) (batch : List Message)
    (plain : ∀ message ∈ batch, CarriesPlain codec crc32 digest message) :
    Along storedLoads (fun _ op => op.storable = true) (EndsWell fun _ => True) []
      (ProjectionLoop.applyBatch codec loop batch) := by
  refine along_perform rfl fun answer _ => ?_
  cases answer with
  | error error => exact Faulty.of_failed rfl
  | ok tx =>
      have issued : ∀ (_ : Trace ProjectionPorts) (op : ProjectionCall), op.Within tx →
          op.storable = true → op.storable = true := fun _ _ _ storable => storable
      refine Along.bind (along_foldBatch prints hex named issued batch plain foldedStorable_empty _)
        fun reached result folded => ?_
      cases result with
      | error error => exact folded
      | ok states =>
          refine Along.bind (along_upsertAll issued _ folded.values reached) ?_
          intro reached result upserted
          cases result with
          | error error => exact upserted
          | ok _ =>
              refine along_perform named fun answer _ => ?_
              cases answer with
              | error error => exact Faulty.of_failed rfl
              | ok _ =>
                  refine along_perform rfl fun answer _ => ?_
                  cases answer with
                  | error error => exact Faulty.of_failed rfl
                  | ok _ => trivial

end Batch

/-! ## A database with one client -/

namespace ProjectionDb

/-- No session but `tx` is open. -/
def OnlyOpen (tx : Nat) (db : ProjectionDb) : Prop :=
  ∀ n : Nat, n ≠ tx → ∀ writes, db.sessions[n]? ≠ some (.active writes)

/-- No session is open. -/
def Quiet (db : ProjectionDb) : Prop := ∀ (n : Nat) writes, db.sessions[n]? ≠ some (.active writes)

/-- Every document row is one the table can hold. -/
def StoredRows (rows : ProjectionRows) : Prop :=
  ∀ key row, rows (.document key) = some row →
    (rowToDocument row).storable = true ∧ row.key = key

theorem OnlyOpen.free {tx : Nat} {db : ProjectionDb} (only : OnlyOpen tx db) (target : Target) :
    db.locked tx target = false := by
  refine List.any_eq_false.mpr fun entry mem => ?_
  obtain ⟨session, n⟩ := entry
  have found := List.mk_mem_zipIdx_iff_getElem?.mp mem
  simp only [Bool.and_eq_true, decide_eq_true_eq, not_and, Bool.not_eq_true]
  intro other
  cases session with
  | active writes => exact absurd found (only n other writes)
  | committed => rfl
  | rolledBack => rfl

theorem OnlyOpen.set {tx : Nat} {db : ProjectionDb} (only : OnlyOpen tx db) (rows : ProjectionRows)
    (session : Session Target Target.Stored) :
    OnlyOpen tx ⟨rows, db.sessions.set tx session⟩ := by
  intro n other writes
  simp only [List.getElem?_set_ne (Ne.symm other)]
  exact only n other writes

/-- Session `tx`, the only one open, reads rows the table can hold. -/
structure Serving (tx : Nat) (db : ProjectionDb) : Prop where
  only : OnlyOpen tx db
  reads : ∃ writes, db.writesOf tx = some writes ∧ StoredRows (db.rows.overlay writes)

theorem writesOf_write {db : ProjectionDb} {tx : Nat} {writes : List (Written Target Target.Stored)}
    (open_ : db.writesOf tx = some writes) (written : Written Target Target.Stored) :
    (db.write tx writes written).writesOf tx = some (writes ++ [written]) := by
  have bound := (List.getElem?_eq_some_iff.mp (Database.active_of_writesOf open_)).1
  simp [Database.writesOf, Database.write, List.getElem?_set_self bound]

end ProjectionDb

/-- A storable statement of the only open session is served. -/
theorem Statement.served (statement : Statement) {db : ProjectionDb}
    (only : ProjectionDb.OnlyOpen statement.tx db) {writes : List (Written Target Target.Stored)}
    (open_ : db.writesOf statement.tx = some writes) (storable : statement.storable = true) :
    statement.answer db = .ok () ∧
    ((statement.effect (db.rows.overlay writes) = none ∧ statement.after db = db) ∨
      ∃ written, statement.effect (db.rows.overlay writes) = some written ∧
        statement.after db = db.write statement.tx writes written) := by
  unfold Statement.answer Statement.after
  simp only [open_, storable, if_true]
  cases statement.effect (db.rows.overlay writes) with
  | none => simp
  | some written => simp [only.free written.1]

/-- What a statement writes over storable rows is storable. -/
def Statement.Stores (statement : Statement) : Prop :=
  ∀ rows written, ProjectionDb.StoredRows rows → statement.effect rows = some written →
    ProjectionDb.StoredRows (rows.put written)

theorem Statement.Stores.serving {db : ProjectionDb} {statement : Statement}
    (stores : statement.Stores) (serving : ProjectionDb.Serving statement.tx db)
    (storable : statement.storable = true) :
    statement.answer db = .ok () ∧ ProjectionDb.Serving statement.tx (statement.after db) := by
  obtain ⟨writes, open_, reads⟩ := serving.reads
  obtain ⟨answered, ⟨-, same⟩ | ⟨written, effect, after⟩⟩ :=
    statement.served serving.only open_ storable
  · exact ⟨answered, by rwa [same]⟩
  · refine ⟨answered, ?_⟩
    rw [after]
    refine ⟨serving.only.set _ _, writes ++ [written], ProjectionDb.writesOf_write open_ written, ?_⟩
    rw [Rows.overlay_snoc]
    exact stores _ written reads effect

theorem bindRow_storable {jsonb : Jsonb} {state : DocumentState} (storable : state.storable = true)
    (createdAt : Timestamp) :
    (rowToDocument { bindRow jsonb state with createdAt := createdAt }).storable = true := by
  obtain ⟨content, title, tags, description, metadata⟩ := DocumentState.storable_iff.mp storable
  have same : jsonb.readBack (tagsToValue state.tags) = tagsToValue state.tags :=
    jsonb.strings state.tags
  rw [DocumentState.storable_iff]
  simp only [rowToDocument, bindRow, same, tagsFromValue_tagsToValue, Option.getD_some]
  refine ⟨?_, title, tags, description, jsonb.stored _ metadata⟩
  simpa only [DocumentState.contentStorable, DocState.parse_asStr, IndexState.parse_asStr,
    Option.getD_some] using content

theorem Statement.upsert_stores (jsonb : Jsonb) (tx : Nat) {state : DocumentState}
    (storable : state.storable = true) : (Statement.upsert jsonb tx state).Stores := by
  have kept : ∀ (rows : ProjectionRows) createdAt, ProjectionDb.StoredRows rows →
      ProjectionDb.StoredRows (rows.put
        ⟨.document state.streamKey, { bindRow jsonb state with createdAt := createdAt }⟩) := by
    intro rows createdAt stored key row found
    by_cases same : key = state.streamKey
    · subst same
      rw [Rows.put_self] at found
      cases found
      exact ⟨bindRow_storable storable createdAt, rfl⟩
    · rw [Rows.put_of_ne _ _ (by simpa using same)] at found
      exact stored key row found
  intro rows written stored effect
  simp only [Statement.upsert] at effect
  split at effect
  · cases effect
    exact kept rows state.createdAt stored
  · split at effect
    · cases effect
      exact kept rows _ stored
    · cases effect

/-- A write to another table leaves the document rows. -/
theorem storedRows_put {rows : ProjectionRows} (stored : ProjectionDb.StoredRows rows)
    {target : Target} (value : target.Stored) (other : ∀ key, target ≠ .document key) :
    ProjectionDb.StoredRows (rows.put ⟨target, value⟩) := by
  intro key row found
  rw [Rows.put_of_ne _ _ (other key).symm] at found
  exact stored key row found

theorem Statement.recordFailure_stores (tx : Nat) (name : String) (streamSeq : Int)
    (subject : String) (payload : Json) (error : String) :
    (Statement.recordFailure tx name streamSeq subject payload error).Stores := by
  intro rows written stored effect
  simp only [Statement.recordFailure] at effect
  split at effect
  · cases effect
    exact storedRows_put stored _ fun _ => Target.noConfusion
  · cases effect

/-! ## Batches run alone -/

theorem faulty_snoc {trace : Trace ProjectionPorts} {op : ProjectionCall} {answer : op.Ans} :
    Faulty (trace ++ [⟨op, answer⟩]) ↔ Faulty trace ∨ op.failed answer = true := by
  constructor
  · rintro ⟨op', answer', mem, failed⟩
    rcases List.mem_append.mp mem with old | new
    · exact .inl ⟨op', answer', old, failed⟩
    · cases List.mem_singleton.mp new
      exact .inr failed
  · rintro (⟨op', answer', mem, failed⟩ | failed)
    · exact ⟨op', answer', List.mem_append_left _ mem, failed⟩
    · exact .of_failed failed

namespace ProjectionDb

variable {codec : Codec} {crc32 : String → Nat} {digest : String → String} {jsonb : Jsonb}
  {log : EventLog codec crc32} {tx : Nat} {loop : ProjectionLoop}

/-- The step lemma: a storable statement of the only open session is served. -/
theorem Serving.step {db : ProjectionDb} (serving : Serving tx db) {op : ProjectionCall}
    (within : op.Within tx) (storable : op.storable = true) (trace : Trace ProjectionPorts) :
    storedLoads trace op (answer jsonb log db op) ∧ op.failed (answer jsonb log db op) = false ∧
      Serving tx (after jsonb db op) := by
  cases op with
  | loadDocument session tenant documentId =>
      cases within
      obtain ⟨writes, open_, reads⟩ := serving.reads
      simp only [answer, open_]
      refine ⟨?_, rfl, serving⟩
      cases found : db.rows.overlay writes (.document (tenant, documentId)) with
      | none => trivial
      | some row => exact reads _ row found
  | recordFailure session name streamSeq subject payload error =>
      cases within
      obtain ⟨answered, later⟩ :=
        (Statement.recordFailure_stores tx name streamSeq subject payload error).serving serving
          storable
      exact ⟨trivial, by simp only [answer, answered]; rfl, later⟩
  | upsertDocument session state =>
      cases within
      obtain ⟨answered, later⟩ :=
        (Statement.upsert_stores jsonb tx storable).serving serving storable
      exact ⟨trivial, by simp only [answer, answered]; rfl, later⟩
  | _ => cases within

/-- A part of a batch that binds storable values gets through. -/
theorem Serving.exec (jsonb : Jsonb) (log : EventLog codec crc32) {α : Type} {good : α → Prop}
    {p : Program ProjectionPorts (Except AdapterError α)} {db : ProjectionDb}
    (serving : Serving tx db)
    (along : Along storedLoads (fun _ op => op.Within tx ∧ op.storable = true) (EndsWell good) []
      p) :
    ∃ db' value, p.exec (answer jsonb log) (after jsonb) db = (db', .ok value) ∧ good value ∧
      Serving tx db' := by
  have unfaulted : ¬ Faulty [] := fun ⟨_, _, mem, _⟩ => by cases mem
  obtain ⟨reached, ⟨later, sound⟩, ends⟩ :=
    along.exec (J := fun trace db => Serving tx db ∧ ¬ Faulty trace) (answer jsonb log)
      (after jsonb) ⟨serving, unfaulted⟩ (by
        rintro trace db op ⟨serving, sound⟩ ⟨within, storable⟩
        obtain ⟨loads, served, later⟩ := serving.step within storable trace
        refine ⟨loads, later, fun faulty => ?_⟩
        rcases faulty_snoc.mp faulty with earlier | failed
        · exact sound earlier
        · rw [served] at failed
          cases failed)
  generalize p.exec (answer jsonb log) (after jsonb) db = ended at later ends ⊢
  obtain ⟨db', result⟩ := ended
  cases result with
  | error error => exact absurd ends sound
  | ok value => exact ⟨db', value, rfl, ends, later⟩

theorem exec_query {α : Type} (db : ProjectionDb) (op : ProjectionCall)
    (next : op.Ans → Program ProjectionPorts α) :
    (query op >>= next).exec (answer jsonb log) (after jsonb) db =
      (next (answer jsonb log db op)).exec (answer jsonb log) (after jsonb) (after jsonb db op) :=
  rfl

theorem Quiet.begin {db : ProjectionDb} (quiet : Quiet db) (stored : StoredRows db.rows) :
    Serving db.sessions.length db.begin := by
  refine ⟨fun n other writes => ?_, [], ?_, stored⟩
  · simp only [Database.begin]
    rcases Nat.lt_or_gt_of_ne other with lower | higher
    · rw [List.getElem?_append_left lower]
      exact quiet n writes
    · have beyond : (db.sessions ++ [Session.active []]).length ≤ n := by
        rw [List.length_append, List.length_singleton]
        omega
      rw [List.getElem?_eq_none beyond]
      intro isActive
      cases isActive
  · simp [Database.writesOf, Database.begin]

/-- A batch whose rows are written is committed with its checkpoint. -/
theorem Serving.finish (jsonb : Jsonb) (log : EventLog codec crc32) {db : ProjectionDb}
    (serving : Serving tx db)
    (named : textStorable loop.name = true) (last : Nat) :
    let ended := (ProjectionLoop.finishBatch loop tx last).exec (answer jsonb log) (after jsonb) db
    ended.2 = .ok () ∧ Quiet ended.1 ∧ StoredRows ended.1.rows ∧
      ended.1.rows (.checkpoint loop.name) = some (asI64 last) := by
  obtain ⟨writes, open_, reads⟩ := serving.reads
  let checkpoint : Written Target Target.Stored := ⟨.checkpoint loop.name, asI64 last⟩
  obtain ⟨first, ⟨nothing, -⟩ | ⟨written, effect, second⟩⟩ :=
    (Statement.checkpoint tx loop.name (asI64 last)).served serving.only open_ named
  · cases nothing
  obtain rfl : checkpoint = written := Option.some.inj effect
  have later := writesOf_write open_ checkpoint
  have whole : (ProjectionLoop.finishBatch loop tx last).exec (answer jsonb log) (after jsonb) db =
      ((db.write tx writes checkpoint).commit tx (writes ++ [checkpoint]), .ok ()) := by
    refine (exec_query _ _ _).trans ?_
    simp only [answer, after, first, second]
    refine (exec_query _ _ _).trans ?_
    simp only [answer, after, Statement.checkpoint, later]
    rfl
  rw [whole]
  refine ⟨rfl, fun n other => ?_, ?_, ?_⟩
  · by_cases same : n = tx
    · subst same
      simp [Database.commit, List.getElem?_set]
    · exact (serving.only.set db.rows _).set _ _ n same other
  · rw [Database.commit, Rows.overlay_snoc]
    exact storedRows_put reads _ fun _ => Target.noConfusion
  · simp only [Database.commit, Rows.overlay_snoc]
    exact Rows.put_self _ _ _

/-- A batch run alone: the database after it, and how it ended. -/
def applied (jsonb : Jsonb) (log : EventLog codec crc32) (loop : ProjectionLoop)
    (db : ProjectionDb) (batch : List Message) : ProjectionDb × Except AdapterError Unit :=
  (ProjectionLoop.applyBatch codec loop batch).exec (answer jsonb log) (after jsonb) db

theorem applied_commits (jsonb : Jsonb) (log : EventLog codec crc32) (prints : codec.Prints)
    (hex : ∀ text, textStorable (digest text) = true)
    (named : textStorable loop.name = true) {db : ProjectionDb} (quiet : Quiet db)
    (stored : StoredRows db.rows) (batch : List Message)
    (plain : ∀ message ∈ batch, CarriesPlain codec crc32 digest message) :
    (applied jsonb log loop db batch).2 = .ok () ∧ Quiet (applied jsonb log loop db batch).1 ∧
      StoredRows (applied jsonb log loop db batch).1.rows ∧
      (applied jsonb log loop db batch).1.rows (.checkpoint loop.name) =
        some (asI64 (ProjectionLoop.lastSeq batch)) := by
  have begun := quiet.begin stored
  have issued : ∀ (_ : Trace ProjectionPorts) (op : ProjectionCall),
      op.Within db.sessions.length → op.storable = true →
      op.Within db.sessions.length ∧ op.storable = true := fun _ _ within storable =>
    ⟨within, storable⟩
  obtain ⟨_, folded, foldedOk, storable, written⟩ := begun.exec jsonb log
    (along_foldBatch prints hex named issued batch plain foldedStorable_empty [])
  obtain ⟨db', _, upsertedOk, -, later⟩ := written.exec jsonb log
    (along_upsertAll issued (loop.intoValues folded.values) storable.values [])
  have whole : applied jsonb log loop db batch =
      (ProjectionLoop.finishBatch loop db.sessions.length (ProjectionLoop.lastSeq batch)).exec
        (answer jsonb log) (after jsonb) db' := by
    unfold applied ProjectionLoop.applyBatch
    refine (exec_query _ _ _).trans ?_
    simp only [answer, after]
    rw [Program.exec_bind, foldedOk]
    simp only
    rw [Program.exec_bind, upsertedOk]
  rw [whole]
  exact later.finish jsonb log named _

/-- The batches before one, run in order. -/
def appliedAll (jsonb : Jsonb) (log : EventLog codec crc32) (loop : ProjectionLoop)
    (db : ProjectionDb) (batches : List (List Message)) : ProjectionDb :=
  batches.foldl (fun db batch => (applied jsonb log loop db batch).1) db

theorem appliedAll_keeps (jsonb : Jsonb) (log : EventLog codec crc32) (prints : codec.Prints)
    (hex : ∀ text, textStorable (digest text) = true)
    (named : textStorable loop.name = true) {db : ProjectionDb} (quiet : Quiet db)
    (stored : StoredRows db.rows) (batches : List (List Message))
    (plain : ∀ batch ∈ batches, ∀ message ∈ batch, CarriesPlain codec crc32 digest message) :
    Quiet (appliedAll jsonb log loop db batches) ∧
      StoredRows (appliedAll jsonb log loop db batches).rows := by
  induction batches generalizing db with
  | nil => exact ⟨quiet, stored⟩
  | cons batch rest ih =>
      obtain ⟨-, quiet', stored', -⟩ := applied_commits jsonb log prints hex named
        quiet stored batch (plain batch (List.mem_cons_self ..))
      exact ih quiet' stored' fun other mem => plain other (List.mem_cons_of_mem _ mem)

end ProjectionDb

/-! ## The projection and accepted uploads -/

section Unpoisoned

variable {codec : Codec} {crc32 : String → Nat} {digest : String → String}

theorem projects_storable_iff (upload : AcceptedUpload) {event : DocumentEvent}
    (built : Builds digest upload.command event) {prior : Option DocumentState}
    (row : RowOf event.streamKey prior) (present : prior = none → upload.command.mode = .create)
    {payload : List UInt8} (decoded : decodeEvent codec payload = .event event) (seq : Nat) :
    (∃ state, projectEvent codec prior payload seq = .upsert state ∧ state.storable = true) ↔
      upload.plain = true := by
  unfold projectEvent
  simp only [decoded]
  rcases apply_built built row seq with ⟨replaces, absent, -⟩ | ⟨state, folded, -, storable⟩
  · rw [present absent] at replaces
    cases replaces
  · simp only [folded, ProjectionOutcome.upsert.injEq, exists_eq_left', storable]

/-- The event of an accepted upload projects, over any row of its document, to
values that Postgres takes exactly when its request had no NUL in its filename,
content type, title, description or metadata.  A log of such uploads cannot
poison the projection: every batch of it binds only storable values and fails
only if a statement does, and on a database that serves what it can every batch
of every cut commits its checkpoint. -/
theorem accepted_upload_projects_iff (prints : codec.Prints)
    (hex : ∀ text, textStorable (digest text) = true) :
    (∀ (upload : AcceptedUpload) event prior payload seq, Builds digest upload.command event →
      decodeEvent codec payload = .event event → RowOf event.streamKey prior →
      (prior = none → upload.command.mode = .create) →
      ((∃ state, projectEvent codec prior payload seq = .upsert state ∧ state.storable = true) ↔
        upload.plain = true)) ∧
    ∀ (log : EventLog codec crc32) (loop : ProjectionLoop), textStorable loop.name = true →
      (∀ message ∈ log.messages, CarriesPlain codec crc32 digest message) →
      (∀ batch ⊆ log.messages, ∀ trace rest,
        (ProjectionLoop.applyBatch codec loop batch).Resumes trace rest →
        Facts storedLoads trace →
        (∀ op, rest.issues = some op → op.storable = true) ∧
        ∀ error, rest.returned = some (.error error) → Faulty trace) ∧
      ∀ (jsonb : Jsonb) (db : ProjectionDb), ProjectionDb.Quiet db →
        ProjectionDb.StoredRows db.rows → ∀ batches : List (List Message),
        (∀ batch ∈ batches, batch ⊆ log.messages) → ∀ batch ⊆ log.messages,
        let ended := ProjectionDb.applied jsonb log loop
          (ProjectionDb.appliedAll jsonb log loop db batches) batch
        ended.2 = .ok () ∧ ended.1.rows (.checkpoint loop.name) =
          some (asI64 (ProjectionLoop.lastSeq batch)) := by
  refine ⟨fun upload event prior payload seq built decoded row present =>
    projects_storable_iff upload built row present decoded seq, fun log loop named plain => ⟨?_, ?_⟩⟩
  · intro batch within trace rest reached facts
    have along := (along_applyBatch prints hex named batch fun message mem =>
      plain message (within mem)).resumes reached facts
    refine ⟨fun op stands => ?_, fun error done => ?_⟩
    · obtain ⟨next, rfl⟩ := Program.eq_call_of_issues stands
      exact along.1
    · obtain rfl := Program.eq_ret_of_returned done
      exact along
  · intro jsonb db quiet stored batches within batch here
    obtain ⟨quiet', stored'⟩ := ProjectionDb.appliedAll_keeps jsonb log prints hex
      named quiet stored batches fun other mem message inside => plain message (within other mem inside)
    obtain ⟨ok, -, -, checkpoint⟩ := ProjectionDb.applied_commits jsonb log prints
      hex named quiet' stored' batch fun message mem => plain message (here mem)
    exact ⟨ok, checkpoint⟩

end Unpoisoned

/-! ## One upload, with and without a NUL in its title -/

namespace Poison.Sample

open DocumentService

theorem safeTenant : isSafeSegment "acme" = true := by decide +kernel

theorem safeUser : isSafeSegment "ann" = true := by decide +kernel

def principal : Principal := ⟨"acme", "ann", safeTenant, safeUser⟩

def policy : UploadPolicy := ⟨1073741824, 16777216⟩

def preflightRequest : PreflightRequest := ⟨none, "a.txt", 4, some "text/plain"⟩

def completeRequest (title : String) : CompleteRequest := ⟨none, .supersede, { title := some title }⟩

def record : UploadState :=
  uploadRecord "acme" "ann" "u1" "d1" .create "m1" "a.txt" "text/plain" 4 16777216 1 1767225600000000

/-- The ports of the API for one upload; ids are handed out in order. -/
def answer (n : Nat) : (op : ServiceCall) → op.Ans
  | .ulid => if n = 0 then "d1" else "u1"
  | .beginMultipart _ _ => .ok "m1"
  | .createUpload _ => .ok ()
  | .deleteUpload _ _ _ => .ok ()
  | .getDocument _ _ => .ok none
  | .publishUploadCompleted _ => .ok ()
  | .port (.kvEntry _) => .ok (some (.put record 1))
  | .port (.kvUpdate _ _ _) => .ok 2
  | .port (.last _ _) => .ok none
  | .port .now => 1767225600000000
  | .port op => op.outage "offline"

def after (calls : Nat) (_ : ServiceCall) : Nat := calls + 1

/-- The calls of a run against these ports. -/
def calls {α : Type} (p : Program ServicePorts α) : Trace ServicePorts :=
  p.transcript (S := ServicePorts) answer after 0

def returns {α : Type} (p : Program ServicePorts α) : α :=
  (p.exec (S := ServicePorts) answer after 0).2

theorem resumes_calls {α : Type} (p : Program ServicePorts α) :
    p.Resumes (calls p) (.ret (returns p)) :=
  Program.resumes_transcript (S := ServicePorts) answer after p 0

theorem answered {α : Type} {p : Program ServicePorts α} {op : ServiceCall} {a : op.Ans}
    (mem : (⟨op, a⟩ : Call ServicePorts) ∈ calls p) : ∃ n, a = answer n op :=
  Program.mem_transcript (S := ServicePorts) answer after mem

def preflighting : Program ServicePorts (Except DocumentError PreflightResponse) :=
  preflight policy "acme" "ann" preflightRequest

def completion (title : String) : Program ServicePorts (Except DocumentError Unit) :=
  complete "acme" "ann" "u1" (completeRequest title)

def command (title : String) : UploadCompleted :=
  uploadCompleted "acme" "ann" "u1" record (completeRequest title)

theorem generated_answer (before : Trace ServicePorts) (n : Nat) (op : ServiceCall) :
    generated before op (answer n op) := by
  cases op with
  | ulid =>
      have document : isSafeSegment "d1" = true := by decide +kernel
      have upload : isSafeSegment "u1" = true := by decide +kernel
      simp only [generated, answer]
      split
      · exact document
      · exact upload
  | port op => cases op <;> trivial
  | _ => trivial

theorem publishes {title : String}
    (valid : validateMetadataPatch (completeRequest title).patch = .ok ()) :
    calls (completion title) = [
      ⟨.port (.kvEntry "acme/ann/u1"), .ok (some (.put record 1))⟩,
      ⟨.port .now, 1767225600000000⟩,
      ⟨.publishUploadCompleted (command title), .ok ()⟩,
      ⟨.port .now, 1767225600000000⟩,
      ⟨.port (.kvEntry "acme/ann/u1"), .ok (some (.put record 1))⟩,
      ⟨.port (.kvUpdate "acme/ann/u1" (record.withStatus .scanning 1767225600000000) 1), .ok 2⟩] := by
  unfold completion complete
  rw [valid]
  rfl

/-- Titles of three characters pass validation, whatever they are. -/
def upload (title : String)
    (valid : validateMetadataPatch (completeRequest title).patch = .ok ()) : AcceptedUpload where
  principal := principal
  policy := policy
  preflightRequest := preflightRequest
  completeRequest := completeRequest title
  created := record
  command := command title
  opened := calls preflighting
  response := ⟨"u1", "d1", Keys.objectKey "acme" "u1", 16777216, 1⟩
  preflighted := resumes_calls preflighting
  identifiers := by
    intro before op a later split
    have mem : (⟨op, a⟩ : Call ServicePorts) ∈ calls preflighting := by
      rw [split]
      simp
    obtain ⟨n, rfl⟩ := answered mem
    exact generated_answer before n op
  creates := List.mem_of_getElem? (i := 4) rfl
  completing := calls (completion title)
  rest := .ret (returns (completion title))
  completed := resumes_calls (completion title)
  publishes := by
    rw [publishes valid]
    simp
  kept := by
    rintro context ⟨key, revision, mem⟩
    obtain ⟨calls, same⟩ := answered mem
    cases same
    rfl

/-- SHA-256 of the one upload's create, in hexadecimal. -/
def digest (_ : String) : String := "356c4a817469258e4a459350103f9351"

def sha256Hex : String := "9f86d081884c7d659a2feaa0c55ad015a3bf4f1b2b0b822cd15d6c15b0f00a08"

def event (title : String) : DocumentEvent :=
  UploadFinisher.createdEvent digest (command title) sha256Hex 1767225600000000

/-- The published text; the title is given as JSON escapes it. -/
def text (escaped : String) : String :=
  "\x7b\"v\":1,\"event_id\":\"356c4a817469258e4a459350103f9351\",\"tenant_id\":\"acme\"," ++
  "\"document_id\":\"d1\",\"actor\":\x7b\"kind\":\"user\",\"user_id\":\"ann\"\x7d," ++
  "\"version\":1,\"ts\":\"2026-01-01T00:00:00Z\",\"payload\":\x7b" ++
  "\"type\":\"document_created\",\"blob_ref\":\"u1\",\"filename\":\"a.txt\"," ++
  "\"content_type\":\"text/plain\",\"byte_size\":4,\"checksum\":\"sha256:" ++
  "9f86d081884c7d659a2feaa0c55ad015a3bf4f1b2b0b822cd15d6c15b0f00a08\",\"patch\":\x7b" ++
  "\"title\":\"" ++ escaped ++ "\"\x7d\x7d\x7d"

def json (title : String) : Json :=
  .object [("actor", .object [("kind", .string "user"), ("user_id", .string "ann")]),
    ("document_id", .string "d1"), ("event_id", .string "356c4a817469258e4a459350103f9351"),
    ("payload", .object [("blob_ref", .string "u1"), ("byte_size", .number "4"),
      ("checksum", .string
        "sha256:9f86d081884c7d659a2feaa0c55ad015a3bf4f1b2b0b822cd15d6c15b0f00a08"),
      ("content_type", .string "text/plain"), ("filename", .string "a.txt"),
      ("patch", .object [("title", .string title)]), ("type", .string "document_created")]),
    ("tenant_id", .string "acme"), ("ts", .string "2026-01-01T00:00:00Z"), ("v", .number "1"),
    ("version", .number "1")]

def payload (escaped : String) : List UInt8 := (text escaped).toUTF8.data.toList

/-- The codec on the one event. -/
def codec (title escaped : String) : Codec where
  fromSlice bytes :=
    if bytes = payload escaped then .ok (json title) else .error "expected value at line 1 column 1"
  fromValue _ := .ok (event title)
  toValue _ := some (json title)

/-- CRC-32 of the one document. -/
def crc32 (_ : String) : Nat := 295091302

theorem decoded (title escaped : String) :
    decodeEvent (codec title escaped) (payload escaped) = .event (event title) := by
  simp [decodeEvent, codec]

theorem builds (title : String) : Builds digest (command title) (event title) :=
  .created rfl (by decide +kernel)

def message (escaped : String) : Message := ⟨1, eventSubject crc32 "acme" "d1", payload escaped⟩

def log (title escaped : String) : EventLog (codec title escaped) crc32 where
  messages := [message escaped]
  increasing := by simp
  positive := by simp [message]
  small := by simp [message]
  addressed m mem := by
    obtain rfl := List.mem_singleton.mp mem
    refine ⟨"acme", "d1", by decide, by decide, rfl, fun other carries => ?_⟩
    cases (decoded title escaped).symm.trans carries
    rfl
  bounded m mem other carries := by
    obtain rfl := List.mem_singleton.mp mem
    cases (decoded title escaped).symm.trans carries
    exact ⟨by simp [event, UploadFinisher.createdEvent],
      by simp [event, UploadFinisher.createdEvent, command, uploadCompleted, record, uploadRecord]⟩

def jsonb : Jsonb := .verbatim

def loop : ProjectionLoop := ⟨"document-pg", 256, fun states => states, fun _ => .refl _⟩

theorem valid_abc : validateMetadataPatch (completeRequest "abc").patch = .ok () := by
  decide +kernel

theorem valid_nul : validateMetadataPatch (completeRequest "a\x00c").patch = .ok () := by
  decide +kernel

end Poison.Sample

section Unpoisoned

open Poison.Sample

/-- A request whose title has a NUL is accepted; its event's row cannot be stored,
the batch that carries it fails, and the checkpoint stays where it was. -/
theorem nul_title_poisons :
    Builds digest (upload "a\x00c" valid_nul).command (event "a\x00c") ∧
    (upload "a\x00c" valid_nul).command.mode = .create ∧
    decodeEvent (codec "a\x00c" "a\\u0000c") (payload "a\\u0000c") = .event (event "a\x00c") ∧
    ¬ (∃ state, projectEvent (codec "a\x00c" "a\\u0000c") none (payload "a\\u0000c") 1 =
      .upsert state ∧ state.storable = true) ∧
    (ProjectionDb.applied jsonb (log "a\x00c" "a\\u0000c") loop Database.empty
      [message "a\\u0000c"]).2 = .error (.database "unsupported Unicode escape sequence") ∧
    (ProjectionDb.applied jsonb (log "a\x00c" "a\\u0000c") loop Database.empty
      [message "a\\u0000c"]).1.rows (.checkpoint "document-pg") = none := by
  have built := builds "a\x00c"
  refine ⟨built, rfl, decoded _ _, ?_, by decide +kernel, by decide +kernel⟩
  rw [projects_storable_iff (upload "a\x00c" valid_nul) built (by rintro _ ⟨⟩) (fun _ => rfl)
    (decoded _ _)]
  decide +kernel

/-- The same request with a plain title is projected, and its batch commits. -/
theorem accepted_upload_projects_iff_of_title :
    (∃ state, projectEvent (codec "abc" "abc") none (payload "abc") 1 = .upsert state ∧
      state.storable = true) ∧
    (ProjectionDb.applied jsonb (log "abc" "abc") loop Database.empty [message "abc"]).2 = .ok () ∧
    (ProjectionDb.applied jsonb (log "abc" "abc") loop Database.empty
      [message "abc"]).1.rows (.checkpoint loop.name) = some (asI64 1) := by
  have prints : (codec "abc" "abc").Prints := by
    rintro _ _ ⟨⟩ -
    decide +kernel
  have hex : textStorable "356c4a817469258e4a459350103f9351" = true := by decide +kernel
  have plain : (upload "abc" valid_abc).plain = true := by decide +kernel
  have carries : ∀ m ∈ (log "abc" "abc").messages,
      CarriesPlain (codec "abc" "abc") crc32 digest m := by
    intro m mem
    obtain rfl := List.mem_singleton.mp mem
    exact ⟨upload "abc" valid_abc, event "abc", plain, builds "abc", decoded _ _, rfl⟩
  obtain ⟨projects, batches⟩ := @accepted_upload_projects_iff (codec "abc" "abc") crc32 digest prints
    (fun _ => hex)
  refine ⟨?_, ?_⟩
  · exact (projects (upload "abc" valid_abc) (event "abc") none (payload "abc") 1 (builds "abc")
      (decoded _ _) (by rintro _ ⟨⟩) (fun _ => rfl)).mpr plain
  · obtain ⟨-, commits⟩ := batches (log "abc" "abc") loop (by decide +kernel) carries
    have quiet : ProjectionDb.Quiet (Database.empty : ProjectionDb) := by
      intro n writes found
      cases found
    have stored : ProjectionDb.StoredRows (Database.empty : ProjectionDb).rows := by
      rintro key row ⟨⟩
    obtain ⟨ok, checkpoint⟩ := commits jsonb Database.empty quiet stored [] (by simp)
      [message "abc"] (fun _ mem => mem)
    have last : ProjectionLoop.lastSeq [message "abc"] = 1 := rfl
    rw [last] at checkpoint
    simp only [ProjectionDb.appliedAll, List.foldl_nil] at ok checkpoint
    exact ⟨ok, checkpoint⟩

end Unpoisoned

end Delphi.Document
