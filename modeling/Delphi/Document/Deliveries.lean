/-
# Delphi.Document.Deliveries -- runs of upload deliveries

Any number of deliveries of any set of upload commands, interleaved port call by
port call over one event log and one bucket of upload records, with other
writers on the same documents, records created, expiring and marked by the API,
and a dedupe window that forgets.  The blob store, the scanner, the validator
and the clock may answer anything; the log and the bucket may fail any call and
lose any acknowledgement.

`Site` is what preflight and the event-id digest promise of the commands.  The
base invariant is `Sound`; with the facts a trace keeps (`Remembers`) it gives
`named_of_accepts`: however a delivery came to accept its upload, the log of the
upload's document names it.
-/
import Delphi.Theory.Pool
import Delphi.Document.LogCalls
import Delphi.Document.LogShape
import Delphi.Document.UploadRecord
import Delphi.Document.WorkerPaths

namespace Delphi.Document

open Delphi.Theory
open UploadFinisher

set_option autoImplicit false

/-! ## The world of a run -/

/-- What the deliveries share. -/
structure World where
  log : EventStoreState
  records : UploadBucket

/-- One delivery of a work item. -/
structure Delivery where
  command : UploadCompleted
  finalDelivery : Bool

namespace World

def empty : World := ⟨.empty, .empty⟩

/-- Both stores serve a call; the ones it is not for stand still. -/
def serves (w : World) (op : PortCall) (answer : op.Ans) (w' : World) : Prop :=
  w.log.serves False op answer w'.log ∧ UploadBucket.serves w.records op answer w'.records

/-- What else happens: the dedupe window of an id elapses, another writer
appends, preflight creates a record, the API marks one as scanning, and records
expire or are purged. -/
inductive Disturbed (others : EventStoreState → DocumentEvent → Prop) (w : World) :
    World → Prop where
  | forgot (key : StreamKey × String) : Disturbed others w ⟨w.log.forget key, w.records⟩
  | written (event : DocumentEvent) (allowed : others w.log event) :
      Disturbed others w ⟨w.log.push event, w.records⟩
  | preflight {records : UploadBucket} (state : UploadState) (starts : state.status = .uploading)
      (created : w.records.create state.ownKey state = some records) :
      Disturbed others w ⟨w.log, records⟩
  | marked {old : UploadState} (now : Timestamp) (found : w.records.live old.ownKey = some old)
      (open_ : old.status.isTerminal = false) :
      Disturbed others w ⟨w.log, w.records.put old.ownKey (old.withStatus .scanning now)⟩
  | expired (key : String) : Disturbed others w ⟨w.log, w.records.expire key⟩
  | purged (key : String) : Disturbed others w ⟨w.log, w.records.purge key⟩

end World

/-- Deliveries of the published commands beside other writers. -/
def deliveries (digest : String → String) (publishes : UploadCompleted → Prop)
    (others : EventStoreState → DocumentEvent → Prop) :
    System Ports World Delivery FinishOutcome where
  main delivery := finish digest delivery.command delivery.finalDelivery
  admits _ delivery := publishes delivery.command
  serves _ op w answer w' := w.serves op answer w'
  environment := World.Disturbed others

/-! ## A world without faults -/

namespace World

/-- Truthful answers over stores that hold one object, of this size and digest. -/
def answer (size : Nat) (sha256Hex : String) (w : World) : (op : PortCall) → op.Ans
  | .append event expect => (w.log.append event expect).1
  | .last tenant documentId => .ok (w.log.last tenant documentId)
  | .readStream tenant documentId => .ok (w.log.readStream tenant documentId)
  | .listParts _ _ => .ok none
  | .completeMultipart _ _ _ => .ok ()
  | .abortMultipart _ _ => .ok ()
  | .head _ => .ok (some ⟨size, none, 0⟩)
  | .readPrefix _ _ => .ok []
  | .openRead _ => .ok []
  | .delete _ => .ok ()
  | .validate _ _ _ => .ok .ok
  | .scan _ => .ok ⟨.clean, sha256Hex, size⟩
  | .kvEntry key => UploadBucket.answer w.records (.kvEntry key)
  | .kvUpdate key state revision => UploadBucket.answer w.records (.kvUpdate key state revision)
  | .now => 0

def after (w : World) : PortCall → World
  | .append event expect => ⟨(w.log.append event expect).2, w.records⟩
  | .kvUpdate key state revision =>
      ⟨w.log, UploadBucket.after w.records (.kvUpdate key state revision)⟩
  | _ => w

theorem serves_answer (size : Nat) (sha256Hex : String) (w : World) (op : PortCall) :
    w.serves op (w.answer size sha256Hex op) (w.after op) := by
  cases op with
  | append event expect => exact ⟨.answered, rfl⟩
  | last tenant documentId => exact ⟨⟨rfl, .inl rfl⟩, rfl⟩
  | readStream tenant documentId => exact ⟨⟨rfl, .inl rfl⟩, rfl⟩
  | kvEntry key => exact ⟨rfl, UploadBucket.serves_answer w.records (.kvEntry key)⟩
  | kvUpdate key state revision =>
      exact ⟨rfl, UploadBucket.serves_answer w.records (.kvUpdate key state revision)⟩
  | _ => exact ⟨rfl, rfl⟩

end World

/-- Answer every call truthfully. -/
def truthfully {digest : String → String} {publishes : UploadCompleted → Prop}
    {others : EventStoreState → DocumentEvent → Prop} (size : Nat) (sha256Hex : String) :
    (deliveries digest publishes others).Reply where
  answer op w := w.answer size sha256Hex op
  after op w := w.after op
  lawful _ op w := w.serves_answer size sha256Hex op

/-- Truthful answers, but the acknowledgement of an append is lost. -/
def losingAppends {digest : String → String} {publishes : UploadCompleted → Prop}
    {others : EventStoreState → DocumentEvent → Prop} (size : Nat) (sha256Hex : String) :
    (deliveries digest publishes others).Reply where
  answer op w :=
    match op with
    | .append _ _ => .error (.unavailable "ack timed out")
    | op => w.answer size sha256Hex op
  after op w := w.after op
  lawful n op w := by
    cases op with
    | append event expect => exact ⟨.unacknowledged _ (by simp), rfl⟩
    | _ => exact w.serves_answer size sha256Hex _

abbrev DeliveryRun := Config Ports World Delivery FinishOutcome

/-! ## What is promised of the commands -/

/-- The id of the event a command's deliveries append. -/
def uploadEventId (digest : String → String) (command : UploadCompleted) : String :=
  match command.mode with
  | .create => Keys.createdEventId digest command.tenantId command.uploadId
  | .replace => Keys.blobValidatedEventId digest command.tenantId command.uploadId

/-- The commands of a deployment, and what holds of them. -/
structure Site where
  digest : String → String
  publishes : UploadCompleted → Prop
  /-- Preflight gives an upload one document and one mode. -/
  fixed : ∀ {c c' : UploadCompleted}, publishes c → publishes c' → c.tenantId = c'.tenantId →
    c.uploadId = c'.uploadId → c.documentId = c'.documentId ∧ c.mode = c'.mode
  /-- Distinct create uploads carry distinct minted documents. -/
  fresh : ∀ {c c' : UploadCompleted}, publishes c → publishes c' → c.mode = .create →
    c'.mode = .create → c.streamKey = c'.streamKey → c.uploadId = c'.uploadId
  /-- Tenants and users are safe path segments. -/
  segments : ∀ {c : UploadCompleted}, publishes c →
    '/' ∉ c.tenantId.toList ∧ '/' ∉ c.ownerUserId.toList
  /-- Event ids of distinct uploads differ. -/
  distinct : ∀ {c c' : UploadCompleted}, publishes c → publishes c' →
    uploadEventId digest c = uploadEventId digest c' →
    c.tenantId = c'.tenantId ∧ c.uploadId = c'.uploadId

namespace Site

variable (site : Site)

/-- Another writer's append: it continues a document that exists, introduces no
blob, and its id is not one of an upload's. -/
structure Others (log : EventStoreState) (event : DocumentEvent) : Prop where
  opened : log.streams event.streamKey ≠ []
  continues : Continues event.streamKey (log.streams event.streamKey) event
  noBlob : event.payload.blobRef = none
  otherId : ∀ command, site.publishes command → event.eventId ≠ uploadEventId site.digest command

def system : System Ports World Delivery FinishOutcome :=
  deliveries site.digest site.publishes site.Others

/-- An event a command's delivery may append. -/
inductive Writes (command : UploadCompleted) : DocumentEvent → Prop where
  | created (mode : command.mode = .create) (sha256Hex : String) (ts : Timestamp) :
      Writes command (createdEvent site.digest command sha256Hex ts)
  | replaced (mode : command.mode = .replace) (sha256Hex : String) (ts : Timestamp)
      (version : Nat) : Writes command (replacedEvent site.digest command sha256Hex ts version)

/-- Where an event of a stream came from. -/
inductive Origin (key : StreamKey) (event : DocumentEvent) : Prop where
  | upload {command : UploadCompleted} (published : site.publishes command)
      (addressed : command.streamKey = key) (written : site.Writes command event)
  | other (noBlob : event.payload.blobRef = none) (later : event.payload.isCreate = false)
      (otherId : ∀ command, site.publishes command →
        event.eventId ≠ uploadEventId site.digest command)

/-- Commands of one record are commands of one upload. -/
theorem same_upload {c c' : UploadCompleted} (published : site.publishes c)
    (published' : site.publishes c') (same : c.recordKey = c'.recordKey) :
    c.streamKey = c'.streamKey ∧ c.uploadId = c'.uploadId := by
  obtain ⟨tenants, -, uploads⟩ :=
    UploadState.key_injective (site.segments published) (site.segments published') same
  have documents := (site.fixed published published' tenants uploads).1
  exact ⟨Prod.ext tenants documents, uploads⟩

variable {site}

theorem Writes.names {command : UploadCompleted} {event : DocumentEvent}
    (written : site.Writes command event) : event.Names command.uploadId := by
  cases written <;> rfl

theorem Writes.streamKey {command : UploadCompleted} {event : DocumentEvent}
    (written : site.Writes command event) : event.streamKey = command.streamKey := by
  cases written <;> rfl

theorem Writes.eventId {command : UploadCompleted} {event : DocumentEvent}
    (written : site.Writes command event) :
    event.eventId = uploadEventId site.digest command := by
  cases written with
  | created mode sha256Hex ts => simp [uploadEventId, mode, createdEvent]
  | replaced mode sha256Hex ts version => simp [uploadEventId, mode, replacedEvent]

theorem Writes.of_appends {command : UploadCompleted} {trace : Trace Ports}
    {event : DocumentEvent} {expect : Expect}
    (appends : Appends site.digest command trace event expect) : site.Writes command event := by
  cases appends with
  | create mode verified => exact .created mode _ _
  | replace mode verified read unapplied folded allowed => exact .replaced mode _ _ _

/-- Only uploads name a blob. -/
theorem Origin.command_of_names {key : StreamKey} {event : DocumentEvent} {uploadId : String}
    (origin : site.Origin key event) (names : event.Names uploadId) :
    ∃ command, site.publishes command ∧ command.streamKey = key ∧
      command.uploadId = uploadId ∧ site.Writes command event := by
  cases origin with
  | @upload command published addressed written =>
      refine ⟨command, published, addressed, ?_, written⟩
      exact Option.some.inj (written.names.symm.trans names)
  | other noBlob later otherId =>
      rw [DocumentEvent.Names, noBlob] at names
      cases names

/-- An event of this id introduced this upload. -/
theorem Origin.names_of_eventId {key : StreamKey} {event : DocumentEvent}
    {command : UploadCompleted} (published : site.publishes command)
    (origin : site.Origin key event) (same : event.eventId = uploadEventId site.digest command) :
    event.Names command.uploadId := by
  cases origin with
  | @upload other published' addressed written =>
      have ids : uploadEventId site.digest other = uploadEventId site.digest command :=
        written.eventId.symm.trans same
      rw [← (site.distinct published' published ids).2]
      exact written.names
  | other noBlob later otherId => exact absurd same (otherId command published)

/-! ## The base invariant -/

end Site

/-- The log of the command's document names its upload. -/
def Named (log : EventStoreState) (command : UploadCompleted) : Prop :=
  ∃ entry ∈ log.streams command.streamKey, entry.2.Names command.uploadId

instance (log : EventStoreState) (command : UploadCompleted) : Decidable (Named log command) :=
  inferInstanceAs (Decidable (∃ entry ∈ log.streams command.streamKey, _))

theorem Named.grows {log log' : EventStoreState} {command : UploadCompleted}
    (named : Named log command) (grows : log.Grows log') : Named log' command := by
  obtain ⟨entry, mem, names⟩ := named
  exact ⟨entry, grows.mem mem, names⟩

namespace Site

variable (site : Site)

/-- An acceptance stored under a key is one of an upload the log names. -/
def Backs (log : EventStoreState) (key : String) : UploadStatus → Prop
  | .accepted _ _ => ∀ command, site.publishes command → command.recordKey = key → Named log command
  | _ => True

/-- What a read of a record tells from then on. -/
def recorded (log : EventStoreState) : (op : PortCall) → op.Ans → Prop
  | .kvEntry key, .ok (some (.put state _)) => site.Backs log key state.status
  | _, _ => True

/-- A consistent log of well-formed streams, every event of known origin. -/
structure SoundLog (log : EventStoreState) : Prop where
  consistent : log.Consistent
  origin : ∀ key, ∀ entry ∈ log.streams key, site.Origin key entry.2
  shaped : ∀ key, WellFormed key (log.streams key)

structure Sound (w : World) : Prop where
  log : site.SoundLog w.log
  kept : UploadBucket.Kept w.records
  backed : UploadBucket.Statuses (site.Backs w.log) w.records

def invariants : Invariants Ports World Delivery where
  inv := site.Sound
  input _ delivery := site.publishes delivery.command
  fact _ w _ op answer := w.log.known False op answer ∧ UploadBucket.inHand w.records op answer ∧
    site.recorded w.log op answer

variable {site}

theorem Backs.grows {log log' : EventStoreState} {key : String} {status : UploadStatus}
    (backs : site.Backs log key status) (grows : log.Grows log') : site.Backs log' key status := by
  cases status with
  | accepted version superseded =>
      exact fun command published same => (backs command published same).grows grows
  | _ => trivial

theorem recorded_grows {log log' : EventStoreState} (grows : log.Grows log') (op : PortCall)
    (answer : op.Ans) (known : site.recorded log op answer) : site.recorded log' op answer := by
  cases op with
  | kvEntry key =>
      match answer, known with
      | .ok (some (.put state revision)), known => exact Backs.grows known grows
      | .ok (some (.marker revision)), _ => trivial
      | .ok none, _ => trivial
      | .error error, _ => trivial
  | _ => trivial

/-- A stream that is not empty names the upload of every create command for it. -/
theorem SoundLog.named_of_create {log : EventStoreState} (sound : site.SoundLog log)
    {command : UploadCompleted} (published : site.publishes command)
    (mode : command.mode = .create) (nonempty : log.streams command.streamKey ≠ []) :
    Named log command := by
  obtain ⟨first, rest, split, opens, -⟩ := (sound.shaped command.streamKey).first nonempty
  have mem : first ∈ log.streams command.streamKey := by rw [split]; simp
  refine ⟨first, mem, ?_⟩
  cases sound.origin _ first mem with
  | @upload other published' addressed written =>
      have mode' : other.mode = .create := by
        generalize event : first.2 = e at written
        cases written with
        | created mode sha256Hex ts => exact mode
        | replaced mode sha256Hex ts version =>
            have create := opens.create
            rw [event] at create
            cases create
      rw [← site.fresh published' published mode' mode addressed]
      exact written.names
  | other noBlob later otherId =>
      rw [opens.create] at later
      cases later

/-- The facts a delivery keeps. -/
abbrev Remembers (site : Site) (w : World) (trace : Trace Ports) : Prop :=
  Facts (fun _ op answer => w.log.known False op answer ∧
    UploadBucket.inHand w.records op answer ∧ site.recorded w.log op answer) trace

theorem Remembers.known {w : World} {trace : Trace Ports} (facts : site.Remembers w trace)
    (op : PortCall) (answer : op.Ans) (mem : (⟨op, answer⟩ : Call Ports) ∈ trace) :
    w.log.known False op answer := by
  obtain ⟨-, known, -⟩ := facts.of_mem mem
  exact known

/-- An append that was answered as new. -/
theorem Remembers.landed {w : World} {trace : Trace Ports} (facts : site.Remembers w trace)
    (event : DocumentEvent) (expect : Expect) (appended : Appended)
    (mem : (⟨.append event expect, .ok appended⟩ : Call Ports) ∈ trace)
    (fresh : appended.duplicate = false) :
    appended.version = event.version ∧ ∃ seq, (seq, event) ∈ w.log.streams event.streamKey := by
  rcases Remembers.known facts (.append event expect) (.ok appended) mem with
    ⟨duplicate, -⟩ | ⟨-, landed⟩
  · rw [fresh] at duplicate
    cases duplicate
  · exact landed

/-- An append that was answered as a duplicate: the log names the upload. -/
theorem Remembers.named_of_duplicate {w : World} {trace : Trace Ports}
    {command : UploadCompleted} (facts : site.Remembers w trace) (sound : site.SoundLog w.log)
    (published : site.publishes command) {event : DocumentEvent}
    (written : site.Writes command event) (expect : Expect) (appended : Appended)
    (mem : (⟨.append event expect, .ok appended⟩ : Call Ports) ∈ trace)
    (duplicate : appended.duplicate = true) : Named w.log command := by
  rcases Remembers.known facts (.append event expect) (.ok appended) mem with
    ⟨-, impossible | ⟨entry, mem, same⟩⟩ | ⟨fresh, -⟩
  · exact impossible.elim
  · rw [written.streamKey] at mem
    refine ⟨entry, mem, ?_⟩
    exact (sound.origin _ entry mem).names_of_eventId published (same.trans written.eventId)
  · rw [duplicate] at fresh
    cases fresh

/-- However a delivery came to accept its upload, the log names it. -/
theorem named_of_accepts {w : World} {command : UploadCompleted} {trace start : Trace Ports}
    {version : Nat} {superseded : Bool} (sound : site.SoundLog w.log)
    (published : site.publishes command) (facts : site.Remembers w trace)
    (since : start <+: trace)
    (accepts : Accepts site.digest command start version superseded) : Named w.log command := by
  obtain ⟨after, rfl⟩ := since
  cases accepts with
  | @created before sha256Hex ts appended mode fresh =>
      obtain ⟨-, seq, mem⟩ := Remembers.landed facts (createdEvent site.digest command sha256Hex ts)
        .createOnly appended (by simp) fresh
      exact ⟨_, mem, rfl⟩
  | @createdAgain before sha256Hex ts appended version seq mode duplicate =>
      exact Remembers.named_of_duplicate facts sound published (.created mode sha256Hex ts)
        .createOnly appended (by simp) duplicate
  | @alreadyCreated before sha256Hex ts version seq mode =>
      obtain ⟨event, mem, -⟩ := Remembers.known facts (.last command.tenantId command.documentId)
        (.ok (some (version, seq))) (by simp)
      exact sound.named_of_create published mode (List.ne_nil_of_mem mem)
  | @guarded before history entry found =>
      have read : history <+: w.log.streams command.streamKey :=
        Remembers.known facts (.readStream command.tenantId command.documentId) (.ok history)
          (by simp)
      exact ⟨entry, read.subset (List.mem_of_find?_eq_some found), names_of_findApplied found⟩
  | @replaced before sha256Hex ts version expect appended mode fresh =>
      obtain ⟨-, seq, mem⟩ := Remembers.landed facts
        (replacedEvent site.digest command sha256Hex ts version) expect appended (by simp) fresh
      exact ⟨_, mem, rfl⟩
  | @replacedAgain before sha256Hex ts version expect appended current seq mode duplicate =>
      exact Remembers.named_of_duplicate facts sound published
        (.replaced mode sha256Hex ts version) expect appended (by simp) duplicate

/-- What a delivery reports as accepted, the log names. -/
theorem named_of_reports {w : World} {command : UploadCompleted} {trace : Trace Ports}
    {version : Nat} {superseded : Bool} (sound : site.Sound w)
    (published : site.publishes command) (facts : site.Remembers w trace)
    (reports : Reports site.digest command trace version superseded) : Named w.log command := by
  cases reports with
  | accepted since accepts => exact named_of_accepts sound.log published facts since accepts
  | @expired entryAnswer history entry found =>
      have read : history <+: w.log.streams command.streamKey :=
        Remembers.known facts (.readStream command.tenantId command.documentId) (.ok history)
          (by simp)
      exact ⟨entry, read.subset (List.mem_of_find?_eq_some found), names_of_findApplied found⟩
  | @replayed state revision version superseded accepted =>
      obtain ⟨before, -, -, backs⟩ := facts.of_mem (List.mem_singleton_self _)
      have backs : site.Backs w.log command.recordKey state.status := backs
      rw [accepted] at backs
      exact backs command published rfl

/-- An event of an upload was written by a command of the same mode. -/
theorem SoundLog.writer_of_names {log : EventStoreState} (sound : site.SoundLog log)
    {command : UploadCompleted} (published : site.publishes command) {entry : Entry}
    (mem : entry ∈ log.streams command.streamKey) (names : entry.2.Names command.uploadId) :
    ∃ other, site.Writes other entry.2 ∧ other.mode = command.mode ∧
      other.tenantId = command.tenantId ∧ other.uploadId = command.uploadId := by
  obtain ⟨other, published', addressed, upload, written⟩ :=
    (sound.origin _ entry mem).command_of_names names
  have tenants : other.tenantId = command.tenantId := congrArg Prod.fst addressed
  exact ⟨other, written, (site.fixed published' published tenants upload).2, tenants, upload⟩

/-! ## One step -/

/-- A sound log takes an event of known origin that fits its stream. -/
theorem SoundLog.push {log : EventStoreState} (sound : site.SoundLog log) {event : DocumentEvent}
    (origin : site.Origin event.streamKey event)
    (fits : WellFormed event.streamKey (log.streams event.streamKey ++ [(log.head + 1, event)])) :
    site.SoundLog (log.push event) := by
  refine ⟨sound.consistent.push event, fun key entry mem => ?_, fun key => ?_⟩
  · rcases EventStoreState.mem_push mem with old | ⟨rfl, rfl⟩
    · exact sound.origin key entry old
    · exact origin
  · by_cases same : key = event.streamKey
    · subst same
      rw [EventStoreState.push_streams_self]
      exact fits
    · rw [EventStoreState.push_streams_of_ne log same]
      exact sound.shaped key

/-- An append a delivery issues keeps the log sound: a create lands on an empty
stream, and a replace right after the entry whose version it was stamped from. -/
theorem SoundLog.appended {w : World} {log' : EventStoreState} {command : UploadCompleted}
    {trace : Trace Ports} {event : DocumentEvent} {expect : Expect}
    {answer : Except EventStoreError Appended} (sound : site.SoundLog w.log)
    (published : site.publishes command) (facts : site.Remembers w trace)
    (appends : Appends site.digest command trace event expect)
    (served : w.log.Served False event expect answer log') : site.SoundLog log' := by
  have written := Writes.of_appends appends
  rcases served.effect with rfl | ⟨⟨-, expected⟩, rfl⟩
  · exact sound
  refine sound.push (.upload published written.streamKey.symm written) ?_
  cases appends with
  | create mode verified =>
      rw [sound.consistent.eq_nil_of_lastSeq expected]
      exact .opened ⟨rfl, rfl, ⟨_, rfl⟩, rfl⟩
  | @replace before sha256Hex ts version seq history state mode verified read unapplied =>
      obtain ⟨previous, mem, previousVersion⟩ := Remembers.known facts
        (.last command.tenantId command.documentId) (.ok (some (version, seq))) (by simp)
      obtain ⟨nonempty, head⟩ := sound.consistent.headVersion_of_lastSeq mem expected
      refine .continued (sound.shaped _) nonempty ⟨rfl, rfl, ?_⟩
      change version + 1 = headVersion (w.log.streams (command.tenantId, command.documentId)) + 1
      rw [head, previousVersion]

/-- What stands behind a status also stands behind the record it is written to. -/
theorem backs_of_settles {w : World} {command : UploadCompleted} {trace : Trace Ports}
    {status : UploadStatus} (sound : site.SoundLog w.log) (published : site.publishes command)
    (facts : site.Remembers w trace) (settles : Settles site.digest command trace status) :
    site.Backs w.log command.recordKey status := by
  cases status with
  | accepted version superseded =>
      obtain ⟨start, since, accepts⟩ := settles
      intro other published' same
      obtain ⟨streams, uploads⟩ := site.same_upload published' published same
      obtain ⟨entry, mem, names⟩ := named_of_accepts sound published facts since accepts
      exact ⟨entry, streams ▸ mem, uploads ▸ names⟩
  | _ => trivial

/-- A delivery's swap is one the bucket's own invariants know. -/
theorem bucketIssues {digest : String → String} {command : UploadCompleted} {trace : Trace Ports}
    {op : PortCall} (issued : Issues digest command trace op) : UploadBucket.Issues trace op := by
  cases op with
  | kvUpdate key state revision =>
      obtain ⟨before, old, status, now, shape, open_, same, state', -⟩ := issued
      exact ⟨before, _, old, status, now, shape, open_, same, state'⟩
  | _ => trivial

/-- Records after a served call: still backed. -/
theorem backed_of_served {w : World} {records' : UploadBucket} {command : UploadCompleted}
    {trace : Trace Ports} {op : PortCall} {answer : op.Ans} (sound : site.Sound w)
    (published : site.publishes command) (facts : site.Remembers w trace)
    (issued : Issues site.digest command trace op)
    (served : UploadBucket.serves w.records op answer records') :
    UploadBucket.Statuses (site.Backs w.log) records' := by
  cases op with
  | kvUpdate key state revision =>
      obtain ⟨before, old, status, now, rfl, open_, rfl, rfl, settles⟩ := issued
      obtain ⟨earlier, -, ⟨-, owned⟩, -⟩ := facts_snoc.mp facts
      have written : site.Backs w.log old.ownKey status := by
        rw [owned]
        exact backs_of_settles sound.log published earlier settles
      rcases UploadBucket.Swaps.effect served with rfl | rfl
      · exact sound.backed
      · exact sound.backed.put written
  | _ =>
      rw [UploadBucket.serves_same served (by simp)]
      exact sound.backed

/-- What grows and follows keeps every fact. -/
theorem keeps_of_grows {w w' : World} (sound : site.Sound w') (grows : w.log.Grows w'.log)
    (follows : w.records.Follows w'.records) : site.invariants.Keeps w w' :=
  ⟨sound, fun _ published => published, fun _ _ op answer known =>
    ⟨EventStoreState.known_grows grows op answer known.1,
      UploadBucket.inHand_follows follows op answer known.2.1,
      recorded_grows grows op answer known.2.2⟩⟩

/-- The step lemma: a served call of a delivery keeps the world sound and loses
no fact, and its own answer is a fact from then on. -/
theorem keeps_of_served {w w' : World} {delivery : Delivery} {trace : Trace Ports}
    {op : PortCall} {answer : op.Ans} (sound : site.Sound w)
    (published : site.publishes delivery.command) (facts : site.Remembers w trace)
    (issued : Issues site.digest delivery.command trace op) (served : w.serves op answer w') :
    site.invariants.Keeps w w' ∧ site.invariants.fact delivery w' trace op answer := by
  obtain ⟨servedLog, servedRecords⟩ := served
  have grows := EventStoreState.serves_grows servedLog
  have held : Facts (fun _ op answer => UploadBucket.inHand w.records op answer) trace :=
    facts.imp fun _ _ _ known => known.2.1
  obtain ⟨moves, inHand⟩ := UploadBucket.moves_of_served sound.kept held (bucketIssues issued)
    servedRecords
  have log : site.SoundLog w'.log := by
    cases op with
    | append event expect => exact sound.log.appended published facts issued servedLog
    | _ => exact EventStoreState.serves_same servedLog (by simp) ▸ sound.log
  have backed := backed_of_served sound published facts issued servedRecords
  have sound' : site.Sound w' :=
    ⟨log, sound.kept.moves moves, backed.imp fun _ _ backs => backs.grows grows⟩
  refine ⟨keeps_of_grows sound' grows moves.follows,
    EventStoreState.known_of_served sound.log.consistent servedLog, inHand, ?_⟩
  cases op with
  | kvEntry key =>
      obtain ⟨sameRecords, answered⟩ := servedRecords
      match answer, answered with
      | .ok (some (.put state revision)), answered =>
          have live : w'.records.live key = some state := by
            rw [sameRecords]
            exact KvBucket.live_eq_some.mpr ⟨revision, eq_of_answered answered⟩
          exact sound'.backed key state live
      | .ok (some (.marker revision)), _ => trivial
      | .ok none, _ => trivial
      | .error error, _ => trivial
  | _ => trivial

theorem keeps_of_disturbed {w w' : World} (sound : site.Sound w)
    (disturbed : World.Disturbed site.Others w w') : site.invariants.Keeps w w' := by
  cases disturbed with
  | forgot key =>
      exact keeps_of_grows ⟨⟨sound.log.consistent.forget key, sound.log.origin, sound.log.shaped⟩,
        sound.kept, sound.backed⟩ (EventStoreState.Grows.refl _) .same
  | written event allowed =>
      have grows := w.log.push_grows event
      refine keeps_of_grows ⟨sound.log.push ?_ ?_, sound.kept,
        sound.backed.imp fun _ _ backs => backs.grows grows⟩ grows .same
      · exact .other allowed.noBlob allowed.continues.later allowed.otherId
      · exact .continued (sound.log.shaped _) allowed.opened allowed.continues
  | @preflight records state starts created =>
      have disturbed := UploadBucket.Disturbed.created state created
      obtain ⟨absent, rfl⟩ := KvBucket.create_eq_some created
      refine keeps_of_grows ⟨sound.log, sound.kept.put state, ?_⟩
        (EventStoreState.Grows.refl _) (.put _ _)
      exact sound.backed.put (by rw [starts]; trivial)
  | @marked old now found open_ =>
      refine keeps_of_grows ⟨sound.log, sound.kept.put (old.withStatus .scanning now), ?_⟩
        (EventStoreState.Grows.refl _) (.put _ _)
      exact sound.backed.put trivial
  | expired key =>
      exact keeps_of_grows ⟨sound.log, sound.kept.disturbed (.expired key), sound.backed.expire key⟩
        (EventStoreState.Grows.refl _) (.expire key)
  | purged key =>
      exact keeps_of_grows ⟨sound.log, sound.kept.disturbed (.purged key), sound.backed.purge key⟩
        (EventStoreState.Grows.refl _) (.purge key)

/-- The base invariant holds in every run. -/
theorem holds {meets : DeliveryRun → Label Ports Delivery → DeliveryRun → Prop} {c : DeliveryRun}
    (reached : site.system.Reaches meets ⟨.empty, []⟩ c) : site.invariants.Holds site.system c := by
  refine Invariants.holds_of_reaches (I := site.invariants) ?_ (fun _ _ _ admitted => admitted)
    ?_ ?_ reached
  · exact ⟨⟨EventStoreState.consistent_empty, fun _ _ mem => (by cases mem), fun _ => .empty⟩,
      ⟨KvBucket.counted_empty, fun _ _ live => (by cases live)⟩, fun _ _ live => (by cases live)⟩
  · intro c n t op next answer w' holds found stands served _
    have knows := holds.tasks t (System.mem_of_found found)
    exact keeps_of_served holds.inv knows.input knows.facts (knows.issues along_finish stands) served
  · intro c w' holds disturbed _
    exact keeps_of_disturbed holds.inv disturbed

/-- What a step of a run does to the streams: nothing, a delivery's append is let
through, or another writer's event lands. -/
inductive LogMoves (site : Site) (c : DeliveryRun) (l : Label Ports Delivery) (c' : DeliveryRun) : Prop where
  | same (streams : c'.shared.log.streams = c.shared.log.streams)
  | appended {n : Nat} {t u : Task Ports Delivery FinishOutcome} {event : DocumentEvent}
      {expect : Expect} {answer : Except EventStoreError Appended}
      (label : l = .call n (.append event expect) answer) (found : c.tasks[n]? = some t)
      (appends : Appends site.digest t.input.command t.trace event expect)
      (lets : c.shared.log.Lets event expect) (pushed : c'.shared.log = c.shared.log.push event)
      (mem : u ∈ c'.tasks) (input : u.input = t.input)
      (trace : u.trace = t.trace ++ [⟨.append event expect, answer⟩])
  | written {event : DocumentEvent} (others : site.Others c.shared.log event)
      (pushed : c'.shared.log = c.shared.log.push event)

theorem logMoves_of_step {c c' : DeliveryRun} {l : Label Ports Delivery}
    (known : site.invariants.Holds site.system c) (step : site.system.Step c l c') :
    site.LogMoves c l c' := by
  cases step with
  | spawn admitted => exact .same rfl
  | @call n t op next answer w' found stands served =>
      cases op with
      | append event expect =>
          rcases EventStoreState.Served.effect served.1 with same | ⟨lets, pushed⟩
          · exact .same (by rw [same])
          · have appends := (known.tasks t (System.mem_of_found found)).issues along_finish stands
            have bound := (List.getElem?_eq_some_iff.mp found).1
            exact .appended rfl found appends lets pushed (List.mem_set bound _) rfl rfl
      | _ => exact .same (by rw [EventStoreState.serves_same served.1 (by simp)])
  | environment acted =>
      cases acted with
      | written event allowed => exact .written allowed rfl
      | _ => exact .same rfl

end Site

/-! ## A small deployment: one document, created by one upload and replaced by another -/

namespace Sample

/-- SHA-256 on the two strings this deployment hashes. -/
def digest (text : String) : String :=
  if text = "acme|u1|created" then "356c4a817469258e4a459350103f9351"
  else if text = "acme|u2|blob_validated" then "41fa384cd6f79d5b43c82a5c1f197937"
  else text

def create : UploadCompleted where
  tenantId := "acme"
  ownerUserId := "ann"
  uploadId := "u1"
  documentId := "doc"
  mode := .create
  storageKey := Keys.objectKey "acme" "u1"
  multipartUploadId := "m1"
  filename := "a.txt"
  contentType := "text/plain"
  declaredSize := 4
  ifMatch := none
  onConflict := .supersede
  patch := {}

/-- Made on version 1, and to fail on any other. -/
def replace : UploadCompleted :=
  { create with
    uploadId := "u2"
    mode := .replace
    storageKey := Keys.objectKey "acme" "u2"
    ifMatch := some 1
    onConflict := .fail }

/-- The record preflight leaves for a command. -/
def record (command : UploadCompleted) : UploadState where
  tenantId := command.tenantId
  ownerUserId := command.ownerUserId
  uploadId := command.uploadId
  documentId := command.documentId
  mode := command.mode
  storageKey := command.storageKey
  multipartUploadId := command.multipartUploadId
  filename := command.filename
  contentType := command.contentType
  declaredSize := command.declaredSize
  partSizeBytes := 4
  partCount := 1
  status := .uploading
  createdAt := 0
  updatedAt := 0

def site : Site where
  digest := digest
  publishes command := command = create ∨ command = replace
  fixed := by
    rintro _ _ (rfl | rfl) (rfl | rfl) _ uploads
    · exact ⟨rfl, rfl⟩
    · exact absurd uploads (by decide)
    · exact absurd uploads (by decide)
    · exact ⟨rfl, rfl⟩
  fresh := by
    rintro _ _ (rfl | rfl) (rfl | rfl) first second _
    · rfl
    · cases second
    · cases first
    · rfl
  segments := by
    rintro _ (rfl | rfl)
    · decide
    · decide
  distinct := by
    rintro _ _ (rfl | rfl) (rfl | rfl) ids
    · exact ⟨rfl, rfl⟩
    · exact absurd ids (by decide +kernel)
    · exact absurd ids (by decide +kernel)
    · exact ⟨rfl, rfl⟩

/-- Both records written. -/
def records : UploadBucket :=
  (KvBucket.put .empty (record create).ownKey (record create)).put (record replace).ownKey
    (record replace)

/-- Both records written and these deliveries started. -/
def started (inputs : List Delivery) : DeliveryRun :=
  ⟨⟨.empty, records⟩, inputs.map site.system.started⟩

/-- The start is reached under any condition that preflight and deliveries meet
while the log is empty. -/
theorem reaches_started {meets : DeliveryRun → Label Ports Delivery → DeliveryRun → Prop}
    (quiet : ∀ c l c', c.shared.log = .empty → (∀ n op answer, l ≠ .call n op answer) → meets c l c')
    (inputs : List Delivery) (published : ∀ input ∈ inputs, site.publishes input.command) :
    site.system.Reaches meets ⟨.empty, []⟩ (started inputs) := by
  have empty : site.system.Reaches meets ⟨.empty, []⟩ ⟨.empty, []⟩ := .refl _
  have recorded : site.system.Reaches meets ⟨.empty, []⟩ ⟨⟨.empty, records⟩, []⟩ :=
    (empty.disturbed _ (World.Disturbed.preflight (record create) rfl rfl)
      (quiet _ _ _ rfl (by simp))).disturbed _
      (World.Disturbed.preflight (record replace) rfl rfl) (quiet _ _ _ rfl (by simp))
  induction inputs using List.reverseRecOn with
  | nil => exact recorded
  | append_singleton inputs input ih =>
      have before := ih fun other mem => published other (List.mem_append_left _ mem)
      have after := before.spawned input (published input (by simp)) (quiet _ _ _ rfl (by simp))
      simpa [started] using after

/-- What another writer appends as version 2. -/
def rename : DocumentEvent where
  v := documentContractVersion
  eventId := "e7"
  tenantId := "acme"
  documentId := "doc"
  actor := .user "bob"
  version := 2
  ts := 0
  payload := .documentMetadataChanged { title := some "new" }

/-- The other writer's event may land on version 1. -/
theorem others_rename {log : EventStoreState}
    (head : (log.streams ("acme", "doc")).getLast?.map (fun entry => entry.2.version) = some 1) :
    site.Others log rename := by
  have nonempty : log.streams ("acme", "doc") ≠ [] := by
    intro empty
    rw [empty] at head
    cases head
  refine ⟨nonempty, ⟨rfl, rfl, ?_⟩, rfl, ?_⟩
  · change 2 = headVersion (log.streams ("acme", "doc")) + 1
    rw [headVersion, head]
    rfl
  · rintro _ (rfl | rfl)
    · decide +kernel
    · decide +kernel

end Sample

end Delphi.Document
