/-
# Delphi.Document.Evidence -- no version without a verified upload, and only one

Two results about the log that deliveries write.  Every event that introduces a
blob was appended by a delivery that had measured, validated and scanned it, and
whatever is reported or recorded as accepted is named by the log
(`verified_and_named`).  And an upload is introduced at most once
(`appended_once`), by three guards that each cover a part: a create needs an
empty stream, a replace reads the whole history, and the dedupe window covers
what landed after that read.
-/
import Delphi.Document.Deliveries

namespace Delphi.Document

open Delphi.Theory
open UploadFinisher

set_option autoImplicit false

namespace DocumentEventPayload

/-- The digest of the bytes an event introduces. -/
def checksum : DocumentEventPayload → Option String
  | .documentCreated created => some created.checksum
  | .documentBlobValidated validated => some validated.checksum
  | _ => none

/-- The size of the bytes an event introduces. -/
def byteSize : DocumentEventPayload → Option Nat
  | .documentCreated created => some created.byteSize
  | .documentBlobValidated validated => some validated.byteSize
  | _ => none

end DocumentEventPayload

namespace Site

variable {site : Site}

/-! ## Evidence -/

/-- A delivery appended the event, with its evidence before that. -/
def Evidenced (key : StreamKey) (event : DocumentEvent) (t : Task Ports Delivery FinishOutcome) :
    Prop :=
  ∃ before expect answer after sha256Hex,
    t.input.command.streamKey = key ∧ event.Names t.input.command.uploadId ∧
    t.trace = before ++ ⟨.append event expect, answer⟩ :: after ∧
    Verified t.input.command sha256Hex before ∧
    event.payload.checksum = some (Delphi.Document.checksum sha256Hex) ∧
    event.payload.byteSize = some t.input.command.declaredSize

theorem Evidenced.mono {key : StreamKey} {event : DocumentEvent}
    {t t' : Task Ports Delivery FinishOutcome} (evidenced : Evidenced key event t)
    (same : t'.input = t.input) (since : t.trace <+: t'.trace) : Evidenced key event t' := by
  obtain ⟨before, expect, answer, after, sha256Hex, addressed, names, split, verified, digest,
    size⟩ := evidenced
  obtain ⟨more, longer⟩ := since
  rw [Evidenced, same]
  exact ⟨before, expect, answer, after ++ more, sha256Hex, addressed, names,
    by rw [← longer, split]; simp, verified, digest, size⟩

/-- An append carries the digest and the size its evidence gives. -/
theorem verified_of_appends {digest : String → String} {command : UploadCompleted}
    {trace : Trace Ports} {event : DocumentEvent} {expect : Expect}
    (appends : Appends digest command trace event expect) :
    ∃ sha256Hex, Verified command sha256Hex trace ∧
      event.payload.checksum = some (Delphi.Document.checksum sha256Hex) ∧
      event.payload.byteSize = some command.declaredSize := by
  cases appends with
  | create mode verified => exact ⟨_, verified, rfl, rfl⟩
  | replace mode verified read unapplied folded allowed =>
      exact ⟨_, verified.mono (List.prefix_append _ _), rfl, rfl⟩

/-- Every blob in the log has its evidence in a delivery. -/
def AllEvidenced (c : DeliveryRun) : Prop :=
  ∀ key, ∀ entry ∈ c.shared.log.streams key, ∀ uploadId, entry.2.Names uploadId →
    ∃ t ∈ c.tasks, t.input.command.uploadId = uploadId ∧ Evidenced key entry.2 t

theorem AllEvidenced.kept {c c' : DeliveryRun} {l : Label Ports Delivery}
    (all : AllEvidenced c) (step : site.system.Step c l c') {key : StreamKey} {entry : Entry}
    (mem : entry ∈ c.shared.log.streams key) {uploadId : String}
    (names : entry.2.Names uploadId) :
    ∃ t ∈ c'.tasks, t.input.command.uploadId = uploadId ∧ Evidenced key entry.2 t := by
  obtain ⟨t, found, upload, evidenced⟩ := all key entry mem uploadId names
  obtain ⟨t', found', same, since⟩ := step.task_extends found
  exact ⟨t', found', by rw [same, upload], evidenced.mono same since⟩

theorem allEvidenced {c : DeliveryRun}
    (reached : site.system.Reaches System.anyStep ⟨.empty, []⟩ c) : AllEvidenced c := by
  refine reached.invariant (fun _ _ mem => by cases mem) ?_
  intro c l c' earlier all step _ key entry mem uploadId names
  have kept (old : entry ∈ c.shared.log.streams key) := all.kept step old names
  cases logMoves_of_step (holds earlier) step with
  | same streams =>
      rw [streams] at mem
      exact kept mem
  | @appended n t u event expect answer label found appends lets pushed mem' input trace =>
      rw [pushed] at mem
      rcases EventStoreState.mem_push mem with old | ⟨rfl, rfl⟩
      · exact kept old
      · have written : site.Writes t.input.command event := .of_appends appends
        obtain ⟨sha256Hex, verified, digest, size⟩ := verified_of_appends appends
        refine ⟨u, mem', ?_, ?_⟩
        · rw [input]
          exact Option.some.inj (written.names.symm.trans names)
        · rw [Evidenced, input]
          exact ⟨t.trace, expect, answer, [], sha256Hex, written.streamKey.symm, written.names,
            trace, verified, digest, size⟩
  | written others pushed =>
      rw [pushed] at mem
      rcases EventStoreState.mem_push mem with old | ⟨rfl, rfl⟩
      · exact kept old
      · rw [DocumentEvent.Names, others.noBlob] at names
        cases names

/-- In every run of deliveries: every event that introduces a blob was appended
by a delivery of that upload which had found the object of the declared size,
the content validator's and the scanner's approval, and the event carries that
scan's digest and the declared size; and an upload that is reported or recorded
as accepted is named by the log of its document. -/
theorem verified_and_named {c : DeliveryRun}
    (reached : site.system.Reaches System.anyStep ⟨.empty, []⟩ c) :
    (∀ key, ∀ entry ∈ c.shared.log.streams key, ∀ uploadId, entry.2.Names uploadId →
      ∃ t ∈ c.tasks, t.input.command.uploadId = uploadId ∧ Evidenced key entry.2 t) ∧
    (∀ t ∈ c.tasks, ∀ documentId version superseded,
      t.rest = .ret (.accepted documentId version superseded) →
      Named c.shared.log t.input.command) ∧
    (∀ command state version superseded, site.publishes command →
      c.shared.records.live command.recordKey = some state →
      state.status = .accepted version superseded → Named c.shared.log command) := by
  have known := holds reached
  refine ⟨allEvidenced reached, ?_, ?_⟩
  · intro t mem documentId version superseded returned
    have knows := known.tasks t mem
    have returns := knows.returns along_finish returned
    exact named_of_reports known.inv knows.input knows.facts returns.2
  · intro command state version superseded published live accepted
    have backs := known.inv.backed command.recordKey state live
    rw [accepted] at backs
    exact backs command published rfl

/-- One delivery of a create, to its end. -/
theorem verified_and_named_of_create :
    ∃ (site : Site) (c : DeliveryRun), site.system.Reaches System.anyStep ⟨.empty, []⟩ c ∧
      (∃ t ∈ c.tasks, t.rest = .ret (.accepted "doc" 1 false)) ∧
      ∃ entry ∈ c.shared.log.streams ("acme", "doc"), ∃ t ∈ c.tasks,
        Evidenced ("acme", "doc") entry.2 t := by
  have start : Sample.site.system.Reaches System.anyStep ⟨.empty, []⟩
      (Sample.started [⟨Sample.create, false⟩]) :=
    Sample.reaches_started (fun _ _ _ _ _ => trivial) _ (by simp [Sample.site])
  let world : Sample.site.system.Reply := truthfully 4 "3a6eb079"
  let finished : DeliveryRun :=
    (List.replicate 12 0).foldl world.reply (Sample.started [⟨Sample.create, false⟩])
  have reached : Sample.site.system.Reaches System.anyStep ⟨.empty, []⟩ finished :=
    start.replies world _
  obtain ⟨evidence, -, -⟩ := verified_and_named reached
  have named : ∃ entry ∈ finished.shared.log.streams ("acme", "doc"), entry.2.Names "u1" := by
    decide +kernel
  obtain ⟨entry, mem, names⟩ := named
  obtain ⟨t, found, -, evidenced⟩ := evidence ("acme", "doc") entry mem "u1" names
  have accepted : ∃ t ∈ finished.tasks, t.rest.returned = some (.accepted "doc" 1 false) := by
    decide +kernel
  obtain ⟨done, stood, returned⟩ := accepted
  exact ⟨_, finished, reached, ⟨done, stood, Program.eq_ret_of_returned returned⟩, entry, mem,
    t, found, evidenced⟩

/-! ## At most one event per upload -/

/-- An append by a delivery that read the history before an event of its upload
landed is made inside that event's dedupe window. -/
def WithinWindow (c : DeliveryRun) (l : Label Ports Delivery) (_ : DeliveryRun) : Prop :=
  ∀ n t event expect answer history, l = .call n (.append event expect) answer →
    c.tasks[n]? = some t →
    (⟨.readStream t.input.command.tenantId t.input.command.documentId, .ok history⟩ : Call Ports)
      ∈ t.trace →
    ∀ entry ∈ c.shared.log.streams t.input.command.streamKey,
      entry.2.Names t.input.command.uploadId → entry ∉ history →
      c.shared.log.seen (t.input.command.streamKey, entry.2.eventId) ≠ none

/-- The events of one upload in one stream all have one id. -/
theorem eventId_of_names {log : EventStoreState} (sound : site.SoundLog log)
    {command : UploadCompleted} (published : site.publishes command) {entry : Entry}
    (mem : entry ∈ log.streams command.streamKey) (names : entry.2.Names command.uploadId) :
    entry.2.eventId = uploadEventId site.digest command := by
  obtain ⟨other, written, modes, tenants, upload⟩ := sound.writer_of_names published mem names
  rw [written.eventId, uploadEventId, uploadEventId, modes, tenants, upload]

/-- An append that is let through introduces an upload its stream does not have. -/
theorem unnamed_of_lets {w : World} {t : Task Ports Delivery FinishOutcome}
    {event : DocumentEvent} {expect : Expect} (sound : site.SoundLog w.log)
    (published : site.publishes t.input.command)
    (appends : Appends site.digest t.input.command t.trace event expect)
    (lets : w.log.Lets event expect)
    (window : ∀ history, (⟨.readStream t.input.command.tenantId t.input.command.documentId,
        .ok history⟩ : Call Ports) ∈ t.trace →
      ∀ entry ∈ w.log.streams t.input.command.streamKey,
        entry.2.Names t.input.command.uploadId → entry ∉ history →
        w.log.seen (t.input.command.streamKey, entry.2.eventId) ≠ none) :
    ¬ Named w.log t.input.command := by
  rintro ⟨entry, mem, names⟩
  have written : site.Writes t.input.command event := .of_appends appends
  have ids := (eventId_of_names sound published mem names).trans written.eventId.symm
  obtain ⟨unseen, expected⟩ := lets
  generalize t.trace = trace at appends window
  cases appends with
  | create mode verified =>
      have empty := sound.consistent.eq_nil_of_lastSeq expected
      rw [show t.input.command.streamKey = _ from written.streamKey.symm, empty] at mem
      cases mem
  | @replace before sha256Hex ts version seq history state mode verified read unapplied =>
      refine window history (by simp [read]) entry mem names (fun old => unapplied entry old names) ?_
      rw [ids]
      exact unseen

/-- Every upload is introduced by at most one event of a stream. -/
def Once (log : EventStoreState) : Prop := ∀ key uploadId,
  ((log.streams key).filter fun entry => entry.2.Names uploadId).length ≤ 1

theorem Once.push {log : EventStoreState} (once : Once log) {event : DocumentEvent}
    (new : ∀ uploadId, event.Names uploadId → ∀ entry ∈ log.streams event.streamKey,
      ¬ entry.2.Names uploadId) : Once (log.push event) := by
  intro key uploadId
  by_cases same : key = event.streamKey
  · subst same
    rw [EventStoreState.push_streams_self, List.filter_append, List.length_append]
    by_cases names : event.Names uploadId
    · have none_before : (log.streams event.streamKey).filter
          (fun entry => entry.2.Names uploadId) = [] := by
        simpa using fun seq other mem => new uploadId names (seq, other) mem
      rw [none_before]
      simpa using List.length_filter_le _ [(log.head + 1, event)]
    · simpa [names] using once event.streamKey uploadId
  · rw [EventStoreState.push_streams_of_ne log same]
    exact once key uploadId

/-- However deliveries of any uploads interleave, an upload is introduced by at
most one event of a stream. -/
theorem appended_once {c : DeliveryRun}
    (reached : site.system.Reaches WithinWindow ⟨.empty, []⟩ c) (key : StreamKey)
    (uploadId : String) :
    ((c.shared.log.streams key).filter fun entry => entry.2.Names uploadId).length ≤ 1 := by
  suffices once : Once c.shared.log from once key uploadId
  refine reached.invariant (J := fun c => Once c.shared.log) ?_ ?_
  · intro key uploadId
    simp [World.empty, EventStoreState.empty]
  intro c l c' earlier once step window
  have known := holds earlier
  cases logMoves_of_step known step with
  | same streams =>
      intro key uploadId
      rw [streams]
      exact once key uploadId
  | @appended n t u event expect answer label found appends lets pushed =>
      have written : site.Writes t.input.command event := .of_appends appends
      have published := (known.tasks t (System.mem_of_found found)).input
      have unnamed := unnamed_of_lets known.inv.log published appends lets fun history =>
        window n t event expect answer history label found
      rw [pushed]
      refine once.push fun uploadId names entry mem named => unnamed ⟨entry, ?_, ?_⟩
      · rwa [← written.streamKey]
      · rwa [Option.some.inj (written.names.symm.trans names)]
  | written others pushed =>
      rw [pushed]
      refine once.push fun uploadId names => ?_
      rw [DocumentEvent.Names, others.noBlob] at names
      cases names

/-- Every event of the log is still inside its dedupe window. -/
def Remembered (log : EventStoreState) : Prop := ∀ key, ∀ entry ∈ log.streams key,
  log.seen (key, entry.2.eventId) ≠ none

theorem Remembered.append {log : EventStoreState} (remembered : Remembered log)
    (event : DocumentEvent) (expect : Expect) : Remembered (log.append event expect).2 := by
  rcases log.append_cases event expect with ⟨_, _, _, same⟩ | same | ⟨-, same⟩
  · exact same ▸ remembered
  · exact same ▸ remembered
  · rw [same]
    intro key entry mem
    by_cases fresh : (key, entry.2.eventId) = (event.streamKey, event.eventId)
    · rw [fresh]
      simp [EventStoreState.push]
    · rw [log.push_seen_of_ne fresh]
      rcases EventStoreState.mem_push mem with old | ⟨rfl, rfl⟩
      · exact remembered key entry old
      · exact absurd rfl fresh

/-- A run in which nothing is forgotten meets the timing condition. -/
theorem reaches_of_remembered {c : DeliveryRun} (size : Nat) (sha256Hex : String)
    (reached : site.system.Reaches WithinWindow ⟨.empty, []⟩ c)
    (remembered : Remembered c.shared.log) (schedule : List Nat) :
    site.system.Reaches WithinWindow ⟨.empty, []⟩
      (schedule.foldl (truthfully size sha256Hex : site.system.Reply).reply c) := by
  induction schedule generalizing c with
  | nil => exact reached
  | cons n rest ih =>
      refine ih (reached.reply _ n fun _ _ _ _ _ m t event expect answer history _ _ _ entry mem _ _ =>
        remembered _ entry mem) ?_
      unfold System.Reply.reply
      split
      · exact remembered
      · split
        · exact remembered
        · rename_i op next _
          cases op with
          | append event expect => exact remembered.append event expect
          | _ => exact remembered

/-- A document is created, and two overlapping deliveries of one replacement both
read its history before either appends. -/
theorem appended_once_of_overlap :
    ∃ (site : Site) (c : DeliveryRun), site.system.Reaches WithinWindow ⟨.empty, []⟩ c ∧
      (c.shared.log.streams ("acme", "doc")).length = 2 ∧
      ((c.shared.log.streams ("acme", "doc")).filter fun entry => entry.2.Names "u2").length ≤ 1 ∧
      c.tasks.map (fun t => t.rest.returned) =
        [some (.accepted "doc" 1 false), some (.accepted "doc" 2 false),
          some (.accepted "doc" 2 false)] := by
  have start : Sample.site.system.Reaches WithinWindow ⟨.empty, []⟩
      (Sample.started [⟨Sample.create, false⟩, ⟨Sample.replace, false⟩, ⟨Sample.replace, true⟩]) := by
    refine Sample.reaches_started ?_ _ (by simp [Sample.site])
    intro c l c' empty _ n t event expect answer history _ _ _ entry mem
    rw [empty] at mem
    cases mem
  -- Both deliveries stand at their append before either takes it.
  let schedule := List.replicate 12 0 ++ List.replicate 10 1 ++ List.replicate 10 2 ++
    List.replicate 4 1 ++ List.replicate 5 2
  have reached := reaches_of_remembered 4 "3a6eb079" start (fun _ _ mem => by cases mem) schedule
  exact ⟨_, _, reached, by decide +kernel, appended_once reached _ _, by decide +kernel⟩

end Site

end Delphi.Document
