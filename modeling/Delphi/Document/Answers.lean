/-
# Delphi.Document.Answers -- the answer a delivery gives

The answer a delivery reports comes from the upload's event itself on some
paths, from the head of the stream on others, and from nowhere when the record
has expired.  It is the logged one as long as the upload's event still is the
head whenever the head is asked, and superseded nothing when the record is gone
(`answer_is_logged`); `answer_overtaken` is a run in which it is not.
-/
import Delphi.Document.Deliveries

namespace Delphi.Document

open Delphi.Theory
open UploadFinisher

set_option autoImplicit false

/-- The log holds an event of the upload with this version and supersede flag. -/
def Answers (log : EventStoreState) (command : UploadCompleted) (version : Nat)
    (superseded : Bool) : Prop :=
  ∃ entry ∈ log.streams command.streamKey, entry.2.Names command.uploadId ∧
    entry.2.version = version ∧ supersededFlag entry.2 = superseded

theorem Answers.grows {log log' : EventStoreState} {command : UploadCompleted} {version : Nat}
    {superseded : Bool} (answers : Answers log command version superseded)
    (grows : log.Grows log') : Answers log' command version superseded := by
  obtain ⟨entry, mem, answered⟩ := answers
  exact ⟨entry, grows.mem mem, answered⟩

/-- The version an event of the log says it was made on. -/
def basedOn (event : DocumentEvent) : Option Nat :=
  match event.payload with
  | .documentBlobValidated validated => validated.basedOnVersion
  | _ => none

namespace Site

variable (site : Site)

/-- The delivery is about to ask for the head because its append was answered
with a duplicate, or its create with a conflict. -/
inductive Rereads (command : UploadCompleted) : Trace Ports → Prop where
  | duplicate {before : Trace Ports} {event : DocumentEvent} {expect : Expect}
      {appended : Appended} (written : site.Writes command event)
      (duplicate : appended.duplicate = true) :
      Rereads command (before ++ [⟨.append event expect, .ok appended⟩])
  | conflict {before : Trace Ports} {event : DocumentEvent} (mode : command.mode = .create) :
      Rereads command (before ++ [⟨.append event .createOnly, .error .conflict⟩])

/-- The record was missing and the delivery is about to read the log. -/
def Discards (command : UploadCompleted) (trace : Trace Ports) : Prop :=
  ∃ answer, trace = [⟨.kvEntry command.recordKey, answer⟩]

/-- The upload's event still is the head, made on the version this command names. -/
def StillHead (log : EventStoreState) (command : UploadCompleted) : Prop :=
  ∀ entry ∈ log.streams command.streamKey, entry.2.Names command.uploadId →
    entry.2.version = headVersion (log.streams command.streamKey) ∧
      (command.mode = .replace → basedOn entry.2 = command.ifMatch)

/-- The upload's event superseded nothing. -/
def NotSuperseding (log : EventStoreState) (command : UploadCompleted) : Prop :=
  ∀ entry ∈ log.streams command.streamKey, entry.2.Names command.uploadId →
    supersededFlag entry.2 = false

/-- The head is asked for only while the upload's event is it, and the log is
read for a missing record only if the upload's event superseded nothing. -/
def Timely (c : DeliveryRun) (l : Label Ports Delivery) (_ : DeliveryRun) : Prop :=
  ∀ n t, c.tasks[n]? = some t →
    (∀ tenant documentId answer, l = .call n (.last tenant documentId) answer →
      site.Rereads t.input.command t.trace → StillHead c.shared.log t.input.command) ∧
    (∀ tenant documentId answer, l = .call n (.readStream tenant documentId) answer →
      Discards t.input.command t.trace → NotSuperseding c.shared.log t.input.command)

/-- An acceptance stored under a key is the logged one. -/
def Tells (log : EventStoreState) (key : String) : UploadStatus → Prop
  | .accepted version superseded => ∀ command, site.publishes command →
      command.recordKey = key → Answers log command version superseded
  | _ => True

/-- What the calls a delivery's answer may come from tell from then on. -/
def told (command : UploadCompleted) (log : EventStoreState) (before : Trace Ports) :
    (op : PortCall) → op.Ans → Prop
  | .kvEntry key, .ok (some (.put state _)) => site.Tells log key state.status
  | .last tenant documentId, .ok (some (version, _)) =>
      (tenant, documentId) = command.streamKey → site.Rereads command before →
        (command.mode = .create → Answers log command version false) ∧
        (command.mode = .replace → Answers log command version (basedElsewhere command.ifMatch version))
  | .readStream _ _, .ok history => Discards command before →
      ∀ entry, findApplied history command.uploadId = some entry → supersededFlag entry.2 = false
  | _, _ => True

def answering : Invariants Ports World Delivery where
  inv w := UploadBucket.Statuses (site.Tells w.log) w.records
  input _ _ := True
  fact delivery w before op answer := site.told delivery.command w.log before op answer

variable {site}

theorem Tells.grows {log log' : EventStoreState} {key : String} {status : UploadStatus}
    (tells : site.Tells log key status) (grows : log.Grows log') : site.Tells log' key status := by
  cases status with
  | accepted version superseded =>
      exact fun command published same => (tells command published same).grows grows
  | _ => trivial

theorem told_grows {log log' : EventStoreState} (grows : log.Grows log')
    (command : UploadCompleted) (before : Trace Ports) (op : PortCall) (answer : op.Ans)
    (known : site.told command log before op answer) : site.told command log' before op answer := by
  cases op with
  | kvEntry key =>
      match answer, known with
      | .ok (some (.put state revision)), known => exact Tells.grows known grows
      | .ok (some (.marker revision)), _ => trivial
      | .ok none, _ => trivial
      | .error error, _ => trivial
  | last tenant documentId =>
      match answer, known with
      | .ok (some (version, seq)), known =>
          intro addressed rereads
          obtain ⟨created, replaced⟩ := known addressed rereads
          exact ⟨fun mode => (created mode).grows grows, fun mode => (replaced mode).grows grows⟩
      | .ok none, _ => trivial
      | .error error, _ => trivial
  | readStream tenant documentId =>
      match answer, known with
      | .ok history, known => exact known
      | .error error, _ => trivial
  | _ => trivial

/-- The facts a delivery of a timely run keeps. -/
abbrev Hears (site : Site) (command : UploadCompleted) (w : World) (trace : Trace Ports) : Prop :=
  Facts (site.told command w.log) trace

theorem supersededFlag_eq (event : DocumentEvent) :
    supersededFlag event = basedElsewhere (basedOn event) event.version := by
  unfold supersededFlag basedOn
  cases event.payload <;> rfl

/-- However a delivery came to accept its upload in a timely run, its answer is
the logged one. -/
theorem answers_of_accepts {w : World} {command : UploadCompleted} {trace start : Trace Ports}
    {version : Nat} {superseded : Bool} (facts : site.Remembers w trace)
    (hears : site.Hears command w trace) (since : start <+: trace)
    (accepts : Accepts site.digest command start version superseded) :
    Answers w.log command version superseded := by
  obtain ⟨after, rfl⟩ := since
  cases accepts with
  | @created before sha256Hex ts appended mode fresh =>
      obtain ⟨version, seq, mem⟩ := Remembers.landed facts
        (createdEvent site.digest command sha256Hex ts) .createOnly appended (by simp) fresh
      exact ⟨_, mem, rfl, version.symm, rfl⟩
  | @createdAgain before sha256Hex ts appended version seq mode duplicate =>
      have told := Facts.within hears
      exact (told rfl (.duplicate (.created mode sha256Hex ts) duplicate)).1 mode
  | @alreadyCreated before sha256Hex ts version seq mode =>
      have told := Facts.within hears
      exact (told rfl (.conflict mode)).1 mode
  | @guarded before history entry found =>
      have read : history <+: w.log.streams command.streamKey :=
        Remembers.known facts (.readStream command.tenantId command.documentId) (.ok history)
          (by simp)
      exact ⟨entry, read.subset (List.mem_of_find?_eq_some found), names_of_findApplied found,
        rfl, rfl⟩
  | @replaced before sha256Hex ts version expect appended mode fresh =>
      obtain ⟨version, seq, mem⟩ := Remembers.landed facts
        (replacedEvent site.digest command sha256Hex ts version) expect appended (by simp) fresh
      exact ⟨_, mem, rfl, version.symm, by rw [version]; rfl⟩
  | @replacedAgain before sha256Hex ts version expect appended current seq mode duplicate =>
      have told := Facts.within hears
      exact (told rfl (.duplicate (.replaced mode sha256Hex ts version) duplicate)).2 mode

theorem answers_of_reports {w : World} {command : UploadCompleted} {trace : Trace Ports}
    {version : Nat} {superseded : Bool} (published : site.publishes command)
    (facts : site.Remembers w trace) (hears : site.Hears command w trace)
    (reports : Reports site.digest command trace version superseded) :
    Answers w.log command version superseded := by
  cases reports with
  | accepted since accepts => exact answers_of_accepts facts hears since accepts
  | @expired entryAnswer history entry found =>
      have read : history <+: w.log.streams command.streamKey :=
        Remembers.known facts (.readStream command.tenantId command.documentId) (.ok history)
          (by simp)
      have told := hears [⟨.kvEntry command.recordKey, entryAnswer⟩]
        (.readStream command.tenantId command.documentId) (.ok history) [] rfl
      exact ⟨entry, read.subset (List.mem_of_find?_eq_some found), names_of_findApplied found,
        rfl, told ⟨entryAnswer, rfl⟩ entry found⟩
  | @replayed state revision version superseded accepted =>
      have tells : site.Tells w.log command.recordKey state.status :=
        hears [] (.kvEntry command.recordKey) (.ok (some (.put state revision))) [] rfl
      rw [accepted] at tells
      exact tells command published rfl

/-- What stands behind a status also answers for the record it is written to. -/
theorem tells_of_settles {w : World} {command : UploadCompleted} {trace : Trace Ports}
    {status : UploadStatus} (published : site.publishes command)
    (facts : site.Remembers w trace) (hears : site.Hears command w trace)
    (settles : Settles site.digest command trace status) :
    site.Tells w.log command.recordKey status := by
  cases status with
  | accepted version superseded =>
      obtain ⟨start, since, accepts⟩ := settles
      intro other published' same
      obtain ⟨streams, uploads⟩ := site.same_upload published' published same
      obtain ⟨entry, mem, names, answered⟩ := answers_of_accepts facts hears since accepts
      exact ⟨entry, streams ▸ mem, uploads ▸ names, answered⟩
  | _ => trivial

/-! ### One step -/

/-- The head answers for the upload while the upload's event is it. -/
theorem answers_of_stillHead {log : EventStoreState} {command : UploadCompleted}
    {version seq : Nat} (sound : site.SoundLog log) (published : site.publishes command)
    (named : Named log command) (stillHead : StillHead log command)
    (last : log.last command.tenantId command.documentId = some (version, seq)) :
    (command.mode = .create → Answers log command version false) ∧
    (command.mode = .replace →
      Answers log command version (basedElsewhere command.ifMatch version)) := by
  obtain ⟨entry, mem, names⟩ := named
  obtain ⟨isHead, based⟩ := stillHead entry mem names
  obtain ⟨front, event, shape, headed⟩ := EventStoreState.last_eq_some last
  have same : entry.2.version = version := by
    rw [isHead, UploadCompleted.streamKey, shape, headVersion_snoc, headed]
  refine ⟨fun mode => ⟨entry, mem, names, same, ?_⟩, fun mode => ⟨entry, mem, names, same, ?_⟩⟩
  · obtain ⟨other, written, modes, -⟩ := sound.writer_of_names published mem names
    generalize entry.2 = event at written
    cases written with
    | created mode' sha256Hex ts => rfl
    | replaced mode' sha256Hex ts version =>
        rw [mode', mode] at modes
        cases modes
  · rw [supersededFlag_eq, based mode, same]

/-- Whoever asks for the head again has an upload the log names. -/
theorem named_of_rereads {w : World} {command : UploadCompleted} {trace : Trace Ports}
    (sound : site.SoundLog w.log) (published : site.publishes command)
    (facts : site.Remembers w trace) (rereads : site.Rereads command trace)
    (nonempty : w.log.streams command.streamKey ≠ []) : Named w.log command := by
  cases rereads with
  | @duplicate before event expect appended written duplicate =>
      exact Remembers.named_of_duplicate facts sound published written expect appended (by simp)
        duplicate
  | conflict mode => exact sound.named_of_create published mode nonempty

/-- The answer of a timely call is told from then on. -/
theorem told_of_served {c c' : DeliveryRun} {n : Nat} {t : Task Ports Delivery FinishOutcome}
    {op : PortCall} {answer : op.Ans} {w' : World} (known : site.invariants.Holds site.system c)
    (found : c.tasks[n]? = some t) (issued : Issues site.digest t.input.command t.trace op)
    (served : c.shared.serves op answer w') (timely : site.Timely c (.call n op answer) c')
    (tells : UploadBucket.Statuses (site.Tells w'.log) w'.records) :
    site.told t.input.command w'.log t.trace op answer := by
  have knows := known.tasks t (System.mem_of_found found)
  obtain ⟨headTimely, readTimely⟩ := timely n t found
  cases op with
  | kvEntry key =>
      obtain ⟨-, sameRecords, answered⟩ := served
      match answer, answered with
      | .ok (some (.put state revision)), answered =>
          have live : w'.records.live key = some state := by
            rw [sameRecords]
            exact KvBucket.live_eq_some.mpr ⟨revision, eq_of_answered answered⟩
          exact tells key state live
      | .ok (some (.marker revision)), _ => trivial
      | .ok none, _ => trivial
      | .error error, _ => trivial
  | last tenant documentId =>
      obtain ⟨⟨sameLog, answered⟩, -⟩ := served
      match answer, answered with
      | .ok none, _ => trivial
      | .error error, _ => trivial
      | .ok (some (version, seq)), answered =>
          intro addressed rereads
          cases addressed
          have last : c.shared.log.last t.input.command.tenantId t.input.command.documentId =
              some (version, seq) :=
            eq_of_answered answered
          obtain ⟨front, event, shape, -⟩ := EventStoreState.last_eq_some last
          have nonempty : c.shared.log.streams t.input.command.streamKey ≠ [] := by
            rw [UploadCompleted.streamKey, shape]
            simp
          have named := named_of_rereads known.inv.log knows.input knows.facts rereads nonempty
          rw [sameLog]
          exact answers_of_stillHead known.inv.log knows.input named
            (headTimely _ _ _ rfl rereads) last
  | readStream tenant documentId =>
      obtain ⟨⟨-, answered⟩, -⟩ := served
      match answer, answered with
      | .error error, _ => trivial
      | .ok history, answered =>
          intro discards entry applied
          have read : history = c.shared.log.streams t.input.command.streamKey := by
            obtain ⟨rfl, rfl⟩ := issued
            rcases answered with same | ⟨error, same⟩
            · exact Except.ok.inj same
            · cases same
          refine readTimely _ _ _ rfl discards entry ?_ (names_of_findApplied applied)
          rw [← read]
          exact List.mem_of_find?_eq_some applied
  | _ => trivial

theorem tells_of_served {w w' : World} {command : UploadCompleted} {trace : Trace Ports}
    {op : PortCall} {answer : op.Ans} (published : site.publishes command)
    (facts : site.Remembers w trace) (hears : site.Hears command w trace)
    (tells : UploadBucket.Statuses (site.Tells w.log) w.records)
    (issued : Issues site.digest command trace op) (served : w.serves op answer w') :
    UploadBucket.Statuses (site.Tells w'.log) w'.records := by
  have grows := EventStoreState.serves_grows served.1
  suffices before : UploadBucket.Statuses (site.Tells w.log) w'.records from
    before.imp fun _ _ tells => tells.grows grows
  cases op with
  | kvUpdate key state revision =>
      obtain ⟨before, old, status, now, rfl, open_, rfl, rfl, settles⟩ := issued
      obtain ⟨earlier, -, ⟨-, owned⟩, -⟩ := facts_snoc.mp facts
      have written : site.Tells w.log old.ownKey status := by
        rw [owned]
        exact tells_of_settles published earlier (facts_snoc.mp hears).1 settles
      rcases UploadBucket.Swaps.effect served.2 with same | same
      · exact same ▸ tells
      · rw [same]
        exact tells.put written
  | _ => exact UploadBucket.serves_same served.2 (by simp) ▸ tells

theorem tells_of_disturbed {w w' : World}
    (tells : UploadBucket.Statuses (site.Tells w.log) w.records)
    (disturbed : World.Disturbed site.Others w w') : w.log.Grows w'.log ∧
      UploadBucket.Statuses (site.Tells w'.log) w'.records := by
  cases disturbed with
  | forgot key => exact ⟨EventStoreState.Grows.refl _, tells⟩
  | written event allowed =>
      have grows := w.log.push_grows event
      exact ⟨grows, tells.imp fun _ _ tells => tells.grows grows⟩
  | @preflight records state starts created =>
      obtain ⟨-, rfl⟩ := KvBucket.create_eq_some created
      exact ⟨EventStoreState.Grows.refl _, tells.put (by rw [starts]; trivial)⟩
  | marked now found open_ => exact ⟨EventStoreState.Grows.refl _, tells.put trivial⟩
  | expired key => exact ⟨EventStoreState.Grows.refl _, tells.expire key⟩
  | purged key => exact ⟨EventStoreState.Grows.refl _, tells.purge key⟩

/-! ### Timely runs -/

theorem answering_holds {c : DeliveryRun}
    (reached : site.system.Reaches site.Timely ⟨.empty, []⟩ c) :
    site.answering.Holds site.system c := by
  have both : site.system.Reaches (fun c l c' => site.Timely c l c' ∧
      site.invariants.Holds site.system c) ⟨.empty, []⟩ c :=
    reached.imp fun _ _ _ earlier _ timely => ⟨timely, holds earlier⟩
  refine Invariants.holds_of_reaches (I := site.answering) (fun _ _ live => by cases live)
    (fun _ _ _ _ => trivial) ?_ ?_ both
  · intro c n t op next answer w' hearing found stands served met
    obtain ⟨timely, known⟩ := met
    have knows := known.tasks t (System.mem_of_found found)
    have hears := (hearing.tasks t (System.mem_of_found found)).facts
    have issued := knows.issues along_finish stands
    have tells := tells_of_served knows.input knows.facts hears hearing.inv issued served
    exact ⟨⟨tells, fun _ h => h, fun delivery before op answer =>
      told_grows (EventStoreState.serves_grows served.1) delivery.command before op answer⟩,
      told_of_served known found issued served timely tells⟩
  · intro c w' hearing disturbed _
    obtain ⟨grows, tells⟩ := tells_of_disturbed hearing.inv disturbed
    exact ⟨tells, fun _ h => h, fun delivery before op answer =>
      told_grows grows delivery.command before op answer⟩

/-- In every timely run, the answer a delivery returns and the answer a record
holds are those of the upload's event in the log. -/
theorem answer_is_logged {c : DeliveryRun}
    (reached : site.system.Reaches site.Timely ⟨.empty, []⟩ c) :
    (∀ t ∈ c.tasks, ∀ documentId version superseded,
      t.rest = .ret (.accepted documentId version superseded) →
      Answers c.shared.log t.input.command version superseded) ∧
    (∀ command state version superseded, site.publishes command →
      c.shared.records.live command.recordKey = some state →
      state.status = .accepted version superseded →
      Answers c.shared.log command version superseded) := by
  have hearing := answering_holds reached
  constructor
  · intro t mem documentId version superseded returned
    have knows := (holds reached).tasks t mem
    have returns := knows.returns along_finish returned
    exact answers_of_reports knows.input knows.facts (hearing.tasks t mem).facts returns.2
  · intro command state version superseded published live accepted
    have tells := hearing.inv command.recordKey state live
    rw [accepted] at tells
    exact tells command published rfl

instance (log : EventStoreState) (command : UploadCompleted) :
    Decidable (StillHead log command) := by
  unfold StillHead
  infer_instance

instance (log : EventStoreState) (command : UploadCompleted) :
    Decidable (NotSuperseding log command) := by
  unfold NotSuperseding
  infer_instance

/-- A check of `Timely` for the delivery whose turn it is. -/
def timely (c : DeliveryRun) (n : Nat) : Bool :=
  match c.tasks[n]? with
  | none => true
  | some t =>
      match t.rest.issues with
      | some (.last _ _) => decide (StillHead c.shared.log t.input.command)
      | some (.readStream _ _) => decide (NotSuperseding c.shared.log t.input.command)
      | _ => true

theorem timely_sound {c c' : DeliveryRun} {n : Nat} {t : Task Ports Delivery FinishOutcome}
    {op : PortCall} {answer : op.Ans} {next : op.Ans → Program Ports FinishOutcome}
    (found : c.tasks[n]? = some t) (stands : t.rest = .call op next)
    (checked : timely c n = true) : site.Timely c (.call n op answer) c' := by
  intro m u found'
  refine ⟨fun tenant documentId answer' label _ => ?_, fun tenant documentId answer' label _ => ?_⟩
  · cases label
    obtain rfl : t = u := Option.some.inj (found.symm.trans found')
    simpa [timely, found, stands] using checked
  · cases label
    obtain rfl : t = u := Option.some.inj (found.symm.trans found')
    simpa [timely, found, stands] using checked

/-- A document is created, and two overlapping deliveries of one replacement both
give its answer. -/
theorem answer_is_logged_of_overlap :
    ∃ c, Sample.site.system.Reaches Sample.site.Timely ⟨.empty, []⟩ c ∧
      ∃ t ∈ c.tasks, t.input.finalDelivery = true ∧ t.rest = .ret (.accepted "doc" 2 false) ∧
        Answers c.shared.log t.input.command 2 false := by
  have start : Sample.site.system.Reaches Sample.site.Timely ⟨.empty, []⟩
      (Sample.started [⟨Sample.create, false⟩, ⟨Sample.replace, false⟩, ⟨Sample.replace, true⟩]) := by
    refine Sample.reaches_started ?_ _ (by simp [Sample.site])
    intro c l c' _ quiet n t _
    exact ⟨fun tenant documentId answer label => absurd label (quiet n _ answer),
      fun tenant documentId answer label => absurd label (quiet n _ answer)⟩
  let world : Sample.site.system.Reply := truthfully 4 "3a6eb079"
  let schedule := List.replicate 12 0 ++ List.replicate 10 1 ++ List.replicate 10 2 ++
    List.replicate 4 1 ++ List.replicate 5 2
  let finished : DeliveryRun := schedule.foldl world.reply
    (Sample.started [⟨Sample.create, false⟩, ⟨Sample.replace, false⟩, ⟨Sample.replace, true⟩])
  have reached : Sample.site.system.Reaches Sample.site.Timely ⟨.empty, []⟩ finished :=
    start.checked world (fun _ _ _ _ _ => timely_sound) schedule (by decide +kernel)
  have done : ∃ t ∈ finished.tasks, t.input.finalDelivery = true ∧
      t.rest.returned = some (.accepted "doc" 2 false) := by decide +kernel
  obtain ⟨t, mem, final, returned⟩ := Task.exists_ret done
  exact ⟨_, reached, t, mem, final, returned, (answer_is_logged reached).1 t mem _ _ _ returned⟩

/-- A create is appended, another writer's version lands, and the redelivery of
the create reports that one. -/
theorem answer_overtaken :
    ∃ c, Sample.site.system.Reaches System.anyStep ⟨.empty, []⟩ c ∧
      (∃ t ∈ c.tasks, t.input.command.uploadId = "u1" ∧ t.rest = .ret (.accepted "doc" 2 false)) ∧
      (c.shared.records.live Sample.create.recordKey).map (fun state => state.status) =
        some (.accepted 2 false) ∧
      ¬ Answers c.shared.log Sample.create 2 false := by
  let world : Sample.site.system.Reply := truthfully 4 "3a6eb079"
  have start : Sample.site.system.Reaches System.anyStep ⟨.empty, []⟩
      (Sample.started [⟨Sample.create, false⟩, ⟨Sample.create, false⟩]) :=
    Sample.reaches_started (fun _ _ _ _ _ => trivial) _ (by simp [Sample.site])
  -- The first delivery appends and is lost before it records its answer.
  have appended := start.replies world (List.replicate 9 0)
  have overtaken := appended.disturbed _
    (World.Disturbed.written Sample.rename (Sample.others_rename (by decide +kernel))) trivial
  have finished := overtaken.replies world (List.replicate 13 1)
  refine ⟨_, finished, Task.exists_ret (by decide +kernel), by decide +kernel, ?_⟩
  unfold Answers
  decide +kernel

end Site

end Delphi.Document
