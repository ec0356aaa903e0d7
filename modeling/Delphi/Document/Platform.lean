/-
# Delphi.Document.Platform -- uploads from preflight to finish, as one system

The API's preflights and completes and the worker's deliveries, any number of
each, interleaved call by call.  A delivery is only of a command some complete
published; the read model answers with the fold of any prefix of the log, so it
lags as it likes; other writers append what introduces no content, a
`DocumentDeleted` among them, wherever they like.

`Unrevived` is the law of a stream: nothing validated behind a deletion.  It
holds along every run in which no head is read for a replacement while the
stream holds a deletion (`deleted_documents_stay`), and a run in which one is
breaks it (`deleted_document_replaced`).
-/
import Delphi.Document.Deletion

namespace Delphi.Document

open Delphi.Theory
open DocumentService UploadFinisher

set_option autoImplicit false

/-! ## The worker's paths among the API's calls -/

section ViaPorts

def sharedCall : Call ServicePorts → Option (Call Ports)
  | ⟨.port op, answer⟩ => some ⟨op, answer⟩
  | _ => none

/-- The calls of a trace on the ports the worker has too. -/
def unport (trace : Trace ServicePorts) : Trace Ports := trace.filterMap sharedCall

/-- What is known of the answers, of those on the worker's ports. -/
def viaFact (A : Trace Ports → (op : PortCall) → op.Ans → Prop) (trace : Trace ServicePorts) :
    (op : ServiceCall) → op.Ans → Prop
  | .port op, answer => A (unport trace) op answer
  | _, _ => True

/-- What is known of the calls, of those on the worker's ports. -/
def viaCall (P : Trace Ports → PortCall → Prop) (trace : Trace ServicePorts) : ServiceCall → Prop
  | .port op => P (unport trace) op
  | _ => True

variable {A : Trace Ports → (op : PortCall) → op.Ans → Prop} {P : Trace Ports → PortCall → Prop}
  {trace : Trace ServicePorts}

@[simp] theorem unport_snoc (op : PortCall) (answer : op.Ans) :
    unport (trace ++ [⟨.port op, answer⟩]) = unport trace ++ [⟨op, answer⟩] := by
  simp [unport, sharedCall]

theorem unport_snoc_of_none {call : Call ServicePorts} (other : sharedCall call = none) :
    unport (trace ++ [call]) = unport trace := by
  simp [unport, other]

theorem facts_unport (facts : Facts (viaFact A) trace) : Facts A (unport trace) := by
  induction trace using List.reverseRecOn with
  | nil => exact facts_nil
  | append_singleton trace call ih =>
      obtain ⟨op, answer⟩ := call
      obtain ⟨earlier, last⟩ := facts_snoc.mp facts
      cases op with
      | port op =>
          rw [unport_snoc]
          exact facts_snoc.mpr ⟨ih earlier, last⟩
      | _ =>
          rw [unport_snoc_of_none rfl]
          exact ih earlier

/-- The path logic of a worker's program, run among the API's. -/
theorem along_sharedPorts {α : Type} {Q : Trace Ports → α → Prop} {p : Program Ports α}
    (along : Along A P Q (unport trace) p) :
    Along (viaFact A) (viaCall P) (fun reached value => Q (unport reached) value) trace
      (viaPorts p) := by
  induction p generalizing trace with
  | ret value => exact along
  | call op next ih =>
      refine ⟨along.1, fun answer known => ih answer ?_⟩
      rw [unport_snoc]
      exact along.2 answer known

end ViaPorts

/-! ## The system -/

inductive Job where
  | preflight (policy : UploadPolicy) (principal : Principal) (preflightRequest : PreflightRequest)
  | complete (principal : Principal) (uploadId : String) (completeRequest : CompleteRequest)
  | finish (delivery : Delivery)

inductive JobResult where
  | opened (result : Except DocumentError PreflightResponse)
  | completed (result : Except DocumentError Unit)
  | finished (outcome : FinishOutcome)

def JobResult.outcome : JobResult → Option FinishOutcome
  | .finished outcome => some outcome
  | _ => none

def Job.main (digest : String → String) : Job → Program ServicePorts JobResult
  | .preflight policy principal preflightRequest => do
      let result ← DocumentService.preflight policy principal.tenantId principal.userId preflightRequest
      return .opened result
  | .complete principal uploadId completeRequest => do
      let result ← DocumentService.complete principal.tenantId principal.userId uploadId completeRequest
      return .completed result
  | .finish delivery => do
      let outcome ← viaPorts (UploadFinisher.finish digest delivery.command delivery.finalDelivery)
      return .finished outcome

/-- The stores, and the work items published so far. -/
structure Platform where
  world : World
  queue : List UploadCompleted

namespace Platform

def empty : Platform := ⟨.empty, []⟩

/-- What creating a record may answer, and what the bucket then holds. -/
inductive Creating (b : UploadBucket) (state : UploadState) :
    Except ContextError Unit → UploadBucket → Prop where
  | created {b' : UploadBucket} (absent : b.create state.ownKey state = some b') :
      Creating b state (.ok ()) b'
  | unacknowledged {b' : UploadBucket} (absent : b.create state.ownKey state = some b')
      (error : ContextError) : Creating b state (.error error) b'
  | refused (error : ContextError) : Creating b state (.error error) b

/-- The read model: the fold of a prefix of the document's log, however short. -/
def Projected (log : EventStoreState) (tenant documentId : String) :
    Except ReadError (Option DocumentState) → Prop
  | .error _ => True
  | .ok found => ∃ shown, shown <+: log.readStream tenant documentId ∧ foldHistory shown = .ok found

/-- What a call may answer, and what it leaves behind. -/
def serves (p : Platform) : (op : ServiceCall) → op.Ans → Platform → Prop
  | .port op, answer, p' => p.world.serves op answer p'.world ∧ p'.queue = p.queue
  | .createUpload state, answer, p' => p'.world.log = p.world.log ∧ p'.queue = p.queue ∧
      Creating p.world.records state answer p'.world.records
  | .deleteUpload tenant user uploadId, answer, p' =>
      p' = ⟨⟨p.world.log, p.world.records.purge (UploadState.key tenant user uploadId)⟩, p.queue⟩ ∨
      (p' = p ∧ ∃ error, answer = .error error)
  | .getDocument tenant documentId, answer, p' => p' = p ∧ Projected p.world.log tenant documentId answer
  | .publishUploadCompleted command, answer, p' => p' = ⟨p.world, p.queue ++ [command]⟩ ∨
      (p' = p ∧ ∃ error, answer = .error error)
  | .beginMultipart _ _, _, p' => p' = p
  | .ulid, _, p' => p' = p

/-- What else happens: dedupe windows elapse, other writers append, records expire. -/
inductive Disturbed (p : Platform) : Platform → Prop where
  | forgot (key : StreamKey × String) : Disturbed p ⟨⟨p.world.log.forget key, p.world.records⟩, p.queue⟩
  | written (event : DocumentEvent) (noBlob : event.payload.blobRef = none) :
      Disturbed p ⟨⟨p.world.log.push event, p.world.records⟩, p.queue⟩
  | expired (key : String) : Disturbed p ⟨⟨p.world.log, p.world.records.expire key⟩, p.queue⟩

/-- A delivery is of a published command; requests come at any time. -/
def Admits (p : Platform) : Job → Prop
  | .finish delivery => delivery.command ∈ p.queue
  | _ => True

def system (digest : String → String) : System ServicePorts Platform Job JobResult where
  main := Job.main digest
  admits := Admits
  serves _ op p answer p' := p.serves op answer p'
  environment := Disturbed

end Platform

abbrev PlatformRun := Config ServicePorts Platform Job JobResult

/-! ## What a job appends -/

/-- New content comes from a replace delivery, right behind its read of the head. -/
def Job.Appends (job : Job) (trace : Trace ServicePorts) : ServiceCall → Prop
  | .port (.append event expect) => event.isBlobValidated = true → ∃ delivery,
      job = .finish delivery ∧ delivery.command.mode = .replace ∧
      AppendsOnHead delivery.command (unport trace) (.append event expect)
  | _ => True

/-- A replace delivery that read of a deletion was rejected. -/
def Job.Returns (job : Job) (trace : Trace ServicePorts) : JobResult → Prop
  | .finished outcome => ∀ delivery, job = .finish delivery → delivery.command.mode = .replace →
      RejectsDeleted delivery.command (unport trace) outcome
  | _ => True

/-- What is assumed of a delivery's answers: those of a replace upload come as its path
logic asks for. -/
def Job.Assumes (job : Job) (trace : Trace ServicePorts) (op : ServiceCall) (answer : op.Ans) : Prop :=
  ∀ delivery, job = .finish delivery → delivery.command.mode = .replace →
    viaFact (HeadReadsClear delivery.command) trace op answer

section JobPaths

-- Elaborating against `preflight` would otherwise run it.
attribute [local irreducible] trim

variable {trace : Trace ServicePorts}

/-- Not an append. -/
def Appendless : ServiceCall → Prop
  | .port (.append _ _) => False
  | _ => True

theorem Appendless.appends {job : Job} {op : ServiceCall}
    (other : Appendless op) : job.Appends trace op := by
  cases op with
  | port op =>
      cases op with
      | append event expect => exact other.elim
      | _ => trivial
  | _ => trivial

theorem appendless_load {tenantId userId uploadId : String} :
    Along anyAnswer (fun _ op => Appendless op) (fun _ _ => True) trace
      (loadContext tenantId userId uploadId) := by
  refine ⟨trivial, fun answer _ => ?_⟩
  match answer with
  | .error (.read message) => trivial
  | .error (.decode message) => trivial
  | .ok none => trivial
  | .ok (some (.marker revision)) => trivial
  | .ok (some (.put state revision)) =>
      refine Along.bind (Q := fun _ _ => True) ?_ fun reached found _ => ?_
      · simp only [Program.bind, Program.pure_eq]
        split <;> trivial
      · rcases found with error | (_ | context) <;> trivial

theorem appendless_setStatus {tenantId userId uploadId : String} {status : UploadStatus}
    {now : Timestamp} :
    Along anyAnswer (fun _ op => Appendless op) (fun _ _ => True) trace
      (viaPorts (Transition.setStatus tenantId userId uploadId status now)) := by
  have along : Along (fun _ _ _ => True) (fun _ op => Appendless (.port op)) (fun _ _ => True)
      (unport trace) (Transition.setStatus tenantId userId uploadId status now) :=
    (Transition.along_setStatus _ (fun _ _ _ => trivial) fun _ _ _ _ _ => trivial).imp
      fun _ _ _ => trivial
  refine ((along_sharedPorts along).assuming fun _ op _ _ => ?_).calls fun _ op issued => ?_
  · cases op <;> trivial
  · cases op <;> exact issued

theorem appendless_complete {tenantId userId uploadId : String} {completeRequest : CompleteRequest} :
    Along anyAnswer (fun _ op => Appendless op) (fun _ _ => True) trace
      (complete tenantId userId uploadId completeRequest) := by
  unfold complete
  split
  · trivial
  · refine Along.bind appendless_load fun reached result _ => ?_
    cases result with
    | error error => trivial
    | ok context =>
        dsimp only
        split
        · trivial
        · refine along_perform trivial fun _ _ => along_perform trivial fun answer _ => ?_
          cases answer with
          | error error => trivial
          | ok _ =>
              refine along_perform trivial fun now _ => ?_
              refine Along.bind appendless_setStatus fun reached result _ => ?_
              cases result <;> trivial

theorem appendless_resolveTarget {tenantId : String} {documentId : Option String} :
    Along anyAnswer (fun _ op => Appendless op) (fun _ _ => True) trace
      (resolveTarget tenantId documentId) := by
  unfold resolveTarget
  cases documentId with
  | none => exact along_perform trivial fun _ _ => trivial
  | some documentId =>
      refine Along.bind (Q := fun _ _ => True) ?_ fun reached result _ => ?_
      · refine along_perform trivial fun answer _ => ?_
        rcases answer with error | (_ | last)
        · trivial
        · trivial
        · refine along_perform trivial fun answer _ => ?_
          rcases answer with error | (_ | document)
          · trivial
          · trivial
          · dsimp only
            split <;> trivial
      · cases result <;> trivial

theorem appendless_openUpload {tenantId userId documentId filename contentType : String}
    {mode : UploadMode} {size partSize partsTotal : Nat} :
    Along anyAnswer (fun _ op => Appendless op) (fun _ _ => True) trace
      (openUpload tenantId userId documentId mode filename contentType size partSize partsTotal) := by
  refine along_perform trivial fun uploadId _ => along_perform trivial fun answer _ => ?_
  cases answer with
  | error error => trivial
  | ok multipartUploadId =>
      refine along_perform trivial fun now _ => along_perform trivial fun answer _ => ?_
      cases answer with
      | ok _ => trivial
      | error error => exact ⟨trivial, fun _ _ => ⟨trivial, fun _ _ => trivial⟩⟩

theorem appendless_preflight {policy : UploadPolicy} {tenantId userId : String}
    {preflightRequest : PreflightRequest} :
    Along anyAnswer (fun _ op => Appendless op) (fun _ _ => True) trace
      (preflight policy tenantId userId preflightRequest) := by
  unfold preflight
  dsimp only
  split
  · trivial
  split
  · trivial
  split
  · trivial
  split
  · trivial
  · refine Along.bind appendless_resolveTarget fun reached result _ => ?_
    cases result with
    | error error => trivial
    | ok target => exact appendless_openUpload

/-- A request appends nothing, so it appends as any job may. -/
theorem along_request {α : Type} {job : Job} {p : Program ServicePorts α}
    (result : α → JobResult) (unfinished : ∀ value outcome, result value ≠ .finished outcome)
    (appendless : Along anyAnswer (fun _ op => Appendless op) (fun _ _ => True) [] p) :
    Along job.Assumes job.Appends job.Returns []
      (p >>= fun value => (pure (result value) : Program ServicePorts JobResult)) := by
  refine Along.bind ((appendless.assuming fun _ _ _ _ => trivial).calls
    fun _ _ => Appendless.appends) fun reached value _ => ?_
  rw [Program.pure_eq, along_ret]
  cases shape : result value with
  | finished outcome => exact absurd shape (unfinished value outcome)
  | _ => trivial

theorem appends_createdEvent {digest : String → String} {command : UploadCompleted}
    {shared : Trace Ports} {event : DocumentEvent} {expect : Expect} (mode : command.mode ≠ .replace)
    (appends : Appends digest command shared event expect) : event.isBlobValidated = false := by
  cases appends with
  | create create verified => rfl
  | replace replace => exact absurd replace mode

/-- A delivery of a create upload appends the first event of its document. -/
theorem along_creates {digest : String → String} {delivery : Delivery}
    (mode : delivery.command.mode ≠ .replace) :
    Along (Job.finish delivery).Assumes (Job.finish delivery).Appends (Job.finish delivery).Returns []
      (Job.main digest (.finish delivery)) := by
  have along : Along (fun _ _ _ => True) (Issues digest delivery.command)
      (Returns digest delivery.command) (unport []) (finish digest delivery.command delivery.finalDelivery) :=
    along_finish
  refine Along.bind (((along_sharedPorts along).assuming fun _ op _ _ => ?_).calls fun _ op issued => ?_)
    fun reached outcome _ => ?_
  · cases op <;> trivial
  · cases op with
    | port op =>
        cases op with
        | append event expect =>
            intro validated
            rw [appends_createdEvent mode issued] at validated
            cases validated
        | _ => trivial
    | _ => trivial
  · rintro other ⟨⟩ replace
    exact absurd replace mode

/-- Every path of a job. -/
theorem along_job {digest : String → String} (job : Job) :
    Along job.Assumes job.Appends job.Returns [] (job.main digest) := by
  cases job with
  | preflight policy principal preflightRequest =>
      exact along_request .opened (by simp) appendless_preflight
  | complete principal uploadId completeRequest =>
      exact along_request .completed (by simp) appendless_complete
  | finish delivery =>
      by_cases mode : delivery.command.mode = .replace
      · have along : Along (HeadReadsClear delivery.command) (AppendsOnHead delivery.command)
            (RejectsDeleted delivery.command) (unport [])
            (finish digest delivery.command delivery.finalDelivery) := along_finishes mode
        refine Along.bind (((along_sharedPorts along).assuming fun _ _ _ assumed => assumed delivery rfl mode).calls
          fun _ op issued => ?_) fun reached outcome rejects => ?_
        · cases op with
          | port op =>
              cases op with
              | append event expect => exact fun _ => ⟨delivery, rfl, mode, issued⟩
              | _ => trivial
          | _ => trivial
        · rintro other ⟨⟩ _
          exact rejects
      · exact along_creates mode

end JobPaths

/-! ## The law of a stream -/

/-- Nothing validated behind a deletion. -/
def Unrevived (stream : List Entry) : Prop :=
  stream.Pairwise fun earlier later => earlier.2.isDeleted = true → later.2.isBlobValidated = false

instance (stream : List Entry) : Decidable (Unrevived stream) :=
  inferInstanceAs (Decidable (stream.Pairwise _))

theorem Unrevived.snoc {stream : List Entry} {entry : Entry} (unrevived : Unrevived stream)
    (clear : entry.2.isBlobValidated = true → ¬ HoldsDeletion stream) :
    Unrevived (stream ++ [entry]) := by
  refine List.pairwise_append.mpr ⟨unrevived, List.pairwise_singleton _ _, ?_⟩
  intro earlier mem later new deleted
  obtain rfl := List.mem_singleton.mp new
  cases validated : later.2.isBlobValidated with
  | false => rfl
  | true => exact absurd ⟨earlier, mem, deleted⟩ (clear validated)

theorem not_isBlobValidated {event : DocumentEvent} (noBlob : event.payload.blobRef = none) :
    event.isBlobValidated = false := by
  unfold DocumentEvent.isBlobValidated
  cases payload : event.payload with
  | documentBlobValidated blob =>
      rw [payload] at noBlob
      cases noBlob
  | _ => rfl

namespace EventStoreState

variable {log log' : EventStoreState}

/-- A consistent log with no content behind a deletion. -/
structure Lawful (log : EventStoreState) : Prop where
  consistent : log.Consistent
  unrevived : ∀ key, Unrevived (log.streams key)

theorem lawful_empty : Lawful empty := ⟨consistent_empty, fun _ => List.Pairwise.nil⟩

theorem Lawful.push {event : DocumentEvent} (lawful : log.Lawful)
    (clear : event.isBlobValidated = true → ¬ HoldsDeletion (log.streams event.streamKey)) :
    (log.push event).Lawful := by
  refine ⟨lawful.consistent.push event, fun key => ?_⟩
  by_cases same : key = event.streamKey
  · subst same
    rw [push_streams_self]
    exact (lawful.unrevived _).snoc clear
  · rw [push_streams_of_ne log same]
    exact lawful.unrevived key

/-- In a consistent log a prefix that ends at the stream's last sequence is the stream. -/
theorem Consistent.eq_of_lastSeq (consistent : log.Consistent) {key : StreamKey} {shown : List Entry}
    (within : shown <+: log.streams key) (nonempty : shown ≠ [])
    (same : lastSeq (log.streams key) = lastSeq shown) : shown = log.streams key := by
  obtain ⟨rest, split⟩ := within
  rcases List.eq_nil_or_concat rest with rfl | ⟨front, entry, rfl⟩
  · simpa using split
  · obtain ⟨event, mem⟩ := lastSeq_mem nonempty
    have increasing := consistent.increasing key
    rw [← split, List.concat_eq_append, ← List.append_assoc] at increasing same
    have below := (List.pairwise_append.mp increasing).2.2 _ (List.mem_append_left _ mem) entry (by simp)
    rw [lastSeq_snoc] at same
    exact absurd same.symm (Nat.ne_of_lt below)

end EventStoreState

/-! ## Runs that read clear heads -/

/-- A replace delivery reads the head of its stream, other than to look up what a duplicate
landed as, while the stream holds no deletion. -/
def HeadsClear (c : PlatformRun) (l : Label ServicePorts Job) (_ : PlatformRun) : Prop :=
  ∀ n tenant documentId answer, l = .call n (.port (.last tenant documentId)) answer →
    ∀ t delivery, c.tasks[n]? = some t → t.input = .finish delivery →
      delivery.command.mode = .replace → ¬ EndsInAppend (unport t.trace) →
      ¬ HoldsDeletion (c.shared.world.log.streams delivery.command.streamKey)

/-- The head that was read is that of a prefix of the stream without a deletion. -/
def HeadHeld (log : EventStoreState) (command : UploadCompleted) (trace : Trace Ports) :
    (op : PortCall) → op.Ans → Prop
  | .last tenant documentId, .ok (some (_, seq)) => ¬ EndsInAppend trace →
      (tenant, documentId) = command.streamKey → ∃ shown, shown <+: log.streams command.streamKey ∧
        shown ≠ [] ∧ lastSeq shown = seq ∧ ¬ HoldsDeletion shown
  | _, _ => True

namespace Platform

def invariants : Invariants ServicePorts Platform Job where
  inv p := p.world.log.Lawful
  input _ _ := True
  fact job p trace op answer := ∀ delivery, job = .finish delivery →
    delivery.command.mode = .replace → viaFact (fun shared op answer =>
      p.world.log.known False op answer ∧ HeadReadsClear delivery.command shared op answer ∧
      HeadHeld p.world.log delivery.command shared op answer) trace op answer

theorem headHeld_grows {log log' : EventStoreState} {command : UploadCompleted} (grows : log.Grows log')
    {trace : Trace Ports} (op : PortCall) (answer : op.Ans) (held : HeadHeld log command trace op answer) :
    HeadHeld log' command trace op answer := by
  cases op with
  | last tenant documentId =>
      match answer, held with
      | .error error, _ => trivial
      | .ok none, _ => trivial
      | .ok (some (version, seq)), held =>
          intro fresh addressed
          obtain ⟨shown, within, rest⟩ := held fresh addressed
          exact ⟨shown, within.trans (grows _), rest⟩
  | _ => trivial

/-- What only grows the log keeps every fact. -/
theorem keeps_of_grows {p p' : Platform} (lawful : p'.world.log.Lawful)
    (grows : p.world.log.Grows p'.world.log) : invariants.Keeps p p' := by
  refine ⟨lawful, fun _ known => known, fun job trace op answer fact delivery same mode => ?_⟩
  have before := fact delivery same mode
  cases op with
  | port op =>
      obtain ⟨known, clear, held⟩ := before
      exact ⟨EventStoreState.known_grows grows op answer known, clear, headHeld_grows grows op answer held⟩
  | _ => trivial

theorem assumes_of_fact {job : Job} {p : Platform} {trace : Trace ServicePorts} {op : ServiceCall}
    {answer : op.Ans} (known : invariants.fact job p trace op answer) :
    job.Assumes trace op answer := by
  intro delivery same mode
  have fact := known delivery same mode
  cases op with
  | port op => exact fact.2.1
  | _ => trivial

/-- What a served call does to the log: nothing, or an append is let through. -/
theorem log_of_served {p p' : Platform} {op : ServiceCall} {answer : op.Ans}
    (served : p.serves op answer p') : p'.world.log = p.world.log ∨
      ∃ event expect, op = .port (.append event expect) ∧ p.world.log.Lets event expect ∧
        p'.world.log = p.world.log.push event := by
  cases op with
  | port op =>
      cases op with
      | append event expect =>
          rcases EventStoreState.Served.effect served.1.1 with same | ⟨lets, pushed⟩
          · exact .inl same
          · exact .inr ⟨event, expect, rfl, lets, pushed⟩
      | _ => exact .inl (EventStoreState.serves_same served.1.1 (by simp))
  | createUpload state => exact .inl served.1
  | deleteUpload tenant user uploadId =>
      rcases served with rfl | ⟨rfl, -⟩
      · exact .inl rfl
      · exact .inl rfl
  | publishUploadCompleted command =>
      rcases served with rfl | ⟨rfl, -⟩
      · exact .inl rfl
      · exact .inl rfl
  | getDocument tenant documentId =>
      obtain ⟨rfl, -⟩ := served
      exact .inl rfl
  | beginMultipart key contentType =>
      cases served
      exact .inl rfl
  | ulid =>
      cases served
      exact .inl rfl

/-- The facts of a replace delivery, on its own ports. -/
theorem facts_of_delivery {p : Platform} {delivery : Delivery} {trace : Trace ServicePorts}
    (facts : Facts (invariants.fact (.finish delivery) p) trace)
    (mode : delivery.command.mode = .replace) :
    Facts (fun shared op answer => p.world.log.known False op answer ∧
      HeadReadsClear delivery.command shared op answer ∧
      HeadHeld p.world.log delivery.command shared op answer) (unport trace) :=
  facts_unport (facts.imp fun _ _ _ known => known delivery rfl mode)

/-- The expected sequence carries the head that was read to the append. -/
theorem clear_of_appends {p : Platform} {delivery : Delivery} {trace : Trace ServicePorts}
    {event : DocumentEvent} {expect : Expect} (lawful : p.world.log.Lawful)
    (facts : Facts (invariants.fact (.finish delivery) p) trace)
    (mode : delivery.command.mode = .replace) (validated : event.isBlobValidated = true)
    (appends : AppendsOnHead delivery.command (unport trace) (.append event expect))
    (lets : p.world.log.Lets event expect) :
    ¬ HoldsDeletion (p.world.log.streams event.streamKey) := by
  obtain ⟨addressed, before, version, seq, fresh, rfl, shape⟩ := appends validated
  have known := facts_of_delivery facts mode
  rw [shape] at known
  obtain ⟨shown, within, nonempty, last, clear⟩ := (facts_snoc.mp known).2.2.2 fresh rfl
  have expected := lets.2
  rw [addressed] at expected ⊢
  rw [← lawful.consistent.eq_of_lastSeq within nonempty (expected.trans last.symm)]
  exact clear

/-- A head read of a clear stream: no history read before held a deletion, and what was
read is the head of a clear prefix from then on. -/
theorem head_of_served {p : Platform} {delivery : Delivery} {trace : Trace ServicePorts}
    {tenant documentId : String} {answer : (PortCall.last tenant documentId).Ans}
    (facts : Facts (invariants.fact (.finish delivery) p) trace)
    (mode : delivery.command.mode = .replace)
    (clear : ¬ EndsInAppend (unport trace) →
      ¬ HoldsDeletion (p.world.log.streams delivery.command.streamKey))
    (served : p.world.log.serves False (.last tenant documentId) answer p.world.log) :
    HeadReadsClear delivery.command (unport trace) (.last tenant documentId) answer ∧
      HeadHeld p.world.log delivery.command (unport trace) (.last tenant documentId) answer := by
  constructor
  · rintro fresh ⟨history, read, holds, -⟩
    obtain ⟨before, known, -⟩ := (facts_of_delivery facts mode).of_mem read
    exact clear fresh (holds.mono known)
  · match answer, served.2 with
    | .error error, _ => trivial
    | .ok none, _ => trivial
    | .ok (some (version, seq)), answered =>
        intro fresh addressed
        have found : p.world.log.last tenant documentId = some (version, seq) :=
          eq_of_answered answered
        obtain ⟨front, event, shape, -⟩ := EventStoreState.last_eq_some found
        rw [addressed] at shape
        refine ⟨_, List.prefix_rfl, ?_, ?_, clear fresh⟩
        · simp [shape]
        · rw [shape, lastSeq_snoc]

/-- The step lemma: under clear heads a served call keeps the law and loses no fact. -/
theorem keeps_of_served {digest : String → String} {c : PlatformRun} {n : Nat}
    {t : Task ServicePorts Job JobResult} {op : ServiceCall} {next : op.Ans → Program ServicePorts JobResult}
    {answer : op.Ans} {p' : Platform} (holds : invariants.Holds (system digest) c)
    (found : c.tasks[n]? = some t) (stands : t.rest = .call op next)
    (served : c.shared.serves op answer p')
    (met : HeadsClear c (.call n op answer) ⟨p', c.tasks.set n (t.answered op answer next)⟩) :
    invariants.Keeps c.shared p' ∧ invariants.fact t.input p' t.trace op answer := by
  have knows := holds.tasks t (System.mem_of_found found)
  have issued := knows.issues ((along_job t.input).assuming fun _ _ _ => assumes_of_fact) stands
  have moved := log_of_served served
  have grows : c.shared.world.log.Grows p'.world.log := by
    rcases moved with same | ⟨event, expect, -, -, pushed⟩
    · rw [same]
      exact EventStoreState.Grows.refl _
    · rw [pushed]
      exact c.shared.world.log.push_grows event
  have lawful : p'.world.log.Lawful := by
    rcases moved with same | ⟨event, expect, rfl, lets, pushed⟩
    · rw [same]
      exact holds.inv
    · rw [pushed]
      refine holds.inv.push fun validated => ?_
      obtain ⟨delivery, same, mode, appends⟩ := issued validated
      exact clear_of_appends holds.inv (same ▸ knows.facts) mode validated appends lets
  refine ⟨keeps_of_grows lawful grows, fun delivery same mode => ?_⟩
  cases op with
  | port op =>
      have known := EventStoreState.known_of_served holds.inv.consistent served.1.1
      cases op with
      | last tenant documentId =>
          have still := EventStoreState.serves_same served.1.1 (by simp)
          have clear := met n tenant documentId answer rfl t delivery found same mode
          have head := served.1.1
          rw [still] at head ⊢
          exact ⟨still ▸ known, head_of_served (same ▸ knows.facts) mode clear head⟩
      | _ => exact ⟨known, trivial, trivial⟩
  | _ => trivial

theorem keeps_of_disturbed {p p' : Platform} (lawful : p.world.log.Lawful)
    (disturbed : p.Disturbed p') : invariants.Keeps p p' := by
  cases disturbed with
  | forgot key =>
      exact keeps_of_grows ⟨lawful.consistent.forget key, lawful.unrevived⟩
        (EventStoreState.Grows.refl _)
  | written event noBlob =>
      refine keeps_of_grows (lawful.push fun validated => ?_) (p.world.log.push_grows event)
      rw [not_isBlobValidated noBlob] at validated
      cases validated
  | expired key => exact keeps_of_grows lawful (EventStoreState.Grows.refl _)

theorem holds {digest : String → String} {c : PlatformRun}
    (reached : (system digest).Reaches HeadsClear ⟨.empty, []⟩ c) :
    invariants.Holds (system digest) c := by
  refine Invariants.holds_of_reaches (I := invariants) ?_ (fun _ _ _ _ => trivial) ?_ ?_ reached
  · exact EventStoreState.lawful_empty
  · intro c n t op next answer p' holds found stands served met
    exact keeps_of_served holds found stands served met
  · intro c p' holds disturbed _
    exact keeps_of_disturbed holds.inv disturbed

end Platform

/-- In every run whose replace deliveries read clear heads, nothing is validated behind a
deletion, and a delivery that found the deletion before its own event was rejected. -/
theorem deleted_documents_stay {digest : String → String} {c : PlatformRun}
    (reached : (Platform.system digest).Reaches HeadsClear ⟨.empty, []⟩ c) :
    (∀ key, Unrevived (c.shared.world.log.streams key)) ∧
      ∀ t ∈ c.tasks, ∀ delivery outcome, t.input = .finish delivery →
        delivery.command.mode = .replace → t.rest = .ret (.finished outcome) →
        SawDeletion delivery.command (unport t.trace) → ∃ reason, outcome = .rejected reason := by
  have holds := Platform.holds reached
  refine ⟨holds.inv.unrevived, fun t mem delivery outcome same mode done saw => ?_⟩
  have knows := holds.tasks t mem
  exact knows.returns ((along_job t.input).assuming fun _ _ _ => Platform.assumes_of_fact) done delivery same mode saw

/-! ## A document replaced beside its deletion -/

namespace PlatformSample

/-- Truthful answers, an up-to-date read model, and a generator that hands out this id. -/
def answer (id : String) (p : Platform) : (op : ServiceCall) → op.Ans
  | .port op => p.world.answer 4 "3a6eb079" op
  | .beginMultipart _ _ => .ok "m1"
  | .createUpload state =>
      match p.world.records.create state.ownKey state with
      | some _ => .ok ()
      | none => .error .alreadyExists
  | .deleteUpload _ _ _ => .ok ()
  | .getDocument tenant documentId =>
      match foldHistory (p.world.log.readStream tenant documentId) with
      | .ok found => .ok found
      | .error _ => .error (.unavailable "behind")
  | .publishUploadCompleted _ => .ok ()
  | .ulid => id

def after (p : Platform) : ServiceCall → Platform
  | .port op => ⟨p.world.after op, p.queue⟩
  | .createUpload state =>
      ⟨⟨p.world.log, (p.world.records.create state.ownKey state).getD p.world.records⟩, p.queue⟩
  | .deleteUpload tenant user uploadId =>
      ⟨⟨p.world.log, p.world.records.purge (UploadState.key tenant user uploadId)⟩, p.queue⟩
  | .publishUploadCompleted command => ⟨p.world, p.queue ++ [command]⟩
  | _ => p

theorem serves_answer (id : String) (p : Platform) (op : ServiceCall) :
    p.serves op (answer id p op) (after p op) := by
  cases op with
  | port op => exact ⟨p.world.serves_answer 4 "3a6eb079" op, rfl⟩
  | createUpload state =>
      simp only [answer, after, Platform.serves]
      cases created : p.world.records.create state.ownKey state with
      | some records => exact ⟨trivial, trivial, .created created⟩
      | none => exact ⟨trivial, trivial, .refused _⟩
  | getDocument tenant documentId =>
      refine ⟨rfl, ?_⟩
      simp only [answer]
      cases folded : foldHistory (p.world.log.readStream tenant documentId) with
      | ok found => exact ⟨_, List.prefix_rfl, folded⟩
      | error error => trivial
  | deleteUpload tenant user uploadId => exact .inl rfl
  | publishUploadCompleted command => exact .inl rfl
  | beginMultipart key contentType => rfl
  | ulid => rfl

def world (id : String) : (Platform.system Sample.digest).Reply where
  answer op p := answer id p op
  after op p := after p op
  lawful _ op p := serves_answer id p op

def principal : Principal := ⟨"acme", "ann", by decide +kernel, by decide +kernel⟩

def policy : UploadPolicy := ⟨1073741824, 16777216⟩

/-- The next step is not a read of a deleted stream's head by a delivery. -/
def standsClear (c : PlatformRun) (n : Nat) : Bool :=
  match c.tasks[n]? with
  | some ⟨.finish delivery, _, .call (.port (.last _ _)) _⟩ =>
      !decide (HoldsDeletion (c.shared.world.log.streams delivery.command.streamKey))
  | _ => true

theorem headsClear_of_standsClear {c c' : PlatformRun} {n : Nat}
    {t : Task ServicePorts Job JobResult} {op : ServiceCall}
    {next : op.Ans → Program ServicePorts JobResult} {a : op.Ans} (found : c.tasks[n]? = some t)
    (stands : t.rest = .call op next) (clear : standsClear c n = true) :
    HeadsClear c (.call n op a) c' := by
  rintro _ tenant documentId _ ⟨⟩ t' delivery found' input - -
  obtain rfl : t = t' := Option.some.inj (found.symm.trans found')
  obtain ⟨_, trace, rest⟩ := t
  obtain rfl : _ = Job.finish delivery := input
  obtain rfl : rest = _ := stands
  simpa [standsClear, found] using clear

/-- Answer the next `calls` calls of the last task. -/
def drive (id : String) (calls : Nat) (c : PlatformRun) : PlatformRun :=
  (List.replicate calls (c.tasks.length - 1)).foldl (world id).reply c

def start (job : Job) (c : PlatformRun) : PlatformRun :=
  ⟨c.shared, c.tasks ++ [(Platform.system Sample.digest).started job]⟩

/-- A delivery of the last work item published. -/
def delivered (c : PlatformRun) : Job := .finish ⟨c.shared.queue.getLast?.getD Sample.create, false⟩

section Runs

variable {c : PlatformRun}

theorem reaches_start (reached : (Platform.system Sample.digest).Reaches HeadsClear ⟨.empty, []⟩ c)
    (job : Job) (admitted : c.shared.Admits job) :
    (Platform.system Sample.digest).Reaches HeadsClear ⟨.empty, []⟩ (start job c) :=
  reached.spawned job admitted fun _ _ _ _ label => nomatch label

theorem reaches_drive (reached : (Platform.system Sample.digest).Reaches HeadsClear ⟨.empty, []⟩ c)
    (id : String) (calls : Nat)
    (passes : (world id).passes standsClear c (List.replicate calls (c.tasks.length - 1)) = true) :
    (Platform.system Sample.digest).Reaches HeadsClear ⟨.empty, []⟩ (drive id calls c) :=
  reached.checked (world id) (fun _ _ _ _ _ => headsClear_of_standsClear) _ passes

theorem admits_delivered (published : c.shared.queue.isEmpty = false) :
    c.shared.Admits (delivered c) := by
  have nonempty : c.shared.queue ≠ [] := by simpa using published
  rw [delivered, List.getLast?_eq_getLast_of_ne_nil nonempty]
  exact List.getLast_mem nonempty

end Runs

/-- A preflight for this document, or for a new one. -/
def opening (documentId : Option String) : Job :=
  .preflight policy principal ⟨documentId, "a.txt", 4, some "text/plain"⟩

/-- Made on version 1, and to fail on any other. -/
def conditional : CompleteRequest := ⟨some 1, .fail, {}⟩

/-- Made on whatever version there is. -/
def unconditional : CompleteRequest := ⟨none, .supersede, {}⟩

/-- The first upload opened and completed. -/
def uploaded : PlatformRun :=
  drive "" 6 (start (.complete principal "u1" unconditional)
    (drive "u1" 4 (drive "doc" 1 (start (opening none) ⟨.empty, []⟩))))

/-- Its document created, and a replacement opened. -/
def opened : PlatformRun :=
  drive "u2" 6 (start (opening (some "doc")) (drive "" 12 (start (delivered uploaded) uploaded)))

def deletion : DocumentEvent where
  v := documentContractVersion
  eventId := "e7"
  tenantId := "acme"
  documentId := "doc"
  actor := .user "bob"
  version := 2
  ts := 0
  payload := .documentDeleted "retention"

/-- The document deleted, and the replacement completed all the same. -/
def completed (completeRequest : CompleteRequest) : PlatformRun :=
  drive "" 6 (start (.complete principal "u2" completeRequest)
    ⟨⟨⟨opened.shared.world.log.push deletion, opened.shared.world.records⟩, opened.shared.queue⟩,
      opened.tasks⟩)

theorem reaches_uploaded :
    (Platform.system Sample.digest).Reaches HeadsClear ⟨.empty, []⟩ uploaded := by
  have started := reaches_start (.refl _) (opening none) trivial
  have preflighted := reaches_drive (reaches_drive started "doc" 1 (by decide +kernel)) "u1" 4
    (by decide +kernel)
  exact reaches_drive (reaches_start preflighted (.complete principal "u1" unconditional) trivial)
    "" 6 (by decide +kernel)

theorem reaches_opened :
    (Platform.system Sample.digest).Reaches HeadsClear ⟨.empty, []⟩ opened := by
  have finished := reaches_drive (reaches_start reaches_uploaded (delivered uploaded)
    (admits_delivered (by decide +kernel))) "" 12 (by decide +kernel)
  exact reaches_drive (reaches_start finished (opening (some "doc")) trivial) "u2" 6
    (by decide +kernel)

theorem reaches_completed (completeRequest : CompleteRequest)
    (passes : (world "").passes standsClear (start (.complete principal "u2" completeRequest)
      ⟨⟨⟨opened.shared.world.log.push deletion, opened.shared.world.records⟩, opened.shared.queue⟩,
        opened.tasks⟩) (List.replicate 6 4) = true) :
    (Platform.system Sample.digest).Reaches HeadsClear ⟨.empty, []⟩ (completed completeRequest) := by
  have deleted := reaches_opened.disturbed _ (.written deletion rfl) fun _ _ _ _ label => nomatch label
  exact reaches_drive (reaches_start deleted (.complete principal "u2" completeRequest) trivial)
    "" 6 passes

end PlatformSample

open PlatformSample in
/-- A replacement made on version 1 meets the deletion as a version conflict. -/
theorem deleted_documents_stay_conflicted :
    ∃ c, (Platform.system Sample.digest).Reaches HeadsClear ⟨.empty, []⟩ c ∧
      HoldsDeletion (c.shared.world.log.streams ("acme", "doc")) ∧
      (c.tasks[5]?.bind fun t => t.rest.returned.bind JobResult.outcome) =
        some (.rejected RejectReason.versionConflict) ∧
      ∀ key, Unrevived (c.shared.world.log.streams key) := by
  have completed := reaches_completed conditional (by decide +kernel)
  have reached := reaches_drive (reaches_start completed _ (admits_delivered (by decide +kernel))) "" 16
    (by decide +kernel)
  exact ⟨_, reached, by decide +kernel, by decide +kernel, (deleted_documents_stay reached).1⟩

open PlatformSample in
/-- The document is deleted between preflight and complete; the delivery reads and folds a
deleted document, and validates its content. -/
theorem deleted_document_replaced :
    ∃ c, (Platform.system Sample.digest).Reaches System.anyStep ⟨.empty, []⟩ c ∧
      ¬ Unrevived (c.shared.world.log.streams ("acme", "doc")) ∧
      (c.tasks[5]?.bind fun t => t.rest.returned.bind JobResult.outcome) =
        some (.accepted "doc" 3 false) := by
  have completed := reaches_completed unconditional (by decide +kernel)
  have started := reaches_start completed _ (admits_delivered (by decide +kernel))
  have any : (Platform.system Sample.digest).Reaches System.anyStep ⟨.empty, []⟩ _ :=
    started.imp fun _ _ _ _ _ _ => trivial
  exact ⟨_, any.replies (world "") (List.replicate 16 5), by decide +kernel, by decide +kernel⟩

end Delphi.Document
