/-
# Delphi.Document.Effects -- what `finish` has done when it returns

`finish` has some twenty exits.  Here they are sorted by what the worker has done
to storage and to the record by then: nothing that cannot be repeated before a
retry, nothing reclaimed before an acceptance, and the reclaiming of the bytes,
once and whole, before a rejection (`Agrees`).

One invariant carries every path up to its exit: so far nothing was reclaimed and
no status written (`Quiet`).  Only `accept` and `reject` leave it, and both return.
-/
import Delphi.Document.Deliveries

namespace Delphi.Document.UploadFinisher

open Delphi.Theory

set_option autoImplicit false

/-! ## Kinds of calls -/

/-- The two calls that take bytes away. -/
def Reclaims : PortCall → Prop
  | .abortMultipart _ _ => True
  | .delete _ => True
  | _ => False

/-- The call that writes a status. -/
def WritesStatus : PortCall → Prop
  | .kvUpdate _ _ _ => True
  | _ => False

def Unreclaimed (trace : Trace Ports) : Prop := ∀ call ∈ trace, ¬ Reclaims call.1

/-- Nothing was reclaimed and no status was written. -/
def Quiet (trace : Trace Ports) : Prop :=
  ∀ call ∈ trace, ¬ Reclaims call.1 ∧ ¬ WritesStatus call.1

theorem Quiet.unreclaimed {trace : Trace Ports} (quiet : Quiet trace) : Unreclaimed trace :=
  fun call mem => (quiet call mem).1

theorem Quiet.append {trace added : Trace Ports} (quiet : Quiet trace) (more : Quiet added) :
    Quiet (trace ++ added) := by
  intro call mem
  rcases List.mem_append.mp mem with old | new
  · exact quiet call old
  · exact more call new

theorem Quiet.snoc {trace : Trace Ports} {op : PortCall} {answer : op.Ans} (quiet : Quiet trace)
    (harmless : ¬ Reclaims op ∧ ¬ WritesStatus op) : Quiet (trace ++ [⟨op, answer⟩]) := by
  refine quiet.append fun call mem => ?_
  rw [List.mem_singleton.mp mem]
  exact harmless

theorem Unreclaimed.append {trace added : Trace Ports} (first : Unreclaimed trace)
    (more : Unreclaimed added) : Unreclaimed (trace ++ added) := by
  intro call mem
  rcases List.mem_append.mp mem with old | new
  · exact first call old
  · exact more call new

/-! ## What each outcome says -/

section Outcomes

variable (command : UploadCompleted)

/-- The record was looked for first, and there was none of this upload. -/
def FoundExpired (trace : Trace Ports) : Prop :=
  ∃ answer rest, trace = ⟨.kvEntry command.recordKey, answer⟩ :: rest ∧
    (Transition.load command.tenantId command.ownerUserId command.uploadId).Resumes
      [⟨.kvEntry command.recordKey, answer⟩] (.ret (.ok none))

/-- The answer is the one a terminal record already had. -/
def Replayed (reason : String) (trace : Trace Ports) : Prop :=
  ∃ state revision, state.status = .rejected reason ∧
    trace = [⟨.kvEntry command.recordKey, .ok (some (.put state revision))⟩]

/-- One abort, then one delete, both of the command's object, and no other; then the
rejection is recorded, or the record had expired. -/
def Reclaimed (reason : String) (trace : Trace Ports) : Prop :=
  ∃ before aborted deleted rest,
    trace = before ++ ⟨.abortMultipart command.storageKey command.multipartUploadId, aborted⟩ ::
      ⟨.delete command.storageKey, deleted⟩ :: rest ∧
    Quiet before ∧ Unreclaimed rest ∧
    (FoundExpired command before ∨
      (record command (.rejected reason)).Resumes rest (.ret ()))

/-- What has been done by the time of an outcome. -/
def Agrees (trace : Trace Ports) : FinishOutcome → Prop
  | .retry _ => Quiet trace
  | .accepted _ _ _ => Unreclaimed trace
  | .rejected reason => Replayed command reason trace ∨ Reclaimed command reason trace

end Outcomes

section Paths

variable {digest : String → String} {command : UploadCompleted}
  {A : Trace Ports → (op : PortCall) → op.Ans → Prop} {trace : Trace Ports}

/-! ### Outcomes -/

theorem unreclaiming_record (status : UploadStatus) :
    Along A (fun _ op => ¬ Reclaims op) (fun _ _ => True) trace (record command status) := by
  refine along_perform id fun now _ => ?_
  refine Along.bind (Transition.along_setStatus _ (fun _ _ _ => id) fun _ _ _ _ _ => id) ?_
  exact fun _ _ _ => trivial

theorem unreclaimed_record (status : UploadStatus) :
    Along A (fun _ _ => True) (fun reached _ => ∃ added, reached = trace ++ added ∧
      Unreclaimed added ∧ (record command status).Resumes added (.ret ())) trace
      (record command status) := by
  refine (((unreclaiming_record status).path.adds fun _ _ kind => kind).calls
    fun _ _ _ => trivial).imp ?_
  rintro reached ⟨⟩ ⟨⟨-, added, rfl, path⟩, added', same, only⟩
  obtain rfl := List.append_cancel_left same
  exact ⟨added, rfl, only, path⟩

theorem agrees_accept {version : Nat} {superseded : Bool} (quiet : Quiet trace) :
    Along A (fun _ _ => True) (Agrees command) trace (accept command version superseded) := by
  refine Along.bind (unreclaimed_record (.accepted version superseded)) ?_
  rintro reached value ⟨added, rfl, only, -⟩
  exact quiet.unreclaimed.append only

theorem reclaimed_reject {reason : String} (quiet : Quiet trace) :
    Along A (fun _ _ => True) (fun reached outcome => outcome = .rejected reason ∧
      Reclaimed command reason reached) trace (reject command reason) := by
  refine Along.bind (Q := fun reached _ => ∃ aborted deleted, reached = trace ++
    [⟨.abortMultipart command.storageKey command.multipartUploadId, aborted⟩] ++
    [⟨.delete command.storageKey, deleted⟩]) ?_ ?_
  · exact along_perform trivial fun aborted _ => along_perform trivial fun deleted _ =>
      ⟨aborted, deleted, rfl⟩
  · rintro reached value ⟨aborted, deleted, rfl⟩
    refine Along.bind (unreclaimed_record (.rejected reason)) ?_
    rintro reached value ⟨added, rfl, only, path⟩
    exact ⟨rfl, trace, aborted, deleted, added, by simp, quiet, only, .inr path⟩

theorem agrees_reject {reason : String} (quiet : Quiet trace) :
    Along A (fun _ _ => True) (Agrees command) trace (reject command reason) := by
  refine (reclaimed_reject quiet).imp ?_
  rintro reached outcome ⟨rfl, reclaimed⟩
  exact .inr reclaimed

/-! ### Append paths -/

theorem quiet_resolveDuplicate (quiet : Quiet trace) (tenant documentId : String)
    (appended : Appended) :
    Along A (fun _ _ => True) (fun reached _ => Quiet reached) trace
      (resolveDuplicate tenant documentId appended) := by
  unfold resolveDuplicate
  split
  · exact quiet
  · refine along_perform trivial fun answer _ => ?_
    rcases answer with error | (_ | ⟨version, seq⟩)
    · exact quiet.snoc ⟨id, id⟩
    · exact quiet.snoc ⟨id, id⟩
    · exact quiet.snoc ⟨id, id⟩

theorem quiet_appendCreate (quiet : Quiet trace) (event : DocumentEvent) :
    Along A (fun _ _ => True) (fun reached _ => Quiet reached) trace (appendCreate event) := by
  refine along_perform trivial fun answer _ => ?_
  rcases answer with error | appended
  · cases error <;> exact quiet.snoc ⟨id, id⟩
  · exact quiet_resolveDuplicate (quiet.snoc ⟨id, id⟩) _ _ _

theorem quiet_appendUpdateFrom (quiet : Quiet trace) (tenant documentId : String)
    (clientVersion : Option Nat) (buildEvent : Nat → DocumentEvent) (attempts : Nat) :
    Along A (fun _ _ => True) (fun reached _ => Quiet reached) trace
      (appendUpdateFrom tenant documentId clientVersion buildEvent attempts) := by
  induction attempts generalizing trace with
  | zero => exact quiet
  | succ attempts ih =>
      refine along_perform trivial fun answer _ => ?_
      rcases answer with error | (_ | ⟨version, seq⟩)
      · exact quiet.snoc ⟨id, id⟩
      · exact quiet.snoc ⟨id, id⟩
      · dsimp only
        split
        · exact quiet.snoc ⟨id, id⟩
        · refine along_perform trivial fun answer _ => ?_
          have read : Quiet (trace ++ [⟨.last tenant documentId, .ok (some (version, seq))⟩]) :=
            quiet.snoc ⟨id, id⟩
          have appended : Quiet (trace ++ [⟨.last tenant documentId, .ok (some (version, seq))⟩] ++
              [⟨.append (buildEvent (version + 1)) (.exactly seq), answer⟩]) :=
            read.snoc ⟨id, id⟩
          rcases answer with error | result
          · cases error with
            | conflict => exact ih appended
            | _ => exact appended
          · exact quiet_resolveDuplicate appended _ _ _

theorem agrees_appendCreated (quiet : Quiet trace) (sha256Hex : String) :
    Along A (fun _ _ => True) (Agrees command) trace (appendCreated digest command sha256Hex) := by
  refine along_perform trivial fun ts _ => ?_
  refine Along.bind (quiet_appendCreate (quiet.snoc ⟨id, id⟩) _) fun reached result quiet => ?_
  rcases result with error | appended
  · cases error with
    | alreadyCreated =>
        refine along_perform trivial fun answer _ => ?_
        rcases answer with error | (_ | ⟨version, seq⟩)
        · exact quiet.snoc ⟨id, id⟩
        · exact quiet.snoc ⟨id, id⟩
        · exact agrees_accept (quiet.snoc ⟨id, id⟩)
    | _ => exact quiet
  · exact agrees_accept quiet

theorem agrees_appendOnto (quiet : Quiet trace) (sha256Hex : String) :
    Along A (fun _ _ => True) (Agrees command) trace (appendOnto digest command sha256Hex) := by
  refine along_perform trivial fun now _ => ?_
  refine Along.bind (quiet_appendUpdateFrom (quiet.snoc ⟨id, id⟩) _ _ _ _ updateAttempts)
    fun reached result quiet => ?_
  rcases result with error | appended
  · exact quiet
  · exact agrees_accept quiet

theorem agrees_appendReplaced (quiet : Quiet trace) (sha256Hex : String) :
    Along A (fun _ _ => True) (Agrees command) trace
      (appendReplaced digest command sha256Hex) := by
  refine along_perform trivial fun answer _ => ?_
  rcases answer with error | history
  · exact quiet.snoc ⟨id, id⟩
  have read : Quiet (trace ++
      [⟨.readStream command.tenantId command.documentId, .ok history⟩]) := quiet.snoc ⟨id, id⟩
  dsimp only
  cases findApplied history command.uploadId with
  | some entry => exact agrees_accept read
  | none =>
      dsimp only
      cases foldHistory history with
      | error error => exact agrees_reject read
      | ok result =>
          cases result with
          | none => exact agrees_reject read
          | some state =>
              dsimp only
              split
              · exact agrees_reject read
              · exact agrees_appendOnto read sha256Hex

/-! ### The pipeline -/

theorem agrees_scanAndAppend (quiet : Quiet trace) :
    Along A (fun _ _ => True) (Agrees command) trace (scanAndAppend digest command) := by
  refine along_perform trivial fun answer _ => ?_
  rcases answer with error | reader
  · exact quiet.snoc ⟨id, id⟩
  have opened : Quiet (trace ++ [⟨.openRead command.storageKey, .ok reader⟩]) :=
    quiet.snoc ⟨id, id⟩
  refine along_perform trivial fun answer _ => ?_
  rcases answer with error | ⟨verdict, sha256Hex, byteCount⟩
  · exact opened.snoc ⟨id, id⟩
  have scanned : Quiet (trace ++ [⟨.openRead command.storageKey, .ok reader⟩] ++
      [⟨.scan reader, .ok ⟨verdict, sha256Hex, byteCount⟩⟩]) := opened.snoc ⟨id, id⟩
  cases verdict with
  | infected signature => exact agrees_reject scanned
  | clean =>
      dsimp only
      split
      · exact agrees_reject scanned
      · cases command.mode with
        | create => exact agrees_appendCreated scanned sha256Hex
        | replace => exact agrees_appendReplaced scanned sha256Hex

theorem agrees_inspect (quiet : Quiet trace) (head : BlobHead) :
    Along A (fun _ _ => True) (Agrees command) trace (inspect digest command head) := by
  unfold inspect
  split
  · exact agrees_reject quiet
  · refine along_perform trivial fun answer _ => ?_
    rcases answer with error | beginning
    · exact quiet.snoc ⟨id, id⟩
    have sniffed : Quiet (trace ++
        [⟨.readPrefix command.storageKey prefixBytes, .ok beginning⟩]) := quiet.snoc ⟨id, id⟩
    refine along_perform trivial fun answer _ => ?_
    rcases answer with error | (_ | reason)
    · exact sniffed.snoc ⟨id, id⟩
    · exact agrees_scanAndAppend (sniffed.snoc ⟨id, id⟩)
    · exact agrees_reject (sniffed.snoc ⟨id, id⟩)

/-- What the assemble step leaves. -/
def AssembledQuietly (command : UploadCompleted) (trace : Trace Ports) : Assembled → Prop
  | .ready _ => Quiet trace
  | .terminal outcome => Agrees command trace outcome

theorem agrees_settleByHead (quiet : Quiet trace) :
    Along A (fun _ _ => True) (AssembledQuietly command) trace (settleByHead command) := by
  refine along_perform trivial fun answer _ => ?_
  rcases answer with error | (_ | head)
  · exact quiet.snoc ⟨id, id⟩
  · exact Along.bind (agrees_reject (quiet.snoc ⟨id, id⟩)) fun _ _ agrees => agrees
  · exact quiet.snoc ⟨id, id⟩

theorem agrees_assemble (quiet : Quiet trace) :
    Along A (fun _ _ => True) (AssembledQuietly command) trace (assemble command) := by
  refine along_perform trivial fun answer _ => ?_
  rcases answer with error | (_ | (_ | ⟨part, parts⟩))
  · exact quiet.snoc ⟨id, id⟩
  · exact agrees_settleByHead (quiet.snoc ⟨id, id⟩)
  · exact Along.bind (agrees_reject (quiet.snoc ⟨id, id⟩)) fun _ _ agrees => agrees
  have listed : Quiet (trace ++ [⟨.listParts command.storageKey command.multipartUploadId,
      .ok (some (part :: parts))⟩]) := quiet.snoc ⟨id, id⟩
  refine along_perform trivial fun answer _ => ?_
  rcases answer with ⟨kind, message⟩ | _
  · cases kind with
    | noSuchUpload => exact agrees_settleByHead (listed.snoc ⟨id, id⟩)
    | transient => exact listed.snoc ⟨id, id⟩
    | invalidParts | notFound | permanent =>
        exact Along.bind (agrees_reject (listed.snoc ⟨id, id⟩)) fun _ _ agrees => agrees
  · exact listed.snoc ⟨id, id⟩

theorem agrees_pipeline (quiet : Quiet trace) :
    Along A (fun _ _ => True) (Agrees command) trace (pipeline digest command) := by
  refine Along.bind (agrees_assemble quiet) fun reached assembled left => ?_
  rcases assembled with (_ | head) | outcome
  · refine along_perform trivial fun answer _ => ?_
    rcases answer with error | (_ | head)
    · exact Quiet.snoc left ⟨id, id⟩
    · exact agrees_reject (Quiet.snoc left ⟨id, id⟩)
    · exact agrees_inspect (Quiet.snoc left ⟨id, id⟩) head
  · exact agrees_inspect left head
  · exact left

theorem quiet_single {op : PortCall} {answer : op.Ans}
    (harmless : ¬ Reclaims op ∧ ¬ WritesStatus op) : Quiet [⟨op, answer⟩] :=
  fun _ mem => List.mem_singleton.mp mem ▸ harmless

theorem agrees_discardExpired {answer : (PortCall.kvEntry command.recordKey).Ans}
    (expired : (Transition.load command.tenantId command.ownerUserId command.uploadId).Resumes
      [⟨.kvEntry command.recordKey, answer⟩] (.ret (.ok none))) :
    Along A (fun _ _ => True) (Agrees command) [⟨.kvEntry command.recordKey, answer⟩]
      (discardExpired command) := by
  have looked : Quiet [⟨.kvEntry command.recordKey, answer⟩] := quiet_single ⟨id, id⟩
  refine along_perform trivial fun read _ => ?_
  rcases read with error | history
  · exact looked.snoc ⟨id, id⟩
  · dsimp only
    cases findApplied history command.uploadId with
    | some entry => exact (looked.snoc ⟨id, id⟩).unreclaimed
    | none =>
        refine along_perform trivial fun aborted _ => along_perform trivial fun deleted _ => ?_
        have read : Quiet ([⟨.kvEntry command.recordKey, answer⟩] ++
            [⟨.readStream command.tenantId command.documentId, .ok history⟩]) :=
          looked.snoc ⟨id, id⟩
        exact .inr ⟨_, aborted, deleted, [], by simp, read, (fun _ mem => nomatch mem),
          .inl ⟨answer, _, rfl, expired⟩⟩

/-- One read of the record, and what it answers. -/
theorem along_load :
    Along A (fun _ _ => True) (fun reached result => ∃ answer,
      reached = [⟨.kvEntry command.recordKey, answer⟩] ∧
      (Transition.load command.tenantId command.ownerUserId command.uploadId).Resumes reached
        (.ret result) ∧
      ∀ state, result = .ok (some state) → ∃ revision, answer = .ok (some (.put state revision)))
      [] (Transition.load command.tenantId command.ownerUserId command.uploadId) := by
  have read : Along A (fun _ _ => True) (fun reached result => ∃ answer,
      reached = [⟨.kvEntry command.recordKey, answer⟩] ∧
      ∀ state, result = .ok (some state) → ∃ revision, answer = .ok (some (.put state revision)))
      [] (Transition.load command.tenantId command.ownerUserId command.uploadId) := by
    refine (along_bind _ _ _).mpr (Transition.along_get trivial ?_ ?_ ?_)
    · intro state revision
      dsimp only
      split
      · exact ⟨_, rfl, fun _ same => nomatch same⟩
      · refine ⟨_, rfl, fun found same => ⟨revision, ?_⟩⟩
        cases same
        rfl
    · exact fun entry _ => ⟨_, rfl, fun _ same => nomatch same⟩
    · exact fun error _ => ⟨_, rfl, fun _ same => nomatch same⟩
  refine read.path.imp ?_
  rintro reached result ⟨⟨answer, shape, found⟩, added, rfl, path⟩
  exact ⟨answer, shape, path, found⟩

theorem agrees_run : Along A (fun _ _ => True) (Agrees command) [] (run digest command) := by
  refine Along.bind along_load ?_
  rintro reached result ⟨answer, rfl, path, found⟩
  have looked : Quiet [⟨.kvEntry command.recordKey, answer⟩] := quiet_single ⟨id, id⟩
  rcases result with error | (_ | state)
  · exact looked
  · exact agrees_discardExpired path
  · obtain ⟨revision, rfl⟩ := found state rfl
    dsimp only
    cases status : state.status with
    | uploading => exact agrees_pipeline looked
    | scanning => exact agrees_pipeline looked
    | accepted version superseded => exact looked.unreclaimed
    | rejected reason => exact .inl ⟨state, revision, status, rfl⟩

/-- Every exit of a delivery. -/
theorem agrees_finish {finalDelivery : Bool} :
    Along A (fun _ _ => True) (fun reached outcome => Agrees command reached outcome ∧
      ∀ error, outcome = .retry error → finalDelivery = false) []
      (finish digest command finalDelivery) := by
  refine Along.bind agrees_run fun reached outcome agrees => ?_
  cases outcome with
  | accepted documentId version superseded => exact ⟨agrees, fun _ same => nomatch same⟩
  | rejected reason => exact ⟨agrees, fun _ same => nomatch same⟩
  | retry error =>
      cases finalDelivery with
      | true =>
          refine (reclaimed_reject agrees).imp ?_
          rintro reached outcome ⟨rfl, reclaimed⟩
          exact ⟨.inr reclaimed, fun _ same => nomatch same⟩
      | false => exact ⟨agrees, fun _ _ => rfl⟩

end Paths

/-- For every command, flag and pattern of answers: a retry, never given on the final
delivery, has reclaimed nothing and written no status; an acceptance has reclaimed nothing;
a rejection that does not replay a recorded one has aborted and then deleted the command's
object, each once, and unless the record had expired went on to record its reason. -/
theorem finish_effects_agree {digest : String → String} {command : UploadCompleted}
    {finalDelivery : Bool} {trace : Trace Ports} {outcome : FinishOutcome}
    (ran : (finish digest command finalDelivery).Resumes trace (.ret outcome)) :
    (∀ error, outcome = .retry error → finalDelivery = false ∧
      ∀ call ∈ trace, ¬ Reclaims call.1 ∧ ¬ WritesStatus call.1) ∧
    (∀ documentId version superseded, outcome = .accepted documentId version superseded →
      ∀ call ∈ trace, ¬ Reclaims call.1) ∧
    ∀ reason, outcome = .rejected reason → Replayed command reason trace ∨
      ∃ before aborted deleted rest,
        trace = before ++ ⟨.abortMultipart command.storageKey command.multipartUploadId, aborted⟩ ::
          ⟨.delete command.storageKey, deleted⟩ :: rest ∧
        (∀ call ∈ before ++ rest, ¬ Reclaims call.1) ∧
        (FoundExpired command before ∨
          (record command (.rejected reason)).Resumes rest (.ret ())) := by
  obtain ⟨agrees, final⟩ := agrees_finish.returned ran
  refine ⟨?_, ?_, ?_⟩
  · rintro error rfl
    exact ⟨final error rfl, agrees⟩
  · rintro documentId version superseded rfl
    exact agrees
  · rintro reason rfl
    refine agrees.imp_right ?_
    rintro ⟨before, aborted, deleted, rest, shape, quiet, after, recorded⟩
    exact ⟨before, aborted, deleted, rest, shape, quiet.unreclaimed.append after, recorded⟩

/-- Every port is out of service on the final delivery: the bytes are given up, and the
rejection is on its way to the record. -/
theorem finish_effects_agree_outage :
    ∃ trace, (finish Sample.digest Sample.create true).Resumes trace
        (.ret (.rejected RejectReason.pipelineFailed)) ∧
      (Replayed Sample.create RejectReason.pipelineFailed trace ∨
        ∃ before aborted deleted rest,
          trace = before ++ ⟨.abortMultipart "tenants/acme/blobs/u1/original" "m1", aborted⟩ ::
            ⟨.delete "tenants/acme/blobs/u1/original", deleted⟩ :: rest ∧
          (∀ call ∈ before ++ rest, ¬ Reclaims call.1) ∧
          (FoundExpired Sample.create before ∨
            (record Sample.create (.rejected RejectReason.pipelineFailed)).Resumes rest
              (.ret ()))) := by
  have ran := Program.resumes_transcript (S := Ports)
    (fun (_ : Unit) (op : PortCall) => op.outage "down") (fun _ _ => ())
    (finish Sample.digest Sample.create true) ()
  exact ⟨_, ran, (finish_effects_agree ran).2.2 _ rfl⟩

end Delphi.Document.UploadFinisher
