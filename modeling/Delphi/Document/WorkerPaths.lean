/-
# Delphi.Document.WorkerPaths -- what a delivery has seen when it acts

`finish` reaches its few consequential calls from many places.  Here each is
inverted once: when a delivery stands at an append, at the reclaiming of its
bytes or at the writing of its record, and when it returns, what must its trace
hold?  The answers are `Issues` and `Returns`; `along_finish` proves them for
every path, and everything said about runs of deliveries starts from them.

`Accepts` lists the six ways a delivery comes to accept an upload.  Two more
(`Reports`) only report an acceptance: the replayed record, and the log read
after the record expired.
-/
import Delphi.Document.Worker

namespace Delphi.Document.UploadFinisher

open Delphi.Theory

set_option autoImplicit false

section Paths

variable (digest : String → String) (command : UploadCompleted)

/-- The pipeline found the object of the declared size, the validator passed
it, and the scanner found those bytes clean, with this digest. -/
structure Verified (sha256Hex : String) (trace : Trace Ports) : Prop where
  inspected : ∃ head beginning, head.byteSize = command.declaredSize ∧
    (⟨.head command.storageKey, .ok (some head)⟩ : Call Ports) ∈ trace ∧
    (⟨.validate head beginning command.declared, .ok .ok⟩ : Call Ports) ∈ trace
  scanned : ∃ blob,
    (⟨.scan blob, .ok ⟨.clean, sha256Hex, command.declaredSize⟩⟩ : Call Ports) ∈ trace

/-- If the last call was a successful read of the log, it did not name the
upload. -/
def ReadClear (trace : Trace Ports) : Prop :=
  ∀ before tenant documentId history,
    trace = before ++ [⟨.readStream tenant documentId, .ok history⟩] →
    ∀ entry ∈ history, ¬ entry.2.Names command.uploadId

/-- What stands behind each append. -/
inductive Appends : Trace Ports → DocumentEvent → Expect → Prop where
  | create {trace : Trace Ports} {sha256Hex : String} {ts : Timestamp}
      (mode : command.mode = .create) (verified : Verified command sha256Hex trace) :
      Appends trace (createdEvent digest command sha256Hex ts) .createOnly
  | replace {before : Trace Ports} {sha256Hex : String} {ts : Timestamp} {version seq : Nat}
      {history : List Entry} {state : DocumentState}
      (mode : command.mode = .replace) (verified : Verified command sha256Hex before)
      (read : (⟨.readStream command.tenantId command.documentId, .ok history⟩ : Call Ports)
        ∈ before)
      (unapplied : ∀ entry ∈ history, ¬ entry.2.Names command.uploadId)
      (folded : foldHistory history = .ok (some state))
      (allowed : refusesVersion command state.version = false) :
      Appends
        (before ++ [⟨.last command.tenantId command.documentId, .ok (some (version, seq))⟩])
        (replacedEvent digest command sha256Hex ts (version + 1)) (.exactly seq)

/-- The ways a delivery comes to accept its upload, by the calls they end in. -/
inductive Accepts : Trace Ports → Nat → Bool → Prop where
  | created {before : Trace Ports} {sha256Hex : String} {ts : Timestamp} {appended : Appended}
      (mode : command.mode = .create) (fresh : appended.duplicate = false) :
      Accepts
        (before ++ [⟨.append (createdEvent digest command sha256Hex ts) .createOnly, .ok appended⟩])
        appended.version false
  | createdAgain {before : Trace Ports} {sha256Hex : String} {ts : Timestamp}
      {appended : Appended} {version seq : Nat} (mode : command.mode = .create)
      (duplicate : appended.duplicate = true) :
      Accepts
        (before ++ [⟨.append (createdEvent digest command sha256Hex ts) .createOnly, .ok appended⟩]
          ++ [⟨.last command.tenantId command.documentId, .ok (some (version, seq))⟩])
        version false
  | alreadyCreated {before : Trace Ports} {sha256Hex : String} {ts : Timestamp}
      {version seq : Nat} (mode : command.mode = .create) :
      Accepts
        (before ++
          [⟨.append (createdEvent digest command sha256Hex ts) .createOnly, .error .conflict⟩]
          ++ [⟨.last command.tenantId command.documentId, .ok (some (version, seq))⟩])
        version false
  | guarded {before : Trace Ports} {history : List Entry} {entry : Entry}
      (found : findApplied history command.uploadId = some entry) :
      Accepts (before ++ [⟨.readStream command.tenantId command.documentId, .ok history⟩])
        entry.2.version (supersededFlag entry.2)
  | replaced {before : Trace Ports} {sha256Hex : String} {ts : Timestamp} {version : Nat}
      {expect : Expect} {appended : Appended} (mode : command.mode = .replace)
      (fresh : appended.duplicate = false) :
      Accepts
        (before ++
          [⟨.append (replacedEvent digest command sha256Hex ts version) expect, .ok appended⟩])
        appended.version (basedElsewhere command.ifMatch appended.version)
  | replacedAgain {before : Trace Ports} {sha256Hex : String} {ts : Timestamp} {version : Nat}
      {expect : Expect} {appended : Appended} {current seq : Nat} (mode : command.mode = .replace)
      (duplicate : appended.duplicate = true) :
      Accepts
        (before ++
          [⟨.append (replacedEvent digest command sha256Hex ts version) expect, .ok appended⟩]
          ++ [⟨.last command.tenantId command.documentId, .ok (some (current, seq))⟩])
        current (basedElsewhere command.ifMatch current)

/-- What stands behind a status written to the record. -/
def Settles (trace : Trace Ports) : UploadStatus → Prop
  | .accepted version superseded =>
      ∃ start, start <+: trace ∧ Accepts digest command start version superseded
  | .rejected _ => ∃ answer, (⟨.abortMultipart command.storageKey command.multipartUploadId,
      answer⟩ : Call Ports) ∈ trace
  | _ => False

/-- What a delivery has seen when it issues a call. -/
def Issues (trace : Trace Ports) : PortCall → Prop
  | .append event expect => Appends digest command trace event expect
  | .abortMultipart key upload =>
      key = command.storageKey ∧ upload = command.multipartUploadId ∧ ReadClear command trace
  | .delete key => key = command.storageKey ∧ ∃ before answer,
      trace = before ++ [⟨.abortMultipart command.storageKey command.multipartUploadId, answer⟩]
  | .kvUpdate key state revision => ∃ before old status now,
      trace = before ++ [⟨.kvEntry command.recordKey, .ok (some (.put old revision))⟩] ∧
      old.status.isTerminal = false ∧ key = old.ownKey ∧ state = old.withStatus status now ∧
      Settles digest command before status
  | .readStream tenant documentId => tenant = command.tenantId ∧ documentId = command.documentId
  | _ => True

/-- What stands behind an acceptance a delivery returns. -/
inductive Reports : Trace Ports → Nat → Bool → Prop where
  | accepted {trace start : Trace Ports} {version : Nat} {superseded : Bool}
      (since : start <+: trace) (accepts : Accepts digest command start version superseded) :
      Reports trace version superseded
  | expired {entryAnswer : (PortCall.kvEntry command.recordKey).Ans} {history : List Entry}
      {entry : Entry} (found : findApplied history command.uploadId = some entry) :
      Reports [⟨.kvEntry command.recordKey, entryAnswer⟩,
        ⟨.readStream command.tenantId command.documentId, .ok history⟩] entry.2.version false
  | replayed {state : UploadState} {revision version : Nat} {superseded : Bool}
      (recorded : state.status = .accepted version superseded) :
      Reports [⟨.kvEntry command.recordKey, .ok (some (.put state revision))⟩] version superseded

/-- What a delivery has seen when it returns. -/
def Returns (trace : Trace Ports) : FinishOutcome → Prop
  | .accepted documentId version superseded =>
      documentId = command.documentId ∧ Reports digest command trace version superseded
  | .rejected _ => True
  | .retry _ => ReadClear command trace

end Paths

section Along

variable {digest : String → String} {command : UploadCompleted}
  {A : Trace Ports → (op : PortCall) → op.Ans → Prop} {trace : Trace Ports}

theorem NotRead.readClear (notRead : NotRead trace) : ReadClear command trace :=
  fun before tenant documentId history same => absurd same (notRead before tenant documentId history)

theorem readClear_snoc {op : PortCall} {answer : op.Ans}
    (other : ∀ tenant documentId, op ≠ .readStream tenant documentId) :
    ReadClear command (trace ++ [⟨op, answer⟩]) :=
  NotRead.readClear (notRead_snoc other)

theorem Verified.mono {sha256Hex : String} {reached : Trace Ports}
    (verified : Verified command sha256Hex trace) (since : trace <+: reached) :
    Verified command sha256Hex reached := by
  obtain ⟨⟨head, beginning, size, measured, passed⟩, blob, scanned⟩ := verified
  exact ⟨⟨head, beginning, size, since.subset measured, since.subset passed⟩,
    blob, since.subset scanned⟩

/-! ### Outcomes -/

theorem along_record {status : UploadStatus}
    (settles : ∀ reached, trace <+: reached → Settles digest command reached status) :
    Along A (Issues digest command) (fun reached _ => trace <+: reached) trace
      (record command status) := by
  refine along_perform trivial fun now _ => ?_
  have since : trace <+: trace ++ [⟨.now, now⟩] := List.prefix_append _ _
  refine Along.bind (Transition.along_setStatus _ (fun _ _ _ => trivial) ?_) ?_
  · intro before old revision extends_ open_
    exact ⟨before, old, status, now, rfl, open_, rfl, rfl,
      settles before (since.trans extends_.since)⟩
  · exact fun reached _ answered => since.trans answered.1.since

theorem along_reclaim (clear : ReadClear command trace) :
    Along A (Issues digest command)
      (fun reached _ => ∃ answer, (⟨.abortMultipart command.storageKey command.multipartUploadId,
        answer⟩ : Call Ports) ∈ reached) trace (reclaim command) := by
  refine ⟨⟨rfl, rfl, clear⟩, fun aborted _ => ⟨⟨rfl, trace, aborted, rfl⟩, fun deleted _ => ?_⟩⟩
  exact ⟨aborted, by simp⟩

theorem along_accept {version : Nat} {superseded : Bool}
    (accepts : Accepts digest command trace version superseded) :
    Along A (Issues digest command) (Returns digest command) trace
      (accept command version superseded) := by
  refine Along.bind (along_record fun reached since => ⟨trace, since, accepts⟩) ?_
  exact fun reached _ since => ⟨rfl, .accepted since accepts⟩

theorem along_reject {reason : String} (clear : ReadClear command trace) :
    Along A (Issues digest command) (Returns digest command) trace (reject command reason) := by
  refine Along.bind (along_reclaim clear) fun reached _ aborted => ?_
  obtain ⟨answer, aborted⟩ := aborted
  refine Along.bind (along_record fun later since => ⟨answer, since.subset aborted⟩) ?_
  exact fun _ _ _ => trivial

/-! ### Append paths -/

theorem along_appendCreated {sha256Hex : String} (mode : command.mode = .create)
    (verified : Verified command sha256Hex trace) :
    Along A (Issues digest command) (Returns digest command) trace
      (appendCreated digest command sha256Hex) := by
  refine along_perform trivial fun ts _ => ?_
  refine Along.bind (along_appendCreate (Appends.create mode
    (verified.mono (List.prefix_append _ _))) fun _ => trivial) ?_
  intro reached result answered
  cases answered with
  | fresh fresh => exact along_accept (.created mode fresh)
  | again duplicate => exact along_accept (.createdAgain mode duplicate)
  | conflict =>
      refine along_perform trivial fun answer _ => ?_
      rcases answer with error | (_ | ⟨version, seq⟩)
      · exact readClear_snoc (by simp)
      · exact readClear_snoc (by simp)
      · exact along_accept (.alreadyCreated mode)
  | @failed _ error other notRead =>
      cases error with
      | alreadyCreated => exact absurd rfl other
      | _ => exact NotRead.readClear notRead

theorem along_appendOnto {sha256Hex : String} {history : List Entry} {state : DocumentState}
    (mode : command.mode = .replace) (verified : Verified command sha256Hex trace)
    (read : (⟨.readStream command.tenantId command.documentId, .ok history⟩ : Call Ports) ∈ trace)
    (unapplied : ∀ entry ∈ history, ¬ entry.2.Names command.uploadId)
    (folded : foldHistory history = .ok (some state))
    (allowed : refusesVersion command state.version = false) :
    Along A (Issues digest command) (Returns digest command) trace
      (appendOnto digest command sha256Hex) := by
  refine along_perform trivial fun now _ => ?_
  have since : trace <+: trace ++ [⟨.now, now⟩] := List.prefix_append _ _
  refine Along.bind (along_appendUpdateFrom (fun _ _ => trivial) ?_ updateAttempts
    List.prefix_rfl (notRead_snoc (by simp))) ?_
  · intro before version seq later
    exact .replace mode (verified.mono (since.trans later)) ((since.trans later).subset read)
      unapplied folded allowed
  · intro reached result answered
    cases answered with
    | fresh later fresh => exact along_accept (.replaced mode fresh)
    | again later duplicate => exact along_accept (.replacedAgain mode duplicate)
    | failed later notRead => exact NotRead.readClear notRead

theorem findApplied_eq_none {history : List Entry} {uploadId : String}
    (absent : findApplied history uploadId = none) :
    ∀ entry ∈ history, ¬ entry.2.Names uploadId := by
  simpa [findApplied] using absent

theorem readClear_of_unapplied {tenant documentId : String} {history : List Entry}
    (unapplied : ∀ entry ∈ history, ¬ entry.2.Names command.uploadId) :
    ReadClear command (trace ++ [⟨.readStream tenant documentId, .ok history⟩]) := by
  intro before tenant' documentId' history' same
  obtain ⟨-, last⟩ := List.append_inj' same rfl
  cases last
  exact unapplied

theorem readClear_failed {tenant documentId : String} {error : EventStoreError} :
    ReadClear command (trace ++ [⟨.readStream tenant documentId, .error error⟩]) := by
  intro before tenant' documentId' history same
  obtain ⟨-, last⟩ := List.append_inj' same rfl
  cases last

theorem along_appendReplaced {sha256Hex : String} (mode : command.mode = .replace)
    (verified : Verified command sha256Hex trace) :
    Along A (Issues digest command) (Returns digest command) trace
      (appendReplaced digest command sha256Hex) := by
  refine along_perform ⟨rfl, rfl⟩ fun answer _ => ?_
  rcases answer with error | history
  · exact readClear_failed
  · dsimp only
    cases found : findApplied history command.uploadId with
    | some entry => exact along_accept (.guarded found)
    | none =>
        have unapplied := findApplied_eq_none found
        dsimp only
        cases folded : foldHistory history with
        | error error => exact along_reject (readClear_of_unapplied unapplied)
        | ok result =>
            cases result with
            | none => exact along_reject (readClear_of_unapplied unapplied)
            | some state =>
                dsimp only
                cases refused : refusesVersion command state.version with
                | true => exact along_reject (readClear_of_unapplied unapplied)
                | false =>
                    exact along_appendOnto mode (verified.mono (List.prefix_append _ _)) (by simp)
                      unapplied folded refused

/-! ### The pipeline -/

theorem along_scanAndAppend
    (inspected : ∃ head beginning, head.byteSize = command.declaredSize ∧
      (⟨.head command.storageKey, .ok (some head)⟩ : Call Ports) ∈ trace ∧
      (⟨.validate head beginning command.declared, .ok .ok⟩ : Call Ports) ∈ trace) :
    Along A (Issues digest command) (Returns digest command) trace
      (scanAndAppend digest command) := by
  refine along_perform trivial fun answer _ => ?_
  rcases answer with error | reader
  · exact readClear_snoc (by simp)
  refine along_perform trivial fun answer _ => ?_
  rcases answer with error | ⟨verdict, sha256Hex, byteCount⟩
  · exact readClear_snoc (by simp)
  cases verdict with
  | infected signature => exact along_reject (readClear_snoc (by simp))
  | clean =>
      dsimp only
      split
      · exact along_reject (readClear_snoc (by simp))
      · rename_i same
        obtain rfl : byteCount = command.declaredSize := not_not.mp same
        obtain ⟨head, beginning, size, measured, passed⟩ := inspected
        have verified : Verified command sha256Hex
            (trace ++ [⟨.openRead command.storageKey, .ok reader⟩] ++
              [⟨.scan reader, .ok ⟨.clean, sha256Hex, command.declaredSize⟩⟩]) :=
          ⟨⟨head, beginning, size, by simp [measured], by simp [passed]⟩, reader, by simp⟩
        cases mode : command.mode with
        | create => exact along_appendCreated mode verified
        | replace => exact along_appendReplaced mode verified

theorem along_inspect {head : BlobHead}
    (measured : (⟨.head command.storageKey, .ok (some head)⟩ : Call Ports) ∈ trace)
    (clear : ReadClear command trace) :
    Along A (Issues digest command) (Returns digest command) trace
      (inspect digest command head) := by
  unfold inspect
  split
  · exact along_reject clear
  · rename_i same
    refine along_perform trivial fun answer _ => ?_
    rcases answer with error | beginning
    · exact readClear_snoc (by simp)
    refine along_perform trivial fun answer _ => ?_
    rcases answer with error | (_ | reason)
    · exact readClear_snoc (by simp)
    · exact along_scanAndAppend
        ⟨head, beginning, not_not.mp same, by simp [measured], by simp⟩
    · exact along_reject (readClear_snoc (by simp))

/-- What the assemble step leaves: the head it fetched, or a finished outcome. -/
def Assembles (digest : String → String) (command : UploadCompleted) (trace : Trace Ports) :
    Assembled → Prop
  | .ready (some head) => ReadClear command trace ∧
      (⟨.head command.storageKey, .ok (some head)⟩ : Call Ports) ∈ trace
  | .ready none => True
  | .terminal outcome => Returns digest command trace outcome

theorem along_settleByHead :
    Along A (Issues digest command) (Assembles digest command) trace (settleByHead command) := by
  refine along_perform trivial fun answer _ => ?_
  rcases answer with error | (_ | head)
  · exact readClear_snoc (by simp)
  · exact Along.bind (along_reject (readClear_snoc (by simp))) fun _ _ returns => returns
  · exact ⟨readClear_snoc (by simp), by simp⟩

theorem along_assemble :
    Along A (Issues digest command) (Assembles digest command) trace (assemble command) := by
  refine along_perform trivial fun answer _ => ?_
  rcases answer with error | (_ | (_ | ⟨part, parts⟩))
  · exact readClear_snoc (by simp)
  · exact along_settleByHead
  · exact Along.bind (along_reject (readClear_snoc (by simp))) fun _ _ returns => returns
  · refine along_perform trivial fun answer _ => ?_
    rcases answer with ⟨kind, message⟩ | _
    · cases kind with
      | noSuchUpload => exact along_settleByHead
      | transient => exact readClear_snoc (by simp)
      | invalidParts | notFound | permanent =>
          exact Along.bind (along_reject (readClear_snoc (by simp))) fun _ _ returns => returns
    · trivial

theorem along_pipeline :
    Along A (Issues digest command) (Returns digest command) trace (pipeline digest command) := by
  refine Along.bind along_assemble fun reached assembled left => ?_
  rcases assembled with (_ | head) | outcome
  · refine along_perform trivial fun answer _ => ?_
    rcases answer with error | (_ | head)
    · exact readClear_snoc (by simp)
    · exact along_reject (readClear_snoc (by simp))
    · exact along_inspect (by simp) (readClear_snoc (by simp))
  · exact along_inspect left.2 left.1
  · exact left

theorem along_discardExpired {answer : (PortCall.kvEntry command.recordKey).Ans} :
    Along A (Issues digest command) (Returns digest command)
      [⟨.kvEntry command.recordKey, answer⟩] (discardExpired command) := by
  refine along_perform ⟨rfl, rfl⟩ fun answer _ => ?_
  rcases answer with error | history
  · exact readClear_failed
  · dsimp only
    cases found : findApplied history command.uploadId with
    | some entry => exact ⟨rfl, .expired found⟩
    | none =>
        refine Along.bind (along_reclaim (readClear_of_unapplied (findApplied_eq_none found))) ?_
        exact fun _ _ _ => trivial

theorem along_run :
    Along A (Issues digest command) (Returns digest command) [] (run digest command) := by
  refine (along_bind _ _ _).mpr ((along_bind _ _ _).mpr (Transition.along_get trivial ?_ ?_ ?_))
  · intro state revision
    dsimp only
    split
    · exact along_discardExpired
    · rw [Program.pure_eq, along_ret]
      dsimp only
      cases status : state.status with
      | uploading => exact along_pipeline
      | scanning => exact along_pipeline
      | accepted version superseded => exact ⟨rfl, .replayed status⟩
      | rejected reason => trivial
  · intro entry gone
    exact along_discardExpired
  · intro error error'
    exact readClear_snoc (by simp)

/-- Every path of a delivery. -/
theorem along_finish {finalDelivery : Bool} :
    Along A (Issues digest command) (Returns digest command) []
      (finish digest command finalDelivery) := by
  refine Along.bind along_run fun reached outcome returns => ?_
  cases outcome with
  | accepted documentId version superseded => exact returns
  | rejected reason => exact returns
  | retry error =>
      dsimp only
      split
      · exact along_reject returns
      · exact returns

end Along

end Delphi.Document.UploadFinisher
