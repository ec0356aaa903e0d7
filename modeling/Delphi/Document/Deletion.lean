/-
# Delphi.Document.Deletion -- what a replace delivery has read of a deletion

A delivery of a replace upload reads and folds the document's stream, and takes of
the state only its version.  What can still save a deleted stream is that it held
no deletion when `append_update` read its head: the expected sequence carries that
read to the append.

Read off the paths of `finish`, under the assumption that heads are read clear
(`HeadReadsClear`): new content is appended right behind a read of the head, at
the sequence it gave (`AppendsOnHead`), and a delivery that read of a deletion is
rejected (`RejectsDeleted`).
-/
import Delphi.Document.Service
import Delphi.Document.Deliveries

namespace Delphi.Document

open Delphi.Theory

set_option autoImplicit false

namespace DocumentEvent

def isDeleted (event : DocumentEvent) : Bool :=
  match event.payload with
  | .documentDeleted _ => true
  | _ => false

def isBlobValidated (event : DocumentEvent) : Bool :=
  match event.payload with
  | .documentBlobValidated _ => true
  | _ => false

end DocumentEvent

/-- A stream with a deletion in it. -/
def HoldsDeletion (stream : List Entry) : Prop := ∃ entry ∈ stream, entry.2.isDeleted = true

instance (stream : List Entry) : Decidable (HoldsDeletion stream) :=
  inferInstanceAs (Decidable (∃ entry ∈ stream, _))

theorem HoldsDeletion.mono {stream longer : List Entry} (holds : HoldsDeletion stream)
    (within : stream <+: longer) : HoldsDeletion longer := by
  obtain ⟨entry, mem, deleted⟩ := holds
  exact ⟨entry, within.subset mem, deleted⟩

namespace UploadFinisher

/-! ## What a delivery has read -/

section Paths

variable (command : UploadCompleted)

/-- The last call was an append that went through, so a read of the head now only
looks up what a duplicate landed as. -/
def EndsInAppend (trace : Trace Ports) : Prop :=
  ∃ before event expect appended, trace = before ++ [⟨.append event expect, .ok appended⟩]

/-- A history read from the upload's stream. -/
def Read (trace : Trace Ports) (history : List Entry) : Prop :=
  (⟨.readStream command.tenantId command.documentId, .ok history⟩ : Call Ports) ∈ trace

/-- The delivery has read of the deletion, in a history that does not name its upload. -/
def SawDeletion (trace : Trace Ports) : Prop :=
  ∃ history, Read command trace history ∧ HoldsDeletion history ∧
    findApplied history command.uploadId = none

/-- The head of the stream is read for an append only while no history read holds a deletion. -/
def HeadReadsClear (trace : Trace Ports) : (op : PortCall) → op.Ans → Prop
  | .last _ _, _ => ¬ EndsInAppend trace → ¬ SawDeletion command trace
  | _, _ => True

/-- New content is appended right after a read of the head, at the sequence it gave. -/
def AppendsOnHead (trace : Trace Ports) : PortCall → Prop
  | .append event expect => event.isBlobValidated = true → event.streamKey = command.streamKey ∧
      ∃ before version seq, ¬ EndsInAppend before ∧ expect = .exactly seq ∧
        trace = before ++ [⟨.last command.tenantId command.documentId, .ok (some (version, seq))⟩]
  | _ => True

/-- Having read of the deletion ends in a rejection. -/
def RejectsDeleted (trace : Trace Ports) (outcome : FinishOutcome) : Prop :=
  SawDeletion command trace → ∃ reason, outcome = .rejected reason

/-- Neither a read of a stream nor an append. -/
def Aside : PortCall → Prop
  | .readStream _ _ => False
  | .append _ _ => False
  | _ => True

def NotReading : PortCall → Prop
  | .readStream _ _ => False
  | _ => True

end Paths

section Along

variable {digest : String → String} {command : UploadCompleted} {trace : Trace Ports}

theorem not_endsInAppend_snoc {op : PortCall} {answer : op.Ans}
    (other : ∀ event expect, op ≠ .append event expect) :
    ¬ EndsInAppend (trace ++ [⟨op, answer⟩]) := by
  rintro ⟨before, event, expect, appended, same⟩
  obtain ⟨-, last⟩ := List.append_inj' same rfl
  exact other event expect (congrArg Sigma.fst (List.head_eq_of_cons_eq last))

theorem not_endsInAppend_failed {event : DocumentEvent} {expect : Expect} {error : EventStoreError} :
    ¬ EndsInAppend (trace ++ [⟨.append event expect, .error error⟩]) := by
  rintro ⟨before, event', expect', appended, same⟩
  obtain ⟨-, last⟩ := List.append_inj' same rfl
  have call := List.head_eq_of_cons_eq last
  cases call

/-- Calls that read no stream leave what was read as it is. -/
theorem read_append {added : Trace Ports} (only : ∀ call ∈ added, NotReading call.1)
    {history : List Entry} : Read command (trace ++ added) history ↔ Read command trace history := by
  constructor
  · intro read
    rcases List.mem_append.mp read with old | new
    · exact old
    · exact (only _ new).elim
  · exact fun read => List.mem_append_left _ read

theorem sawDeletion_append {added : Trace Ports} (only : ∀ call ∈ added, NotReading call.1) :
    SawDeletion command (trace ++ added) ↔ SawDeletion command trace := by
  unfold SawDeletion
  simp only [read_append only]

theorem Aside.notReading {op : PortCall} (aside : Aside op) : NotReading op := by
  cases op <;> first | exact aside | trivial

theorem Aside.appendsOnHead {op : PortCall} (aside : Aside op) :
    AppendsOnHead command trace op := by
  cases op <;> first | exact aside.elim | trivial

/-- A piece that only issues calls aside of the log. -/
theorem along_aside {α : Type} {p : Program Ports α}
    (aside : Along (HeadReadsClear command) (fun _ op => Aside op) (fun _ _ => True) trace p) :
    Along (HeadReadsClear command) (AppendsOnHead command)
      (fun reached _ => ∃ added, reached = trace ++ added ∧ ∀ call ∈ added, NotReading call.1)
      trace p :=
  ((aside.adds fun _ _ kind => Aside.notReading kind).calls fun _ _ => Aside.appendsOnHead).imp
    fun _ _ found => found.2

theorem aside_setStatus (tenant user uploadId : String) (status : UploadStatus) (now : Timestamp) :
    Along (HeadReadsClear command) (fun _ op => Aside op) (fun _ _ => True) trace
      (Transition.setStatus tenant user uploadId status now) :=
  (Transition.along_setStatus trace (fun _ _ _ => trivial) fun _ _ _ _ _ => trivial).imp
    fun _ _ _ => trivial

theorem aside_record (status : UploadStatus) :
    Along (HeadReadsClear command) (fun _ op => Aside op) (fun _ _ => True) trace
      (record command status) :=
  along_perform trivial fun _ _ => Along.bind (aside_setStatus _ _ _ _ _) fun _ _ _ => trivial

theorem aside_reclaim :
    Along (HeadReadsClear command) (fun _ op => Aside op) (fun _ _ => True) trace
      (reclaim command) :=
  along_perform trivial fun _ _ => along_perform trivial fun _ _ => trivial

theorem aside_reject (reason : String) :
    Along (HeadReadsClear command) (fun _ op => Aside op)
      (fun _ outcome => outcome = .rejected reason) trace (reject command reason) :=
  Along.bind aside_reclaim fun _ _ _ => Along.bind (aside_record _) fun _ _ _ => rfl

theorem along_rejects (reason : String) :
    Along (HeadReadsClear command) (AppendsOnHead command) (RejectsDeleted command) trace
      (reject command reason) :=
  ((aside_reject reason).calls fun _ _ => Aside.appendsOnHead).imp
    fun _ _ rejected _ => ⟨reason, rejected⟩

/-- An acceptance, of an upload that read of no deletion. -/
theorem along_accepts {version : Nat} {superseded : Bool} (clear : ¬ SawDeletion command trace) :
    Along (HeadReadsClear command) (AppendsOnHead command) (RejectsDeleted command) trace
      (accept command version superseded) := by
  refine Along.bind (along_aside (aside_record _)) ?_
  rintro reached _ ⟨added, rfl, only⟩ saw
  exact absurd ((sawDeletion_append only).mp saw) clear

/-- Rounds of reading the head and swapping; each append follows its own read of the head. -/
theorem along_updates {buildEvent : Nat → DocumentEvent}
    (addressed : ∀ version, (buildEvent version).streamKey = command.streamKey) (attempts : Nat)
    (fresh : ¬ EndsInAppend trace) :
    Along (HeadReadsClear command) (fun reached op => AppendsOnHead command reached op ∧ NotReading op)
      (fun _ _ => True) trace
      (appendUpdateFrom command.tenantId command.documentId none buildEvent attempts) := by
  induction attempts generalizing trace with
  | zero => trivial
  | succ attempts ih =>
      refine ⟨⟨trivial, trivial⟩, fun answer _ => ?_⟩
      rcases answer with error | (_ | ⟨version, seq⟩)
      · trivial
      · trivial
      · refine ⟨⟨fun _ => ⟨addressed _, trace, version, seq, fresh, rfl, rfl⟩, trivial⟩,
          fun answer _ => ?_⟩
        rcases answer with error | appended
        · cases error with
          | conflict => exact ih not_endsInAppend_failed
          | unavailable message => trivial
          | payload message => trivial
        · dsimp only [bind, Program.bind, resolveDuplicate]
          cases appended.duplicate with
          | false => trivial
          | true =>
              refine ⟨⟨trivial, trivial⟩, fun answer _ => ?_⟩
              rcases answer with error | (_ | ⟨current, currentSeq⟩) <;> trivial

theorem along_appendsOnto {sha256Hex : String} :
    Along (HeadReadsClear command) (AppendsOnHead command) (RejectsDeleted command) trace
      (appendOnto digest command sha256Hex) := by
  refine along_perform trivial fun now _ => ?_
  have fresh : ¬ EndsInAppend (trace ++ [⟨.now, now⟩]) := not_endsInAppend_snoc (by simp)
  have addressed : ∀ version,
      (replacedEvent digest command sha256Hex now version).streamKey = command.streamKey :=
    fun _ => rfl
  have updates := along_updates addressed updateAttempts fresh
  -- The first read of the head is already behind a clear history.
  refine (along_bind _ _ _).mpr ⟨updates.1.1, fun answer head => ?_⟩
  have clear : ¬ SawDeletion command (trace ++ [⟨.now, now⟩]) := head fresh
  refine (((updates.2 answer head).adds fun _ _ kind => kind.2).calls fun _ _ kind => kind.1).imp ?_
  rintro reached result ⟨-, added, rfl, only⟩
  have still : ¬ SawDeletion command (trace ++ [⟨.now, now⟩] ++
      [⟨.last command.tenantId command.documentId, answer⟩] ++ added) := by
    rw [sawDeletion_append only, sawDeletion_append (by simp [NotReading])]
    exact clear
  cases result with
  | ok appended => exact along_accepts still
  | error error => exact fun saw => absurd saw still

/-- No stream has been read yet. -/
def ReadFree (command : UploadCompleted) (trace : Trace Ports) : Prop :=
  ∀ history, ¬ Read command trace history

theorem ReadFree.append (free : ReadFree command trace) (added : Trace Ports)
    (only : ∀ call ∈ added, NotReading call.1) : ReadFree command (trace ++ added) :=
  fun history read => free history ((read_append only).mp read)

theorem ReadFree.rejects {outcome : FinishOutcome} (free : ReadFree command trace) :
    RejectsDeleted command trace outcome := by
  rintro ⟨history, read, -⟩
  exact absurd read (free history)

/-- After its first read, a delivery has read that history and no other. -/
theorem ReadFree.read {history read : List Entry} (free : ReadFree command trace)
    (mem : Read command (trace ++ [⟨.readStream command.tenantId command.documentId, .ok history⟩])
      read) : read = history := by
  rcases List.mem_append.mp mem with old | new
  · exact absurd old (free read)
  · have same := List.mem_singleton.mp new
    cases same
    rfl

theorem ReadFree.notSaw {history : List Entry} {entry : Entry} (free : ReadFree command trace)
    (applied : findApplied history command.uploadId = some entry) :
    ¬ SawDeletion command
      (trace ++ [⟨.readStream command.tenantId command.documentId, .ok history⟩]) := by
  rintro ⟨read, mem, -, unapplied⟩
  rw [free.read mem, applied] at unapplied
  cases unapplied

theorem ReadFree.failed {error : EventStoreError} (free : ReadFree command trace) :
    ReadFree command
      (trace ++ [⟨.readStream command.tenantId command.documentId, .error error⟩]) := by
  intro history read
  rcases List.mem_append.mp read with old | new
  · exact free history old
  · have same := List.mem_singleton.mp new
    cases same

theorem along_replaces {sha256Hex : String} (free : ReadFree command trace) :
    Along (HeadReadsClear command) (AppendsOnHead command) (RejectsDeleted command) trace
      (appendReplaced digest command sha256Hex) := by
  refine along_perform trivial fun answer _ => ?_
  rcases answer with error | history
  · exact free.failed.rejects
  · dsimp only
    cases found : findApplied history command.uploadId with
    | some entry => exact along_accepts (free.notSaw found)
    | none =>
        dsimp only
        cases foldHistory history with
        | error error => exact along_rejects _
        | ok result =>
            cases result with
            | none => exact along_rejects _
            | some state =>
                dsimp only
                cases refusesVersion command state.version with
                | true => exact along_rejects _
                | false => exact along_appendsOnto

/-! ### The pipeline -/

theorem along_scans (mode : command.mode = .replace) (free : ReadFree command trace) :
    Along (HeadReadsClear command) (AppendsOnHead command) (RejectsDeleted command) trace
      (scanAndAppend digest command) := by
  refine along_perform trivial fun answer _ => ?_
  have opened := free.append [⟨.openRead command.storageKey, answer⟩] (by simp [NotReading])
  rcases answer with error | reader
  · exact opened.rejects
  refine along_perform trivial fun answer _ => ?_
  have scanned := opened.append [⟨.scan reader, answer⟩] (by simp [NotReading])
  rcases answer with error | ⟨verdict, sha256Hex, byteCount⟩
  · exact scanned.rejects
  cases verdict with
  | infected signature => exact along_rejects _
  | clean =>
      dsimp only
      split
      · exact along_rejects _
      · simp only [mode]
        exact along_replaces scanned

theorem along_inspects (mode : command.mode = .replace) {head : BlobHead}
    (free : ReadFree command trace) :
    Along (HeadReadsClear command) (AppendsOnHead command) (RejectsDeleted command) trace
      (inspect digest command head) := by
  unfold inspect
  split
  · exact along_rejects _
  · refine along_perform trivial fun answer _ => ?_
    have sniffed := free.append [⟨.readPrefix command.storageKey prefixBytes, answer⟩]
      (by simp [NotReading])
    rcases answer with error | beginning
    · exact sniffed.rejects
    refine along_perform trivial fun answer _ => ?_
    have validated := sniffed.append
      [⟨.validate head beginning command.declared, answer⟩] (by simp [NotReading])
    rcases answer with error | (_ | reason)
    · exact validated.rejects
    · exact along_scans mode validated
    · exact along_rejects _

theorem aside_settleByHead :
    Along (HeadReadsClear command) (fun _ op => Aside op) (fun _ _ => True) trace
      (settleByHead command) := by
  refine along_perform trivial fun answer _ => ?_
  rcases answer with error | (_ | head)
  · trivial
  · exact Along.bind (aside_reject _) fun _ _ _ => trivial
  · trivial

theorem aside_assemble :
    Along (HeadReadsClear command) (fun _ op => Aside op) (fun _ _ => True) trace
      (assemble command) := by
  refine along_perform trivial fun answer _ => ?_
  rcases answer with error | (_ | (_ | ⟨part, parts⟩))
  · trivial
  · exact aside_settleByHead
  · exact Along.bind (aside_reject _) fun _ _ _ => trivial
  · refine along_perform trivial fun answer _ => ?_
    rcases answer with ⟨kind, message⟩ | _
    · cases kind with
      | noSuchUpload => exact aside_settleByHead
      | transient => trivial
      | invalidParts | notFound | permanent =>
          exact Along.bind (aside_reject _) fun _ _ _ => trivial
    · trivial

theorem along_pipelines (mode : command.mode = .replace) (free : ReadFree command trace) :
    Along (HeadReadsClear command) (AppendsOnHead command) (RejectsDeleted command) trace
      (pipeline digest command) := by
  refine Along.bind (along_aside aside_assemble) ?_
  rintro reached assembled ⟨added, rfl, only⟩
  have assembledFree := free.append added only
  rcases assembled with (_ | head) | outcome
  · refine along_perform trivial fun answer _ => ?_
    have measured := assembledFree.append [⟨.head command.storageKey, answer⟩]
      (by simp [NotReading])
    rcases answer with error | (_ | head)
    · exact measured.rejects
    · exact along_rejects _
    · exact along_inspects mode measured
  · exact along_inspects mode assembledFree
  · exact assembledFree.rejects

theorem along_discards (free : ReadFree command trace) :
    Along (HeadReadsClear command) (AppendsOnHead command) (RejectsDeleted command) trace
      (discardExpired command) := by
  refine along_perform trivial fun answer _ => ?_
  rcases answer with error | history
  · exact free.failed.rejects
  · dsimp only
    cases found : findApplied history command.uploadId with
    | some entry => exact fun saw => absurd saw (free.notSaw found)
    | none => exact Along.bind (along_aside aside_reclaim) fun _ _ _ _ => ⟨_, rfl⟩

theorem along_runs (mode : command.mode = .replace) :
    Along (HeadReadsClear command) (AppendsOnHead command) (RejectsDeleted command) []
      (run digest command) := by
  have free : ∀ answer, ReadFree command [⟨.kvEntry command.recordKey, answer⟩] := by
    intro answer history read
    have same := List.mem_singleton.mp read
    cases same
  refine (along_bind _ _ _).mpr ((along_bind _ _ _).mpr (Transition.along_get trivial ?_ ?_ ?_))
  · intro state revision
    dsimp only
    split
    · exact along_discards (free _)
    · rw [Program.pure_eq, along_ret]
      dsimp only
      split
      · exact (free _).rejects
      · exact along_pipelines mode (free _)
  · intro entry gone
    exact along_discards (free _)
  · intro error error'
    exact (free _).rejects

/-- A delivery of a replace upload: it appends right behind a read of the head, and rejects
when it read of a deletion. -/
theorem along_finishes (mode : command.mode = .replace) {finalDelivery : Bool} :
    Along (HeadReadsClear command) (AppendsOnHead command) (RejectsDeleted command) []
      (finish digest command finalDelivery) := by
  refine Along.bind (along_runs mode) fun reached outcome rejects => ?_
  cases outcome with
  | accepted documentId version superseded => exact rejects
  | rejected reason => exact rejects
  | retry error =>
      dsimp only
      split
      · exact along_rejects _
      · exact rejects

end Along

end UploadFinisher

end Delphi.Document
