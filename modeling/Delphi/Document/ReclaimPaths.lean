/-
# Delphi.Document.ReclaimPaths -- what turns a delivery against its upload

`finish` gives the bytes of an upload back from about ten places.  Here the answers
that lead there are told apart by what they say, not by where they are asked for:

* the object is not the one declared (`disowns`), which any delivery acts on;
* the call failed (`fails`), which the final delivery acts on;
* the log, read because the record expired or because a version is to be replaced,
  does not name the upload and takes no version either (`unapplied`).

On every path a delivery reclaims, or records a rejection, only after such an answer,
and appends only before any (`along_finish_justified`).
-/
import Delphi.Document.WorkerPaths

namespace Delphi.Document

open Delphi.Theory

set_option autoImplicit false

namespace PortCall

def isAppend : PortCall → Bool
  | .append _ _ => true
  | _ => false

/-- A call that gives the bytes of an upload back, or records that it was rejected. -/
def reclaims : PortCall → Bool
  | .abortMultipart _ _ | .delete _ => true
  | .kvUpdate _ state _ =>
      match state.status with
      | .rejected _ => true
      | _ => false
  | _ => false

end PortCall

namespace UploadFinisher

/-- How many appends were answered. -/
def appends (trace : Trace Ports) : Nat := trace.countP fun call => call.1.isAppend

section Answers

variable (command : UploadCompleted)

/-- The answer says that the object is not the one declared. -/
def disowns : (op : PortCall) → op.Ans → Bool
  | .listParts _ _, .ok (some []) => true
  | .completeMultipart _ _ _, .error error =>
      match error.kind with
      | .noSuchUpload | .transient => false
      | .invalidParts | .notFound | .permanent => true
  | .head _, .ok none => true
  | .head _, .ok (some head) => head.byteSize ≠ command.declaredSize
  | .validate _ _ _, .ok (.rejected _) => true
  | .scan _, .ok ⟨.infected _, _, _⟩ => true
  | .scan _, .ok ⟨.clean, _, byteCount⟩ => byteCount ≠ command.declaredSize
  | _, _ => false

/-- The answer is a failure that `run` makes a retry of: the first read of the record fails, a
store or a verifier does, or an append is refused, for a conflict the third time only. -/
def fails (before : Trace Ports) : (op : PortCall) → op.Ans → Bool
  | .kvEntry _, .error _ => before.isEmpty
  | .listParts _ _, .error _ => true
  | .completeMultipart _ _ _, .error error => error.kind = .transient
  | .head _, .error _ => true
  | .readPrefix _ _, .error _ => true
  | .validate _ _ _, .error _ => true
  | .openRead _, .error _ => true
  | .scan _, .error _ => true
  | .readStream _ _, .error _ => true
  | .last _ _, .error _ => true
  | .last _ _, .ok none => true
  | .append _ _, .error .conflict => updateAttempts ≤ appends before + 1
  | .append _ _, .error _ => true
  | _, _ => false

/-- The log does not name the upload, and the record expired or no version can follow. -/
def unapplied (before : Trace Ports) : (op : PortCall) → op.Ans → Bool
  | .readStream _ _, .ok history =>
      (findApplied history command.uploadId).isNone &&
        (before.length = 1 ||
          match foldHistory history with
          | .ok (some state) => refusesVersion command state.version
          | _ => true)
  | _, _ => false

variable (final : Bool)

/-- An answer that makes a delivery reclaim. -/
def adverse (before : Trace Ports) (op : PortCall) (answer : op.Ans) : Bool :=
  disowns command op answer || (final && fails before op answer) || unapplied command before op answer

/-- No answer so far is adverse. -/
def Clear (trace : Trace Ports) : Prop :=
  Facts (fun before op answer => adverse command final before op answer = false) trace

instance (trace : Trace Ports) : Decidable (Clear command final trace) :=
  inferInstanceAs (Decidable (Facts _ trace))

/-- What a delivery has seen when it reclaims, and when it appends. -/
structure Justified (trace : Trace Ports) (op : PortCall) : Prop where
  reclaims : op.reclaims = true → ¬ Clear command final trace
  appends : op.isAppend = true → Clear command final trace

/-- The final delivery retries nothing without cause. -/
def Ends (reached : Trace Ports) (outcome : FinishOutcome) : Prop :=
  ∀ error, outcome = .retry error → final = true → ¬ Clear command final reached

/-- On the way to its append. -/
structure Underway (trace : Trace Ports) : Prop where
  clear : Clear command final trace
  unappended : appends trace = 0

end Answers

section Along

variable {digest : String → String} {command : UploadCompleted} {final : Bool}
  {A : Trace Ports → (op : PortCall) → op.Ans → Prop} {trace reached : Trace Ports}
  {op : PortCall} {answer : op.Ans} {α : Type}

theorem clear_snoc_iff : Clear command final (trace ++ [⟨op, answer⟩]) ↔
    Clear command final trace ∧ adverse command final trace op answer = false :=
  facts_snoc

theorem not_clear_snoc (met : adverse command final trace op answer = true) :
    ¬ Clear command final (trace ++ [⟨op, answer⟩]) := by
  intro clear
  rw [(clear_snoc_iff.mp clear).2] at met
  cases met

theorem not_clear_mono (met : ¬ Clear command final trace) (since : trace <+: reached) :
    ¬ Clear command final reached :=
  fun clear => met (clear.mono since)

theorem appends_snoc (trace : Trace Ports) (op : PortCall) (answer : op.Ans) :
    appends (trace ++ [⟨op, answer⟩]) = appends trace + if op.isAppend then 1 else 0 := by
  rw [appends, List.countP_append, List.countP_singleton]
  rfl

theorem Underway.snoc (underway : Underway command final trace) (other : op.isAppend = false)
    (spared : adverse command final trace op answer = false) :
    Underway command final (trace ++ [⟨op, answer⟩]) := by
  refine ⟨clear_snoc_iff.mpr ⟨underway.clear, spared⟩, ?_⟩
  rw [appends_snoc, underway.unappended, other]
  rfl

/-- Any other call may always be made. -/
theorem justified_of_other (kept : op.reclaims = false) (other : op.isAppend = false) :
    Justified command final trace op := by
  refine ⟨fun reclaims => ?_, fun appends => ?_⟩
  · rw [kept] at reclaims
    cases reclaims
  · rw [other] at appends
    cases appends

/-- The final delivery acts on a failure. -/
theorem not_clear_of_failed (met : fails trace op answer = true) (last : final = true) :
    ¬ Clear command final (trace ++ [⟨op, answer⟩]) := by
  refine not_clear_snoc ?_
  rw [adverse, last, met, Bool.true_and, Bool.or_true, Bool.true_or]

theorem ends_of_failed {error : String} (met : fails trace op answer = true) :
    Ends command final (trace ++ [⟨op, answer⟩]) (.retry error) :=
  fun _ _ => not_clear_of_failed met

/-! ### Outcomes -/

theorem along_record_justified {status : UploadStatus}
    (met : (∃ reason, status = .rejected reason) → ¬ Clear command final trace) :
    Along A (Justified command final) (fun reached _ => trace <+: reached) trace
      (record command status) := by
  refine along_perform (justified_of_other rfl rfl) fun now _ => ?_
  have since : trace <+: trace ++ [⟨.now, now⟩] := List.prefix_append _ _
  refine Along.bind (Transition.along_setStatus _ (fun _ _ _ => justified_of_other rfl rfl) ?_) ?_
  · intro before old revision extends_ _
    refine ⟨fun reclaims => ?_, nofun⟩
    have later := (since.trans extends_.since).trans (List.prefix_append before
      [(⟨.kvEntry command.recordKey, .ok (some (.put old revision))⟩ : Call Ports)])
    refine not_clear_mono (met ?_) later
    cases status with
    | rejected reason => exact ⟨reason, rfl⟩
    | _ => cases reclaims
  · exact fun reached _ answered => since.trans answered.1.since

theorem along_reclaim_justified (met : ¬ Clear command final trace) :
    Along A (Justified command final) (fun reached _ => ¬ Clear command final reached) trace
      (reclaim command) := by
  have later : ∀ {reached : Trace Ports}, trace <+: reached → ¬ Clear command final reached :=
    fun since => not_clear_mono met since
  refine ⟨⟨fun _ => met, nofun⟩, fun aborted _ => ?_⟩
  refine ⟨⟨fun _ => later (List.prefix_append _ _), nofun⟩, fun deleted _ => ?_⟩
  exact later ((List.prefix_append _ _).trans (List.prefix_append _ _))

theorem along_accept_justified {version : Nat} {superseded : Bool} :
    Along A (Justified command final) (Ends command final) trace
      (accept command version superseded) :=
  Along.bind (along_record_justified fun ⟨_, same⟩ => nomatch same) fun _ _ _ _ same => nomatch same

theorem along_reject_justified {reason : String} (met : ¬ Clear command final trace) :
    Along A (Justified command final) (Ends command final) trace (reject command reason) := by
  refine Along.bind (along_reclaim_justified met) fun reached _ met => ?_
  exact Along.bind (along_record_justified fun _ => met) fun _ _ _ _ same => nomatch same

/-! ### Append paths -/

/-- A failed append, from the call it came from. -/
def Refused (command : UploadCompleted) (final : Bool) (reached : Trace Ports)
    (result : Except AppendError Appended) : Prop :=
  ∀ error, result = .error error → final = true → ¬ Clear command final reached

theorem refused_of_failed {error : AppendError} (met : fails trace op answer = true) :
    Refused command final (trace ++ [⟨op, answer⟩]) (.error error) :=
  fun _ _ => not_clear_of_failed met

theorem along_resolveDuplicate_justified {tenant documentId : String} {appended : Appended} :
    Along A (Justified command final) (Refused command final) trace
      (resolveDuplicate tenant documentId appended) := by
  unfold resolveDuplicate
  split
  · exact fun _ same => nomatch same
  · refine along_perform (justified_of_other rfl rfl) fun answer _ => ?_
    rcases answer with error | (_ | ⟨version, seq⟩)
    · exact refused_of_failed rfl
    · exact refused_of_failed rfl
    · exact fun _ same => nomatch same

/-- The only conflict of a create is no failure: the head of the stream is read. -/
theorem along_appendCreate_justified {event : DocumentEvent}
    (underway : Underway command final trace) :
    Along A (Justified command final)
      (fun reached result => result = .error .alreadyCreated ∨ Refused command final reached result)
      trace (appendCreate event) := by
  refine along_perform ⟨nofun, fun _ => underway.clear⟩ fun answer _ => ?_
  rcases answer with (_ | message | message) | appended
  · exact .inl rfl
  · exact .inr (refused_of_failed rfl)
  · exact .inr (refused_of_failed rfl)
  · exact along_resolveDuplicate_justified.imp fun _ _ refused => .inr refused

theorem along_appendCreated_justified {sha256Hex : String}
    (underway : Underway command final trace) :
    Along A (Justified command final) (Ends command final) trace
      (appendCreated digest command sha256Hex) := by
  refine along_perform (justified_of_other rfl rfl) fun ts _ => ?_
  refine Along.bind (along_appendCreate_justified (underway.snoc rfl (by cases final <;> rfl))) ?_
  intro reached result ended
  rcases result with error | appended
  · have retried : error ≠ .alreadyCreated → Refused command final reached (.error error) :=
      fun other => ended.resolve_left fun same => other (Except.error.inj same)
    cases error with
    | alreadyCreated =>
        refine along_perform (justified_of_other rfl rfl) fun answer _ => ?_
        rcases answer with error | (_ | ⟨version, seq⟩)
        · exact ends_of_failed rfl
        · exact ends_of_failed rfl
        · exact along_accept_justified
    | _ => exact fun _ _ last => retried nofun _ rfl last
  · exact along_accept_justified

/-- The induction is on the attempts left: the conflict that ends the last one is adverse, those
before are not. -/
theorem along_appendUpdateFrom_justified {tenant documentId : String}
    {buildEvent : Nat → DocumentEvent} (attempts : Nat) (spent : appends trace + attempts = updateAttempts)
    (clear : attempts ≠ 0 → Clear command final trace)
    (exhausted : attempts = 0 → final = true → ¬ Clear command final trace) :
    Along A (Justified command final) (Refused command final) trace
      (appendUpdateFrom tenant documentId none buildEvent attempts) := by
  induction attempts generalizing trace with
  | zero => exact fun _ _ last => exhausted rfl last
  | succ attempts ih =>
      refine along_perform (justified_of_other rfl rfl) fun answer _ => ?_
      rcases answer with error | (_ | ⟨version, seq⟩)
      · exact refused_of_failed rfl
      · exact refused_of_failed rfl
      have read : Clear command final
          (trace ++ [⟨.last tenant documentId, .ok (some (version, seq))⟩]) :=
        clear_snoc_iff.mpr ⟨clear attempts.succ_ne_zero, by cases final <;> rfl⟩
      refine along_perform ⟨nofun, fun _ => read⟩ fun answer _ => ?_
      rcases answer with (_ | message | message) | appended
      · have before := appends_snoc trace (.last tenant documentId) (.ok (some (version, seq)))
        have after := appends_snoc
          (trace ++ [⟨.last tenant documentId, .ok (some (version, seq))⟩])
          (.append (buildEvent (version + 1)) (.exactly seq)) (.error .conflict)
        simp only [PortCall.isAppend, Bool.false_eq_true, if_false, if_true] at before after
        refine ih (by omega) (fun more => ?_) fun none_ last => ?_
        · refine clear_snoc_iff.mpr ⟨read, ?_⟩
          have early : fails
              (trace ++ [⟨.last tenant documentId, .ok (some (version, seq))⟩])
              (.append (buildEvent (version + 1)) (.exactly seq)) (.error .conflict) = false :=
            decide_eq_false (by omega)
          rw [adverse, early]
          cases final <;> rfl
        · refine refused_of_failed (decide_eq_true ?_) .conflictRetryExhausted rfl last
          omega
      · exact refused_of_failed rfl
      · exact refused_of_failed rfl
      · exact along_resolveDuplicate_justified

theorem along_appendOnto_justified {sha256Hex : String} (underway : Underway command final trace) :
    Along A (Justified command final) (Ends command final) trace
      (appendOnto digest command sha256Hex) := by
  refine along_perform (justified_of_other rfl rfl) fun now _ => ?_
  have later : Underway command final (trace ++ [⟨.now, now⟩]) :=
    underway.snoc rfl (by cases final <;> rfl)
  refine Along.bind (along_appendUpdateFrom_justified updateAttempts ?_ (fun _ => later.clear) nofun) ?_
  · rw [later.unappended, Nat.zero_add]
  · intro reached result refused
    rcases result with error | appended
    · exact fun _ _ last => refused error rfl last
    · exact along_accept_justified

/-- The read of the log is adverse just when the upload is rejected for it. -/
theorem along_appendReplaced_justified {sha256Hex : String} (underway : Underway command final trace)
    (begun : trace.length ≠ 1) :
    Along A (Justified command final) (Ends command final) trace
      (appendReplaced digest command sha256Hex) := by
  refine along_perform (justified_of_other rfl rfl) fun answer _ => ?_
  rcases answer with error | history
  · exact ends_of_failed rfl
  dsimp only
  cases found : findApplied history command.uploadId with
  | some entry => exact along_accept_justified
  | none =>
      have read : ∀ refuses : Bool,
          (match foldHistory history with
            | .ok (some state) => refusesVersion command state.version
            | _ => true) = refuses →
          adverse command final trace (.readStream command.tenantId command.documentId)
            (.ok history) = refuses := by
        intro refuses same
        simp [adverse, disowns, fails, unapplied, found, begun, same]
      dsimp only
      cases folded : foldHistory history with
      | error error => exact along_reject_justified (not_clear_snoc (read true (by rw [folded])))
      | ok result =>
          cases result with
          | none => exact along_reject_justified (not_clear_snoc (read true (by rw [folded])))
          | some state =>
              dsimp only
              cases refused : refusesVersion command state.version with
              | true =>
                  refine along_reject_justified (not_clear_snoc (read true ?_))
                  rw [folded]
                  exact refused
              | false =>
                  refine along_appendOnto_justified (underway.snoc rfl (read false ?_))
                  rw [folded]
                  exact refused

/-! ### The pipeline -/

theorem along_scanAndAppend_justified (underway : Underway command final trace) :
    Along A (Justified command final) (Ends command final) trace
      (scanAndAppend digest command) := by
  refine along_perform (justified_of_other rfl rfl) fun answer _ => ?_
  rcases answer with error | reader
  · exact ends_of_failed rfl
  have opened : Underway command final
      (trace ++ [⟨.openRead command.storageKey, .ok reader⟩]) :=
    underway.snoc rfl (by cases final <;> rfl)
  refine along_perform (justified_of_other rfl rfl) fun answer _ => ?_
  rcases answer with error | ⟨verdict, sha256Hex, byteCount⟩
  · exact ends_of_failed rfl
  cases verdict with
  | infected signature => exact along_reject_justified (not_clear_snoc rfl)
  | clean =>
      dsimp only
      split
      · rename_i other
        refine along_reject_justified (not_clear_snoc ?_)
        simp [adverse, disowns, other]
      · rename_i same
        have scanned : Underway command final
            (trace ++ [⟨.openRead command.storageKey, .ok reader⟩] ++
              [⟨.scan reader, .ok ⟨.clean, sha256Hex, byteCount⟩⟩]) :=
          opened.snoc rfl (by simp [adverse, disowns, fails, unapplied, not_not.mp same])
        cases mode : command.mode with
        | create => exact along_appendCreated_justified scanned
        | replace => exact along_appendReplaced_justified scanned (by simp)

/-- The head was measured already: an object of another size is adverse. -/
theorem along_inspect_justified {head : BlobHead}
    (underway : head.byteSize = command.declaredSize → Underway command final trace)
    (other : head.byteSize ≠ command.declaredSize → ¬ Clear command final trace) :
    Along A (Justified command final) (Ends command final) trace
      (inspect digest command head) := by
  unfold inspect
  split
  · rename_i differs
    exact along_reject_justified (other differs)
  · rename_i same
    have measured := underway (not_not.mp same)
    refine along_perform (justified_of_other rfl rfl) fun answer _ => ?_
    rcases answer with error | beginning
    · exact ends_of_failed rfl
    have sniffed : Underway command final
        (trace ++ [⟨.readPrefix command.storageKey prefixBytes, .ok beginning⟩]) :=
      measured.snoc rfl (by cases final <;> rfl)
    refine along_perform (justified_of_other rfl rfl) fun answer _ => ?_
    rcases answer with error | (_ | reason)
    · exact ends_of_failed rfl
    · exact along_scanAndAppend_justified (sniffed.snoc rfl (by cases final <;> rfl))
    · exact along_reject_justified (not_clear_snoc rfl)

/-- What the assemble step leaves. -/
def AssemblesJustified (command : UploadCompleted) (final : Bool) (trace : Trace Ports) :
    Assembled → Prop
  | .ready (some head) =>
      (head.byteSize = command.declaredSize → Underway command final trace) ∧
        (head.byteSize ≠ command.declaredSize → ¬ Clear command final trace)
  | .ready none => Underway command final trace
  | .terminal outcome => Ends command final trace outcome

/-- A head that was fetched, of the declared size or not. -/
theorem assembles_of_head {head : BlobHead} (underway : Underway command final trace) :
    AssemblesJustified command final
      (trace ++ [⟨.head command.storageKey, .ok (some head)⟩]) (.ready (some head)) := by
  refine ⟨fun same => underway.snoc rfl ?_, fun other => not_clear_snoc ?_⟩
  · simp [adverse, disowns, fails, unapplied, same]
  · simp [adverse, disowns, other]

theorem along_settleByHead_justified (underway : Underway command final trace) :
    Along A (Justified command final) (AssemblesJustified command final) trace
      (settleByHead command) := by
  refine along_perform (justified_of_other rfl rfl) fun answer _ => ?_
  rcases answer with error | (_ | head)
  · exact ends_of_failed rfl
  · exact Along.bind (along_reject_justified (not_clear_snoc rfl)) fun _ _ ends => ends
  · exact assembles_of_head underway

theorem along_assemble_justified (underway : Underway command final trace) :
    Along A (Justified command final) (AssemblesJustified command final) trace
      (assemble command) := by
  refine along_perform (justified_of_other rfl rfl) fun answer _ => ?_
  rcases answer with error | (_ | (_ | ⟨part, parts⟩))
  · exact ends_of_failed rfl
  · exact along_settleByHead_justified (underway.snoc rfl (by cases final <;> rfl))
  · exact Along.bind (along_reject_justified (not_clear_snoc rfl)) fun _ _ ends => ends
  have listed : Underway command final (trace ++
      [⟨.listParts command.storageKey command.multipartUploadId, .ok (some (part :: parts))⟩]) :=
    underway.snoc rfl (by cases final <;> rfl)
  refine along_perform (justified_of_other rfl rfl) fun answer _ => ?_
  rcases answer with ⟨kind, message⟩ | _
  · cases kind with
    | noSuchUpload => exact along_settleByHead_justified (listed.snoc rfl (by cases final <;> rfl))
    | transient => exact ends_of_failed rfl
    | invalidParts | notFound | permanent =>
        exact Along.bind (along_reject_justified (not_clear_snoc rfl)) fun _ _ ends => ends
  · exact listed.snoc rfl (by cases final <;> rfl)

theorem along_pipeline_justified (underway : Underway command final trace) :
    Along A (Justified command final) (Ends command final) trace (pipeline digest command) := by
  refine Along.bind (along_assemble_justified underway) fun reached assembled left => ?_
  rcases assembled with (_ | head) | outcome
  · refine along_perform (justified_of_other rfl rfl) fun answer _ => ?_
    rcases answer with error | (_ | head)
    · exact ends_of_failed rfl
    · exact along_reject_justified (not_clear_snoc rfl)
    · have measured : AssemblesJustified command final _ (.ready (some head)) :=
        assembles_of_head left
      exact along_inspect_justified measured.1 measured.2
  · exact along_inspect_justified left.1 left.2
  · exact left

theorem along_discardExpired_justified {entryAnswer : (PortCall.kvEntry command.recordKey).Ans} :
    Along A (Justified command final) (Ends command final)
      [⟨.kvEntry command.recordKey, entryAnswer⟩] (discardExpired command) := by
  refine along_perform (justified_of_other rfl rfl) fun answer _ => ?_
  rcases answer with error | history
  · exact ends_of_failed rfl
  dsimp only
  cases found : findApplied history command.uploadId with
  | some entry => exact fun _ same => nomatch same
  | none =>
      refine Along.bind (along_reclaim_justified (not_clear_snoc ?_)) fun _ _ _ _ same => nomatch same
      simp [adverse, unapplied, found]

theorem along_run_justified :
    Along A (Justified command final) (Ends command final) [] (run digest command) := by
  refine (along_bind _ _ _).mpr ((along_bind _ _ _).mpr
    (Transition.along_get (justified_of_other rfl rfl) ?_ ?_ ?_))
  · intro state revision
    dsimp only
    split
    · exact along_discardExpired_justified
    · rw [Program.pure_eq, along_ret]
      dsimp only
      have loaded : Underway command final
          ([] ++ [⟨.kvEntry command.recordKey, .ok (some (.put state revision))⟩]) :=
        Underway.snoc ⟨facts_nil, rfl⟩ rfl (by cases final <;> rfl)
      cases status : state.status with
      | uploading => exact along_pipeline_justified loaded
      | scanning => exact along_pipeline_justified loaded
      | accepted version superseded => exact fun _ same => nomatch same
      | rejected reason => exact fun _ same => nomatch same
  · intro entry gone
    exact along_discardExpired_justified
  · intro error error'
    exact ends_of_failed rfl

/-- Every path of a delivery. -/
theorem along_finish_justified :
    Along A (Justified command final) (fun _ _ => True) [] (finish digest command final) := by
  refine Along.bind along_run_justified fun reached outcome ends => ?_
  cases outcome with
  | accepted documentId version superseded => trivial
  | rejected reason => trivial
  | retry error =>
      dsimp only
      split
      · rename_i last
        exact (along_reject_justified (ends error rfl last)).imp fun _ _ _ => trivial
      · trivial

end Along

end UploadFinisher

end Delphi.Document
