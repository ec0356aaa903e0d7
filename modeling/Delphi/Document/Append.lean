/-
# Delphi.Document.Append -- the two append paths

`append.rs`.  A create is never retried: on a create the conflict is the answer.
An update re-reads the head and compares-and-swaps, at most three times.  On a
dedupe the pair is re-read from the head of the stream.

The calls behind each answer are `CreateAnswered` and `UpdateAnswered`; both
helpers are summed up by them, whatever is asked of the calls on the way.
-/
import Delphi.Document.Ports

namespace Delphi.Document

open Delphi.Theory

set_option autoImplicit false

/-- How many times an update re-reads and re-CASes before giving up. -/
def updateAttempts : Nat := 3

def resolveDuplicate (tenant documentId : String) (appended : Appended) :
    Program Ports (Except AppendError Appended) :=
  if appended.duplicate = false then
    return .ok appended
  else do
    match ← ask (.last tenant documentId) with
    | .ok (some (version, streamSeq)) => return .ok ⟨streamSeq, version, true⟩
    | .ok none => return .error .noSuchDocument
    | .error error => return .error (.store error)

/-- Append the first event for a document. -/
def appendCreate (event : DocumentEvent) : Program Ports (Except AppendError Appended) := do
  match ← ask (.append event .createOnly) with
  | .ok appended => resolveDuplicate event.tenantId event.documentId appended
  | .error .conflict => return .error .alreadyCreated
  | .error error => return .error (.store error)

/-- The client's version, when it is not the current one. -/
def staleClient (clientVersion : Option Nat) (currentVersion : Nat) : Option Nat :=
  clientVersion.filter fun client => client ≠ currentVersion

/-- `append_update` with this many attempts left. -/
def appendUpdateFrom (tenant documentId : String) (clientVersion : Option Nat)
    (buildEvent : Nat → DocumentEvent) : Nat → Program Ports (Except AppendError Appended)
  | 0 => return .error .conflictRetryExhausted
  | attempts + 1 => do
      match ← ask (.last tenant documentId) with
      | .error error => return .error (.store error)
      | .ok none => return .error .noSuchDocument
      | .ok (some (currentVersion, currentSeq)) =>
          match staleClient clientVersion currentVersion with
          | some client => return .error (.versionMismatch client currentVersion)
          | none =>
              match ← ask (.append (buildEvent (currentVersion + 1)) (.exactly currentSeq)) with
              | .ok appended => resolveDuplicate tenant documentId appended
              -- Something landed in the window. Re-read and try again.
              | .error .conflict =>
                  appendUpdateFrom tenant documentId clientVersion buildEvent attempts
              | .error error => return .error (.store error)

/-- Append a subsequent event. -/
def appendUpdate (tenant documentId : String) (clientVersion : Option Nat)
    (buildEvent : Nat → DocumentEvent) : Program Ports (Except AppendError Appended) :=
  appendUpdateFrom tenant documentId clientVersion buildEvent updateAttempts

/-! ## The paths of both -/

/-- The last call of the trace is not a successful read of a stream. -/
def NotRead (trace : Trace Ports) : Prop :=
  ∀ before tenant documentId history,
    trace ≠ before ++ [⟨.readStream tenant documentId, .ok history⟩]

theorem notRead_snoc {trace : Trace Ports} {op : PortCall} {answer : op.Ans}
    (other : ∀ tenant documentId, op ≠ .readStream tenant documentId) :
    NotRead (trace ++ [⟨op, answer⟩]) := by
  intro before tenant documentId history same
  obtain ⟨-, last⟩ := List.append_inj' same rfl
  have call := List.head_eq_of_cons_eq last
  exact other tenant documentId (congrArg Sigma.fst call)

/-- The calls an answer of `append_create` came from. -/
inductive CreateAnswered (event : DocumentEvent) (start : Trace Ports) :
    Trace Ports → Except AppendError Appended → Prop where
  | fresh {appended : Appended} (fresh : appended.duplicate = false) :
      CreateAnswered event start (start ++ [⟨.append event .createOnly, .ok appended⟩])
        (.ok appended)
  | again {appended : Appended} {version seq : Nat} (duplicate : appended.duplicate = true) :
      CreateAnswered event start
        (start ++ [⟨.append event .createOnly, .ok appended⟩] ++
          [⟨.last event.tenantId event.documentId, .ok (some (version, seq))⟩])
        (.ok ⟨seq, version, true⟩)
  | conflict :
      CreateAnswered event start (start ++ [⟨.append event .createOnly, .error .conflict⟩])
        (.error .alreadyCreated)
  | failed {reached : Trace Ports} {error : AppendError} (other : error ≠ .alreadyCreated)
      (notRead : NotRead reached) : CreateAnswered event start reached (.error error)

/-- The calls an answer of `append_update` came from. -/
inductive UpdateAnswered (tenant documentId : String) (buildEvent : Nat → DocumentEvent)
    (start : Trace Ports) : Trace Ports → Except AppendError Appended → Prop where
  | fresh {before : Trace Ports} {version seq : Nat} {appended : Appended}
      (since : start <+: before) (fresh : appended.duplicate = false) :
      UpdateAnswered tenant documentId buildEvent start
        (before ++ [⟨.last tenant documentId, .ok (some (version, seq))⟩] ++
          [⟨.append (buildEvent (version + 1)) (.exactly seq), .ok appended⟩])
        (.ok appended)
  | again {before : Trace Ports} {version seq current currentSeq : Nat} {appended : Appended}
      (since : start <+: before) (duplicate : appended.duplicate = true) :
      UpdateAnswered tenant documentId buildEvent start
        (before ++ [⟨.last tenant documentId, .ok (some (version, seq))⟩] ++
          [⟨.append (buildEvent (version + 1)) (.exactly seq), .ok appended⟩] ++
          [⟨.last tenant documentId, .ok (some (current, currentSeq))⟩])
        (.ok ⟨currentSeq, current, true⟩)
  | failed {reached : Trace Ports} {error : AppendError} (since : start <+: reached)
      (notRead : NotRead reached) : UpdateAnswered tenant documentId buildEvent start reached
        (.error error)

section Paths

variable {A : Trace Ports → (op : PortCall) → op.Ans → Prop} {P : Trace Ports → PortCall → Prop}

theorem along_appendCreate {event : DocumentEvent} {start : Trace Ports}
    (issued : P start (.append event .createOnly))
    (reread : ∀ appended, P (start ++ [⟨.append event .createOnly, .ok appended⟩])
      (.last event.tenantId event.documentId)) :
    Along A P (CreateAnswered event start) start (appendCreate event) := by
  refine ⟨issued, fun answer _ => ?_⟩
  rcases answer with error | appended
  · cases error with
    | conflict => exact .conflict
    | unavailable message => exact .failed (by simp) (notRead_snoc (by simp))
    | payload message => exact .failed (by simp) (notRead_snoc (by simp))
  · dsimp only [bind, Program.bind, resolveDuplicate]
    cases duplicate : appended.duplicate with
    | false => exact .fresh duplicate
    | true =>
        refine ⟨reread appended, fun answer _ => ?_⟩
        rcases answer with error | (_ | ⟨version, seq⟩)
        · exact .failed (by simp) (notRead_snoc (by simp))
        · exact .failed (by simp) (notRead_snoc (by simp))
        · exact .again duplicate

/-- The induction is on the attempts left; a conflict goes round once more. -/
theorem along_appendUpdateFrom {tenant documentId : String} {client : Option Nat}
    {buildEvent : Nat → DocumentEvent} {start : Trace Ports}
    (read : ∀ reached, start <+: reached → P reached (.last tenant documentId))
    (issued : ∀ before version seq, start <+: before →
      P (before ++ [⟨.last tenant documentId, .ok (some (version, seq))⟩])
        (.append (buildEvent (version + 1)) (.exactly seq)))
    (attempts : Nat) {trace : Trace Ports} (since : start <+: trace) (notRead : NotRead trace) :
    Along A P (UpdateAnswered tenant documentId buildEvent start) trace
      (appendUpdateFrom tenant documentId client buildEvent attempts) := by
  induction attempts generalizing trace with
  | zero => exact .failed since notRead
  | succ attempts ih =>
      refine ⟨read trace since, fun answer _ => ?_⟩
      have later (answer : (PortCall.last tenant documentId).Ans) :
          start <+: trace ++ [⟨.last tenant documentId, answer⟩] :=
        since.trans (List.prefix_append _ _)
      rcases answer with error | (_ | ⟨version, seq⟩)
      · exact .failed (later _) (notRead_snoc (by simp))
      · exact .failed (later _) (notRead_snoc (by simp))
      · dsimp only [bind, Program.bind]
        cases staleClient client version with
        | some client => exact .failed (later _) (notRead_snoc (by simp))
        | none =>
            refine ⟨issued trace version seq since, fun answer _ => ?_⟩
            have swapped (answer : (PortCall.append (buildEvent (version + 1)) (.exactly seq)).Ans) :
                start <+: trace ++ [⟨.last tenant documentId, .ok (some (version, seq))⟩] ++
                  [⟨.append (buildEvent (version + 1)) (.exactly seq), answer⟩] :=
              (later _).trans (List.prefix_append _ _)
            rcases answer with error | appended
            · cases error with
              | conflict => exact ih (swapped _) (notRead_snoc (by simp))
              | unavailable message => exact .failed (swapped _) (notRead_snoc (by simp))
              | payload message => exact .failed (swapped _) (notRead_snoc (by simp))
            · dsimp only [bind, Program.bind, resolveDuplicate]
              cases duplicate : appended.duplicate with
              | false => exact .fresh since duplicate
              | true =>
                  refine ⟨read _ (swapped _), fun answer _ => ?_⟩
                  rcases answer with error | (_ | ⟨current, currentSeq⟩)
                  · exact .failed ((swapped _).trans (List.prefix_append _ _)) (notRead_snoc (by simp))
                  · exact .failed ((swapped _).trans (List.prefix_append _ _)) (notRead_snoc (by simp))
                  · exact .again since duplicate

end Paths

end Delphi.Document
