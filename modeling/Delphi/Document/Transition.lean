/-
# Delphi.Document.Transition -- the one way an upload's status ever moves

`transition.rs` over the key-value adapter.  `set_status` re-reads and
compares-and-swaps, and refuses to move a record out of a terminal status.  A
lost compare-and-swap makes the adapter read once more, to tell a record that
moved from one that is gone.

What `set_status` does on every path is said once, in `along_setStatus`: the
only record it writes is the one it just read, not terminal, with its status
replaced; and each answer is justified by the call it came from (`Answered`).
-/
import Delphi.Document.Ports

namespace Delphi.Document

open Delphi.Theory

set_option autoImplicit false

namespace KvUploadStateStore

def get (tenant user uploadId : String) :
    Program Ports (Except ContextError (Option StoredUpload)) := do
  match ← ask (.kvEntry (UploadState.key tenant user uploadId)) with
  | .ok none => return .ok none
  -- A purged key comes back as a marker, which is not a record.
  | .ok (some (.marker _)) => return .ok none
  | .ok (some (.put state revision)) => return .ok (some ⟨state, revision⟩)
  | .error (.read message) => return .error (.unavailable ("get upload state: " ++ message))
  | .error (.decode message) => return .error (.payload ("decode upload state: " ++ message))

def update (state : UploadState) (revision : Nat) :
    Program Ports (Except ContextError Nat) := do
  match ← ask (.kvUpdate state.ownKey state revision) with
  | .ok revision => return .ok revision
  | .error .wrongLastRevision =>
      -- "Someone else wrote" and "the key is gone" look alike: re-read.
      match ← ask (.kvEntry state.ownKey) with
      | .ok (some (.put _ _)) => return .error .conflict
      | .ok _ => return .error .expired
      | .error (.decode _) => return .error .conflict
      | .error (.read message) =>
          return .error (.unavailable ("re-read upload state after a lost CAS: " ++ message))
  | .error (.other message) => return .error (.unavailable ("update upload state: " ++ message))

end KvUploadStateStore

set_option linter.dupNamespace false

namespace Transition

/-- How many times a CAS re-reads before giving up. -/
def casAttempts : Nat := 3

/-- What happened to the requested transition. -/
inductive Transition where
  | applied (state : UploadState)
  | alreadyTerminal (state : UploadState)
  | expired

/-- `set_status` with this many attempts left. -/
def setStatusFrom (tenant user uploadId : String) (status : UploadStatus) (now : Timestamp) :
    Nat → Program Ports (Except DocumentError Transition)
  | 0 =>
      return .error
        (.internalIn "upload state" "gave up after repeated compare-and-swap conflicts")
  | attempts + 1 => do
      match ← KvUploadStateStore.get tenant user uploadId with
      | .error error => return .error (.ofContextError error)
      | .ok none => return .ok .expired
      | .ok (some stored) =>
          if stored.state.status.isTerminal then
            return .ok (.alreadyTerminal stored.state)
          else do
            match ← KvUploadStateStore.update (stored.state.withStatus status now)
                stored.revision with
            | .ok _ => return .ok (.applied (stored.state.withStatus status now))
            | .error .conflict => setStatusFrom tenant user uploadId status now attempts
            | .error .expired => return .ok .expired
            | .error error => return .error (.ofContextError error)

/-- Move an upload to `status`, unless it has already finished. -/
def setStatus (tenant user uploadId : String) (status : UploadStatus) (now : Timestamp) :
    Program Ports (Except DocumentError Transition) :=
  setStatusFrom tenant user uploadId status now casAttempts

/-- Load a record, distinguishing "expired" from "not yours". -/
def load (tenant user uploadId : String) :
    Program Ports (Except DocumentError (Option UploadState)) := do
  match ← KvUploadStateStore.get tenant user uploadId with
  | .error error => return .error (.ofContextError error)
  | .ok none => return .ok none
  | .ok (some stored) =>
      if stored.state.ownerUserId ≠ user ∨ stored.state.tenantId ≠ tenant then
        return .ok none
      else
        return .ok (some stored.state)

/-! ## The paths of `set_status` -/

/-- A call of the upload-state bucket. -/
def IsKv : PortCall → Prop
  | .kvEntry _ => True
  | .kvUpdate _ _ _ => True
  | _ => False

/-- The trace went on with bucket calls only. -/
def KvExtends (start reached : Trace Ports) : Prop :=
  ∃ more, reached = start ++ more ∧ ∀ call ∈ more, IsKv call.1

theorem KvExtends.refl (trace : Trace Ports) : KvExtends trace trace := ⟨[], by simp, by simp⟩

theorem KvExtends.snoc {start reached : Trace Ports} (extends_ : KvExtends start reached)
    (op : PortCall) (kv : IsKv op) (answer : op.Ans) :
    KvExtends start (reached ++ [⟨op, answer⟩]) := by
  obtain ⟨more, rfl, only⟩ := extends_
  refine ⟨more ++ [⟨op, answer⟩], by simp, fun call mem => ?_⟩
  rcases List.mem_append.mp mem with old | new
  · exact only call old
  · obtain rfl := List.mem_singleton.mp new
    exact kv

theorem KvExtends.since {start reached : Trace Ports} (extends_ : KvExtends start reached) :
    start <+: reached := by
  obtain ⟨more, rfl, -⟩ := extends_
  exact List.prefix_append _ _

/-- The call the answer of `set_status` came from. -/
inductive Answered (key : String) (status : UploadStatus) (now : Timestamp) :
    Trace Ports → Transition → Prop where
  | applied {before : Trace Ports} {old : UploadState} {revision next : Nat}
      (open_ : old.status.isTerminal = false) :
      Answered key status now
        (before ++ [⟨.kvEntry key, .ok (some (.put old revision))⟩] ++
          [⟨.kvUpdate old.ownKey (old.withStatus status now) revision, .ok next⟩])
        (.applied (old.withStatus status now))
  | alreadyTerminal {before : Trace Ports} {old : UploadState} {revision : Nat}
      (terminal : old.status.isTerminal = true) :
      Answered key status now (before ++ [⟨.kvEntry key, .ok (some (.put old revision))⟩])
        (.alreadyTerminal old)
  | missing {before : Trace Ports} {entry : Option (KvEntry UploadState)}
      (gone : ∀ old revision, entry ≠ some (.put old revision)) :
      Answered key status now (before ++ [⟨.kvEntry key, .ok entry⟩]) .expired
  | lost {before : Trace Ports} {old : UploadState} {revision : Nat}
      {entry : Option (KvEntry UploadState)}
      (gone : ∀ old revision, entry ≠ some (.put old revision)) :
      Answered key status now
        (before ++ [⟨.kvEntry key, .ok (some (.put old revision))⟩] ++
          [⟨.kvUpdate old.ownKey (old.withStatus status now) revision,
            .error .wrongLastRevision⟩] ++ [⟨.kvEntry old.ownKey, .ok entry⟩])
        .expired

section Paths

variable {A : Trace Ports → (op : PortCall) → op.Ans → Prop} {P : Trace Ports → PortCall → Prop}
  {tenant user uploadId : String} {status : UploadStatus} {now : Timestamp}

/-- One read of the record. -/
theorem along_get {Q : Trace Ports → Except ContextError (Option StoredUpload) → Prop}
    {trace : Trace Ports} (issued : P trace (.kvEntry (UploadState.key tenant user uploadId)))
    (found : ∀ state revision, Q (trace ++ [⟨.kvEntry (UploadState.key tenant user uploadId),
      .ok (some (.put state revision))⟩]) (.ok (some ⟨state, revision⟩)))
    (missing : ∀ entry, (∀ state revision, entry ≠ some (.put state revision)) →
      Q (trace ++ [⟨.kvEntry (UploadState.key tenant user uploadId), .ok entry⟩]) (.ok none))
    (failed : ∀ error error', Q (trace ++ [⟨.kvEntry (UploadState.key tenant user uploadId),
      .error error⟩]) (.error error')) :
    Along A P Q trace (KvUploadStateStore.get tenant user uploadId) := by
  refine ⟨issued, fun answer _ => ?_⟩
  rcases answer with error | (_ | entry)
  · cases error <;> exact failed _ _
  · exact missing none (by simp)
  · cases entry with
    | put state revision => exact found state revision
    | marker revision => exact missing (some (.marker revision)) (by simp)

/-- What `set_status` issues and answers, wherever it is called from: it reads
the record, writes back only what it read, not terminal, under the requested
status, and answers with what its last call saw. -/
theorem along_setStatusFrom (start : Trace Ports)
    (entry : ∀ reached key, KvExtends start reached → P reached (.kvEntry key))
    (swap : ∀ before old revision, KvExtends start before → old.status.isTerminal = false →
      P (before ++ [⟨.kvEntry (UploadState.key tenant user uploadId),
        .ok (some (.put old revision))⟩])
        (.kvUpdate old.ownKey (old.withStatus status now) revision))
    (attempts : Nat) (trace : Trace Ports) (extends_ : KvExtends start trace) :
    Along A P (fun reached result => KvExtends start reached ∧
      ∀ transition, result = .ok transition →
        Answered (UploadState.key tenant user uploadId) status now reached transition) trace
      (setStatusFrom tenant user uploadId status now attempts) := by
  induction attempts generalizing trace with
  | zero => exact ⟨extends_, by simp⟩
  | succ attempts ih =>
      refine (along_bind _ _ _).mpr (along_get (entry _ _ extends_) ?_ ?_ ?_)
      · intro old revision
        have read := extends_.snoc (.kvEntry (UploadState.key tenant user uploadId)) trivial
          (.ok (some (.put old revision)))
        cases terminal : old.status.isTerminal with
        | true =>
            simp only [terminal, if_true]
            refine ⟨read, ?_⟩
            rintro _ ⟨⟩
            exact .alreadyTerminal terminal
        | false =>
            simp only [terminal, Bool.false_eq_true, if_false]
            refine ⟨swap trace old revision extends_ terminal, fun answer _ => ?_⟩
            rcases answer with (_ | message) | next
            · have swapped := read.snoc
                (.kvUpdate old.ownKey (old.withStatus status now) revision) trivial
                (.error .wrongLastRevision)
              refine ⟨entry _ _ swapped, fun answer _ => ?_⟩
              rcases answer with (message | message) | (_ | held)
              · exact ⟨swapped.snoc (.kvEntry old.ownKey) trivial _, by
                  rintro _ ⟨⟩⟩
              · exact ih _ (swapped.snoc (.kvEntry old.ownKey) trivial _)
              · refine ⟨swapped.snoc (.kvEntry old.ownKey) trivial _, ?_⟩
                rintro _ ⟨⟩
                exact .lost (by simp)
              · cases held with
                | put other revision' => exact ih _ (swapped.snoc (.kvEntry old.ownKey) trivial _)
                | marker revision' =>
                    refine ⟨swapped.snoc (.kvEntry old.ownKey) trivial _, ?_⟩
                    rintro _ ⟨⟩
                    exact .lost (by simp)
            · exact ⟨read.snoc (.kvUpdate old.ownKey (old.withStatus status now) revision)
                trivial _, by rintro _ ⟨⟩⟩
            · refine ⟨read.snoc (.kvUpdate old.ownKey (old.withStatus status now) revision)
                trivial _, ?_⟩
              rintro _ ⟨⟩
              exact .applied terminal
      · intro held gone
        refine ⟨extends_.snoc (.kvEntry _) trivial _, ?_⟩
        rintro _ ⟨⟩
        exact .missing gone
      · intro error error'
        exact ⟨extends_.snoc (.kvEntry _) trivial _, by rintro _ ⟨⟩⟩

theorem along_setStatus (start : Trace Ports)
    (entry : ∀ reached key, KvExtends start reached → P reached (.kvEntry key))
    (swap : ∀ before old revision, KvExtends start before → old.status.isTerminal = false →
      P (before ++ [⟨.kvEntry (UploadState.key tenant user uploadId),
        .ok (some (.put old revision))⟩])
        (.kvUpdate old.ownKey (old.withStatus status now) revision)) :
    Along A P (fun reached result => KvExtends start reached ∧
      ∀ transition, result = .ok transition →
        Answered (UploadState.key tenant user uploadId) status now reached transition) start
      (setStatus tenant user uploadId status now) :=
  along_setStatusFrom start entry swap casAttempts start (.refl start)

end Paths

end Transition

end Delphi.Document
