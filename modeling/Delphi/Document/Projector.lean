/-
# Delphi.Document.Projector -- the projection loop

`ProjectionLoop::run` and `apply_batch` of
`document-adapters/src/postgres/projection.rs`, against the statements and stream
calls they issue.  A transaction is the handle `begin` answered.  The ordered
consumer is the sequence it stands at; the loop runs for as many rounds as it is
given, and leaving it then is the stream having ended.

`folded` is the loop's hash map, whose order of values is a parameter.
-/
import Mathlib.Data.List.AList
import Delphi.Theory.Program
import Delphi.Document.Subjects
import Delphi.Document.Table

namespace Delphi.Document

open Delphi.Theory

set_option autoImplicit false

inductive AdapterError where
  | topology (message : String)
  | database (message : String)
deriving DecidableEq

/-- What waiting for the consumer's next message ends with. -/
inductive Received where
  | message (message : Message)
  | failed (error : String)
  | ended
  | elapsed

inductive ProjectionCall where
  -- leader lease and stream
  | stillHeld
  | readCheckpoint (name : String)
  | createConsumer (startSequence : Nat)
  | openMessages
  | next (position : Nat)
  -- statements
  | begin
  | loadDocument (tx : Nat) (tenant documentId : String)
  | recordFailure (tx : Nat) (name : String) (streamSeq : Int) (subject : String) (payload : Json)
      (error : String)
  | upsertDocument (tx : Nat) (state : DocumentState)
  | writeCheckpoint (tx : Nat) (name : String) (streamSeq : Int)
  | commit (tx : Nat)

@[reducible] def ProjectionCall.Ans : ProjectionCall → Type
  | .stillHeld => Except String Bool
  | .readCheckpoint _ => Except String (Option Int)
  | .createConsumer _ => Except String Unit
  | .openMessages => Except String Unit
  | .next _ => Received
  | .begin => Except String Nat
  | .loadDocument _ _ _ => Except String (Option Row)
  | .recordFailure _ _ _ _ _ _ => Except String Unit
  | .upsertDocument _ _ => Except String Unit
  | .writeCheckpoint _ _ _ => Except String Unit
  | .commit _ => Except String Unit

abbrev ProjectionPorts : Signature := ⟨ProjectionCall, ProjectionCall.Ans⟩

abbrev query (op : ProjectionCall) : Program ProjectionPorts op.Ans :=
  Program.perform (S := ProjectionPorts) op

/-- The folded states of a batch. -/
abbrev Folded := AList fun _ : StreamKey => DocumentState

namespace Folded

def values (folded : Folded) : List DocumentState := folded.entries.map Sigma.snd

theorem mem_values {folded : Folded} {state : DocumentState} (mem : state ∈ folded.values) :
    ∃ key, folded.lookup key = some state := by
  obtain ⟨⟨key, state⟩, entry, rfl⟩ := List.mem_map.mp mem
  exact ⟨key, AList.mem_lookup_iff.mpr entry⟩

theorem values_of_lookup {folded : Folded} {key : StreamKey} {state : DocumentState}
    (found : folded.lookup key = some state) : state ∈ folded.values :=
  List.mem_map.mpr ⟨⟨key, state⟩, AList.mem_lookup_iff.mp found, rfl⟩

end Folded

structure ProjectionLoop where
  name : String
  batchSize : Nat
  /-- The order in which the hash map yields its values. -/
  intoValues : List DocumentState → List DocumentState
  permutes : ∀ states, (intoValues states).Perm states

namespace ProjectionLoop

variable (codec : Codec) (loop : ProjectionLoop)

def lastSeq (batch : List Message) : Nat := (batch.getLast?.map (·.sequence)).getD 0

/-- The state an event folds onto: the batch's own, or the row. -/
def loadPrior (tx : Nat) (folded : Folded) (key : Option StreamKey) :
    Program ProjectionPorts (Except AdapterError (Option DocumentState)) :=
  match key with
  | none => return .ok none
  | some key =>
      match folded.lookup key with
      | some state => return .ok (some state)
      | none => do
          match ← query (.loadDocument tx key.1 key.2) with
          | .error error => return .error (.database error)
          | .ok row => return .ok (row.map rowToDocument)

def foldBatch (tx : Nat) : Folded → List Message →
    Program ProjectionPorts (Except AdapterError Folded)
  | folded, [] => return .ok folded
  | folded, message :: rest => do
      match ← loadPrior tx folded (documentKeyFromSubject message.subject) with
      | .error error => return .error error
      | .ok prior =>
          match projectEvent codec prior message.payload message.sequence with
          | .upsert state => foldBatch tx (folded.insert state.streamKey state) rest
          | .failure payload error _ =>
              -- Neither an unknown event nor a fold error may stall the checkpoint.
              match ← query (.recordFailure tx loop.name (asI64 message.sequence) message.subject
                payload error) with
              | .error error => return .error (.database error)
              | .ok () => foldBatch tx folded rest

def upsertAll (tx : Nat) : List DocumentState → Program ProjectionPorts (Except AdapterError Unit)
  | [] => return .ok ()
  | state :: rest => do
      match ← query (.upsertDocument tx state) with
      | .error error => return .error (.database error)
      | .ok () => upsertAll tx rest

/-- The end of a batch's transaction. -/
def finishBatch (tx : Nat) (last : Nat) : Program ProjectionPorts (Except AdapterError Unit) := do
  match ← query (.writeCheckpoint tx loop.name (asI64 last)) with
  | .error error => return .error (.database error)
  | .ok () =>
      match ← query (.commit tx) with
      | .error error => return .error (.database error)
      | .ok () => return .ok ()

def applyBatch (batch : List Message) : Program ProjectionPorts (Except AdapterError Unit) := do
  match ← query .begin with
  | .error error => return .error (.database error)
  | .ok tx =>
      match ← foldBatch codec loop tx ∅ batch with
      | .error error => return .error error
      | .ok folded =>
          match ← upsertAll tx (loop.intoValues folded.values) with
          | .error error => return .error error
          | .ok () => finishBatch loop tx (lastSeq batch)

/-- Keep draining once a batch has started. -/
def drain : Nat → List Message → Program ProjectionPorts (List Message)
  | 0, batch => return batch
  | room + 1, batch => do
      match ← query (.next (lastSeq batch)) with
      | .message message => drain room (batch ++ [message])
      | _ => return batch

/-- The loop, from where its consumer stands. -/
def rounds : Nat → Nat → Program ProjectionPorts (Except AdapterError Unit)
  | 0, _ => return .ok ()
  | left + 1, position => do
      match ← query .stillHeld with
      | .error error => return .error (.database error)
      | .ok false => return .ok ()
      | .ok true =>
          match ← query (.next position) with
          | .failed _ => rounds left position
          | .ended => return .ok ()
          | .elapsed => rounds left position
          | .message message => do
              let batch ← drain (max loop.batchSize 1 - 1) [message]
              match ← query .stillHeld with
              | .error error => return .error (.database error)
              | .ok false => return .ok ()
              | .ok true =>
                  match ← applyBatch codec loop batch with
                  | .error error => return .error error
                  | .ok () => rounds left (lastSeq batch)

/-- Run until the lease is lost or the event stream ends. -/
def run (left : Nat) : Program ProjectionPorts (Except AdapterError Unit) := do
  match ← query (.readCheckpoint loop.name) with
  | .error error => return .error (.database error)
  | .ok sequence =>
      let checkpoint := clampU64 (sequence.getD 0)
      match ← query (.createConsumer (checkpoint + 1)) with
      | .error error => return .error (.topology ("create projection consumer: " ++ error))
      | .ok () =>
          match ← query .openMessages with
          | .error error => return .error (.topology ("open projection stream: " ++ error))
          | .ok () => rounds codec loop left checkpoint

end ProjectionLoop

end Delphi.Document
