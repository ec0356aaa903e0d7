/-
# Delphi.Document.ProjectionStore -- the tables the projection writes

The statements of the projection loop over a database of sessions: the guarded
upsert of a document, the record of a failure, and the checkpoint, which is
written whatever it was.  A statement fails on a value its columns do not take,
waits while another session holds the row, and may fail at any time; a commit
that is not acknowledged may have happened.

Document rows only move on (`serves_extends`).
-/
import Delphi.Theory.Transactions
import Delphi.Document.PrefixFold
import Delphi.Document.Projector

namespace Delphi.Document

open Delphi.Theory

set_option autoImplicit false

/-- A row of one of the three tables, by its primary key. -/
inductive Target where
  | document (key : StreamKey)
  | checkpoint (name : String)
  | failure (name : String) (streamSeq : Int)
deriving DecidableEq

/-- A row of `projection_failure`. -/
structure FailureRow where
  subject : String
  payload : Json
  error : String

@[reducible] def Target.Stored : Target → Type
  | .document _ => Row
  | .checkpoint _ => Int
  | .failure _ _ => FailureRow

abbrev ProjectionRows := Rows Target Target.Stored
abbrev ProjectionDb := Database Target Target.Stored

/-- Document rows are compared by the sequence they stand at. -/
def versions : Versioning Target Target.Stored where
  le
    | .document _, row, row' => row.streamSeq ≤ row'.streamSeq
    | .checkpoint _, _, _ => True
    | .failure _ _, _, _ => True
  refl k v := by cases k <;> simp
  trans {k a b c} first second := by
    cases k with
    | document key => exact Int.le_trans first second
    | checkpoint name => trivial
    | failure name streamSeq => trivial

/-! ## Statements -/

/-- A statement that writes: its session, whether its values are storable, and the
row it writes given the rows it sees. -/
structure Statement where
  tx : Nat
  storable : Bool
  effect : ProjectionRows → Option (Written Target Target.Stored)

namespace Statement

/-- Insert, or update all columns but `created_at` of an older row. -/
def upsert (jsonb : Jsonb) (tx : Nat) (state : DocumentState) : Statement where
  tx := tx
  storable := state.storable
  effect rows :=
    match rows (.document state.streamKey) with
    | none => some ⟨.document state.streamKey, bindRow jsonb state⟩
    | some old =>
        if old.streamSeq < (bindRow jsonb state).streamSeq then
          some ⟨.document state.streamKey, { bindRow jsonb state with createdAt := old.createdAt }⟩
        else none

def recordFailure (tx : Nat) (name : String) (streamSeq : Int) (subject : String) (payload : Json)
    (error : String) : Statement where
  tx := tx
  storable := textStorable name && textStorable subject && payload.storable && textStorable error
  effect rows :=
    match rows (.failure name streamSeq) with
    | none => some ⟨.failure name streamSeq, ⟨subject, payload, error⟩⟩
    | some _ => none

def checkpoint (tx : Nat) (name : String) (streamSeq : Int) : Statement where
  tx := tx
  storable := textStorable name
  effect _ := some ⟨.checkpoint name, streamSeq⟩

/-- What may come of a statement. -/
inductive Executed (db : ProjectionDb) (statement : Statement) :
    Except String Unit → ProjectionDb → Prop where
  | failed (error : String) : Executed db statement (.error error) db
  | skipped {writes : List (Written Target Target.Stored)}
      (found : db.sessions[statement.tx]? = some (.active writes))
      (storable : statement.storable = true)
      (nothing : statement.effect (db.rows.overlay writes) = none) :
      Executed db statement (.ok ()) db
  | wrote {writes : List (Written Target Target.Stored)} {written : Written Target Target.Stored}
      (found : db.sessions[statement.tx]? = some (.active writes))
      (storable : statement.storable = true)
      (writing : statement.effect (db.rows.overlay writes) = some written)
      (free : db.locked statement.tx written.1 = false) :
      Executed db statement (.ok ()) (db.write statement.tx writes written)

/-- A statement against a database that serves every one it can. -/
def answer (statement : Statement) (db : ProjectionDb) : Except String Unit :=
  match db.writesOf statement.tx with
  | none => .error "no transaction is in progress"
  | some writes =>
      if statement.storable then
        match statement.effect (db.rows.overlay writes) with
        | none => .ok ()
        | some written =>
            if db.locked statement.tx written.1 then .error "canceling statement due to lock timeout"
            else .ok ()
      else .error "unsupported Unicode escape sequence"

def after (statement : Statement) (db : ProjectionDb) : ProjectionDb :=
  match db.writesOf statement.tx with
  | none => db
  | some writes =>
      if statement.storable then
        match statement.effect (db.rows.overlay writes) with
        | none => db
        | some written =>
            if db.locked statement.tx written.1 then db
            else db.write statement.tx writes written
      else db

theorem executed_answer (statement : Statement) (db : ProjectionDb) :
    statement.Executed db (statement.answer db) (statement.after db) := by
  unfold answer after
  cases open_ : db.writesOf statement.tx with
  | none => exact .failed _
  | some writes =>
      have found := Database.active_of_writesOf open_
      by_cases storable : statement.storable = true
      · simp only [storable, if_true]
        cases writing : statement.effect (db.rows.overlay writes) with
        | none => exact .skipped found storable writing
        | some written =>
            simp only
            split
            · exact .failed _
            · rename_i free
              exact .wrote found storable writing (by simpa using free)
      · simp only [storable, Bool.false_eq_true, if_false]
        exact .failed _

/-- The row a statement writes is no older than the one it sees. -/
def Advances (statement : Statement) : Prop :=
  ∀ (rows : ProjectionRows) written, statement.effect rows = some written →
    ∀ old, rows written.1 = some old → versions.le written.1 old written.2

theorem upsert_advances (jsonb : Jsonb) (tx : Nat) (state : DocumentState) :
    (upsert jsonb tx state).Advances := by
  intro rows written writing old found
  simp only [upsert] at writing
  split at writing
  · rename_i absent
    cases writing
    rw [absent] at found
    cases found
  · rename_i row present
    split at writing
    · rename_i older
      cases writing
      obtain rfl : row = old := Option.some.inj (present.symm.trans found)
      exact Int.le_of_lt older
    · cases writing

theorem recordFailure_advances (tx : Nat) (name : String) (streamSeq : Int) (subject : String)
    (payload : Json) (error : String) :
    (recordFailure tx name streamSeq subject payload error).Advances := by
  intro rows written writing old found
  simp only [recordFailure] at writing
  split at writing
  · cases writing
    trivial
  · cases writing

theorem checkpoint_advances (tx : Nat) (name : String) (streamSeq : Int) :
    (checkpoint tx name streamSeq).Advances := by
  intro rows written writing old found
  cases writing
  trivial

theorem Executed.extends {db db' : ProjectionDb} {statement : Statement}
    {answer : Except String Unit} (executed : statement.Executed db answer db')
    (advances : statement.Advances) (orderly : versions.Orderly db) :
    versions.Orderly db' ∧ versions.Extends db db' := by
  cases executed with
  | failed error => exact ⟨orderly, .refl db⟩
  | skipped found storable nothing => exact ⟨orderly, .refl db⟩
  | wrote found storable writing free =>
      exact orderly.write found free (advances _ _ writing)

end Statement

/-! ## The database behind the loop -/

namespace ProjectionDb

variable {codec : Codec} {crc32 : String → Nat} (jsonb : Jsonb) (log : EventLog codec crc32)

/-- What a call of the loop may be answered, and the database after it. A restart
may be from the stored checkpoint or any earlier one. -/
def serves (db : ProjectionDb) : (op : ProjectionCall) → op.Ans → ProjectionDb → Prop
  | .stillHeld, _, db' => db' = db
  | .readCheckpoint name, answer, db' => db' = db ∧ ∀ sequence, answer = .ok (some sequence) →
      ∃ stored, db.rows (.checkpoint name) = some stored ∧ sequence ≤ stored
  | .createConsumer _, _, db' => db' = db
  | .openMessages, _, db' => db' = db
  | .next position, answer, db' => db' = db ∧ ∀ message, answer = .message message →
      log.next position = some message
  | .begin, answer, db' => (∃ error, answer = .error error ∧ db' = db) ∨
      (answer = .ok db.sessions.length ∧ db' = db.begin)
  | .loadDocument tx tenant documentId, answer, db' => db' = db ∧ ∀ row, answer = .ok row →
      ∃ writes, db.sessions[tx]? = some (.active writes) ∧
        row = db.rows.overlay writes (.document (tenant, documentId))
  | .recordFailure tx name streamSeq subject payload error, answer, db' =>
      (Statement.recordFailure tx name streamSeq subject payload error).Executed db answer db'
  | .upsertDocument tx state, answer, db' =>
      (Statement.upsert jsonb tx state).Executed db answer db'
  | .writeCheckpoint tx name streamSeq, answer, db' =>
      (Statement.checkpoint tx name streamSeq).Executed db answer db'
  | .commit tx, answer, db' =>
      (∃ writes, db.sessions[tx]? = some (.active writes) ∧ db' = db.commit tx writes) ∨
      (∃ error, answer = .error error) ∧ (db' = db ∨
        ∃ writes, db.sessions[tx]? = some (.active writes) ∧ db' = db.rollback tx)

/-- Answers of a database and a stream in order. -/
def answer (db : ProjectionDb) : (op : ProjectionCall) → op.Ans
  | .stillHeld => .ok true
  | .readCheckpoint name => .ok (db.rows (.checkpoint name))
  | .createConsumer _ => .ok ()
  | .openMessages => .ok ()
  | .next position =>
      match log.next position with
      | some message => .message message
      | none => .ended
  | .begin => .ok db.sessions.length
  | .loadDocument tx tenant documentId =>
      match db.writesOf tx with
      | some writes => .ok (db.rows.overlay writes (.document (tenant, documentId)))
      | none => .error "no transaction is in progress"
  | .recordFailure tx name streamSeq subject payload error =>
      (Statement.recordFailure tx name streamSeq subject payload error).answer db
  | .upsertDocument tx state => (Statement.upsert jsonb tx state).answer db
  | .writeCheckpoint tx name streamSeq => (Statement.checkpoint tx name streamSeq).answer db
  | .commit tx =>
      match db.writesOf tx with
      | some _ => .ok ()
      | none => .error "no transaction is in progress"

def after (db : ProjectionDb) : ProjectionCall → ProjectionDb
  | .begin => db.begin
  | .recordFailure tx name streamSeq subject payload error =>
      (Statement.recordFailure tx name streamSeq subject payload error).after db
  | .upsertDocument tx state => (Statement.upsert jsonb tx state).after db
  | .writeCheckpoint tx name streamSeq => (Statement.checkpoint tx name streamSeq).after db
  | .commit tx =>
      match db.writesOf tx with
      | some writes => db.commit tx writes
      | none => db
  | _ => db

theorem serves_answer (db : ProjectionDb) (op : ProjectionCall) :
    serves jsonb log db op (answer jsonb log db op) (after jsonb db op) := by
  cases op with
  | stillHeld => rfl
  | readCheckpoint name =>
      refine ⟨rfl, fun sequence found => ⟨sequence, ?_, Int.le_refl _⟩⟩
      exact Except.ok.inj found
  | createConsumer startSequence => rfl
  | openMessages => rfl
  | next position =>
      refine ⟨rfl, fun message found => ?_⟩
      simp only [answer] at found
      split at found
      · rename_i first here
        cases found
        exact here
      · cases found
  | begin => exact .inr ⟨rfl, rfl⟩
  | loadDocument tx tenant documentId =>
      refine ⟨rfl, fun row found => ?_⟩
      simp only [answer] at found
      split at found
      · rename_i writes open_
        cases found
        exact ⟨writes, Database.active_of_writesOf open_, rfl⟩
      · cases found
  | recordFailure tx name streamSeq subject payload error => exact Statement.executed_answer _ db
  | upsertDocument tx state => exact Statement.executed_answer _ db
  | writeCheckpoint tx name streamSeq => exact Statement.executed_answer _ db
  | commit tx =>
      simp only [answer, after]
      cases open_ : db.writesOf tx with
      | some writes => exact .inl ⟨writes, Database.active_of_writesOf open_, rfl⟩
      | none => exact .inr ⟨⟨_, rfl⟩, .inl rfl⟩

/-- A session's client is gone. -/
def Abandoned (db db' : ProjectionDb) : Prop :=
  ∃ tx writes, db.sessions[tx]? = some (.active writes) ∧ db' = db.rollback tx

variable {jsonb log}

/-- The step lemma: no call loses or sets back a row, committed or seen. -/
theorem serves_extends {db db' : ProjectionDb} {op : ProjectionCall} {answer : op.Ans}
    (served : serves jsonb log db op answer db') (orderly : versions.Orderly db) :
    versions.Orderly db' ∧ versions.Extends db db' := by
  have same : db' = db → versions.Orderly db' ∧ versions.Extends db db' := by
    rintro rfl
    exact ⟨orderly, .refl _⟩
  cases op with
  | stillHeld => exact same served
  | readCheckpoint name => exact same served.1
  | createConsumer startSequence => exact same served
  | openMessages => exact same served
  | next position => exact same served.1
  | begin =>
      rcases served with ⟨error, -, unchanged⟩ | ⟨-, rfl⟩
      · exact same unchanged
      · exact orderly.begin
  | loadDocument tx tenant documentId => exact same served.1
  | recordFailure tx name streamSeq subject payload error =>
      exact Statement.Executed.extends served (Statement.recordFailure_advances _ _ _ _ _ _) orderly
  | upsertDocument tx state =>
      exact Statement.Executed.extends served (Statement.upsert_advances _ _ _) orderly
  | writeCheckpoint tx name streamSeq =>
      exact Statement.Executed.extends served (Statement.checkpoint_advances _ _ _) orderly
  | commit tx =>
      rcases served with ⟨writes, found, rfl⟩ | ⟨-, unchanged | ⟨writes, found, rfl⟩⟩
      · exact orderly.commit found
      · exact same unchanged
      · exact orderly.rollback found

theorem abandoned_extends {db db' : ProjectionDb} (abandoned : Abandoned db db')
    (orderly : versions.Orderly db) : versions.Orderly db' ∧ versions.Extends db db' := by
  obtain ⟨tx, writes, found, rfl⟩ := abandoned
  exact orderly.rollback found

end ProjectionDb

end Delphi.Document
